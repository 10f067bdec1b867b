import BlockWorld.Http.Escape
/-!
Internet addresses as texts: four numbers between points, or eight groups of hexadecimal digits between
colons. Two colons stand for missing groups, the last two groups may be written as four numbers, and a
zone may follow behind a percent sign.
-/
namespace BlockWorld.Http

/-- The forms of an internet address. -/
inductive InternetAddress where
  | numbers
  | groups (zone : List UInt8)
  deriving DecidableEq, Repr

namespace InternetAddress

/-- Why a text is no internet address. Some problems have a place: the text from there on. -/
inductive Problem where
  | unrecognized
  | onlyZone
  | emptyZone
  | zeroInFront
  | numberTooLarge
  | emptyNumber (place : List UInt8)
  | tooManyNumbers
  | tooFewNumbers
  | strayByte (place : List UInt8)
  | longGroup (place : List UInt8)
  | emptyGroup (place : List UInt8)
  | earlyNumbers (place : List UInt8)
  | lateNumbers (place : List UInt8)
  | noColon (place : List UInt8)
  | lastColon (place : List UInt8)
  | secondGap (place : List UInt8)
  | tooManyGroups (place : List UInt8)
  | tooFewGroups
  | emptyGap
  deriving DecidableEq, Repr

/-- What is wrong, and from where on. -/
def Problem.parts : Problem → String × List UInt8
  | .unrecognized => ("unable to parse IP", [])
  | .onlyZone => ("missing IPv6 address", [])
  | .emptyZone => ("zone must be a non-empty string", [])
  | .zeroInFront => ("IPv4 field has octet with leading zero", [])
  | .numberTooLarge => ("IPv4 field has value >255", [])
  | .emptyNumber place => ("IPv4 field must have at least one digit", place)
  | .tooManyNumbers => ("IPv4 address too long", [])
  | .tooFewNumbers => ("IPv4 address too short", [])
  | .strayByte place => ("unexpected character", place)
  | .longGroup place => ("each group must have 4 or fewer digits", place)
  | .emptyGroup place => ("each colon-separated field must have at least one digit", place)
  | .earlyNumbers place =>
    ("embedded IPv4 address must replace the final 2 fields of the address", place)
  | .lateNumbers place =>
    ("too many hex fields to fit an embedded IPv4 at the end of the address", place)
  | .noColon place => ("unexpected character, want colon", place)
  | .lastColon place => ("colon must be followed by more characters", place)
  | .secondGap place => ("multiple :: in address", place)
  | .tooManyGroups place => ("trailing garbage after address", place)
  | .tooFewGroups => ("address string too short", [])
  | .emptyGap => ("the :: must expand to at least one field of zeros", [])

/-- The wording of a problem with a text. -/
def Problem.message (text : List UInt8) (p : Problem) : String :=
  let (what, place) := p.parts
  "ParseAddr(" ++ Text.quoteBytes ⟨text.toArray⟩ ++ "): " ++ what ++
    if place.isEmpty then "" else " (at " ++ Text.quoteBytes ⟨place.toArray⟩ ++ ")"

/-- The point. -/
def point : UInt8 := 0x2E

/-- The colon. -/
def colon : UInt8 := 0x3A

/-- The number of numbers of an address. -/
def numberCount : Nat := 4

/-- The number of groups of an address. -/
def groupCount : Nat := 8

/-- Reads numbers between points, of which `before` came before. The current one has the value `value`
and `digits` digits so far; a zero cannot stand in front of other digits. -/
def checkNumbers (before value digits : Nat) : List UInt8 → Except Problem Unit
  | [] => if before + 1 < numberCount then .error .tooFewNumbers else .ok ()
  | c :: rest =>
    if isOneOf "0123456789" c then
      let next := value * 10 + (c.toNat - '0'.toNat)
      if digits = 1 ∧ value = 0 then .error .zeroInFront
      else if 255 < next then .error .numberTooLarge
      else checkNumbers before next (digits + 1) rest
    else if c = point then
      if digits = 0 ∨ rest.isEmpty then .error (.emptyNumber (c :: rest))
      else if before + 1 = numberCount then .error .tooManyNumbers
      else checkNumbers (before + 1) 0 0 rest
    else .error (.strayByte (c :: rest))

/-- The end of an address when `left` groups are missing. Two colons have to stand for some of them. -/
def checkMissing (gap : Bool) (left : Nat) : Except Problem Unit :=
  if 0 < left then if gap then .ok () else .error .tooFewGroups
  else if gap then .error .emptyGap else .ok ()

/-- Reads up to `left` groups. `gap` tells that two colons came before. -/
def checkGroups : (gap : Bool) → (left : Nat) → List UInt8 → Except Problem Unit
  | _, 0, s => .error (.tooManyGroups s)
  | gap, left + 1, s =>
    let digits := s.takeWhile fun b => (hexByte? b).isSome
    if 4 < digits.length then .error (.longGroup s)
    else if digits.isEmpty then .error (.emptyGroup s)
    else
      match s.drop digits.length with
      | [] => checkMissing gap left
      | c :: rest =>
        if c = point then
          if !gap && left != 1 then .error (.earlyNumbers s)
          else if left = 0 then .error (.lateNumbers s)
          else do
            checkNumbers 0 0 0 s
            checkMissing gap (left - 1)
        else if c ≠ colon then .error (.noColon (c :: rest))
        else
          match rest with
          | [] => .error (.lastColon [c])
          | d :: more =>
            if d = colon then
              if gap then .error (.secondGap rest)
              else if more.isEmpty then checkMissing true left
              else checkGroups true left more
            else checkGroups gap left rest

/-- Reads an address in groups. -/
def readGroups (text : List UInt8) : Except Problem InternetAddress :=
  let (s, zone) := text.span (· != percent)
  if zone.length = 1 then .error .emptyZone
  else
    let result :=
      if [colon, colon].isPrefixOf s then
        if s.length = 2 then .ok () else checkGroups true groupCount (s.drop 2)
      else checkGroups false groupCount s
    result.map fun _ => .groups (zone.drop 1)

/-- Reads an address. Its first sign tells the form. -/
def parse (text : List UInt8) : Except Problem InternetAddress :=
  match text.find? fun b => b == point || b == colon || b == percent with
  | none => .error .unrecognized
  | some b =>
    if b = point then (checkNumbers 0 0 0 text).map fun _ => .numbers
    else if b = colon then readGroups text
    else .error .onlyZone

end InternetAddress

end BlockWorld.Http
