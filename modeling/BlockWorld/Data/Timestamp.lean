import BlockWorld.Number.Decimal
/-!
Points in time: a calendar date, a time of day down to nanoseconds, and the offset from Greenwich
in seconds. They are read from and written to texts such as `2024-05-01T12:30:00.5+03:00`.
-/
namespace BlockWorld.Data

/-- A point in time, as a clock with a given offset shows it. -/
structure Timestamp where
  year : Nat
  month : Nat
  day : Nat
  hour : Nat
  minute : Nat
  second : Nat
  nanosecond : Nat
  /-- Seconds east of Greenwich. -/
  offset : Int
  deriving DecidableEq, Repr

namespace Timestamp

/-- The start of the calendar, which stands for no time at all. -/
def zero : Timestamp := ⟨1, 1, 1, 0, 0, 0, 0, 0⟩

instance : Inhabited Timestamp := ⟨zero⟩

/-! ## The calendar -/

/-- Whether a year has 366 days. -/
def isLeap (year : Nat) : Bool := year % 4 == 0 && (year % 100 != 0 || year % 400 == 0)

/-- The number of days of a month. -/
def daysIn (year month : Nat) : Nat :=
  match month with
  | 2 => if isLeap year then 29 else 28
  | 4 => 30
  | 6 => 30
  | 9 => 30
  | 11 => 30
  | _ => 31

/-- Whether date and time of day exist. -/
def isValid (t : Timestamp) : Bool :=
  1 ≤ t.month && t.month ≤ 12 && 1 ≤ t.day && t.day ≤ daysIn t.year t.month &&
    t.hour < 24 && t.minute < 60 && t.second < 60

/-- The time at Greenwich some seconds after the start of 1970. Years are counted from March, so that
a leap day is the last day of its year; a cycle of 400 years has 146097 days. -/
def ofUnix (seconds nanosecond : Nat) : Timestamp :=
  let days := seconds / 86400 + 719468
  let inCycle := days % 146097
  let yearInCycle := (inCycle - inCycle / 1460 + inCycle / 36524 - inCycle / 146096) / 365
  let inYear := inCycle - (365 * yearInCycle + yearInCycle / 4 - yearInCycle / 100)
  let fromMarch := (5 * inYear + 2) / 153
  let month := if fromMarch < 10 then fromMarch + 3 else fromMarch - 9
  let year := days / 146097 * 400 + yearInCycle + (if month ≤ 2 then 1 else 0)
  ⟨year, month, inYear - (153 * fromMarch + 2) / 5 + 1, seconds / 3600 % 24, seconds / 60 % 60,
    seconds % 60, nanosecond, 0⟩

/-! ## Writing -/

/-- A number with at least `width` digits. -/
def padded (width n : Nat) : String :=
  let digits := Nat.toDigits 10 n
  String.ofList (List.replicate (width - digits.length) '0' ++ digits)

/-- The date, as in `2024-05-01`. -/
def dateText (t : Timestamp) : String :=
  padded 4 t.year ++ "-" ++ padded 2 t.month ++ "-" ++ padded 2 t.day

/-- The time of day, as in `12:30:00`. -/
def clockText (t : Timestamp) : String :=
  padded 2 t.hour ++ ":" ++ padded 2 t.minute ++ ":" ++ padded 2 t.second

/-- The fraction of the second without zeros at its end; nothing for a whole second. -/
def fractionText (t : Timestamp) : String :=
  if t.nanosecond = 0 then ""
  else
    let digits := (padded 9 t.nanosecond).toList
    String.ofList ('.' :: (digits.reverse.dropWhile (· == '0')).reverse)

/-- The offset: `Z` for none, else hours and minutes. -/
def offsetText (t : Timestamp) : String :=
  if t.offset = 0 then "Z"
  else
    let minutes := t.offset.natAbs / 60
    (if t.offset < 0 then "-" else "+") ++ padded 2 (minutes / 60) ++ ":" ++ padded 2 (minutes % 60)

/-- The full text, as in `2024-05-01T12:30:00.5+03:00`. -/
def text (t : Timestamp) : String :=
  t.dateText ++ "T" ++ t.clockText ++ t.fractionText ++ t.offsetText

/-- Date and time of day, as in `2024-05-01 12:30:00`. -/
def plainText (t : Timestamp) : String := t.dateText ++ " " ++ t.clockText

/-- Date and time of day for names of files, as in `2024-05-01_12-30-00`. -/
def fileText (t : Timestamp) : String :=
  t.dateText ++ "_" ++ padded 2 t.hour ++ "-" ++ padded 2 t.minute ++ "-" ++ padded 2 t.second

/-! ## Reading -/

/-- Exactly `n` digits. -/
def fixed? (n : Nat) (cs : List Char) : Option (Nat × List Char) :=
  let digits := cs.take n
  if digits.length = n then
    match Number.digitRun 0 0 digits with
    | (v, _, []) => some (v, cs.drop n)
    | _ => none
  else none

/-- One digit, or two where two stand together. -/
def short? (cs : List Char) : Option (Nat × List Char) :=
  match fixed? 2 cs with
  | some found => some found
  | none => fixed? 1 cs

/-- A given character. -/
def mark? (c : Char) : List Char → Option (List Char)
  | d :: rest => if c = d then some rest else none
  | [] => none

/-- An optional fraction of a second, cut after nine digits. -/
def fraction (cs : List Char) : Nat × List Char :=
  match cs with
  | c :: rest =>
    let digits := rest.takeWhile Char.isDigit
    if (c = '.' ∨ c = ',') ∧ !digits.isEmpty then
      let nine := digits.take 9
      let (v, _, _) := Number.digitRun 0 0 nine
      (v * Nat.pow 10 (9 - nine.length), rest.drop digits.length)
    else (0, cs)
  | [] => (0, [])

/-- The offset at the end of a text. -/
def offset? (cs : List Char) : Option Int :=
  match cs with
  | ['Z'] => some 0
  | sign :: rest => do
    let (hours, rest) ← fixed? 2 rest
    let rest ← mark? ':' rest
    let (minutes, rest) ← fixed? 2 rest
    if !rest.isEmpty || 24 < hours || 60 < minutes then none
    let seconds : Int := (hours * 60 + minutes) * 60
    if sign = '+' then some seconds else if sign = '-' then some (-seconds) else none
  | [] => none

/-- Which numbers of fields are allowed: always two digits, or one where that is enough. The hour
may always have one digit. -/
abbrev FieldReader := List Char → Option (Nat × List Char)

/-- A date. -/
def date? (field : FieldReader) (cs : List Char) : Option (Timestamp × List Char) := do
  let (year, rest) ← fixed? 4 cs
  let rest ← mark? '-' rest
  let (month, rest) ← field rest
  let rest ← mark? '-' rest
  let (day, rest) ← field rest
  some (⟨year, month, day, 0, 0, 0, 0, 0⟩, rest)

/-- A date and a time of day, divided by a given character; a space may be repeated. -/
def dateTime? (field : FieldReader) (divider : Char) (cs : List Char) :
    Option (Timestamp × List Char) := do
  let (t, rest) ← date? field cs
  let rest ← mark? divider rest
  let rest := if divider = ' ' then rest.dropWhile (· == ' ') else rest
  let (hour, rest) ← short? rest
  let rest ← mark? ':' rest
  let (minute, rest) ← field rest
  let rest ← mark? ':' rest
  let (second, rest) ← field rest
  let (nanosecond, rest) := fraction rest
  some ({ t with hour, minute, second, nanosecond }, rest)

/-- A valid time with an offset behind it. -/
def withOffset? (found : Option (Timestamp × List Char)) : Option Timestamp := do
  let (t, rest) ← found
  let offset ← offset? rest
  if t.isValid then some { t with offset } else none

/-- A valid time with nothing behind it. -/
def alone? (found : Option (Timestamp × List Char)) : Option Timestamp := do
  let (t, rest) ← found
  if rest.isEmpty && t.isValid then some t else none

/-- Reads the full form, all fields but the hour with two digits. -/
def parse? (s : String) : Option Timestamp :=
  withOffset? (dateTime? (fixed? 2) 'T' s.toList)

/-- Reads the forms that plain scalars may have: the full form with short fields, a date and a time
of day without an offset, or a date alone. -/
def parseLenient? (s : String) : Option Timestamp :=
  let cs := s.toList
  (withOffset? (dateTime? short? 'T' cs)).or <| (withOffset? (dateTime? short? 't' cs)).or <|
    (alone? (dateTime? short? ' ' cs)).or (alone? (date? short? cs))

end Timestamp

end BlockWorld.Data
