import BlockWorld.Data.Json
/-!
Percent escapes in the addresses of requests. Which bytes stand for themselves depends on the part of
the address they occur in.
-/
namespace BlockWorld.Http

/-- The parts of an address that hold escapes. -/
inductive Part where
  | path
  /-- The name of a user, or a password. -/
  | user
  | host
  /-- The zone of an internet address. -/
  | zone
  | query
  deriving DecidableEq, Repr

/-- Whether a byte is one of some characters. -/
def isOneOf (chars : String) (b : UInt8) : Bool :=
  chars.toList.any fun c => c.toNat == b.toNat

/-- Whether a byte is a letter or a digit. -/
def isAlphanumeric (b : UInt8) : Bool := b < 0x80 && (Char.ofNat b.toNat).isAlphanum

/-- Whether a byte stands for itself in a part of an address. -/
def Part.isPlain (part : Part) (b : UInt8) : Bool :=
  isAlphanumeric b || isOneOf "-_.~" b ||
    match part with
    | .path => isOneOf "$&+,/:;=@" b
    | .user => isOneOf "$&+,;=" b
    | .host => isOneOf "!$&'()*+,;=:[]<>\"" b
    | .zone => isOneOf "!$&'()*+,;=:[]<>\"" b
    | .query => false

/-- Why escapes cannot be resolved. -/
inductive EscapeProblem where
  /-- A percent sign starts no escape, or one that has no place here. -/
  | badEscape (bytes : List UInt8)
  /-- A character cannot be part of a host. -/
  | badHostByte (b : UInt8)
  deriving DecidableEq, Repr

/-- The wording of a problem. -/
def EscapeProblem.message : EscapeProblem → String
  | .badEscape bytes => "invalid URL escape " ++ Text.quoteBytes ⟨bytes.toArray⟩
  | .badHostByte b => "invalid character " ++ Text.quoteBytes ⟨#[b]⟩ ++ " in host name"

/-- The value of a byte as a hexadecimal digit. -/
def hexByte? (b : UInt8) : Option UInt8 :=
  (Data.Json.hexValue? (Char.ofNat b.toNat)).map (·.toUInt8)

/-- The percent sign. -/
def percent : UInt8 := 0x25

/-- Whether an escape may stand for a byte: in a host only for bytes outside ASCII and the percent
sign, in a zone only for what may be written there without an escape, the percent sign and the
space. -/
def Part.mayEscape (part : Part) (b : UInt8) : Bool :=
  match part with
  | .host => 0x80 ≤ b || b == percent
  | .zone => b == percent || b == 0x20 || Part.isPlain .host b
  | _ => true

/-- Whether a byte that is no percent sign may stand in a part of an address. -/
def Part.mayHold (part : Part) (b : UInt8) : Bool :=
  match part with
  | .host => 0x80 ≤ b || part.isPlain b
  | .zone => 0x80 ≤ b || part.isPlain b
  | _ => true

/-- Resolves escapes: a percent sign and two digits stand for a byte, and in queries a plus sign
stands for a space. -/
def unescape (part : Part) : List UInt8 → Except EscapeProblem (List UInt8)
  | [] => .ok []
  | c :: rest =>
    if c = percent then
      match rest with
      | a :: b :: rest =>
        match hexByte? a, hexByte? b with
        | some high, some low =>
          if part.mayEscape (high * 16 + low) then do
            return (high * 16 + low) :: (← unescape part rest)
          else .error (.badEscape [c, a, b])
        | _, _ => .error (.badEscape [c, a, b])
      | short => .error (.badEscape (c :: short))
    else if part.mayHold c then do
      return (if part = .query ∧ c = 0x2B then 0x20 else c) :: (← unescape part rest)
    else .error (.badHostByte c)

/-- Writes bytes in a part of an address, those that do not stand for themselves as escapes. -/
def escape (part : Part) (bytes : List UInt8) : List Char :=
  bytes.flatMap fun b =>
    if part.isPlain b then [Char.ofNat b.toNat]
    else '%' :: (Text.hexDigits 2 b.toNat).map Char.toUpper

/-- Bytes outside ASCII as escapes, all others as they are. -/
def escapeNonAscii (s : String) : String :=
  String.ofList (s.toList.flatMap fun c =>
    if c.toNat < 0x80 then [c]
    else (String.singleton c).toUTF8.toList.flatMap fun b => '%' :: Text.hexDigits 2 b.toNat)

/-- A text inside the markup of a page. -/
def escapeMarkup (s : String) : String :=
  String.ofList (s.toList.flatMap fun c =>
    match c with
    | '&' => "&amp;".toList
    | '<' => "&lt;".toList
    | '>' => "&gt;".toList
    | '"' => "&#34;".toList
    | '\'' => "&#39;".toList
    | c => [c])

end BlockWorld.Http
