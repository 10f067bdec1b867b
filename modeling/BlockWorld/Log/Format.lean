import BlockWorld.Log.Place
/-!
Messages with places for arguments. A place is a percent sign, flags, a width, a precision and a
letter: `%s` takes a text, `%d` a whole number, `%v` either; two percent signs stand for one. A
star takes a width or a precision from the arguments, and a number in brackets tells which argument
comes next. What does not fit is reported inside the message.
-/
namespace BlockWorld.Log

/-- The report of arguments that have no place. -/
def extraArguments (args : List Argument) : List Char :=
  if args.isEmpty then []
  else "%!(EXTRA ".toList ++ [',', ' '].intercalate (args.map (·.described {})) ++ [')']

/-- A report about a place, which its letter names. -/
def report (letter : Char) (what : String) : List Char :=
  '%' :: '!' :: letter :: '(' :: (what.toList ++ [')'])

/-- Reads flags. -/
def takeFlags (s : Style) : List Char → Style × List Char
  | '#' :: rest => takeFlags { s with sharp := true } rest
  | '0' :: rest => takeFlags { s with zero := true } rest
  | '+' :: rest => takeFlags { s with plus := true } rest
  | '-' :: rest => takeFlags { s with minus := true } rest
  | ' ' :: rest => takeFlags { s with space := true } rest
  | rest => (s, rest)

/-- Numbers above this are too large for a width, a precision or an index. -/
def numberLimit : Nat := 1000000

/-- Reads digits on top of `n`. Nothing can be read behind a number that is too large. -/
def takeNumber (n : Option Nat) : List Char → Option Nat × List Char
  | [] => (n, [])
  | c :: rest =>
    match Text.digitValue? c with
    | none => (n, c :: rest)
    | some d => if numberLimit < n.getD 0 then (none, []) else takeNumber (some (n.getD 0 * 10 + d)) rest

/-- A place that is partly read. -/
structure PlaceScan where
  rest : List Char
  /-- The number of the next argument. -/
  next : Nat
  /-- Whether all indexes were good. -/
  good : Bool
  /-- Whether an index was met in the message. -/
  reordered : Bool
  /-- Whether an index was read just before. -/
  indexed : Bool
  style : Style
  /-- Reports about the place. -/
  reports : List Char

namespace PlaceScan

/-- The number of characters of an index in brackets, and the index if it is a number. -/
def bracketed (cs : List Char) : Nat × Option Nat :=
  let inside := (cs.drop 1).takeWhile (· != ']')
  if cs.length = inside.length + 1 || cs.length < 3 then (1, none)
  else
    match takeNumber none inside with
    | (some n, []) => (inside.length + 2, some n)
    | _ => (inside.length + 2, none)

/-- Reads an index in brackets, if there is one. -/
def takeIndex (count : Nat) (p : PlaceScan) : PlaceScan :=
  if p.rest.head? ≠ some '[' then { p with indexed := false }
  else
    let (width, found) := bracketed p.rest
    let p := { p with rest := p.rest.drop width, reordered := true, indexed := found.isSome }
    match found with
    | some n => if 1 ≤ n ∧ n ≤ count then { p with next := n - 1 } else { p with good := false }
    | none => { p with good := false }

/-- Takes a number from the arguments. -/
def takeStar (args : List Argument) (p : PlaceScan) : Option Int × PlaceScan :=
  let p := { p with rest := p.rest.drop 1, indexed := false }
  match args[p.next]? with
  | none => (none, p)
  | some a =>
    let p := { p with next := p.next + 1 }
    match a with
    | .whole n => if n.toInt.natAbs ≤ numberLimit then (some n.toInt, p) else (none, p)
    | .text _ => (none, p)

/-- Reads a width. -/
def takeWidth (args : List Argument) (p : PlaceScan) : PlaceScan :=
  if p.rest.head? = some '*' then
    match p.takeStar args with
    | (none, p) => { p with reports := p.reports ++ "%!(BADWIDTH)".toList }
    | (some n, p) =>
      { p with style := { p.style with width := some n.natAbs, minus := p.style.minus || n < 0 } }
  else
    let (n, rest) := takeNumber none p.rest
    { p with rest, style := { p.style with width := n }, good := p.good && !(p.indexed && n.isSome) }

/-- Reads a precision behind a point. -/
def takePrecision (args : List Argument) (p : PlaceScan) : PlaceScan :=
  if p.rest.head? ≠ some '.' then p
  else
    let p := { p with rest := p.rest.drop 1, good := p.good && !p.indexed }.takeIndex args.length
    if p.rest.head? = some '*' then
      match p.takeStar args with
      | (some (.ofNat n), p) => { p with style := { p.style with precision := some n } }
      | (_, p) => { p with reports := p.reports ++ "%!(BADPREC)".toList }
    else
      let (n, rest) := takeNumber none p.rest
      { p with rest, style := { p.style with precision := some (n.getD 0) } }

/-- Reads all that stands in front of the letter. -/
def takeStyle (args : List Argument) (p : PlaceScan) : PlaceScan :=
  let (style, rest) := takeFlags p.style p.rest
  let p := { p with style, rest }.takeIndex args.length
  let p := (p.takeWidth args).takePrecision args
  if p.indexed then p else p.takeIndex args.length

/-- The style for a letter: for one that takes any argument, the other form of a text is a quoted one, and
numbers have no sign. -/
def styleFor (p : PlaceScan) (letter : Char) : Style :=
  if letter = 'v' ∨ letter = 'w' then
    { p.style with quoted := p.style.sharp, sharp := false, plus := false }
  else p.style

/-- What stands for a place with a given letter, and the number of the argument behind it. -/
def filled (args : List Argument) (p : PlaceScan) (letter : Char) : List Char × Nat :=
  if letter = '%' then (['%'], p.next)
  else if !p.good then (report letter "BADINDEX", p.next)
  else
    match args[p.next]? with
    | none => (report letter "MISSING", p.next)
    | some a => (a.placed (p.styleFor letter) letter, p.next + 1)

end PlaceScan

/-- Fills the places of a message from the left. -/
def fill (args : List Argument) : (fuel next : Nat) → (reordered : Bool) → List Char → List Char
  | 0, _, _, _ => []
  | fuel + 1, next, reordered, cs =>
    let extra (next : Nat) (reordered : Bool) : List Char :=
      if reordered then [] else extraArguments (args.drop next)
    let text := cs.takeWhile (· != '%')
    text ++
      match cs.drop text.length with
      | [] => extra next reordered
      | _ :: rest =>
        let p := PlaceScan.takeStyle args ⟨rest, next, true, reordered, false, {}, []⟩
        p.reports ++
          match p.rest with
          | [] => "%!(NOVERB)".toList ++ extra p.next p.reordered
          | letter :: rest =>
            let (out, next) := p.filled args letter
            out ++ fill args fuel next p.reordered rest

/-- A message with its arguments. -/
def format (text : String) (args : List Argument) : String :=
  String.ofList (fill args (text.length + 1) 0 false text.toList)

end BlockWorld.Log
