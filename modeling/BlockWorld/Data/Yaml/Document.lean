import BlockWorld.Data.Yaml.Node
import BlockWorld.Data.Yaml.Token.Lexer
/-!
The document that tokens describe. Only the first document of a text is read; what follows it does
not count.
-/
namespace BlockWorld.Data.Yaml

/-- What is known while a document is put together. -/
structure Builder where
  /-- The tokens that are not used yet. -/
  tokens : List Token
  /-- What the handles of tags stand for. -/
  handles : List (List Char × List Char)
  /-- The numbers of the anchors that were met, the last one first. -/
  anchors : List (List Char × Nat)
  /-- The nodes with anchors that are complete. -/
  anchored : List (Nat × Node)
  /-- The number of aliases that were met. -/
  aliases : Nat

/-- A step of putting a document together. -/
abbrev Build := StateT Builder (Except Malformed)

namespace Build

/-- Fails. -/
def malformed {α : Type} : Build α := throw ⟨⟩

/-- The next token. -/
def peek : Build Token := do return (← get).tokens.head?.getD .fault

/-- Leaves the next token behind. -/
def skip : Build Unit := modify fun b => { b with tokens := b.tokens.drop 1 }

/-! ## Nodes before their content -/

/-- The handles that need no directive. -/
def builtinHandles : List (List Char × List Char) :=
  [(['!'], ['!']), (['!', '!'], "tag:yaml.org,2002:".toList)]

/-- The short form of a tag of the format itself. -/
def shortTag (tag : List Char) : String :=
  let start := "tag:yaml.org,2002:".toList
  if start.isPrefixOf tag then "!!" ++ String.ofList (tag.drop start.length) else String.ofList tag

/-- What a tag stands for; the tag that is only a sign stands for none. -/
def resolveTag (t : Tag) : Build (Option String) := do
  let full ←
    if t.handle.isEmpty then pure t.suffix
    else
      match (← get).handles.lookup t.handle with
      | some start => pure (start ++ t.suffix)
      | none => malformed
  return if full = ['!'] then none else some (shortTag full)

/-- Gives an anchor a number. An anchor may be set again, for the aliases that follow. -/
def setAnchor (name : List Char) : Build Nat := do
  let b ← get
  let number := b.anchors.length
  set { b with anchors := (name, number) :: b.anchors }
  return number

/-- What stands in front of the content of a node. -/
structure Properties where
  anchor : Option (List Char)
  tag : Option Tag

/-- Reads an anchor and a tag in any order; both may be missing. -/
def properties : Build Properties := do
  match ← peek with
  | .anchor name =>
    skip
    match ← peek with
    | .tag t => do skip; return ⟨some name, some t⟩
    | _ => return ⟨some name, none⟩
  | .tag t =>
    skip
    match ← peek with
    | .anchor name => do skip; return ⟨some name, some t⟩
    | _ => return ⟨none, some t⟩
  | _ => return ⟨none, none⟩

/-- An alias of an anchor that was met before. -/
def aliasNode (name : List Char) : Build Node := do
  let b ← get
  match b.anchors.lookup name with
  | some target =>
    set { b with aliases := b.aliases + 1 }
    return .alias b.aliases (String.ofList name) target
  | none => malformed

/-- Whether a token ends a part of a block mapping. -/
def endsBlockPart (t : Token) : Bool := t == .key || t == .value || t == .blockEnd

/-- Whether a token ends a part of a flow mapping. -/
def endsFlowPart (t : Token) : Bool := t == .flowEntry || t == .flowMappingEnd

/-- Whether a token ends a part of a pair in a flow sequence. -/
def endsPairPart (t : Token) : Bool := t == .flowEntry || t == .flowSequenceEnd

/-! ## Content -/

mutual

/-- Reads a node. `block` tells whether block collections may stand here, and `indentless` whether a
sequence may start without moving to the right. -/
def node : (fuel : Nat) → (block indentless : Bool) → Build Node
  | 0, _, _ => malformed
  | fuel + 1, block, indentless => do
    match ← peek with
    | .alias name => do skip; aliasNode name
    | _ =>
      let given ← properties
      let tag ← match given.tag with
        | some t => resolveTag t
        | none => pure none
      let number ← given.anchor.mapM setAnchor
      let found ← content fuel block indentless tag (given.anchor.isSome || given.tag.isSome)
      match number with
      | some n => modify fun b => { b with anchored := (n, found) :: b.anchored }
      | none => pure ()
      return found

/-- Reads the content of a node, which may be left out behind an anchor or a tag. -/
def content : (fuel : Nat) → (block indentless : Bool) → (tag : Option String) →
    (optional : Bool) → Build Node
  | 0, _, _, _, _ => malformed
  | fuel + 1, block, indentless, tag, optional => do
    match ← peek with
    | .blockEntry => if indentless then .sequence tag <$> bareItems fuel else orMissing tag optional
    | .scalar text plain => do skip; return .scalar tag (String.ofList text) plain
    | .flowSequenceStart => do skip; .sequence tag <$> flowItems fuel true
    | .flowMappingStart => do skip; .mapping tag <$> flowPairs fuel true
    | .blockSequenceStart =>
      if block then do skip; .sequence tag <$> blockItems fuel else orMissing tag optional
    | .blockMappingStart =>
      if block then do skip; .mapping tag <$> blockPairs fuel else orMissing tag optional
    | _ => orMissing tag optional
where
  /-- The content that was left out. -/
  orMissing (tag : Option String) (optional : Bool) : Build Node :=
    if optional then return .scalar tag "" true else malformed

/-- Reads the items of a block sequence and its end. -/
def blockItems : (fuel : Nat) → Build (List Node)
  | 0 => malformed
  | fuel + 1 => do
    match ← peek with
    | .blockEntry =>
      skip
      let t ← peek
      let item ← if t == .blockEntry || t == .blockEnd then pure .missing else node fuel true false
      return item :: (← blockItems fuel)
    | .blockEnd => do skip; return []
    | _ => malformed

/-- Reads the items of a sequence that does not move to the right. -/
def bareItems : (fuel : Nat) → Build (List Node)
  | 0 => malformed
  | fuel + 1 => do
    match ← peek with
    | .blockEntry =>
      skip
      let t ← peek
      let item ← if t == .blockEntry || endsBlockPart t then pure .missing else node fuel true false
      return item :: (← bareItems fuel)
    | _ => return []

/-- Reads the pairs of a block mapping and its end. -/
def blockPairs : (fuel : Nat) → Build (List (Node × Node))
  | 0 => malformed
  | fuel + 1 => do
    match ← peek with
    | .key =>
      skip
      let key ← if endsBlockPart (← peek) then pure .missing else node fuel true true
      let value ← match ← peek with
        | .value => do
          skip
          if endsBlockPart (← peek) then pure .missing else node fuel true true
        | _ => pure .missing
      return (key, value) :: (← blockPairs fuel)
    | .blockEnd => do skip; return []
    | _ => malformed

/-- Reads the items of a flow sequence and its end. -/
def flowItems : (fuel : Nat) → (first : Bool) → Build (List Node)
  | 0, _ => malformed
  | fuel + 1, first => do
    if (← peek) == .flowSequenceEnd then
      skip
      return []
    if !first then
      if (← peek) == .flowEntry then skip else malformed
    match ← peek with
    | .flowSequenceEnd => do skip; return []
    | .key =>
      skip
      let item ← pair fuel
      return item :: (← flowItems fuel false)
    | _ =>
      let item ← node fuel false false
      return item :: (← flowItems fuel false)

/-- Reads a mapping of one pair inside a flow sequence. A key that is left out takes the token behind
it with it. -/
def pair : (fuel : Nat) → Build Node
  | 0 => malformed
  | fuel + 1 => do
    let t ← peek
    let key ← if t == .value || endsPairPart t then do skip; pure .missing else node fuel false false
    let value ← match ← peek with
      | .value => do
        skip
        if endsPairPart (← peek) then pure .missing else node fuel false false
      | _ => pure .missing
    return .mapping none [(key, value)]

/-- Reads the pairs of a flow mapping and its end. -/
def flowPairs : (fuel : Nat) → (first : Bool) → Build (List (Node × Node))
  | 0, _ => malformed
  | fuel + 1, first => do
    if (← peek) == .flowMappingEnd then
      skip
      return []
    if !first then
      if (← peek) == .flowEntry then skip else malformed
    match ← peek with
    | .flowMappingEnd => do skip; return []
    | .key =>
      skip
      let t ← peek
      let key ← if t == .value || endsFlowPart t then pure .missing else node fuel false false
      let value ← match ← peek with
        | .value => do
          skip
          if endsFlowPart (← peek) then pure .missing else node fuel false false
        | _ => pure .missing
      return (key, value) :: (← flowPairs fuel false)
    | _ =>
      let key ← node fuel false false
      return (key, .missing) :: (← flowPairs fuel false)

end

/-! ## Documents -/

/-- Reads the directives in front of a document. There must be at most one version, which is known, and
at most one meaning for a handle. -/
def directives : (fuel : Nat) → (versioned : Bool) → (handles : List (List Char × List Char)) →
    Build (List (List Char × List Char))
  | 0, _, _ => malformed
  | fuel + 1, versioned, handles => do
    match ← peek with
    | .directive (.version major minor) =>
      if versioned || major != 1 || minor != 1 then malformed
      skip
      directives fuel true handles
    | .directive (.tag handle start) =>
      if (handles.lookup handle).isSome then malformed
      skip
      directives fuel versioned (handles ++ [(handle, start)])
    | _ => return handles

/-- Whether a token stands between documents. -/
def isOutside : Token → Bool
  | .directive _ => true
  | .documentStart => true
  | .documentEnd => true
  | .textEnd => true
  | _ => false

/-- Reads the first document; a text may have none. -/
def document (fuel : Nat) : Build (Option Node) := do
  match ← peek with
  | .textEnd => return none
  | t =>
    let explicit := match t with
      | .directive _ => true
      | .documentStart => true
      | _ => false
    let handles ← directives fuel false []
    modify fun b => { b with handles := handles ++ builtinHandles }
    if explicit then
      if (← peek) == .documentStart then skip else malformed
    let root ← if explicit && isOutside (← peek) then pure .missing else node fuel true false
    if (← peek) == .fault then malformed
    return some root

end Build

/-- Puts the tokens of a text together to its first document. -/
def Document.ofTokens (ts : List Token) : Except Malformed (Option Document) := do
  let (root, b) ← (Build.document (4 * ts.length + 4)).run ⟨ts, [], [], [], 0⟩
  return root.map fun root => ⟨root, b.anchored, (b.aliases + 1) * (ts.length + 1)⟩

/-- Reads the first document of a text in bytes. -/
def Document.read (data : ByteArray) : Except Malformed (Option Document) :=
  Document.ofTokens (tokens (Source.ofBytes data))

end BlockWorld.Data.Yaml
