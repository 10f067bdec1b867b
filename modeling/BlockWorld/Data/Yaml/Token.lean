import BlockWorld.Data.Yaml.Lexeme.Name
/-!
The tokens of a YAML text. Indentation is told by tokens of its own: a block collection starts where
the text moves to the right and ends where it moves back.
-/
namespace BlockWorld.Data.Yaml

/-- A token. -/
inductive Token where
  /-- What follows cannot be read. -/
  | fault
  | textEnd
  | directive (d : Directive)
  | documentStart
  | documentEnd
  | blockSequenceStart
  | blockMappingStart
  | blockEnd
  | flowSequenceStart
  | flowSequenceEnd
  | flowMappingStart
  | flowMappingEnd
  | blockEntry
  | flowEntry
  | key
  | value
  | alias (name : List Char)
  | anchor (name : List Char)
  | tag (t : Tag)
  | scalar (text : List Char) (plain : Bool)
  deriving DecidableEq

end BlockWorld.Data.Yaml
