/-!
# Tokens of a YAML text

What the scanner makes of a text: the marks that structure it, with the nesting that indentation
expresses spelled out, and the scalars with their blanks folded and their escapes replaced.
-/

namespace PayeeProposal.Yaml

/-- How a scalar is written. -/
inductive Style where
  | plain
  | singleQuoted
  | doubleQuoted
  | literal
  | folded
deriving DecidableEq, Repr

/-- A tag as it is written: a handle that a directive expands, which is empty for a tag given in
full, and the bytes behind it. -/
structure TagText where
  handle : String
  suffix : List UInt8
deriving DecidableEq, Repr

/-- A token. -/
inductive Token where
  | version (major minor : Nat)
  | handle (name : String) (expansion : List UInt8)
  | documentStart
  | documentEnd
  | blockSequenceStart
  | blockMappingStart
  | blockEnd
  | flowSequenceStart
  | flowSequenceEnd
  | flowMappingStart
  | flowMappingEnd
  | blockEntry
  | flowEntry
  | key
  | value
  | alias (name : String)
  | anchor (name : String)
  | tag (tag : TagText)
  | scalar (style : Style) (text : String)
deriving DecidableEq, Repr

end PayeeProposal.Yaml
