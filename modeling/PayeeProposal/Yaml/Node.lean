import PayeeProposal.Yaml.Token

/-!
# Nodes of a YAML document

A document is a tree of scalars, sequences and mappings. An alias stands for a node elsewhere in
the document and refers to it by the number of an anchor.
-/

namespace PayeeProposal.Yaml

/-- A scalar with its tag, the bytes of a full tag. -/
structure Scalar where
  tag : Option (List UInt8)
  style : Style
  text : String
deriving DecidableEq, Repr

/-- A node. -/
inductive Node where
  | scalar (s : Scalar)
  | sequence (items : List Node)
  | mapping (entries : List (Node × Node))
  | alias (number : Nat)

/-- A document: its node, unless the text is empty, and the nodes that have anchors. -/
structure Document where
  root : Option Node
  /-- For each number, the last node that has it. -/
  anchored : List (Nat × Node)

namespace Scalar

/-- A scalar of which nothing is written. -/
def empty : Scalar :=
  ⟨none, .plain, ""⟩

/-- Whether nothing is written but perhaps a tag. -/
def isEmpty (s : Scalar) : Bool :=
  s.style == .plain && s.text == ""

end Scalar

namespace Node

/-- A node of which nothing is written. -/
def empty : Node :=
  .scalar .empty

end Node

namespace Document

/-- The node that a node stands for. -/
def resolve (d : Document) : Node → Option Node
  | .alias number => d.anchored.lookup number
  | node => some node

end Document

end PayeeProposal.Yaml
