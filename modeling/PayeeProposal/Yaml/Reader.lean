import PayeeProposal.Yaml.Document

/-!
# Typed reading of YAML

Readers for texts, optional texts, truth values, small whole numbers and records. A scalar gives
its text whatever it looks like; only a plain scalar, or a literal one with the matching tag, is
looked at as a truth value or a number. A record is a mapping, whose unknown keys are passed over,
or nothing at all.
-/

namespace PayeeProposal.Yaml

/-- A reader makes a value from a node of a document. -/
abbrev Reader (α : Type) : Type :=
  Document → Node → Option α

namespace Reader

/-- The scalar that a node stands for. -/
def scalar : Reader Scalar := fun d n =>
  match d.resolve n with
  | some (.scalar s) => some s
  | _ => none

/-- Reads a text: any scalar as it is. -/
def text : Reader String := fun d n =>
  (scalar d n).map Scalar.text

/-- The tag of the standard type of a name. -/
def standardTag (name : String) : List UInt8 :=
  ("tag:yaml.org,2002:" ++ name).toUTF8.toList

/-- The words for no value. -/
def nullWords : List String :=
  ["null", "Null", "NULL", "~"]

/-- Whether a scalar says that there is no value; nothing, if its tag says so and its text does
not. -/
def isNull (s : Scalar) : Option Bool :=
  if s.style ≠ .plain then some false
  else
    match s.tag with
    | none => some (s.text == "" || nullWords.contains s.text)
    | some tag =>
      if tag = standardTag "null" then
        if nullWords.contains s.text then some true else none
      else some false

/-- Reads a text that may be missing. -/
def optionalText : Reader (Option String) := fun d n => do
  let s ← scalar d n
  if ← isNull s then pure none else pure (some s.text)

/-- Whether a scalar is looked at as a value of the standard type of a name. -/
def isTyped (name : String) (s : Scalar) : Bool :=
  match s.style with
  | .plain => true
  | .literal => s.tag == some (standardTag name)
  | _ => false

/-- Reads a truth value. -/
def boolean : Reader Bool := fun d n => do
  let s ← scalar d n
  if !isTyped "bool" s then none
  else if ["true", "True", "TRUE"].contains s.text then some true
  else if ["false", "False", "FALSE"].contains s.text then some false
  else none

/-! ## Whole numbers -/

/-- The base that a text names at its start, and the digits behind. -/
def basedDigits : List Char → Nat × List Char
  | '0' :: 'x' :: cs => (16, cs)
  | '0' :: 'o' :: cs => (8, cs)
  | '0' :: 'b' :: cs => (2, cs)
  | cs => (10, cs)

/-- The number that a text without a sign writes; a decimal number has no zero in front. -/
def natural? (cs : List Char) : Option Nat :=
  let (base, digits) := basedDigits cs
  if digits.isEmpty then none
  else if base = 10 ∧ 1 < digits.length ∧ digits.head? = some '0' then none
  else Digits.ofChars? base digits

/-- The number that a text writes, perhaps behind a sign. -/
def integer? : List Char → Option Int
  | '-' :: cs => (natural? cs).map fun n => -(n : Int)
  | '+' :: cs => (natural? cs).map fun n => (n : Int)
  | cs => (natural? cs).map fun n => (n : Int)

/-- Reads a whole number from -128 to 127. -/
def smallInteger : Reader Int := fun d n => do
  let s ← scalar d n
  if isTyped "int" s then
    let i ← integer? s.text.toList
    if -128 ≤ i ∧ i ≤ 127 then some i else none
  else none

end Reader

/-! ## Records -/

/-- What a key means to a record that has been read in part. -/
inductive Member (σ : Type) where
  /-- The value is passed over. -/
  | unknown
  /-- The key has been there before. -/
  | repeated
  /-- The value is read into what has been read so far. -/
  | known (value : Reader σ)

/-- Reads a field into a partial record, unless the record has it already. -/
def Member.once {σ β : Type} (present : Option β) (reader : Reader β) (put : β → σ) : Member σ :=
  match present with
  | some _ => .repeated
  | none => .known fun d n => (reader d n).map put

namespace Reader

/-- The entries of a mapping read into a partial record. -/
def entries {σ : Type} (member : String → σ → Member σ) (d : Document) :
    List (Node × Node) → σ → Option σ
  | [], sofar => some sofar
  | (key, value) :: rest, sofar => do
    let name ← text d key
    match member name sofar with
    | .unknown => entries member d rest sofar
    | .repeated => none
    | .known read =>
      let sofar ← read d value
      entries member d rest sofar

/-- Reads a record. -/
def record {σ α : Type} (empty : σ) (member : String → σ → Member σ) (complete : σ → α) :
    Reader α := fun d n =>
  match d.resolve n with
  | some (.mapping es) => (entries member d es empty).map complete
  | some (.scalar s) => if s.isEmpty then some (complete empty) else none
  | _ => none

/-- The value of a document; a document without a node is read as an empty one. -/
def ofDocument {α : Type} (reader : Reader α) (d : Document) : Option α :=
  reader d (d.root.getD Node.empty)

/-- The value of a text. -/
def parse {α : Type} (reader : Reader α) (s : String) : Option α :=
  (Document.parse? s).bind (ofDocument reader)

end Reader

end PayeeProposal.Yaml
