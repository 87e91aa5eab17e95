import PayeeProposal.Yaml.Node
import PayeeProposal.Yaml.TokenList

/-!
# The document of a text

Nodes are built from tokens by recursion on the nesting of collections. A text holds one document;
directives need the marker of a document's start behind them.
-/

namespace PayeeProposal.Yaml

/-- Tokens of which some have been made into nodes. -/
structure Assembly where
  tokens : List Token
  /-- The handles that directives have defined. -/
  handles : List (String × List UInt8)
  /-- The number that each name of an anchor has at present, the last name first. -/
  names : List (String × Nat)
  /-- For each anchored node met, in which place among them it came and its number, the last
  first. -/
  numbers : List (Nat × Nat)
  /-- The anchored nodes by the place in which they came. -/
  nodes : List (Nat × Node)

/-- A step that takes tokens off and fails where they follow no rule. -/
abbrev Assembler (α : Type) : Type :=
  StateT Assembly Option α

namespace Assembler

/-- The next token. -/
def peek : Assembler (Option Token) :=
  return (← get).tokens.head?

/-- Takes the next token off. -/
def drop : Assembler Unit :=
  modify fun b => { b with tokens := b.tokens.tail }

/-- Takes the next token off if it is the given one. -/
def accept (t : Token) : Assembler Bool := do
  if (← peek) = some t then
    drop
    return true
  else return false

/-- Takes the given token off. -/
def expect (t : Token) : Assembler Unit := do
  if !(← accept t) then failure

/-- Whether the next token is one of some, or there is none. -/
def atOneOf (ts : List Token) : Assembler Bool := do
  return (← peek).all ts.contains

/-- The node that a step makes, or an empty one before some tokens. -/
def unlessAt (ts : List Token) (node : Assembler Node) : Assembler Node := do
  if ← atOneOf ts then return Node.empty else node

/-! ## Properties -/

/-- The handles that mean something without a directive. -/
def defaultHandles : List (String × List UInt8) :=
  [("!", [0x21]), ("!!", "tag:yaml.org,2002:".toUTF8.toList)]

/-- What a written tag says in full. -/
def fullTag (t : TagText) : Assembler (List UInt8) := do
  if t.handle = "" then return t.suffix
  else
    match ((← get).handles ++ defaultHandles).lookup t.handle with
    | some expansion => return expansion ++ t.suffix
    | none => failure

/-- Takes an anchor off, if there is one. -/
def anchor? : Assembler (Option String) := do
  match ← peek with
  | some (.anchor name) =>
    drop
    return some name
  | _ => return none

/-- Takes a tag off, if there is one. -/
def tag? : Assembler (Option (List UInt8)) := do
  match ← peek with
  | some (.tag t) =>
    drop
    return some (← fullTag t)
  | _ => return none

/-- Takes an anchor and a tag off in either order. -/
def properties : Assembler (Option String × Option (List UInt8)) := do
  match ← anchor? with
  | some name => return (some name, ← tag?)
  | none =>
    let tag ← tag?
    match tag with
    | some _ => return (← anchor?, tag)
    | none => return (none, none)

/-- Gives the name of an anchor a number, which is how many names there are so far, and gives back
the place of the node among the anchored ones. -/
def declare (name : String) : Assembler Nat := do
  let b ← get
  let number := b.names.length
  let place := b.numbers.length
  let others := b.names.filter fun n => n.1 != name
  set { b with names := (name, number) :: others, numbers := (place, number) :: b.numbers }
  return place

/-- Keeps the node that a step makes under the name of an anchor, if there is one. -/
def anchored (name : Option String) (node : Assembler Node) : Assembler Node := do
  match name with
  | none => node
  | some name =>
    let place ← declare name
    let n ← node
    modify fun b => { b with nodes := (place, n) :: b.nodes }
    return n

/-! ## Collections -/

/-- The items of a block sequence whose start has been taken off. -/
def blockItems (item : Assembler Node) : Nat → Assembler (List Node)
  | 0 => failure
  | n + 1 => do
    if ← accept .blockEntry then
      let first ← unlessAt [.blockEntry, .blockEnd] item
      return first :: (← blockItems item n)
    else
      expect .blockEnd
      return []

/-- The items of a sequence that is not indented against the mapping around it. -/
def looseItems (item : Assembler Node) : Nat → Assembler (List Node)
  | 0 => failure
  | n + 1 => do
    if ← accept .blockEntry then
      let first ← unlessAt [.blockEntry, .key, .value, .blockEnd] item
      return first :: (← looseItems item n)
    else return []

/-- The value of a key in a block mapping. -/
def blockValue (item : Assembler Node) : Assembler Node := do
  if ← accept .value then unlessAt [.key, .value, .blockEnd] item else return Node.empty

/-- The entries of a block mapping whose start has been taken off. -/
def blockPairs (item : Assembler Node) : Nat → Assembler (List (Node × Node))
  | 0 => failure
  | n + 1 => do
    if ← accept .key then
      let key ← unlessAt [.key, .value, .blockEnd] item
      let value ← blockValue item
      return (key, value) :: (← blockPairs item n)
    else
      expect .blockEnd
      return []

/-- The value of a key in a flow collection that ends with the given token. -/
def flowValue (item : Assembler Node) (last : Token) : Assembler Node := do
  if ← accept .value then unlessAt [.flowEntry, last] item else return Node.empty

/-- The mapping of one entry that a key inside a flow sequence makes. Where the key is empty, the
token behind it is dropped. -/
def flowPair (item : Assembler Node) : Assembler Node := do
  let key ←
    if ← atOneOf [.value, .flowEntry, .flowSequenceEnd] then
      drop
      pure Node.empty
    else item
  let value ← flowValue item .flowSequenceEnd
  return .mapping [(key, value)]

/-- Takes the comma off that has to stand before an item that is not the first. -/
def separator (first : Bool) : Assembler Unit := do
  if !first then expect .flowEntry

/-- The items of a flow sequence whose start has been taken off. -/
def flowItems (item : Assembler Node) : Nat → Bool → Assembler (List Node)
  | 0, _ => failure
  | n + 1, first => do
    if ← accept .flowSequenceEnd then return []
    else
      separator first
      if ← accept .key then
        let pair ← flowPair item
        return pair :: (← flowItems item n false)
      else if ← accept .flowSequenceEnd then return []
      else
        let node ← item
        return node :: (← flowItems item n false)

/-- The entries of a flow mapping whose start has been taken off. -/
def flowPairs (item : Assembler Node) : Nat → Bool → Assembler (List (Node × Node))
  | 0, _ => failure
  | n + 1, first => do
    if ← accept .flowMappingEnd then return []
    else
      separator first
      if ← accept .key then
        let key ← unlessAt [.value, .flowEntry, .flowMappingEnd] item
        let value ← flowValue item .flowMappingEnd
        return (key, value) :: (← flowPairs item n false)
      else if ← accept .flowMappingEnd then return []
      else
        let key ← item
        return (key, Node.empty) :: (← flowPairs item n false)

/-! ## Nodes -/

/-- Where a node stands. -/
inductive Position where
  /-- In a flow collection. -/
  | flow
  /-- In a block sequence or at the top. -/
  | block
  /-- In a block mapping, where a sequence need not be indented. -/
  | entry
deriving DecidableEq

/-- The tag that a scalar keeps: an exclamation mark alone says nothing. -/
def scalarTag (tag : Option (List UInt8)) : Option (List UInt8) :=
  if tag = some [0x21] then none else tag

/-- What a node consists of when its properties have been taken off. Given are a step for the nodes
inside, by their position, and a bound on the number of items. -/
def content (position : Position) (tag : Option (List UInt8)) (hasProperties : Bool)
    (item : Position → Assembler Node) (bound : Nat) : Assembler Node := do
  let isBlock := position != .flow
  match ← peek with
  | some (.scalar style text) =>
    drop
    return .scalar ⟨scalarTag tag, style, text⟩
  | some .flowSequenceStart =>
    drop
    return .sequence (← flowItems (item .flow) bound true)
  | some .flowMappingStart =>
    drop
    return .mapping (← flowPairs (item .flow) bound true)
  | some .blockSequenceStart =>
    if isBlock then
      drop
      return .sequence (← blockItems (item .block) bound)
    else if hasProperties then return .scalar ⟨tag, .plain, ""⟩
    else failure
  | some .blockMappingStart =>
    if isBlock then
      drop
      return .mapping (← blockPairs (item .entry) bound)
    else if hasProperties then return .scalar ⟨tag, .plain, ""⟩
    else failure
  | some .blockEntry =>
    if position = .entry then return .sequence (← looseItems (item .block) bound)
    else if hasProperties then return .scalar ⟨tag, .plain, ""⟩
    else failure
  | _ => if hasProperties then return .scalar ⟨tag, .plain, ""⟩ else failure

/-- The node that an alias stands for. -/
def aliasNode (name : String) : Assembler Node := do
  match (← get).names.lookup name with
  | some number => return .alias number
  | none => failure

/-- A node, with at most the given number of nodes around it and items in a collection. -/
def node (bound : Nat) : Nat → Position → Assembler Node
  | 0, _ => failure
  | n + 1, position => do
    match ← peek with
    | some (.alias name) =>
      drop
      aliasNode name
    | _ =>
      let (name, tag) ← properties
      anchored name (content position tag (name.isSome || tag.isSome) (node bound n) bound)

/-! ## Documents -/

/-- Whether a version is one that a document may follow. -/
def isSupported (major minor : Nat) : Bool :=
  major == 1 && (minor == 1 || minor == 2)

/-- Takes the directives off, in at most the given number of steps; each version and handle may
be stated once. -/
def directives : Nat → Bool → Assembler Unit
  | 0, _ => failure
  | n + 1, versionStated => do
    match ← peek with
    | some (.version major minor) =>
      if versionStated || !isSupported major minor then failure
      else
        drop
        directives n true
    | some (.handle name expansion) =>
      if ((← get).handles.lookup name).isSome then failure
      else
        modify fun b => { b with handles := (name, expansion) :: b.handles }
        drop
        directives n versionStated
    | _ => return ()

/-- Whether a directive comes. -/
def atDirective : Assembler Bool := do
  match ← peek with
  | some (.version _ _) | some (.handle _ _) => return true
  | _ => return false

/-- The node of a document behind the marker of its start. -/
def explicitContent (bound : Nat) : Assembler Node := do
  if ← atDirective then return Node.empty
  else unlessAt [.documentStart, .documentEnd] (node bound bound .block)

/-- The node of the only document. -/
def document (bound : Nat) : Assembler (Option Node) := do
  if (← peek).isNone then return none
  else if (← atDirective) || (← peek) = some .documentStart then
    directives bound false
    expect .documentStart
    return some (← explicitContent bound)
  else return some (← node bound bound .block)

/-- Takes the markers of the end of a document off, in at most the given number of steps. -/
def endMarkers : Nat → Assembler Unit
  | 0 => failure
  | n + 1 => do
    if ← accept .documentEnd then endMarkers n

/-- The only document and nothing behind it. -/
def stream (bound : Nat) : Assembler (Option Node) := do
  let root ← document bound
  endMarkers bound
  if (← peek).isNone then return root else failure

/-- The last node of each number. -/
def anchoredNodes (b : Assembly) : List (Nat × Node) :=
  b.numbers.filterMap fun (place, number) => (b.nodes.lookup place).map (number, ·)

end Assembler

/-- The document of a list of tokens. -/
def Document.ofTokens? (tokens : List Token) : Option Document := do
  let (root, b) ← (Assembler.stream (tokens.length + 2)).run ⟨tokens, [], [], [], []⟩
  pure ⟨root, Assembler.anchoredNodes b⟩

/-- The document of a text. -/
def Document.parse? (s : String) : Option Document :=
  (tokensOf s.toList).bind Document.ofTokens?

end PayeeProposal.Yaml
