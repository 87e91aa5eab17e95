import PayeeProposal.Text.Split
import PayeeProposal.Text.Utf8

/-!
# Files below a working directory

What a path leads to. `Files` says it for every path; a tree of files and directories, kept as a
list of entries, gives such a table: every part of a path but the last has to be a directory, `..`
goes up, and above the working directory nothing is known but that it is there.
-/

namespace PayeeProposal

/-- Why a file cannot be read. -/
inductive FileError where
  | notFound
  | isDirectory
  | notDirectory
  | notUtf8
  | nameTooLong
  | invalidName
deriving DecidableEq, Repr

/-- What an entry of a tree holds. -/
inductive Content where
  | file (bytes : List UInt8)
  | directory
deriving DecidableEq

/-- Files and directories by their location, which is the list of names from the working
directory down. The directories above an entry need no entry of their own. -/
structure FileTree where
  entries : List (List String × Content)

/-- Where a path leads. -/
inductive Place where
  | inside (location : List String)
  | outside
deriving DecidableEq

namespace FileTree

/-- The longest name that a file can have, in bytes. -/
def maxNameSize : Nat :=
  255

/-- The longest path that can be followed, in bytes. -/
def maxPathSize : Nat :=
  4095

/-- What is at a location. -/
def find? (tree : FileTree) (location : List String) : Option Content :=
  if location.isEmpty then some .directory
  else
    match tree.entries.lookup location with
    | some content => some content
    | none =>
      if tree.entries.any fun e => location.isPrefixOf e.1 then some .directory else none

/-- What is at a place. -/
def at? (tree : FileTree) : Place → Option Content
  | .inside location => tree.find? location
  | .outside => some .directory

/-- Goes from a place along one part of a path. -/
def step (tree : FileTree) (place : Place) (part : String) : Except FileError Place :=
  match tree.at? place with
  | none => .error .notFound
  | some (.file _) => .error .notDirectory
  | some .directory =>
    if part = "" ∨ part = "." then .ok place
    else
      match place with
      | .outside => if part = ".." then .ok .outside else .error .notFound
      | .inside location =>
        if part = ".." then
          if location.isEmpty then .ok .outside else .ok (.inside location.dropLast)
        else if maxNameSize < part.utf8ByteSize then .error .nameTooLong
        else .ok (.inside (location ++ [part]))

/-- Goes along all parts of a path. -/
def walk (tree : FileTree) : Place → List String → Except FileError Place
  | place, [] => .ok place
  | place, part :: parts =>
    match tree.step place part with
    | .error e => .error e
    | .ok place => walk tree place parts

/-- The parts of a path. -/
def partsOf (path : String) : List String :=
  (Text.splitAt '/' path.toList).map String.ofList

/-- What a path leads to. -/
def open? (tree : FileTree) (path : String) : Except FileError Content :=
  if path.toList.contains '\x00' then .error .invalidName
  else if path = "" then .error .notFound
  else if maxPathSize < path.utf8ByteSize then .error .nameTooLong
  else
    let start := if path.toList.head? = some '/' then .outside else .inside []
    match tree.walk start (partsOf path) with
    | .error e => .error e
    | .ok place =>
      match tree.at? place with
      | none => .error .notFound
      | some content => .ok content

end FileTree

/-- What each path leads to. -/
abbrev Files : Type :=
  String → Except FileError Content

namespace Files

/-- The files of a tree. -/
def ofTree (tree : FileTree) : Files :=
  tree.open?

/-- Whether a path leads to something. -/
def exists? (files : Files) (path : String) : Bool :=
  match files path with
  | .ok _ => true
  | .error _ => false

/-- The text in the file at a path. -/
def readText (files : Files) (path : String) : Except FileError String :=
  match files path with
  | .error e => .error e
  | .ok .directory => .error .isDirectory
  | .ok (.file bytes) =>
    match Text.ofUtf8? bytes with
    | none => .error .notUtf8
    | some s => .ok s

end Files

end PayeeProposal
