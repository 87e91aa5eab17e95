import PayeeProposal.FileTree
import PayeeProposal.Json.Failure

/-!
# Causes that messages quote

A message may end in the words of whatever the program met outside itself: a file that cannot be
read, a text that cannot be parsed, a node that does not answer. Messages take the wording of
such a cause as a parameter; `Cause.text` is the usual wording.
-/

namespace PayeeProposal

/-- Something from outside that a message quotes. -/
inductive Cause where
  | file (error : FileError)
  | json (failure : Json.Failure)
  | yaml
  | rpc (text : String)
deriving DecidableEq, Repr

/-- What is said of a file that cannot be read. -/
def FileError.text : FileError → String
  | .notFound => "no such file or directory"
  | .isDirectory => "is a directory"
  | .notDirectory => "not a directory"
  | .notUtf8 => "the file does not hold UTF-8 text"
  | .nameTooLong => "file name too long"
  | .invalidName => "file name holds a zero byte"

/-- What is said of a JSON text that is refused. -/
def Json.Failure.text : Json.Failure → String
  | .malformed => "malformed JSON"
  | .mistyped => "JSON value of an unexpected form"
  | .truncated => "unexpected end of JSON"

/-- The usual wording of a cause. -/
def Cause.text : Cause → String
  | .file error => error.text
  | .json failure => failure.text
  | .yaml => "malformed YAML or a value of an unexpected form"
  | .rpc text => text

/-- How a message words the causes that it quotes. -/
abbrev Wording : Type :=
  Cause → String

end PayeeProposal
