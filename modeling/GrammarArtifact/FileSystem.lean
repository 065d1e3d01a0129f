import GrammarArtifact.Parser

/-!
# File systems

A file system shows something at every path. Loading only looks at it, so a file
system is here no more than what can be seen.
-/

namespace GrammarArtifact

/-- Why a file could not be read. -/
inductive ReadFault
  | missing
  | notDirectory
  | isDirectory
  | nameTooLong
  | zeroInName
  | notUtf8
  | other (message : String)
deriving DecidableEq, Repr

/-- The wording of a fault. -/
def ReadFault.message : ReadFault → String
  | .missing => "No such file or directory (os error 2)"
  | .notDirectory => "Not a directory (os error 20)"
  | .isDirectory => "Is a directory (os error 21)"
  | .nameTooLong => "File name too long (os error 36)"
  | .zeroInName => "file name contained an unexpected NUL byte"
  | .notUtf8 => "stream did not contain valid UTF-8"
  | .other message => message

/-- What can be seen at a path: whether there is anything, whether it is a file, its
text or why that cannot be read, and the shared library that it holds or, in the words of
the system, why it cannot be opened as one. -/
structure Sight where
  isPresent : Bool
  isFile : Bool
  text : Except ReadFault String
  library : Except String Library

/-- What can be seen at every path. -/
abbrev FileSystem := String → Sight

end GrammarArtifact
