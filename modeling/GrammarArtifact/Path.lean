/-!
# Paths

A path is a text whose names are separated by slashes. It is absolute when it begins
with a slash.
-/

namespace GrammarArtifact.Path

/-- The pieces of a text between separators, from left to right. The piece being read
is held last character first. -/
def pieces (separator : Char) (piece : List Char) : List Char → List String
  | [] => [String.ofList piece.reverse]
  | c :: rest =>
    if c = separator then String.ofList piece.reverse :: pieces separator [] rest
    else pieces separator (c :: piece) rest

/-- The pieces of a text that are not empty. -/
def parts (separator : Char) (text : String) : List String :=
  (pieces separator [] text.toList).filter (· ≠ "")

/-- Whether a path begins with a slash. -/
def isAbsolute (path : String) : Bool := path.toList.head? = some '/'

/-- Whether a path ends with a slash, so that it can only lead to a directory. -/
def endsWithSlash (path : String) : Bool := path.toList.getLast? = some '/'

/-- A path seen from a directory. An absolute path stands for itself, and a slash is
added only where the directory is not empty and does not end with one. -/
def join (directory path : String) : String :=
  if isAbsolute path then path
  else if directory = "" || endsWithSlash directory then directory ++ path
  else directory ++ "/" ++ path

example : join "a" "b" = "a/b" ∧ join "a/" "b" = "a/b" ∧ join "" "b" = "b" ∧
    join "a" "" = "a/" ∧ join "a" "/b" = "/b" := by decide +kernel

end GrammarArtifact.Path
