import GrammarArtifact.Loading.Failure
import GrammarArtifact.Settings

/-!
# Locations

A file is either at a path that is given, or in the first search path that has a file
of its name.
-/

namespace GrammarArtifact

/-- Where to find a file. -/
inductive Location
  | given (path : String)
  | search (settings : Settings)
deriving DecidableEq, Repr

namespace Location

/-- The path of a file. A path that is given is not looked at yet. -/
def resolve (files : FileSystem) (file : String) :
    Location → Logged (Except LoadFailure String)
  | .given path => pure (.ok path)
  | .search settings => do
    match ← settings.resolve files file with
    | some path => return .ok path
    | none => return .error (.notInSearchPath file)

/-- The paths that a file can have. -/
def candidates (file : String) : Location → List String
  | .given path => [path]
  | .search settings => settings.candidates file

/-- The versions that compiled parsers from a location may have. -/
def versions : Location → VersionRange
  | .given _ => .standard
  | .search settings => settings.versions

end Location

end GrammarArtifact
