import GrammarArtifact.Loading.Handle
import GrammarArtifact.Loading.Location

/-!
# Loading artifacts

An artifact is a file with a grammar document. Its name is that of the grammar. Every
artifact that is rejected is told of by one warning event.
-/

namespace GrammarArtifact.Artifact

/-- The name of the file that holds the artifact of a grammar. -/
def fileName (grammar : String) : String := grammar ++ ".json"

/-- The text of the file at a path. -/
def readText (files : FileSystem) (path : String) : Except LoadFailure String :=
  match (files path).text with
  | .ok text => .ok text
  | .error .missing => .error (.notFound path)
  | .error fault => .error (.unreadable fault)

variable [Text.Unicode] [Matcher]

/-- The language of a grammar whose artifact is at a location. -/
def language (files : FileSystem) (grammar : String) (location : Location) :
    Logged (Except LoadFailure Language) := do
  match ← location.resolve files (fileName grammar) with
  | .error failure => return .error failure
  | .ok path =>
    Logged.note {
      level := .debug
      topic := .artifact
      message := "reading grammar artifact"
      fields := [("grammar", .text grammar), ("path", .text path)] }
    match readText files path with
    | .error failure => return .error failure
    | .ok text => Language.ofText grammar text

/-- The handle for a language that comes from an artifact. -/
def handle (grammar : String) (loaded : Except LoadFailure Language) : Logged Handle := do
  match loaded with
  | .ok _ => pure ()
  | .error failure =>
    Logged.note {
      level := .warn
      topic := .artifact
      message := "grammar artifact rejected"
      fields := [("grammar", .text grammar), ("err", .text failure.message)] }
  return Handle.ofExcept loaded

end GrammarArtifact.Artifact
