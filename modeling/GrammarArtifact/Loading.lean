import GrammarArtifact.Loading.Artifact
import GrammarArtifact.Loading.Compiled
import GrammarArtifact.Shipped

/-!
# Loading

An entry point says how the language of a grammar is to be had. Loading it gives a
handle, and checked loading the language itself or an error that names the grammar.
Nothing is kept from one load to the next.
-/

namespace GrammarArtifact

/-- How the language of a grammar is to be had: from the shipped artifact, by a
computation of one's own, from an artifact, from a parser at hand, or from a parser in
a shared library. -/
inductive EntryPoint
  | shipped
  | custom (grammar : String) (load : Logged Handle)
  | artifact (grammar : String) (location : Location)
  | parser (grammar : String) (returned : Option ParserHeader) (accepted : VersionRange)
  | library (grammar : String) (location : Location)

namespace EntryPoint

/-- The name of the grammar. -/
def grammar : EntryPoint → String
  | .shipped => Shipped.name
  | .custom grammar _ => grammar
  | .artifact grammar _ => grammar
  | .parser grammar _ _ => grammar
  | .library grammar _ => grammar

/-- The name of the file that a search looks for. -/
def fileName? : EntryPoint → Option String
  | .artifact grammar _ => some (Artifact.fileName grammar)
  | .library grammar _ => some (Compiled.fileName grammar)
  | _ => none

/-- The name of the function that a shared library has to have. -/
def functionName? : EntryPoint → Option String
  | .library grammar _ => some (Library.functionName grammar)
  | _ => none

/-- The paths that loading may look at. -/
def paths : EntryPoint → List String
  | .artifact grammar location => location.candidates (Artifact.fileName grammar)
  | .library grammar location => location.candidates (Compiled.fileName grammar)
  | _ => []

variable [Text.Unicode] [Matcher]

/-- Load a language. -/
def load (files : FileSystem) : EntryPoint → Logged Handle
  | .shipped => do
    Artifact.handle Shipped.name (← Language.ofText Shipped.name Shipped.text)
  | .custom _ load => load
  | .artifact grammar location => do
    Artifact.handle grammar (← Artifact.language files grammar location)
  | .parser grammar returned accepted => Compiled.inspect grammar accepted returned
  | .library grammar location => Compiled.handle files grammar location

/-- Load a language and hand it out only if the handle is valid. -/
def loadChecked (files : FileSystem) (entry : EntryPoint) :
    Logged (Except LoadError Language) := do
  match ← entry.load files with
  | .valid language => return .ok language
  | .invalid cause =>
    Logged.note {
      level := .debug
      topic := .check
      message := "language handle is invalid"
      fields := [("grammar", .text entry.grammar), ("has_cause", .flag cause.isSome)] }
    return .error ⟨entry.grammar, cause⟩

/-- Make sure that a language can be loaded. -/
def verify (files : FileSystem) (entry : EntryPoint) : Logged (Except LoadError Unit) := do
  match ← entry.loadChecked files with
  | .ok _ => return .ok ()
  | .error error => return .error error

end EntryPoint

end GrammarArtifact
