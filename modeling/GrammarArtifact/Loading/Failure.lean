import GrammarArtifact.Document.Fault
import GrammarArtifact.FileSystem
import GrammarArtifact.Validation.Fault

/-!
# Failures of loading

The reasons why no language is to be had, their wording, and what lies behind them.
-/

namespace GrammarArtifact

/-- Why a language could not be loaded. -/
inductive LoadFailure
  | notFound (path : String)
  | notInSearchPath (file : String)
  | unreadable (fault : ReadFault)
  | malformed (fault : Document.Fault)
  | nameMismatch (expected found : String)
  | invalid (fault : Validation.Fault)
  | tooManySymbols
  | noLanguage
  | versionMismatch (found : UInt32) (accepted : VersionRange)
  | notALibrary (reason : String)
  | missingFunction (name : String)
deriving DecidableEq, Repr

namespace LoadFailure

variable [Text.Unicode]

/-- The wording of a failure. -/
def message : LoadFailure → String
  | .notFound path => s!"grammar artifact not found: {path}"
  | .notInSearchPath file => s!"no '{file}' artifact in any grammar search path"
  | .unreadable fault => "IO error: " ++ fault.message
  | .malformed fault => "malformed grammar artifact: " ++ fault.report
  | .nameMismatch expected found =>
    s!"artifact declares grammar '{found}', expected '{expected}'"
  | .invalid fault => "invalid grammar: " ++ fault.message
  | .tooManySymbols => "grammar exceeds the symbol id space"
  | .noLanguage => "language function returned null"
  | .versionMismatch found accepted =>
    s!"language ABI version {found.toNat} is outside the supported range " ++
      s!"{accepted.first.toNat}..={accepted.last.toNat}"
  | .notALibrary reason => s!"failed to load grammar library: {reason}"
  | .missingFunction name => s!"grammar library missing language function: {name}"

/-- The wordings of what lies behind a failure, from the nearest cause to the last. -/
def causes : LoadFailure → List String
  | .unreadable fault => [fault.message]
  | .malformed fault => [fault.report, fault.message]
  | .invalid fault => [fault.message]
  | _ => []

end LoadFailure

/-- A grammar that could not be loaded, and the reason if it is known. -/
structure LoadError where
  grammar : String
  cause : Option LoadFailure
deriving DecidableEq, Repr

namespace LoadError

/-- The wording of an error, which names nothing but the grammar. -/
def message (error : LoadError) : String := s!"Error loading {error.grammar} grammar"

/-- The wording of an error and of all that lies behind it. -/
def chain [Text.Unicode] (error : LoadError) : String :=
  let behind := error.cause.elim [] fun failure => failure.message :: failure.causes
  ": ".intercalate (error.message :: behind)

end LoadError

end GrammarArtifact
