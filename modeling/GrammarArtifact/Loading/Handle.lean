import GrammarArtifact.Language

/-!
# Handles

Loading always gives a handle. A valid handle holds a language, and an invalid one the
reason for having none, if a reason is known.
-/

namespace GrammarArtifact

/-- What loading gives. -/
inductive Handle
  | valid (language : Language)
  | invalid (cause : Option LoadFailure)

namespace Handle

/-- Whether there is a language. -/
def isValid : Handle → Bool
  | .valid _ => true
  | .invalid _ => false

/-- The language. -/
def language? : Handle → Option Language
  | .valid language => some language
  | .invalid _ => none

/-- The reason for having no language. -/
def failure? : Handle → Option LoadFailure
  | .valid _ => none
  | .invalid cause => cause

/-- The handle for a language or the failure to get one. -/
def ofExcept : Except LoadFailure Language → Handle
  | .ok language => .valid language
  | .error failure => .invalid (some failure)

end Handle

end GrammarArtifact
