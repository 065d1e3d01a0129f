import GrammarArtifact.Matcher
import GrammarArtifact.Pattern.Matching
import GrammarArtifact.Pattern.Reading

/-!
# The matcher of patterns

Patterns that are read within the limits make a matcher, whatever Unicode says of characters.
-/

namespace GrammarArtifact.Pattern

/-- The matcher that reads patterns within the limits and looks for them. -/
instance engine [Text.Unicode] : Matcher where
  compile? text := (read? text).map Node.isFoundIn

end GrammarArtifact.Pattern
