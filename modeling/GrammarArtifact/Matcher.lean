/-!
# Matchers

Regular expressions are compiled and looked for by a library. Which texts it takes for
expressions, and where it finds them, is a matter of the library and of its limits, so the
library is a parameter here.
-/

namespace GrammarArtifact

/-- A library for regular expressions. -/
class Matcher where
  /-- The test whether an expression is found in a text, if the library takes the expression. -/
  compile? : List Char → Option (List Char → Bool)

end GrammarArtifact
