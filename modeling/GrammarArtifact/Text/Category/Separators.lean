import GrammarArtifact.Text.Ranges

/-!
# Separators

The ranges of separators by general category, as the Unicode character database
lists them.
-/

namespace GrammarArtifact.Text.Category

/-- Spaces, category Zs. -/
def spaceSeparators : Ranges :=
  Ranges.ofText "20 A0 1680 2000-200A 202F 205F 3000"

/-- The line separator, category Zl. -/
def lineSeparators : Ranges :=
  Ranges.ofText "2028"

/-- The paragraph separator, category Zp. -/
def paragraphSeparators : Ranges :=
  Ranges.ofText "2029"

end GrammarArtifact.Text.Category
