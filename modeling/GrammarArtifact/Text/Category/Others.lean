import GrammarArtifact.Text.Ranges

/-!
# Controls, formats and private use

The ranges of the remaining assigned characters by general category, as the Unicode character
database lists them.
-/

namespace GrammarArtifact.Text.Category

/-- Control characters, category Cc. -/
def controls : Ranges :=
  Ranges.ofText "0-1F 7F-9F"

/-- Format characters, category Cf. -/
def formats : Ranges :=
  Ranges.ofText "
AD 600-605 61C 6DD 70F 890-891 8E2 180E 200B-200F 202A-202E 2060-2064 2066-206F FEFF FFF9-FFFB
110BD 110CD 13430-1343F 1BCA0-1BCA3 1D173-1D17A E0001 E0020-E007F"

/-- Code points for private use, category Co. -/
def privateUses : Ranges :=
  Ranges.ofText "E000-F8FF F0000-FFFFD 100000-10FFFD"

end GrammarArtifact.Text.Category
