import GrammarArtifact.Text.Category.Letters
import GrammarArtifact.Text.Category.Marks
import GrammarArtifact.Text.Category.Numbers
import GrammarArtifact.Text.Category.Punctuation
import GrammarArtifact.Text.Category.Symbols
import GrammarArtifact.Text.Category.Separators
import GrammarArtifact.Text.Category.Others
import GrammarArtifact.Text.Ranges.Algebra

/-!
# General categories of characters

Each character has exactly one general category. The tables name the characters
of every category but one: a character that no table lists is unassigned.
-/

namespace GrammarArtifact.Text

/-- The general categories that a character can have. -/
inductive Category
  | uppercaseLetter
  | lowercaseLetter
  | titlecaseLetter
  | modifierLetter
  | otherLetter
  | nonspacingMark
  | spacingMark
  | enclosingMark
  | decimalNumber
  | letterNumber
  | otherNumber
  | connectorPunctuation
  | dashPunctuation
  | openPunctuation
  | closePunctuation
  | initialPunctuation
  | finalPunctuation
  | otherPunctuation
  | mathSymbol
  | currencySymbol
  | modifierSymbol
  | otherSymbol
  | spaceSeparator
  | lineSeparator
  | paragraphSeparator
  | control
  | format
  | privateUse
  | unassigned
deriving DecidableEq, Repr

namespace Category

/-- The categories that have a table of characters. -/
def listed : List Category :=
  [.uppercaseLetter, .lowercaseLetter, .titlecaseLetter, .modifierLetter, .otherLetter,
    .nonspacingMark, .spacingMark, .enclosingMark, .decimalNumber, .letterNumber, .otherNumber,
    .connectorPunctuation, .dashPunctuation, .openPunctuation, .closePunctuation,
    .initialPunctuation, .finalPunctuation, .otherPunctuation, .mathSymbol, .currencySymbol,
    .modifierSymbol, .otherSymbol, .spaceSeparator, .lineSeparator, .paragraphSeparator,
    .control, .format, .privateUse]

/-- The characters that a table lists for the category. -/
def table : Category → Ranges
  | .uppercaseLetter => uppercaseLetters
  | .lowercaseLetter => lowercaseLetters
  | .titlecaseLetter => titlecaseLetters
  | .modifierLetter => modifierLetters
  | .otherLetter => otherLetters
  | .nonspacingMark => nonspacingMarks
  | .spacingMark => spacingMarks
  | .enclosingMark => enclosingMarks
  | .decimalNumber => decimalNumbers
  | .letterNumber => letterNumbers
  | .otherNumber => otherNumbers
  | .connectorPunctuation => connectorPunctuations
  | .dashPunctuation => dashPunctuations
  | .openPunctuation => openPunctuations
  | .closePunctuation => closePunctuations
  | .initialPunctuation => initialPunctuations
  | .finalPunctuation => finalPunctuations
  | .otherPunctuation => otherPunctuations
  | .mathSymbol => mathSymbols
  | .currencySymbol => currencySymbols
  | .modifierSymbol => modifierSymbols
  | .otherSymbol => otherSymbols
  | .spaceSeparator => spaceSeparators
  | .lineSeparator => lineSeparators
  | .paragraphSeparator => paragraphSeparators
  | .control => controls
  | .format => formats
  | .privateUse => privateUses
  | .unassigned => ⟨[]⟩

/-- The characters that no table lists. -/
def unlisted : Ranges := (Ranges.unionAll (listed.map table)).complement

/-- The characters that have the category. -/
def ranges : Category → Ranges
  | .unassigned => unlisted
  | category => category.table

/-- The category of a character. -/
def ofChar (c : Char) : Category :=
  (listed.find? fun category => category.table.contains c).getD .unassigned

/-- The characters that have any of some categories. -/
def rangesOf (categories : List Category) : Ranges := Ranges.unionAll (categories.map ranges)

/-- The letters, with or without case. -/
def letters : List Category :=
  [.uppercaseLetter, .lowercaseLetter, .titlecaseLetter, .modifierLetter, .otherLetter]

/-- The marks that combine with a character before them. -/
def marks : List Category :=
  [.nonspacingMark, .spacingMark, .enclosingMark]

/-- The numerals. -/
def numbers : List Category :=
  [.decimalNumber, .letterNumber, .otherNumber]

/-- The punctuation. -/
def punctuation : List Category :=
  [.connectorPunctuation, .dashPunctuation, .openPunctuation, .closePunctuation,
    .initialPunctuation, .finalPunctuation, .otherPunctuation]

/-- The signs. -/
def symbols : List Category :=
  [.mathSymbol, .currencySymbol, .modifierSymbol, .otherSymbol]

/-- The separators. -/
def separators : List Category :=
  [.spaceSeparator, .lineSeparator, .paragraphSeparator]

/-- Whatever has no form of its own, unassigned characters included. -/
def others : List Category :=
  [.control, .format, .privateUse, .unassigned]

end Category

end GrammarArtifact.Text
