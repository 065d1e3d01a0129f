import GrammarArtifact.Text.Folding
import GrammarArtifact.Text.Property
import GrammarArtifact.Text.Unicode

/-!
# The tables at hand

The tables say of characters what version 15.0 of Unicode does, as far as they go: the general
categories by all their names, the properties that combine them, and simple case folding.
They know no scripts and no ages. What is proved of all grammars does not depend on them.
-/

namespace GrammarArtifact.Text

namespace Tables

/-- A name without case, blanks, hyphens and underscores, and without `is` at its
front. Characters beyond seven bits are dropped. -/
def plainName (name : List Char) : String :=
  let plain (text : List Char) :=
    (text.filter fun c => c.toNat < 0x80 && c != ' ' && c != '_' && c != '-').map Char.toLower
  match name with
  | i :: s :: rest =>
    if i.toLower = 'i' && s.toLower = 's' then
      let tail := plain rest
      String.ofList (if tail = ['c'] then ['i', 's', 'c'] else tail)
    else String.ofList (plain name)
  | _ => String.ofList (plain name)

/-- The general categories that go by a plain name. -/
def categoriesNamed? : String → Option (List Category)
  | "l" | "letter" => some Category.letters
  | "lc" | "casedletter" => some [.uppercaseLetter, .lowercaseLetter, .titlecaseLetter]
  | "lu" | "uppercaseletter" => some [.uppercaseLetter]
  | "ll" | "lowercaseletter" => some [.lowercaseLetter]
  | "lt" | "titlecaseletter" => some [.titlecaseLetter]
  | "lm" | "modifierletter" => some [.modifierLetter]
  | "lo" | "otherletter" => some [.otherLetter]
  | "m" | "mark" | "combiningmark" => some Category.marks
  | "mn" | "nonspacingmark" => some [.nonspacingMark]
  | "mc" | "spacingmark" => some [.spacingMark]
  | "me" | "enclosingmark" => some [.enclosingMark]
  | "n" | "number" => some Category.numbers
  | "nd" | "decimalnumber" | "digit" => some [.decimalNumber]
  | "nl" | "letternumber" => some [.letterNumber]
  | "no" | "othernumber" => some [.otherNumber]
  | "p" | "punctuation" | "punct" => some Category.punctuation
  | "pc" | "connectorpunctuation" => some [.connectorPunctuation]
  | "pd" | "dashpunctuation" => some [.dashPunctuation]
  | "ps" | "openpunctuation" => some [.openPunctuation]
  | "pe" | "closepunctuation" => some [.closePunctuation]
  | "pi" | "initialpunctuation" => some [.initialPunctuation]
  | "pf" | "finalpunctuation" => some [.finalPunctuation]
  | "po" | "otherpunctuation" => some [.otherPunctuation]
  | "s" | "symbol" => some Category.symbols
  | "sm" | "mathsymbol" => some [.mathSymbol]
  | "sc" | "currencysymbol" => some [.currencySymbol]
  | "sk" | "modifiersymbol" => some [.modifierSymbol]
  | "so" | "othersymbol" => some [.otherSymbol]
  | "z" | "separator" => some Category.separators
  | "zs" | "spaceseparator" => some [.spaceSeparator]
  | "zl" | "lineseparator" => some [.lineSeparator]
  | "zp" | "paragraphseparator" => some [.paragraphSeparator]
  | "c" | "other" => some Category.others
  | "cc" | "control" | "cntrl" => some [.control]
  | "cf" | "format" => some [.format]
  | "co" | "privateuse" => some [.privateUse]
  | "cn" | "unassigned" => some [.unassigned]
  | _ => none

/-- The characters of a general category, by the plain name of the category. -/
def categorySet? (name : String) : Option Ranges :=
  match name with
  | "any" => some ⟨[(0, Ranges.lastCode)]⟩
  | "ascii" => some ⟨[(0, 0x7F)]⟩
  | "assigned" => some Category.unassigned.ranges.complement
  | _ => (categoriesNamed? name).map Category.rangesOf

/-- The characters with a property, by the name of the property. -/
def property? (name : List Char) : Option Ranges :=
  match plainName name with
  | "alphabetic" | "alpha" => some Property.alphabetic
  | "lowercase" | "lower" => some Property.lowercase
  | "uppercase" | "upper" => some Property.uppercase
  | "whitespace" | "wspace" | "space" => some blanks
  | "idstart" | "ids" => some Property.identifierStart
  | "idcontinue" | "idc" => some Property.identifierContinue
  | "xidstart" | "xids" => some Property.normalStart
  | "xidcontinue" | "xidc" => some Property.normalContinue
  | plain => categorySet? plain

/-- The characters whose property has a value, by the names of both. -/
def value? (name value : List Char) : Option Ranges :=
  match plainName name with
  | "generalcategory" | "gc" => categorySet? (plainName value)
  | _ => none

/-- What the tables say. -/
instance unicode : Unicode where
  alphabetic := Property.alphabetic.contains
  numeric := Property.numerals.contains
  lowercase := Property.lowercase.contains
  uppercase := Property.uppercase.contains
  extending := Property.extending.contains
  printable := Property.isPrintable
  decimalDigits := Property.decimalDigits
  wordCharacters := Property.wordCharacters
  caseless := caseless
  property? := property?
  value? := value?

end Tables

end GrammarArtifact.Text
