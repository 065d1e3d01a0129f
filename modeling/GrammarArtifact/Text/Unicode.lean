import GrammarArtifact.Text.Ranges.Algebra

/-!
# What Unicode says of characters

Unicode says of every character what it is: whether it is a letter, which case it has, what
properties it has by name. Every version of Unicode says so of more characters, and one program
can go by several versions at a time, so all that may change is a parameter here. It only
matters beyond the first 128 characters, for these never change, and neither do blanks.
-/

namespace GrammarArtifact.Text

/-- What Unicode says of characters, as far as it is asked for. Where names are asked for, they
are given as they are written. -/
class Unicode where
  /-- Letters, letter-like numerals and the signs that take part in spelling words. -/
  alphabetic : Char → Bool
  /-- Numerals of every kind. -/
  numeric : Char → Bool
  /-- Lowercase letters and the characters that are used like them. -/
  lowercase : Char → Bool
  /-- Uppercase letters and the characters that are used like them. -/
  uppercase : Char → Bool
  /-- Characters that attach to the one before them. -/
  extending : Char → Bool
  /-- Characters with a visible form of their own. -/
  printable : Char → Bool
  /-- Decimal digits of every script. -/
  decimalDigits : Ranges
  /-- Characters that words are made of. -/
  wordCharacters : Ranges
  /-- All characters that agree with one of a set but for case. -/
  caseless : Ranges → Ranges
  /-- The characters with a property, by the name of the property, a script or a category. -/
  property? : List Char → Option Ranges
  /-- The characters whose property has a value, by the names of both. -/
  value? : List Char → List Char → Option Ranges

/-- Blanks of every kind, line ends included. -/
def blanks : Ranges :=
  Ranges.ofText "9-D 20 85 A0 1680 2000-200A 2028-2029 202F 205F 3000"

/-- Blanks of every kind, line ends included. -/
def isBlank (c : Char) : Bool := blanks.contains c

variable [Unicode]

/-- Letters, letter-like numerals and the signs that take part in spelling words. -/
def isAlphabetic (c : Char) : Bool := if c.toNat < 0x80 then c.isAlpha else Unicode.alphabetic c

/-- Numerals of every kind. -/
def isNumeric (c : Char) : Bool := if c.toNat < 0x80 then c.isDigit else Unicode.numeric c

/-- Lowercase letters and the characters that are used like them. -/
def isLowercase (c : Char) : Bool := if c.toNat < 0x80 then c.isLower else Unicode.lowercase c

/-- Uppercase letters and the characters that are used like them. -/
def isUppercase (c : Char) : Bool := if c.toNat < 0x80 then c.isUpper else Unicode.uppercase c

/-- Characters that attach to the one before them. -/
def extendsPrevious (c : Char) : Bool := 0x80 ≤ c.toNat && Unicode.extending c

/-- Characters with a visible form of their own. Of the blanks only the plain space has one. -/
def isPrintable (c : Char) : Bool :=
  if c.toNat < 0x80 then 0x20 ≤ c.toNat && c.toNat ≠ 0x7F else Unicode.printable c

end GrammarArtifact.Text
