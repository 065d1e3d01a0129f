import GrammarArtifact.Document.Value

/-!
# The syntax of documents

What a document may look like, said without a reader. A document is a tree whose leaves
are words, numbers and strings, and the tree keeps every number and string as it is
written. Its layouts are its tokens with spaces anywhere between them.

A string may name half of a surrogate pair, and a number may be of any size. Such leaves
are well formed, although they have no value.
-/

namespace GrammarArtifact.Document

/-! ## Strings -/

/-- What can stand behind the backslash of an escape: a letter of its own, or the number of a
character. -/
inductive IsEscape : List Char → Prop
  | short {c : Char} (known : (shortEscape? c).isSome) : IsEscape [c]
  | unicode {a b c d : Char} (known : (hexNumber? a b c d).isSome) : IsEscape ['u', a, b, c, d]

/-- What can stand between the quotes of a string: characters that need no escape, and
escapes. -/
inductive Quotable : List Char → Prop
  | done : Quotable []
  | plain {c : Char} {rest : List Char} (visible : 0x20 ≤ c.toNat) (noQuote : c ≠ '"')
      (noEscape : c ≠ '\\') (later : Quotable rest) : Quotable (c :: rest)
  | escape {escape rest : List Char} (known : IsEscape escape) (later : Quotable rest) :
      Quotable ('\\' :: (escape ++ rest))

/-- A string as it is written between its quotes. -/
structure Quoted where
  inside : List Char
  quotable : Quotable inside

namespace Quoted

/-- The written form. -/
def token (quoted : Quoted) : List Char := '"' :: (quoted.inside ++ ['"'])

/-- The text that a string stands for, unless it names half of a surrogate pair. -/
def text? (quoted : Quoted) : Option String :=
  match scanString [] (quoted.inside ++ ['"']) with
  | .ok (text, _) => some text
  | .error _ => none

end Quoted

/-! ## Numbers -/

/-- One digit or more. -/
def IsDigits (text : List Char) : Prop := text ≠ [] ∧ ∀ c ∈ text, isDigit c = true

/-- The digits before the point: a zero, or digits of which the first is no zero. -/
inductive IsWhole : List Char → Prop
  | zero : IsWhole ['0']
  | digits {c : Char} {later : List Char} (all : ∀ d ∈ c :: later, isDigit d = true)
      (noZero : c ≠ '0') : IsWhole (c :: later)

/-- The point with the digits behind it, or nothing. -/
inductive IsFraction : List Char → Prop
  | none : IsFraction []
  | point {digits : List Char} (all : IsDigits digits) : IsFraction ('.' :: digits)

/-- The power of ten with its mark and its sign, or nothing. -/
inductive IsExponent : List Char → Prop
  | none : IsExponent []
  | power {mark : Char} {sign digits : List Char} (marked : mark = 'e' ∨ mark = 'E')
      (signed : sign = [] ∨ sign = ['+'] ∨ sign = ['-']) (all : IsDigits digits) :
      IsExponent (mark :: (sign ++ digits))

/-- A number without its sign. -/
inductive IsMagnitude : List Char → Prop
  | parts {whole fraction exponent : List Char} (isWhole : IsWhole whole)
      (isFraction : IsFraction fraction) (isExponent : IsExponent exponent) :
      IsMagnitude (whole ++ (fraction ++ exponent))

/-- A number as it is written. -/
structure Numeral where
  negative : Bool
  magnitude : List Char
  wellFormed : IsMagnitude magnitude

namespace Numeral

/-- The written form. -/
def token (numeral : Numeral) : List Char :=
  if numeral.negative then '-' :: numeral.magnitude else numeral.magnitude

end Numeral

/-! ## Trees -/

/-- A document, with its strings and numbers as they are written. -/
inductive Tree
  | null
  | flag (value : Bool)
  | number (numeral : Numeral)
  | string (quoted : Quoted)
  | list (items : List Tree)
  | object (members : List (Quoted × Tree))

namespace Tree

open Value (comma)

mutual

/-- The tokens of a tree. -/
def tokens : Tree → List (List Char)
  | .null => [['n', 'u', 'l', 'l']]
  | .flag true => [['t', 'r', 'u', 'e']]
  | .flag false => [['f', 'a', 'l', 's', 'e']]
  | .number numeral => [numeral.token]
  | .string quoted => [quoted.token]
  | .list items => ['['] :: (tokensOf true items ++ [[']']])
  | .object members => ['\x7b'] :: (tokensIn true members ++ [['\x7d']])

/-- The tokens of some elements of a list. -/
def tokensOf (first : Bool) : List Tree → List (List Char)
  | [] => []
  | item :: items => comma first ++ (item.tokens ++ tokensOf false items)

/-- The tokens of some members of an object. -/
def tokensIn (first : Bool) : List (Quoted × Tree) → List (List Char)
  | [] => []
  | (key, value) :: members =>
    comma first ++ (key.token :: [':'] :: (value.tokens ++ tokensIn false members))

end

end Tree

end GrammarArtifact.Document
