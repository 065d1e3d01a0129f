import GrammarArtifact.Text.Unicode

/-!
# Names in words

A name that is spelled in any of the usual ways consists of words: runs of letters
and digits, divided again where the case of the letters shows that a word begins.
-/

namespace GrammarArtifact.Text

/-- The case of the letters read last in a word. -/
inductive LetterCase
  | none
  | lower
  | upper
deriving DecidableEq, Repr

variable [Unicode]

/-- The case after a further character. Characters without case change nothing. -/
def LetterCase.next (before : LetterCase) (c : Char) : LetterCase :=
  if isLowercase c then .lower else if isUppercase c then .upper else before

/-- Letters and digits of every script. -/
def isAlphanumeric (c : Char) : Bool := isAlphabetic c || isNumeric c

/-- The words in a text. A word ends before a character that is neither letter nor
digit, where lower case turns to upper case, and before the last of several upper
case letters that lower case follows. The word being read is held last character
first, together with the case before its last characters. -/
def wordsFrom (before : LetterCase) (word : List Char) : List Char → List (List Char)
  | [] => finish word
  | c :: rest =>
    if !isAlphanumeric c then finish word ++ wordsFrom .none [] rest
    else
      let current := before.next c
      let nextIs (property : Char → Bool) : Bool := rest.head?.any property
      if current = .lower && nextIs isUppercase then
        finish (c :: word) ++ wordsFrom .none [] rest
      else if before = .upper && isUppercase c && nextIs isLowercase then
        finish word ++ wordsFrom .none [c] rest
      else wordsFrom current (c :: word) rest
where
  /-- The word that has been read, unless it is empty. -/
  finish (word : List Char) : List (List Char) := if word.isEmpty then [] else [word.reverse]

/-- A text with its ASCII letters in lower case. -/
def lowered (text : List Char) : String := String.ofList (text.map Char.toLower)

/-- The words of a text in lower case, with underscores in between. Case is lowered in
ASCII only, which suffices to compare the result with an ASCII text. -/
def underscored (text : String) : String :=
  "_".intercalate ((wordsFrom .none [] text.toList).map lowered)

end GrammarArtifact.Text
