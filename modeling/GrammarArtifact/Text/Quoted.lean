import GrammarArtifact.Text.Unicode

/-!
# Quoted text

The form in which a message shows a piece of text so that every character in it
can be told apart: between double quotes, with a backslash before a quote or a
backslash, short escapes for the common control characters, and the code point
of any other character that would not show by itself.
-/

namespace GrammarArtifact.Text.Quoted

/-- The hexadecimal digits of a number, in lower case and without leading zeros. -/
def hexadecimal (n : Nat) : List Char := Nat.toDigits 16 n

variable [Unicode]

/-- The written form of one character. -/
def encodeChar (c : Char) : List Char :=
  if c = '"' then ['\\', '"']
  else if c = '\\' then ['\\', '\\']
  else if c = '\n' then ['\\', 'n']
  else if c = '\r' then ['\\', 'r']
  else if c = '\t' then ['\\', 't']
  else if c = '\x00' then ['\\', '0']
  else if extendsPrevious c || !isPrintable c then
    ['\\', 'u', '\x7b'] ++ hexadecimal c.toNat ++ ['\x7d']
  else [c]

/-- The written form of a text, quotes included. -/
def encode (text : String) : String :=
  String.ofList ('"' :: text.toList.flatMap encodeChar ++ ['"'])

end GrammarArtifact.Text.Quoted
