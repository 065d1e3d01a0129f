import GrammarArtifact.Text.Ranges.Algebra

/-!
# Sets of characters

A pattern describes the characters that can stand at a place by ranges of code
points, by properties, and by combining such sets. Here are the sets that have names
of their own in patterns.
-/

namespace GrammarArtifact.Pattern

/-- A set of characters. -/
abbrev CharSet := Text.Ranges

namespace CharSet

/-- The characters from one to another, both included. -/
def between (low high : Char) : CharSet := ⟨[(low.toNat, high.toNat)]⟩

/-- The set of one character. -/
def single (c : Char) : CharSet := between c c

/-- All characters. -/
def all : CharSet := ⟨[(0, Text.Ranges.lastCode)]⟩

/-- The characters that need seven bits. -/
def ascii : CharSet := ⟨[(0, 0x7F)]⟩

/-- The characters that need seven bits and that words are made of. -/
def asciiWord : CharSet := ⟨[(0x30, 0x39), (0x41, 0x5A), (0x5F, 0x5F), (0x61, 0x7A)]⟩

/-- The blanks that need seven bits. -/
def asciiBlank : CharSet := ⟨[(0x09, 0x0D), (0x20, 0x20)]⟩

end CharSet

/-- The characters of a class that has a name within brackets. -/
def classNamed? : String → Option CharSet
  | "alnum" => some ⟨[(0x30, 0x39), (0x41, 0x5A), (0x61, 0x7A)]⟩
  | "alpha" => some ⟨[(0x41, 0x5A), (0x61, 0x7A)]⟩
  | "ascii" => some .ascii
  | "blank" => some ⟨[(0x09, 0x09), (0x20, 0x20)]⟩
  | "cntrl" => some ⟨[(0x00, 0x1F), (0x7F, 0x7F)]⟩
  | "digit" => some ⟨[(0x30, 0x39)]⟩
  | "graph" => some ⟨[(0x21, 0x7E)]⟩
  | "lower" => some ⟨[(0x61, 0x7A)]⟩
  | "print" => some ⟨[(0x20, 0x7E)]⟩
  | "punct" => some ⟨[(0x21, 0x2F), (0x3A, 0x40), (0x5B, 0x60), (0x7B, 0x7E)]⟩
  | "space" => some .asciiBlank
  | "upper" => some ⟨[(0x41, 0x5A)]⟩
  | "word" => some .asciiWord
  | "xdigit" => some ⟨[(0x30, 0x39), (0x41, 0x46), (0x61, 0x66)]⟩
  | _ => none

end GrammarArtifact.Pattern
