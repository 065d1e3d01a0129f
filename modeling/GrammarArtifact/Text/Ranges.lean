/-!
# Character sets given by ranges

A set of characters is written as hexadecimal code points and closed ranges in
increasing order, separated by blanks, such as `41-5A 5F`. The set keeps those
ranges in order, so a search for a code point stops at the first range that
begins beyond it.
-/

namespace GrammarArtifact.Text

/-- Closed ranges of code points, in increasing order and apart from each other. -/
structure Ranges where
  entries : List (Nat × Nat)
deriving DecidableEq, Repr

namespace Ranges

/-- The value of a hexadecimal digit, in either case. -/
def hexDigit? (c : Char) : Option Nat :=
  if '0' ≤ c ∧ c ≤ '9' then some (c.toNat - '0'.toNat)
  else if 'A' ≤ c ∧ c ≤ 'F' then some (c.toNat - 'A'.toNat + 10)
  else if 'a' ≤ c ∧ c ≤ 'f' then some (c.toNat - 'a'.toNat + 10)
  else none

/-- Read ranges from their written form. The number being read is `code`, and
`low` is the lower end of a range whose upper end is being read. Ranges are
collected last first. -/
def read (low code : Option Nat) (found : List (Nat × Nat)) : List Char → List (Nat × Nat)
  | [] => close low code found
  | '-' :: rest => read code none found rest
  | c :: rest =>
    match hexDigit? c with
    | some digit => read low (some (code.getD 0 * 16 + digit)) found rest
    | none => read none none (close low code found) rest
where
  /-- Add the range that has been read, if one has. -/
  close (low code : Option Nat) (found : List (Nat × Nat)) : List (Nat × Nat) :=
    match code with
    | none => found
    | some high => (low.getD high, high) :: found

/-- The set that a text describes. -/
def ofText (text : String) : Ranges :=
  ⟨(read none none [] text.toList).reverse⟩

/-- Whether a code point lies in one of the ranges. -/
def covers (code : Nat) : List (Nat × Nat) → Bool
  | [] => false
  | (low, high) :: rest => low ≤ code && (code ≤ high || covers code rest)

/-- Whether a character belongs to the set. -/
def contains (ranges : Ranges) (c : Char) : Bool :=
  covers c.toNat ranges.entries

example : (ofText "41-5A 5F").entries = [(0x41, 0x5A), (0x5F, 0x5F)] := by decide

end Ranges

end GrammarArtifact.Text
