import GrammarArtifact.Text.Ranges

/-!
# Combining character sets

Sets of characters are united, intersected and complemented range by range. The
results keep their ranges in increasing order, and ranges that overlap or touch are
joined. Between the last character before the surrogates and the first one behind
them there is no other, so ranges that end and begin there touch.
-/

namespace GrammarArtifact.Text.Ranges

/-- The code point of the last character. -/
def lastCode : Nat := 0x10FFFF

/-- The code point of the next character. -/
def after (code : Nat) : Nat := if code = 0xD7FF then 0xE000 else code + 1

/-- The code point of the previous character. -/
def before (code : Nat) : Nat := if code = 0xE000 then 0xD7FF else code - 1

/-- Join a range with those that follow it, which begin in increasing order. -/
def join (low high : Nat) : List (Nat × Nat) → List (Nat × Nat)
  | [] => [(low, high)]
  | (first, last) :: rest =>
    if first ≤ after high then join low (max high last) rest
    else (low, high) :: join first last rest

/-- The set of the characters in any of some ranges, which can be in any order. -/
def ofList (ranges : List (Nat × Nat)) : Ranges :=
  match ranges.mergeSort fun left right => left.1 ≤ right.1 with
  | [] => ⟨[]⟩
  | (low, high) :: rest => ⟨join low high rest⟩

/-- The characters of either set. -/
def union (left right : Ranges) : Ranges := ofList (left.entries ++ right.entries)

/-- The characters of any of some sets. -/
def unionAll (sets : List Ranges) : Ranges := ofList (sets.flatMap (·.entries))

/-- What is left between ranges from a code point on. -/
def gaps (low : Nat) : List (Nat × Nat) → List (Nat × Nat)
  | [] => if low ≤ lastCode then [(low, lastCode)] else []
  | (first, last) :: rest =>
    if low < first then (low, before first) :: gaps (after last) rest
    else gaps (after last) rest

/-- All other characters. -/
def complement (set : Ranges) : Ranges := ⟨gaps 0 set.entries⟩

/-- The characters of both sets. -/
def intersection (left right : Ranges) : Ranges :=
  (left.complement.union right.complement).complement

/-- The characters of the first set that are not in the second. -/
def difference (left right : Ranges) : Ranges := (left.complement.union right).complement

/-- The characters of one of two sets that are not in both. -/
def symmetricDifference (left right : Ranges) : Ranges :=
  (left.union right).difference (left.intersection right)

example : (ofList [(0x61, 0x63), (0x41, 0x41), (0x64, 0x66)]).entries =
    [(0x41, 0x41), (0x61, 0x66)] := by cbv

example : (Ranges.mk [(0, 0xD7FF)]).complement.entries = [(0xE000, 0x10FFFF)] := by decide

end GrammarArtifact.Text.Ranges
