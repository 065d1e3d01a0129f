import GrammarArtifact.Text.Ranges.Algebra

/-!
# Rows of bytes

A character is written in one to four bytes. The characters of a range are written in
rows of byte ranges: a row stands for all characters whose bytes are taken from its
ranges one by one. All bytes but the first hold six bits of the code point.
-/

namespace GrammarArtifact.Text.ByteRows

/-- A closed range of bytes. -/
abbrev ByteRange := Nat × Nat

/-- What is added to the six bits of a byte that is not the first. -/
def mark : Nat := 0x80

/-- All bytes that are not the first. -/
def anyFurther : ByteRange := (mark, mark + 63)

/-- How many code points there are for each value of the first byte, when a number of
bytes follow. -/
def unit (count : Nat) : Nat := Nat.pow 64 count

/-- The rows for a range of numbers that are written in a first byte and a number of
further ones. What is added to the first byte comes first. -/
def ofNumbers (lead : Nat) : Nat → Nat → Nat → List (List ByteRange)
  | 0, low, high => [[(lead + low, lead + high)]]
  | count + 1, low, high =>
    let size := unit (count + 1)
    let first := low / size
    let last := high / size
    let behind (byte low high : Nat) : List (List ByteRange) :=
      (ofNumbers mark count low high).map ((lead + byte, lead + byte) :: ·)
    if first = last then behind first (low % size) (high % size)
    else
      let cutsFront := low % size ≠ 0
      let cutsBack := high % size ≠ size - 1
      let start := if cutsFront then first + 1 else first
      let stop := if cutsBack then last else last + 1
      let front := if cutsFront then behind first (low % size) (size - 1) else []
      let back := if cutsBack then behind last 0 (high % size) else []
      let middle :=
        if start < stop then
          [(lead + start, lead + stop - 1) :: List.replicate (count + 1) anyFurther]
        else []
      front ++ middle ++ back

/-- The bands of code points that are written alike: the first and the last of them,
what is added to their first byte, and the number of further bytes. -/
def bands : List (Nat × Nat × Nat × Nat) :=
  [(0, 0x7F, 0, 0), (0x80, 0x7FF, 0xC0, 1), (0x800, 0xD7FF, 0xE0, 2), (0xE000, 0xFFFF, 0xE0, 2),
    (0x10000, 0x10FFFF, 0xF0, 3)]

/-- The rows for a range of code points. -/
def ofRange (low high : Nat) : List (List ByteRange) :=
  bands.flatMap fun (first, last, lead, count) =>
    if max low first ≤ min high last then
      ofNumbers lead count (max low first) (min high last)
    else []

/-- The rows for a set of characters, in increasing order. -/
def ofSet (set : Ranges) : List (List ByteRange) :=
  set.entries.flatMap fun range => ofRange range.1 range.2

example : ofRange 0x7E 0x801 =
    [[(0x7E, 0x7F)], [(0xC2, 0xDF), (0x80, 0xBF)], [(0xE0, 0xE0), (0xA0, 0xA0), (0x80, 0x81)]] := by
  decide

end GrammarArtifact.Text.ByteRows
