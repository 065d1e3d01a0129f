import Mathlib.Data.List.Lex
import Mathlib.Data.String.Basic

/-!
# The order of bytes

Texts are compared character by character, and what is stored of them are bytes. Both
orders are the same. A character that comes later has a greater leading byte if it takes
more bytes, and if it takes as many, its bytes are the digits of its code to the base 64, so
the first one that differs is greater.
-/

namespace GrammarArtifact.Text

/-- The bytes of a text. -/
def bytes (text : String) : List UInt8 := text.toUTF8.data.toList

theorem bytes_eq_flatMap (text : String) :
    bytes text = text.toList.flatMap String.utf8EncodeChar := by
  calc bytes text = (String.ofList text.toList).toByteArray.data.toList := by
        rw [bytes, String.toUTF8_eq_toByteArray, String.ofList_toList]
    _ = text.toList.flatMap String.utf8EncodeChar := by
        rw [String.toByteArray_ofList, List.utf8Encode, List.data_toByteArray]

/-- The digits of a code to the base 64, a number of them behind a leading one that is below
a width and has a mark added to it. -/
def digits (width mark : Nat) : Nat → Nat → List UInt8
  | 0, code => [.ofNat (code % width + mark)]
  | count + 1, code => digits width mark count (code / 64) ++ [.ofNat (code % 64 + 128)]

/-- How many digits a character has, and the width and the mark of the leading one, depend
on the size of its code. -/
theorem utf8EncodeChar_eq_digits (c : Char) :
    String.utf8EncodeChar c =
      if c.val.toNat < 0x80 then digits 128 0 0 c.val.toNat
      else if c.val.toNat < 0x800 then digits 32 192 1 c.val.toNat
      else if c.val.toNat < 0x10000 then digits 16 224 2 c.val.toNat
      else digits 8 240 3 c.val.toNat := by
  unfold String.utf8EncodeChar
  simp only [digits, Nat.lt_succ_iff, Nat.div_div_eq_div_mul, List.cons_append, List.nil_append,
    Nat.reduceMul, Nat.add_zero]
  split_ifs
  · rw [Nat.mod_eq_of_lt (by omega)]
  all_goals rfl

variable {width mark : Nat}

/-- The leading digit tells its mark and stays within its width. -/
theorem exists_digits_eq_cons (positive : 0 < width) (fits : width + mark ≤ 256)
    (count code : Nat) :
    ∃ first rest, digits width mark count code = first :: rest ∧
      mark ≤ first.toNat ∧ first.toNat < width + mark := by
  induction count generalizing code with
  | zero =>
    have inside : code % width < width := Nat.mod_lt code positive
    refine ⟨_, [], rfl, ?_⟩
    rw [UInt8.toNat_ofNat', Nat.mod_eq_of_lt (by omega)]
    omega
  | succ count induction =>
    obtain ⟨first, rest, same, bounds⟩ := induction (code / 64)
    exact ⟨first, rest ++ _, by rw [digits, same, List.cons_append], bounds⟩

/-- Codes with equally many digits are in the order of these, whatever follows. The induction
takes off the last digit, which counts where all digits before it are the same. -/
theorem digits_append_lt (fits : width + mark ≤ 256) (count low high : Nat)
    (before : low < high) (room : high < width * 64 ^ count) (left right : List UInt8) :
    digits width mark count low ++ left < digits width mark count high ++ right := by
  have byte {low high : Nat} (before : low < high) (room : high < 256) :
      UInt8.ofNat low < UInt8.ofNat high := by
    rw [UInt8.lt_iff_toNat_lt, UInt8.toNat_ofNat', UInt8.toNat_ofNat']
    omega
  induction count generalizing low high left right with
  | zero =>
    rw [Nat.pow_zero, Nat.mul_one] at room
    rw [digits, digits, Nat.mod_eq_of_lt room, Nat.mod_eq_of_lt (before.trans room)]
    exact List.cons_lt_cons_iff.mpr (.inl (byte (by omega) (by omega)))
  | succ count induction =>
    rw [digits, digits, List.append_assoc, List.append_assoc]
    have split : low / 64 < high / 64 ∨ low / 64 = high / 64 ∧ low % 64 < high % 64 := by omega
    rcases split with earlier | ⟨same, last⟩
    · have inside : high / 64 < width * 64 ^ count := by
        rw [Nat.div_lt_iff_lt_mul (by decide), Nat.mul_assoc, ← Nat.pow_succ]
        exact room
      exact induction _ _ earlier inside _ _
    · rw [same]
      exact List.append_left_lt (List.cons_lt_cons_iff.mpr (.inl (byte (by omega) (by omega))))

/-- A leading digit with a greater mark decides. -/
theorem digits_append_lt_of_mark {width' mark' : Nat} (positive : 0 < width)
    (positive' : 0 < width') (apart : width + mark ≤ mark') (fits : width' + mark' ≤ 256)
    (count low count' high : Nat) (left right : List UInt8) :
    digits width mark count low ++ left < digits width' mark' count' high ++ right := by
  obtain ⟨first, rest, same, _, below⟩ :=
    exists_digits_eq_cons positive (by omega : width + mark ≤ 256) count low
  obtain ⟨first', rest', same', above, _⟩ := exists_digits_eq_cons positive' fits count' high
  rw [same, same']
  exact List.cons_lt_cons_iff.mpr (.inl (UInt8.lt_iff_toNat_lt.mpr (by omega)))

/-- Of two characters the later one has the greater bytes, whatever follows. -/
theorem utf8EncodeChar_append_lt {c d : Char} (before : c < d) (left right : List UInt8) :
    String.utf8EncodeChar c ++ left < String.utf8EncodeChar d ++ right := by
  have code : c.val.toNat < d.val.toNat := before
  have last : d.val.toNat < 0x110000 := by rcases d.valid with low | ⟨_, high⟩ <;> omega
  rw [utf8EncodeChar_eq_digits, utf8EncodeChar_eq_digits]
  split_ifs
  all_goals first
    | omega
    | exact digits_append_lt (by decide) _ _ _ code (by omega) _ _
    | exact digits_append_lt_of_mark (by decide) (by decide) (by decide) (by decide) _ _ _ _ _ _

theorem flatMap_utf8EncodeChar_lt {left right : List Char} (before : left < right) :
    left.flatMap String.utf8EncodeChar < right.flatMap String.utf8EncodeChar := by
  induction before with
  | @nil c rest =>
    obtain ⟨first, more, same⟩ := List.exists_cons_of_ne_nil (@String.utf8EncodeChar_ne_nil c)
    rw [List.flatMap_nil, List.flatMap_cons, same]
    exact List.nil_lt_cons first _
  | cons _ induction =>
    rw [List.flatMap_cons, List.flatMap_cons]
    exact List.append_left_lt induction
  | rel earlier =>
    rw [List.flatMap_cons, List.flatMap_cons]
    exact utf8EncodeChar_append_lt earlier _ _

/-- The order of texts is the order of their bytes. -/
theorem bytes_lt_iff (left right : String) : bytes left < bytes right ↔ left < right := by
  have forwards {left right : String} (before : left < right) : bytes left < bytes right := by
    rw [bytes_eq_flatMap, bytes_eq_flatMap]
    exact flatMap_utf8EncodeChar_lt (String.lt_iff.mp before)
  constructor
  · intro before
    rcases lt_trichotomy left right with less | rfl | greater
    · exact less
    · exact absurd before (List.lt_irrefl _)
    · exact absurd before (List.lt_asymm (forwards greater))
  · exact forwards

end GrammarArtifact.Text
