import GrammarArtifact.Proofs.Document.GrammarMeaning
import Mathlib.Data.Nat.Digits.Defs

/-!
# Integers as they are written

A number is written as an integer when it has no fraction, no exponent and is no zero with a
minus sign. Its value is then that of its digits in positional notation, however many they
are. The reader collects the digits one by one and gives up at the first one that exceeds 64
bits. Until then what it has collected is the value of the digits so far, and these values
only grow. So an integer is read as its value when the value fits, and as no integer when it
does not; and nothing else is read as an integer.
-/

namespace GrammarArtifact.Document

namespace Number

/-- The number that digits write in positional notation. -/
def ofDigits (digits : List Char) : Nat := Nat.ofDigits 10 (digits.reverse.map digitValue)

/-- Digits that follow a number are read onto it one by one. -/
def onto (value : Nat) (digits : List Char) : Nat :=
  digits.foldl (fun value c => value * 10 + digitValue c) value

theorem ofDigits_eq_onto (digits : List Char) : ofDigits digits = onto 0 digits := by
  rw [ofDigits, onto, Nat.ofDigits_eq_foldr, List.foldr_map, List.foldr_reverse]
  simp only [Nat.cast_id, Nat.mul_comm, Nat.add_comm]

/-- A number only grows when digits are read onto it. -/
theorem le_onto (value : Nat) (digits : List Char) : value ≤ onto value digits := by
  induction digits generalizing value with
  | nil => exact Nat.le_refl value
  | cons c rest induction =>
    calc value ≤ value * 10 + digitValue c := by omega
      _ ≤ onto value (c :: rest) := induction _

/-- Digits are collected to their number if it does not exceed the capacity, and digits are
left over otherwise. -/
theorem collect_eq_iff {value result : Nat} {digits : List Char} (fits : value ≤ digitCapacity) :
    collect value digits = (result, []) ↔
      onto value digits = result ∧ onto value digits ≤ digitCapacity := by
  induction digits generalizing value with
  | nil => simpa [collect, onto] using fun same : value = result => same ▸ fits
  | cons c rest induction =>
    have grown : value * 10 + digitValue c ≤ onto value (c :: rest) := le_onto _ rest
    rw [collect]
    split
    next next => exact induction next
    next large =>
      simp only [Prod.mk.injEq, List.cons_ne_nil, and_false, false_iff, not_and]
      intro _
      omega

end Number

/-! ## What is scanned -/

/-- Where a number is scanned without a fraction and without an exponent, nothing but its whole
part has been taken. -/
theorem scanAfterWhole_whole {number result : NumberText} {text rest : List Char}
    (scanned : scanAfterWhole number text = .ok (result, rest)) (noFraction : result.fraction = [])
    (noExponent : result.exponent = none) : result = number ∧ text = rest := by
  have afterDigits {number : NumberText} {text : List Char}
      (scanned : scanAfterDigits number text = .ok (result, rest)) :
      result = number ∧ text = rest := by
    have noPower {text : List Char} : scanExponent number text ≠ .ok (result, rest) := by
      intro power
      unfold scanExponent at power
      split at power
      split at power
      · contradiction
      · cases power
        contradiction
    unfold scanAfterDigits at scanned
    split at scanned
    · exact absurd scanned noPower
    · exact absurd scanned noPower
    · cases scanned
      exact ⟨rfl, rfl⟩
  unfold scanAfterWhole at scanned
  split at scanned
  next tail =>
    split at scanned
    · contradiction
    next nonempty =>
      obtain ⟨rfl, -⟩ := afterDigits scanned
      exact absurd (List.isEmpty_iff.mpr noFraction) nonempty
  next => exact afterDigits scanned

/-- A number that is scanned without a fraction and without an exponent is written as its whole
part. -/
theorem whole_of_scanNumber {negative : Bool} {result : NumberText} {text rest : List Char}
    (scanned : scanNumber negative text = .ok (result, rest)) (noFraction : result.fraction = [])
    (noExponent : result.exponent = none) :
    ∃ whole, IsWhole whole ∧ text = whole ++ rest ∧ result = { negative, whole } := by
  have taken {whole tail : List Char} (isWhole : IsWhole whole)
      (scanned : scanAfterWhole { negative, whole } tail = .ok (result, rest)) :
      ∃ whole', IsWhole whole' ∧ whole ++ tail = whole' ++ rest ∧
        result = { negative, whole := whole' } := by
    obtain ⟨same, rfl⟩ := scanAfterWhole_whole scanned noFraction noExponent
    exact ⟨whole, isWhole, rfl, same⟩
  unfold scanNumber at scanned
  split at scanned
  · contradiction
  next tail =>
    split at scanned
    · split at scanned
      · contradiction
      · exact taken .zero scanned
    · exact taken .zero scanned
  next c tail noZero =>
    split at scanned
    next digit =>
      have all (d : Char) (member : d ∈ c :: tail.takeWhile isDigit) : isDigit d = true := by
        rcases List.mem_cons.mp member with rfl | later
        · exact digit
        · exact List.mem_takeWhile_imp later
      obtain ⟨whole, isWhole, same, result⟩ := taken (.digits all noZero) scanned
      rw [List.cons_append, List.takeWhile_append_dropWhile] at same
      exact ⟨whole, isWhole, same, result⟩
    next => contradiction

/-- A whole part by itself is scanned as a number without a fraction and an exponent. -/
theorem scanNumber_of_whole {whole : List Char} (isWhole : IsWhole whole) (negative : Bool) :
    scanNumber negative whole = .ok ({ negative, whole }, []) := by
  cases isWhole with
  | zero => rfl
  | @digits c later all noZero =>
    have digit := all c List.mem_cons_self
    have span := span_digits (fun d member => all d (List.mem_cons_of_mem c member))
      (fun d tail (same : [] = d :: tail) => nomatch same)
    rw [List.append_nil] at span
    simp [scanNumber, digit, span, scanAfterWhole, scanAfterDigits]

/-- Only zero is written by digits of the value zero. -/
theorem IsWhole.ofDigits_eq_zero_iff {whole : List Char} (isWhole : IsWhole whole) :
    Number.ofDigits whole = 0 ↔ whole = ['0'] := by
  cases isWhole with
  | zero => exact iff_of_true rfl rfl
  | @digits c later all noZero =>
    refine iff_of_false (fun zero => ?_) (by simp [noZero])
    have grown : Number.digitValue c ≤ Number.onto 0 (c :: later) := by
      simpa [Number.onto] using Number.le_onto (Number.digitValue c) later
    rw [Number.ofDigits_eq_onto] at zero
    have first := all c List.mem_cons_self
    have atLeast : '0'.toNat ≤ c.toNat := by
      simp only [isDigit, Bool.and_eq_true, decide_eq_true_eq] at first
      exact first.1
    have atMost : c.toNat ≤ '0'.toNat := by
      simp only [Number.digitValue] at grown
      omega
    exact noZero (Char.toNat_inj.mp (Nat.le_antisymm atMost atLeast))

/-! ## Values -/

namespace Numeral

/-- A number without a fraction and an exponent, except for a zero with a minus sign. -/
def IsInteger (numeral : Numeral) : Prop :=
  IsWhole numeral.magnitude ∧ numeral.token ≠ ['-', '0']

/-- The value of an integer. -/
def toInt (numeral : Numeral) : Int :=
  if numeral.negative then -(Number.ofDigits numeral.magnitude : Int)
  else Number.ofDigits numeral.magnitude

end Numeral

/-- A number text stands for an integer when it has no fraction and no exponent, and its digits
fit 64 bits; with a sign they fit the 63 bits of a negative number, and are not zero. -/
theorem NumberText.value?_eq_integer_iff {text : NumberText} {value : Int} :
    text.value? = some (.integer value) ↔
      text.fraction = [] ∧ text.exponent = none ∧
        Number.ofDigits text.whole ≤ Number.digitCapacity ∧
        if text.negative then
          Number.ofDigits text.whole ≠ 0 ∧ Number.ofDigits text.whole ≤ 9223372036854775808 ∧
            -(Number.ofDigits text.whole : Int) = value
        else (Number.ofDigits text.whole : Int) = value := by
  have noReal (negative : Bool) (magnitude : Option Binary64) :
      magnitude.map (Number.real negative) ≠ some (.integer value) := by
    cases magnitude <;> simp
  have exact (number : Nat) : Number.collect 0 text.whole = (number, []) ↔
      Number.ofDigits text.whole = number ∧ Number.ofDigits text.whole ≤ Number.digitCapacity := by
    rw [Number.collect_eq_iff (Nat.zero_le _), Number.ofDigits_eq_onto]
  rw [NumberText.value?]
  generalize collected : Number.collect 0 text.whole = result
  obtain ⟨number, left⟩ := result
  by_cases plain : text.fraction = [] ∧ text.exponent = none ∧ left = []
  · obtain ⟨noFraction, noExponent, rfl⟩ := plain
    obtain ⟨rfl, fits⟩ := (exact number).mp collected
    cases sign : text.negative with
    | false => simp [noFraction, noExponent, fits]
    | true =>
      by_cases small :
          Number.ofDigits text.whole ≠ 0 ∧ Number.ofDigits text.whole ≤ 9223372036854775808
      · simp [noFraction, noExponent, fits, small]
      · simp only [noFraction, noExponent, List.isEmpty_nil, Option.isNone_none, and_self, if_true,
          not_true_eq_false, if_false, small, noReal, false_iff]
        tauto
  · have missed : ¬ (text.fraction.isEmpty ∧ text.exponent.isNone ∧ left.isEmpty) := by
      simpa using plain
    simp only [missed, if_false, noReal, false_iff]
    rintro ⟨noFraction, noExponent, fits, -⟩
    obtain ⟨-, rfl⟩ := Prod.mk.inj (collected.symm.trans ((exact _).mpr ⟨rfl, fits⟩))
    exact plain ⟨noFraction, noExponent, rfl⟩

namespace Numeral

/-- A zero with a minus sign is the one whole number that is no integer. -/
theorem isInteger_iff (numeral : Numeral) :
    numeral.IsInteger ↔ IsWhole numeral.magnitude ∧
      (numeral.negative = true → Number.ofDigits numeral.magnitude ≠ 0) := by
  refine and_congr_right fun isWhole => ?_
  rw [Ne, Ne, isWhole.ofDigits_eq_zero_iff, token]
  cases numeral.negative with
  | true => simp
  | false =>
    refine iff_of_true (fun same => ?_) (by simp)
    have same : numeral.magnitude = ['-', '0'] := by simpa using same
    obtain ⟨c, tail, begins, digit⟩ := numeral.wellFormed.exists_digit
    obtain rfl : '-' = c := (List.cons.inj (same.symm.trans begins)).1
    exact absurd digit (by decide)

/-- A number is read as an integer exactly when it is one that fits 64 bits, and then as its
value. -/
theorem value?_eq_integer_iff (numeral : Numeral) (value : Int) :
    numeral.value? = some (.integer value) ↔
      numeral.IsInteger ∧ numeral.toInt = value ∧
        -9223372036854775808 ≤ value ∧ value ≤ Number.digitCapacity := by
  obtain ⟨result, scans⟩ := scanNumber_of_magnitude numeral.wellFormed numeral.negative
  have scanned : scanNumber numeral.negative numeral.magnitude = .ok (result, []) := by
    simpa using scans [] (by rintro _ _ ⟨⟩)
  by_cases isWhole : IsWhole numeral.magnitude
  · cases scanned.symm.trans (scanNumber_of_whole isWhole numeral.negative)
    rw [isInteger_iff, value?, scanned, NumberText.value?_eq_integer_iff, toInt]
    simp only [isWhole, true_and, Number.digitCapacity]
    generalize Number.ofDigits numeral.magnitude = size
    cases numeral.negative with
    | true =>
      simp only [if_true, forall_const, ne_eq]
      omega
    | false =>
      simp only [Bool.false_eq_true, if_false, true_and, false_implies, ne_eq]
      omega
  · have notInteger : ¬ numeral.IsInteger := fun isInteger => isWhole isInteger.1
    simp only [notInteger, false_and, iff_false]
    rw [value?, scanned, NumberText.value?_eq_integer_iff]
    rintro ⟨noFraction, noExponent, -⟩
    obtain ⟨whole, isWhole', same, -⟩ := whole_of_scanNumber scanned noFraction noExponent
    rw [List.append_nil] at same
    exact isWhole (same ▸ isWhole')

/-- A number is a rule value when it is an integer that fits a signed 32-bit word, and then it
is the level that it writes. -/
theorem ruleValue_number_iff (numeral : Numeral) (depth : Nat) (part : Option RuleValue) :
    Meaning.optional (Meaning.ruleValue depth) (.number numeral) part ↔
      numeral.IsInteger ∧ -2 ^ 31 ≤ numeral.toInt ∧ numeral.toInt ≤ 2 ^ 31 - 1 ∧
        ∃ level : Int32, level.toInt = numeral.toInt ∧ part = some (.level level) := by
  have loosely (loose : Loose) : Meaning.loose depth (.number numeral) loose ↔
      ∃ known, numeral.value? = some known ∧ .number known = loose := by
    cases depth <;> simp [Meaning.loose, Meaning.scalar]
  have low : Int32.minValue.toInt = -2 ^ 31 := by decide
  have high : Int32.maxValue.toInt = 2 ^ 31 - 1 := by decide
  simp only [Meaning.optional, reduceCtorEq, false_and, false_or, ne_eq, not_false_eq_true,
    true_and, Meaning.ruleValue, loosely]
  constructor
  · rintro ⟨value, ⟨_, ⟨known, same, rfl⟩, stands⟩, rfl⟩
    cases known with
    | real negative magnitude => contradiction
    | integer number =>
      obtain ⟨isInteger, rfl, -⟩ := (numeral.value?_eq_integer_iff number).mp same
      simp only [ruleValue?, low, high, Option.ite_none_right_eq_some, Option.some.injEq] at stands
      obtain ⟨⟨atLeast, atMost⟩, rfl⟩ := stands
      exact ⟨isInteger, atLeast, atMost, Int32.ofInt numeral.toInt,
        Int32.toInt_ofInt_of_le atLeast (by omega), rfl⟩
  · rintro ⟨isInteger, atLeast, atMost, level, same, rfl⟩
    have known : numeral.value? = some (.integer numeral.toInt) := by
      refine (numeral.value?_eq_integer_iff _).mpr ⟨isInteger, rfl, ?_⟩
      simp only [Number.digitCapacity]
      omega
    refine ⟨.level level, ⟨_, ⟨_, known, rfl⟩, ?_⟩, rfl⟩
    rw [ruleValue?, low, high, if_pos ⟨atLeast, atMost⟩, ← same, Int32.ofInt_toInt]

end Numeral

end GrammarArtifact.Document
