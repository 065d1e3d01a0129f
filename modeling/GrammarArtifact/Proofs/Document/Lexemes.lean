import GrammarArtifact.Document.Syntax
import GrammarArtifact.Proofs.Document.Spelling
import Mathlib.Data.List.TakeWhile

/-!
# Strings and numbers as they are written

The scanners of strings and numbers against the syntax of documents. What they take is well
formed, and whatever is well formed is taken as far as it goes. A string tells by itself
where it ends. A number is taken whole if what follows it cannot belong to it, so for
numbers the second direction needs `Ends`.
-/

namespace GrammarArtifact.Document

variable {text rest : List Char}

/-! ## Strings -/

/-- An escape that is passed over is a well-formed one. -/
theorem passEscape_eq_ok_iff :
    passEscape text = .ok rest ↔ ∃ escape, IsEscape escape ∧ text = escape ++ rest := by
  constructor
  · intro passed
    unfold passEscape at passed
    split at passed <;> try contradiction
    next a b c d tail =>
      split at passed <;> try contradiction
      next known =>
        cases passed
        exact ⟨_, .unicode known, rfl⟩
    next c tail _ noUnicode =>
      split at passed <;> try contradiction
      next known =>
        cases passed
        exact ⟨[c], .short known, rfl⟩
  · rintro ⟨escape, known, rfl⟩
    cases known with
    | @short c known =>
      have noUnicode : c ≠ 'u' := by
        rintro rfl
        exact absurd known (by decide)
      simp [passEscape, known, noUnicode]
    | unicode known => simp [passEscape, known]

/-- A string that is passed over is well formed up to its quote. -/
theorem passString_eq_ok_iff :
    passString text = .ok rest ↔ ∃ inside, Quotable inside ∧ text = inside ++ '"' :: rest := by
  constructor
  · intro passed
    fun_induction passString text with
    | case1 => contradiction
    | case2 tail =>
      cases passed
      exact ⟨[], .done, rfl⟩
    | case3 => contradiction
    | case4 tail after escape quote induction =>
      obtain ⟨letters, known, rfl⟩ := passEscape_eq_ok_iff.mp escape
      obtain ⟨inside, quotable, rfl⟩ := induction passed
      exact ⟨'\\' :: (letters ++ inside), .escape known quotable, by simp⟩
    | case5 => contradiction
    | case6 c tail quote backslash visible induction =>
      obtain ⟨inside, quotable, rfl⟩ := induction passed
      exact ⟨c :: inside, .plain (Nat.le_of_not_lt visible) quote backslash quotable, rfl⟩
  · rintro ⟨inside, quotable, rfl⟩
    induction quotable with
    | done => simp [passString]
    | plain visible noQuote noEscape _ induction =>
      rw [List.cons_append, passString]
      simp [noQuote, noEscape, Nat.not_lt.mpr visible, induction]
    | @escape letters inside known _ induction =>
      have passed : passEscape (letters ++ (inside ++ '"' :: rest)) = .ok (inside ++ '"' :: rest) :=
        passEscape_eq_ok_iff.mpr ⟨letters, known, rfl⟩
      rw [List.cons_append, List.append_assoc, passString, if_neg (by decide), if_pos rfl]
      split
      next failed => simp [passed] at failed
      next same =>
        cases passed.symm.trans same
        exact induction

/-- A string ends with the first quote that is not escaped. -/
theorem inside_unique {inside other rest' : List Char} (quotable : Quotable inside)
    (quotable' : Quotable other) (same : inside ++ '"' :: rest = other ++ '"' :: rest') :
    inside = other ∧ rest = rest' := by
  have passed : passString (inside ++ '"' :: rest) = .ok rest :=
    passString_eq_ok_iff.mpr ⟨inside, quotable, rfl⟩
  have passed' : passString (inside ++ '"' :: rest) = .ok rest' :=
    passString_eq_ok_iff.mpr ⟨other, quotable', same⟩
  cases passed.symm.trans passed'
  exact ⟨List.append_cancel_right same, rfl⟩

theorem Quotable.append {inside other : List Char} (quotable : Quotable inside)
    (later : Quotable other) : Quotable (inside ++ other) := by
  induction quotable with
  | done => exact later
  | plain visible noQuote noEscape _ induction => exact .plain visible noQuote noEscape induction
  | escape known _ induction =>
    rw [List.cons_append, List.append_assoc]
    exact .escape known induction

/-- An escape that is read is well formed, or two escapes for the halves of a pair are. It is
read in the same way wherever it stands. -/
theorem exists_escape_of_scanEscape {plain : Char} (scanned : scanEscape text = .ok (plain, rest)) :
    ∃ inside, Quotable ('\\' :: inside) ∧ text = inside ++ rest ∧
      ∀ more, scanEscape (inside ++ more) = .ok (plain, more) := by
  have one {escape : List Char} (known : IsEscape escape) : Quotable ('\\' :: escape) := by
    simpa using Quotable.escape known .done
  unfold scanEscape at scanned
  split at scanned <;> try contradiction
  next a b c d tail =>
    split at scanned
    · contradiction
    next number known =>
      have first := one (.unicode (Option.isSome_of_eq_some known))
      split at scanned
      · contradiction
      next notLow =>
        split at scanned
        next isHigh =>
          unfold scanLowSurrogate at scanned
          split at scanned <;> try contradiction
          next a' b' c' d' tail =>
            split at scanned
            · contradiction
            next low known' =>
              split at scanned
              next isLow =>
                simp only [Except.ok.injEq, Prod.mk.injEq] at scanned
                obtain ⟨rfl, rfl⟩ := scanned
                have second := one (.unicode (Option.isSome_of_eq_some known'))
                refine ⟨['u', a, b, c, d, '\\', 'u', a', b', c', d'], first.append second, rfl,
                  fun more => ?_⟩
                have pair : scanLowSurrogate number
                    ('\\' :: 'u' :: a' :: b' :: c' :: d' :: more) =
                      .ok (pairCharacter number low, more) := by
                  simp only [scanLowSurrogate, known', isLow, if_true]
                simpa [scanEscape, known, notLow, isHigh] using pair
              next => contradiction
        next notHigh =>
          cases scanned
          refine ⟨['u', a, b, c, d], first, rfl, fun more => ?_⟩
          simp [scanEscape, known, notLow, notHigh]
  next c tail _ noUnicode =>
    split at scanned
    next character known =>
      cases scanned
      have noUnicode : c ≠ 'u' := noUnicode
      refine ⟨[c], one (.short (Option.isSome_of_eq_some known)), rfl, fun more => ?_⟩
      simp [scanEscape, known, noUnicode]
    next => contradiction

/-- A string that is read is well formed up to its quote, and is read in the same way whatever
stands behind. -/
theorem exists_inside_of_scanString {read : List Char} {string : String}
    (scanned : scanString read text = .ok (string, rest)) :
    ∃ inside, Quotable inside ∧ text = inside ++ '"' :: rest ∧
      ∀ more, scanString read (inside ++ '"' :: more) = .ok (string, more) := by
  fun_induction scanString read text with
  | case1 => contradiction
  | case2 read tail =>
    cases scanned
    exact ⟨[], .done, rfl, fun more => by simp [scanString]⟩
  | case3 => contradiction
  | case4 read tail plain after escape quote induction =>
    obtain ⟨letters, known, rfl, again⟩ := exists_escape_of_scanEscape escape
    obtain ⟨inside, quotable, rfl, later⟩ := induction scanned
    refine ⟨'\\' :: letters ++ inside, known.append quotable, by simp, fun more => ?_⟩
    rw [List.append_assoc, List.cons_append, scanString_escape (again _)]
    exact later more
  | case5 => contradiction
  | case6 read c tail quote backslash visible induction =>
    obtain ⟨inside, quotable, rfl, later⟩ := induction scanned
    refine ⟨c :: inside, .plain (Nat.le_of_not_lt visible) quote backslash quotable, rfl,
      fun more => ?_⟩
    rw [List.cons_append, scanString]
    simp [quote, backslash, visible, later more]

/-- A string that is read is a well-formed one that stands for a text. -/
theorem scanString_eq_ok_iff {string : String} :
    scanString [] text = .ok (string, rest) ↔
      ∃ quoted : Quoted, text = quoted.inside ++ '"' :: rest ∧ quoted.text? = some string := by
  constructor
  · intro scanned
    obtain ⟨inside, quotable, same, again⟩ := exists_inside_of_scanString scanned
    exact ⟨⟨inside, quotable⟩, same, by simp [Quoted.text?, again []]⟩
  · rintro ⟨⟨inside, quotable⟩, rfl, known⟩
    simp only [Quoted.text?] at known
    split at known
    next string' after scanned =>
      cases known
      obtain ⟨inside', quotable', same, again⟩ := exists_inside_of_scanString scanned
      obtain ⟨rfl, -⟩ := inside_unique quotable quotable' same
      exact again rest
    next => contradiction

/-- A string that stands for a text is read as that text, whatever stands behind. -/
theorem Quoted.scanString_inside {quoted : Quoted} {string : String}
    (known : quoted.text? = some string) (rest : List Char) :
    scanString [] (quoted.inside ++ '"' :: rest) = .ok (string, rest) :=
  scanString_eq_ok_iff.mpr ⟨quoted, rfl, known⟩

/-! ## Numbers -/

/-- Digits that are taken from the front of a text are digits. -/
theorem isDigits_takeWhile (nonempty : ¬ (text.takeWhile isDigit).isEmpty = true) :
    IsDigits (text.takeWhile isDigit) :=
  ⟨fun none => nonempty (List.isEmpty_iff.mpr none), fun _ member => List.mem_takeWhile_imp member⟩

/-- What is read behind the mark of an exponent is a sign, if there is one, and digits. -/
theorem exists_power_of_scanExponent {number result : NumberText}
    (scanned : scanExponent number text = .ok (result, rest)) :
    ∃ sign digits, (sign = [] ∨ sign = ['+'] ∨ sign = ['-']) ∧ IsDigits digits ∧
      text = sign ++ digits ++ rest := by
  have digitsOf (negative : Bool) {digits : List Char}
      (scanned : scanExponentDigits number negative digits = .ok (result, rest)) :
      ∃ front, IsDigits front ∧ digits = front ++ rest := by
    unfold scanExponentDigits at scanned
    split at scanned
    · contradiction
    next nonempty =>
      cases scanned
      exact ⟨_, isDigits_takeWhile nonempty, List.takeWhile_append_dropWhile.symm⟩
  unfold scanExponent at scanned
  split at scanned
  next negative digits split =>
    obtain ⟨front, isDigits, same⟩ := digitsOf negative scanned
    split at split
    · cases split
      exact ⟨['+'], front, .inr (.inl rfl), isDigits, by simp [same]⟩
    · cases split
      exact ⟨['-'], front, .inr (.inr rfl), isDigits, by simp [same]⟩
    · cases split
      exact ⟨[], front, .inl rfl, isDigits, by simp [same]⟩

/-- What is read behind the digits of a number is an exponent or nothing. -/
theorem exists_exponent_of_scanAfterDigits {number result : NumberText}
    (scanned : scanAfterDigits number text = .ok (result, rest)) :
    ∃ exponent, IsExponent exponent ∧ text = exponent ++ rest := by
  unfold scanAfterDigits at scanned
  split at scanned
  next tail =>
    obtain ⟨sign, digits, signed, all, rfl⟩ := exists_power_of_scanExponent scanned
    exact ⟨_, .power (.inl rfl) signed all, rfl⟩
  next tail =>
    obtain ⟨sign, digits, signed, all, rfl⟩ := exists_power_of_scanExponent scanned
    exact ⟨_, .power (.inr rfl) signed all, rfl⟩
  next =>
    cases scanned
    exact ⟨[], .none, rfl⟩

/-- What is read behind the whole part of a number is a fraction and an exponent, each if there
is one. -/
theorem exists_fraction_of_scanAfterWhole {number result : NumberText}
    (scanned : scanAfterWhole number text = .ok (result, rest)) :
    ∃ fraction exponent, IsFraction fraction ∧ IsExponent exponent ∧
      text = fraction ++ (exponent ++ rest) := by
  unfold scanAfterWhole at scanned
  split at scanned
  next tail =>
    split at scanned
    · contradiction
    next nonempty =>
      obtain ⟨exponent, isExponent, same⟩ := exists_exponent_of_scanAfterDigits scanned
      refine ⟨_, exponent, .point (isDigits_takeWhile nonempty), isExponent, ?_⟩
      rw [List.cons_append, ← same, List.takeWhile_append_dropWhile]
  next =>
    obtain ⟨exponent, isExponent, rfl⟩ := exists_exponent_of_scanAfterDigits scanned
    exact ⟨[], exponent, .none, isExponent, rfl⟩

/-- A number that is read is well formed. -/
theorem exists_magnitude_of_scanNumber {negative : Bool} {result : NumberText}
    (scanned : scanNumber negative text = .ok (result, rest)) :
    ∃ magnitude, IsMagnitude magnitude ∧ text = magnitude ++ rest := by
  have behind {whole tail : List Char} (isWhole : IsWhole whole)
      (scanned : scanAfterWhole { negative, whole } tail = .ok (result, rest)) :
      ∃ magnitude, IsMagnitude magnitude ∧ whole ++ tail = magnitude ++ rest := by
    obtain ⟨fraction, exponent, isFraction, isExponent, rfl⟩ :=
      exists_fraction_of_scanAfterWhole scanned
    exact ⟨_, .parts isWhole isFraction isExponent, by simp⟩
  unfold scanNumber at scanned
  split at scanned
  · contradiction
  next tail =>
    split at scanned
    · split at scanned
      · contradiction
      · exact behind .zero scanned
    · exact behind .zero scanned
  next c tail noZero =>
    split at scanned
    next digit =>
      have noZero : c ≠ '0' := noZero
      have all (d : Char) (member : d ∈ c :: tail.takeWhile isDigit) : isDigit d = true := by
        rcases List.mem_cons.mp member with rfl | later
        · exact digit
        · exact List.mem_takeWhile_imp later
      obtain ⟨magnitude, isMagnitude, same⟩ := behind (.digits all noZero) scanned
      refine ⟨magnitude, isMagnitude, ?_⟩
      rw [← same, List.cons_append, List.takeWhile_append_dropWhile]
    next => contradiction

/-- Nothing at the front of a text is a digit. -/
def Stops (text : List Char) : Prop := ∀ c tail, text = c :: tail → isDigit c = false

theorem Ends.stops (ends : Ends text) : Stops text := fun c tail same => (ends c tail same).1

/-- The digits of an exponent are read to their end. -/
theorem scanExponent_of_power {sign digits : List Char}
    (signed : sign = [] ∨ sign = ['+'] ∨ sign = ['-']) (all : IsDigits digits)
    (number : NumberText) :
    ∃ result, ∀ rest, Stops rest →
      scanExponent number (sign ++ digits ++ rest) = .ok (result, rest) := by
  obtain ⟨nonempty, all⟩ := all
  have taken (negative : Bool) (rest : List Char) (stops : Stops rest) :
      scanExponentDigits number negative (digits ++ rest) =
        .ok ({ number with exponent := some (negative, digits) }, rest) := by
    simp [scanExponentDigits, span_digits all stops, nonempty]
  rcases signed with rfl | rfl | rfl
  · obtain ⟨c, tail, rfl⟩ := List.exists_cons_of_ne_nil nonempty
    have digit := all c List.mem_cons_self
    have plus : c ≠ '+' := by rintro rfl; exact absurd digit (by decide)
    have minus : c ≠ '-' := by rintro rfl; exact absurd digit (by decide)
    refine ⟨{ number with exponent := some (false, c :: tail) }, fun rest stops => ?_⟩
    rw [← taken false rest stops]
    simp [scanExponent, scanExponentDigits, plus, minus]
  · exact ⟨_, fun rest stops => taken false rest stops⟩
  · exact ⟨_, fun rest stops => taken true rest stops⟩

/-- The exponent of a number is read to its end. -/
theorem scanAfterDigits_of_exponent {exponent : List Char} (isExponent : IsExponent exponent)
    (number : NumberText) :
    ∃ result, ∀ rest, Ends rest →
      scanAfterDigits number (exponent ++ rest) = .ok (result, rest) := by
  cases isExponent with
  | none =>
    refine ⟨number, fun rest ends => ?_⟩
    cases rest with
    | nil => rfl
    | cons c tail =>
      obtain ⟨-, -, lower, upper⟩ := ends c tail rfl
      simp [scanAfterDigits, lower, upper]
  | power marked signed all =>
    obtain ⟨result, scanned⟩ := scanExponent_of_power signed all number
    rcases marked with rfl | rfl
    · exact ⟨result, fun rest ends => scanned rest ends.stops⟩
    · exact ⟨result, fun rest ends => scanned rest ends.stops⟩

/-- An exponent is no digit of what stands before it. -/
theorem IsExponent.stops {exponent : List Char} (isExponent : IsExponent exponent)
    (ends : Ends rest) : Stops (exponent ++ rest) := by
  cases isExponent with
  | none => exact ends.stops
  | power marked =>
    rintro c tail same
    obtain rfl := (List.cons.inj same).1
    rcases marked with rfl | rfl <;> rfl

/-- Neither is a fraction. -/
theorem IsFraction.stops {fraction exponent : List Char} (isFraction : IsFraction fraction)
    (isExponent : IsExponent exponent) (ends : Ends rest) :
    Stops (fraction ++ (exponent ++ rest)) := by
  cases isFraction with
  | none => exact isExponent.stops ends
  | point =>
    rintro c tail same
    obtain rfl := (List.cons.inj same).1
    rfl

/-- The fraction and the exponent of a number are read to their end. -/
theorem scanAfterWhole_of_fraction {fraction exponent : List Char}
    (isFraction : IsFraction fraction) (isExponent : IsExponent exponent) (number : NumberText) :
    ∃ result, ∀ rest, Ends rest →
      scanAfterWhole number (fraction ++ (exponent ++ rest)) = .ok (result, rest) := by
  cases isFraction with
  | none =>
    obtain ⟨result, scanned⟩ := scanAfterDigits_of_exponent isExponent number
    refine ⟨result, fun rest ends => ?_⟩
    rw [← scanned rest ends, List.nil_append]
    unfold scanAfterWhole
    split
    next tail point =>
      -- A point begins neither an exponent nor what may follow a number.
      cases isExponent with
      | none => exact absurd rfl (ends '.' tail point).2.1
      | power marked => rcases marked with rfl | rfl <;> simp at point
    next => rfl
  | @point digits all =>
    obtain ⟨result, scanned⟩ :=
      scanAfterDigits_of_exponent isExponent { number with fraction := digits }
    refine ⟨result, fun rest ends => ?_⟩
    have span := span_digits all.2 (isExponent.stops ends)
    simp [scanAfterWhole, span, all.1, scanned rest ends]

/-- A well-formed number is read to its end. -/
theorem scanNumber_of_magnitude {magnitude : List Char} (isMagnitude : IsMagnitude magnitude)
    (negative : Bool) :
    ∃ result, ∀ rest, Ends rest →
      scanNumber negative (magnitude ++ rest) = .ok (result, rest) := by
  cases isMagnitude with
  | @parts whole fraction exponent isWhole isFraction isExponent =>
    obtain ⟨result, scanned⟩ :=
      scanAfterWhole_of_fraction isFraction isExponent { negative, whole }
    refine ⟨result, fun rest ends => ?_⟩
    have stops := isFraction.stops isExponent ends
    rw [List.append_assoc, List.append_assoc]
    cases isWhole with
    | zero =>
      have read := scanned rest ends
      rw [List.singleton_append]
      generalize fraction ++ (exponent ++ rest) = behind at *
      cases behind with
      | nil => exact read
      | cons c tail => simpa [scanNumber, stops c tail rfl] using read
    | @digits c later all noZero =>
      have span := span_digits (fun d member => all d (List.mem_cons_of_mem c member)) stops
      have digit := all c List.mem_cons_self
      rw [List.cons_append]
      simpa [scanNumber, noZero, digit, span] using scanned rest ends

/-- A number ends where nothing follows that can belong to it. -/
theorem magnitude_unique {magnitude other rest' : List Char} (isMagnitude : IsMagnitude magnitude)
    (isMagnitude' : IsMagnitude other) (ends : Ends rest) (ends' : Ends rest')
    (same : magnitude ++ rest = other ++ rest') : magnitude = other ∧ rest = rest' := by
  obtain ⟨_, scanned⟩ := scanNumber_of_magnitude isMagnitude false
  obtain ⟨_, scanned'⟩ := scanNumber_of_magnitude isMagnitude' false
  have both := scanned rest ends
  rw [same, scanned' rest' ends'] at both
  cases both
  exact ⟨List.append_cancel_right same, rfl⟩

/-- A number begins with a digit. -/
theorem IsMagnitude.exists_digit {magnitude : List Char} (isMagnitude : IsMagnitude magnitude) :
    ∃ c tail, magnitude = c :: tail ∧ isDigit c = true := by
  cases isMagnitude with
  | parts isWhole =>
    cases isWhole with
    | zero => exact ⟨'0', _, rfl, rfl⟩
    | digits all => exact ⟨_, _, rfl, all _ List.mem_cons_self⟩

/-- A number that is passed over is well formed. -/
theorem exists_magnitude_of_passNumber (passed : passNumber text = .ok rest) :
    ∃ magnitude, IsMagnitude magnitude ∧ text = magnitude ++ rest := by
  unfold passNumber at passed
  split at passed
  next scanned =>
    cases passed
    exact exists_magnitude_of_scanNumber scanned
  next => contradiction

/-- A well-formed number is passed over to its end. -/
theorem passNumber_of_magnitude {magnitude : List Char} (isMagnitude : IsMagnitude magnitude)
    (ends : Ends rest) : passNumber (magnitude ++ rest) = .ok rest := by
  obtain ⟨_, scanned⟩ := scanNumber_of_magnitude isMagnitude false
  simp [passNumber, scanned rest ends]

namespace Numeral

/-- A number begins with its sign or a digit. -/
theorem exists_token_eq_cons (numeral : Numeral) :
    ∃ c tail, numeral.token = c :: tail ∧ (c = '-' ∨ isDigit c = true) := by
  obtain ⟨c, tail, same, digit⟩ := numeral.wellFormed.exists_digit
  unfold token
  split
  · exact ⟨'-', _, rfl, .inl rfl⟩
  · exact ⟨c, tail, same, .inr digit⟩

/-- A number is known from its written form. -/
theorem token_unique {numeral other : Numeral} {rest' : List Char} (ends : Ends rest)
    (ends' : Ends rest') (same : numeral.token ++ rest = other.token ++ rest') :
    numeral = other ∧ rest = rest' := by
  obtain ⟨negative, magnitude, wellFormed⟩ := numeral
  obtain ⟨negative', magnitude', wellFormed'⟩ := other
  obtain ⟨c, tail, begins, digit⟩ := wellFormed.exists_digit
  obtain ⟨c', tail', begins', digit'⟩ := wellFormed'.exists_digit
  have unsigned : c ≠ '-' := by rintro rfl; exact absurd digit (by decide)
  have unsigned' : c' ≠ '-' := by rintro rfl; exact absurd digit' (by decide)
  have signs : negative = negative' := by
    cases negative <;> cases negative' <;> simp [token, begins, begins', unsigned, unsigned'.symm]
      at same ⊢
  subst signs
  have magnitudes : magnitude ++ rest = magnitude' ++ rest' := by
    cases negative <;> simpa [token] using same
  obtain ⟨rfl, rfl⟩ := magnitude_unique wellFormed wellFormed' ends ends' magnitudes
  exact ⟨rfl, rfl⟩

/-- The value that a number stands for, unless it is too large for any. -/
def value? (numeral : Numeral) : Option Number :=
  match scanNumber numeral.negative numeral.magnitude with
  | .ok (number, _) => number.value?
  | .error _ => none

end Numeral

/-- A number that is read is a well-formed one that stands for a value. -/
theorem yields_number_iff {value : Number} (ends : Ends rest) :
    Yields (Reader.number text) value rest ↔
      ∃ numeral : Numeral, text = numeral.token ++ rest ∧ numeral.value? = some value := by
  have scans (negative : Bool) {magnitude : List Char} (isMagnitude : IsMagnitude magnitude) :
      Yields (Reader.digits negative (magnitude ++ rest)) value rest ↔
        Numeral.value? ⟨negative, magnitude, isMagnitude⟩ = some value := by
    obtain ⟨result, scanned⟩ := scanNumber_of_magnitude isMagnitude negative
    have alone := scanned [] (by rintro _ _ ⟨⟩)
    rw [List.append_nil] at alone
    simp [Reader.yields_digits, scanned rest ends, Numeral.value?, alone]
  rw [Reader.yields_number]
  constructor
  · rintro (⟨after, rfl, yields⟩ | ⟨-, yields⟩)
    · obtain ⟨_, scanned, -⟩ := Reader.yields_digits.mp yields
      obtain ⟨magnitude, isMagnitude, rfl⟩ := exists_magnitude_of_scanNumber scanned
      exact ⟨⟨true, magnitude, isMagnitude⟩, rfl, (scans true isMagnitude).mp yields⟩
    · obtain ⟨_, scanned, -⟩ := Reader.yields_digits.mp yields
      obtain ⟨magnitude, isMagnitude, rfl⟩ := exists_magnitude_of_scanNumber scanned
      exact ⟨⟨false, magnitude, isMagnitude⟩, rfl, (scans false isMagnitude).mp yields⟩
  · rintro ⟨⟨negative, magnitude, isMagnitude⟩, rfl, known⟩
    cases negative with
    | true => exact .inl ⟨_, rfl, (scans true isMagnitude).mpr known⟩
    | false =>
      refine .inr ⟨?_, (scans false isMagnitude).mpr known⟩
      rintro after same
      obtain ⟨c, tail, begins, digit⟩ := isMagnitude.exists_digit
      simp only [Numeral.token, begins, Bool.false_eq_true, if_false, List.cons_append] at same
      rw [(List.cons.inj same).1] at digit
      exact absurd digit (by decide)

end GrammarArtifact.Document
