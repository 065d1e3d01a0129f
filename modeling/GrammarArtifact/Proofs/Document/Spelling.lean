import GrammarArtifact.Document.Value
import GrammarArtifact.Proofs.Document.Reading

/-!
# Written pieces are read back

Strings and integers are scanned back from their written forms. A string ends in its
quote. An integer ends where no further character belongs to it, which `Ends` says of the
text behind it. Between the tokens of a layout there may be spaces, and what a token is
followed by in a value is always a comma, a closing bracket or nothing.
-/

namespace GrammarArtifact.Document

variable {text rest : List Char}

/-! ## Strings -/

/-- An escape is read as the character that it stands for. -/
theorem scanString_escape {read after : List Char} {plain : Char}
    (escape : scanEscape rest = .ok (plain, after)) :
    scanString read ('\\' :: rest) = scanString (plain :: read) after := by
  rw [scanString, if_neg (by decide), if_pos rfl]
  split
  next failed => simp [escape] at failed
  next same =>
    cases escape.symm.trans same
    rfl

/-- A character below the space is written by its number. -/
theorem hexNumber?_control : ∀ number < 32,
    hexNumber? '0' '0' (Nat.digitChar (number / 16)) (Nat.digitChar (number % 16)) =
      some number := by
  decide

/-- Every character is read back from its written form. -/
theorem scanString_writeChar (read : List Char) (c : Char) (rest : List Char) :
    scanString read (writeChar c ++ rest) = scanString (c :: read) rest := by
  unfold writeChar
  split
  next quote => subst quote; exact scanString_escape rfl
  split
  next backslash => subst backslash; exact scanString_escape rfl
  split
  next line => subst line; exact scanString_escape rfl
  split
  next carriage => subst carriage; exact scanString_escape rfl
  split
  next tab => subst tab; exact scanString_escape rfl
  split
  next notQuote notBackslash _ _ _ control =>
    have number := hexNumber?_control c.toNat control
    have notLow : isLowSurrogate c.toNat = false := by
      simp only [isLowSurrogate, Bool.and_eq_false_iff, decide_eq_false_iff_not]
      omega
    have notHigh : isHighSurrogate c.toNat = false := by
      simp only [isHighSurrogate, Bool.and_eq_false_iff, decide_eq_false_iff_not]
      omega
    apply scanString_escape
    simp [scanEscape, number, notLow, notHigh]
  next notQuote notBackslash _ _ _ plain =>
    rw [List.singleton_append, scanString, if_neg notQuote, if_neg notBackslash, if_neg plain]

/-- A string is read back from its written form. -/
theorem scanString_written (read characters rest : List Char) :
    scanString read (characters.flatMap writeChar ++ '"' :: rest) =
      .ok (String.ofList (read.reverse ++ characters), rest) := by
  induction characters generalizing read with
  | nil => simp [scanString]
  | cons c characters induction =>
    rw [List.flatMap_cons, List.append_assoc, scanString_writeChar, induction]
    simp

/-! ## Integers -/

/-- Nothing at the front of a text can belong to a number before it. -/
def Ends (text : List Char) : Prop :=
  ∀ c tail, text = c :: tail → isDigit c = false ∧ c ≠ '.' ∧ c ≠ 'e' ∧ c ≠ 'E'

/-- The digit of a number below ten has its value. -/
theorem digitValue_digitChar : ∀ digit < 10, Number.digitValue (Nat.digitChar digit) = digit := by
  decide

/-- The written digits of a number are collected to the number. -/
theorem collect_toDigits (number : Nat) (small : number ≤ Number.digitCapacity) (tail : List Char) :
    Number.collect 0 (Nat.toDigits 10 number ++ tail) = Number.collect number tail := by
  induction number using Nat.strongRecOn generalizing tail with
  | ind number induction =>
    by_cases short : number < 10
    · rw [Nat.toDigits_of_lt_base short]
      simp [Number.collect, digitValue_digitChar number short, small]
    · -- The last digit is collected onto the number that the other digits write.
      have last : number % 10 < 10 := Nat.mod_lt number (by decide)
      have split : number / 10 * 10 + number % 10 = number := by omega
      rw [Nat.toDigits_of_base_le (by decide) (Nat.le_of_not_lt short), List.append_assoc,
        induction (number / 10) (by omega) (by omega)]
      simp [Number.collect, digitValue_digitChar _ last, split, small]

/-- The written form of a number is a row of digits. -/
theorem isDigit_of_mem_toDigits {number : Nat} {c : Char} (inside : c ∈ Nat.toDigits 10 number) :
    isDigit c = true := by
  have digit := Nat.isDigit_of_mem_toDigits (by decide) (by decide) inside
  simpa [isDigit, Char.isDigit, Char.le_def] using digit

/-- A number that is not zero is written without a zero in front. -/
theorem exists_toDigits_eq_cons {number : Nat} (positive : number ≠ 0) :
    ∃ c digits, Nat.toDigits 10 number = c :: digits ∧ c ≠ '0' := by
  induction number using Nat.strongRecOn with
  | ind number induction =>
    by_cases short : number < 10
    · have digit : ∀ digit < 10, digit ≠ 0 → Nat.digitChar digit ≠ '0' := by decide
      exact ⟨Nat.digitChar number, [], Nat.toDigits_of_lt_base short, digit number short positive⟩
    · obtain ⟨c, digits, written, solid⟩ := induction (number / 10) (by omega) (by omega)
      refine ⟨c, digits ++ [Nat.digitChar (number % 10)], ?_, solid⟩
      rw [Nat.toDigits_of_base_le (by decide) (Nat.le_of_not_lt short), written, List.cons_append]

/-- A row of digits ends where no further digit follows. -/
theorem span_digits {digits : List Char} (all : ∀ c ∈ digits, isDigit c = true)
    (stops : ∀ c tail, rest = c :: tail → isDigit c = false) :
    (digits ++ rest).takeWhile isDigit = digits ∧ (digits ++ rest).dropWhile isDigit = rest := by
  have stop : rest.takeWhile isDigit = [] ∧ rest.dropWhile isDigit = rest := by
    cases rest with
    | nil => simp
    | cons c tail => simp [stops c tail rfl]
  rw [List.takeWhile_append_of_pos all, List.dropWhile_append_of_pos all, stop.1, stop.2]
  simp

/-- Behind a number that is finished nothing more is scanned. -/
theorem scanAfterWhole_of_ends (number : NumberText) (ends : Ends text) :
    scanAfterWhole number text = .ok (number, text) := by
  cases text with
  | nil => rfl
  | cons c tail =>
    obtain ⟨-, point, lower, upper⟩ := ends c tail rfl
    simp [scanAfterWhole, scanAfterDigits, point, lower, upper]

/-- A number is scanned back from its written form. -/
theorem scanNumber_toDigits (negative : Bool) (number : Nat) (ends : Ends rest) :
    scanNumber negative (Nat.toDigits 10 number ++ rest) =
      .ok ({ negative, whole := Nat.toDigits 10 number }, rest) := by
  by_cases zero : number = 0
  · subst zero
    have written : Nat.toDigits 10 0 = ['0'] := rfl
    rw [written, List.singleton_append]
    cases rest with
    | nil => rfl
    | cons c tail => simp [scanNumber, (ends c tail rfl).1, scanAfterWhole_of_ends _ ends]
  · obtain ⟨c, digits, written, solid⟩ := exists_toDigits_eq_cons zero
    have all (d : Char) (inside : d ∈ c :: digits) : isDigit d = true :=
      isDigit_of_mem_toDigits (written ▸ inside)
    have first : isDigit c = true := all c List.mem_cons_self
    have span := span_digits (fun d inside => all d (List.mem_cons_of_mem c inside))
      fun d tail same => (ends d tail same).1
    rw [written, List.cons_append]
    simp [scanNumber, first, span, scanAfterWhole_of_ends _ ends]

/-- An integer below zero is written with a sign in front. -/
theorem toList_toString_negSucc (number : Nat) :
    (toString (Int.negSucc number)).toList = '-' :: Nat.toDigits 10 (number + 1) := by
  have sign : toString (Int.negSucc number) = "-" ++ Nat.repr (number + 1) := rfl
  rw [sign, String.toList_append, Nat.toList_repr]
  rfl

/-- A written number begins with a digit. -/
theorem exists_digit_toDigits (number : Nat) :
    ∃ c digits, Nat.toDigits 10 number = c :: digits ∧ isDigit c = true := by
  obtain ⟨c, digits, written⟩ := List.exists_cons_of_ne_nil (Nat.toDigits_ne_nil (n := number))
  exact ⟨c, digits, written, isDigit_of_mem_toDigits (written ▸ List.mem_cons_self)⟩

/-- A written integer begins with a digit or a sign. -/
theorem exists_toList_toString (value : Int) :
    ∃ c tail, (toString value).toList = c :: tail ∧ (c = '-' ∨ isDigit c = true) := by
  cases value with
  | ofNat number =>
    obtain ⟨c, digits, written, digit⟩ := exists_digit_toDigits number
    exact ⟨c, digits, Nat.toList_repr.trans written, .inr digit⟩
  | negSucc number => exact ⟨'-', _, toList_toString_negSucc number, .inl rfl⟩

/-- No other character begins a written integer. -/
theorem ne_of_number {c d : Char} (start : c = '-' ∨ isDigit c = true)
    (other : d ≠ '-' ∧ isDigit d = false) : c ≠ d := by
  rintro rfl
  rcases start with sign | digit
  · exact other.1 sign
  · simp [other.2] at digit

/-- A written integer does not begin with a space. -/
theorem isSpace_of_number {c : Char} (start : c = '-' ∨ isDigit c = true) : isSpace c = false := by
  simp [isSpace, ne_of_number start (d := ' ') (by decide),
    ne_of_number start (d := '\n') (by decide), ne_of_number start (d := '\t') (by decide),
    ne_of_number start (d := '\r') (by decide)]

/-- An integer is read back from its written form. -/
theorem yields_number_written (value : Int) (low : -9223372036854775808 ≤ value)
    (high : value ≤ 18446744073709551615) (ends : Ends rest) :
    Yields (Reader.number ((toString value).toList ++ rest)) (.integer value) rest := by
  have collected (number : Nat) (small : number ≤ Number.digitCapacity) :
      Number.collect 0 (Nat.toDigits 10 number) = (number, []) := by
    simpa [Number.collect] using collect_toDigits number small []
  cases value with
  | ofNat number =>
    have written : (toString (Int.ofNat number)).toList = Nat.toDigits 10 number :=
      Nat.toList_repr
    have small : number ≤ Number.digitCapacity := Int.ofNat_le.mp high
    rw [written]
    refine Reader.yields_number.mpr (.inr ⟨fun after signed => ?_, ?_⟩)
    · obtain ⟨c, digits, first, digit⟩ := exists_digit_toDigits number
      rw [first, List.cons_append] at signed
      rw [(List.cons.inj signed).1] at digit
      exact absurd digit (by decide)
    · exact Reader.yields_digits.mpr ⟨_, scanNumber_toDigits false number ends, by
        simp [NumberText.value?, collected number small]⟩
  | negSucc number =>
    have small : number + 1 ≤ 9223372036854775808 := by omega
    rw [toList_toString_negSucc, List.cons_append]
    refine Reader.yields_number.mpr (.inl ⟨_, rfl, Reader.yields_digits.mpr
      ⟨_, scanNumber_toDigits true (number + 1) ends, ?_⟩⟩)
    have known := collected (number + 1) (Nat.le_trans small (by decide))
    simp [NumberText.value?, known, small, Int.negSucc_eq]

/-! ## Layouts -/

/-- What a value is followed by: nothing, or a token that closes or separates. -/
def Closes : List (List Char) → Prop
  | [] => True
  | token :: _ => token ∈ [[','], [']'], ['\x7d']]

/-- Spaces in front of a layout do not matter. -/
theorem laidOut_skipSpace {tokens : List (List Char)} :
    LaidOut tokens (skipSpace text) ↔ LaidOut tokens text := by
  cases tokens <;> simp [LaidOut, skipSpace_skipSpace]

/-- No space and no character that closes or separates belongs to a number. -/
theorem ends_of_stop {c : Char} {tail : List Char}
    (stop : c ∈ [' ', '\n', '\t', '\r', ',', ']', '\x7d']) : Ends (c :: tail) := by
  rintro d later same
  obtain rfl := (List.cons.inj same).1
  simp only [List.mem_cons, List.not_mem_nil, or_false] at stop
  rcases stop with rfl | rfl | rfl | rfl | rfl | rfl | rfl <;> decide

/-- What follows spaces, or ends a text, ends the number in front of it if it closes or
separates. -/
theorem ends_of_skipSpace
    (stops : ∀ c tail, skipSpace text = c :: tail → c ∈ [',', ']', '\x7d']) : Ends text := by
  cases text with
  | nil => rintro c tail ⟨⟩
  | cons c tail =>
    by_cases space : isSpace c = true
    · refine ends_of_stop ?_
      simp only [isSpace, Bool.or_eq_true, decide_eq_true_eq] at space
      rcases space with ((rfl | rfl) | rfl) | rfl <;> simp
    · have front : skipSpace (c :: tail) = c :: tail := by simp [skipSpace, space]
      have stop := stops c tail front
      refine ends_of_stop ?_
      simp only [List.mem_cons, List.not_mem_nil, or_false] at stop ⊢
      exact .inr (.inr (.inr (.inr stop)))

/-- What follows a value ends the number that the value may be. -/
theorem ends_of_laidOut {tokens : List (List Char)} (closes : Closes tokens)
    (laid : LaidOut tokens text) : Ends text := by
  refine ends_of_skipSpace fun c tail found => ?_
  cases tokens with
  | nil => exact absurd (found.symm.trans laid) (List.cons_ne_nil c tail)
  | cons token tokens =>
    obtain ⟨rest, front, -⟩ := laid
    rw [found] at front
    simp only [Closes, List.mem_cons, List.not_mem_nil, or_false] at closes
    rcases closes with rfl | rfl | rfl <;> simp [(List.cons.inj front).1]

end GrammarArtifact.Document
