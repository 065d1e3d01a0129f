import GrammarArtifact.Document.Scan

/-!
# Where scanned pieces end

A scanner that succeeds has seen where its piece ends. Strings and escapes end in
themselves, so whatever is put behind the text is left over. A number ends only at a
character that cannot belong to it, so there must be one already.
-/

namespace GrammarArtifact.Document

variable {text rest : List Char}

/-! ## Spaces and words -/

/-- What follows the spaces does not begin with one. -/
theorem skipSpace_skipSpace (text : List Char) : skipSpace (skipSpace text) = skipSpace text := by
  induction text with
  | nil => rfl
  | cons c rest induction =>
    by_cases space : isSpace c = true
    · simpa [skipSpace, space] using induction
    · simp [skipSpace, space]

/-- The first character that is no space is found however the text goes on. -/
theorem skipSpace_append {text rest : List Char} {c : Char} (found : skipSpace text = c :: rest)
    (more : List Char) : skipSpace (text ++ more) = c :: (rest ++ more) := by
  induction text with
  | nil => simp [skipSpace] at found
  | cons d tail induction =>
    simp only [skipSpace, List.cons_append] at found ⊢
    split at found
    next space => rw [if_pos space]; exact induction found
    next space => rw [if_neg space, ← List.cons_append, found, List.cons_append]

/-- Spaces in front of a text are skipped with those at its front. -/
theorem skipSpace_append_of_spaces {text : List Char} (spaces : skipSpace text = [])
    (more : List Char) : skipSpace (text ++ more) = skipSpace more := by
  induction text with
  | nil => rfl
  | cons c rest induction =>
    simp only [skipSpace, List.cons_append] at spaces ⊢
    split at spaces
    next space => rw [if_pos space]; exact induction spaces
    next => contradiction

/-- What follows the first character that is no space is shorter than the text. -/
theorem length_lt_of_skipSpace {text rest : List Char} {c : Char}
    (found : skipSpace text = c :: rest) : rest.length < text.length := by
  have bound := length_skipSpace_le text
  rwa [found] at bound

/-- A text with a character that is no space does not end in its spaces. -/
theorem skipSpace_ne_nil_of_mem {text : List Char} {c : Char} (inside : c ∈ text)
    (solid : isSpace c = false) : skipSpace text ≠ [] := by
  induction text with
  | nil => simp at inside
  | cons d rest induction =>
    unfold skipSpace
    split
    next space =>
      rcases List.mem_cons.mp inside with rfl | later
      · simp [solid] at space
      · exact induction later
    next => exact List.cons_ne_nil _ _

/-- The rest of a word is passed exactly when it stands at the front. -/
theorem scanWord_eq_ok_iff {letters text rest : List Char} :
    scanWord letters text = .ok rest ↔ text = letters ++ rest := by
  induction letters generalizing text with
  | nil => simp [scanWord]
  | cons letter letters induction =>
    cases text with
    | nil => simp [scanWord]
    | cons c tail =>
      by_cases same : c = letter
      · simp [scanWord, same, induction]
      · simp [scanWord, same]

/-! ## Strings -/

theorem scanLowSurrogate_append {high : Nat} {c : Char}
    (scanned : scanLowSurrogate high text = .ok (c, rest)) (more : List Char) :
    scanLowSurrogate high (text ++ more) = .ok (c, rest ++ more) := by
  unfold scanLowSurrogate at scanned
  split at scanned <;> try contradiction
  next a b c d tail =>
    simp only [List.cons_append, scanLowSurrogate]
    split at scanned
    · contradiction
    next low known =>
      split at scanned
      next isLow =>
        simp only [Except.ok.injEq, Prod.mk.injEq] at scanned
        simp [isLow, scanned]
      next => contradiction

/-- An escape ends where it ends. -/
theorem scanEscape_append {c : Char} (scanned : scanEscape text = .ok (c, rest))
    (more : List Char) : scanEscape (text ++ more) = .ok (c, rest ++ more) := by
  unfold scanEscape at scanned
  split at scanned <;> try contradiction
  next a b c d tail =>
    simp only [List.cons_append, scanEscape]
    split at scanned
    · contradiction
    next number known =>
      split at scanned
      · contradiction
      next notLow =>
        split at scanned
        next isHigh => simpa [known, notLow, isHigh] using scanLowSurrogate_append scanned more
        next notHigh =>
          cases scanned
          simp [notLow, notHigh]
  next c tail _ noUnicode =>
    split at scanned
    next plain known =>
      cases scanned
      have noUnicode : c ≠ 'u' := noUnicode
      simp [scanEscape, known, noUnicode]
    next => contradiction

/-- A string ends with its quote. -/
theorem scanString_append {read : List Char} {string : String}
    (scanned : scanString read text = .ok (string, rest)) (more : List Char) :
    scanString read (text ++ more) = .ok (string, rest ++ more) := by
  fun_induction scanString read text with
  | case1 => contradiction
  | case2 read tail =>
    cases scanned
    simp [scanString]
  | case3 => contradiction
  | case4 read tail plain after escape quote induction =>
    have again := scanEscape_append escape more
    rw [List.cons_append, scanString, if_neg quote, if_pos rfl]
    split
    next failed => simp [again] at failed
    next same =>
      rw [again] at same
      cases same
      exact induction scanned
  | case5 => contradiction
  | case6 read c tail quote backslash control induction =>
    rw [List.cons_append, scanString]
    simp [quote, backslash, control, induction scanned]

theorem passEscape_append (passed : passEscape text = .ok rest) (more : List Char) :
    passEscape (text ++ more) = .ok (rest ++ more) := by
  unfold passEscape at passed
  split at passed <;> try contradiction
  · split at passed
    next known =>
      cases passed
      simp [passEscape, known]
    next => contradiction
  next c tail _ noUnicode =>
    split at passed
    next known =>
      cases passed
      have noUnicode : c ≠ 'u' := noUnicode
      simp [passEscape, known, noUnicode]
    next => contradiction

/-- So does a string that is passed over. -/
theorem passString_append (passed : passString text = .ok rest) (more : List Char) :
    passString (text ++ more) = .ok (rest ++ more) := by
  fun_induction passString text with
  | case1 => contradiction
  | case2 tail =>
    cases passed
    simp [passString]
  | case3 => contradiction
  | case4 tail after escape quote induction =>
    have again := passEscape_append escape more
    rw [List.cons_append, passString, if_neg quote, if_pos rfl]
    split
    next failed => simp [again] at failed
    next same =>
      rw [again] at same
      cases same
      exact induction passed
  | case5 => contradiction
  | case6 c tail quote backslash control induction =>
    rw [List.cons_append, passString]
    simp [quote, backslash, control, induction passed]

/-! ## Numbers -/

/-- Digits end where something else follows them. -/
theorem span_append {keep : Char → Bool} (left : text.dropWhile keep ≠ []) (more : List Char) :
    (text ++ more).takeWhile keep = text.takeWhile keep ∧
      (text ++ more).dropWhile keep = text.dropWhile keep ++ more := by
  induction text with
  | nil => simp at left
  | cons c tail induction =>
    by_cases kept : keep c = true
    · simp only [List.cons_append, List.takeWhile_cons, List.dropWhile_cons, kept, if_true]
        at left ⊢
      simp [induction left]
    · simp [kept]

/-- A text is not empty when a later rest of it is not. -/
theorem ne_nil_of_rest {text rest : List Char} (left : rest ≠ [])
    (bound : rest.length ≤ text.length) : text ≠ [] :=
  List.ne_nil_of_length_pos (Nat.lt_of_lt_of_le (List.length_pos_iff.mpr left) bound)

/-- Read the digits of an exponent, whose sign has been passed. -/
def scanExponentDigits (number : NumberText) (negative : Bool) (digits : List Char) :
    Except Fault (NumberText × List Char) :=
  if (digits.takeWhile isDigit).isEmpty then .error (digitWanted digits)
  else .ok ({ number with exponent := some (negative, digits.takeWhile isDigit) },
    digits.dropWhile isDigit)

theorem scanExponentDigits_append {number result : NumberText} {negative : Bool}
    (scanned : scanExponentDigits number negative text = .ok (result, rest)) (left : rest ≠ [])
    (more : List Char) :
    scanExponentDigits number negative (text ++ more) = .ok (result, rest ++ more) := by
  unfold scanExponentDigits at scanned ⊢
  split at scanned
  · contradiction
  next some =>
    cases scanned
    simp [span_append left, some]

theorem scanExponent_append {number result : NumberText}
    (scanned : scanExponent number text = .ok (result, rest)) (left : rest ≠ [])
    (more : List Char) : scanExponent number (text ++ more) = .ok (result, rest ++ more) := by
  obtain ⟨c, tail, rfl⟩ := List.exists_cons_of_ne_nil
    (ne_nil_of_rest left (length_of_scanExponent scanned))
  by_cases plus : c = '+'
  · subst plus
    exact scanExponentDigits_append scanned left more
  · by_cases minus : c = '-'
    · subst minus
      exact scanExponentDigits_append scanned left more
    · have unsigned (text : List Char) :
          scanExponent number (c :: text) = scanExponentDigits number false (c :: text) := by
        simp [scanExponent, scanExponentDigits, plus, minus]
      rw [unsigned] at scanned
      rw [List.cons_append, unsigned]
      exact scanExponentDigits_append scanned left more

theorem scanAfterDigits_append {number result : NumberText}
    (scanned : scanAfterDigits number text = .ok (result, rest)) (left : rest ≠ [])
    (more : List Char) : scanAfterDigits number (text ++ more) = .ok (result, rest ++ more) := by
  unfold scanAfterDigits at scanned
  split at scanned
  next tail => exact scanExponent_append scanned left more
  next tail => exact scanExponent_append scanned left more
  next noLower noUpper =>
    cases scanned
    obtain ⟨c, tail, rfl⟩ := List.exists_cons_of_ne_nil left
    have noLower : c ≠ 'e' := fun same => noLower tail (by rw [same])
    have noUpper : c ≠ 'E' := fun same => noUpper tail (by rw [same])
    simp [scanAfterDigits, noLower, noUpper]

theorem scanAfterWhole_append {number result : NumberText}
    (scanned : scanAfterWhole number text = .ok (result, rest)) (left : rest ≠ [])
    (more : List Char) : scanAfterWhole number (text ++ more) = .ok (result, rest ++ more) := by
  obtain ⟨c, tail, rfl⟩ := List.exists_cons_of_ne_nil
    (ne_nil_of_rest left (length_of_scanAfterWhole scanned))
  by_cases point : c = '.'
  · subst point
    simp only [scanAfterWhole, List.cons_append] at scanned ⊢
    split at scanned
    · contradiction
    next some =>
      have fraction := span_append (ne_nil_of_rest left (length_of_scanAfterDigits scanned)) more
      simpa [fraction, some] using scanAfterDigits_append scanned left more
  · have whole (text : List Char) :
        scanAfterWhole number (c :: text) = scanAfterDigits number (c :: text) := by
      simp [scanAfterWhole, point]
    rw [whole] at scanned
    rw [List.cons_append, whole]
    exact scanAfterDigits_append scanned left more

/-- A number ends where a character follows that cannot belong to it. -/
theorem scanNumber_append {negative : Bool} {result : NumberText}
    (scanned : scanNumber negative text = .ok (result, rest)) (left : rest ≠ [])
    (more : List Char) : scanNumber negative (text ++ more) = .ok (result, rest ++ more) := by
  unfold scanNumber at scanned
  split at scanned
  · contradiction
  next tail =>
    split at scanned
    next c later =>
      split at scanned
      · contradiction
      next other => simpa [scanNumber, other] using scanAfterWhole_append scanned left more
    next => exact absurd rfl (ne_nil_of_rest left (length_of_scanAfterWhole scanned))
  next c tail noZero =>
    split at scanned
    next digit =>
      have whole := span_append (ne_nil_of_rest left (length_of_scanAfterWhole scanned)) more
      have noZero : c ≠ '0' := noZero
      simpa [scanNumber, noZero, digit, whole] using scanAfterWhole_append scanned left more
    next => contradiction

end GrammarArtifact.Document
