import GrammarArtifact.Text.Ascending
import Mathlib.Data.String.Basic

/-!
# What is found in ascending rows

Bisection keeps two things known about the part that it narrows down: what lies behind it
is beyond the text that is looked for, and its first place is not, unless nothing has
been looked at yet. So the place that is left is the last one that is not beyond, and if the
text is anywhere, it is there.
-/

namespace GrammarArtifact.Text

/-! ## Rows in order -/

theorem eraseReps_loop_eq_append (same : String → String → Bool) (text : String)
    (rest found : List String) :
    List.eraseRepsBy.loop same text rest found =
      found.reverse ++ List.eraseRepsBy.loop same text rest [] := by
  induction rest generalizing text found with
  | nil => simp [List.eraseRepsBy.loop]
  | cons other rest induction =>
    unfold List.eraseRepsBy.loop
    split
    · exact induction text found
    · rw [induction other (text :: found), induction other [text]]
      simp

/-- A text is dropped when it repeats the text before it. -/
theorem eraseReps_cons_cons (text other : String) (rest : List String) :
    (text :: other :: rest).eraseReps =
      if text = other then (text :: rest).eraseReps else text :: (other :: rest).eraseReps := by
  by_cases same : text = other
  · subst same
    simp [List.eraseReps, List.eraseRepsBy, List.eraseRepsBy.loop]
  · have different : (text == other) = false := by simpa using same
    simp only [List.eraseReps, List.eraseRepsBy, List.eraseRepsBy.loop, different, if_neg same]
    rw [eraseReps_loop_eq_append]
    rfl

theorem mem_eraseReps_iff (texts : List String) (text : String) :
    text ∈ texts.eraseReps ↔ text ∈ texts := by
  induction texts with
  | nil => simp [List.eraseReps, List.eraseRepsBy]
  | cons first rest induction =>
    cases rest with
    | nil => simp [List.eraseReps, List.eraseRepsBy, List.eraseRepsBy.loop]
    | cons second rest =>
      rw [eraseReps_cons_cons]
      split
      · next same =>
        subst same
        rw [induction]
        simp
      · rw [List.mem_cons, induction, ← List.mem_cons]

/-- What is sorted ascends strictly once repetitions are dropped. -/
theorem pairwise_lt_eraseReps {texts : List String} (sorted : texts.Pairwise (· ≤ ·)) :
    texts.eraseReps.Pairwise (· < ·) := by
  induction texts with
  | nil => simp [List.eraseReps, List.eraseRepsBy]
  | cons first rest induction =>
    cases rest with
    | nil => simp [List.eraseReps, List.eraseRepsBy, List.eraseRepsBy.loop]
    | cons second rest =>
      obtain ⟨least, sorted⟩ := List.pairwise_cons.mp sorted
      rw [eraseReps_cons_cons]
      split
      · next same =>
        subst same
        exact induction sorted
      · next different =>
        refine List.pairwise_cons.mpr ⟨?_, induction sorted⟩
        intro text member
        have first_lt : first < second :=
          lt_of_le_of_ne (least second List.mem_cons_self) different
        rcases List.mem_cons.mp ((mem_eraseReps_iff _ text).mp member) with rfl | later
        · exact first_lt
        · exact lt_of_lt_of_le first_lt ((List.pairwise_cons.mp sorted).1 text later)

theorem mem_ascending_iff (texts : List String) (text : String) :
    text ∈ ascending texts ↔ text ∈ texts := by
  rw [ascending, mem_eraseReps_iff, List.mem_mergeSort]

theorem pairwise_lt_ascending (texts : List String) : (ascending texts).Pairwise (· < ·) := by
  have transitive (first second third : String) (one : decide (first ≤ second) = true)
      (other : decide (second ≤ third) = true) : decide (first ≤ third) = true :=
    decide_eq_true ((of_decide_eq_true one).trans (of_decide_eq_true other))
  have total (first second : String) :
      (decide (first ≤ second) || decide (second ≤ first)) = true := by
    simpa using le_total first second
  exact pairwise_lt_eraseReps ((List.pairwise_mergeSort transitive total texts).imp
    of_decide_eq_true)

/-! ## Bisection -/

/-- The place that a part is narrowed down to lies in the part, everything behind it is
beyond, and it is not beyond itself unless it is the first place. -/
theorem narrow_spec (beyond : Nat → Bool) (first count : Nat) (positive : 0 < count)
    (upwards : ∀ low high, low ≤ high → high < first + count → beyond low = true →
      beyond high = true) :
    (first ≤ narrow beyond first count ∧ narrow beyond first count < first + count) ∧
      (∀ place, narrow beyond first count < place → place < first + count →
        beyond place = true) ∧
      (narrow beyond first count = first ∨ beyond (narrow beyond first count) = false) := by
  induction count using Nat.strong_induction_on generalizing first with
  | _ count induction =>
    unfold narrow
    split
    · have one : count = 1 := by omega
      subst one
      exact ⟨⟨Nat.le_refl _, Nat.lt_succ_self _⟩, fun place _ _ => by omega, .inl rfl⟩
    · have shorter : count - count / 2 < count := by omega
      cases middle : beyond (first + count / 2) with
      | true =>
        -- The upper half and all behind it are beyond, so nothing is lost with it.
        obtain ⟨⟨from_first, below⟩, behind, here⟩ := induction _ shorter first (by omega)
          fun low high order inside => upwards low high order (by omega)
        simp only [middle, if_true]
        refine ⟨⟨from_first, by omega⟩, ?_, here⟩
        intro place after inside
        by_cases upper : place < first + (count - count / 2)
        · exact behind place after upper
        · exact upwards (first + count / 2) place (by omega) inside middle
      | false =>
        obtain ⟨⟨from_middle, below⟩, behind, here⟩ := induction _ shorter (first + count / 2)
          (by omega) fun low high order inside => upwards low high order (by omega)
        simp only [middle, Bool.false_eq_true, if_false]
        refine ⟨⟨by omega, by omega⟩, fun place after inside => behind place after (by omega), ?_⟩
        rcases here with same | not_beyond
        · exact .inr (by rw [same, middle])
        · exact .inr not_beyond

/-- In an ascending row, a text is found at the place where it is. -/
theorem placeIn?_eq_some_iff {row : Array String} (ascends : row.toList.Pairwise (· < ·))
    (text : String) (place : Nat) : placeIn? row text = some place ↔ row[place]? = some text := by
  let beyond (place : Nat) : Bool := row[place]?.any fun other => decide (text < other)
  have beyond_iff (place : Nat) (inside : place < row.size) :
      beyond place = true ↔ text < row[place] := by
    simp [beyond, inside]
  have order {low high : Nat} (before : low < high) (inside : high < row.size) :
      row[low] < row[high] := by
    have inOrder := List.pairwise_iff_getElem.mp ascends low high
      (by simpa using before.trans inside) (by simpa using inside) before
    simpa using inOrder
  have upwards (low high : Nat) (ordered : low ≤ high) (inside : high < 0 + row.size)
      (passed : beyond low = true) : beyond high = true := by
    have inside : high < row.size := by omega
    rw [beyond_iff low (by omega)] at passed
    rw [beyond_iff high inside]
    rcases Nat.lt_or_eq_of_le ordered with before | rfl
    · exact passed.trans (order before inside)
    · exact passed
  constructor
  · intro found
    simp only [placeIn?, Option.ite_none_right_eq_some, Option.some.injEq] at found
    obtain ⟨here, rfl⟩ := found
    exact here
  · intro here
    obtain ⟨inside, rfl⟩ := Array.getElem?_eq_some_iff.mp here
    obtain ⟨⟨_, below⟩, behind, first⟩ := narrow_spec beyond 0 row.size (by omega) upwards
    have found : narrow beyond 0 row.size = place := by
      rcases Nat.lt_trichotomy (narrow beyond 0 row.size) place with before | same | after
      · -- The text itself would be beyond the text.
        have passed := behind place before (by omega)
        rw [beyond_iff place inside] at passed
        exact absurd passed (lt_irrefl _)
      · exact same
      · -- The place that is left would be neither the first one nor beyond.
        have passed := (beyond_iff _ (by omega)).mpr (order after (by omega))
        rcases first with none_looked | not_beyond
        · omega
        · exact absurd passed (by simp [not_beyond])
    change (if row[narrow beyond 0 row.size]? = some row[place] then
      some (narrow beyond 0 row.size) else none) = some place
    rw [found, if_pos here]

end GrammarArtifact.Text
