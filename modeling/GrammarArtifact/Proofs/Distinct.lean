import GrammarArtifact.Distinct
import Mathlib.Data.List.Perm.Subperm

/-!
# First occurrences

`eraseDups` keeps the first occurrence of everything in a list. What is left holds each
element once, so a list with fewer elements to choose from has no more first occurrences,
and a change that keeps elements apart commutes with finding them.
Of elements that are told apart by a key `distinctOn` keeps the first with each key, and
all of them when no key comes up twice.
-/

namespace GrammarArtifact

section Elements

variable {α : Type} [BEq α] [LawfulBEq α]

theorem nodup_eraseDups (elements : List α) : elements.eraseDups.Nodup := by
  match elements with
  | [] => simp
  | element :: rest =>
    rw [List.eraseDups_cons, List.nodup_cons]
    constructor
    · intro member
      simp [List.mem_eraseDups] at member
    · exact nodup_eraseDups _
termination_by elements.length
decreasing_by exact Nat.lt_succ_of_le (List.length_filter_le _ _)

/-- Where nothing occurs twice, all occurrences are first ones. -/
theorem eraseDups_eq_self {elements : List α} (distinct : elements.Nodup) :
    elements.eraseDups = elements := by
  induction elements with
  | nil => rfl
  | cons element rest induction =>
    obtain ⟨absent, restDistinct⟩ := List.nodup_cons.mp distinct
    have kept : (rest.filter fun other => !other == element) = rest := by
      rw [List.filter_eq_self]
      intro other member
      have apart : other ≠ element := fun same => absent (same ▸ member)
      simpa using apart
    rw [List.eraseDups_cons, kept, induction restDistinct]

/-- What has come up before adds no first occurrence. -/
theorem eraseDups_append_cons_of_mem (before : List α) (element : α) (rest : List α)
    (known : element ∈ before) :
    (before ++ element :: rest).eraseDups = (before ++ rest).eraseDups := by
  have dropped : (element :: rest).removeAll before = rest.removeAll before := by
    simp [List.removeAll, known]
  rw [List.eraseDups_append, List.eraseDups_append, dropped]

/-- Among fewer elements there are no more first occurrences. -/
theorem length_eraseDups_le {few many : List α} (subset : few ⊆ many) :
    few.eraseDups.length ≤ many.eraseDups.length := by
  have inMany : few.eraseDups ⊆ many.eraseDups := by
    intro element member
    exact List.mem_eraseDups.mpr (subset (List.mem_eraseDups.mp member))
  exact ((nodup_eraseDups few).subperm inMany).length_le

/-- First occurrences can be changed before or after they are found, if no two elements
are changed to the same. -/
theorem filterMap_eraseDups {β : Type} [BEq β] [LawfulBEq β] {change : α → Option β}
    (apart : ∀ ⦃one other changed⦄, change one = some changed → change other = some changed →
      one = other) (elements : List α) :
    elements.eraseDups.filterMap change = (elements.filterMap change).eraseDups := by
  match elements with
  | [] => simp
  | element :: rest =>
    rw [List.eraseDups_cons, List.filterMap_cons, List.filterMap_cons,
      filterMap_eraseDups apart (rest.filter fun other => !other == element),
      List.filterMap_filter]
    cases here : change element with
    | none =>
      -- All that is equal to the element is dropped with it.
      have dropped (other : α) :
          (if !other == element then change other else none) = change other := by
        by_cases same : other = element <;> simp [same, here]
      simp only [dropped]
    | some changed =>
      have dropped (other : α) :
          (if !other == element then change other else none) =
            (change other).filter fun found => !found == changed := by
        by_cases same : other = element
        · simp [same, here, Option.filter]
        · cases there : change other with
          | none => simp
          | some found =>
            have distinct : found ≠ changed := by
              rintro rfl
              exact same (apart there here)
            simp [same, Option.filter, distinct]
      simp only [dropped, List.eraseDups_cons, List.filter_filterMap]
termination_by elements.length
decreasing_by exact Nat.lt_succ_of_le (List.length_filter_le _ _)

end Elements

section Keys

variable {α κ : Type} {order : κ → κ → Ordering} {key : α → κ}
variable [Std.TransCmp order] [Std.LawfulEqCmp order]

/-- Elements whose keys are new and apart are all kept, behind those found before. -/
theorem gatherDistinct_eq_append {seen : Std.TreeSet κ order} {found elements : List α}
    (apart : (elements.map key).Nodup) (fresh : ∀ element ∈ elements, key element ∉ seen) :
    gatherDistinct order key seen found elements = found.reverse ++ elements := by
  induction elements generalizing seen found with
  | nil => simp [gatherDistinct]
  | cons element rest induction =>
    obtain ⟨alone, apart⟩ := List.nodup_cons.mp apart
    have unseen : ¬ seen.contains (key element) = true := by
      simpa using fresh element List.mem_cons_self
    have later (other : α) (inside : other ∈ rest) : key other ∉ seen.insert (key element) := by
      have different : key element ≠ key other := fun same =>
        alone (same ▸ List.mem_map_of_mem inside)
      simp [different, fresh other (List.mem_cons_of_mem element inside)]
    rw [gatherDistinct, if_neg unseen, induction apart later]
    simp

/-- Elements whose keys are apart are all kept. -/
theorem distinctOn_eq_self {elements : List α} (apart : (elements.map key).Nodup) :
    distinctOn order key elements = elements := by
  rw [distinctOn, gatherDistinct_eq_append apart (by simp), List.reverse_nil, List.nil_append]

/-- Of elements that are their own keys, those that are new are found in the order of their
first occurrences. -/
theorem gatherDistinct_id [BEq κ] [LawfulBEq κ] {seen : Std.TreeSet κ order}
    {found elements : List κ} :
    gatherDistinct order id seen found elements =
      found.reverse ++ (elements.filter fun element => !seen.contains element).eraseDups := by
  induction elements generalizing seen found with
  | nil => simp [gatherDistinct]
  | cons element rest induction =>
    rw [gatherDistinct, id]
    cases known : seen.contains element with
    | true => rw [if_pos rfl, induction, List.filter_cons_of_neg (by simp [known])]
    | false =>
      have later : (rest.filter fun other => !(seen.insert element).contains other) =
          (rest.filter fun other => !seen.contains other).filter
            fun other => !other == element := by
        rw [List.filter_filter]
        refine List.filter_congr fun other _ => ?_
        rw [Std.TreeSet.contains_insert, Bool.not_or]
        congr 1
        by_cases same : other = element
        · simp [same, Std.ReflCmp.compare_self]
        · have apart : order element other ≠ .eq := fun equal =>
            same (Std.LawfulEqCmp.eq_of_compare equal).symm
          simp [same, apart]
      rw [if_neg Bool.false_ne_true, induction, later, List.filter_cons_of_pos (by simp [known]),
        List.eraseDups_cons]
      simp

variable (order) in
/-- Elements that are their own keys are kept where they occur first. -/
theorem distinctOn_id [BEq κ] [LawfulBEq κ] (elements : List κ) :
    distinctOn order id elements = elements.eraseDups := by
  simp [distinctOn, gatherDistinct_id]

end Keys

end GrammarArtifact
