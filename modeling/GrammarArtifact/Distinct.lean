import Std.Data.TreeSet

/-!
# Distinct elements

Of several elements with the same key only the first one counts. What is left holds
each key once, and the elements keep their order.
-/

namespace GrammarArtifact

variable {α κ : Type} (order : κ → κ → Ordering) (key : α → κ)

/-- Add to the elements found so far, which are held last first, those whose keys
come up for the first time. -/
def gatherDistinct (seen : Std.TreeSet κ order) (found : List α) : List α → List α
  | [] => found.reverse
  | element :: rest =>
    if seen.contains (key element) then gatherDistinct seen found rest
    else gatherDistinct (seen.insert (key element)) (element :: found) rest

/-- The first element with each key. -/
def distinctOn (elements : List α) : List α := gatherDistinct order key ∅ [] elements

variable [Std.TransCmp order] [Std.LawfulEqCmp order]

theorem nodup_gatherDistinct (seen : Std.TreeSet κ order) (found elements : List α)
    (apart : (found.map key).Nodup) (known : ∀ element ∈ found, key element ∈ seen) :
    ((gatherDistinct order key seen found elements).map key).Nodup := by
  induction elements generalizing seen found with
  | nil =>
    rw [gatherDistinct, List.map_reverse]
    exact List.pairwise_reverse.mpr (List.Pairwise.imp Ne.symm apart)
  | cons element rest induction =>
    unfold gatherDistinct
    split
    · exact induction seen found apart known
    · next fresh =>
      apply induction
      · refine List.nodup_cons.mpr ⟨fun member => fresh ?_, apart⟩
        obtain ⟨earlier, place, same⟩ := List.mem_map.mp member
        rw [← same]
        exact known earlier place
      · intro other member
        rcases List.mem_cons.mp member with rfl | earlier
        · simp
        · simp [known other earlier]

/-- No two distinct elements share a key. -/
theorem nodup_distinctOn (elements : List α) :
    ((distinctOn order key elements).map key).Nodup :=
  nodup_gatherDistinct order key ∅ [] elements (by simp) (by simp)

end GrammarArtifact
