import GrammarArtifact.Proofs.Distinct
import GrammarArtifact.Table
import Mathlib.Data.List.Induction
import Mathlib.Data.List.Nodup
import Mathlib.Data.List.Perm.Subperm

/-!
# What a table binds

A table binds each name once, so looking a name up finds its one binding wherever that
stands. Two orders of the same bindings are therefore the same table as far as
look-ups and `sameBindings` go, and a table that keeps some of the names finds for them
what it found before.
-/

namespace GrammarArtifact.Table

variable {α : Type}

/-- Among bindings of distinct names, looking up a name finds its binding. -/
theorem lookup_eq_some_iff_mem (entries : List (String × α))
    (distinct : (entries.map Prod.fst).Nodup) (name : String) (value : α) :
    entries.lookup name = some value ↔ (name, value) ∈ entries := by
  induction entries with
  | nil => simp
  | cons entry rest induction =>
    obtain ⟨first, bound⟩ := entry
    obtain ⟨fresh, restDistinct⟩ := List.nodup_cons.mp distinct
    by_cases same : name = first
    · subst same
      have absent : (name, value) ∉ rest := fun member =>
        fresh (List.mem_map.mpr ⟨(name, value), member, rfl⟩)
      simp [absent, eq_comm]
    · have missed : (name == first) = false := by simp [same]
      rw [List.lookup_cons, missed]
      simp [induction restDistinct, same]

/-- A name is found with a value exactly when the table binds it to the value. -/
theorem find?_eq_some_iff (table : Table α) (name : String) (value : α) :
    table.find? name = some value ↔ (name, value) ∈ table.entries :=
  lookup_eq_some_iff_mem table.entries table.distinct name value

/-- Another order of the same bindings holds the same bindings. -/
theorem sameBindings_of_perm [BEq α] [LawfulBEq α] {left right : Table α}
    (perm : left.entries.Perm right.entries) : left.sameBindings right = true := by
  have sizes : left.size = right.size := perm.length_eq
  simp only [sameBindings, sizes, beq_self_eq_true, Bool.true_and, List.all_eq_true, beq_iff_eq]
  intro entry member
  exact (find?_eq_some_iff right entry.1 entry.2).mpr (perm.mem_iff.mp member)

/-- Two tables hold the same bindings exactly when one is another order of the other. Names
are distinct, so as many bindings that are all found in the other table are all that it
holds. -/
theorem sameBindings_iff_perm [BEq α] [LawfulBEq α] (left right : Table α) :
    left.sameBindings right = true ↔ left.entries.Perm right.entries := by
  constructor
  · intro same
    simp only [sameBindings, Bool.and_eq_true, beq_iff_eq, List.all_eq_true] at same
    obtain ⟨sizes, found⟩ := same
    have inRight : left.entries ⊆ right.entries := by
      intro entry member
      exact (find?_eq_some_iff right entry.1 entry.2).mp (found entry member)
    have apart : left.entries.Nodup := .of_map _ left.distinct
    exact (apart.subperm inRight).perm_of_length_le (Nat.le_of_eq sizes.symm)
  · exact sameBindings_of_perm

/-- Another order of the same bindings finds the same. -/
theorem find?_eq_of_perm {left right : Table α} (perm : left.entries.Perm right.entries)
    (name : String) : left.find? name = right.find? name := by
  apply Option.ext
  intro value
  rw [find?_eq_some_iff, find?_eq_some_iff, perm.mem_iff]

/-- The bindings of the names that are kept, in their order. -/
def keep (table : Table α) (kept : String → Bool) : Table α where
  entries := table.entries.filter fun entry => kept entry.1
  distinct := (List.filter_sublist.map Prod.fst).nodup table.distinct

theorem mem_names_keep_iff (table : Table α) (kept : String → Bool) (name : String) :
    name ∈ (table.keep kept).names ↔ name ∈ table.names ∧ kept name = true := by
  simp only [names, keep, List.mem_map, List.mem_filter]
  constructor
  · rintro ⟨entry, ⟨member, isKept⟩, rfl⟩
    exact ⟨⟨entry, member, rfl⟩, isKept⟩
  · rintro ⟨⟨entry, member, rfl⟩, isKept⟩
    exact ⟨entry, ⟨member, isKept⟩, rfl⟩

/-- A kept name is bound to what it was bound to. -/
theorem find?_keep_eq_some_iff (table : Table α) (kept : String → Bool) (name : String)
    (value : α) :
    (table.keep kept).find? name = some value ↔
      table.find? name = some value ∧ kept name = true := by
  rw [find?_eq_some_iff, find?_eq_some_iff, keep, List.mem_filter]

/-- Indexing bindings one after the other finds the last one of a name, and whatever the index
held before under other names. -/
theorem getElem?_foldl_insert_last (bindings : List (String × α)) (name : String)
    (index : Std.TreeMap String α) :
    (bindings.foldl (fun index binding => index.insert binding.1 binding.2) index)[name]? =
      (bindings.reverse.lookup name).or index[name]? := by
  induction bindings using List.reverseRecOn with
  | nil => rfl
  | append_singleton bindings last induction =>
    rw [List.foldl_append, List.foldl_cons, List.foldl_nil, Std.TreeMap.getElem?_insert, induction,
      List.reverse_append, List.reverse_cons, List.reverse_nil, List.nil_append,
      List.singleton_append, List.lookup_cons]
    by_cases same : last.1 = name
    · simp [same]
    · have missed : (name == last.1) = false := by simpa using Ne.symm same
      simp [missed, same]

/-- Bindings of distinct names may be looked up from either end. -/
theorem lookup_reverse {entries : List (String × α)} (distinct : (entries.map Prod.fst).Nodup)
    (name : String) : entries.reverse.lookup name = entries.lookup name := by
  have reversed : (entries.reverse.map Prod.fst).Nodup := by
    rw [List.map_reverse]
    exact List.nodup_reverse.mpr distinct
  apply Option.ext
  intro value
  rw [lookup_eq_some_iff_mem _ reversed, lookup_eq_some_iff_mem _ distinct, List.mem_reverse]

/-- Indexing bindings of distinct names finds what looking them up finds, and whatever
the index held before under other names. -/
theorem getElem?_foldl_insert (entries : List (String × α))
    (distinct : (entries.map Prod.fst).Nodup) (name : String) (index : Std.TreeMap String α) :
    (entries.foldl (fun index entry => index.insert entry.1 entry.2) index)[name]? =
      (entries.lookup name).or index[name]? := by
  rw [getElem?_foldl_insert_last, lookup_reverse distinct]

/-- A name that is bound somewhere has a last binding. -/
theorem isSome_lookup_reverse {bindings : List (String × α)} {name : String}
    (bound : name ∈ bindings.map Prod.fst) : (bindings.reverse.lookup name).isSome := by
  obtain ⟨binding, member, rfl⟩ := List.mem_map.mp bound
  rw [Option.isSome_iff_ne_none, ne_eq, List.lookup_eq_none_iff]
  intro absent
  simpa using absent binding (List.mem_reverse.mpr member)

/-- The names that are bound stand in the order in which they first come up. -/
theorem names_ofBindings (bindings : List (String × α)) :
    (ofBindings bindings).names = (bindings.map Prod.fst).eraseDups := by
  have places := distinctOn_id compare (bindings.map Prod.fst)
  simp only [names, ofBindings, places, getElem?_foldl_insert_last, List.map_filterMap]
  refine (List.filterMap_congr (g := some) fun name member => ?_).trans List.filterMap_some
  obtain ⟨value, found⟩ :=
    Option.isSome_iff_exists.mp (isSome_lookup_reverse (List.mem_eraseDups.mp member))
  simp [found]

/-- A name is bound to its last value. -/
theorem find?_ofBindings (bindings : List (String × α)) (name : String) :
    (ofBindings bindings).find? name = bindings.reverse.lookup name := by
  apply Option.ext
  intro value
  have places := distinctOn_id compare (bindings.map Prod.fst)
  rw [find?_eq_some_iff]
  simp only [ofBindings, places, getElem?_foldl_insert_last, Std.TreeMap.getElem?_emptyc,
    Option.or_none, List.mem_filterMap, Option.map_eq_some_iff, Prod.mk.injEq]
  constructor
  · rintro ⟨_, -, _, found, rfl, rfl⟩
    exact found
  · intro found
    refine ⟨name, List.mem_eraseDups.mpr ?_, value, found, rfl, rfl⟩
    obtain ⟨before, after, same, -⟩ := List.lookup_eq_some_iff.mp found
    have member : (name, value) ∈ bindings := by
      rw [← List.mem_reverse, same]
      simp
    exact List.mem_map_of_mem member

/-- Binding the names of a table one after the other gives the table. -/
theorem ofBindings_entries (table : Table α) : ofBindings table.entries = table := by
  obtain ⟨entries, distinct⟩ := table
  have places : distinctOn compare id (entries.map Prod.fst) = entries.map Prod.fst :=
    distinctOn_eq_self (by simpa using distinct)
  have bound (entry : String × α) (member : entry ∈ entries) :
      entries.lookup entry.1 = some entry.2 :=
    (lookup_eq_some_iff_mem entries distinct entry.1 entry.2).mpr member
  simp only [ofBindings, places, getElem?_foldl_insert entries distinct, mk.injEq,
    List.filterMap_map]
  rw [List.filterMap_congr (g := some), List.filterMap_some]
  intro entry member
  simp [bound entry member]

end GrammarArtifact.Table
