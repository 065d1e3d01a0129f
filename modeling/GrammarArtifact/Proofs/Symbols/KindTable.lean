import GrammarArtifact.Proofs.Distinct
import GrammarArtifact.Symbols.KindTable
import Mathlib.Data.List.Nodup

/-!
# Numbering node kinds

A table of node kinds keeps its kinds and the numbers of their keys apart, and `Numbered`
says that the two tell the same. Every push keeps that: a known key changes neither, and
a fresh one gets the number of the place that its kind goes to. So the keys of a table
are the first occurrences among the keys that have been pushed, and pushing fails exactly
when these are more than the numbers, at whatever place the last number is used up.
-/

namespace GrammarArtifact.KindTable

/-- The keys of the kinds, in the order of their numbers. -/
def keys (table : KindTable) : List (String × Bool) := table.kinds.toList.map NodeKind.key

/-- A key has a number exactly when the kind with this number has the key. -/
def Numbered (table : KindTable) : Prop :=
  ∀ (key : String × Bool) (id : UInt16),
    table.ids[key]? = some id ↔ table.keys[id.toNat]? = some key

/-- A table goes on from another one after some kinds: nothing is renumbered, and the
kinds that are new are those of the keys that come up for the first time. -/
structure Extends (table : KindTable) (kinds : List NodeKind) (next : KindTable) : Prop where
  numbered : next.Numbered
  keys : next.keys = (table.keys ++ kinds.map NodeKind.key).eraseDups
  added : ∃ added, added.Sublist kinds ∧ next.kinds.toList = table.kinds.toList ++ added

variable {table next : KindTable}

theorem length_keys (table : KindTable) : table.keys.length = table.kinds.size := by
  simp [keys]

theorem numbered_empty : empty.Numbered := by
  intro key id
  simp [empty, keys]

/-- A list with one more element holds it at the end, and elsewhere what it held. -/
theorem getElem?_snoc_eq_some_iff {α : Type} (before : List α) (last found : α) (index : Nat) :
    (before ++ [last])[index]? = some found ↔
      before[index]? = some found ∨ index = before.length ∧ last = found := by
  by_cases inside : index < before.length
  · have earlier : index ≠ before.length := Nat.ne_of_lt inside
    simp [List.getElem?_append_left inside, earlier]
  · have absent : before[index]? = none := List.getElem?_eq_none (Nat.le_of_not_lt inside)
    rw [List.getElem?_append_right (Nat.le_of_not_lt inside), List.getElem?_singleton, absent]
    have atEnd : index - before.length = 0 ↔ index = before.length := by omega
    simp [atEnd]

/-- Every place in a table is a number. -/
theorem exists_id_of_getElem? {index : Nat} {key : String × Bool}
    (here : table.keys[index]? = some key) : ∃ id : UInt16, id.toNat = index := by
  obtain ⟨inside, _⟩ := List.getElem?_eq_some_iff.mp here
  have room : index < UInt16.size := by
    have fits := table.kinds_fit
    rw [length_keys] at inside
    omega
  exact ⟨UInt16.ofNatLT index room, UInt16.toNat_ofNatLT⟩

/-- The keys that have a number are those of the kinds. -/
theorem Numbered.contains_ids_iff (numbered : table.Numbered) (key : String × Bool) :
    table.ids.contains key = true ↔ key ∈ table.keys := by
  rw [Std.TreeMap.contains_eq_isSome_getElem?, Option.isSome_iff_exists]
  constructor
  · rintro ⟨id, found⟩
    exact List.mem_of_getElem? ((numbered key id).mp found)
  · intro member
    obtain ⟨index, here⟩ := List.getElem?_of_mem member
    obtain ⟨id, rfl⟩ := exists_id_of_getElem? here
    exact ⟨id, (numbered key id).mpr here⟩

/-- No two kinds share a key, because a key has one number. -/
theorem Numbered.nodup_keys (numbered : table.Numbered) : table.keys.Nodup := by
  rw [List.nodup_iff_getElem?_ne_getElem?]
  intro first second before inside same
  have later := List.getElem?_eq_getElem inside
  have earlier := same.trans later
  obtain ⟨one, rfl⟩ := exists_id_of_getElem? earlier
  obtain ⟨other, rfl⟩ := exists_id_of_getElem? later
  have found := (numbered _ one).mpr earlier
  have found' := (numbered _ other).mpr later
  obtain rfl : one = other := Option.some.inj (found.symm.trans found')
  exact Nat.lt_irrefl _ before

/-- A kind with a fresh key goes last, and its key gets the number of that place. -/
theorem Numbered.push?_of_room (numbered : table.Numbered) {kind : NodeKind}
    (fresh : kind.key ∉ table.keys) (room : table.kinds.size < UInt16.size) :
    ∃ next, table.push? kind = some next ∧ next.Numbered ∧
      next.kinds = table.kinds.push kind ∧ next.keys = table.keys ++ [kind.key] := by
  rw [push?, if_neg (mt (numbered.contains_ids_iff kind.key).mp fresh), dif_pos room]
  have grown : keys ⟨table.kinds.push kind, table.ids.insert kind.key
      (UInt16.ofNatLT table.kinds.size room), by rwa [Array.size_push]⟩ =
        table.keys ++ [kind.key] := by simp [keys]
  refine ⟨_, rfl, ?_, rfl, grown⟩
  intro key id
  have last : UInt16.ofNatLT table.kinds.size room = id ↔ id.toNat = table.keys.length := by
    rw [← UInt16.toNat_inj, UInt16.toNat_ofNatLT, length_keys, eq_comm]
  rw [grown, getElem?_snoc_eq_some_iff, Std.TreeMap.getElem?_insert]
  by_cases same : kind.key = key
  · subst same
    have absent : table.keys[id.toNat]? ≠ some kind.key :=
      fun here => fresh (List.mem_of_getElem? here)
    simp [absent, last]
  · simp [same, numbered key id]

/-- All that a push can do: a kind whose key is known adds nothing, one with a fresh key
goes last, and when all numbers are taken there is no place for it. -/
theorem Numbered.push?_cases (numbered : table.Numbered) (kind : NodeKind) :
    (kind.key ∈ table.keys ∧ table.push? kind = some table) ∨
      (∃ next, table.push? kind = some next ∧ next.Numbered ∧
        next.kinds = table.kinds.push kind ∧ next.keys = table.keys ++ [kind.key]) ∨
      (kind.key ∉ table.keys ∧ table.push? kind = none ∧ table.kinds.size = UInt16.size) := by
  by_cases known : kind.key ∈ table.keys
  · left
    rw [push?, if_pos ((numbered.contains_ids_iff kind.key).mpr known)]
    exact ⟨known, rfl⟩
  · right
    by_cases room : table.kinds.size < UInt16.size
    · exact .inl (numbered.push?_of_room known room)
    · right
      rw [push?, if_neg (mt (numbered.contains_ids_iff kind.key).mp known), dif_neg room]
      exact ⟨known, rfl, Nat.le_antisymm table.kinds_fit (Nat.le_of_not_lt room)⟩

/-- What some pushes lead to, when the numbers suffice. -/
theorem Numbered.extends_of_pushAll? (numbered : table.Numbered) {kinds : List NodeKind}
    (pushed : table.pushAll? kinds = some next) : table.Extends kinds next := by
  induction kinds generalizing table with
  | nil =>
    obtain rfl : table = next := Option.some.inj pushed
    exact ⟨numbered, by simp [eraseDups_eq_self numbered.nodup_keys], [], .refl _, by simp⟩
  | cons kind rest induction =>
    rw [pushAll?, List.foldlM_cons] at pushed
    rcases numbered.push?_cases kind with ⟨known, step⟩ |
      ⟨middle, step, numbered', grown, middleKeys⟩ | ⟨_, step, _⟩
    · rw [step] at pushed
      obtain ⟨numbered', keys, added, sublist, kinds⟩ := induction numbered pushed
      refine ⟨numbered', ?_, added, sublist.cons kind, kinds⟩
      rw [keys, List.map_cons, eraseDups_append_cons_of_mem _ _ _ known]
    · rw [step] at pushed
      obtain ⟨numbered'', keys, added, sublist, kinds⟩ := induction numbered' pushed
      refine ⟨numbered'', ?_, kind :: added, sublist.cons_cons kind, ?_⟩
      · rw [keys, middleKeys, List.map_cons, List.append_assoc, List.singleton_append]
      · simp [kinds, grown]
    · rw [step] at pushed
      contradiction

/-- A table that has used up its numbers, and a fresh key besides, are more keys than
numbers, whatever comes after them. -/
theorem Numbered.size_lt_length_of_full (numbered : table.Numbered) {kind : NodeKind}
    (fresh : kind.key ∉ table.keys) (full : table.kinds.size = UInt16.size)
    (rest : List (String × Bool)) :
    UInt16.size < (table.keys ++ kind.key :: rest).eraseDups.length := by
  have distinct : (table.keys ++ [kind.key]).Nodup :=
    List.nodup_append_comm.mp (List.nodup_cons.mpr ⟨fresh, numbered.nodup_keys⟩)
  calc UInt16.size < (table.keys ++ [kind.key]).length := by
        rw [List.length_append, length_keys, full]
        exact Nat.lt_succ_self _
    _ = (table.keys ++ [kind.key]).eraseDups.length := by rw [eraseDups_eq_self distinct]
    _ ≤ (table.keys ++ kind.key :: rest).eraseDups.length := by
        apply length_eraseDups_le
        simp

/-- Pushing fails exactly when there are more first occurrences among the keys than
numbers. -/
theorem Numbered.pushAll?_eq_none_iff (numbered : table.Numbered) (kinds : List NodeKind) :
    table.pushAll? kinds = none ↔
      UInt16.size < (table.keys ++ kinds.map NodeKind.key).eraseDups.length := by
  induction kinds generalizing table with
  | nil =>
    have fits := table.kinds_fit
    simp [pushAll?, eraseDups_eq_self numbered.nodup_keys, length_keys, fits]
  | cons kind rest induction =>
    rw [pushAll?, List.foldlM_cons, List.map_cons]
    rcases numbered.push?_cases kind with ⟨known, step⟩ |
      ⟨middle, step, numbered', _, middleKeys⟩ | ⟨fresh, step, full⟩
    · rw [step, eraseDups_append_cons_of_mem _ _ _ known]
      exact induction numbered
    · have after := induction numbered'
      rw [middleKeys, List.append_assoc, List.singleton_append] at after
      rw [step]
      exact after
    · rw [step]
      exact iff_of_true rfl (numbered.size_lt_length_of_full fresh full _)

theorem getElem?_keys (table : KindTable) (index : Nat) :
    table.keys[index]? = table.kinds[index]?.map NodeKind.key := by
  simp [keys]

/-- A number is in use exactly when it is below the number of kinds. -/
theorem isSome_kind?_iff (table : KindTable) (id : UInt16) :
    (table.kind? id).isSome ↔ id.toNat < table.kindCount := by
  simp [kind?, kindCount]

/-- The number that is found for a name is the number of the kind that has it. -/
theorem Numbered.kindId?_eq_some_iff (numbered : table.Numbered) (name : String)
    (named : Bool) (id : UInt16) :
    table.kindId? name named = some id ↔
      ∃ kind, table.kind? id = some kind ∧ kind.name = name ∧ kind.named = named := by
  rw [kindId?, numbered (name, named) id, getElem?_keys, Option.map_eq_some_iff]
  simp [kind?, NodeKind.key]

/-- Names are found exactly when some kind has them. -/
theorem Numbered.isSome_kindId?_iff (numbered : table.Numbered) (name : String)
    (named : Bool) : (table.kindId? name named).isSome ↔ (name, named) ∈ table.keys := by
  rw [kindId?, ← numbered.contains_ids_iff, Std.TreeMap.contains_eq_isSome_getElem?]

end GrammarArtifact.KindTable
