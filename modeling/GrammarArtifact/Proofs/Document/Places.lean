import GrammarArtifact.Proofs.Document.Content

/-!
# What stands at the places of a record

A record is written as an object or as a list, and either way a tree holds some values at the
place of each key. The meaning of a record says for each key by itself what its part is, and
says it by these values alone. So when the value at one place is exchanged for another one,
the record that the tree stands for changes in that part and in no other.
-/

namespace GrammarArtifact.Document

variable {κ σ : Type}

/-- A tree becomes another one when the value at one place of a record is exchanged. -/
inductive Exchanged (sort : RecordSort) (label : String) (value other : Tree) : Tree → Tree → Prop
  | member {before after : List (Quoted × Tree)} {key : Quoted} (named : key.text? = some label) :
      Exchanged sort label value other (.object (before ++ (key, value) :: after))
        (.object (before ++ (key, other) :: after))
  | slot {before after : List Tree} {place : RecordPlace}
      (known : sort.places[before.length]? = some place) (named : place.label = label) :
      Exchanged sort label value other (.list (before ++ value :: after))
        (.list (before ++ other :: after))

theorem Exchanged.holds {sort : RecordSort} {label : String} {value other tree changed : Tree}
    (exchanged : Exchanged sort label value other tree changed) :
    Holds sort tree label value := by
  cases exchanged with
  | member named => exact .member (by simp [valuesOf_append, valuesOf_cons_of_eq named])
  | slot known named => exact named ▸ .slot known (by simp)

/-- What a document is read as is what the tree of the document means. -/
theorem readAll_eq_ok_iff_of_laidOut {α : Type} {reader : Reader α} {meaning : Meaning α}
    (reads : Reads reader meaning) {tree : Tree} {document : String}
    (laid : LaidOut tree.tokens document.toList) {value : α} :
    readAll reader document = .ok value ↔ meaning tree value := by
  rw [readAll_eq_ok_iff reads]
  constructor
  · rintro ⟨other, laid', means⟩
    exact Tree.eq_of_laidOut laid' laid ▸ means
  · intro means
    exact ⟨tree, laid, means⟩

namespace RecordForm

/-- The values that a tree holds at the place of a key. -/
def held [DecidableEq κ] (form : RecordForm κ) : Tree → κ → List Tree
  | .object members, key => valuesOf (form.label key) members
  | .list items, key => items[form.keys.idxOf key]?.toList
  | _, _ => []

/-- A tree has the outer form of a record. -/
def Fits (form : RecordForm κ) : Tree → Prop
  | .object members => ∀ member ∈ members, member.1.text?.isSome
  | .list items => items.length ≤ form.keys.length
  | _ => False

section Places

variable {form : RecordForm κ} {parts : Parts κ σ} {meanings : (key : κ) → Meaning (parts.Part key)}
variable {blank record final : σ} {key : κ} {tree : Tree}

/-- When no value is left, the remaining parts are as they were, and none of them is required. -/
theorem slots_nil_iff {keys : List κ} :
    Meaning.slots form parts meanings keys [] record final ↔
      (∀ key ∈ keys, Meaning.Tells form parts meanings record [] key (parts.get key final) []) ∧
        ∀ key, key ∉ keys → parts.get key final = parts.get key record := by
  have unfolds : Meaning.slots form parts meanings keys [] record final ↔
      (∀ key ∈ keys, form.required key = false) ∧ record = final := by
    cases keys <;> exact Iff.rfl
  rw [unfolds]
  constructor
  · rintro ⟨optional, rfl⟩
    exact ⟨fun key listed => .absent rfl (by simp [optional key listed]), fun _ _ => rfl⟩
  · rintro ⟨told, others⟩
    refine ⟨fun key listed => ?_, (parts.ext fun key => ?_).symm⟩
    · cases told key listed with
      | absent _ settled => simpa using settled
    · by_cases listed : key ∈ keys
      · cases told key listed with
        | absent kept => exact kept
      · exact others key listed

/-- The values of a list tell the parts of the keys that they are read for, each by itself. -/
theorem slots_iff_tells [DecidableEq κ] {keys : List κ} (distinct : keys.Nodup)
    {items : List Tree} :
    Meaning.slots form parts meanings keys items record final ↔
      items.length ≤ keys.length ∧
        (∀ key ∈ keys, Meaning.Tells form parts meanings record [] key (parts.get key final)
          items[keys.idxOf key]?.toList) ∧
        ∀ key, key ∉ keys → parts.get key final = parts.get key record := by
  induction keys generalizing items record with
  | nil =>
    cases items with
    | nil => simp [slots_nil_iff]
    | cons item items => simp [Meaning.slots]
  | cons first keys induction =>
    obtain ⟨alone, distinct⟩ := List.nodup_cons.mp distinct
    have apart {key : κ} (listed : key ∈ keys) : key ≠ first := fun same => alone (same ▸ listed)
    cases items with
    | nil => simp [slots_nil_iff]
    | cons item items =>
      have later (key : κ) (listed : key ∈ keys) :
          (item :: items)[(first :: keys).idxOf key]? = items[keys.idxOf key]? := by
        simp [List.idxOf_cons_ne _ (apart listed).symm]
      simp only [Meaning.slots, induction distinct, List.length_cons, Nat.add_le_add_iff_right]
      constructor
      · rintro ⟨part, means, short, told, others⟩
        obtain rfl : parts.get first final = part :=
          (others first alone).trans (parts.get_set first part record)
        refine ⟨short, fun key listed => ?_, fun key unlisted => ?_⟩
        · rcases List.mem_cons.mp listed with rfl | listed
          · simpa using .present List.not_mem_nil means
          · rw [later key listed]
            exact (tells_set_iff (apart listed) Iff.rfl).mp (told key listed)
        · obtain ⟨apart, unlisted⟩ := List.ne_and_not_mem_of_not_mem_cons unlisted
          rw [others key unlisted, parts.get_set_of_ne apart]
      · rintro ⟨short, told, others⟩
        have mine := told first List.mem_cons_self
        simp only [List.idxOf_cons_self, List.getElem?_cons_zero, Option.toList_some] at mine
        cases mine with
        | present _ means =>
          refine ⟨_, means, short, fun key listed => ?_, fun key unlisted => ?_⟩
          · have there := told key (List.mem_cons_of_mem first listed)
            rw [later key listed] at there
            exact (tells_set_iff (apart listed) Iff.rfl).mpr there
          · by_cases same : key = first
            · subst same
              exact (parts.get_set key _ record).symm
            · rw [parts.get_set_of_ne same]
              exact others key (List.not_mem_cons_of_ne_of_not_mem same unlisted)

variable (known : ∀ key, form.key? (form.label key) = some key) (distinct : form.keys.Nodup)

include known in
theorem mem_keys (key : κ) : key ∈ form.keys := List.mem_of_find?_eq_some (known key)

variable [DecidableEq κ]

include known distinct in
/-- A tree stands for a record when the values that it holds for each key tell the part of the
key. -/
theorem record_iff_tells :
    Meaning.record form parts meanings blank tree record ↔
      form.Fits tree ∧ ∀ key, Meaning.Tells form parts meanings blank [] key (parts.get key record)
        (form.held tree key) := by
  cases tree with
  | object members => exact Meaning.record_object_iff
  | list items =>
    rw [Meaning.record_list_iff, slots_iff_tells distinct]
    refine and_congr_right fun _ => ⟨fun told key => told.1 key (mem_keys known key), ?_⟩
    exact fun told => ⟨fun key _ => told key, fun key out => absurd (mem_keys known key) out⟩
  | null | flag | number | string => simp [Meaning.record, Fits]

include known distinct in
/-- A value that is held for a key is the only one, and it stands for the part of the key. -/
theorem part_of_held (means : Meaning.record form parts meanings blank tree record) {value : Tree}
    (held : value ∈ form.held tree key) :
    form.held tree key = [value] ∧ meanings key value (parts.get key record) := by
  have told := ((record_iff_tells known distinct).mp means).2 key
  generalize form.held tree key = values at held told
  cases told with
  | absent => exact absurd held List.not_mem_nil
  | @present only _ meant =>
    obtain rfl : value = only := List.mem_singleton.mp held
    exact ⟨rfl, meant⟩

include known distinct in
/-- A part is the blank one, or a value is held that stands for it. -/
theorem blank_or_exists_held (means : Meaning.record form parts meanings blank tree record)
    (key : κ) :
    parts.get key record = parts.get key blank ∨
      ∃ value ∈ form.held tree key, meanings key value (parts.get key record) := by
  have told := ((record_iff_tells known distinct).mp means).2 key
  generalize form.held tree key = values at told
  cases told with
  | absent kept => exact .inl kept
  | present _ meant => exact .inr ⟨_, List.mem_singleton_self _, meant⟩

variable {sort : RecordSort} {shape : κ → Shape} {nullable : κ → Bool}
variable (places :
  sort.places = form.keys.map fun key => ⟨form.label key, shape key, nullable key⟩)

include places known distinct in
/-- What is found at the index of a place is held for the key of its label. -/
theorem key_of_place {index : Nat} {place : RecordPlace} (listed : sort.places[index]? = some place)
    (named : place.label = form.label key) : form.keys.idxOf key = index := by
  rw [places, List.getElem?_map] at listed
  obtain ⟨here, found, rfl⟩ := Option.map_eq_some_iff.mp listed
  obtain rfl : here = key := label_injective known named
  obtain ⟨bound, rfl⟩ := List.getElem?_eq_some_iff.mp found
  exact distinct.idxOf_getElem index bound

include places known distinct in
/-- The values that stand at a place of a record are those that are held for its key. -/
theorem holds_iff_mem_held {value : Tree} :
    Holds sort tree (form.label key) value ↔ value ∈ form.held tree key := by
  constructor
  · intro holds
    generalize same : form.label key = label at holds
    cases holds with
    | member named => rwa [← same] at named
    | slot listed found =>
      obtain rfl := key_of_place known distinct places listed same.symm
      simpa [held] using found
  · intro member
    cases tree with
    | object members => exact .member member
    | list items =>
      have listed : sort.places[form.keys.idxOf key]? =
          some ⟨form.label key, shape key, nullable key⟩ := by
        rw [places, List.getElem?_map,
          List.getElem?_eq_getElem (List.idxOf_lt_length_of_mem (mem_keys known key)),
          List.getElem_idxOf]
        rfl
      exact .slot listed (by simpa [held] using member)
    | null | flag | number | string => exact absurd member List.not_mem_nil

include known distinct places in
/-- The value at the place of a key stands for the part of the key. -/
theorem part_of_holds (means : Meaning.record form parts meanings blank tree record) {value : Tree}
    (holds : Holds sort tree (form.label key) value) : meanings key value (parts.get key record) :=
  (part_of_held known distinct means ((holds_iff_mem_held known distinct places).mp holds)).2

include known distinct places in
/-- A part that is not the blank one has a value at the place of its key. -/
theorem exists_holds_of_ne_blank (means : Meaning.record form parts meanings blank tree record)
    (written : parts.get key record ≠ parts.get key blank) :
    ∃ value, Holds sort tree (form.label key) value ∧
      meanings key value (parts.get key record) := by
  rcases blank_or_exists_held known distinct means key with same | ⟨value, held, meant⟩
  · exact absurd same written
  · exact ⟨value, (holds_iff_mem_held known distinct places).mpr held, meant⟩

variable {value other changed : Tree}

include known distinct places in
/-- An exchange concerns the values of one key only, and of these only one. -/
theorem held_of_exchanged (exchanged : Exchanged sort (form.label key) value other tree changed) :
    (form.Fits tree ↔ form.Fits changed) ∧
      (∃ before after, form.held tree key = before ++ value :: after ∧
        form.held changed key = before ++ other :: after) ∧
      ∀ key', key' ≠ key → form.held tree key' = form.held changed key' := by
  cases exchanged with
  | member named =>
    refine ⟨by simp only [Fits, List.forall_mem_append, List.forall_mem_cons],
      ⟨_, _, by rw [held, valuesOf_append, valuesOf_cons_of_eq named],
        by rw [held, valuesOf_append, valuesOf_cons_of_eq named]⟩, fun key' apart => ?_⟩
    rw [held, held, valuesOf_append, valuesOf_append,
      valuesOf_cons_of_other known apart named, valuesOf_cons_of_other known apart named]
  | slot listed named =>
    have here := key_of_place known distinct places listed named
    refine ⟨by simp [Fits], ⟨[], [], by simp [held, here], by simp [held, here]⟩,
      fun key' apart => ?_⟩
    have elsewhere : form.keys.idxOf key' ≠ form.keys.idxOf key := fun same =>
      apart ((List.idxOf_inj (mem_keys known key')).mp same)
    rw [here] at elsewhere
    rw [held, held]
    rcases Nat.lt_or_gt_of_ne elsewhere with earlier | later
    · rw [List.getElem?_append_left earlier, List.getElem?_append_left earlier]
    · simp [List.getElem?_append_right (Nat.le_of_lt later),
        List.getElem?_cons, Nat.sub_ne_zero_of_lt later]

include known distinct places in
/-- When a value of a record is exchanged, the new tree stands for the records of the old one
with the part that the new value stands for. -/
theorem record_exchanged_iff (means : Meaning.record form parts meanings blank tree record)
    (exchanged : Exchanged sort (form.label key) value other tree changed) :
    Meaning.record form parts meanings blank changed final ↔
      ∃ part old, meanings key other part ∧ Meaning.record form parts meanings blank tree old ∧
        parts.set key part old = final := by
  obtain ⟨fits, ⟨before, after, here, there⟩, elsewhere⟩ :=
    held_of_exchanged known distinct places exchanged
  have member : value ∈ form.held tree key := by simp [here]
  have only := (part_of_held known distinct means member).1
  obtain ⟨rfl, rfl⟩ : before = [] ∧ after = [] := by
    simpa [List.append_eq_singleton_iff] using here.symm.trans only
  simp only [record_iff_tells known distinct] at means ⊢
  constructor
  · rintro ⟨fits', told⟩
    refine ⟨parts.get key final, parts.set key (parts.get key record) final, ?_,
      ⟨fits.mpr fits', fun key' => ?_⟩, parts.ext fun key' => ?_⟩
    · have mine := told key
      rw [there] at mine
      cases mine with
      | present _ meant => exact meant
    · by_cases same : key' = key
      · subst same
        rw [parts.get_set]
        exact means.2 key'
      · rw [parts.get_set_of_ne same, elsewhere key' same]
        exact told key'
    · by_cases same : key' = key
      · subst same
        rw [parts.get_set]
      · rw [parts.get_set_of_ne same, parts.get_set_of_ne same]
  · rintro ⟨part, old, meant, ⟨fits', told⟩, rfl⟩
    refine ⟨fits.mp fits', fun key' => ?_⟩
    by_cases same : key' = key
    · subst same
      rw [parts.get_set, there]
      exact .present List.not_mem_nil meant
    · rw [parts.get_set_of_ne same, ← elsewhere key' same]
      exact told key'

end Places

end RecordForm

end GrammarArtifact.Document
