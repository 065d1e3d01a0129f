import GrammarArtifact.Proofs.Document.GrammarMeaning
import GrammarArtifact.Proofs.Table

/-!
# Decoding depends on the content alone

A meaning keeps a shape when changes to how records are written do not change it. The
meanings of records keep their shape because they name no order and no member besides those
of the parts: a change either moves members, adds one that goes by no key, adds a `null`
where nothing was, or happens inside of a part. Lists and tables pass on what their elements
keep. Since readers read meanings, a grammar document can be written in another way, and in
another layout, without a change to the grammar.
-/

namespace GrammarArtifact.Document

variable {α β κ σ : Type}

/-- Changes to how the records in a tree are written do not change what it means. -/
def Keeps (shape : Shape) (meaning : Meaning α) : Prop :=
  ∀ ⦃tree other⦄, Change shape tree other → ∀ value, meaning tree value ↔ meaning other value

/-- What is kept by one change is kept by all. -/
theorem Keeps.alike {shape : Shape} {meaning : Meaning α} (keeps : Keeps shape meaning)
    {tree other : Tree} (alike : Alike shape tree other) (value : α) :
    meaning tree value ↔ meaning other value := by
  induction alike with
  | rel _ _ change => exact keeps change value
  | refl => rfl
  | symm _ _ _ induction => exact induction.symm
  | trans _ _ _ _ _ first second => exact first.trans second

/-! ## Parts that are no records -/

/-- No change is made where there is no record. -/
theorem keeps_plain (meaning : Meaning α) : Keeps .plain meaning := by
  rintro tree other ⟨⟩

/-- What is changed is a list or an object before and after. -/
theorem Change.ne_null {shape : Shape} {tree other : Tree} (change : Change shape tree other) :
    tree ≠ .null ∧ other ≠ .null := by
  cases change <;> exact ⟨nofun, nofun⟩

theorem keeps_optional {shape : Shape} {meaning : Meaning α} (keeps : Keeps shape meaning) :
    Keeps shape (Meaning.optional meaning) := by
  intro tree other change value
  obtain ⟨before, after⟩ := change.ne_null
  simp [Meaning.optional, before, after, keeps change]

/-- Elements can be replaced by elements that are related to the same. -/
theorem forall₂_replace {related : α → β → Prop} {before after : List α} {element other : α}
    (same : ∀ value, related element value ↔ related other value) {values : List β} :
    List.Forall₂ related (before ++ element :: after) values ↔
      List.Forall₂ related (before ++ other :: after) values := by
  induction before generalizing values with
  | nil => cases values <;> simp [same]
  | cons first before induction => cases values <;> simp [induction]

theorem keeps_list {shape : Shape} {meaning : Meaning α} (keeps : Keeps shape meaning) :
    Keeps (.listOf shape) (Meaning.list meaning) := by
  rintro _ _ ⟨change⟩ values
  simp [Meaning.list, forall₂_replace (keeps change)]

theorem keeps_table {shape : Shape} {meaning : Meaning α} (keeps : Keeps shape meaning) :
    Keeps (.tableOf shape) (Meaning.table meaning) := by
  rintro _ _ change found
  cases change with
  | entry change =>
    simp only [Meaning.table, Tree.object.injEq, exists_eq_left']
    refine exists_congr fun entries => and_congr_left fun _ => forall₂_replace fun entry => ?_
    exact and_congr_right fun _ => keeps change entry.2

/-! ## Records -/

theorem valuesOf_append (label : String) (members others : List (Quoted × Tree)) :
    valuesOf label (members ++ others) = valuesOf label members ++ valuesOf label others :=
  List.filterMap_append

/-- No value goes by a label that no key spells. -/
theorem valuesOf_eq_nil_iff {label : String} {members : List (Quoted × Tree)} :
    valuesOf label members = [] ↔ ∀ member ∈ members, member.1.text? ≠ some label := by
  simp [valuesOf]

section Records

variable {form : RecordForm κ} {parts : Parts κ σ} {meanings : (key : κ) → Meaning (parts.Part key)}

/-- What the values of a key say does not depend on their order. -/
theorem tells_perm {record : σ} {seen : List κ} {key : κ} {part : parts.Part key}
    {found others : List Tree} (perm : found.Perm others)
    (tells : Meaning.Tells form parts meanings record seen key part found) :
    Meaning.Tells form parts meanings record seen key part others := by
  cases tells with
  | absent kept settled =>
    obtain rfl := perm.symm.eq_nil
    exact .absent kept settled
  | present fresh means =>
    obtain rfl := List.perm_singleton.mp perm.symm
    exact .present fresh means

/-- A value can be replaced by one that means the same. -/
theorem tells_replace {key : κ} {value other : Tree}
    (same : ∀ part, meanings key value part ↔ meanings key other part) {record : σ}
    {seen : List κ} {part : parts.Part key} {before after : List Tree} :
    Meaning.Tells form parts meanings record seen key part (before ++ value :: after) ↔
      Meaning.Tells form parts meanings record seen key part (before ++ other :: after) := by
  induction before generalizing record seen with
  | nil => simp only [List.nil_append, RecordForm.tells_cons_iff, same]
  | cons first before induction =>
    simp only [List.cons_append, RecordForm.tells_cons_iff, induction]

/-- An element of a list can be replaced by one that means the same for its key. -/
theorem slots_replace {keys : List κ} {before after : List Tree} {item other : Tree} {key : κ}
    (place : keys[before.length]? = some key)
    (same : ∀ part, meanings key item part ↔ meanings key other part) {record final : σ} :
    Meaning.slots form parts meanings keys (before ++ item :: after) record final ↔
      Meaning.slots form parts meanings keys (before ++ other :: after) record final := by
  induction before generalizing keys record with
  | nil =>
    cases keys with
    | nil => simp at place
    | cons first keys =>
      obtain rfl : first = key := by simpa using place
      simp only [List.nil_append, Meaning.slots, same]
  | cons head before induction =>
    cases keys with
    | nil => simp at place
    | cons first keys =>
      have place : keys[before.length]? = some key := by simpa using place
      simp only [List.cons_append, Meaning.slots, induction place]

/-- For a part that may be missing, a value that means the blank part may stand in place of
nothing. -/
theorem tells_blank_iff {blank : σ} {key : κ} (optional : form.required key = false) {value : Tree}
    (means : ∀ part, meanings key value part ↔ part = parts.get key blank)
    {part : parts.Part key} :
    Meaning.Tells form parts meanings blank [] key part [] ↔
      Meaning.Tells form parts meanings blank [] key part [value] := by
  constructor
  · rintro ⟨kept⟩
    exact .present List.not_mem_nil ((means part).mpr kept)
  · rintro (_ | ⟨_, meant⟩)
    exact .absent ((means part).mp meant) (by simp [optional])

section Places

variable {blank : σ} {sort : RecordSort} {shape : κ → Shape} {nullable : κ → Bool}
variable (places :
  sort.places = form.keys.map fun key => ⟨form.label key, shape key, nullable key⟩)
variable (known : ∀ key, form.key? (form.label key) = some key)

include places in
/-- Every place of a record is that of a key. -/
theorem exists_key_of_place {place : RecordPlace} (listed : place ∈ sort.places) :
    ∃ key, place = ⟨form.label key, shape key, nullable key⟩ := by
  rw [places] at listed
  obtain ⟨key, -, same⟩ := List.mem_map.mp listed
  exact ⟨key, same.symm⟩

include places known in
/-- The meaning of a record keeps its shape. The parts have to keep theirs, and `null` has to
mean the blank part wherever it may stand in place of nothing. -/
theorem keeps_record (keeps : ∀ key, Keeps (shape key) (meanings key))
    (nulls : ∀ key, nullable key = true → form.required key = false ∧
      ∀ part, meanings key .null part ↔ part = parts.get key blank) :
    Keeps (.record sort) (Meaning.record form parts meanings blank) := by
  rintro _ _ change record
  cases change with
  | @member _ place before after quoted value other listed named change =>
    obtain ⟨key, rfl⟩ := exists_key_of_place places listed
    rw [Meaning.record_object_iff, Meaning.record_object_iff]
    refine and_congr (by simp only [List.forall_mem_append, List.forall_mem_cons])
      (forall_congr' fun key' => ?_)
    simp only [valuesOf_append]
    by_cases same : key' = key
    · subst same
      simp only [valuesOf_cons_of_eq named]
      exact tells_replace (keeps key' change)
    · simp only [RecordForm.valuesOf_cons_of_other known same named]
  | @slot _ place before after item other listed change =>
    rw [places, List.getElem?_map] at listed
    obtain ⟨key, found, rfl⟩ := Option.map_eq_some_iff.mp listed
    rw [Meaning.record_list_iff, Meaning.record_list_iff, slots_replace found (keeps key change)]
  | @permuted _ members others perm =>
    rw [Meaning.record_object_iff, Meaning.record_object_iff]
    refine and_congr (by simp only [perm.mem_iff]) (forall_congr' fun key => ?_)
    exact ⟨tells_perm (perm.filterMap _), tells_perm (perm.symm.filterMap _)⟩
  | @unknown _ members quoted label value named fresh =>
    have apart (key : κ) : quoted.text? ≠ some (form.label key) := by
      rw [named]
      refine fun equal => fresh ⟨form.label key, shape key, nullable key⟩ ?_
        (Option.some.inj equal).symm
      exact places ▸ List.mem_map_of_mem (List.mem_of_find?_eq_some (known key))
    simp only [Meaning.record_object_iff, List.forall_mem_cons, named, Option.isSome_some,
      true_and, valuesOf_cons_of_ne (apart _)]
  | @null _ place members quoted listed optional named absent =>
    obtain ⟨key, rfl⟩ := exists_key_of_place places listed
    obtain ⟨notRequired, meansBlank⟩ := nulls key optional
    rw [Meaning.record_object_iff, Meaning.record_object_iff]
    refine and_congr (by simp only [List.forall_mem_cons, named, Option.isSome_some, true_and])
      (forall_congr' fun key' => ?_)
    by_cases same : key' = key
    · subst same
      rw [valuesOf_cons_of_eq named, valuesOf_eq_nil_iff.mpr absent]
      exact tells_blank_iff notRequired meansBlank
    · rw [RecordForm.valuesOf_cons_of_other known same named]

end Places

end Records

/-! ## Rules and grammars -/

/-- `null` means that an optional part is missing. -/
theorem optional_null_iff {meaning : Meaning α} {value : Option α} :
    Meaning.optional meaning .null value ↔ value = none := by
  simp [Meaning.optional]

theorem keeps_ruleMeanings {depth : Nat} {content : Meaning Rule} {members : Meaning (List Rule)}
    (keepsContent : Keeps (.record .rule) content)
    (keepsMembers : Keeps (.listOf (.record .rule)) members) (key : RuleKey) :
    Keeps key.shape (ruleMeanings depth content members key) := by
  cases key with
  | content => exact keeps_optional keepsContent
  | members => exact keepsMembers
  | kind | value | name | named | flags | contextName => exact keeps_plain _

/-- Wherever `null` may stand in a rule, it means what a missing member means. -/
theorem ruleMeanings_null {depth : Nat} {content : Meaning Rule} {members : Meaning (List Rule)}
    (key : RuleKey) (optional : key.nullable = true) :
    ruleForm.required key = false ∧ ∀ part,
      ruleMeanings depth content members key .null part ↔ part = Parts.rule.get key default := by
  cases key with
  | kind | members => simp [RuleKey.nullable] at optional
  | value | name | content | named | flags | contextName =>
    exact ⟨rfl, fun _ => optional_null_iff⟩

/-- The meaning of a rule keeps its shape, by induction on the brackets that may be opened. -/
theorem keeps_rule (depth : Nat) : Keeps (.record .rule) (Meaning.rule depth) := by
  induction depth using Nat.strongRecOn with
  | ind depth induction =>
    match depth, induction with
    | 0, _ => exact fun _ _ _ _ => Iff.rfl
    | 1, induction =>
      exact keeps_record rfl key?_label_ruleForm
        (keeps_ruleMeanings (induction 0 (by omega)) fun _ _ _ _ => Iff.rfl) ruleMeanings_null
    | inner + 2, induction =>
      exact keeps_record rfl key?_label_ruleForm
        (keeps_ruleMeanings (induction (inner + 1) (by omega))
          (keeps_list (induction inner (by omega)))) ruleMeanings_null

theorem keeps_grammarMeanings (key : GrammarKey) : Keeps key.shape (grammarMeanings key) := by
  cases key with
  | schema | name | inherits | inline | conflicts | word | supertypes => exact keeps_plain _
  | rules => exact keeps_table (keeps_rule _)
  | extras | externals => exact keeps_list (keeps_rule _)
  | precedences => exact keeps_list (keeps_list (keeps_rule _))
  | reserved => exact keeps_table (keeps_list (keeps_rule _))

/-- Wherever `null` may stand in a grammar, it means what a missing member means. -/
theorem grammarMeanings_null (key : GrammarKey) (optional : key.nullable = true) :
    grammarForm.required key = false ∧ ∀ part, grammarMeanings key .null part ↔
      part = Parts.grammar.get key { name := "", rules := .empty } := by
  cases key with
  | schema | inherits | word => exact ⟨rfl, fun _ => optional_null_iff⟩
  | name | rules | extras | externals | inline | precedences | conflicts | reserved
  | supertypes => simp [GrammarKey.nullable] at optional

/-- The meaning of a grammar keeps its shape. -/
theorem keeps_grammar : Keeps (.record .grammar) Meaning.grammar :=
  keeps_record rfl key?_label_grammarForm keeps_grammarMeanings grammarMeanings_null

end GrammarArtifact.Document
