import GrammarArtifact.Proofs.Document.Presentation

/-!
# The content of a grammar document

An accepted document is the layout of one tree, and its grammar is what the tree means. Hence
every layout of a tree that is alike is accepted with the same grammar. The rules of the
grammar are those of one object in the tree, whose names may come up more than once: each
counts where it stands first, with the value that it has last.
-/

namespace GrammarArtifact.Document

variable {α κ σ : Type}

/-! ## Required parts -/

section Required

variable {form : RecordForm κ} {parts : Parts κ σ} {meanings : (key : κ) → Meaning (parts.Part key)}

/-- The parts of other keys are left alone by the values of a list. -/
theorem get_of_slots {keys : List κ} {items : List Tree} {record final : σ} {key : κ}
    (filled : Meaning.slots form parts meanings keys items record final) (other : key ∉ keys) :
    parts.get key final = parts.get key record := by
  induction keys generalizing items record with
  | nil =>
    match items, filled with
    | [], ⟨_, same⟩ => rw [same]
  | cons first keys induction =>
    obtain ⟨apart, other⟩ := List.ne_and_not_mem_of_not_mem_cons other
    match items, filled with
    | [], ⟨_, same⟩ => rw [same]
    | item :: items, ⟨part, _, filled⟩ =>
      rw [induction filled other, parts.get_set_of_ne apart]

/-- A required part has its value in a list at the place of its key. -/
theorem exists_item_of_slots {keys : List κ} (distinct : keys.Nodup) {items : List Tree}
    {record final : σ} (filled : Meaning.slots form parts meanings keys items record final)
    {index : Nat} {key : κ} (place : keys[index]? = some key)
    (required : form.required key = true) :
    ∃ item, items[index]? = some item ∧ meanings key item (parts.get key final) := by
  induction keys generalizing items record index with
  | nil => simp at place
  | cons first keys induction =>
    obtain ⟨alone, distinct⟩ := List.nodup_cons.mp distinct
    match items, filled with
    | [], ⟨optional, _⟩ =>
      simp [optional key (List.mem_of_getElem? place)] at required
    | item :: items, ⟨part, means, filled⟩ =>
      cases index with
      | zero =>
        obtain rfl : first = key := by simpa using place
        refine ⟨item, rfl, ?_⟩
        rwa [get_of_slots filled alone, parts.get_set]
      | succ index => exact induction distinct filled (by simpa using place)

variable {blank : σ} {shape : κ → Shape} {nullable : κ → Bool}

/-- A record holds one value for a required part, which is what the part stands for. -/
theorem exists_holds_of_record (sort : RecordSort) (key : κ)
    (places : sort.places = form.keys.map fun key => ⟨form.label key, shape key, nullable key⟩)
    (known : ∀ key, form.key? (form.label key) = some key) (distinct : form.keys.Nodup)
    {tree : Tree} {record : σ} (means : Meaning.record form parts meanings blank tree record)
    (required : form.required key = true) :
    ∃ value, meanings key value (parts.get key record) ∧
      ∀ other, Holds sort tree (form.label key) other ↔ other = value := by
  rcases means with ⟨members, rfl, -, told⟩ | ⟨items, rfl, filled⟩
  · have told := told key
    generalize values : valuesOf (form.label key) members = found at told
    cases told with
    | absent _ settled => exact absurd (settled required) List.not_mem_nil
    | @present value _ means =>
      refine ⟨value, means, fun other => ⟨?_, ?_⟩⟩
      · rintro ⟨named⟩
        simpa [values] using named
      · rintro rfl
        exact .member (by simp [values])
  · obtain ⟨index, bound, place⟩ := List.getElem_of_mem (List.mem_of_find?_eq_some (known key))
    have place : form.keys[index]? = some key := List.getElem?_eq_some_iff.mpr ⟨bound, place⟩
    obtain ⟨item, found, means⟩ := exists_item_of_slots distinct filled place required
    refine ⟨item, means, fun other => ⟨fun holds => ?_, ?_⟩⟩
    · generalize same : form.label key = label at holds
      cases holds with
      | @slot _ index' place' _ listed found' =>
        rw [places, List.getElem?_map] at listed
        obtain ⟨key', place', rfl⟩ := Option.map_eq_some_iff.mp listed
        obtain rfl : key = key' := RecordForm.label_injective known same
        obtain rfl : index = index' :=
          (List.getElem?_inj bound distinct).mp (place.trans place'.symm)
        exact Option.some.inj (found'.symm.trans found)
    · rintro rfl
      have listed : sort.places[index]? =
          some ⟨form.label key, shape key, nullable key⟩ := by
        rw [places, List.getElem?_map, place]
        rfl
      exact .slot listed found

end Required

/-! ## Tables -/

/-- The names that members are bound under are the texts of their keys. -/
theorem texts_of_binds {meaning : Meaning α} {members : List (Quoted × Tree)}
    {entries : List (String × α)} (binds : List.Forall₂ (Meaning.Binds meaning) members entries) :
    (∀ member ∈ members, member.1.text?.isSome) ∧
      (members.filterMap fun member => member.1.text?) = entries.map Prod.fst ∧
        (members.head?.bind fun member => member.1.text?) = (entries.map Prod.fst).head? := by
  induction binds with
  | nil => simp
  | @cons member entry members entries bind _ induction =>
    obtain ⟨all, names, -⟩ := induction
    refine ⟨List.forall_mem_cons.mpr ⟨Option.isSome_of_eq_some bind.1, all⟩, ?_, bind.1⟩
    rw [List.filterMap_cons, bind.1, names, List.map_cons]

/-- The last value of a name stands for what the last binding of the name holds. -/
theorem last_value_of_binds {meaning : Meaning α} {members : List (Quoted × Tree)}
    {entries : List (String × α)} (binds : List.Forall₂ (Meaning.Binds meaning) members entries)
    (name : String) :
    Option.Rel meaning (valuesOf name members).getLast? (entries.reverse.lookup name) := by
  induction binds with
  | nil => exact .none
  | @cons member entry members entries bind _ induction =>
    obtain ⟨key, value⟩ := member
    obtain ⟨label, part⟩ := entry
    obtain ⟨named, means⟩ := bind
    rw [List.reverse_cons, List.lookup_append]
    by_cases same : label = name
    · subst same
      rw [valuesOf_cons_of_eq named, List.getLast?_cons, List.lookup_cons_self]
      generalize (valuesOf label members).getLast? = last, entries.reverse.lookup label = later
        at induction
      cases induction with
      | some related => exact .some related
      | none => exact .some means
    · have missed : (name == label) = false := by simpa using Ne.symm same
      rw [valuesOf_cons_of_ne (by simpa [named] using same)]
      simpa [List.lookup_cons, missed] using induction

/-- The first element of a list is its first first occurrence. -/
theorem head?_eraseDups [BEq α] (elements : List α) :
    elements.eraseDups.head? = elements.head? := by
  cases elements <;> simp [List.eraseDups_cons]

/-! ## Whole documents -/

/-- Nothing but spaces ends a number in front of them. -/
theorem ends_of_spaces {text : List Char} (spaces : skipSpace text = []) : Ends text :=
  ends_of_skipSpace fun c tail found => by simp [spaces] at found

/-- A document is accepted with a value when it is a layout of a tree that means the value. -/
theorem readAll_eq_ok_iff {reader : Reader α} {meaning : Meaning α} (reads : Reads reader meaning)
    {document : String} {value : α} :
    readAll reader document = .ok value ↔
      ∃ tree, LaidOut (Tree.tokens tree) document.toList ∧ meaning tree value := by
  constructor
  · intro accepted
    obtain ⟨rest, yields, spaces⟩ := yields_of_readAll accepted
    obtain ⟨tree, opens, means⟩ := (reads (ends_of_spaces spaces)).mp yields
    exact ⟨tree, laidOut_iff_opens.mpr ⟨rest, opens, spaces⟩, means⟩
  · rintro ⟨tree, laid, means⟩
    obtain ⟨rest, opens, spaces⟩ := laidOut_iff_opens.mp laid
    rw [readAll_of_yields ((reads (ends_of_spaces spaces)).mpr ⟨tree, opens, means⟩), spaces]
    rfl

/-- A grammar depends on the content of its document, and not on how the document is written.
The document is a layout of one tree. Every layout of every tree that is alike gives the same
grammar, with the same order of rules: spaces between tokens, the order of members in the
grammar and in rules at every depth, members there that have no meaning, and `null` in place
of an optional part that is missing make no difference. The rules come from the one object
that the document holds as its rules. Their names are those of its members in the order in
which they first come up, so the first member names the rule that parsing starts from, and
the rule of a name is what the last value of the name is read as. -/
theorem grammar_depends_on_content {document : String} {grammar : Grammar}
    (accepted : readGrammar document = .ok grammar) :
    ∃ tree : Tree,
      (∀ other : Tree, LaidOut other.tokens document.toList ↔ other = tree) ∧
      (∀ other, Alike (.record .grammar) tree other →
        ∀ text : String, LaidOut other.tokens text.toList → readGrammar text = .ok grammar) ∧
      ∃ members,
        (∀ value, Holds .grammar tree "rules" value ↔ value = .object members) ∧
        (∀ member ∈ members, member.1.text?.isSome) ∧
        grammar.rules.names = (members.filterMap fun member => member.1.text?).eraseDups ∧
        grammar.start?.map Prod.fst = (members.head?.bind fun member => member.1.text?) ∧
        ∀ name found, grammar.rules.find? name = some found →
          ∃ value, (valuesOf name members).getLast? = some value ∧
            ∀ text : String, LaidOut value.tokens text.toList →
              readAll (rule (nestingLimit - 2)) text = .ok found := by
  obtain ⟨tree, laid, means⟩ := (readAll_eq_ok_iff reads_grammar).mp accepted
  refine ⟨tree, fun other => ⟨fun laid' => Tree.eq_of_laidOut laid' laid, ?_⟩, ?_, ?_⟩
  · rintro rfl
    exact laid
  · intro other alike text laid'
    exact (readAll_eq_ok_iff reads_grammar).mpr
      ⟨other, laid', (keeps_grammar.alike alike grammar).mp means⟩
  · obtain ⟨_, ⟨members, rfl, entries, binds, bound⟩, holds⟩ :=
      exists_holds_of_record .grammar GrammarKey.rules rfl
        key?_label_grammarForm (by decide) means rfl
    have bound : Table.ofBindings entries = grammar.rules := bound
    have names : grammar.rules.names = (entries.map Prod.fst).eraseDups := by
      rw [← bound, Table.names_ofBindings]
    obtain ⟨named, texts, first⟩ := texts_of_binds binds
    refine ⟨members, holds, named, by rw [names, texts], ?_, ?_⟩
    · have start : grammar.start?.map Prod.fst = grammar.rules.names.head? := List.head?_map.symm
      rw [start, names, head?_eraseDups, first]
    · intro name found same
      rw [← bound, Table.find?_ofBindings] at same
      have last := last_value_of_binds binds name
      rw [same] at last
      generalize values : (valuesOf name members).getLast? = value at last
      cases last with
      | @some value _ means =>
        exact ⟨value, rfl, fun text laid' =>
          (readAll_eq_ok_iff (reads_rule _)).mpr ⟨value, laid', means⟩⟩

/-- A document that names a rule twice, and has a member in a rule that means nothing. -/
def twiceNamed : String :=
  "\x7b\"rules\":\x7b\"leaf\":\x7b\"type\":\"BLANK\"\x7d," ++
    "\"bud\":\x7b\"note\":1,\"type\":\"BLANK\"\x7d," ++
    "\"leaf\":\x7b\"type\":\"SEQ\"\x7d\x7d,\"name\":\"ivy\"\x7d"

/-- The document is the layout of a tree, whose other presentations give the same grammar. The
rule that it names twice stands where it is named first and is what it is named for last. -/
theorem twiceNamed_depends_on_content :
    ∃ grammar, readGrammar twiceNamed = .ok grammar ∧
      grammar.rules.names = ["leaf", "bud"] ∧
      (grammar.rules.find? "leaf").map Rule.kind = some .seq ∧
      ∃ tree : Tree, LaidOut tree.tokens twiceNamed.toList ∧
        ∀ other, Alike (.record .grammar) tree other →
          ∀ text : String, LaidOut other.tokens text.toList → readGrammar text = .ok grammar := by
  have found : (readGrammar twiceNamed).toOption.map (fun grammar =>
      (grammar.rules.names, (grammar.rules.find? "leaf").map Rule.kind)) =
        some (["leaf", "bud"], some .seq) := by decide +kernel
  cases read : readGrammar twiceNamed with
  | error fault => simp [read, Except.toOption] at found
  | ok grammar =>
    obtain ⟨names, leaf⟩ : grammar.rules.names = ["leaf", "bud"] ∧
        (grammar.rules.find? "leaf").map Rule.kind = some .seq := by
      simpa [read, Except.toOption] using found
    obtain ⟨tree, only, alike, -⟩ := grammar_depends_on_content read
    exact ⟨grammar, rfl, names, leaf, tree, (only tree).mpr rfl, alike⟩

end GrammarArtifact.Document
