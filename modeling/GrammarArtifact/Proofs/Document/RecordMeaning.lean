import GrammarArtifact.Document.Presentation
import GrammarArtifact.Proofs.Document.Meaning

/-!
# What trees mean as records

A record is made up of parts, one for each key. An object stands for the record whose parts
its members stand for, and the order of the members does not come up in that: a part has the
one member that goes by its key, or none, and members that go by no key only have to be
there. The reader goes through the members in their order and remembers the keys that it has
seen. That both agree is one induction over the members, because writing a part leaves the
other parts alone.
-/

namespace GrammarArtifact.Document

open GrammarArtifact.Document.Tree (tokensOf tokensIn)

variable {κ σ : Type} {text rest : List Char}

/-- How a record is made up of parts, one for each key. -/
structure Parts (κ σ : Type) where
  Part : κ → Type
  get : (key : κ) → σ → Part key
  set : (key : κ) → Part key → σ → σ
  get_set : ∀ key part record, get key (set key part record) = part
  get_set_of_ne : ∀ {key other}, other ≠ key → ∀ part record,
    get other (set key part record) = get other record
  ext : ∀ {record other}, (∀ key, get key record = get key other) → record = other

theorem valuesOf_cons_of_eq {label : String} {key : Quoted} {value : Tree}
    {members : List (Quoted × Tree)} (known : key.text? = some label) :
    valuesOf label ((key, value) :: members) = value :: valuesOf label members := by
  simp [valuesOf, known]

theorem valuesOf_cons_of_ne {label : String} {key : Quoted} {value : Tree}
    {members : List (Quoted × Tree)} (other : key.text? ≠ some label) :
    valuesOf label ((key, value) :: members) = valuesOf label members := by
  simp [valuesOf, other]

namespace Meaning

variable (form : RecordForm κ) (parts : Parts κ σ) (meanings : (key : κ) → Meaning (parts.Part key))

/-- What the values of a key say of its part in a record into which they are to be written,
when some keys have been seen before: no value leaves the part as it is, if the key need not
come up any more, and the only value is what the part stands for. -/
inductive Tells (record : σ) (seen : List κ) (key : κ) (part : parts.Part key) : List Tree → Prop
  | absent (kept : part = parts.get key record) (settled : form.required key = true → key ∈ seen) :
      Tells record seen key part []
  | present {value : Tree} (fresh : key ∉ seen) (means : meanings key value part) :
      Tells record seen key part [value]

/-- Values fill the parts of the first keys, and keys without a value are not required. -/
def slots : List κ → List Tree → σ → σ → Prop
  | keys, [], record, final => (∀ key ∈ keys, form.required key = false) ∧ record = final
  | [], _ :: _, _, _ => False
  | key :: keys, item :: items, record, final =>
    ∃ part, meanings key item part ∧ slots keys items (parts.set key part record) final

/-- An object stands for the record whose parts its members stand for, and a list for the one
whose first parts its elements stand for. Other parts are those of a blank record. -/
def record (blank : σ) : Meaning σ := fun tree record =>
  (∃ members, tree = .object members ∧ (∀ member ∈ members, member.1.text?.isSome) ∧
      ∀ key, Tells form parts meanings blank [] key (parts.get key record)
        (valuesOf (form.label key) members)) ∨
    ∃ items, tree = .list items ∧ slots form parts meanings form.keys items blank record

variable {form parts meanings}

theorem record_object_iff {blank record : σ} {members : List (Quoted × Tree)} :
    Meaning.record form parts meanings blank (.object members) record ↔
      (∀ member ∈ members, member.1.text?.isSome) ∧
        ∀ key, Tells form parts meanings blank [] key (parts.get key record)
          (valuesOf (form.label key) members) := by
  simp [Meaning.record]

theorem record_list_iff {blank record : σ} {items : List Tree} :
    Meaning.record form parts meanings blank (.list items) record ↔
      slots form parts meanings form.keys items blank record := by
  simp [Meaning.record]

variable (form parts meanings)

/-- What one member adds to the record read so far. -/
def member [DecidableEq κ] (state : σ × List κ) (label : String) : Meaning (σ × List κ) :=
  fun tree next =>
    match form.key? label with
    | none => state = next
    | some key => key ∉ state.2 ∧
        Meaning.map (fun part => (parts.set key part state.1, key :: state.2)) (meanings key)
          tree next

end Meaning

namespace RecordForm

variable {form : RecordForm κ} {parts : Parts κ σ} {meanings : (key : κ) → Meaning (parts.Part key)}
variable {readers : (key : κ) → Reader (parts.Part key)}

/-- Read one part into a record. -/
def fill (parts : Parts κ σ) (readers : (key : κ) → Reader (parts.Part key)) (key : κ)
    (record : σ) : Reader σ :=
  Reader.map (fun part => parts.set key part record) (readers key)

/-- A key that a label goes by has the label. -/
theorem label_of_key? {label : String} {key : κ} (found : form.key? label = some key) :
    form.label key = label := by
  simpa using List.find?_some found

/-- Keys that go by their labels have labels of their own. -/
theorem label_injective (known : ∀ key, form.key? (form.label key) = some key) :
    Function.Injective form.label := fun key other same =>
  Option.some.inj ((known key).symm.trans ((congrArg form.key? same).trans (known other)))

/-- The first value of a key is written into its part, and no other value follows. -/
theorem tells_cons_iff {record : σ} {seen : List κ} {key : κ} {part : parts.Part key} {value : Tree}
    {found : List Tree} :
    Meaning.Tells form parts meanings record seen key part (value :: found) ↔
      key ∉ seen ∧ meanings key value part ∧
        Meaning.Tells form parts meanings (parts.set key part record) (key :: seen) key part
          found := by
  constructor
  · rintro (_ | ⟨fresh, means⟩)
    exact ⟨fresh, means, .absent (parts.get_set key part record).symm fun _ => List.mem_cons_self⟩
  · rintro ⟨fresh, means, _ | ⟨fresh', _⟩⟩
    · exact .present fresh means
    · exact absurd List.mem_cons_self fresh'

/-- A part whose key has been seen stays as it is. -/
theorem kept_of_seen {record : σ} {seen : List κ} {key : κ} {part : parts.Part key}
    {found : List Tree} (tells : Meaning.Tells form parts meanings record seen key part found)
    (member : key ∈ seen) : part = parts.get key record := by
  cases tells with
  | absent kept => exact kept
  | present fresh => exact absurd member fresh

/-- Writing a part changes nothing for another part, if its key counts as seen as before. -/
theorem tells_set_iff {record : σ} {seen seen' : List κ} {key other : κ} (apart : other ≠ key)
    (asBefore : other ∈ seen' ↔ other ∈ seen) {written : parts.Part key}
    {part : parts.Part other} {found : List Tree} :
    Meaning.Tells form parts meanings (parts.set key written record) seen' other part found ↔
      Meaning.Tells form parts meanings record seen other part found := by
  have same := parts.get_set_of_ne apart written record
  constructor
  · rintro (⟨kept, settled⟩ | ⟨fresh, means⟩)
    · exact .absent (kept.trans same) fun required => asBefore.mp (settled required)
    · exact .present (fun member => fresh (asBefore.mpr member)) means
  · rintro (⟨kept, settled⟩ | ⟨fresh, means⟩)
    · exact .absent (kept.trans same.symm) fun required => asBefore.mpr (settled required)
    · exact .present (fun member => fresh (asBefore.mp member)) means

section Members

variable (known : ∀ key, form.key? (form.label key) = some key)

include known in
/-- A member that goes by a label of no key says nothing. -/
theorem valuesOf_cons_of_unknown {label : String} (unknown : form.key? label = none) {key : Quoted}
    (text : key.text? = some label) (value : Tree) (members : List (Quoted × Tree)) (other : κ) :
    valuesOf (form.label other) ((key, value) :: members) =
      valuesOf (form.label other) members := by
  refine valuesOf_cons_of_ne fun same => ?_
  obtain rfl := Option.some.inj (text.symm.trans same)
  simp [known] at unknown

include known in
/-- A member that goes by one key says nothing of the others. -/
theorem valuesOf_cons_of_other {key other : κ} (apart : other ≠ key) {quoted : Quoted}
    (named : quoted.text? = some (form.label key)) (value : Tree)
    (members : List (Quoted × Tree)) :
    valuesOf (form.label other) ((quoted, value) :: members) =
      valuesOf (form.label other) members :=
  valuesOf_cons_of_ne fun same =>
    apart (label_injective known (Option.some.inj (same.symm.trans named)))

include known in
/-- A member that goes by a key says what the part of the key is, and the members behind it say
what the other parts are. -/
theorem tells_members_iff {here : κ} {key : Quoted} (text : key.text? = some (form.label here))
    {value : Tree} {members : List (Quoted × Tree)} {record final : σ} {seen : List κ} :
    (∀ other, Meaning.Tells form parts meanings record seen other (parts.get other final)
        (valuesOf (form.label other) ((key, value) :: members))) ↔
      here ∉ seen ∧ ∃ part, meanings here value part ∧
        ∀ other, Meaning.Tells form parts meanings (parts.set here part record) (here :: seen) other
          (parts.get other final) (valuesOf (form.label other) members) := by
  constructor
  · intro told
    have mine := told here
    rw [valuesOf_cons_of_eq text, tells_cons_iff] at mine
    obtain ⟨fresh, means, later⟩ := mine
    refine ⟨fresh, _, means, fun other => ?_⟩
    by_cases same : other = here
    · exact same ▸ later
    · have there := told other
      rw [valuesOf_cons_of_other known same text] at there
      exact (tells_set_iff same (by simp [same])).mpr there
  · rintro ⟨fresh, part, means, told⟩ other
    obtain rfl : parts.get here final = part :=
      (kept_of_seen (told here) List.mem_cons_self).trans (parts.get_set here part record)
    by_cases same : other = here
    · subst same
      rw [valuesOf_cons_of_eq text, tells_cons_iff]
      exact ⟨fresh, means, told other⟩
    · rw [valuesOf_cons_of_other known same text]
      exact (tells_set_iff same (by simp [same])).mp (told other)

variable [DecidableEq κ]

/-- The first member is taken, and then the others. -/
theorem rounds_cons_iff {record final : σ} {seen : List κ} {key : Quoted} {value : Tree}
    {members : List (Quoted × Tree)} {complete : List κ → Prop} :
    (∃ keys, Meaning.Rounds (Meaning.member form parts meanings) (record, seen)
        ((key, value) :: members) (final, keys) ∧ complete keys) ↔
      ∃ label, key.text? = some label ∧ ∃ next seen',
        Meaning.member form parts meanings (record, seen) label value (next, seen') ∧
          ∃ keys, Meaning.Rounds (Meaning.member form parts meanings) (next, seen') members
            (final, keys) ∧ complete keys := by
  constructor
  · rintro ⟨keys, rounds, enough⟩
    cases rounds with
    | next text taken later => exact ⟨_, text, _, _, taken, keys, later, enough⟩
  · rintro ⟨label, text, next, seen', taken, keys, later, enough⟩
    exact ⟨keys, .next text taken later, enough⟩

include known in
/-- Members say of all parts what reading them one by one makes of the parts. -/
theorem rounds_iff_tells {members : List (Quoted × Tree)} {record final : σ} {seen : List κ} :
    (∃ keys, Meaning.Rounds (Meaning.member form parts meanings) (record, seen) members
        (final, keys) ∧ ∀ key, form.required key = true → key ∈ keys) ↔
      (∀ member ∈ members, member.1.text?.isSome) ∧
        ∀ key, Meaning.Tells form parts meanings record seen key (parts.get key final)
          (valuesOf (form.label key) members) := by
  induction members generalizing record seen with
  | nil =>
    constructor
    · rintro ⟨_, ⟨⟩, complete⟩
      exact ⟨by simp, fun key => .absent rfl (complete key)⟩
    · rintro ⟨-, told⟩
      obtain rfl : final = record := parts.ext fun key => by
        cases told key with
        | absent kept => exact kept
      refine ⟨seen, .done _, fun key required => ?_⟩
      cases told key with
      | absent _ settled => exact settled required
  | cons first members induction =>
    obtain ⟨key, value⟩ := first
    rw [rounds_cons_iff]
    simp only [induction, List.forall_mem_cons]
    cases text : key.text? with
    | none => simp
    | some label =>
      simp only [Option.some.injEq, exists_eq_left', Option.isSome_some, true_and, Meaning.member]
      cases found : form.key? label with
      | none =>
        simp only [valuesOf_cons_of_unknown known found text]
        constructor
        · rintro ⟨_, _, ⟨⟩, told⟩
          exact told
        · intro told
          exact ⟨record, seen, rfl, told⟩
      | some here =>
        obtain rfl := label_of_key? found
        rw [tells_members_iff known text]
        constructor
        · rintro ⟨_, _, ⟨fresh, part, means, ⟨⟩⟩, all, told⟩
          exact ⟨all, fresh, part, means, told⟩
        · rintro ⟨all, fresh, part, means, told⟩
          exact ⟨_, _, ⟨fresh, part, means, rfl⟩, all, told⟩

variable (reads : ∀ key, Reads (readers key) (meanings key))

include reads in
/-- A member is read for what it adds to the record. -/
theorem reads_record_member (state : σ × List κ) (label : String) :
    ReadsMember (form.member (fill parts readers) state label)
      (Meaning.member form parts meanings state label) := by
  intro text next rest ends
  unfold Meaning.member
  cases found : form.key? label with
  | none =>
    simp only [yields_member_of_unknown found, Reader.yields_ignored_iff ends]
    constructor
    · rintro ⟨middle, colon, ⟨tree, opens⟩, same⟩
      exact ⟨tree, ⟨middle, colon, opens⟩, same⟩
    · rintro ⟨tree, ⟨middle, colon, opens⟩, same⟩
      exact ⟨middle, colon, ⟨tree, opens⟩, same⟩
  | some key =>
    simp only [yields_member_of_key found, fill, reads_map (reads key) _ ends]
    constructor
    · rintro ⟨fresh, middle, value, colon, ⟨tree, opens, part, means, rfl⟩, same⟩
      exact ⟨tree, ⟨middle, colon, opens⟩, fresh, part, means, same⟩
    · rintro ⟨tree, ⟨middle, colon, opens⟩, fresh, part, means, same⟩
      exact ⟨fresh, middle, _, colon, ⟨tree, opens, part, means, rfl⟩, same⟩

end Members

/-- A comma leads no further than the text goes. -/
theorem length_le_of_leads {first : Bool} {front : List Char}
    (leads : Reader.Leads first text front) : front.length ≤ text.length := by
  cases first with
  | true => exact leads ▸ length_skipSpace_le text
  | false => exact Nat.le_of_lt (length_lt_of_skipSpace leads)

/-- The values of a list are read into the parts of a record. -/
theorem slots_iff (reads : ∀ key, Reads (readers key) (meanings key)) {whole : List Char}
    {first : Bool} {index : Nat} {record final : σ} {keys : List κ}
    (within : text.length ≤ whole.length) :
    Yields (form.slots (fill parts readers) whole first index record keys text within) final rest ↔
      ∃ items, Opens (tokensOf first items ++ [[']']]) text rest ∧
        Meaning.slots form parts meanings keys items record final := by
  induction keys generalizing first index record text with
  | nil =>
    rw [yields_slots_nil]
    constructor
    · rintro ⟨closed, same⟩
      exact ⟨[], opens_singleton.mpr closed, by simp, same⟩
    · rintro ⟨items, opens, filled⟩
      match items, opens, filled with
      | [], opens, ⟨_, same⟩ => exact ⟨opens_singleton.mp opens, same⟩
  | cons key keys induction =>
    rw [yields_slots_cons]
    constructor
    · rintro (⟨closed, optional, same⟩ | ⟨front, middle, next, leads, -, yields, _, behind⟩)
      · refine ⟨[], opens_singleton.mpr closed, ?_, same⟩
        simpa using List.findIdx?_eq_none_iff.mp optional
      · obtain ⟨items, later, filled⟩ := (induction _).mp behind
        obtain ⟨tree, opens, part, means, rfl⟩ :=
          (reads_map (reads key) _ (Tree.ends_of_opens_tokensOf later)).mp yields
        exact ⟨tree :: items, Tree.opens_tokensOf_cons.mpr ⟨front, middle, leads, opens, later⟩,
          part, means, filled⟩
    · rintro ⟨items, opens, filled⟩
      match items, opens, filled with
      | [], opens, ⟨optional, same⟩ =>
        exact .inl ⟨opens_singleton.mp opens,
          List.findIdx?_eq_none_iff.mpr (by simpa using optional), same⟩
      | item :: items, opens, ⟨part, means, filled⟩ =>
        obtain ⟨front, middle, leads, opens, later⟩ := Tree.opens_tokensOf_cons.mp opens
        obtain ⟨c, tail, found, begins⟩ := Tree.exists_begins opens
        have yields := (reads_map (reads key) (fun part => parts.set key part record)
          (Tree.ends_of_opens_tokensOf later)).mpr ⟨item, opens, part, means, rfl⟩
        have bound : middle.length ≤ whole.length :=
          Nat.le_trans (Nat.le_of_lt yields.shorter)
            (Nat.le_trans (length_le_of_leads leads) within)
        exact .inr ⟨front, middle, _, leads, ⟨c, tail, found, begins.ne.1⟩, yields, bound,
          (induction bound).mpr ⟨items, later, filled⟩⟩

/-- A record is read for the parts that its members or elements stand for. -/
theorem reads_read [DecidableEq κ] (known : ∀ key, form.key? (form.label key) = some key)
    (reads : ∀ key, Reads (readers key) (meanings key)) (blank : σ) :
    Reads (form.read (some (fill parts readers)) blank)
      (Meaning.record form parts meanings blank) := by
  intro text record rest _
  have listed (key : κ) : key ∈ form.keys := List.mem_of_find?_eq_some (known key)
  rw [yields_read]
  constructor
  · rintro ⟨_, after, ⟨⟩, ⟨brace, keys, rounds, complete⟩ | ⟨bracket, yields⟩⟩
    · obtain ⟨members, opens, rounds⟩ := (members_iff (reads_record_member reads)).mp rounds
      refine ⟨.object members, ⟨after, brace, opens⟩, .inl ⟨members, rfl, ?_⟩⟩
      exact (rounds_iff_tells known).mp ⟨keys, rounds, fun key => complete key (listed key)⟩
    · obtain ⟨items, opens, filled⟩ := (slots_iff reads _).mp yields
      exact ⟨.list items, ⟨after, bracket, opens⟩, .inr ⟨items, rfl, filled⟩⟩
  · rintro ⟨_, opens, ⟨members, rfl, told⟩ | ⟨items, rfl, filled⟩⟩
    · obtain ⟨after, brace, opens⟩ := opens
      obtain ⟨keys, rounds, complete⟩ := (rounds_iff_tells known).mpr told
      refine ⟨_, after, rfl, .inl ⟨brace, keys, ?_, fun key _ => complete key⟩⟩
      exact (members_iff (reads_record_member reads)).mpr ⟨members, opens, rounds⟩
    · obtain ⟨after, bracket, opens⟩ := opens
      exact ⟨_, after, rfl, .inr ⟨bracket, (slots_iff reads _).mpr ⟨items, opens, filled⟩⟩⟩

end RecordForm

end GrammarArtifact.Document
