import GrammarArtifact.Proofs.Document.Record
import GrammarArtifact.Proofs.Document.Skipping
import Mathlib.Data.List.Forall2

/-!
# What trees mean to readers

A meaning tells of a tree which values it stands for. A reader reads a meaning when it
yields a value exactly from the texts that begin with a tree of that meaning, and takes the
tree and no more. Readers of lists, tables and members read what their parts read, so what a
reader makes of a text depends on the tree alone: the spaces between its tokens are gone.
-/

namespace GrammarArtifact.Document

open Reader (Elements Members Leads)
open GrammarArtifact.Document.Tree (tokensOf tokensIn)

variable {α β : Type} {text rest : List Char}

/-- Which values a tree stands for. -/
abbrev Meaning (α : Type) := Tree → α → Prop

/-- A reader yields a value where a tree of that meaning stands, up to the end of the tree. -/
def Reads (reader : Reader α) (meaning : Meaning α) : Prop :=
  ∀ ⦃text value rest⦄, Ends rest →
    (Yields (reader text) value rest ↔
      ∃ tree, Opens (Tree.tokens tree) text rest ∧ meaning tree value)

namespace Meaning

/-! ## Scalars -/

/-- A tree stands for the change of what it stood for. -/
def map (f : α → β) (meaning : Meaning α) : Meaning β := fun tree changed =>
  ∃ value, meaning tree value ∧ f value = changed

/-- A string stands for its text. -/
def string : Meaning String := fun tree text =>
  ∃ quoted : Quoted, tree = .string quoted ∧ quoted.text? = some text

/-- Two words stand for the truth values. -/
def boolean : Meaning Bool := fun tree value => tree = .flag value

/-- The word `null` stands for no value. -/
def optional (meaning : Meaning α) : Meaning (Option α) := fun tree value =>
  tree = .null ∧ value = none ∨ tree ≠ .null ∧ ∃ known, meaning tree known ∧ some known = value

/-- What a scalar leaves of itself where values of any form can stand. -/
def scalar : Meaning Loose
  | .null, value | .flag _, value => value = .other
  | .number numeral, value => ∃ known, numeral.value? = some known ∧ .number known = value
  | .string quoted, value => ∃ known, quoted.text? = some known ∧ .string known = value
  | .list _, _ | .object _, _ => False

/-! ## Lists and objects -/

/-- A list stands for the values of its elements. -/
def list (meaning : Meaning α) : Meaning (List α) := fun tree values =>
  ∃ items, tree = .list items ∧ List.Forall₂ meaning items values

/-- A member binds the text of its key to the value of its tree. -/
def Binds (meaning : Meaning α) (member : Quoted × Tree) (entry : String × α) : Prop :=
  member.1.text? = some entry.1 ∧ meaning member.2 entry.2

/-- An object stands for the table of its members. -/
def table (meaning : Meaning α) : Meaning (Table α) := fun tree found =>
  ∃ members, tree = .object members ∧
    ∃ entries, List.Forall₂ (Binds meaning) members entries ∧ Table.ofBindings entries = found

/-- Members are taken one by one, each by its key and for what has been found before it. -/
inductive Rounds (step : α → String → Meaning α) : α → List (Quoted × Tree) → α → Prop
  | done (state : α) : Rounds step state [] state
  | next {state next final : α} {key : Quoted} {name : String} {value : Tree}
      {members : List (Quoted × Tree)} (known : key.text? = some name)
      (taken : step state name value next) (later : Rounds step next members final) :
      Rounds step state ((key, value) :: members) final

/-! ## Kinds and values of any form -/

/-- A string stands for the kind of that name, and so does an object that binds the name to
`null`. -/
def kind (depth : Nat) : Meaning RuleKind := fun tree kind =>
  ∃ (quoted : Quoted) (name : String),
    quoted.text? = some name ∧ RuleKind.ofTag? name = some kind ∧
      (tree = .string quoted ∨ depth ≠ 0 ∧ tree = .object [(quoted, .null)])

/-- What a value of any form leaves of itself. -/
def loose : Nat → Meaning Loose
  | 0 => scalar
  | inner + 1 => fun tree value =>
    scalar tree value ∨
      (∃ items values, tree = .list items ∧ List.Forall₂ (loose inner) items values ∧
        .other = value) ∨
      ∃ members, tree = .object members ∧
        Rounds (fun kept _ => fun tree next => ∃ value, loose inner tree value ∧ kept = next)
          .other members value

/-- A value of any form stands for the rule value that it leaves. -/
def ruleValue (depth : Nat) : Meaning RuleValue := fun tree value =>
  ∃ loosely, loose depth tree loosely ∧ ruleValue? loosely = some value

end Meaning

/-! ## Reading scalars -/

theorem reads_map {reader : Reader α} {meaning : Meaning α} (reads : Reads reader meaning)
    (f : α → β) : Reads (Reader.map f reader) (Meaning.map f meaning) := by
  intro text changed rest ends
  rw [Reader.yields_map]
  constructor
  · rintro ⟨value, yields, same⟩
    obtain ⟨tree, opens, means⟩ := (reads ends).mp yields
    exact ⟨tree, opens, value, means, same⟩
  · rintro ⟨tree, opens, value, means, same⟩
    exact ⟨value, (reads ends).mpr ⟨tree, opens, means⟩, same⟩

/-- A string is opened by its quote. -/
theorem opens_string {quoted : Quoted} :
    Opens (Tree.tokens (.string quoted)) text rest ↔
      skipSpace text = '"' :: (quoted.inside ++ '"' :: rest) := by
  simp [Tree.tokens, Quoted.token]

theorem reads_string : Reads Reader.string Meaning.string := by
  intro text value rest _
  rw [Reader.yields_string]
  constructor
  · rintro ⟨after, quote, scanned⟩
    obtain ⟨quoted, rfl, known⟩ := scanString_eq_ok_iff.mp scanned
    exact ⟨.string quoted, opens_string.mpr quote, quoted, rfl, known⟩
  · rintro ⟨_, opens, quoted, rfl, known⟩
    exact ⟨_, opens_string.mp opens, quoted.scanString_inside known rest⟩

theorem reads_boolean : Reads Reader.boolean Meaning.boolean := by
  intro text value rest _
  rw [Reader.yields_boolean]
  constructor
  · rintro (⟨found, rfl⟩ | ⟨found, rfl⟩)
    · exact ⟨.flag true, opens_singleton.mpr found, rfl⟩
    · exact ⟨.flag false, opens_singleton.mpr found, rfl⟩
  · rintro ⟨_, opens, rfl⟩
    cases value with
    | true => exact .inl ⟨opens_singleton.mp opens, rfl⟩
    | false => exact .inr ⟨opens_singleton.mp opens, rfl⟩

theorem reads_optional {reader : Reader α} {meaning : Meaning α} (reads : Reads reader meaning) :
    Reads (Reader.optional reader) (Meaning.optional meaning) := by
  intro text value rest ends
  simp only [Reader.yields_optional, reads ends]
  constructor
  · rintro (⟨found, rfl⟩ | ⟨absent, known, ⟨tree, opens, means⟩, same⟩)
    · exact ⟨.null, opens_singleton.mpr found, .inl ⟨rfl, rfl⟩⟩
    · refine ⟨tree, (opens_skipSpace tree.tokens_ne_nil).mp opens, .inr ⟨?_, known, means, same⟩⟩
      rintro rfl
      have found := opens_singleton.mp opens
      rw [skipSpace_skipSpace] at found
      exact absent _ found
  · rintro ⟨tree, opens, ⟨rfl, rfl⟩ | ⟨notNull, known, means, same⟩⟩
    · exact .inl ⟨opens_singleton.mp opens, rfl⟩
    · refine .inr ⟨fun tail found => ?_, known,
        ⟨tree, (opens_skipSpace tree.tokens_ne_nil).mpr opens, means⟩, same⟩
      obtain ⟨c, later, found', begins⟩ := Tree.exists_begins opens
      obtain ⟨rfl, -⟩ := List.cons.inj (found.symm.trans found')
      cases begins.sameForm .null rfl
      exact notNull rfl

/-! ## Reading lists -/

/-- The elements of a list are read one by one. -/
theorem elements_iff {item : Reader α} {meaning : Meaning α} (reads : Reads item meaning)
    {first : Bool} {values : List α} :
    Elements item first text values rest ↔
      ∃ items, Opens (tokensOf first items ++ [[']']]) text rest ∧
        List.Forall₂ meaning items values := by
  constructor
  · intro elements
    induction elements with
    | close closed => exact ⟨[], opens_singleton.mpr closed, .nil⟩
    | item leads _ yields _ induction =>
      obtain ⟨items, later, means⟩ := induction
      obtain ⟨tree, opens, meant⟩ := (reads (Tree.ends_of_opens_tokensOf later)).mp yields
      exact ⟨tree :: items, Tree.opens_tokensOf_cons.mpr ⟨_, _, leads, opens, later⟩,
        .cons meant means⟩
  · rintro ⟨items, opens, means⟩
    induction means generalizing first text with
    | nil => exact .close (opens_singleton.mp opens)
    | @cons tree value items values meant _ induction =>
      obtain ⟨front, middle, leads, opens, later⟩ := Tree.opens_tokensOf_cons.mp opens
      obtain ⟨c, tail, found, begins⟩ := Tree.exists_begins opens
      have yields := (reads (Tree.ends_of_opens_tokensOf later)).mpr ⟨tree, opens, meant⟩
      exact .item leads ⟨c, tail, found, begins.ne.1⟩ yields (induction later)

theorem reads_list {item : Reader α} {meaning : Meaning α} (reads : Reads item meaning) :
    Reads (Reader.list (some item)) (Meaning.list meaning) := by
  intro text values rest _
  rw [Reader.yields_list]
  constructor
  · rintro ⟨_, after, ⟨⟩, bracket, elements⟩
    obtain ⟨items, opens, means⟩ := (elements_iff reads).mp elements
    exact ⟨.list items, ⟨after, bracket, opens⟩, items, rfl, means⟩
  · rintro ⟨_, opens, items, rfl, means⟩
    obtain ⟨after, bracket, opens⟩ := opens
    exact ⟨item, after, rfl, bracket, (elements_iff reads).mpr ⟨items, opens, means⟩⟩

/-- No list is read when no bracket may be opened. -/
theorem reads_list_none : Reads (Reader.list (α := α) none) fun _ _ => False := by
  intro text values rest _
  simp [Reader.yields_list]

/-! ## Reading objects -/

/-- A reader of a member reads a meaning of its value, from the colon on. -/
def ReadsMember (reader : Reader α) (meaning : Meaning α) : Prop :=
  ∀ ⦃text value rest⦄, Ends rest →
    (Yields (reader text) value rest ↔
      ∃ tree, Opens ([':'] :: Tree.tokens tree) text rest ∧ meaning tree value)

theorem reads_member {reader : Reader α} {meaning : Meaning α} (reads : Reads reader meaning)
    (f : α → β) :
    ReadsMember (Reader.andThen Reader.colon fun _ => Reader.map f reader)
      (Meaning.map f meaning) := by
  intro text value rest ends
  simp only [Reader.yields_andThen, reads_map reads f ends]
  constructor
  · rintro ⟨⟨⟩, middle, colon, tree, opens, means⟩
    exact ⟨tree, ⟨middle, Reader.yields_colon.mp colon, opens⟩, means⟩
  · rintro ⟨tree, ⟨middle, colon, opens⟩, means⟩
    exact ⟨(), middle, Reader.yields_colon.mpr colon, tree, opens, means⟩

/-- The members of an object are read one by one. -/
theorem members_iff {member : α → String → Reader α} {step : α → String → Meaning α}
    (reads : ∀ state name, ReadsMember (member state name) (step state name))
    {first : Bool} {state final : α} :
    Members member first state text final rest ↔
      ∃ members, Opens (tokensIn first members ++ [['\x7d']]) text rest ∧
        Meaning.Rounds step state members final := by
  constructor
  · intro rounds
    induction rounds with
    | close closed => exact ⟨[], opens_singleton.mpr closed, .done _⟩
    | member leads quote scanned yields _ induction =>
      obtain ⟨members, later, rounds⟩ := induction
      obtain ⟨key, rfl, known⟩ := scanString_eq_ok_iff.mp scanned
      obtain ⟨tree, opens, taken⟩ := (reads _ _ (Tree.ends_of_opens_tokensIn later)).mp yields
      exact ⟨(key, tree) :: members,
        Tree.opens_tokensIn_cons.mpr ⟨_, _, _, leads, quote, opens, later⟩,
        .next known taken rounds⟩
  · rintro ⟨members, opens, rounds⟩
    induction rounds generalizing first text with
    | done => exact .close (opens_singleton.mp opens)
    | @next state next final key name value members known taken _ induction =>
      obtain ⟨front, after, middle, leads, quote, opens, later⟩ :=
        Tree.opens_tokensIn_cons.mp opens
      have yields :=
        (reads state name (Tree.ends_of_opens_tokensIn later)).mpr ⟨value, opens, taken⟩
      exact .member leads quote (key.scanString_inside known after) yields (induction later)

/-- Bindings are collected last first. -/
theorem rounds_binding_iff {meaning : Meaning α} {before found : List (String × α)}
    {members : List (Quoted × Tree)} :
    Meaning.Rounds (fun before name => Meaning.map (fun value => (name, value) :: before) meaning)
        before members found ↔
      ∃ entries, List.Forall₂ (Meaning.Binds meaning) members entries ∧
        entries.reverse ++ before = found := by
  constructor
  · intro rounds
    induction rounds with
    | done => exact ⟨[], .nil, rfl⟩
    | next known taken _ induction =>
      obtain ⟨value, means, rfl⟩ := taken
      obtain ⟨entries, binds, rfl⟩ := induction
      exact ⟨(_, value) :: entries, .cons ⟨known, means⟩ binds, by simp⟩
  · rintro ⟨entries, binds, rfl⟩
    induction binds generalizing before with
    | nil => exact .done before
    | @cons member entry members entries bind _ induction =>
      rw [List.reverse_cons, List.append_assoc]
      exact .next bind.1 ⟨entry.2, bind.2, rfl⟩ induction

theorem reads_table {reader : Reader α} {meaning : Meaning α} (reads : Reads reader meaning) :
    Reads (table (some reader)) (Meaning.table meaning) := by
  intro text found rest _
  have binding (before : List (String × α)) (name : String) :
      ReadsMember (Reader.binding reader before name)
        (Meaning.map (fun value => (name, value) :: before) meaning) :=
    reads_member reads _
  rw [table, Reader.yields_map]
  constructor
  · rintro ⟨bindings, yields, same⟩
    obtain ⟨_, after, ⟨⟩, brace, rounds⟩ := Reader.yields_bindings.mp yields
    obtain ⟨trees, opens, rounds⟩ := (members_iff binding).mp rounds
    obtain ⟨entries, binds, rfl⟩ := rounds_binding_iff.mp rounds
    exact ⟨.object trees, ⟨after, brace, opens⟩, trees, rfl, entries, binds, by simpa using same⟩
  · rintro ⟨_, opens, trees, rfl, entries, binds, same⟩
    obtain ⟨after, brace, opens⟩ := opens
    refine ⟨entries.reverse, Reader.yields_bindings.mpr ⟨reader, after, rfl, brace, ?_⟩,
      by simpa using same⟩
    exact (members_iff binding).mpr ⟨trees, opens, rounds_binding_iff.mpr ⟨entries, binds, by simp⟩⟩

/-! ## Reading kinds -/

/-- The key of a kind that is written as an object is a string that names it. -/
theorem yields_kindKey {kind : RuleKind} :
    Yields (kindKey text) kind rest ↔
      ∃ after, skipSpace text = '"' :: after ∧ Yields (kindName ('"' :: after)) kind rest := by
  unfold kindKey
  rw [Reader.yields_afterSpace]
  generalize skipSpace text = front
  split
  next => simp
  next c tail =>
    by_cases quote : c = '"'
    · subst quote
      simp
    · simp [quote]

/-- An object that must have no further member ends with its brace. -/
theorem yields_closeSingle :
    Yields (closeSingle text) () rest ↔ skipSpace text = '\x7d' :: rest := by
  unfold closeSingle
  rw [Reader.yields_afterSpace]
  generalize skipSpace text = front
  split
  next => simp
  next c tail =>
    split
    next brace => simp [brace, Read.next]
    next other => simp [other]

/-- The name of a kind is a string that names one. -/
theorem yields_kindName_iff {kind : RuleKind} {c : Char} :
    Yields (kindName (c :: text)) kind rest ↔
      ∃ (quoted : Quoted) (name : String), text = quoted.inside ++ '"' :: rest ∧
        quoted.text? = some name ∧ RuleKind.ofTag? name = some kind := by
  rw [yields_kindName]
  constructor
  · rintro ⟨name, scanned, named⟩
    obtain ⟨quoted, same, known⟩ := scanString_eq_ok_iff.mp scanned
    exact ⟨quoted, name, same, known, named⟩
  · rintro ⟨quoted, name, same, known, named⟩
    exact ⟨name, scanString_eq_ok_iff.mpr ⟨quoted, same, known⟩, named⟩

/-- A kind that is written as an object has one member, which is `null`. -/
theorem yields_wrappedKind_iff {kind : RuleKind} :
    Yields (wrappedKind text) kind rest ↔
      ∃ (quoted : Quoted) (name : String),
        Opens (tokensIn true [(quoted, .null)] ++ [['\x7d']]) text rest ∧
          quoted.text? = some name ∧ RuleKind.ofTag? name = some kind := by
  simp only [wrappedKind, Reader.yields_andThen, Reader.yields_map, yields_kindKey,
    yields_kindName_iff, Tree.opens_tokensIn_cons]
  constructor
  · rintro ⟨_, after, ⟨_, quote, quoted, name, rfl, known, named⟩, ⟨⟩, behind, colon, ⟨⟩, middle,
      null, ⟨⟩, closed, rfl⟩
    refine ⟨quoted, name, ⟨_, after, middle, rfl, by rwa [skipSpace_skipSpace], ?_, ?_⟩, known,
      named⟩
    · exact ⟨behind, Reader.yields_colon.mp colon, opens_singleton.mpr (Reader.yields_unit.mp null)⟩
    · exact opens_singleton.mpr (yields_closeSingle.mp closed)
  · rintro ⟨quoted, name, ⟨_, after, middle, rfl, quote, ⟨behind, colon, null⟩, closed⟩, known,
      named⟩
    rw [skipSpace_skipSpace] at quote
    exact ⟨kind, after, ⟨_, quote, quoted, name, rfl, known, named⟩, (), behind,
      Reader.yields_colon.mpr colon, (), middle, Reader.yields_unit.mpr (opens_singleton.mp null),
      (), yields_closeSingle.mpr (opens_singleton.mp closed), rfl⟩

theorem reads_ruleKind (depth : Nat) : Reads (ruleKind depth) (Meaning.kind depth) := by
  intro text kind rest _
  rw [yields_ruleKind]
  simp only [yields_kindName_iff, yields_wrappedKind_iff]
  constructor
  · rintro (⟨_, quote, quoted, name, rfl, known, named⟩ |
      ⟨after, brace, deep, quoted, name, opens, known, named⟩)
    · exact ⟨.string quoted, opens_string.mpr quote, quoted, name, known, named, .inl rfl⟩
    · exact ⟨.object [(quoted, .null)], ⟨after, brace, opens⟩, quoted, name, known, named,
        .inr ⟨deep, rfl⟩⟩
  · rintro ⟨_, opens, quoted, name, known, named, rfl | ⟨deep, rfl⟩⟩
    · exact .inl ⟨_, opens_string.mp opens, quoted, name, rfl, known, named⟩
    · obtain ⟨after, brace, opens⟩ := opens
      exact .inr ⟨after, brace, deep, quoted, name, opens, known, named⟩

/-! ## Reading values of any form -/

/-- A scalar of any form is read for what it leaves. -/
theorem yields_looseScalar_iff {value : Loose} (ends : Ends rest) :
    Yields (looseScalar (skipSpace text)) value rest ↔
      ∃ tree, Opens (Tree.tokens tree) text rest ∧ Meaning.scalar tree value := by
  constructor
  · intro yields
    obtain ⟨c, tail, found⟩ := List.exists_cons_of_ne_nil yields.ne_nil
    rw [found] at yields
    simp only [looseScalar] at yields
    split at yields
    next null =>
      obtain ⟨rfl, same⟩ := Reader.yields_word.mp yields
      exact ⟨.null, opens_singleton.mpr (null ▸ found), same.symm⟩
    split at yields
    next true =>
      obtain ⟨rfl, same⟩ := Reader.yields_word.mp yields
      exact ⟨.flag .true, opens_singleton.mpr (true ▸ found), same.symm⟩
    split at yields
    next false =>
      obtain ⟨rfl, same⟩ := Reader.yields_word.mp yields
      exact ⟨.flag .false, opens_singleton.mpr (false ▸ found), same.symm⟩
    split at yields
    next number =>
      obtain ⟨known, yields, same⟩ := Reader.yields_map.mp yields
      obtain ⟨numeral, written, value⟩ := (yields_number_iff ends).mp yields
      exact ⟨.number numeral, opens_singleton.mpr (found.trans written), known, value, same⟩
    split at yields
    next quote =>
      obtain ⟨known, yields, same⟩ := Reader.yields_map.mp yields
      obtain ⟨quoted, rfl, text⟩ := scanString_eq_ok_iff.mp (Reader.yields_quoted.mp yields)
      exact ⟨.string quoted, opens_string.mpr (quote ▸ found), known, text, same⟩
    next => simp at yields
  · rintro ⟨tree, opens, means⟩
    cases tree with
    | null =>
      rw [opens_singleton.mp opens]
      exact Reader.yields_word.mpr ⟨rfl, Eq.symm means⟩
    | flag flag =>
      cases flag <;>
      · rw [opens_singleton.mp opens]
        exact Reader.yields_word.mpr ⟨rfl, Eq.symm means⟩
    | string quoted =>
      obtain ⟨known, text, same⟩ := means
      rw [opens_string.mp opens]
      exact Reader.yields_map.mpr
        ⟨known, Reader.yields_quoted.mpr (quoted.scanString_inside text rest), same⟩
    | number numeral =>
      obtain ⟨known, value, same⟩ := means
      have yields := (yields_number_iff ends).mpr ⟨numeral, rfl, value⟩
      obtain ⟨c, tail, begins, start⟩ := numeral.exists_token_eq_cons
      rw [opens_singleton.mp opens]
      rw [begins, List.cons_append] at yields ⊢
      have number : (c = '-' || isDigit c) = true := by simpa using start
      simpa [looseScalar, ne_of_number start (d := 'n') (by decide),
        ne_of_number start (d := 't') (by decide), ne_of_number start (d := 'f') (by decide),
        number] using Reader.yields_map.mpr ⟨known, yields, same⟩
    | list | object => exact absurd means not_false

/-- A scalar does not begin with a bracket. -/
theorem scalar_not_opened {tree : Tree} {value : Loose} (means : Meaning.scalar tree value)
    (opens : Opens tree.tokens text rest) :
    ∀ after, skipSpace text ≠ '[' :: after ∧ skipSpace text ≠ '\x7b' :: after := by
  obtain ⟨c, tail, found, begins⟩ := Tree.exists_begins opens
  intro after
  constructor
  · rintro bracket
    obtain ⟨rfl, -⟩ := List.cons.inj (found.symm.trans bracket)
    cases begins.sameForm (.list []) rfl
    exact means
  · rintro brace
    obtain ⟨rfl, -⟩ := List.cons.inj (found.symm.trans brace)
    cases begins.sameForm (.object []) rfl
    exact means

/-- Values of any form are read for what they leave, by induction on the brackets that may be
opened. -/
theorem reads_loose (depth : Nat) : Reads (loose depth) (Meaning.loose depth) := by
  induction depth with
  | zero =>
    intro text value rest ends
    rw [yields_loose, yields_looseScalar_iff ends]
    constructor
    · rintro (⟨_, _, ⟨⟩, _⟩ | ⟨_, _, ⟨⟩, _⟩ | ⟨-, scalar⟩)
      exact scalar
    · rintro ⟨tree, opens, means⟩
      exact .inr (.inr ⟨scalar_not_opened means opens, tree, opens, means⟩)
  | succ inner induction =>
    intro text value rest ends
    rw [yields_loose, yields_looseScalar_iff ends]
    constructor
    · rintro (⟨_, after, ⟨⟩, bracket, rfl, values, elements⟩ | ⟨_, after, ⟨⟩, brace, rounds⟩ |
        ⟨-, tree, opens, means⟩)
      · obtain ⟨items, opens, means⟩ := (elements_iff induction).mp elements
        exact ⟨.list items, ⟨after, bracket, opens⟩, .inr (.inl ⟨items, values, rfl, means, rfl⟩)⟩
      · obtain ⟨members, opens, rounds⟩ :=
          (members_iff fun kept _ => reads_member induction fun _ => kept).mp rounds
        exact ⟨.object members, ⟨after, brace, opens⟩, .inr (.inr ⟨members, rfl, rounds⟩)⟩
      · exact ⟨tree, opens, .inl means⟩
    · rintro ⟨tree, opens, means | ⟨items, values, rfl, means, rfl⟩ | ⟨members, rfl, rounds⟩⟩
      · exact .inr (.inr ⟨scalar_not_opened means opens, tree, opens, means⟩)
      · obtain ⟨after, bracket, opens⟩ := opens
        exact .inl ⟨inner, after, rfl, bracket, rfl, values,
          (elements_iff induction).mpr ⟨items, opens, means⟩⟩
      · obtain ⟨after, brace, opens⟩ := opens
        exact .inr (.inl ⟨inner, after, rfl, brace,
          (members_iff fun kept _ => reads_member induction fun _ => kept).mpr
            ⟨members, opens, rounds⟩⟩)

theorem reads_ruleValue (depth : Nat) : Reads (ruleValue depth) (Meaning.ruleValue depth) := by
  intro text value rest ends
  simp only [yields_ruleValue, reads_loose depth ends]
  constructor
  · rintro ⟨loosely, ⟨tree, opens, means⟩, same⟩
    exact ⟨tree, opens, loosely, means, same⟩
  · rintro ⟨tree, opens, loosely, means, same⟩
    exact ⟨loosely, ⟨tree, opens, means⟩, same⟩

end GrammarArtifact.Document
