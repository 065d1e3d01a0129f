import GrammarArtifact.Language
import GrammarArtifact.Pattern.Engine
import GrammarArtifact.Proofs.Document.Passing
import GrammarArtifact.Proofs.Document.Record
import GrammarArtifact.Text.Tables

/-!
# Documents that break off

A reader that succeeds has not looked beyond what it took, except that a number has been
ended by the character behind it. So a reader whose value ends in a quote, a bracket or a
word yields the same whatever is put behind the text: it is firm. Other readers do so as
long as something is left: they are steady. Inside of a list or an object something is
always left, namely the closing bracket, which makes lists and objects firm although their
parts may be numbers.

A grammar document is an object or a list. If the document that is left after a cut were
read, then the whole document would be read to the same place, and what was cut off would
stand behind it as trailing text.
-/

namespace GrammarArtifact.Document

variable {α β κ σ : Type} {text rest : List Char}

/-- A reader yields the same whatever is put behind the text. -/
def Firm (reader : Reader α) : Prop :=
  ∀ ⦃text value rest⦄, Yields (reader text) value rest →
    ∀ more, Yields (reader (text ++ more)) value (rest ++ more)

/-- A reader does so when something is left behind its value. -/
def Steady (reader : Reader α) : Prop :=
  ∀ ⦃text value rest⦄, Yields (reader text) value rest → rest ≠ [] →
    ∀ more, Yields (reader (text ++ more)) value (rest ++ more)

theorem Firm.steady {reader : Reader α} (firm : Firm reader) : Steady reader :=
  fun _ _ _ yields _ => firm yields

namespace Reader

theorem firm_map {reader : Reader α} (firm : Firm reader) (f : α → β) : Firm (map f reader) := by
  intro text value rest yields more
  obtain ⟨value, read, rfl⟩ := yields_map.mp yields
  exact yields_map.mpr ⟨value, firm read more, rfl⟩

theorem steady_map {reader : Reader α} (steady : Steady reader) (f : α → β) :
    Steady (map f reader) := by
  intro text value rest yields left more
  obtain ⟨value, read, rfl⟩ := yields_map.mp yields
  exact yields_map.mpr ⟨value, steady read left more, rfl⟩

/-- The second of two readers reads something, so something is left behind the first. -/
theorem firm_andThen {first : Reader α} {second : α → Reader β} (steady : Steady first)
    (firm : ∀ value, Firm (second value)) : Firm (andThen first second) := by
  intro text value rest yields more
  obtain ⟨front, middle, opens, closes⟩ := yields_andThen.mp yields
  exact yields_andThen.mpr
    ⟨front, middle ++ more, steady opens closes.ne_nil more, firm front closes more⟩

theorem steady_andThen {first : Reader α} {second : α → Reader β} (steady : Steady first)
    (later : ∀ value, Steady (second value)) : Steady (andThen first second) := by
  intro text value rest yields left more
  obtain ⟨front, middle, opens, closes⟩ := yields_andThen.mp yields
  exact yields_andThen.mpr
    ⟨front, middle ++ more, steady opens closes.ne_nil more, later front closes left more⟩

/-- Nothing but spaces is never a value, so the first character that is no space is there. -/
theorem firm_afterSpace {reader : Reader α} (firm : Firm reader) : Firm (afterSpace reader) := by
  intro text value rest yields more
  have yields := yields_afterSpace.mp yields
  obtain ⟨c, tail, found⟩ := List.exists_cons_of_ne_nil yields.ne_nil
  rw [yields_afterSpace, skipSpace_append found, ← List.cons_append, ← found]
  exact firm yields more

theorem firm_word (letters : List Char) (meant : α) : Firm (word letters meant) := by
  intro text value rest yields more
  obtain ⟨c, tail, rfl⟩ := List.exists_cons_of_ne_nil yields.ne_nil
  obtain ⟨rfl, rfl⟩ := yields_word.mp yields
  exact yields_word.mpr ⟨List.append_assoc .., rfl⟩

theorem firm_quoted : Firm quoted := by
  intro text value rest yields more
  obtain ⟨c, tail, rfl⟩ := List.exists_cons_of_ne_nil yields.ne_nil
  exact yields_quoted.mpr (scanString_append (yields_quoted.mp yields) more)

theorem steady_digits (negative : Bool) : Steady (digits negative) := by
  intro text value rest yields left more
  obtain ⟨number, scanned, known⟩ := yields_digits.mp yields
  exact yields_digits.mpr ⟨number, scanNumber_append scanned left more, known⟩

theorem steady_number : Steady number := by
  intro text value rest yields left more
  obtain ⟨c, tail, rfl⟩ := List.exists_cons_of_ne_nil yields.ne_nil
  rcases yields_number.mp yields with ⟨after, same, yields⟩ | ⟨unsigned, yields⟩
  · cases same
    exact yields_number.mpr (.inl ⟨tail ++ more, rfl, steady_digits true yields left more⟩)
  · refine yields_number.mpr (.inr ⟨fun after same => ?_, steady_digits false yields left more⟩)
    exact unsigned tail (by rw [(List.cons.inj same).1])

theorem firm_string : Firm string := by
  intro text value rest yields more
  obtain ⟨after, quote, scanned⟩ := yields_string.mp yields
  exact yields_string.mpr
    ⟨after ++ more, skipSpace_append quote more, scanString_append scanned more⟩

theorem firm_boolean : Firm boolean := by
  intro text value rest yields more
  rcases yields_boolean.mp yields with ⟨found, rfl⟩ | ⟨found, rfl⟩
  · exact yields_boolean.mpr (.inl ⟨skipSpace_append found more, rfl⟩)
  · exact yields_boolean.mpr (.inr ⟨skipSpace_append found more, rfl⟩)

theorem firm_unit : Firm unit := fun _ _ _ yields more =>
  yields_unit.mpr (skipSpace_append (yields_unit.mp yields) more)

theorem firm_colon : Firm colon := fun _ _ _ yields more =>
  yields_colon.mpr (skipSpace_append (yields_colon.mp yields) more)

theorem steady_optional {reader : Reader α} (steady : Steady reader) :
    Steady (optional reader) := by
  intro text value rest yields left more
  rcases yields_optional.mp yields with ⟨found, rfl⟩ | ⟨absent, known, read, rfl⟩
  · exact yields_optional.mpr (.inl ⟨skipSpace_append found more, rfl⟩)
  · obtain ⟨c, tail, found⟩ := List.exists_cons_of_ne_nil read.ne_nil
    have again := skipSpace_append found more
    refine yields_optional.mpr (.inr ⟨fun after same => ?_, known, ?_, rfl⟩)
    · rw [again] at same
      exact absent tail (by rw [found, (List.cons.inj same).1])
    · rw [again, ← List.cons_append, ← found]
      exact steady read left more

/-! ## Lists and objects -/

theorem Leads.append {first : Bool} {front : List Char} (leads : Leads first text front)
    (left : front ≠ []) (more : List Char) : Leads first (text ++ more) (front ++ more) := by
  cases first with
  | true =>
    obtain ⟨c, tail, rfl⟩ := List.exists_cons_of_ne_nil left
    exact skipSpace_append leads more
  | false => exact skipSpace_append leads more

theorem Leads.ne_nil {first : Bool} {front : List Char} (leads : Leads first text front)
    (left : front ≠ []) : text ≠ [] := by
  rintro rfl
  cases first with
  | true => exact left leads.symm
  | false => simp [Leads, skipSpace] at leads

/-- Some element or the closing bracket is there to be read. -/
theorem Elements.ne_nil {item : Reader α} {first : Bool} {values : List α}
    (elements : Elements item first text values rest) : text ≠ [] := by
  rcases elements with closed | ⟨leads, -, read, -⟩
  · rintro rfl
    simp [skipSpace] at closed
  · exact leads.ne_nil read.ne_nil

/-- The elements of a list end with its bracket, whatever is put behind. -/
theorem Elements.append {item : Reader α} (steady : Steady item) {first : Bool}
    {values : List α} (elements : Elements item first text values rest) (more : List Char) :
    Elements item first (text ++ more) values (rest ++ more) := by
  induction elements with
  | close closed => exact .close (skipSpace_append closed more)
  | item leads opens read later induction =>
    obtain ⟨c, tail, found, other⟩ := opens
    exact .item (leads.append read.ne_nil more)
      ⟨c, tail ++ more, skipSpace_append found more, other⟩
      (steady read later.ne_nil more) induction

theorem firm_list {item : Option (Reader α)}
    (steady : ∀ reader, item = some reader → Steady reader) : Firm (list item) := by
  intro text values rest yields more
  obtain ⟨reader, after, same, opens, elements⟩ := yields_list.mp yields
  exact yields_list.mpr
    ⟨reader, after ++ more, same, skipSpace_append opens more,
      elements.append (steady reader same) more⟩

/-- Some member or the closing brace is there to be read. -/
theorem Members.ne_nil {member : α → String → Reader α} {first : Bool} {value final : α}
    (members : Members member first value text final rest) : text ≠ [] := by
  rcases members with closed | ⟨leads, opens, -, -, -⟩
  · rintro rfl
    simp [skipSpace] at closed
  · refine leads.ne_nil ?_
    rintro rfl
    simp [skipSpace] at opens

/-- The members of an object end with its brace, whatever is put behind. -/
theorem Members.append {member : α → String → Reader α}
    (steady : ∀ value key, Steady (member value key)) {first : Bool} {value final : α}
    (members : Members member first value text final rest) (more : List Char) :
    Members member first value (text ++ more) final (rest ++ more) := by
  induction members with
  | close closed => exact .close (skipSpace_append closed more)
  | @member first value next final text front after behind middle rest key leads opens scanned
      read later induction =>
    have left : front ≠ [] := by
      rintro rfl
      simp [skipSpace] at opens
    exact .member (leads.append left more) (skipSpace_append opens more)
      (scanString_append scanned more) (steady value key read later.ne_nil more) induction

theorem firm_bindings {value : Option (Reader α)}
    (steady : ∀ reader, value = some reader → Steady reader) : Firm (bindings value) := by
  intro text found rest yields more
  obtain ⟨reader, after, same, opens, members⟩ := yields_bindings.mp yields
  have steady (before : List (String × α)) (key : String) : Steady (binding reader before key) :=
    steady_andThen firm_colon.steady fun _ => steady_map (steady reader same) _
  exact yields_bindings.mpr
    ⟨reader, after ++ more, same, skipSpace_append opens more, members.append steady more⟩

/-! ## Values that are passed over -/

theorem passNumber_append (passed : passNumber text = .ok rest) (left : rest ≠ [])
    (more : List Char) : passNumber (text ++ more) = .ok (rest ++ more) := by
  unfold passNumber at passed ⊢
  split at passed
  next scanned =>
    cases passed
    rw [scanNumber_append scanned left more]
  next => contradiction

theorem firm_passKey : Firm passKey := by
  intro text value rest yields more
  obtain ⟨front, after, quote, passed, colon⟩ := yields_passKey.mp yields
  exact yields_passKey.mpr ⟨front ++ more, after ++ more, skipSpace_append quote more,
    passString_append passed more, skipSpace_append colon more⟩

theorem steady_passScalar : Steady passScalar := by
  intro text value rest yields left more
  obtain ⟨c, tail, rfl⟩ := List.exists_cons_of_ne_nil yields.ne_nil
  refine yields_passScalar.mpr ?_
  rcases yields_passScalar.mp yields with ⟨first, rfl⟩ | ⟨first, rfl⟩ | ⟨first, rfl⟩ |
    ⟨first, passed⟩ | ⟨first, passed⟩ | ⟨first, passed⟩
  · exact .inl ⟨first, rfl⟩
  · exact .inr (.inl ⟨first, rfl⟩)
  · exact .inr (.inr (.inl ⟨first, rfl⟩))
  · exact .inr (.inr (.inr (.inl ⟨first, passString_append passed more⟩)))
  · exact .inr (.inr (.inr (.inr (.inl ⟨first, passNumber_append passed left more⟩))))
  · exact .inr (.inr (.inr (.inr (.inr ⟨first, passNumber_append passed left more⟩))))

/-- A step that leaves something is taken in the same way when more is behind. -/
theorem Step.append {stage next : Stage} {behind : List Char}
    (step : Step stage text next behind) (left : behind ≠ []) (more : List Char) :
    Step stage (text ++ more) next (behind ++ more) := by
  cases step with
  | emptyList opens closes =>
    exact .emptyList (skipSpace_append opens more) (skipSpace_append closes more)
  | list opens found other =>
    exact .list (skipSpace_append opens more) (skipSpace_append found more) other
  | emptyObject opens closes =>
    exact .emptyObject (skipSpace_append opens more) (skipSpace_append closes more)
  | object opens key => exact .object (skipSpace_append opens more) (firm_passKey key more)
  | scalar found noList noObject read =>
    exact .scalar (skipSpace_append found more) noList noObject (steady_passScalar read left more)
  | nextItem comma => exact .nextItem (skipSpace_append comma more)
  | nextMember comma key => exact .nextMember (skipSpace_append comma more) (firm_passKey key more)
  | closeList closes => exact .closeList (skipSpace_append closes more)
  | closeObject closes => exact .closeObject (skipSpace_append closes more)

/-- Passing that leaves something has something to pass. -/
theorem Passes.ne_nil {whole : List Char} {stage : Stage} (passes : Passes whole stage text rest)
    (left : rest ≠ []) : text ≠ [] := by
  cases stage with
  | value brackets =>
    obtain ⟨-, _, _, step, -⟩ := passes_value_iff.mp passes
    exact List.ne_nil_of_length_pos (Nat.zero_lt_of_lt step.shorter)
  | after brackets =>
    cases brackets with
    | nil => exact (passes_done_iff.mp passes).2 ▸ left
    | cons bracket outer =>
      obtain ⟨-, _, _, step, -⟩ := passes_after_iff.mp passes
      exact List.ne_nil_of_length_pos (Nat.zero_lt_of_lt step.shorter)

/-- All steps are taken again when more is behind, by induction on the text that is left. -/
theorem Passes.append {whole : List Char} {stage : Stage} (passes : Passes whole stage text rest)
    (left : rest ≠ []) (more : List Char) :
    Passes (whole ++ more) stage (text ++ more) (rest ++ more) := by
  induction size : text.length using Nat.strongRecOn generalizing stage text with
  | ind n induction =>
    subst size
    cases stage with
    | value brackets =>
      obtain ⟨within, next, behind, step, passes⟩ := passes_value_iff.mp passes
      exact passes_value_iff.mpr ⟨by simpa using within, next, behind ++ more,
        step.append (passes.ne_nil left) more, induction _ step.shorter passes rfl⟩
    | after brackets =>
      cases brackets with
      | nil =>
        obtain ⟨shorter, rfl⟩ := passes_done_iff.mp passes
        exact passes_done_iff.mpr ⟨by simpa using shorter, rfl⟩
      | cons bracket outer =>
        obtain ⟨shorter, next, behind, step, passes⟩ := passes_after_iff.mp passes
        exact passes_after_iff.mpr ⟨by simpa using shorter, next, behind ++ more,
          step.append (passes.ne_nil left) more, induction _ step.shorter passes rfl⟩

theorem steady_ignored : Steady ignored := by
  intro text value rest yields left more
  have passes : Passes text (.value []) text rest := ⟨_, yields⟩
  exact (passes.append left more).2

end Reader

/-! ## Records -/

namespace RecordForm

variable {form : RecordForm κ} {field : κ → σ → Reader σ}

/-- Some value or the closing bracket is there to be read. -/
theorem slots_ne_nil {whole : List Char} {first : Bool} {index : Nat} {record final : σ}
    {keys : List κ} {within : text.length ≤ whole.length}
    (yields : Yields (form.slots field whole first index record keys text within) final rest) :
    text ≠ [] := by
  have unclosed : skipSpace text = ']' :: rest → text ≠ [] := by
    rintro closed rfl
    simp [skipSpace] at closed
  cases keys with
  | nil => exact unclosed (yields_slots_nil.mp yields).1
  | cons key keys =>
    rcases yields_slots_cons.mp yields with ⟨closed, -⟩ | ⟨_, _, _, leads, -, read, -⟩
    · exact unclosed closed
    · exact leads.ne_nil read.ne_nil

/-- The values of a list end with its bracket, whatever is put behind. -/
theorem slots_append (steady : ∀ key record, Steady (field key record)) {whole : List Char}
    {first : Bool} {index : Nat} {record final : σ} {keys : List κ}
    {within : text.length ≤ whole.length}
    (yields : Yields (form.slots field whole first index record keys text within) final rest)
    (more : List Char) (reached : (text ++ more).length ≤ (whole ++ more).length) :
    Yields (form.slots field (whole ++ more) first index record keys (text ++ more) reached) final
      (rest ++ more) := by
  induction keys generalizing text first index record with
  | nil =>
    obtain ⟨closed, rfl⟩ := yields_slots_nil.mp yields
    exact yields_slots_nil.mpr ⟨skipSpace_append closed more, rfl⟩
  | cons key keys induction =>
    rcases yields_slots_cons.mp yields with ⟨closed, optional, rfl⟩ |
      ⟨front, middle, next, leads, ⟨c, tail, found, other⟩, read, bound, later⟩
    · exact yields_slots_cons.mpr (.inl ⟨skipSpace_append closed more, optional, rfl⟩)
    · exact yields_slots_cons.mpr (.inr ⟨front ++ more, middle ++ more, next,
        leads.append read.ne_nil more, ⟨c, tail ++ more, skipSpace_append found more, other⟩,
        steady key record read (slots_ne_nil later) more, by simpa using bound, induction later _⟩)

variable [DecidableEq κ]

theorem steady_member (steady : ∀ key record, Steady (field key record)) (state : σ × List κ)
    (label : String) : Steady (form.member field state label) := by
  unfold member
  split
  · exact Reader.steady_andThen Reader.firm_colon.steady fun _ =>
      Reader.steady_map Reader.steady_ignored _
  next key known =>
    split
    · intro text value rest yields
      simp at yields
    · exact Reader.steady_andThen Reader.firm_colon.steady fun _ =>
        Reader.steady_map (steady key state.1) _

theorem firm_read {fields : Option (κ → σ → Reader σ)} {blank : σ}
    (steady : ∀ field, fields = some field → ∀ key record, Steady (field key record)) :
    Firm (form.read fields blank) := by
  intro text record rest yields more
  obtain ⟨field, after, same, ⟨opens, keys, members, complete⟩ | ⟨opens, slots⟩⟩ :=
    yields_read.mp yields
  · exact yields_read.mpr ⟨field, after ++ more, same, .inl ⟨skipSpace_append opens more, keys,
      members.append (steady_member (steady field same)) more, complete⟩⟩
  · exact yields_read.mpr ⟨field, after ++ more, same, .inr ⟨skipSpace_append opens more,
      slots_append (steady field same) slots more _⟩⟩

end RecordForm

/-! ## Rules -/

theorem firm_kindName : Firm kindName := by
  intro text kind rest yields more
  obtain ⟨c, tail, rfl⟩ := List.exists_cons_of_ne_nil yields.ne_nil
  obtain ⟨name, scanned, known⟩ := yields_kindName.mp yields
  exact yields_kindName.mpr ⟨name, scanString_append scanned more, known⟩

theorem firm_kindKey : Firm kindKey := by
  refine Reader.firm_afterSpace fun text kind rest yields more => ?_
  obtain ⟨c, tail, rfl⟩ := List.exists_cons_of_ne_nil yields.ne_nil
  simp only [List.cons_append] at yields ⊢
  split at yields
  next quote => simpa [quote] using firm_kindName yields more
  next => simp at yields

theorem firm_closeSingle : Firm closeSingle := by
  refine Reader.firm_afterSpace fun text value rest yields more => ?_
  obtain ⟨c, tail, rfl⟩ := List.exists_cons_of_ne_nil yields.ne_nil
  simp only [List.cons_append] at yields ⊢
  split at yields
  next closes =>
    obtain ⟨-, rfl⟩ : _ ∧ tail = rest := yields_ok.mp yields
    simp [closes, Read.next]
  next => simp at yields

theorem firm_wrappedKind : Firm wrappedKind :=
  Reader.firm_andThen firm_kindKey.steady fun kind =>
    Reader.firm_andThen Reader.firm_colon.steady fun _ =>
      Reader.firm_andThen Reader.firm_unit.steady fun _ =>
        Reader.firm_map firm_closeSingle fun _ => kind

theorem firm_ruleKind (depth : Nat) : Firm (ruleKind depth) := by
  intro text kind rest yields more
  rcases yields_ruleKind.mp yields with ⟨after, quote, read⟩ | ⟨after, opens, deep, read⟩
  · exact yields_ruleKind.mpr (.inl ⟨after ++ more, skipSpace_append quote more,
      firm_kindName read more⟩)
  · exact yields_ruleKind.mpr (.inr ⟨after ++ more, skipSpace_append opens more, deep,
      firm_wrappedKind read more⟩)

theorem steady_looseScalar : Steady looseScalar := by
  intro text value rest yields left more
  obtain ⟨c, tail, rfl⟩ := List.exists_cons_of_ne_nil yields.ne_nil
  simp only [looseScalar, List.cons_append] at yields ⊢
  -- Which reader is chosen depends on the first character alone.
  split at yields
  next null => rw [if_pos null]; exact Reader.firm_word _ _ yields more
  next notNull =>
    rw [if_neg notNull]
    split at yields
    next true => rw [if_pos true]; exact Reader.firm_word _ _ yields more
    next notTrue =>
      rw [if_neg notTrue]
      split at yields
      next false => rw [if_pos false]; exact Reader.firm_word _ _ yields more
      next notFalse =>
        rw [if_neg notFalse]
        split at yields
        next number =>
          rw [if_pos number]
          exact Reader.steady_map Reader.steady_number _ yields left more
        next notNumber =>
          rw [if_neg notNumber]
          split at yields
          next quote => rw [if_pos quote]; exact Reader.firm_map Reader.firm_quoted _ yields more
          next => simp at yields

/-- A value of any form is steady when those inside it are. -/
theorem steady_loose_of_inner {depth : Nat}
    (steady : ∀ inner, depth = inner + 1 → Steady (loose inner)) : Steady (loose depth) := by
  intro text value rest yields left more
  rcases yields_loose.mp yields with ⟨inner, after, deep, opens, rfl, values, elements⟩ |
    ⟨inner, after, deep, opens, members⟩ | ⟨plain, read⟩
  · exact yields_loose.mpr (.inl ⟨inner, after ++ more, deep, skipSpace_append opens more, rfl,
      values, elements.append (steady inner deep) more⟩)
  · have steady (kept : Loose) (key : String) : Steady (looseMember inner kept key) :=
      Reader.steady_andThen Reader.firm_colon.steady fun _ =>
        Reader.steady_map (steady inner deep) _
    exact yields_loose.mpr (.inr (.inl ⟨inner, after ++ more, deep, skipSpace_append opens more,
      members.append steady more⟩))
  · obtain ⟨c, tail, found⟩ := List.exists_cons_of_ne_nil read.ne_nil
    have again := skipSpace_append found more
    refine yields_loose.mpr (.inr (.inr ⟨fun after => ?_, ?_⟩))
    · have head : c ≠ '[' ∧ c ≠ '\x7b' := by simpa [found] using plain tail
      simp [again, head]
    · rw [again, ← List.cons_append, ← found]
      exact steady_looseScalar read left more

/-- Values of any form are steady, by induction on the brackets that may be opened. -/
theorem steady_loose (depth : Nat) : Steady (loose depth) := by
  induction depth with
  | zero => exact steady_loose_of_inner fun inner same => by contradiction
  | succ depth induction =>
    exact steady_loose_of_inner fun inner same => Nat.succ.inj same ▸ induction

theorem steady_ruleValue (depth : Nat) : Steady (ruleValue depth) := by
  intro text value rest yields left more
  obtain ⟨loosely, read, known⟩ := yields_ruleValue.mp yields
  exact yields_ruleValue.mpr ⟨loosely, steady_loose depth read left more, known⟩

theorem steady_ruleField {depth : Nat} {content : Reader Rule} {members : Option (Reader Rule)}
    (firmContent : Firm content) (firmMembers : ∀ reader, members = some reader → Firm reader)
    (key : RuleKey) (rule : Rule) : Steady (ruleField depth content members key rule) := by
  have text : Steady (Reader.optional Reader.string) :=
    Reader.steady_optional Reader.firm_string.steady
  cases key with
  | kind => exact (Reader.firm_map (firm_ruleKind depth) _).steady
  | value => exact Reader.steady_map (Reader.steady_optional (steady_ruleValue depth)) _
  | name | flags | contextName => exact Reader.steady_map text _
  | content => exact Reader.steady_map (Reader.steady_optional firmContent.steady) _
  | members =>
    exact (Reader.firm_map (Reader.firm_list fun reader same => (firmMembers reader same).steady)
      _).steady
  | named => exact Reader.steady_map (Reader.steady_optional Reader.firm_boolean.steady) _

/-- Rules are firm, by induction on the brackets that may be opened. -/
theorem firm_rule (depth : Nat) : Firm (rule depth) := by
  induction depth using Nat.strongRecOn with
  | ind depth induction =>
    match depth, induction with
    | 0, _ => exact RecordForm.firm_read fun field none => by contradiction
    | 1, induction =>
      refine RecordForm.firm_read fun field same key rule => ?_
      cases same
      exact steady_ruleField (induction 0 Nat.zero_lt_one) (fun _ none => by contradiction) key rule
    | inner + 2, induction =>
      refine RecordForm.firm_read fun field same key rule => ?_
      cases same
      refine steady_ruleField (induction (inner + 1) (Nat.lt_succ_self _)) ?_ key rule
      rintro reader ⟨⟩
      exact induction inner (Nat.lt_add_of_pos_right Nat.zero_lt_two)

/-! ## Grammars -/

theorem steady_grammarField (key : GrammarKey) (grammar : Grammar) :
    Steady (grammarField key grammar) := by
  have text : Steady (Reader.optional Reader.string) :=
    Reader.steady_optional Reader.firm_string.steady
  have list {α : Type} {item : Reader α} (firm : Firm item) : Firm (Reader.list (some item)) :=
    Reader.firm_list fun reader same => Option.some.inj same ▸ firm.steady
  have table {α : Type} {value : Reader α} (firm : Firm value) : Firm (table (some value)) :=
    Reader.firm_map (Reader.firm_bindings fun reader same => Option.some.inj same ▸ firm.steady) _
  cases key with
  | schema | inherits | word => exact Reader.steady_map text _
  | name => exact (Reader.firm_map Reader.firm_string _).steady
  | rules => exact (Reader.firm_map (table (firm_rule _)) _).steady
  | extras | externals => exact (Reader.firm_map (list (firm_rule _)) _).steady
  | inline | supertypes => exact (Reader.firm_map (list Reader.firm_string) _).steady
  | precedences => exact (Reader.firm_map (list (list (firm_rule _))) _).steady
  | conflicts => exact (Reader.firm_map (list (list Reader.firm_string)) _).steady
  | reserved => exact (Reader.firm_map (table (list (firm_rule _))) _).steady

/-- A grammar ends with its bracket, whatever is put behind. -/
theorem firm_grammar : Firm grammar := by
  apply RecordForm.firm_read
  rintro field ⟨⟩
  exact steady_grammarField

/-! ## Cut documents -/

/-- When a document is accepted, only spaces can be put behind it. -/
theorem readAll_append {reader : Reader α} (firm : Firm reader) {kept : String} {value : α}
    (accepted : readAll reader kept = .ok value) (removed : String) :
    readAll reader (kept ++ removed) =
      if (skipSpace removed.toList).isEmpty then .ok value else .error .trailingText := by
  obtain ⟨rest, yields, spaces⟩ := yields_of_readAll accepted
  have again := firm yields removed.toList
  rw [← String.toList_append] at again
  rw [readAll_of_yields again, skipSpace_append_of_spaces spaces]

/-- No document that breaks off describes a grammar. When a grammar document is cut at any
place, and more than spaces is lost, what is kept cannot be read, and no language comes
from it under any name. -/
theorem truncated_grammar_is_malformed [Matcher] {kept removed : String} {grammar : Grammar}
    {c : Char} (accepted : readGrammar (kept ++ removed) = .ok grammar) (lost : c ∈ removed.toList)
    (solid : isSpace c = false) :
    ∃ fault, readGrammar kept = .error fault ∧
      ∀ expected, (Language.ofText expected kept).value = .error (.malformed fault) := by
  cases known : readGrammar kept with
  | error fault =>
    refine ⟨fault, rfl, fun expected => ?_⟩
    simp [Language.ofText, known]
  | ok shorter =>
    -- The whole document would be read to the cut and have trailing text there.
    have whole := readAll_append firm_grammar known removed
    rw [if_neg (by simpa using skipSpace_ne_nil_of_mem lost solid)] at whole
    exact absurd (accepted.symm.trans whole) (by simp)

/-- A cut inside a number of a member that is passed over leaves nothing to be read. -/
theorem grammar_cut_inside_number_is_malformed :
    let kept := "\x7b\"name\": \"ivy\", \"rules\": \x7b\x7d, \"note\": [1, 2"
    (readGrammar (kept ++ "0]\x7d")).isOk = true ∧
      ∃ fault, readGrammar kept = .error fault ∧
        ∀ expected, (Language.ofText expected kept).value = .error (.malformed fault) := by
  intro kept
  have accepted : (readGrammar (kept ++ "0]\x7d")).isOk = true := by decide +kernel
  refine ⟨accepted, ?_⟩
  cases read : readGrammar (kept ++ "0]\x7d") with
  | error fault => simp [read, Except.isOk, Except.toBool] at accepted
  | ok grammar =>
    have lost : ']' ∈ "0]\x7d".toList := by decide
    exact truncated_grammar_is_malformed read lost (by decide)

end GrammarArtifact.Document
