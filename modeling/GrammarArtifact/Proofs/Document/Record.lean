import GrammarArtifact.Proofs.Document.Reading

/-!
# What readers of records yield

Records, and the two readers of rules that are no records: that of kinds and that of
values of any form. As with the readers that they are made of, one equivalence says of
each which characters it takes.
-/

namespace GrammarArtifact.Document

variable {κ σ : Type} {text rest : List Char}

namespace RecordForm

/-- A list in which every key has its value ends with its bracket. -/
theorem yields_close : Yields (close text) () rest ↔ skipSpace text = ']' :: rest := by
  unfold close
  rw [Reader.yields_afterSpace]
  generalize skipSpace text = front
  split
  next => simp
  next after => simp [Read.next]
  next => split <;> simp
  next other _ => simpa using fun found => other _ found

variable {form : RecordForm κ} {field : κ → σ → Reader σ}

/-- Behind the values of all keys a list is closed. -/
theorem yields_slots_nil {whole : List Char} {first : Bool} {index : Nat} {record final : σ}
    {within : text.length ≤ whole.length} :
    Yields (form.slots field whole first index record [] text within) final rest ↔
      skipSpace text = ']' :: rest ∧ record = final := by
  unfold slots
  rw [← yields_close]
  cases close text with
  | error => simp
  | ok read => simp [Read.map, Read.widen, and_comm]

/-- Before the value of a key a list is closed, if it can do without, or has the value. -/
theorem yields_slots_cons {whole : List Char} {first : Bool} {index : Nat} {record final : σ}
    {key : κ} {keys : List κ} {within : text.length ≤ whole.length} :
    Yields (form.slots field whole first index record (key :: keys) text within) final rest ↔
      (skipSpace text = ']' :: rest ∧ (key :: keys).findIdx? form.required = none ∧
          record = final) ∨
        ∃ front middle next, Reader.Leads first text front ∧
          (∃ c tail, skipSpace front = c :: tail ∧ c ≠ ']') ∧
            Yields (field key record front) next middle ∧
              ∃ within, Yields (form.slots field whole false (index + 1) next keys middle within)
                final rest := by
  rw [slots]
  constructor
  · intro yields
    split at yields
    · simp at yields
    next found =>
      split at yields
      · simp at yields
      next optional =>
        obtain ⟨rfl, rfl⟩ := yields_ok.mp yields
        exact .inl ⟨Reader.nextItem_eq_close_iff.mp ⟨_, found⟩, optional, rfl⟩
    next front bound found =>
      split at yields
      · simp at yields
      next read done =>
        obtain ⟨leads, opens⟩ := Reader.nextItem_eq_item_iff.mp ⟨_, found⟩
        exact .inr ⟨front, read.rest, read.value, leads, opens, yields_of_eq_ok done, _, yields⟩
  · rintro (⟨closed, optional, rfl⟩ | ⟨front, middle, next, leads, opens, ⟨_, done⟩, _, later⟩)
    · obtain ⟨_, found⟩ : ∃ shorter, Reader.nextItem first text = .ok (.close rest shorter) :=
        Reader.nextItem_eq_close_iff.mpr closed
      simp [found, optional]
    · obtain ⟨_, found⟩ := Reader.nextItem_eq_item_iff.mpr ⟨leads, opens⟩
      simpa [found, done] using later

variable [DecidableEq κ] {state next : σ × List κ} {label : String}

/-- The member of an unknown key is passed over. -/
theorem yields_member_of_unknown (unknown : form.key? label = none) :
    Yields (form.member field state label text) next rest ↔
      ∃ middle, skipSpace text = ':' :: middle ∧ Yields (Reader.ignored middle) () rest ∧
        state = next := by
  unfold member
  simp only [unknown, Reader.yields_andThen, Reader.yields_map]
  constructor
  · rintro ⟨⟨⟩, middle, colon, ⟨⟨⟩, passed, same⟩⟩
    exact ⟨middle, Reader.yields_colon.mp colon, passed, same⟩
  · rintro ⟨middle, colon, passed, same⟩
    exact ⟨(), middle, Reader.yields_colon.mpr colon, (), passed, same⟩

/-- The member of a key is read once. -/
theorem yields_member_of_key {key : κ} (known : form.key? label = some key) :
    Yields (form.member field state label text) next rest ↔
      key ∉ state.2 ∧ ∃ middle value, skipSpace text = ':' :: middle ∧
        Yields (field key state.1 middle) value rest ∧ (value, key :: state.2) = next := by
  unfold member
  simp only [known]
  split
  next repeated => simp [repeated]
  next fresh =>
    simp only [Reader.yields_andThen, Reader.yields_map]
    constructor
    · rintro ⟨⟨⟩, middle, colon, value, read, same⟩
      exact ⟨fresh, middle, value, Reader.yields_colon.mp colon, read, same⟩
    · rintro ⟨-, middle, value, colon, read, same⟩
      exact ⟨(), middle, Reader.yields_colon.mpr colon, value, read, same⟩

/-- A record is an object with every required key, or a list of values. -/
theorem yields_read {fields : Option (κ → σ → Reader σ)} {blank record : σ} :
    Yields (form.read fields blank text) record rest ↔
      ∃ field after, fields = some field ∧
        ((skipSpace text = '\x7b' :: after ∧ ∃ keys,
            Reader.Members (form.member field) true (blank, []) after (record, keys) rest ∧
              ∀ key ∈ form.keys, form.required key = true → key ∈ keys) ∨
          skipSpace text = '[' :: after ∧
            Yields (form.slots field after true 0 blank form.keys after
              (Text.length_le_self after)) record rest) := by
  unfold read
  rw [Reader.yields_afterSpace]
  generalize skipSpace text = front
  split
  next after =>
    cases fields with
    | none => simp
    | some field =>
      simp only [Option.some.injEq, List.cons.injEq, Char.reduceEq, false_and, or_false, true_and]
      constructor
      · intro yields
        split at yields
        · simp at yields
        next done read =>
          split at yields
          · simp at yields
          next complete =>
            obtain ⟨rfl, rfl⟩ : done.value.1 = record ∧ done.rest = rest := by
              simpa [Read.behind, Read.widen, Read.map] using yields
            refine ⟨field, after, rfl, rfl, done.value.2,
              Reader.yields_members.mp (yields_of_eq_ok read), fun key listed required => ?_⟩
            simpa [required] using List.find?_eq_none.mp complete key listed
      · rintro ⟨_, _, rfl, rfl, keys, rounds, complete⟩
        obtain ⟨_, read⟩ := rounds.yields after (Text.length_le_self after)
        have found : form.keys.find? (fun key => form.required key && key ∉ keys) = none := by
          simpa using complete
        simp only [read, found]
        exact yields_ok.mpr ⟨rfl, rfl⟩
  next after =>
    cases fields with
    | none => simp
    | some field => simp
  next notObject notList =>
    have noObject (after : List Char) : front ≠ '\x7b' :: after := notObject after
    have noList (after : List Char) : front ≠ '[' :: after := notList after
    simp [noObject, noList]

end RecordForm

/-- Every key of a rule is found by its label. -/
theorem key?_label_ruleForm (key : RuleKey) : ruleForm.key? (ruleForm.label key) = some key := by
  cases key <;> decide

/-- Every key of a grammar is found by its label. -/
theorem key?_label_grammarForm (key : GrammarKey) :
    grammarForm.key? (grammarForm.label key) = some key := by
  cases key <;> decide

/-! ## Kinds -/

/-- The name of a kind is a string that names one. -/
theorem yields_kindName {kind : RuleKind} {c : Char} :
    Yields (kindName (c :: text)) kind rest ↔
      ∃ name, scanString [] text = .ok (name, rest) ∧ RuleKind.ofTag? name = some kind := by
  simp only [← Reader.yields_quoted (c := c)]
  unfold kindName
  cases Reader.quoted (c :: text) with
  | error => simp
  | ok read =>
    simp only [yields_ok]
    constructor
    · intro yields
      split at yields
      next known =>
        obtain ⟨rfl, rfl⟩ := yields_ok.mp yields
        exact ⟨read.value, ⟨rfl, rfl⟩, known⟩
      next => simp at yields
    · rintro ⟨_, ⟨rfl, rfl⟩, known⟩
      simp [known, Read.map]

/-- The members behind the brace of a kind that is written as an object. -/
def wrappedKind : Reader RuleKind :=
  Reader.andThen kindKey fun kind =>
    Reader.andThen Reader.colon fun _ =>
      Reader.andThen Reader.unit fun _ => Reader.map (fun _ => kind) closeSingle

/-- A kind is a name, or an object that holds one. -/
theorem yields_ruleKind {depth : Nat} {kind : RuleKind} :
    Yields (ruleKind depth text) kind rest ↔
      (∃ after, skipSpace text = '"' :: after ∧ Yields (kindName ('"' :: after)) kind rest) ∨
        ∃ after, skipSpace text = '\x7b' :: after ∧ depth ≠ 0 ∧
          Yields (wrappedKind after) kind rest := by
  unfold ruleKind
  rw [Reader.yields_afterSpace]
  generalize skipSpace text = front
  split
  next => simp
  next after => simp
  next after =>
    simp only [List.cons.injEq, Char.reduceEq, false_and, exists_false, false_or, true_and]
    split
    next exhausted => simp [exhausted]
    next left =>
      simp only [true_and, exists_eq_left', ne_eq, left, not_false_eq_true]
      constructor
      · intro yields
        split at yields
        · simp at yields
        next read done =>
          obtain ⟨rfl, rfl⟩ := yields_ok.mp yields
          exact yields_of_eq_ok done
      · rintro ⟨_, done⟩
        rw [wrappedKind] at done
        simp [done, Read.behind, Read.widen]
  next noName noObject =>
    have unnamed (after : List Char) : front ≠ '"' :: after := noName after
    have unopened (after : List Char) : front ≠ '\x7b' :: after := noObject after
    simp [unnamed, unopened]

/-! ## Values of any form -/

/-- Read a value of any form that holds no other. -/
def looseScalar : Reader Loose
  | [] => .error .valueExpected
  | c :: rest =>
    if c = 'n' then Reader.word ['u', 'l', 'l'] .other (c :: rest)
    else if c = 't' then Reader.word ['r', 'u', 'e'] .other (c :: rest)
    else if c = 'f' then Reader.word ['a', 'l', 's', 'e'] .other (c :: rest)
    else if c = '-' || isDigit c then Reader.map .number Reader.number (c :: rest)
    else if c = '"' then Reader.map .string Reader.quoted (c :: rest)
    else .error .valueExpected

/-- Read a member of an object of any form. Nothing of it is kept. -/
def looseMember (depth : Nat) (kept : Loose) (_ : String) : Reader Loose :=
  Reader.andThen Reader.colon fun _ => Reader.map (fun _ => kept) (loose depth)

/-- A value of any form is a list, an object or a scalar. -/
theorem yields_loose {depth : Nat} {value : Loose} :
    Yields (loose depth text) value rest ↔
      (∃ inner after, depth = inner + 1 ∧ skipSpace text = '[' :: after ∧
          value = .other ∧ ∃ values, Reader.Elements (loose inner) true after values rest) ∨
        (∃ inner after, depth = inner + 1 ∧ skipSpace text = '\x7b' :: after ∧
          Reader.Members (looseMember inner) true .other after value rest) ∨
        (∀ after, skipSpace text ≠ '[' :: after ∧ skipSpace text ≠ '\x7b' :: after) ∧
          Yields (looseScalar (skipSpace text)) value rest := by
  unfold loose
  rw [Reader.yields_afterSpace]
  generalize skipSpace text = front
  split
  next => simp [looseScalar]
  next after =>
    cases depth with
    | zero => simp
    | succ inner =>
      constructor
      · intro yields
        refine .inl ⟨inner, after, rfl, rfl, ?_⟩
        dsimp only at yields
        split at yields
        · simp at yields
        next read done =>
          obtain ⟨rfl, rfl⟩ := yields_ok.mp yields
          exact ⟨rfl, read.value, Reader.yields_items.mp (yields_of_eq_ok done)⟩
      · rintro (⟨_, _, same, opens, rfl, values, elements⟩ | ⟨_, _, _, opens, _⟩ | ⟨other, _⟩)
        · cases same
          cases opens
          obtain ⟨_, done⟩ := elements.yields after [] (Text.length_le_self after)
          simp [done, Read.behind, Read.widen, Read.map]
        · simp at opens
        · exact absurd rfl (other after).1
  next after =>
    cases depth with
    | zero => simp
    | succ inner =>
      dsimp only
      rw [yields_map_behind]
      constructor
      · exact fun yields => .inr (.inl ⟨inner, after, rfl, rfl, Reader.yields_members.mp yields⟩)
      · rintro (⟨_, _, _, opens, _⟩ | ⟨_, _, same, opens, rounds⟩ | ⟨other, _⟩)
        · simp at opens
        · cases same
          cases opens
          exact rounds.yields after (Text.length_le_self after)
        · exact absurd rfl (other after).2
  next c tail noList noObject =>
    have noList : c ≠ '[' := noList
    have noObject : c ≠ '\x7b' := noObject
    simp [noList, noObject, looseScalar]

/-- A rule value is a value of any form that stands for one. -/
theorem yields_ruleValue {depth : Nat} {value : RuleValue} :
    Yields (ruleValue depth text) value rest ↔
      ∃ loosely, Yields (loose depth text) loosely rest ∧ ruleValue? loosely = some value := by
  unfold ruleValue
  cases loose depth text with
  | error => simp
  | ok read =>
    simp only [yields_ok]
    constructor
    · intro yields
      split at yields
      next known =>
        obtain ⟨rfl, rfl⟩ := yields_ok.mp yields
        exact ⟨read.value, ⟨rfl, rfl⟩, known⟩
      next => simp at yields
    · rintro ⟨_, ⟨rfl, rfl⟩, known⟩
      simp [known, Read.map]

end GrammarArtifact.Document
