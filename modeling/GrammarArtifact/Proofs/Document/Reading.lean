import GrammarArtifact.Document.Grammar
import GrammarArtifact.Proofs.Document.Scan

/-!
# What readers yield

A reader returns a value, the text that it leaves and a bound on that text. Here the bound
is forgotten: `Yields` relates a result to its value and its rest, and every reader is
described by one equivalence that names the characters which it takes. Lists and objects
are described by inductive relations whose constructors are the rounds of their loops.
Failing readers yield nothing, so these lemmas say nothing about faults.
-/

namespace GrammarArtifact.Document

variable {α β κ σ : Type}

/-! ## Yielding -/

/-- A result holds a value and leaves a rest of the text. -/
def Yields {text : List Char} (result : Except Fault (Read α text)) (value : α)
    (rest : List Char) : Prop :=
  ∃ shorter, result = .ok ⟨value, rest, shorter⟩

variable {text rest : List Char} {value : α}

/-- What is left after a value is shorter than the text. -/
theorem Yields.shorter {result : Except Fault (Read α text)} (yields : Yields result value rest) :
    rest.length < text.length :=
  yields.1

/-- Something is read from a text that is not empty. -/
theorem Yields.ne_nil {result : Except Fault (Read α text)} (yields : Yields result value rest) :
    text ≠ [] :=
  List.ne_nil_of_length_pos (Nat.zero_lt_of_lt yields.shorter)

@[simp]
theorem not_yields_error {fault : Fault} :
    ¬ Yields (.error fault : Except Fault (Read α text)) value rest := by
  rintro ⟨_, same⟩
  contradiction

@[simp]
theorem yields_ok {read : Read α text} :
    Yields (.ok read) value rest ↔ read.value = value ∧ read.rest = rest := by
  constructor
  · rintro ⟨_, same⟩
    obtain rfl := Except.ok.inj same
    exact ⟨rfl, rfl⟩
  · rintro ⟨rfl, rfl⟩
    exact ⟨read.shorter, rfl⟩

/-- Every value that has been read is yielded. -/
theorem yields_of_eq_ok {result : Except Fault (Read α text)} {read : Read α text}
    (done : result = .ok read) : Yields result read.value read.rest := by
  rw [done, yields_ok]
  exact ⟨rfl, rfl⟩

/-- A bound that is widened leaves the value and the rest alone. -/
@[simp]
theorem yields_map_behind {result : Except Fault (Read α text)} {c : Char} :
    Yields (result.map (Read.behind (c := c))) value rest ↔ Yields result value rest := by
  cases result with
  | error => simp [Except.map]
  | ok read => simp [Except.map, Read.behind, Read.widen]

namespace Reader

/-- A changed value is the change of the value that is read. -/
theorem yields_map {reader : Reader α} {f : α → β} {changed : β} :
    Yields (map f reader text) changed rest ↔
      ∃ value, Yields (reader text) value rest ∧ f value = changed := by
  unfold map
  cases reader text with
  | error => simp
  | ok read =>
    simp only [yields_ok, Read.map]
    constructor
    · rintro ⟨same, rfl⟩
      exact ⟨read.value, ⟨rfl, rfl⟩, same⟩
    · rintro ⟨value, ⟨rfl, rfl⟩, same⟩
      exact ⟨same, rfl⟩

/-- Two values are read one behind the other. -/
theorem yields_andThen {first : Reader α} {second : α → Reader β} {value : β} :
    Yields (andThen first second text) value rest ↔
      ∃ front middle, Yields (first text) front middle ∧
        Yields (second front middle) value rest := by
  unfold andThen
  cases first text with
  | error => simp
  | ok read =>
    simp only [yields_ok]
    constructor
    · intro yields
      refine ⟨read.value, read.rest, ⟨rfl, rfl⟩, ?_⟩
      cases done : second read.value read.rest with
      | error => simp [done] at yields
      | ok next => simpa [done, Read.widen] using yields
    · rintro ⟨_, _, ⟨rfl, rfl⟩, yields⟩
      cases done : second read.value read.rest with
      | error => simp [done] at yields
      | ok next => simpa [done, Read.widen] using yields

/-- Spaces in front of a value are skipped. -/
theorem yields_afterSpace {reader : Reader α} :
    Yields (afterSpace reader text) value rest ↔ Yields (reader (skipSpace text)) value rest := by
  unfold afterSpace
  cases reader (skipSpace text) with
  | error => simp
  | ok read => simp [Read.widen]

/-- A word is read letter by letter. -/
theorem yields_word {letters : List Char} {meant : α} {c : Char} :
    Yields (word letters meant (c :: text)) value rest ↔
      text = letters ++ rest ∧ meant = value := by
  rw [← scanWord_eq_ok_iff]
  simp only [word]
  split
  next passed => simp [passed]
  next passed => simp [passed, and_comm]

/-- A string is scanned from behind its quote. -/
theorem yields_quoted {string : String} {c : Char} :
    Yields (quoted (c :: text)) string rest ↔ scanString [] text = .ok (string, rest) := by
  simp only [quoted]
  split
  next scanned => simp [scanned]
  next scanned => simp [scanned]

/-- A number is scanned, and its text has a value. -/
theorem yields_digits {negative : Bool} {value : Number} :
    Yields (digits negative text) value rest ↔
      ∃ number, scanNumber negative text = .ok (number, rest) ∧ number.value? = some value := by
  unfold digits
  split
  next scanned => simp [scanned]
  next number after scanned =>
    split
    next unknown =>
      simp only [not_yields_error, scanned, false_iff, not_exists, not_and]
      rintro _ same known
      obtain ⟨rfl, -⟩ : number = _ ∧ after = rest := by simpa using same
      rw [unknown] at known
      contradiction
    next found known =>
      simp only [yields_ok, scanned]
      constructor
      · rintro ⟨rfl, rfl⟩
        exact ⟨number, rfl, known⟩
      · rintro ⟨_, same, known'⟩
        obtain ⟨rfl, rfl⟩ : number = _ ∧ after = rest := by simpa using same
        exact ⟨Option.some.inj (known.symm.trans known'), rfl⟩

/-- A number is scanned from behind its sign, if there is one. -/
theorem yields_number {value : Number} :
    Yields (number text) value rest ↔
      (∃ after, text = '-' :: after ∧ Yields (digits true after) value rest) ∨
        (∀ after, text ≠ '-' :: after) ∧ Yields (digits false text) value rest := by
  unfold number
  split
  next after => simp
  next unsigned =>
    have plain (after : List Char) : text ≠ '-' :: after := fun same => unsigned after same
    simp [plain]

/-- A string begins with a quote. -/
theorem yields_string {value : String} :
    Yields (string text) value rest ↔
      ∃ after, skipSpace text = '"' :: after ∧ scanString [] after = .ok (value, rest) := by
  unfold string
  rw [yields_afterSpace]
  generalize skipSpace text = front
  split
  next after => simp [yields_quoted]
  next unquoted => simpa using fun after found _ => unquoted after found

/-- A boolean is one of two words. -/
theorem yields_boolean {value : Bool} :
    Yields (boolean text) value rest ↔
      skipSpace text = 't' :: 'r' :: 'u' :: 'e' :: rest ∧ value = true ∨
        skipSpace text = 'f' :: 'a' :: 'l' :: 's' :: 'e' :: rest ∧ value = false := by
  unfold boolean
  rw [yields_afterSpace]
  generalize skipSpace text = front
  split
  next after => simp [yields_word, eq_comm (a := true)]
  next after => simp [yields_word, eq_comm (a := false)]
  next notTrue notFalse =>
    have (tail : List Char) : front ≠ 't' :: tail := fun found => notTrue tail found
    have (tail : List Char) : front ≠ 'f' :: tail := fun found => notFalse tail found
    simp [*]

/-- The only value of the unit is `null`. -/
theorem yields_unit :
    Yields (unit text) () rest ↔ skipSpace text = 'n' :: 'u' :: 'l' :: 'l' :: rest := by
  unfold unit
  rw [yields_afterSpace]
  generalize skipSpace text = front
  split
  next after => simp [yields_word]
  next other => simpa using fun found => other _ found

/-- No value is written `null`, and no value begins like that. -/
theorem yields_optional {reader : Reader α} {value : Option α} :
    Yields (optional reader text) value rest ↔
      skipSpace text = 'n' :: 'u' :: 'l' :: 'l' :: rest ∧ value = none ∨
        (∀ tail, skipSpace text ≠ 'n' :: tail) ∧
          ∃ known, Yields (reader (skipSpace text)) known rest ∧ some known = value := by
  unfold optional
  rw [yields_afterSpace]
  generalize skipSpace text = front
  split
  next after => simp [yields_word, eq_comm]
  next other =>
    have absent (tail : List Char) : front ≠ 'n' :: tail := fun found => other tail found
    simp [yields_map, absent]

/-- A colon is a single character. -/
theorem yields_colon : Yields (colon text) () rest ↔ skipSpace text = ':' :: rest := by
  unfold colon
  rw [yields_afterSpace]
  generalize skipSpace text = front
  split
  next after => simp [Read.next]
  next => simp
  next other _ => simpa using fun same => other _ same

/-! ## Lists -/

/-- The text of the next element or key stands at the front, behind a comma unless it is
the first. -/
def Leads : Bool → List Char → List Char → Prop
  | true, text, front => skipSpace text = front
  | false, text, front => skipSpace text = ',' :: front

/-- A list is closed by its bracket. -/
theorem nextItem_eq_close_iff {first : Bool} :
    (∃ shorter, nextItem first text = .ok (.close rest shorter)) ↔
      skipSpace text = ']' :: rest := by
  unfold nextItem
  split
  next found => simp [found]
  next c tail found =>
    simp only [found, List.cons.injEq]
    split
    next closing =>
      constructor
      · rintro ⟨_, same⟩
        exact ⟨closing, by simpa using same⟩
      · rintro ⟨-, rfl⟩
        exact ⟨length_lt_of_skipSpace found, rfl⟩
    next other =>
      simp only [other, false_and, iff_false, not_exists]
      intro _ same
      split at same
      · simp at same
      · split at same
        · split at same <;> simp at same
        · simp at same

/-- An element follows when there is some text for it that is not the closing bracket. -/
theorem nextItem_eq_item_iff {first : Bool} {front : List Char} :
    (∃ within, nextItem first text = .ok (.item front within)) ↔
      Leads first text front ∧ ∃ c tail, skipSpace front = c :: tail ∧ c ≠ ']' := by
  unfold nextItem
  split
  next found =>
    cases first with
    | true =>
      simp only [reduceCtorEq, exists_false, Leads, found, false_iff, not_and, not_exists]
      rintro rfl c tail same
      simp [skipSpace] at same
    | false => simp [Leads, found]
  next c tail found =>
    have bound := length_lt_of_skipSpace found
    cases first with
    | true =>
      have still : skipSpace (c :: tail) = c :: tail := by rw [← found, skipSpace_skipSpace]
      by_cases closing : c = ']'
      · simp only [closing, if_true, reduceCtorEq, Except.ok.injEq, exists_false, Leads, found,
          false_iff, not_and, not_exists]
        rintro rfl d later same
        rw [← closing, still] at same
        exact fun other => other ((List.cons.inj same).1.symm.trans closing)
      · simp only [closing, if_false, if_true, Except.ok.injEq, NextItem.item.injEq, Leads, found]
        constructor
        · rintro ⟨_, rfl⟩
          exact ⟨rfl, c, tail, still, closing⟩
        · rintro ⟨rfl, -⟩
          exact ⟨bound, rfl⟩
    | false =>
      simp only [Leads, found, List.cons.injEq, Bool.false_eq_true, if_false]
      split
      next closing => simp [closing]
      next other =>
        split
        next comma =>
          subst comma
          split
          next ends =>
            simp only [reduceCtorEq, exists_false, true_and, false_iff, not_and]
            rintro rfl
            simp [ends]
          next closing =>
            simp only [reduceCtorEq, exists_false, true_and, false_iff, not_and]
            rintro rfl
            simp [closing]
          next notNil notClosing =>
            simp only [Except.ok.injEq, NextItem.item.injEq, true_and]
            constructor
            · rintro ⟨_, rfl⟩
              refine ⟨rfl, ?_⟩
              cases opens : skipSpace tail with
              | nil => exact absurd opens notNil
              | cons d later => exact ⟨d, later, rfl, fun same => notClosing later (same ▸ opens)⟩
            · rintro ⟨rfl, -⟩
              exact ⟨Nat.le_of_lt bound, rfl⟩
        next noComma => simp [noComma]

/-- The elements of a list from some point on, up to its closing bracket. -/
inductive Elements (item : Reader α) : Bool → List Char → List α → List Char → Prop
  | close {first : Bool} {text rest : List Char} (closed : skipSpace text = ']' :: rest) :
      Elements item first text [] rest
  | item {first : Bool} {text front middle rest : List Char} {value : α} {values : List α}
      (leads : Leads first text front)
      (opens : ∃ c tail, skipSpace front = c :: tail ∧ c ≠ ']')
      (yields : Yields (item front) value middle)
      (later : Elements item false middle values rest) :
      Elements item first text (value :: values) rest

/-- The loop over the elements of a list goes through its rounds. -/
theorem Elements.yields {item : Reader α} {first : Bool} {text rest : List Char}
    {values : List α} (elements : Elements item first text values rest) (whole : List Char)
    (before : List α) (within : text.length ≤ whole.length) :
    Yields (items item whole first before text within) (before.reverse ++ values) rest := by
  induction elements generalizing before with
  | @close first text rest closed =>
    obtain ⟨shorter, next⟩ : ∃ shorter, nextItem first text = .ok (.close rest shorter) :=
      nextItem_eq_close_iff.mpr closed
    unfold items
    simp [next]
  | item leads opens read _ induction =>
    obtain ⟨bound, next⟩ := nextItem_eq_item_iff.mpr ⟨leads, opens⟩
    obtain ⟨shorter, done⟩ := read
    unfold items
    simpa [next, done] using induction (_ :: before) _

/-- A loop over elements that ends has put them behind those read before. -/
theorem elements_of_yields_items {item : Reader α} {whole : List Char} {first : Bool}
    {before all : List α} {within : text.length ≤ whole.length}
    (yields : Yields (items item whole first before text within) all rest) :
    ∃ values, Elements item first text values rest ∧ before.reverse ++ values = all := by
  fun_induction items item whole first before text within with
  | case1 => simp at yields
  | case2 first before text within after shorter next =>
    obtain ⟨rfl, rfl⟩ := yields_ok.mp yields
    exact ⟨[], .close (nextItem_eq_close_iff.mp ⟨shorter, next⟩), List.append_nil _⟩
  | case3 => simp at yields
  | case4 first before text within front bound next read done shorter induction =>
    obtain ⟨values, later, rfl⟩ := induction yields
    obtain ⟨leads, opens⟩ := nextItem_eq_item_iff.mp ⟨bound, next⟩
    exact ⟨read.value :: values, .item leads opens (yields_of_eq_ok done) later, by simp⟩

/-- The loop over the elements of a list is described by them. -/
theorem yields_items {item : Reader α} {whole : List Char} {first : Bool} {values : List α}
    {within : text.length ≤ whole.length} :
    Yields (items item whole first [] text within) values rest ↔
      Elements item first text values rest := by
  constructor
  · intro yields
    obtain ⟨_, elements, rfl⟩ := elements_of_yields_items yields
    exact elements
  · exact fun elements => elements.yields whole [] within

/-- A list is a bracket with elements behind it. -/
theorem yields_list {item : Option (Reader α)} {values : List α} :
    Yields (list item text) values rest ↔
      ∃ reader after, item = some reader ∧ skipSpace text = '[' :: after ∧
        Elements reader true after values rest := by
  unfold list
  rw [yields_afterSpace]
  generalize skipSpace text = front
  split
  next after =>
    cases item with
    | none => simp
    | some reader => simp [yields_items]
  next other => simpa using fun _ _ after found _ => other after found

/-! ## Objects -/

/-- A closed object has no next key. -/
theorem yields_nextKey_none {first : Bool} :
    Yields (nextKey first text) none rest ↔ skipSpace text = '\x7d' :: rest := by
  unfold nextKey
  rw [yields_afterSpace]
  generalize skipSpace text = front
  split
  next => simp
  next c tail =>
    simp only [List.cons.injEq]
    split
    next closing => simp [closing, Read.next]
    next other =>
      simp only [other, false_and, iff_false]
      split
      · split
        · simp [yields_map]
        · exact not_yields_error
      · split
        · split
          · exact not_yields_error
          next after found =>
            have unnamed : ¬ Yields (map some quoted ('"' :: after)) none rest := by
              simp [yields_map]
            cases done : map some quoted ('"' :: after) with
            | error => simp
            | ok read => simpa [done, Read.widen] using unnamed
          · exact not_yields_error
          · exact not_yields_error
        · exact not_yields_error

/-- The next key is a string that stands where a member can begin. -/
theorem yields_nextKey_some {first : Bool} {key : String} :
    Yields (nextKey first text) (some key) rest ↔
      ∃ front after, Leads first text front ∧ skipSpace front = '"' :: after ∧
        scanString [] after = .ok (key, rest) := by
  unfold nextKey
  rw [yields_afterSpace]
  have still := skipSpace_skipSpace text
  cases first with
  | true =>
    simp only [Leads, if_true]
    constructor
    · intro yields
      refine ⟨skipSpace text, ?_⟩
      generalize skipSpace text = front at *
      split at yields
      · simp at yields
      · split at yields
        · simp [Read.next] at yields
        · split at yields
          next c tail _ quote =>
            obtain ⟨_, scanned, same⟩ := yields_map.mp yields
            cases same
            exact ⟨tail, rfl, quote ▸ still, yields_quoted.mp scanned⟩
          next => simp at yields
    · rintro ⟨_, after, rfl, opens, scanned⟩
      rw [still] at opens
      generalize skipSpace text = front at *
      subst opens
      simpa [yields_map, yields_quoted] using scanned
  | false =>
    simp only [Leads, Bool.false_eq_true, if_false]
    constructor
    · intro yields
      generalize skipSpace text = front at *
      split at yields
      · simp at yields
      · split at yields
        · simp [Read.next] at yields
        · split at yields
          next c tail _ comma =>
            refine ⟨tail, ?_⟩
            subst comma
            split at yields
            · simp at yields
            next after opens =>
              have read : Yields (map some quoted ('"' :: after)) (some key) rest := by
                cases done : map some quoted ('"' :: after) with
                | error => simp [done] at yields
                | ok read => simpa [done, Read.widen] using yields
              obtain ⟨_, scanned, same⟩ := yields_map.mp read
              cases same
              exact ⟨after, rfl, opens, yields_quoted.mp scanned⟩
            · simp at yields
            · simp at yields
          next => simp at yields
    · rintro ⟨front, after, comma, opens, scanned⟩
      generalize skipSpace text = front at *
      subst comma
      simp only [Char.reduceEq, if_false, if_true]
      split
      next ends => simp [ends] at opens
      next tail found =>
        obtain rfl : tail = after := by simpa [found] using opens
        obtain ⟨_, done⟩ : Yields (map some quoted ('"' :: tail)) (some key) rest :=
          yields_map.mpr ⟨key, yields_quoted.mpr scanned, rfl⟩
        simp [done, Read.widen]
      next found => simp [found] at opens
      next notNil notQuote notBrace => exact absurd opens (notQuote after)

/-- The members of an object from some point on, up to its closing brace. Each takes the
value so far to the next. -/
inductive Members (member : α → String → Reader α) : Bool → α → List Char → α → List Char → Prop
  | close {first : Bool} {value : α} {text rest : List Char}
      (closed : skipSpace text = '\x7d' :: rest) : Members member first value text value rest
  | member {first : Bool} {value next final : α} {text front after behind middle rest : List Char}
      {key : String} (leads : Leads first text front) (opens : skipSpace front = '"' :: after)
      (scanned : scanString [] after = .ok (key, behind))
      (yields : Yields (member value key behind) next middle)
      (later : Members member false next middle final rest) :
      Members member first value text final rest

/-- The loop over the members of an object goes through its rounds. -/
theorem Members.yields {member : α → String → Reader α} {first : Bool} {value final : α}
    {text rest : List Char} (rounds : Members member first value text final rest)
    (whole : List Char) (within : text.length ≤ whole.length) :
    Yields (members member whole first value text within) final rest := by
  induction rounds with
  | @close first value text rest closed =>
    obtain ⟨shorter, next⟩ : Yields (nextKey first text) none rest :=
      yields_nextKey_none.mpr closed
    unfold members
    simp [next]
  | member leads opens scanned read _ induction =>
    obtain ⟨bound, next⟩ := yields_nextKey_some.mpr ⟨_, _, leads, opens, scanned⟩
    obtain ⟨shorter, done⟩ := read
    unfold members
    simpa [next, done] using induction _

/-- The loop over the members of an object is described by them. -/
theorem yields_members {member : α → String → Reader α} {whole : List Char} {first : Bool}
    {value final : α} {within : text.length ≤ whole.length} :
    Yields (members member whole first value text within) final rest ↔
      Members member first value text final rest := by
  refine ⟨fun yields => ?_, fun rounds => rounds.yields whole within⟩
  fun_induction members member whole first value text within with
  | case1 => simp at yields
  | case2 first value text within after shorter next =>
    obtain ⟨rfl, rfl⟩ := yields_ok.mp yields
    exact .close (yields_nextKey_none.mp ⟨shorter, next⟩)
  | case3 => simp at yields
  | case4 first value text within key behind bound next read done shorter induction =>
    obtain ⟨front, after, leads, opens, scanned⟩ := yields_nextKey_some.mp ⟨bound, next⟩
    exact .member leads opens scanned (yields_of_eq_ok done) (induction yields)

/-- Read one member of an object whose values are all of one type. -/
def binding (value : Reader α) (before : List (String × α)) (key : String) :
    Reader (List (String × α)) :=
  andThen colon fun _ => map (fun found => (key, found) :: before) value

/-- The bindings of an object are a brace with members behind it. -/
theorem yields_bindings {value : Option (Reader α)} {found : List (String × α)} :
    Yields (bindings value text) found rest ↔
      ∃ reader after, value = some reader ∧ skipSpace text = '\x7b' :: after ∧
        Members (binding reader) true [] after found rest := by
  unfold bindings
  rw [yields_afterSpace]
  generalize skipSpace text = front
  split
  next after =>
    cases value with
    | none => simp
    | some reader =>
      simp only [yields_map_behind, yields_members, Option.some.injEq, List.cons.injEq, true_and]
      constructor
      · exact fun rounds => ⟨reader, after, rfl, rfl, rounds⟩
      · rintro ⟨_, _, rfl, rfl, rounds⟩
        exact rounds
  next other => simpa using fun _ _ after found _ => other after found

end Reader

/-! ## Whole documents -/

/-- A document is what its reader yields, if only spaces are left. -/
theorem readAll_of_yields {reader : Reader α} {document : String}
    (yields : Yields (reader document.toList) value rest) :
    readAll reader document =
      if (skipSpace rest).isEmpty then .ok value else .error .trailingText := by
  obtain ⟨_, done⟩ := yields
  simp [readAll, done]

/-- An accepted document has nothing but spaces behind its value. -/
theorem yields_of_readAll {reader : Reader α} {document : String}
    (accepted : readAll reader document = .ok value) :
    ∃ rest, Yields (reader document.toList) value rest ∧ skipSpace rest = [] := by
  unfold readAll at accepted
  split at accepted
  · contradiction
  next read done =>
    split at accepted
    next spaces =>
      cases accepted
      exact ⟨read.rest, yields_of_eq_ok done, List.isEmpty_iff.mp spaces⟩
    next => contradiction

end GrammarArtifact.Document
