import GrammarArtifact.Proofs.Document.Nested
import GrammarArtifact.Proofs.Validation.Depth
import GrammarArtifact.Symbols.Field
import GrammarArtifact.Symbols.NodeKind

/-!
# How deep rules are nested

A rule is written with a bracket for each node on the way to the deepest one, and members take
one bracket more. So the brackets that may still be opened where a rule is read bound the
nodes on every way down the rule, and with them the recursions over the rules of a grammar
that has been read. The bound is met: rules that are written as objects, each the content of
the one before it, are read up to the bound and not beyond.
-/

namespace GrammarArtifact

/-- The recursions over a rule of a grammar never have more calls open than a limit: with the
limit they find what they find without. They are the check of the rule, the search for the
symbols that it refers to, the search for left recursion, the search for its levels, and the
searches for the node kinds and fields that it makes. -/
structure Grammar.RecursesWithin (limit : Nat) (grammar : Grammar) (rule : Rule) : Prop where
  check : ∀ context found,
    (Validation.checking grammar context).run? limit found rule =
      some (found.or (Validation.faultIn (Validation.scope grammar) context rule))
  references :
    (Rule.Visit.everywhere fun found node => node.symbolName?.toList ++ found).run? limit [] rule =
      some rule.references
  leftRecursion : ∀ target found,
    (Validation.opening target).run? limit found rule =
      some (found || Validation.beginsWith target rule)
  levels : ∀ name index,
    (Rule.Visit.everywhere (Validation.LevelIndex.note name)).run? limit index rule =
      some (rule.fold (Validation.LevelIndex.note name) index)
  kinds : ∀ kinds,
    (Rule.Visit.aboveTokens fun kinds node => (NodeKind.ofNode? node).toList ++ kinds).run? limit
        kinds rule =
      some (rule.foldSurface (fun kinds node => (NodeKind.ofNode? node).toList ++ kinds) kinds)
  fields : ∀ fields,
    (Rule.Visit.everywhere fun found node => node.fieldName?.toList ++ found).run? limit fields
        rule =
      some (rule.fold (fun found node => node.fieldName?.toList ++ found) fields)

theorem Rule.Within.recursesWithin {limit : Nat} {rule : Rule} (within : rule.Within limit)
    (grammar : Grammar) : grammar.RecursesWithin limit rule where
  check context := Visit.run?_eq_some (Validation.describes_faultIn grammar context) within
  references := Visit.run?_eq_some (Visit.describes_fold _) within []
  leftRecursion target := Visit.run?_eq_some (Validation.describes_beginsWith target) within
  levels _ := Visit.run?_eq_some (Visit.describes_fold _) within
  kinds := Visit.run?_eq_some (Visit.describes_foldSurface _) within
  fields := Visit.run?_eq_some (Visit.describes_fold _) within

namespace Document

/-- A rule that is read has no way down with more nodes than brackets that may be opened. -/
theorem within_of_rule {depth : Nat} {tree : Tree} {rule : Rule}
    (means : Meaning.rule depth tree rule) : rule.Within depth := by
  induction depth using Nat.strongRecOn generalizing tree rule with
  | ind depth induction =>
    obtain ⟨inner, rfl⟩ := exists_succ_of_rule means
    refine .node fun child member => ?_
    obtain ⟨turn, same⟩ := Rule.mem_children_iff_turn?.mp member
    obtain ⟨below, _, less, -, meant⟩ := exists_turns_of_turn? means same
    exact (induction below less meant).mono (Nat.le_of_lt_succ less)

/-! ## Nested objects -/

/-- The members of an object write a rule of a kind with some content and no other parts. There
may be members that go by no label of a rule. -/
structure Layer (members : List (Quoted × Tree)) (kind : RuleKind) (content : List Tree) :
    Prop where
  keys : ∀ member ∈ members, member.1.text?.isSome
  kind : ∃ name, valuesOf "type" members = [.string name] ∧ name.text? = some kind.tag
  content : valuesOf "content" members = content
  others : ∀ label ∈ ["value", "name", "members", "named", "flags", "context_name"],
    valuesOf label members = []

/-- A tree is written as objects of some kinds, each the content of the one before it. -/
inductive Nests : List RuleKind → Tree → Prop
  | last {members : List (Quoted × Tree)} {kind : RuleKind} (layer : Layer members kind []) :
      Nests [kind] (.object members)
  | wrap {members : List (Quoted × Tree)} {kind : RuleKind} {kinds : List RuleKind} {inner : Tree}
      (layer : Layer members kind [inner]) (later : Nests kinds inner) :
      Nests (kind :: kinds) (.object members)

/-- The rule of nodes of some kinds, each the content of the one before it. -/
def nested : List RuleKind → Option Rule
  | [] => none
  | kind :: kinds => some { kind, content := nested kinds }

section Layer

variable {depth : Nat} {content : Meaning Rule} {members : Meaning (List Rule)}
variable {layer : List (Quoted × Tree)} {kind : RuleKind} {inner : List Tree}

/-- The kind that an object tells is the one that it is written with. -/
theorem Layer.tells_kind_iff (isLayer : Layer layer kind inner) (found : RuleKind) :
    Meaning.Tells ruleForm Parts.rule (ruleMeanings depth content members) default [] .kind found
        (valuesOf (ruleForm.label .kind) layer) ↔ found = kind := by
  obtain ⟨name, typed, named⟩ := isLayer.kind
  have typed : valuesOf (ruleForm.label .kind) layer = [.string name] := typed
  have means : Meaning.kind depth (.string name) found ↔ kind = found := by
    simp [Meaning.kind, named, RuleKind.ofTag?_tag]
  rw [typed]
  constructor
  · intro told
    cases told with
    | present _ meant => exact (means.mp meant).symm
  · rintro rfl
    exact .present List.not_mem_nil (means.mpr rfl)

/-- The parts other than the kind and the content are the default ones. -/
theorem Layer.tells_other_iff (isLayer : Layer layer kind inner) {key : RuleKey}
    (notKind : key ≠ .kind) (notContent : key ≠ .content) (part : Parts.rule.Part key) :
    Meaning.Tells ruleForm Parts.rule (ruleMeanings depth content members) default [] key part
        (valuesOf (ruleForm.label key) layer) ↔ part = Parts.rule.get key default := by
  have nothing : valuesOf (ruleForm.label key) layer = [] := by
    cases key with
    | kind => contradiction
    | content => contradiction
    | value | name | members | named | flags | contextName =>
      exact isLayer.others _ (by simp [ruleForm])
  rw [nothing]
  constructor
  · intro told
    cases told with
    | absent kept => exact kept
  · rintro rfl
    exact .absent rfl (by simp [ruleForm, notKind])

/-- An object without other parts stands for the rules of its kind with its content. -/
theorem record_layer_iff {rule : Rule} (isLayer : Layer layer kind inner) :
    Meaning.record ruleForm Parts.rule (ruleMeanings depth content members) default (.object layer)
        rule ↔
      Meaning.Tells ruleForm Parts.rule (ruleMeanings depth content members) default [] .content
          rule.content inner ∧
        rule = { kind, content := rule.content } := by
  have same : valuesOf (ruleForm.label .content) layer = inner := isLayer.content
  have default_of_other {key : RuleKey} (notKind : key ≠ .kind) (notContent : key ≠ .content) :
      Parts.rule.get key { kind, content := rule.content } = Parts.rule.get key default := by
    cases key <;> first | rfl | contradiction
  rw [Meaning.record_object_iff, and_iff_right isLayer.keys]
  constructor
  · intro told
    refine ⟨same ▸ told .content, Parts.rule.ext fun key => ?_⟩
    by_cases notKind : key = .kind
    · subst notKind
      exact (isLayer.tells_kind_iff _).mp (told .kind)
    · by_cases notContent : key = .content
      · exact notContent ▸ rfl
      · rw [(isLayer.tells_other_iff notKind notContent _).mp (told key),
          default_of_other notKind notContent]
  · rintro ⟨told, whole⟩ key
    rw [whole]
    by_cases notKind : key = .kind
    · subst notKind
      exact (isLayer.tells_kind_iff kind).mpr rfl
    · by_cases notContent : key = .content
      · subst notContent
        rwa [same]
      · exact (isLayer.tells_other_iff notKind notContent _).mpr
          (default_of_other notKind notContent)

end Layer

theorem Nests.exists_nested {kinds : List RuleKind} {tree : Tree} (nests : Nests kinds tree) :
    ∃ rule, nested kinds = some rule := by
  cases nests <;> exact ⟨_, rfl⟩

/-- Nested objects stand for the rule that is nested in the same way, provided that a bracket may
be opened for each of them. -/
theorem rule_nests_iff {kinds : List RuleKind} {tree : Tree} (nests : Nests kinds tree)
    {depth : Nat} {rule : Rule} :
    Meaning.rule depth tree rule ↔ kinds.length ≤ depth ∧ nested kinds = some rule := by
  induction nests generalizing depth rule with
  | last layer =>
    cases depth with
    | zero => simp [Meaning.rule]
    | succ depth =>
      rw [rule_succ, record_layer_iff layer]
      simp only [List.length_singleton, Nat.le_add_left, true_and, nested, Option.some.injEq]
      constructor
      · rintro ⟨⟨kept⟩, whole⟩
        rw [whole, show rule.content = none from kept]
      · rintro rfl
        exact ⟨.absent rfl (by simp [ruleForm]), rfl⟩
  | @wrap members kind kinds inner layer later induction =>
    cases depth with
    | zero => simp [Meaning.rule]
    | succ depth =>
      have solid : inner ≠ .null := by
        rintro rfl
        cases later
      rw [rule_succ, record_layer_iff layer]
      simp only [List.length_cons, Nat.add_le_add_iff_right, nested, Option.some.injEq]
      constructor
      · rintro ⟨⟨⟩ | ⟨_, ⟨missing, -⟩ | ⟨-, known, means, same⟩⟩, whole⟩
        · exact absurd missing solid
        · obtain ⟨short, found⟩ := induction.mp means
          exact ⟨short, by rw [whole, found, same]⟩
      · rintro ⟨short, rfl⟩
        obtain ⟨known, found⟩ := later.exists_nested
        exact ⟨.present List.not_mem_nil (.inr ⟨solid, known, induction.mpr ⟨short, found⟩,
          found.symm⟩), rfl⟩

/-- When a rule that is written as nested objects is added behind the rules of a document, the
document is read if and only if the objects are not too many, and then with that rule. -/
theorem nested_rule_read_iff {document text : String} {grammar : Grammar}
    {tree changed inner : Tree} {members : List (Quoted × Tree)} {key : Quoted} {name : String}
    {kinds : List RuleKind} (accepted : readGrammar document = .ok grammar)
    (laid : LaidOut tree.tokens document.toList)
    (exchanged : Exchanged .grammar "rules" (.object members) (.object (members ++ [(key, inner)]))
      tree changed) (named : key.text? = some name) (nests : Nests kinds inner)
    (laid' : LaidOut changed.tokens text.toList) :
    (∀ decoded, readGrammar text = .ok decoded → decoded.rules.find? name = nested kinds) ∧
      ((∃ decoded, readGrammar text = .ok decoded) ↔ kinds.length ≤ 125) := by
  have means : Meaning.grammar tree grammar :=
    (readAll_eq_ok_iff_of_laidOut reads_grammar laid).mp accepted
  have exchanged : Exchanged .grammar (grammarForm.label .rules) (.object members)
      (.object (members ++ [(key, inner)])) tree changed := exchanged
  have reads (decoded : Grammar) : readGrammar text = .ok decoded ↔
      ∃ rules old, Meaning.table (Meaning.rule 125) (.object (members ++ [(key, inner)])) rules ∧
        Meaning.grammar tree old ∧ { old with rules } = decoded := by
    rw [readGrammar, readAll_eq_ok_iff_of_laidOut reads_grammar laid']
    exact RecordForm.record_exchanged_iff key?_label_grammarForm (by decide) places_grammar means
      exchanged
  -- The rule that is added comes last, so it is the one that the name is bound to.
  have last : (valuesOf name (members ++ [(key, inner)])).getLast? = some inner := by
    rw [valuesOf_append, valuesOf_cons_of_eq named]
    simp [valuesOf]
  have bound {decoded : Grammar} (read : readGrammar text = .ok decoded) :
      kinds.length ≤ 125 ∧ decoded.rules.find? name = nested kinds := by
    obtain ⟨rules, old, table, -, rfl⟩ := (reads decoded).mp read
    have related := last_value_of_table table name
    rw [last] at related
    generalize found : rules.find? name = value at related
    cases related with
    | some meant =>
      obtain ⟨short, same⟩ := (rule_nests_iff nests).mp meant
      exact ⟨short, same.symm⟩
  refine ⟨fun decoded read => (bound read).2, fun read => read.elim fun _ read => (bound read).1,
    fun short => ?_⟩
  have rulesMean : Meaning.table (Meaning.rule 125) (.object members) grammar.rules :=
    RecordForm.part_of_holds key?_label_grammarForm (by decide) places_grammar means exchanged.holds
  obtain ⟨_, ⟨⟩, entries, binds, -⟩ := rulesMean
  obtain ⟨rule, same⟩ := nests.exists_nested
  have binds' : List.Forall₂ (Meaning.Binds (Meaning.rule 125)) (members ++ [(key, inner)])
      (entries ++ [(name, rule)]) :=
    List.rel_append binds (.cons ⟨named, (rule_nests_iff nests).mpr ⟨short, same⟩⟩ .nil)
  exact ⟨_, (reads _).mpr ⟨_, grammar, ⟨_, rfl, _, binds', rfl⟩, means, rfl⟩⟩

/-- Rules that are read are never nested deeper than the reader allows, and neither are the
recursions over them. On a way down a rule, an extra or an external rule there are 125 nodes at
most, and 124 on a way down a rule in a precedence or a reserved set, so with so many calls open
at a time every recursion comes to its end. A rule that is written as nested objects reaches the
bound: added to a document, it is read if and only if there are 125 objects at most. -/
theorem nesting_is_bounded :
    (∀ (document : String) (grammar : Grammar), readGrammar document = .ok grammar →
      (∀ rule ∈ grammar.rules.values ++ grammar.extras ++ grammar.externals,
        (∀ path, Rule.IsPath (rule :: path) → (rule :: path).length ≤ 125) ∧
          grammar.RecursesWithin 125 rule) ∧
      ∀ rule ∈ grammar.precedences.flatten ++ grammar.reserved.values.flatten,
        (∀ path, Rule.IsPath (rule :: path) → (rule :: path).length ≤ 124) ∧
          grammar.RecursesWithin 124 rule) ∧
    ∀ (document text : String) (grammar : Grammar) (tree changed inner : Tree)
      (members : List (Quoted × Tree)) (key : Quoted) (name : String) (kinds : List RuleKind),
      readGrammar document = .ok grammar → LaidOut tree.tokens document.toList →
      Exchanged .grammar "rules" (.object members) (.object (members ++ [(key, inner)])) tree
        changed →
      key.text? = some name → Nests kinds inner → LaidOut changed.tokens text.toList →
      (∀ decoded, readGrammar text = .ok decoded → decoded.rules.find? name = nested kinds) ∧
        ((∃ decoded, readGrammar text = .ok decoded) ↔ kinds.length ≤ 125) := by
  refine ⟨fun document grammar accepted => ?_, fun _ _ _ _ _ _ _ _ _ _ accepted laid exchanged
    named nests laid' => nested_rule_read_iff accepted laid exchanged named nests laid'⟩
  obtain ⟨tree, -, means⟩ := (readAll_eq_ok_iff reads_grammar).mp accepted
  have bounded (key : GrammarKey) {rule : Rule}
      (member : rule ∈ rulesIn key (Parts.grammar.get key grammar)) : rule.Within key.depth := by
    obtain ⟨_, _, -, -, meant⟩ := exists_occurs_of_mem_rulesIn means key member
    exact within_of_rule meant
  have both {limit : Nat} {rule : Rule} (within : rule.Within limit) :
      (∀ path, Rule.IsPath (rule :: path) → (rule :: path).length ≤ limit) ∧
        grammar.RecursesWithin limit rule :=
    ⟨fun _ => within.length_le, within.recursesWithin grammar⟩
  constructor
  · intro rule member
    simp only [List.mem_append] at member
    rcases member with (inRules | inExtras) | inExternals
    · exact both (bounded .rules inRules)
    · exact both (bounded .extras inExtras)
    · exact both (bounded .externals inExternals)
  · intro rule member
    rcases List.mem_append.mp member with inPrecedences | inReserved
    · exact both (bounded .precedences inPrecedences)
    · exact both (bounded .reserved inReserved)

/-- A document with the name of a grammar and some rules. -/
def ivyWith (rules : List (Quoted × Tree)) : Tree :=
  .object [(.plain "name" (by decide), .string (.plain "ivy" (by decide))),
    (.plain "rules" (by decide), .object rules)]

/-- Repetitions within each other, with the empty rule inside. -/
def tower : Nat → Tree
  | 0 => blankObject
  | count + 1 => wrappingObject (.plain "REPEAT" (by decide)) (tower count) []

theorem nests_tower (count : Nat) :
    Nests (List.replicate count .many ++ [.blank]) (tower count) := by
  have others : ∀ label ∈ ["value", "name", "members", "named", "flags", "context_name"],
      label ≠ "type" ∧ label ≠ "content" := by decide
  induction count with
  | zero =>
    refine .last ⟨?_, ⟨.plain "BLANK" (by decide), ?_, Quoted.text?_plain "BLANK" _⟩, ?_,
      fun label listed => ?_⟩
    · simp [Quoted.text?_plain]
    · simp [valuesOf, Quoted.text?_plain]
    · simp [valuesOf, Quoted.text?_plain]
    · simp [valuesOf, Quoted.text?_plain, (others label listed).1.symm]
  | succ count induction =>
    refine .wrap ⟨?_, ⟨.plain "REPEAT" (by decide), ?_, Quoted.text?_plain "REPEAT" _⟩, ?_,
      fun label listed => ?_⟩ induction
    · simp [Quoted.text?_plain]
    · simp [valuesOf, Quoted.text?_plain]
    · simp [valuesOf, Quoted.text?_plain]
    · simp [valuesOf, Quoted.text?_plain, (others label listed).1.symm,
        (others label listed).2.symm]

/-- A tower of 125 objects is read, and one of 126 is not. -/
theorem tower_read_up_to_bound :
    (∃ decoded, readGrammar (ivyWith [(.plain "leaf" (by decide), tower 124)]).written =
        .ok decoded ∧
      ∀ rule ∈ decoded.rules.values ++ decoded.extras ++ decoded.externals,
        ∀ path, Rule.IsPath (rule :: path) → (rule :: path).length ≤ 125) ∧
      ¬ ∃ decoded, readGrammar (ivyWith [(.plain "leaf" (by decide), tower 125)]).written =
        .ok decoded := by
  have read : (readGrammar (ivyWith []).written).toOption.isSome := by decide +kernel
  cases accepted : readGrammar (ivyWith []).written with
  | error fault => simp [accepted, Except.toOption] at read
  | ok grammar =>
    have added (count : Nat) : Exchanged .grammar "rules" (.object [])
        (.object ([] ++ [(.plain "leaf" (by decide), tower count)])) (ivyWith [])
        (ivyWith [(.plain "leaf" (by decide), tower count)]) :=
      @Exchanged.member .grammar "rules" _ _
        [(.plain "name" (by decide), .string (.plain "ivy" (by decide)))] [] _
        (Quoted.text?_plain "rules" _)
    have decoded (count : Nat) := (nesting_is_bounded.2 _ _ _ _ _ _ _ _ _ _ accepted
      (ivyWith []).laidOut_written (added count) (Quoted.text?_plain _ _) (nests_tower count)
      (ivyWith [(.plain "leaf" (by decide), tower count)]).laidOut_written).2
    obtain ⟨grammar, read⟩ := (decoded 124).mpr (by simp)
    refine ⟨⟨grammar, read, fun rule member => ?_⟩, fun read => ?_⟩
    · exact ((nesting_is_bounded.1 _ _ read).1 rule member).1
    · simpa using (decoded 125).mp read

end Document

end GrammarArtifact
