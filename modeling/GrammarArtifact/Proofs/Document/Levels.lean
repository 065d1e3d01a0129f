import GrammarArtifact.Proofs.Document.Integers
import GrammarArtifact.Proofs.Document.Nested
import GrammarArtifact.Proofs.Document.RoundTrip
import GrammarArtifact.Proofs.Validation.PrecedenceWarnings

/-!
# Levels are the numbers that are written

A level is read from the number that stands as the value of a rule. No number is read as a
level other than the one it writes, and a number that writes no level makes the whole document
wrong. A rule that is read goes along its tree way by way, so the levels of its nodes, and the
levels that a warning lists, are the numbers in the tree at the same ways.
-/

namespace GrammarArtifact.Document

/-- A level is read from nothing but a number. -/
theorem exists_number_of_ruleValue {depth : Nat} {tree : Tree} {level : Int32}
    (means : Meaning.ruleValue depth tree (.level level)) :
    ∃ numeral, tree = .number numeral := by
  have fromScalar {number : Number} (means : Meaning.scalar tree (.number number)) :
      ∃ numeral, tree = .number numeral := by
    cases tree with
    | number numeral => exact ⟨numeral, rfl⟩
    | null | flag | string | list | object => simp [Meaning.scalar] at means
  have kept {inner : Nat} {state final : Loose} {members : List (Quoted × Tree)}
      (rounds : Meaning.Rounds (fun kept _ => fun tree next =>
        ∃ value, Meaning.loose inner tree value ∧ kept = next) state members final) :
      final = state := by
    induction rounds with
    | done => rfl
    | next _ taken _ induction =>
      obtain ⟨_, -, rfl⟩ := taken
      exact induction
  obtain ⟨loosely, means, stands⟩ := means
  obtain ⟨number, rfl⟩ : ∃ number, loosely = .number number := by
    cases loosely with
    | number number => exact ⟨number, rfl⟩
    | string | other => simp [ruleValue?] at stands
  cases depth with
  | zero => exact fromScalar means
  | succ inner =>
    rcases means with scalar | ⟨_, _, -, -, same⟩ | ⟨_, -, rounds⟩
    · exact fromScalar scalar
    · contradiction
    · exact absurd (kept rounds) (by simp)

section Node

variable {depth : Nat} {tree : Tree} {node : Rule}

/-- A number that stands as the value of a rule writes the level of the rule. -/
theorem level_of_number (means : Meaning.rule (depth + 1) tree node) {numeral : Numeral}
    (held : Holds .rule tree "value" (.number numeral)) :
    numeral.IsInteger ∧ -2 ^ 31 ≤ numeral.toInt ∧ numeral.toInt ≤ 2 ^ 31 - 1 ∧
      ∃ level : Int32, level.toInt = numeral.toInt ∧ node.value = some (.level level) :=
  (numeral.ruleValue_number_iff depth _).mp (rule_part_of_holds .value means held)

/-- A rule has a level exactly when it stands as a number in the tree of the rule. -/
theorem value_eq_level_iff (means : Meaning.rule (depth + 1) tree node) (level : Int32) :
    node.value = some (.level level) ↔
      ∃ numeral, Holds .rule tree "value" (.number numeral) ∧ numeral.toInt = level.toInt := by
  constructor
  · intro same
    have written : Parts.rule.get .value node ≠ Parts.rule.get .value default := by
      simp [Parts.rule, same, default]
    obtain ⟨value, held, ⟨-, missing⟩ | ⟨-, known, meant, found⟩⟩ :=
      exists_rule_holds .value means written
    · exact absurd missing written
    · obtain rfl : known = .level level := Option.some.inj (found.trans same)
      obtain ⟨numeral, rfl⟩ := exists_number_of_ruleValue meant
      obtain ⟨-, -, -, other, equal, same'⟩ := level_of_number means held
      obtain rfl : other = level := by simpa [same] using same'.symm
      exact ⟨numeral, held, equal.symm⟩
  · rintro ⟨numeral, held, same⟩
    obtain ⟨-, -, -, other, equal, value⟩ := level_of_number means held
    obtain rfl : other = level := Int32.toInt_inj.mp (equal.trans same)
    exact value

end Node

/-- The levels of a rule are the numbers that its tree holds. The rule and the tree have the same
ways. A number that stands as a value in the tree is an integer of 32 bits, and the level that
the node at the end of the way has is the one that stands there. So is the level that the node
gives if it is a precedence. -/
structure Mirrors (tree : Tree) (rule : Rule) : Prop where
  ways : ∀ way, (∃ node, rule.at? way = some node) ↔ ∃ child, tree.Leads way child
  numbers : ∀ {way child}, tree.Leads way child →
    ∀ numeral, Holds .rule child "value" (.number numeral) →
      numeral.IsInteger ∧ -2 ^ 31 ≤ numeral.toInt ∧ numeral.toInt ≤ 2 ^ 31 - 1
  levels : ∀ {way node child}, rule.at? way = some node → tree.Leads way child → ∀ level,
    node.value = some (.level level) ↔
      ∃ numeral, Holds .rule child "value" (.number numeral) ∧ numeral.toInt = level.toInt
  precedences : ∀ {way node child}, rule.at? way = some node → tree.Leads way child → ∀ level,
    node.precedence? = some level ↔
      node.kind ∈ [.prec, .precLeft, .precRight, .precDynamic] ∧
        ∃ numeral, Holds .rule child "value" (.number numeral) ∧ numeral.toInt = level.toInt

/-- A rule that is read has the numbers of its tree as its levels. -/
theorem mirrors_of_rule {depth : Nat} {tree : Tree} {rule : Rule}
    (means : Meaning.rule depth tree rule) : Mirrors tree rule := by
  have levels {way : List Rule.Turn} {node : Rule} {child : Tree}
      (found : rule.at? way = some node) (leads : tree.Leads way child) (level : Int32) :
      node.value = some (.level level) ↔
        ∃ numeral, Holds .rule child "value" (.number numeral) ∧
          numeral.toInt = level.toInt := by
    obtain ⟨_, node, found', meant⟩ := exists_at?_of_leads means leads
    obtain rfl := Option.some.inj (found'.symm.trans found)
    exact value_eq_level_iff meant level
  constructor
  case ways =>
    intro way
    constructor
    · rintro ⟨node, found⟩
      exact exists_leads_of_at? means found
    · rintro ⟨child, leads⟩
      obtain ⟨_, node, found, -⟩ := exists_at?_of_leads means leads
      exact ⟨node, found⟩
  case numbers =>
    intro way child leads numeral held
    obtain ⟨_, node, -, meant⟩ := exists_at?_of_leads means leads
    obtain ⟨isInteger, low, high, -⟩ := level_of_number meant held
    exact ⟨isInteger, low, high⟩
  case levels => exact levels
  case precedences =>
    intro way node child found leads level
    rw [Validation.precedence?_eq_some_iff, levels found leads]

/-- The numbers that stand as levels of precedence nodes in the tree of a rule. -/
def WritesLevel (tree : Tree) (rule : Rule) (number : Int) : Prop :=
  ∃ way node child numeral, rule.at? way = some node ∧
    node.kind ∈ [.prec, .precLeft, .precRight, .precDynamic] ∧ tree.Leads way child ∧
    Holds .rule child "value" (.number numeral) ∧ numeral.toInt = number

/-- The levels that a rule uses are the numbers that its tree writes. -/
theorem Mirrors.writesLevel_iff {tree : Tree} {rule : Rule} (mirrors : Mirrors tree rule)
    (number : Int) :
    WritesLevel tree rule number ↔
      ∃ level, Validation.UsesLevel rule level ∧ level.toInt = number := by
  constructor
  · rintro ⟨way, node, child, numeral, found, kind, leads, held, rfl⟩
    obtain ⟨-, low, high⟩ := mirrors.numbers leads numeral held
    have exact : (Int32.ofInt numeral.toInt).toInt = numeral.toInt :=
      Int32.toInt_ofInt_of_le low (by omega)
    exact ⟨_, ⟨node, Rule.reaches_iff_exists_at?.mpr ⟨way, found⟩, kind,
      (mirrors.levels found leads _).mpr ⟨numeral, held, exact.symm⟩⟩, exact⟩
  · rintro ⟨level, ⟨node, reached, kind, value⟩, rfl⟩
    obtain ⟨way, found⟩ := Rule.reaches_iff_exists_at?.mp reached
    obtain ⟨child, leads⟩ := (mirrors.ways way).mp ⟨node, found⟩
    obtain ⟨numeral, held, same⟩ := (mirrors.levels found leads level).mp value
    exact ⟨way, node, child, numeral, found, kind, leads, held, same⟩

/-- A warning about several levels is about a rule, and lists the levels that the rule uses. -/
theorem exists_rule_of_mixedPrecedence {grammar : Grammar} {name : String} {levels : List Int32}
    (told : Validation.Warning.mixedPrecedence name levels ∈ Validation.warnings grammar) :
    ∃ rule, grammar.rules.find? name = some rule ∧
      ∀ level, level ∈ levels ↔ Validation.UsesLevel rule level := by
  have told : (name, levels) ∈ Validation.mixedPrecedences grammar := by
    simpa [Validation.warnings] using told
  obtain ⟨⟨_, rule⟩, entry, mixed⟩ := (Validation.mem_mixedPrecedences_iff grammar _).mp told
  simp only [Validation.mixedLevels?, Option.ite_none_right_eq_some, Option.some.injEq,
    Prod.mk.injEq] at mixed
  obtain ⟨-, rfl, rfl⟩ := mixed
  exact ⟨rule, (grammar.rules.find?_eq_some_iff _ rule).mpr entry,
    Validation.mem_precedenceLevels_iff rule⟩

/-- When a number takes the place of the value of a rule, the rule is read if and only if the
number is an integer of 32 bits. Its level is then that integer, and its other parts are as they
were. -/
theorem read_number_iff {depth : Nat} {document text : String} {rule decoded : Rule}
    {numeral : Numeral} {tree changed other : Tree}
    (accepted : readAll (Document.rule depth) document = .ok rule)
    (laid : LaidOut tree.tokens document.toList)
    (exchanged : Exchanged .rule "value" other (.number numeral) tree changed)
    (laid' : LaidOut changed.tokens text.toList) :
    readAll (Document.rule depth) text = .ok decoded ↔
      numeral.IsInteger ∧ -2 ^ 31 ≤ numeral.toInt ∧ numeral.toInt ≤ 2 ^ 31 - 1 ∧
        ∃ level : Int32, level.toInt = numeral.toInt ∧
          decoded = { rule with value := some (.level level) } := by
  have means : Meaning.rule depth tree rule :=
    (readAll_eq_ok_iff_of_laidOut (reads_rule depth) laid).mp accepted
  have alone {old : Rule} (meant : Meaning.rule depth tree old) : old = rule := by
    have again := (readAll_eq_ok_iff_of_laidOut (reads_rule depth) laid).mpr meant
    exact Except.ok.inj (again.symm.trans accepted)
  obtain ⟨inner, rfl⟩ := exists_succ_of_rule means
  have exchanged : Exchanged .rule (ruleForm.label .value) other (.number numeral) tree changed :=
    exchanged
  have valueMeans := numeral.ruleValue_number_iff inner
  rw [readAll_eq_ok_iff_of_laidOut (reads_rule _) laid']
  rw [rule_succ] at means alone ⊢
  rw [RecordForm.record_exchanged_iff key?_label_ruleForm (by decide) places_rule means exchanged]
  constructor
  · rintro ⟨part, old, meant, oldMeans, rfl⟩
    obtain ⟨isInteger, low, high, level, same, rfl⟩ := (valueMeans part).mp meant
    exact ⟨isInteger, low, high, level, same, alone oldMeans ▸ rfl⟩
  · rintro ⟨isInteger, low, high, level, same, rfl⟩
    exact ⟨_, rule, (valueMeans _).mpr ⟨isInteger, low, high, level, same, rfl⟩, means, rfl⟩

/-- A number is read as a level exactly or not at all. When the value of a rule is a number, the
rule is read if and only if the number is an integer of 32 bits, whatever stood there before, and
then its level is that integer and its other parts are as they were. Hence in a grammar that is
read the levels of all rules are the numbers at the same places of the document. A warning about
several levels names a rule, and lists the numbers that precedence nodes hold in the last value
of that name. -/
theorem levels_are_numbers_written :
    (∀ (depth : Nat) (document text : String) (rule decoded : Rule) (numeral : Numeral)
      (tree changed other : Tree),
      readAll (Document.rule depth) document = .ok rule → LaidOut tree.tokens document.toList →
      Exchanged .rule "value" other (.number numeral) tree changed →
      LaidOut changed.tokens text.toList →
      (readAll (Document.rule depth) text = .ok decoded ↔
        numeral.IsInteger ∧ -2 ^ 31 ≤ numeral.toInt ∧ numeral.toInt ≤ 2 ^ 31 - 1 ∧
          ∃ level : Int32, level.toInt = numeral.toInt ∧
            decoded = { rule with value := some (.level level) })) ∧
    ∀ (document : String) (grammar : Grammar), readGrammar document = .ok grammar →
      ∃ tree : Tree, LaidOut tree.tokens document.toList ∧
        (∀ key, ∀ rule ∈ rulesIn key (Parts.grammar.get key grammar), ∃ part inner,
          Holds .grammar tree (grammarForm.label key) part ∧ Tree.Occurs key.shape part inner ∧
            Mirrors inner rule) ∧
        (∀ key part inner, Holds .grammar tree (grammarForm.label key) part →
          Tree.Occurs key.shape part inner →
            ∃ rule ∈ rulesIn key (Parts.grammar.get key grammar), Mirrors inner rule) ∧
        ∀ found, grammar.validate.value = .ok found → ∀ name levels,
          Validation.Warning.mixedPrecedence name levels ∈ found →
            ∃ members inner rule, Holds .grammar tree "rules" (.object members) ∧
              (valuesOf name members).getLast? = some inner ∧
              grammar.rules.find? name = some rule ∧ Mirrors inner rule ∧
              ∀ number : Int, number ∈ levels.map Int32.toInt ↔ WritesLevel inner rule number := by
  constructor
  · intro depth document text rule decoded numeral tree changed other
    exact read_number_iff
  · intro document grammar accepted
    obtain ⟨tree, laid, means⟩ := (readAll_eq_ok_iff reads_grammar).mp accepted
    refine ⟨tree, laid, fun key rule member => ?_, fun key part inner held occurs => ?_,
      fun found valid name levels told => ?_⟩
    · obtain ⟨part, inner, held, occurs, meant⟩ := exists_occurs_of_mem_rulesIn means key member
      exact ⟨part, inner, held, occurs, mirrors_of_rule meant⟩
    · obtain ⟨rule, member, meant⟩ := exists_mem_rulesIn_of_occurs means key held occurs
      exact ⟨rule, member, mirrors_of_rule meant⟩
    · obtain ⟨-, rfl⟩ := (Validation.validate_eq_ok_iff grammar found).mp valid
      obtain ⟨rule, bound, used⟩ := exists_rule_of_mixedPrecedence told
      obtain ⟨members, inner, held, last, meant⟩ := exists_last_value means bound
      have mirrors := mirrors_of_rule meant
      refine ⟨members, inner, rule, held, last, bound, mirrors, fun number => ?_⟩
      simp only [List.mem_map, used, mirrors.writesLevel_iff]

/-- An integer as it is written, without a fraction and an exponent. -/
def Numeral.ofWhole (negative : Bool) (whole : List Char) (isWhole : IsWhole whole) : Numeral :=
  ⟨negative, whole, by simpa using IsMagnitude.parts isWhole .none .none⟩

/-- A precedence of the empty rule with some value. -/
def precWith (value : Tree) : Tree :=
  wrappingObject (.plain "PREC" (by decide)) blankObject [(.plain "value" (by decide), value)]

theorem isWhole_excess : IsWhole "2147483648".toList :=
  .digits (List.all_eq_true.mp (by decide)) (by decide)

/-- The least integer of 32 bits. -/
def leastLevel : Numeral := .ofWhole true _ isWhole_excess

/-- One more than the greatest. -/
def excessLevel : Numeral := .ofWhole false _ isWhole_excess

/-- A grammar with one rule, which uses two levels. -/
def twoLevels : Grammar where
  name := "ivy"
  rules := ⟨[("leaf", .seq [.prec (-2147483648) .blank, .prec 7 .blank])], by decide⟩

/-- The least integer of 32 bits is read as a level and the greatest plus one is not. The warning
about two levels lists the numbers of the document. -/
theorem leastLevel_read :
    (∃ rule, readRule (precWith (.number leastLevel)).written = .ok rule ∧
      rule.value = some (.level (-2147483648))) ∧
    (¬ ∃ rule, readRule (precWith (.number excessLevel)).written = .ok rule) ∧
    ∃ inner rule, Mirrors inner rule ∧
      ∀ number : Int, number ∈ [-2147483648, 7] ↔ WritesLevel inner rule number := by
  have least : leastLevel.IsInteger ∧ leastLevel.toInt = -2147483648 :=
    ⟨⟨isWhole_excess, by decide⟩, by decide⟩
  have excess : excessLevel.toInt = 2147483648 := by decide
  have swapped (numeral : Numeral) : Exchanged .rule "value" .null (.number numeral)
      (precWith .null) (precWith (.number numeral)) :=
    @Exchanged.member .rule "value" _ _ [_, _] [] _ (Quoted.text?_plain "value" _)
  have readable : (readRule (precWith .null).written).toOption.isSome := by decide +kernel
  have read : readGrammar (Value.ofGrammar twoLevels).text = .ok twoLevels := by
    refine readGrammar_of_laidOut (by decide +kernel) ?_
    rw [Value.text, String.toList_ofList]
    exact laidOut_flatten (solid_tokens _)
  have valid : twoLevels.validate.value = .ok [.mixedPrecedence "leaf" [-2147483648, 7]] :=
    (Validation.validate_eq_ok_iff _ _).mpr ⟨by decide +kernel, by decide +kernel⟩
  cases accepted : readRule (precWith .null).written with
  | error fault => simp [accepted, Except.toOption] at readable
  | ok rule =>
    have decoded (numeral : Numeral) (decoded : Rule) :=
      levels_are_numbers_written.1 nestingLimit _ _ rule decoded numeral _ _ _ accepted
        (precWith .null).laidOut_written (swapped numeral)
        (precWith (.number numeral)).laidOut_written
    refine ⟨⟨{ rule with value := some (.level (-2147483648)) }, ?_, rfl⟩, ?_, ?_⟩
    · refine (decoded leastLevel _).mpr ⟨least.1, ?_⟩
      rw [least.2]
      exact ⟨by decide, by decide, -2147483648, by decide, rfl⟩
    · rintro ⟨rule', read⟩
      obtain ⟨-, -, high, -⟩ := (decoded excessLevel rule').mp read
      rw [excess] at high
      exact absurd high (by decide)
    · obtain ⟨tree, -, -, -, told⟩ := levels_are_numbers_written.2 _ twoLevels read
      obtain ⟨members, inner, rule, -, -, -, mirrors, numbers⟩ :=
        told _ valid "leaf" _ List.mem_cons_self
      exact ⟨inner, rule, mirrors, numbers⟩

end GrammarArtifact.Document
