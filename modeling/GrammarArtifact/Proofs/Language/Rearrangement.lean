import GrammarArtifact.Proofs.Symbols.Contents
import GrammarArtifact.Proofs.Table
import GrammarArtifact.Proofs.Validation.MixedPrecedence
import GrammarArtifact.Proofs.Validation.Reachability

/-!
# Equal grammars

Grammars are equal when they differ at most in the order of their rules and of their
reserved words. A grammar is then a rearrangement of the other one, and what is asked of
the rules by name, or of all rules, is answered alike: which names are defined, what the
rules mention, show and hold, and how many rules there are. So the same grammars are
accepted and have tables, with the same precedence warnings, fields, and sets of kinds and
keywords. What the order does decide is which violation is told first, the numbers of the
kinds, and the first rule, where the search for reachable names starts.
-/

namespace GrammarArtifact

namespace Grammar

/-- The grammar with its rules and its reserved words from other tables. -/
def rearranged (grammar : Grammar) (rules : Table Rule) (reserved : Table (List Rule)) :
    Grammar :=
  { grammar with rules, reserved }

/-- Equal grammars are rearrangements of each other. -/
theorem beq_iff_exists_rearranged (left right : Grammar) :
    (left == right) = true ↔ ∃ rules reserved, left.rules.entries.Perm rules.entries ∧
      left.reserved.entries.Perm reserved.entries ∧ right = left.rearranged rules reserved := by
  obtain ⟨schema, name, inherits, rules, extras, externals, inline, precedences, conflicts,
    reserved, word, supertypes⟩ := left
  obtain ⟨schema', name', inherits', rules', extras', externals', inline', precedences',
    conflicts', reserved', word', supertypes'⟩ := right
  change Grammar.beq _ _ = true ↔ _
  simp only [beq, rearranged, Bool.and_eq_true, beq_iff_eq, Table.sameBindings_iff_perm,
    Grammar.mk.injEq]
  constructor
  · rintro ⟨⟨⟨⟨⟨⟨⟨⟨⟨⟨⟨rfl, rfl⟩, rfl⟩, ofRules⟩, rfl⟩, rfl⟩, rfl⟩, rfl⟩, rfl⟩, ofWords⟩, rfl⟩, rfl⟩
    exact ⟨rules', reserved', ofRules, ofWords, rfl, rfl, rfl, rfl, rfl, rfl, rfl, rfl, rfl,
      rfl, rfl, rfl⟩
  · rintro ⟨_, _, ofRules, ofWords, rfl, rfl, rfl, rfl, rfl, rfl, rfl, rfl, rfl, rfl, rfl, rfl⟩
    exact ⟨⟨⟨⟨⟨⟨⟨⟨⟨⟨⟨rfl, rfl⟩, rfl⟩, ofRules⟩, rfl⟩, rfl⟩, rfl⟩, rfl⟩, rfl⟩, ofWords⟩, rfl⟩, rfl⟩

end Grammar

section

variable {grammar : Grammar} {rules : Table Rule} {reserved : Table (List Rule)}

namespace Grammar

theorem mem_names_rearranged_iff (ofRules : grammar.rules.entries.Perm rules.entries)
    (name : String) :
    name ∈ (grammar.rearranged rules reserved).rules.names ↔ name ∈ grammar.rules.names :=
  (ofRules.map Prod.fst).mem_iff.symm

theorem defines_rearranged (ofRules : grammar.rules.entries.Perm rules.entries) :
    (grammar.rearranged rules reserved).defines = grammar.defines := by
  funext name
  have known : rules.contains name = grammar.rules.contains name :=
    ((ofRules.map Prod.fst).contains_eq (a := name)).symm
  simp [defines, rearranged, known, externalNames]

/-- The way to the pattern of words goes by names, and the bound on its length is the
number of rules. -/
theorem wordPattern?_rearranged (ofRules : grammar.rules.entries.Perm rules.entries) :
    (grammar.rearranged rules reserved).wordPattern? = grammar.wordPattern? := by
  have bound : rules.find? = grammar.rules.find? :=
    funext fun name => (Table.find?_eq_of_perm ofRules name).symm
  have step (node : Rule) :
      (grammar.rearranged rules reserved).wordStep? node = grammar.wordStep? node := by
    simp [wordStep?, rearranged, bound]
  have within (remaining : Nat) (node : Rule) :
      (grammar.rearranged rules reserved).wordPatternWithin remaining node =
        grammar.wordPatternWithin remaining node := by
    induction remaining generalizing node with
    | zero => rfl
    | succ remaining induction =>
      simp only [wordPatternWithin, step, funext induction]
  have sizes : rules.size = grammar.rules.size := ofRules.length_eq.symm
  have led (name : String) :
      (grammar.rearranged rules reserved).patternFrom? name = grammar.patternFrom? name := by
    simp only [patternFrom?, funext (within _)]
    simp [rearranged, bound, sizes]
  simp only [wordPattern?, funext led]
  rfl

/-- The rules show the same, and so the same asks for a number. -/
theorem keySequence_rearranged_perm (ofRules : grammar.rules.entries.Perm rules.entries) :
    (grammar.rearranged rules reserved).keySequence.Perm grammar.keySequence := by
  have names : rules.names.Perm grammar.rules.names := (ofRules.map Prod.fst).symm
  have shown : (grammar.rearranged rules reserved).shownKeys.Perm grammar.shownKeys :=
    (ofRules.map Prod.snd).symm.flatMap_right _
  exact ((names.map _).append shown).cons _

theorem fieldSet_rearranged (ofRules : grammar.rules.entries.Perm rules.entries) :
    (grammar.rearranged rules reserved).fieldSet = grammar.fieldSet := by
  have nodes : (rules.values.flatMap Rule.nodes).Perm (grammar.rules.values.flatMap Rule.nodes) :=
    (ofRules.map Prod.snd).symm.flatMap_right _
  exact List.toFinset_eq_of_perm _ _ ((nodes.filter _).filterMap _)

/-- The same keys are hidden, because it is by their names that rules are. -/
theorem hides_rearranged_iff (ofRules : grammar.rules.entries.Perm rules.entries)
    (key : String × Bool) : (grammar.rearranged rules reserved).Hides key ↔ grammar.Hides key := by
  unfold Hides
  rw [mem_names_rearranged_iff ofRules]

end Grammar

namespace Validation

theorem ruleViolations_rearranged (ofRules : grammar.rules.entries.Perm rules.entries) :
    ruleViolations (grammar.rearranged rules reserved) = ruleViolations grammar := by
  have judged : violation? (grammar.rearranged rules reserved) = violation? grammar := by
    funext context node
    simp only [violation?, Grammar.defines_rearranged ofRules]
  funext context rule
  simp only [ruleViolations, judged]

theorem sectionViolations_rearranged (ofRules : grammar.rules.entries.Perm rules.entries) :
    sectionViolations (grammar.rearranged rules reserved) = sectionViolations grammar := by
  simp only [sectionViolations, referenceViolations, Grammar.defines_rearranged ofRules]
  rfl

/-- A rearrangement may have its violations in another order, but it has none exactly when
the grammar has none. -/
theorem violations_rearranged_eq_nil_iff (ofRules : grammar.rules.entries.Perm rules.entries)
    (ofWords : grammar.reserved.entries.Perm reserved.entries) :
    violations (grammar.rearranged rules reserved) = [] ↔ violations grammar = [] := by
  have empty : rules.isEmpty = grammar.rules.isEmpty := ofRules.symm.isEmpty_eq
  have words (words : List Rule) : words ∈ reserved.values ↔ words ∈ grammar.reserved.values :=
    (ofWords.map Prod.snd).mem_iff.symm
  simp only [violations, fixedViolations, wordViolations, List.append_eq_nil_iff,
    List.flatMap_eq_nil_iff, ruleViolations_rearranged ofRules,
    sectionViolations_rearranged ofRules]
  simp only [Grammar.rearranged, empty, words, ofRules.mem_iff]

/-- Both are accepted or neither is. -/
theorem accepted_rearranged_iff (ofRules : grammar.rules.entries.Perm rules.entries)
    (ofWords : grammar.reserved.entries.Perm reserved.entries) :
    (∃ found, (grammar.rearranged rules reserved).validate.value = .ok found) ↔
      ∃ found, grammar.validate.value = .ok found := by
  simp only [validate_eq_ok_iff, violations_rearranged_eq_nil_iff ofRules ofWords,
    exists_and_left, exists_eq', and_true]

/-- The same names are reachable if the search starts with the same rule. -/
theorem reachable_rearranged_iff (ofRules : grammar.rules.entries.Perm rules.entries)
    (start : rules.names.head? = grammar.rules.names.head?) (name : String) :
    Reachable (grammar.rearranged rules reserved) name ↔ Reachable grammar name := by
  have roots : roots (grammar.rearranged rules reserved) = roots grammar := by
    simp only [Validation.roots, List.take_one, Grammar.rearranged, start]
  have root (name : String) :
      Root (grammar.rearranged rules reserved) name ↔ Root grammar name := by
    rw [← mem_roots_iff, ← mem_roots_iff, roots]
  constructor
  · intro reachable
    induction reachable with
    | root isRoot => exact .root ((root _).mp isRoot)
    | through _ bound mentioned induction =>
      exact .through induction ((Table.find?_eq_of_perm ofRules _).trans bound) mentioned
  · intro reachable
    induction reachable with
    | root isRoot => exact .root ((root _).mpr isRoot)
    | through _ bound mentioned induction =>
      exact .through induction ((Table.find?_eq_of_perm ofRules _).symm.trans bound) mentioned

theorem mem_unreachableRules_rearranged_iff
    (ofRules : grammar.rules.entries.Perm rules.entries)
    (start : rules.names.head? = grammar.rules.names.head?) (name : String) :
    name ∈ unreachableRules (grammar.rearranged rules reserved) ↔
      name ∈ unreachableRules grammar := by
  have inline : (grammar.rearranged rules reserved).inline = grammar.inline := rfl
  simp only [unreachableRules_eq_filter, List.mem_filter, decide_eq_true_eq, inline,
    Grammar.mem_names_rearranged_iff ofRules, reachable_rearranged_iff ofRules start]

theorem unreachableRule_mem_warnings_iff (grammar : Grammar) (name : String) :
    .unreachableRule name ∈ warnings grammar ↔ name ∈ unreachableRules grammar := by
  simp [warnings]

end Validation

namespace SymbolTable

variable [Matcher]

/-- Both have tables or neither has: the same asks for numbers, and there are as many
fields. -/
theorem ofGrammar?_rearranged_eq_none_iff
    (ofRules : grammar.rules.entries.Perm rules.entries) :
    (ofGrammar? (grammar.rearranged rules reserved)).value = none ↔
      (ofGrammar? grammar).value = none := by
  have asks : (grammar.rearranged rules reserved).keySequence.Perm grammar.keySequence :=
    Grammar.keySequence_rearranged_perm ofRules
  have kinds : (grammar.rearranged rules reserved).keySequence.eraseDups.length =
      grammar.keySequence.eraseDups.length :=
    Nat.le_antisymm (length_eraseDups_le asks.subset) (length_eraseDups_le asks.symm.subset)
  rw [ofGrammar?_eq_none_iff, ofGrammar?_eq_none_iff, kinds, Grammar.fieldSet_rearranged ofRules]

variable {table table' : SymbolTable}

/-- The kinds of the two tables are numbered in different orders, but they are the same. -/
theorem mem_kinds_rearranged_iff (ofRules : grammar.rules.entries.Perm rules.entries)
    (built : (ofGrammar? grammar).value = some table)
    (built' : (ofGrammar? (grammar.rearranged rules reserved)).value = some table')
    (kind : NodeKind) : kind ∈ table.kinds.toList ↔ kind ∈ table'.kinds.toList := by
  have asks : (grammar.rearranged rules reserved).keySequence.Perm grammar.keySequence :=
    Grammar.keySequence_rearranged_perm ofRules
  rw [mem_kinds_iff built, mem_kinds_iff built', asks.mem_iff,
    Grammar.hides_rearranged_iff ofRules]

theorem fields_rearranged (ofRules : grammar.rules.entries.Perm rules.entries)
    (built : (ofGrammar? grammar).value = some table)
    (built' : (ofGrammar? (grammar.rearranged rules reserved)).value = some table') :
    table.fields = table'.fields := by
  rw [(parts_of_ofGrammar? built).2.1, (parts_of_ofGrammar? built').2.1,
    Grammar.fieldNames_eq_of_fieldSet_eq (Grammar.fieldSet_rearranged ofRules)]

theorem mem_keywords_rearranged_iff (ofRules : grammar.rules.entries.Perm rules.entries)
    (built : (ofGrammar? grammar).value = some table)
    (built' : (ofGrammar? (grammar.rearranged rules reserved)).value = some table')
    (word : String) : word ∈ table.keywords ↔ word ∈ table'.keywords := by
  rw [(parts_of_ofGrammar? built).2.2, (parts_of_ofGrammar? built').2.2]
  exact mem_keywordsOf_iff_of_mem_iff (Grammar.wordPattern?_rearranged ofRules).symm
    (mem_kinds_rearranged_iff ofRules built built') word

end SymbolTable

end

namespace Language

open Validation in
/-- Equal grammars differ in nothing but orders. Both are accepted or neither is, and with
the same warnings about precedence levels; if they begin with the same rule, the same rules
are unreachable. Both have tables or neither has, with the same kinds under whatever
numbers, the same fields under the same numbers, and the same keywords. -/
theorem equal_grammars_agree [Matcher] (left right : Grammar) (equal : (left == right) = true) :
    ((∃ found, left.validate.value = .ok found) ↔ ∃ found, right.validate.value = .ok found) ∧
    (∀ found found', left.validate.value = .ok found → right.validate.value = .ok found' →
      found.filterMap Warning.mixed? = found'.filterMap Warning.mixed? ∧
      (left.rules.names.head? = right.rules.names.head? →
        ∀ name, .unreachableRule name ∈ found ↔ .unreachableRule name ∈ found')) ∧
    ((∃ table, (SymbolTable.ofGrammar? left).value = some table) ↔
      ∃ table, (SymbolTable.ofGrammar? right).value = some table) ∧
    ∀ table table', (SymbolTable.ofGrammar? left).value = some table →
      (SymbolTable.ofGrammar? right).value = some table' →
        (∀ kind, kind ∈ table.kinds.toList ↔ kind ∈ table'.kinds.toList) ∧
        table.fields = table'.fields ∧
        (∀ name, table.fieldId? name = table'.fieldId? name) ∧
        ∀ word, word ∈ table.keywords ↔ word ∈ table'.keywords := by
  obtain ⟨rules, reserved, ofRules, ofWords, rfl⟩ :=
    (Grammar.beq_iff_exists_rearranged left right).mp equal
  refine ⟨(accepted_rearranged_iff ofRules ofWords).symm, ?_, ?_, ?_⟩
  · intro found found' accepted accepted'
    obtain ⟨_, rfl⟩ := (validate_eq_ok_iff _ _).mp accepted
    obtain ⟨_, rfl⟩ := (validate_eq_ok_iff _ _).mp accepted'
    constructor
    · rw [filterMap_mixed?_warnings, filterMap_mixed?_warnings]
      exact mixedPrecedences_eq_of_perm ofRules
    · intro start name
      rw [unreachableRule_mem_warnings_iff, unreachableRule_mem_warnings_iff]
      exact (mem_unreachableRules_rearranged_iff ofRules start.symm name).symm
  · rw [← Option.ne_none_iff_exists', ← Option.ne_none_iff_exists', ne_eq, ne_eq,
      SymbolTable.ofGrammar?_rearranged_eq_none_iff ofRules]
  · intro table table' built built'
    have fields := SymbolTable.fields_rearranged ofRules built built'
    refine ⟨SymbolTable.mem_kinds_rearranged_iff ofRules built built', fields, ?_,
      SymbolTable.mem_keywords_rearranged_iff ofRules built built'⟩
    intro name
    rw [SymbolTable.fieldId?, SymbolTable.fieldId?, fields]

/-- A grammar with an unreachable rule, a keyword and two sets of reserved words. -/
def filed : Grammar where
  name := "filed"
  rules := ⟨[("page", .seq [.prec 1 (.string "if"), .prec 2 (.symbol "word")]),
    ("lost", .field "line" (.string "-")), ("word", .pattern "[a-z]+")], by simp⟩
  reserved := ⟨[("few", [.string "if"]), ("none", [])], by simp⟩
  word := some "word"

/-- The same grammar with other orders behind the first rule. -/
def refiled : Grammar :=
  { filed with
    rules := ⟨[("page", .seq [.prec 1 (.string "if"), .prec 2 (.symbol "word")]),
      ("word", .pattern "[a-z]+"), ("lost", .field "line" (.string "-"))], by simp⟩
    reserved := ⟨[("none", []), ("few", [.string "if"])], by simp⟩ }

open Validation in
/-- The two orders give the rule of words different numbers, and agree otherwise. -/
theorem filed_agrees_with_refiled :
    (filed == refiled) = true ∧
    (∃ found found', filed.validate.value = .ok found ∧ refiled.validate.value = .ok found' ∧
      found.filterMap Warning.mixed? = found'.filterMap Warning.mixed? ∧
      .unreachableRule "lost" ∈ found ∧ .unreachableRule "lost" ∈ found') ∧
    ∃ table table', (SymbolTable.ofGrammar? filed).value = some table ∧
      (SymbolTable.ofGrammar? refiled).value = some table' ∧
      table.kindId? "word" true ≠ table'.kindId? "word" true ∧
      (∀ kind, kind ∈ table.kinds.toList ↔ kind ∈ table'.kinds.toList) ∧
      table.fieldId? "line" = table'.fieldId? "line" ∧
      "if" ∈ table.keywords ∧ "if" ∈ table'.keywords := by
  have equal : (filed == refiled) = true := by decide
  obtain ⟨accepted, warned, built, same⟩ := equal_grammars_agree filed refiled equal
  refine ⟨equal, ?_, ?_⟩
  · obtain ⟨found, first⟩ : ∃ found, filed.validate.value = .ok found :=
      ⟨_, (validate_eq_ok_iff filed _).mpr ⟨by decide, rfl⟩⟩
    obtain ⟨found', second⟩ := accepted.mp ⟨found, first⟩
    obtain ⟨mixed, unreachable⟩ := warned found found' first second
    have lost : .unreachableRule "lost" ∈ found := by
      rw [← ((validate_eq_ok_iff filed found).mp first).2, unreachableRule_mem_warnings_iff]
      decide +kernel
    exact ⟨found, found', first, second, mixed, lost, (unreachable rfl "lost").mp lost⟩
  · have known : (SymbolTable.ofGrammar? filed).value.any fun table =>
        "if" ∈ table.keywords ∧ table.kindId? "word" true = some 3 := by decide +kernel
    have known' : (SymbolTable.ofGrammar? refiled).value.all fun table =>
        table.kindId? "word" true = some 2 := by decide +kernel
    obtain ⟨table, first, here⟩ := (Option.any_eq_true _ _).mp known
    obtain ⟨table', second⟩ := built.mp ⟨table, first⟩
    obtain ⟨keyword, third⟩ := of_decide_eq_true here
    have other := of_decide_eq_true ((Option.all_eq_true _ _).mp known' table' second)
    obtain ⟨kinds, _, fields, keywords⟩ := same table table' first second
    refine ⟨table, table', first, second, ?_, kinds, fields "line", keyword,
      (keywords "if").mp keyword⟩
    rw [third, other]
    decide

end Language

end GrammarArtifact
