import GrammarArtifact.Proofs.Language.Gates
import GrammarArtifact.Proofs.Symbols.Contributions
import GrammarArtifact.Proofs.Validation.MixedPrecedence
import GrammarArtifact.Proofs.Validation.NeglectedNodes
import GrammarArtifact.Proofs.Validation.Reachability

/-!
# Leaving out unreachable rules

The warnings about unreachable rules suggest to leave these rules out. That is safe as
long as no section of names and no reserved word mentions one of them, because these are
checked without being roots of the search. What the checks see of the rules and extras
that are left is seen by the search as well, so it refers to rules that are left or to
external rules. The search finds what it found before, and there is less to number.
-/

namespace GrammarArtifact

namespace Validation

/-- The grammar without the rules that are not reachable. -/
def pruned (grammar : Grammar) : Grammar :=
  { grammar with rules := grammar.rules.keep fun name => Reachable grammar name }

/-- None of the sections that are checked, but are no roots of the search, mentions the
name. -/
structure Unmentioned (grammar : Grammar) (name : String) : Prop where
  inline : name ∉ grammar.inline
  supertypes : name ∉ grammar.supertypes
  conflicts : name ∉ grammar.conflicts.flatten
  precedences : ∀ rule ∈ grammar.precedences.flatten, rule.symbolName? ≠ some name
  reserved : ∀ words ∈ grammar.reserved.values, ∀ rule ∈ words, ¬ rule.Mentions name

variable {grammar : Grammar}

/-- The first rule is reachable and therefore stays the first. -/
theorem start?_pruned (grammar : Grammar) : (pruned grammar).start? = grammar.start? := by
  cases order : grammar.rules.entries with
  | nil => simp [Grammar.start?, Table.first?, pruned, Table.keep, order]
  | cons entry rest =>
    have reachable : Reachable grammar entry.1 :=
      .root (.start (by simp [Table.names, order]))
    simp [Grammar.start?, Table.first?, pruned, Table.keep, order, reachable]

theorem isEmpty_pruned (grammar : Grammar) :
    (pruned grammar).rules.isEmpty = grammar.rules.isEmpty := by
  have empty (table : Table Rule) : table.first?.isNone = table.isEmpty := by
    rw [Table.first?, Table.isEmpty]
    cases table.entries <;> rfl
  have same := congrArg Option.isNone (start?_pruned grammar)
  rwa [Grammar.start?, Grammar.start?, empty, empty] at same

theorem mem_names_pruned_iff (name : String) :
    name ∈ (pruned grammar).rules.names ↔ name ∈ grammar.rules.names ∧ Reachable grammar name := by
  simp [pruned, Table.mem_names_keep_iff]

theorem find?_pruned_eq_some_iff (name : String) (rule : Rule) :
    (pruned grammar).rules.find? name = some rule ↔
      grammar.rules.find? name = some rule ∧ Reachable grammar name := by
  simp [pruned, Table.find?_keep_eq_some_iff]

theorem root_pruned_iff (name : String) : Root (pruned grammar) name ↔ Root grammar name := by
  have first : (pruned grammar).rules.names.head? = grammar.rules.names.head? := by
    have same := congrArg (Option.map Prod.fst) (start?_pruned grammar)
    simpa [Grammar.start?, Table.first?, Table.names] using same
  constructor
  · rintro (isFirst | ⟨rule, member, mentioned⟩ | ⟨rule, member, mentioned⟩ | named)
    · exact .start (first ▸ isFirst)
    · exact .extra rule member mentioned
    · exact .external rule member mentioned
    · exact .word named
  · rintro (isFirst | ⟨rule, member, mentioned⟩ | ⟨rule, member, mentioned⟩ | named)
    · exact .start (first ▸ isFirst)
    · exact .extra rule member mentioned
    · exact .external rule member mentioned
    · exact .word named

/-- Reachable names are reached through reachable rules, so the same names are reachable
when the other rules are left out. -/
theorem reachable_pruned_iff (name : String) :
    Reachable (pruned grammar) name ↔ Reachable grammar name := by
  constructor
  · intro reachable
    induction reachable with
    | root root => exact .root ((root_pruned_iff _).mp root)
    | through _ bound mentioned induction =>
      exact .through induction ((find?_pruned_eq_some_iff _ _).mp bound).1 mentioned
  · intro reachable
    induction reachable with
    | root root => exact .root ((root_pruned_iff _).mpr root)
    | through reached bound mentioned induction =>
      exact .through induction ((find?_pruned_eq_some_iff _ _).mpr ⟨bound, reached⟩) mentioned

/-- No rule that is left is unreachable. -/
theorem unreachableRules_pruned (grammar : Grammar) : unreachableRules (pruned grammar) = [] := by
  rw [unreachableRules_eq_filter, List.filter_eq_nil_iff]
  intro name member
  have reachable := (reachable_pruned_iff name).mpr ((mem_names_pruned_iff name).mp member).2
  simp [reachable]

/-- A defined name stays defined, unless it belongs to a rule that is left out. -/
theorem defines_pruned {name : String} (defined : grammar.defines name = true)
    (stays : name ∈ grammar.rules.names → Reachable grammar name) :
    (pruned grammar).defines name = true := by
  simp only [Grammar.defines, Bool.or_eq_true, Table.contains, List.contains_iff_mem] at defined ⊢
  rcases defined with rule | external
  · exact .inl ((mem_names_pruned_iff name).mpr ⟨rule, stays rule⟩)
  · exact .inr external

/-- A rule that mentions none of the rules that are left out has no new violation. -/
theorem ruleViolations_pruned {context : String} {rule : Rule}
    (clean : ruleViolations grammar context rule = [])
    (stays : ∀ name, rule.Mentions name → name ∈ grammar.rules.names → Reachable grammar name) :
    ruleViolations (pruned grammar) context rule = [] := by
  unfold ruleViolations at clean ⊢
  rw [List.filterMap_eq_nil_iff] at clean ⊢
  intro node inChecked
  have sound := (violation?_eq_none_iff grammar context node).mp (clean node inChecked)
  refine (violation?_eq_none_iff _ context node).mpr { sound with symbol := ?_ }
  intro isSymbol
  obtain ⟨name, named, defined⟩ := sound.symbol isSymbol
  have refers : node.symbolName? = some name := by
    simp [Rule.symbolName?, Rule.isSymbol, isSymbol, named]
  have mentioned : rule.Mentions name :=
    ⟨node, Rule.reaches_of_mem_checked rule node inChecked, refers⟩
  exact ⟨name, named, defines_pruned defined (stays name mentioned)⟩

/-- Neither has a section that refers to none of them. -/
theorem referenceViolations_pruned {place : Section} {names : List String}
    (clean : referenceViolations grammar place names = [])
    (stays : ∀ name ∈ names, name ∈ grammar.rules.names → Reachable grammar name) :
    referenceViolations (pruned grammar) place names = [] := by
  simp only [referenceViolations, List.map_eq_nil_iff, List.filter_eq_nil_iff,
    Bool.not_eq_true', Bool.not_eq_false] at clean ⊢
  intro name member
  exact defines_pruned (clean name member) (stays name member)

/-- Leaving out unreachable rules that no section mentions breaks no check. The rules and
extras that are left mention reachable names only, as does the word section. -/
theorem violations_pruned (clean : violations grammar = [])
    (unmentioned : ∀ name ∈ grammar.rules.names, ¬ Reachable grammar name →
      Unmentioned grammar name) : violations (pruned grammar) = [] := by
  have stays {name : String} (used : ¬ Unmentioned grammar name)
      (member : name ∈ grammar.rules.names) : Reachable grammar name := by
    by_contra unreachable
    exact used (unmentioned name member unreachable)
  simp only [violations, fixedViolations, sectionViolations, wordViolations,
    List.append_eq_nil_iff, List.flatMap_eq_nil_iff] at clean ⊢
  obtain ⟨⟨⟨⟨nonempty, rules⟩, extras⟩, ⟨⟨⟨⟨word, inline⟩, supertypes⟩, conflicts⟩,
    precedences⟩⟩, reserved⟩ := clean
  refine ⟨⟨⟨⟨?_, ?_⟩, ?_⟩, ⟨⟨⟨⟨?_, ?_⟩, ?_⟩, ?_⟩, ?_⟩⟩, ?_⟩
  · rwa [isEmpty_pruned]
  · intro entry member
    obtain ⟨bound, reachable⟩ := List.mem_filter.mp member
    refine ruleViolations_pruned (rules entry bound) fun name mentioned _ => ?_
    exact .through (of_decide_eq_true reachable)
      ((Table.find?_eq_some_iff _ _ _).mpr bound) mentioned
  · intro rule member
    exact ruleViolations_pruned (extras rule member) fun name mentioned _ =>
      .root (.extra rule member mentioned)
  · exact referenceViolations_pruned word fun name member _ =>
      .root (.word (Option.mem_toList.mp member))
  · exact referenceViolations_pruned inline fun name member =>
      stays fun free => free.inline member
  · exact referenceViolations_pruned supertypes fun name member =>
      stays fun free => free.supertypes member
  · exact referenceViolations_pruned conflicts fun name member =>
      stays fun free => free.conflicts member
  · refine referenceViolations_pruned precedences fun name member => stays fun free => ?_
    obtain ⟨rule, inGroups, refers⟩ := List.mem_filterMap.mp member
    exact free.precedences rule inGroups refers
  · intro words inValues rule inWords
    exact ruleViolations_pruned (reserved words inValues rule inWords) fun name mentioned =>
      stays fun free => free.reserved words inValues rule inWords mentioned

/-- The levels of the rules that are left are told as before. -/
theorem mixedPrecedences_pruned (grammar : Grammar) :
    mixedPrecedences (pruned grammar) =
      (mixedPrecedences grammar).filter fun told => told.1 ∈ (pruned grammar).rules.names := by
  rw [mixedPrecedences_eq_filter (fun name => Reachable grammar name) rfl]
  apply List.filter_congr
  intro told member
  have isRule := name_mem_of_mem_mixedPrecedences member
  simp [mem_names_pruned_iff, isRule]

end Validation

namespace Grammar

open Validation

theorem values_pruned_subset (grammar : Grammar) :
    (pruned grammar).rules.values ⊆ grammar.rules.values :=
  (List.filter_sublist.map Prod.snd).subset

/-- What the rules that are left ask numbers for has been asked for before. -/
theorem keySequence_pruned_subset (grammar : Grammar) :
    (pruned grammar).keySequence ⊆ grammar.keySequence := by
  rintro ⟨name, named⟩
  have shown : (name, named) ∈ (pruned grammar).shownKeys → (name, named) ∈ grammar.shownKeys := by
    rw [mem_shownKeys_iff, mem_shownKeys_iff]
    rintro ⟨rule, member, node, isShown, key⟩
    exact ⟨rule, grammar.values_pruned_subset member, node, isShown, key⟩
  cases named with
  | true =>
    rw [named_mem_keySequence_iff, named_mem_keySequence_iff, mem_names_pruned_iff]
    exact Or.imp And.left shown
  | false =>
    rw [anonymous_mem_keySequence_iff, anonymous_mem_keySequence_iff]
    exact Or.imp_right shown

theorem fieldSet_pruned_subset (grammar : Grammar) :
    (pruned grammar).fieldSet ⊆ grammar.fieldSet := by
  intro name
  simp only [fieldSet, List.mem_toFinset, List.mem_filterMap, List.mem_filter, List.mem_flatMap]
  rintro ⟨node, ⟨⟨rule, member, inRule⟩, isField⟩, named⟩
  exact ⟨node, ⟨⟨rule, grammar.values_pruned_subset member, inRule⟩, isField⟩, named⟩

end Grammar

/-- The symbols of a grammar can still be numbered when unreachable rules are left out. -/
theorem SymbolTable.exists_of_pruned [Matcher] {grammar : Grammar} {table : SymbolTable}
    (built : (ofGrammar? grammar).value = some table) :
    ∃ rest, (ofGrammar? (Validation.pruned grammar)).value = some rest := by
  rw [← Option.ne_none_iff_exists']
  intro missing
  have kinds := length_eraseDups_le grammar.keySequence_pruned_subset
  have fields := Finset.card_le_card grammar.fieldSet_pruned_subset
  have fits : (ofGrammar? grammar).value = none := by
    rw [ofGrammar?_eq_none_iff] at missing ⊢
    omega
  simp [built] at fits

namespace Language

open Validation in
/-- Leaving out the unreachable rules is safe, if nothing mentions them that is checked
without being a root of the search: the grammar that is left is accepted and begins with
the same rule, none of its rules is unreachable, and of the rules with several precedence
levels it has those that are left, with the same levels. -/
theorem pruned_accepted [Matcher] (grammar : Grammar) (language : Language)
    (accepted : (ofGrammar grammar).value = .ok language)
    (unmentioned : ∀ name ∈ grammar.rules.names, ¬ Reachable grammar name →
      Unmentioned grammar name) :
    (pruned grammar).start? = grammar.start? ∧
    ∃ rest, (ofGrammar (pruned grammar)).value = .ok rest ∧
      rest.warnings.filterMap Warning.unreachable? = [] ∧
      rest.warnings.filterMap Warning.mixed? =
        (language.warnings.filterMap Warning.mixed?).filter fun told =>
          told.1 ∈ (pruned grammar).rules.names := by
  obtain ⟨clean, symbols, built, rfl⟩ := (ofGrammar_eq_ok_iff grammar language).mp accepted
  obtain ⟨symbols', built'⟩ := SymbolTable.exists_of_pruned built
  refine ⟨start?_pruned grammar, _, (ofGrammar_eq_ok_iff _ _).mpr
    ⟨violations_pruned clean unmentioned, symbols', built', rfl⟩, ?_, ?_⟩
  · exact (filterMap_unreachable?_warnings _).trans (unreachableRules_pruned grammar)
  · have before := filterMap_mixed?_warnings grammar
    have after := filterMap_mixed?_warnings (pruned grammar)
    simp only [Language.warnings, before, after, mixedPrecedences_pruned]

/-- A grammar with two rules that only refer to each other, and with several precedence
levels in one of them and in the first rule. -/
def overgrown : Grammar where
  name := "overgrown"
  rules := ⟨[("page", .seq [.prec 1 (.symbol "item"), .prec 2 (.string ";")]),
    ("ivy", .choice [.prec 3 (.symbol "moss"), .prec 4 .blank]),
    ("item", .string "-"), ("moss", .symbol "ivy")], by simp⟩
  inline := ["item"]

open Validation in
theorem overgrown_pruned :
    (pruned overgrown).rules.names = ["page", "item"] ∧
    ∃ rest, (ofGrammar (pruned overgrown)).value = .ok rest ∧
      rest.warnings.filterMap Warning.unreachable? = [] ∧
      rest.warnings.filterMap Warning.mixed? = [("page", [1, 2])] := by
  have unmentioned : ∀ name ∈ overgrown.rules.names, ¬ Reachable overgrown name →
      Unmentioned overgrown name := by
    intro name _ unreachable
    have apart : name ≠ "item" := by
      rintro rfl
      exact unreachable (by decide +kernel)
    exact ⟨by simpa [overgrown] using apart, by simp [overgrown], by simp [overgrown],
      by simp [overgrown], by simp [overgrown, Table.values, Table.empty]⟩
  have clean : violations overgrown = [] := by decide
  have mixed : mixedPrecedences overgrown = [("ivy", [3, 4]), ("page", [1, 2])] := by
    decide +kernel
  cases built : (SymbolTable.ofGrammar? overgrown).value with
  | none => exact absurd ((SymbolTable.ofGrammar?_eq_none_iff _).mp built) (by decide)
  | some symbols =>
    have accepted := (ofGrammar_eq_ok_iff overgrown _).mpr ⟨clean, symbols, built, rfl⟩
    obtain ⟨_, rest, loaded, unreachable, kept⟩ :=
      pruned_accepted overgrown _ accepted unmentioned
    refine ⟨by decide +kernel, rest, loaded, unreachable, ?_⟩
    have before : (declarative overgrown symbols (Validation.warnings overgrown)).warnings.filterMap
        Warning.mixed? = [("ivy", [3, 4]), ("page", [1, 2])] :=
      (filterMap_mixed?_warnings overgrown).trans mixed
    rw [kept, before]
    decide +kernel

end Language

end GrammarArtifact
