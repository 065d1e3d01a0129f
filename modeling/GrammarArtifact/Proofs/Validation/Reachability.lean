import GrammarArtifact.Proofs.Rule.Nodes
import GrammarArtifact.Proofs.Table
import GrammarArtifact.Proofs.Validation.Violations
import GrammarArtifact.Rule.Build

/-!
# Reachable names

Reachability is a least set: it holds the roots, and with a rule everything that the
rule mentions. A search meets nothing else at any time, since it starts with the roots
and follows rules. What it has met is closed up to the names that are still pending, so
it is closed when none is left. Every search comes to that point, because each step
takes away from its work.
-/

namespace GrammarArtifact.Validation

/-- The first rule, the symbols of extras and external rules, and the word rule are
used whatever the rules say. -/
inductive Root (grammar : Grammar) (name : String) : Prop
  | start (first : grammar.rules.names.head? = some name)
  | extra (rule : Rule) (member : rule ∈ grammar.extras) (mentioned : rule.Mentions name)
  | external (rule : Rule) (member : rule ∈ grammar.externals)
      (mentioned : rule.Mentions name)
  | word (named : grammar.word = some name)

/-- The least set of names that holds the roots, and with the name of a rule all names
that the rule mentions. Names of no rule may be in it, and lead nowhere. -/
inductive Reachable (grammar : Grammar) : String → Prop
  | root {name : String} (root : Root grammar name) : Reachable grammar name
  | through {source name : String} {rule : Rule} (reached : Reachable grammar source)
      (bound : grammar.rules.find? source = some rule) (mentioned : rule.Mentions name) :
      Reachable grammar name

theorem mem_roots_iff (grammar : Grammar) (name : String) :
    name ∈ roots grammar ↔ Root grammar name := by
  have first : name ∈ grammar.rules.names.take 1 ↔ grammar.rules.names.head? = some name := by
    cases grammar.rules.names <;> simp [eq_comm]
  simp only [roots, List.mem_append, Option.mem_toList, List.mem_flatMap, List.mem_reverse,
    Rule.mem_references_iff_mentions, first]
  constructor
  · rintro ((named | ⟨rule, inExtras | inExternals, mentioned⟩) | isFirst)
    · exact .word named
    · exact .extra rule inExtras mentioned
    · exact .external rule inExternals mentioned
    · exact .start isFirst
  · rintro (isFirst | ⟨rule, member, mentioned⟩ | ⟨rule, member, mentioned⟩ | named)
    · exact .inr isFirst
    · exact .inl (.inr ⟨rule, .inl member, mentioned⟩)
    · exact .inl (.inr ⟨rule, .inr member, mentioned⟩)
    · exact .inl (.inl named)

/-- The index finds the rules of the grammar. -/
theorem getElem?_ruleIndex (grammar : Grammar) (name : String) :
    (ruleIndex grammar)[name]? = grammar.rules.find? name := by
  rw [ruleIndex, Table.getElem?_foldl_insert _ grammar.rules.distinct, Table.find?]
  simp

namespace Search

theorem mem_leads_iff (grammar : Grammar) (source name : String) :
    name ∈ leads (ruleIndex grammar) source ↔
      ∃ rule, grammar.rules.find? source = some rule ∧ rule.Mentions name := by
  rw [leads, getElem?_ruleIndex]
  cases grammar.rules.find? source with
  | none => simp
  | some rule => simp [Rule.mem_references_iff_mentions]

/-- A search has met the names that it has visited, and those that it is going to. -/
def Meets (search : Search) (name : String) : Prop :=
  search.visited.contains name = true ∨ name ∈ search.pending

/-- All that a step can do: drop a name that has been visited, or visit a new one. -/
theorem step?_cases {rules : RuleIndex} {search next : Search}
    (stepped : search.step? rules = some next) :
    ∃ name rest, search.pending = name :: rest ∧
      (search.visited.contains name = true ∧ next = { search with pending := rest } ∨
        search.visited.contains name = false ∧
          next = ⟨search.visited.insert name, leads rules name ++ rest⟩) := by
  unfold step? at stepped
  split at stepped
  · contradiction
  · next name rest order =>
    refine ⟨name, rest, order, ?_⟩
    split at stepped
    · next known => exact .inl ⟨known, (Option.some.inj stepped).symm⟩
    · next unknown =>
      exact .inr ⟨Bool.eq_false_iff.mpr unknown, (Option.some.inj stepped).symm⟩

/-- A search rests exactly when no name is pending. -/
theorem step?_eq_none_iff (rules : RuleIndex) (search : Search) :
    search.step? rules = none ↔ search.pending = [] := by
  unfold step?
  cases search.pending with
  | nil => simp
  | cons name rest =>
    simp only [reduceCtorEq, iff_false]
    split <;> simp

/-- The next name that is pending leads to whatever a step meets anew. -/
theorem meets_of_step? {rules : RuleIndex} {search next : Search}
    (stepped : search.step? rules = some next) {name : String} (met : next.Meets name) :
    search.Meets name ∨ ∃ source, search.Meets source ∧ name ∈ leads rules source := by
  obtain ⟨source, rest, order, ⟨_, rfl⟩ | ⟨_, rfl⟩⟩ := step?_cases stepped
  · left
    rcases met with visited | pending
    · exact .inl visited
    · exact .inr (order ▸ List.mem_cons_of_mem source pending)
  · have here : search.Meets source := .inr (order ▸ List.mem_cons_self)
    simp only [Meets, Std.TreeSet.contains_insert, Bool.or_eq_true, beq_iff_eq,
      Std.LawfulEqCmp.compare_eq_iff_eq, List.mem_append] at met
    rcases met with (rfl | visited) | led | pending
    · exact .inl here
    · exact .inl (.inl visited)
    · exact .inr ⟨source, here, led⟩
    · exact .inl (.inr (order ▸ List.mem_cons_of_mem source pending))

/-- A step forgets no name. -/
theorem Meets.of_step? {rules : RuleIndex} {search next : Search}
    (stepped : search.step? rules = some next) {name : String} (met : search.Meets name) :
    next.Meets name := by
  obtain ⟨source, rest, order, ⟨known, rfl⟩ | ⟨_, rfl⟩⟩ := step?_cases stepped
  · rcases met with visited | pending
    · exact .inl visited
    · rw [order, List.mem_cons] at pending
      rcases pending with rfl | later
      · exact .inl known
      · exact .inr later
  · rcases met with visited | pending
    · exact .inl (by simp [visited])
    · rw [order, List.mem_cons] at pending
      rcases pending with rfl | later
      · exact .inl (by simp)
      · exact .inr (List.mem_append_right _ later)

/-- What a search keeps: it has met all roots, it has met whatever a visited rule
mentions, and it has met reachable names only. -/
structure Keeps (grammar : Grammar) (search : Search) : Prop where
  roots : ∀ name, Root grammar name → search.Meets name
  leads : ∀ source, search.visited.contains source = true →
    ∀ name ∈ leads (ruleIndex grammar) source, search.Meets name
  reachable : ∀ name, search.Meets name → Reachable grammar name

theorem keeps_start (grammar : Grammar) :
    Keeps grammar { visited := ∅, pending := Validation.roots grammar } where
  roots name root := .inr ((mem_roots_iff grammar name).mpr root)
  leads source visited := by simp at visited
  reachable name met := by
    rcases met with visited | pending
    · simp at visited
    · exact .root ((mem_roots_iff grammar name).mp pending)

theorem Keeps.step {grammar : Grammar} {search next : Search}
    (stepped : search.step? (ruleIndex grammar) = some next) (kept : Keeps grammar search) :
    Keeps grammar next where
  roots name root := (kept.roots name root).of_step? stepped
  leads source visited name led := by
    by_cases before : search.visited.contains source = true
    · exact (kept.leads source before name led).of_step? stepped
    · -- a source that has not been visited before is the name that the step took
      obtain ⟨taken, rest, _, ⟨_, rfl⟩ | ⟨_, rfl⟩⟩ := step?_cases stepped
      · contradiction
      · have same : taken = source := by
          simpa [before] using visited
        subst same
        exact .inr (List.mem_append_left rest led)
  reachable name met := by
    rcases meets_of_step? stepped met with already | ⟨source, known, led⟩
    · exact kept.reachable name already
    · obtain ⟨rule, bound, mentioned⟩ := (mem_leads_iff grammar source name).mp led
      exact .through (kept.reachable source known) bound mentioned

theorem run_of_rests {rules : RuleIndex} {search : Search}
    (rests : search.step? rules = none) : search.run rules = search.visited := by
  rw [run]
  split
  · rfl
  · next stepped => simp [rests] at stepped

theorem run_of_step? {rules : RuleIndex} {search next : Search}
    (stepped : search.step? rules = some next) : search.run rules = next.run rules := by
  rw [run]
  split
  · next rests => simp [rests] at stepped
  · next other stepped' =>
    obtain rfl := Option.some.inj (stepped.symm.trans stepped')
    rfl

/-- A search at rest has visited what it is to visit. -/
theorem eq_run_of_rests {rules : RuleIndex} {search : Search}
    (rests : search.step? rules = none) :
    search = { visited := search.run rules, pending := [] } := by
  have nothing := (step?_eq_none_iff rules search).mp rests
  rw [run_of_rests rests, ← nothing]

/-- What every step keeps still holds at the end of a search. -/
theorem run_induction {rules : RuleIndex} {motive : Search → Prop}
    (step : ∀ search next, search.step? rules = some next → motive search → motive next)
    (search : Search) (start : motive search) :
    motive { visited := search.run rules, pending := [] } := by
  induction search using run.induct rules with
  | case1 search rests => exact eq_run_of_rests rests ▸ start
  | case2 search next stepped induction =>
    rw [run_of_step? stepped]
    exact induction (step search next stepped start)

/-- A search after a number of steps. From where it rests it does not go on. -/
def after (rules : RuleIndex) : Nat → Search → Search
  | 0, search => search
  | steps + 1, search => (search.step? rules).elim search (after rules steps)

/-- As many steps as there is work bring every search to rest. -/
theorem after_eq_run (rules : RuleIndex) (steps : Nat) (search : Search)
    (enough : search.work rules ≤ steps) :
    search.after rules steps = { visited := search.run rules, pending := [] } := by
  induction steps generalizing search with
  | zero =>
    have nothing : search.pending = [] := by
      rw [← List.length_eq_zero_iff]
      unfold work at enough
      omega
    exact eq_run_of_rests ((step?_eq_none_iff rules search).mpr nothing)
  | succ steps induction =>
    rw [after]
    cases stepped : search.step? rules with
    | none => exact eq_run_of_rests stepped
    | some next =>
      have less := work_lt_of_step? stepped
      rw [Option.elim_some, run_of_step? stepped]
      exact induction next (by omega)

end Search

/-- The search for reachable names finds all of them and no others. -/
theorem contains_reached_iff (grammar : Grammar) (name : String) :
    (reached grammar).contains name = true ↔ Reachable grammar name := by
  have kept : Search.Keeps grammar { visited := reached grammar, pending := [] } :=
    Search.run_induction (fun _ _ => Search.Keeps.step) _ (Search.keeps_start grammar)
  -- nothing is pending, so what has been met has been visited
  have visited (name : String)
      (met : Search.Meets { visited := reached grammar, pending := [] } name) :
      (reached grammar).contains name = true := by
    rcases met with visited | pending
    · exact visited
    · contradiction
  constructor
  · intro visited
    exact kept.reachable name (.inl visited)
  · intro reachable
    induction reachable with
    | root root => exact visited _ (kept.roots _ root)
    | through _ bound mentioned induction =>
      apply visited
      apply kept.leads _ induction
      exact (Search.mem_leads_iff grammar _ _).mpr ⟨_, bound, mentioned⟩

instance (grammar : Grammar) (name : String) : Decidable (Reachable grammar name) :=
  decidable_of_iff _ (contains_reached_iff grammar name)

theorem unreachableRules_eq_filter (grammar : Grammar) :
    unreachableRules grammar = grammar.rules.names.filter fun name =>
      name ∉ grammar.inline ∧ ¬ Reachable grammar name := by
  unfold unreachableRules
  apply List.filter_congr
  intro name _
  by_cases reachable : Reachable grammar name
  · have visited := (contains_reached_iff grammar name).mpr reachable
    simp [visited, reachable]
  · have missed : (reached grammar).contains name = false :=
      Bool.eq_false_iff.mpr (mt (contains_reached_iff grammar name).mp reachable)
    simp [missed, reachable]

/-- The rule that a warning finds unreachable. -/
def Warning.unreachable? : Warning → Option String
  | .unreachableRule rule => some rule
  | .mixedPrecedence .. => none

theorem filterMap_unreachable?_warnings (grammar : Grammar) :
    (warnings grammar).filterMap Warning.unreachable? = unreachableRules grammar := by
  simp [warnings, Warning.unreachable?, List.filterMap_append, List.filterMap_map,
    Function.comp_def]

/-- The unreachable rules of an accepted grammar are told in rule order and once each:
they are the rules that are neither inlined nor reachable. The search that tells them
apart comes to rest from wherever it stands, in the rules of any grammar. -/
theorem unreachable_warnings_exact (grammar : Grammar) :
    (∀ found, grammar.validate.value = .ok found →
      (found.filterMap Warning.unreachable?).Nodup ∧
        found.filterMap Warning.unreachable? = grammar.rules.names.filter fun name =>
          name ∉ grammar.inline ∧ ¬ Reachable grammar name) ∧
    ∀ (search : Search) (steps : Nat), search.work (ruleIndex grammar) ≤ steps →
      search.after (ruleIndex grammar) steps =
        { visited := search.run (ruleIndex grammar), pending := [] } := by
  constructor
  · intro found accepted
    obtain ⟨_, rfl⟩ := (validate_eq_ok_iff grammar found).mp accepted
    have exact : (warnings grammar).filterMap Warning.unreachable? =
        grammar.rules.names.filter fun name =>
          name ∉ grammar.inline ∧ ¬ Reachable grammar name := by
      rw [filterMap_unreachable?_warnings, unreachableRules_eq_filter]
    refine ⟨?_, exact⟩
    rw [exact]
    exact List.filter_sublist.nodup grammar.rules.distinct
  · intro search steps enough
    exact Search.after_eq_run (ruleIndex grammar) steps search enough

/-- A grammar whose rules lead back to themselves and to an external name, and with a
rule that nothing leads to. -/
def winding : Grammar where
  name := "winding"
  rules := ⟨[("start", .seq [.symbol "item", .symbol "outside"]),
    ("item", .choice [.symbol "item", .symbol "start"]), ("orphan", .symbol "item"),
    ("quiet", .blank)], by simp⟩
  externals := [.symbol "outside"]
  inline := ["quiet"]

theorem winding_told :
    winding.validate.value = .ok [.unreachableRule "orphan"] ∧
      ["orphan"] = winding.rules.names.filter (fun name =>
        name ∉ winding.inline ∧ ¬ Reachable winding name) ∧
      Search.after (ruleIndex winding) 7 { visited := ∅, pending := roots winding } =
        { visited := reached winding, pending := [] } := by
  have accepted : winding.validate.value = .ok [.unreachableRule "orphan"] :=
    (validate_eq_ok_iff winding _).mpr ⟨by decide, by decide +kernel⟩
  obtain ⟨told, rests⟩ := unreachable_warnings_exact winding
  exact ⟨accepted, (told _ accepted).2, rests _ 7 (by decide +kernel)⟩

end GrammarArtifact.Validation
