import GrammarArtifact.Grammar

/-!
# Reachable rules

A rule is reachable when the start rule, an extra, an external rule or the word
section refers to it, or a reachable rule does. The search for reachable names keeps
a stack: the name on top is visited, and the names that its rule refers to go on top
of the rest. A name that has been visited is dropped when it comes up again, and a
name that belongs to no rule leads nowhere. Each step uses up a pending name or a
reference of a rule that is visited for the first time, so every search ends.
-/

namespace GrammarArtifact.Validation

/-- Rules by name. -/
abbrev RuleIndex := Std.TreeMap String Rule

/-- The rules of a grammar by name. -/
def ruleIndex (grammar : Grammar) : RuleIndex :=
  grammar.rules.entries.foldl (fun rules entry => rules.insert entry.1 entry.2) ∅

/-- A search under way: the names visited so far, and the names to visit, the next one
first. -/
structure Search where
  visited : Std.TreeSet String
  pending : List String

namespace Search

/-- The names that the rule with a name refers to, last first. -/
def leads (rules : RuleIndex) (name : String) : List String :=
  rules[name]?.elim [] Rule.references

/-- Take the next name, unless none is pending. -/
def step? (rules : RuleIndex) (search : Search) : Option Search :=
  match search.pending with
  | [] => none
  | name :: rest =>
    if search.visited.contains name then some { search with pending := rest }
    else some { visited := search.visited.insert name, pending := leads rules name ++ rest }

/-- The references of those rules among some that have not been visited. -/
def ahead (visited : Std.TreeSet String) (rules : List (String × Rule)) : List String :=
  (rules.filter fun entry => !visited.contains entry.1).flatMap (·.2.references)

/-- How many names are pending or can still become so. -/
def work (rules : RuleIndex) (search : Search) : Nat :=
  search.pending.length + (ahead search.visited rules.toList).length

theorem ahead_cons (visited : Std.TreeSet String) (entry : String × Rule)
    (rest : List (String × Rule)) :
    ahead visited (entry :: rest) =
      (if visited.contains entry.1 then [] else entry.2.references) ++ ahead visited rest := by
  cases known : visited.contains entry.1 <;> simp [ahead, known]

theorem ahead_append (visited : Std.TreeSet String) (before after : List (String × Rule)) :
    ahead visited (before ++ after) = ahead visited before ++ ahead visited after := by
  simp [ahead]

theorem length_ahead_insert_le (visited : Std.TreeSet String) (name : String)
    (rules : List (String × Rule)) :
    (ahead (visited.insert name) rules).length ≤ (ahead visited rules).length := by
  induction rules with
  | nil => exact Nat.le_refl _
  | cons entry rest induction =>
    rw [ahead_cons, ahead_cons, List.length_append, List.length_append]
    cases known : visited.contains entry.1 with
    | true =>
      have still : (visited.insert name).contains entry.1 = true := by simp [known]
      simpa [still] using induction
    | false =>
      cases (visited.insert name).contains entry.1 <;> simp <;> omega

/-- Visiting a rule takes its references away from those ahead. -/
theorem length_references_add_ahead_le (visited : Std.TreeSet String) (name : String)
    (fresh : visited.contains name = false) (rule : Rule) (rules : List (String × Rule))
    (member : (name, rule) ∈ rules) :
    rule.references.length + (ahead (visited.insert name) rules).length ≤
      (ahead visited rules).length := by
  obtain ⟨before, after, rfl⟩ := List.append_of_mem member
  have earlier := length_ahead_insert_le visited name before
  have later := length_ahead_insert_le visited name after
  simp only [ahead_append, ahead_cons, fresh, Std.TreeSet.contains_insert_self, if_true,
    List.nil_append, List.length_append, Bool.false_eq_true, if_false]
  omega

theorem work_lt_of_step? {rules : RuleIndex} {search next : Search}
    (stepped : search.step? rules = some next) : next.work rules < search.work rules := by
  unfold step? at stepped
  split at stepped
  · contradiction
  · next name rest order =>
    split at stepped
    · obtain rfl := Option.some.inj stepped
      simp [work, order]
    · next unknown =>
      obtain rfl := Option.some.inj stepped
      have fresh : search.visited.contains name = false := Bool.eq_false_iff.mpr unknown
      have bound : (leads rules name).length +
          (ahead (search.visited.insert name) rules.toList).length ≤
            (ahead search.visited rules.toList).length := by
        cases found : rules[name]? with
        | none => simpa [leads, found] using length_ahead_insert_le search.visited name rules.toList
        | some rule =>
          have member := Std.TreeMap.mem_toList_iff_getElem?_eq_some.mpr found
          simpa [leads, found] using
            length_references_add_ahead_le search.visited name fresh rule rules.toList member
      simp only [work, order, List.length_cons, List.length_append]
      omega

/-- Search until no name is pending, and keep the visited names. -/
def run (rules : RuleIndex) (search : Search) : Std.TreeSet String :=
  match _stepped : search.step? rules with
  | none => search.visited
  | some next => run rules next
termination_by search.work rules
decreasing_by exact work_lt_of_step? _stepped

end Search

/-- The names that the search starts with: the word rule, the symbols of external rules
and extras, and the start rule. They are visited in this order, and the symbols last
first. -/
def roots (grammar : Grammar) : List String :=
  grammar.word.toList ++
    (grammar.extras ++ grammar.externals).reverse.flatMap Rule.references ++
    grammar.rules.names.take 1

/-- The reachable names. -/
def reached (grammar : Grammar) : Std.TreeSet String :=
  Search.run (ruleIndex grammar) { visited := ∅, pending := roots grammar }

/-- The names of the unreachable rules, in rule order. Rules that are inlined do not
count, because references to them are not kept. -/
def unreachableRules (grammar : Grammar) : List String :=
  let reached := reached grammar
  grammar.rules.names.filter fun name =>
    !reached.contains name && !grammar.inline.contains name

end GrammarArtifact.Validation
