import GrammarArtifact.Proofs.Rule.Nodes
import GrammarArtifact.Validation

/-!
# The first violation

The checks of a grammar stop at the first fault. Here all violations are listed, in
the order in which the checks would meet them, without any rule for stopping: each
node that the checks go to is judged on its own, and each section contributes the
undefined names that it holds. `validate` accepts a grammar exactly when its list is
empty, and reports the head of the list otherwise.

Later violations in the list are those of the grammar as it stands. Nothing is said
about which of them remain once an earlier one has been mended.
-/

namespace GrammarArtifact

namespace Rule

/-- The children that the checks go on to: the members of sequences and choices, and
the content of a wrapper. -/
def checkedChildren (node : Rule) : List Rule :=
  if node.kind = .seq ∨ node.kind = .choice then node.members
  else if node.kind.isWrapper then node.content.toList
  else []

theorem mem_children_of_checked {node child : Rule} (member : child ∈ node.checkedChildren) :
    child ∈ node.children := by
  unfold checkedChildren at member
  split at member
  · exact List.mem_append_right _ member
  · split at member
    · exact List.mem_append_left _ member
    · contradiction

mutual

/-- The nodes that the checks go to, a node before those below it. -/
def checked : Rule → List Rule
  | ⟨kind, value, name, content, members, named, flags, contextName⟩ =>
    ⟨kind, value, name, content, members, named, flags, contextName⟩ ::
      if kind = .seq ∨ kind = .choice then checkedOf members
      else if kind.isWrapper then checkedIn content
      else []

/-- The checked nodes of a content, if there is one. -/
def checkedIn : Option Rule → List Rule
  | none => []
  | some rule => checked rule

/-- The checked nodes of several rules, one rule after the other. -/
def checkedOf : List Rule → List Rule
  | [] => []
  | rule :: rest => checked rule ++ checkedOf rest

end

theorem checkedIn_eq_flatMap (content : Option Rule) :
    checkedIn content = content.toList.flatMap checked := by
  cases content <;> simp [checkedIn]

theorem checkedOf_eq_flatMap (rules : List Rule) :
    checkedOf rules = rules.flatMap checked := by
  induction rules with
  | nil => rfl
  | cons rule rest induction => rw [checkedOf, induction, List.flatMap_cons]

/-- The checked nodes of a rule are the rule and then those of its checked children. -/
theorem checked_eq_cons_flatMap (rule : Rule) :
    rule.checked = rule :: rule.checkedChildren.flatMap checked := by
  obtain ⟨kind, value, name, content, members, named, flags, contextName⟩ := rule
  rw [checked, checkedIn_eq_flatMap, checkedOf_eq_flatMap]
  simp only [checkedChildren, List.cons.injEq, true_and]
  split
  · rfl
  · split <;> rfl

/-- The node lacks a part, other than a content, that its kind asks for. -/
def lacksPart (node : Rule) : Bool :=
  match node.kind with
  | .symbol | .field => node.name.isNone
  | .string | .pattern | .aliased => node.textValue?.isNone
  | .choice => node.members.isEmpty
  | _ => false

end Rule

namespace Validation

/-- What is wrong with a node by itself. -/
def violation? (grammar : Grammar) (context : String) (node : Rule) : Option Fault :=
  if node.lacksPart then some (.malformedRule node.kind context)
  else
    match node.symbolName? with
    | some symbol =>
      if grammar.defines symbol then none else some (.undefinedSymbol symbol context)
    | none =>
      if node.kind.isWrapper && node.content.isNone then
        some (.missingContent node.kind context)
      else none

/-- The violations of a rule within a context. -/
def ruleViolations (grammar : Grammar) (context : String) (rule : Rule) : List Fault :=
  rule.checked.filterMap (violation? grammar context)

/-- The undefined names among those that a section refers to. -/
def referenceViolations (grammar : Grammar) (place : Section) (names : List String) :
    List Fault :=
  (names.filter (!grammar.defines ·)).map (.unknownReference place)

/-- The violations of all sections of names. -/
def sectionViolations (grammar : Grammar) : List Fault :=
  referenceViolations grammar .word grammar.word.toList ++
    referenceViolations grammar .inline grammar.inline ++
    referenceViolations grammar .supertypes grammar.supertypes ++
    referenceViolations grammar .conflicts grammar.conflicts.flatten ++
    referenceViolations grammar .precedences
      (grammar.precedences.flatten.filterMap Rule.symbolName?)

/-- The violations outside the reserved words. -/
def fixedViolations (grammar : Grammar) : List Fault :=
  (if grammar.rules.isEmpty then [.noRules] else []) ++
    grammar.rules.entries.flatMap (fun entry => ruleViolations grammar entry.1 entry.2) ++
    grammar.extras.flatMap (ruleViolations grammar "extras") ++
    sectionViolations grammar

/-- The violations of one set of reserved words. -/
def wordViolations (grammar : Grammar) (words : List Rule) : List Fault :=
  words.flatMap (ruleViolations grammar "reserved")

/-- All violations of a grammar, in the order in which they are checked. -/
def violations (grammar : Grammar) : List Fault :=
  fixedViolations grammar ++ grammar.reserved.values.flatMap (wordViolations grammar)

theorem contains_foldl_insert (name : String) (names : List String) (found : Scope) :
    (names.foldl (·.insert ·) found).contains name =
      (found.contains name || names.contains name) := by
  induction names generalizing found with
  | nil => simp
  | cons first rest induction =>
    rw [List.foldl_cons, induction, Std.TreeSet.contains_insert]
    by_cases same : name = first
    · simp [same]
    · have apart : (compare first name == .eq) = false := by simpa using Ne.symm same
      simp [same, apart]

/-- Functions that agree on a list find the same in it. -/
theorem findSome?_congr {α β : Type} {first second : α → Option β} {list : List α}
    (same : ∀ element ∈ list, first element = second element) :
    list.findSome? first = list.findSome? second := by
  induction list with
  | nil => rfl
  | cons head rest induction =>
    have restSame := induction fun element member => same element (List.mem_cons_of_mem _ member)
    rw [List.findSome?_cons, List.findSome?_cons, same head List.mem_cons_self, restSame]

/-- The scope holds the defined names. -/
theorem contains_scope (grammar : Grammar) (name : String) :
    (scope grammar).contains name = grammar.defines name := by
  simp [scope, contains_foldl_insert, Grammar.defines, Table.contains]

/-- The violations of a rule are its own and then those of its checked children. -/
theorem ruleViolations_eq_append (grammar : Grammar) (context : String) (rule : Rule) :
    ruleViolations grammar context rule =
      (violation? grammar context rule).toList ++
        rule.checkedChildren.flatMap (ruleViolations grammar context) := by
  rw [ruleViolations, Rule.checked_eq_cons_flatMap, List.filterMap_cons,
    List.filterMap_flatMap]
  cases violation? grammar context rule <;> rfl

theorem faultAmong_eq_findSome? (scope : Scope) (context : String) (rules : List Rule) :
    faultAmong scope context rules = rules.findSome? (faultIn scope context) := by
  induction rules with
  | nil => rfl
  | cons rule rest induction =>
    rw [faultAmong, induction, List.findSome?_cons]
    cases faultIn scope context rule <;> rfl

section

attribute [local simp] faultIn faultOfContent faultAmong_eq_findSome? violation?
  Rule.lacksPart Rule.symbolName? Rule.isSymbol Rule.textValue? Rule.checkedChildren
  RuleKind.isWrapper contains_scope

/-- The check of a rule judges the node and goes on to the checked children. The parts
that decide the judgement depend on the kind, so each group of kinds splits its own. -/
theorem faultIn_eq_or (grammar : Grammar) (context : String) (rule : Rule) :
    faultIn (scope grammar) context rule =
      (violation? grammar context rule).or
        (rule.checkedChildren.findSome? (faultIn (scope grammar) context)) := by
  obtain ⟨kind, value, name, content, members, named, flags, contextName⟩ := rule
  cases kind
  case blank => rfl
  case seq => simp
  case choice => cases members <;> simp
  case string | pattern => rcases value with _ | (_ | _) <;> rfl
  case symbol =>
    cases name with
    | none => rfl
    | some name => cases defined : grammar.defines name <;> simp [defined]
  case field => cases name <;> cases content <;> simp
  case aliased => rcases value with _ | (_ | _) <;> cases content <;> simp
  all_goals cases content <;> simp

end

/-- The check of a rule finds its first violation. -/
theorem faultIn_eq_head? (grammar : Grammar) (context : String) (rule : Rule) :
    faultIn (scope grammar) context rule = (ruleViolations grammar context rule).head? := by
  induction rule using Rule.childInduction with
  | step rule induction =>
    have below : rule.checkedChildren.findSome? (faultIn (scope grammar) context) =
        rule.checkedChildren.findSome? fun child =>
          (ruleViolations grammar context child).head? := by
      apply findSome?_congr
      intro child member
      exact induction child (Rule.mem_children_of_checked member)
    rw [faultIn_eq_or, below, ruleViolations_eq_append, List.head?_append, List.head?_flatMap]
    cases violation? grammar context rule <;> rfl

theorem faultAmong_eq_head? (grammar : Grammar) (context : String) (rules : List Rule) :
    faultAmong (scope grammar) context rules =
      (rules.flatMap (ruleViolations grammar context)).head? := by
  rw [faultAmong_eq_findSome?, List.head?_flatMap]
  exact findSome?_congr fun rule _ => faultIn_eq_head? grammar context rule

/-- Looking for an undefined name in one section finds its first violation. -/
theorem findSome?_map_eq_head? (grammar : Grammar) (place : Section) (names : List String) :
    ((names.map (place, ·)).findSome? fun reference =>
      if (scope grammar).contains reference.2 then none
      else some (Fault.unknownReference reference.1 reference.2)) =
      (referenceViolations grammar place names).head? := by
  induction names with
  | nil => rfl
  | cons name rest induction =>
    rw [List.map_cons, List.findSome?_cons, induction, contains_scope]
    cases defined : grammar.defines name <;> simp [referenceViolations, defined]

/-- The check of the sections finds their first violation. -/
theorem findSome?_sectionReferences_eq_head? (grammar : Grammar) :
    ((sectionReferences grammar).findSome? fun reference =>
      if (scope grammar).contains reference.2 then none
      else some (Fault.unknownReference reference.1 reference.2)) =
      (sectionViolations grammar).head? := by
  simp only [sectionReferences, sectionViolations, List.findSome?_append, List.head?_append,
    findSome?_map_eq_head?]

/-- The check of a grammar finds its first violation. -/
theorem fault?_eq_head? (grammar : Grammar) : fault? grammar = (violations grammar).head? := by
  unfold fault? violations fixedViolations
  cases grammar.rules.isEmpty with
  | true => rfl
  | false =>
    have words : grammar.reserved.values.findSome? (faultAmong (scope grammar) "reserved") =
        grammar.reserved.values.findSome? fun words => (wordViolations grammar words).head? :=
      findSome?_congr fun words _ => faultAmong_eq_head? grammar "reserved" words
    simp only [Bool.false_eq_true, if_false, List.nil_append, List.head?_append,
      List.head?_flatMap, faultIn_eq_head?, faultAmong_eq_head?,
      findSome?_sectionReferences_eq_head?, words, Option.orElse_eq_orElse, Option.orElse_eq_or,
      Option.or_assoc]

theorem value_validate (grammar : Grammar) :
    grammar.validate.value =
      match (violations grammar).head? with
      | some fault => .error fault
      | none => .ok (warnings grammar) := by
  rw [Grammar.validate, fault?_eq_head?]
  cases (violations grammar).head? <;> rfl

/-- A grammar without violations is accepted with its warnings. -/
theorem validate_eq_ok_iff (grammar : Grammar) (found : List Warning) :
    grammar.validate.value = .ok found ↔ violations grammar = [] ∧ warnings grammar = found := by
  rw [value_validate]
  cases violations grammar <;> simp

/-- Any other grammar is rejected with its first violation. -/
theorem validate_eq_error_iff (grammar : Grammar) (fault : Fault) :
    grammar.validate.value = .error fault ↔ (violations grammar).head? = some fault := by
  rw [value_validate]
  cases violations grammar <;> simp

/-- Validation accepts exactly the grammars without violations, and rejects any other
one with the earliest of its violations. -/
theorem validate_reports_first_violation (grammar : Grammar) :
    ((∃ found, grammar.validate.value = .ok found) ↔ violations grammar = []) ∧
      ∀ fault, grammar.validate.value = .error fault ↔
        (violations grammar).head? = some fault := by
  refine ⟨?_, validate_eq_error_iff grammar⟩
  simp [validate_eq_ok_iff]

end Validation

end GrammarArtifact
