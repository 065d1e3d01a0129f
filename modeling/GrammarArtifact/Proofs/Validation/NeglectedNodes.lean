import GrammarArtifact.Proofs.Validation.Violations
import GrammarArtifact.Rule.Build
import Mathlib.Tactic.MkIffOfInductiveProp

/-!
# Nodes that the checks do not go to

A node may carry a content and members whatever its kind. The checks follow the
members of sequences and choices and the content of wrappers, and everything else that
reads a rule follows both. The children in between are strays, and no check goes to
them or below them. So the nodes of a rule are the checked ones and the neglected
ones, and acceptance speaks for the checked ones alone: in an accepted grammar every
node is well formed exactly when the neglected nodes happen to be.
-/

namespace GrammarArtifact

namespace Rule

/-- The children that the checks pass over. -/
def strayChildren (node : Rule) : List Rule :=
  if node.kind = .seq ∨ node.kind = .choice then node.content.toList
  else if node.kind.isWrapper then node.members
  else node.children

/-- A node is neglected when it is a stray child of a checked node or lies below one. -/
def Neglects (rule node : Rule) : Prop :=
  ∃ parent ∈ rule.checked, ∃ stray ∈ parent.strayChildren, stray.Reaches node

theorem mem_children_iff (node child : Rule) :
    child ∈ node.children ↔ child ∈ node.checkedChildren ∨ child ∈ node.strayChildren := by
  unfold checkedChildren strayChildren
  split
  · rw [children, List.mem_append, or_comm]
  · split
    · rw [children, List.mem_append]
    · simp

theorem mem_checked_iff (rule node : Rule) :
    node ∈ rule.checked ↔ node = rule ∨ ∃ child ∈ rule.checkedChildren, node ∈ child.checked := by
  rw [checked_eq_cons_flatMap, List.mem_cons, List.mem_flatMap]

/-- Neglect of a child that is checked is neglect by the rule. -/
theorem Neglects.of_checkedChild {rule child node : Rule} (member : child ∈ rule.checkedChildren)
    (neglected : child.Neglects node) : rule.Neglects node := by
  obtain ⟨parent, inChild, stray, isStray, reached⟩ := neglected
  exact ⟨parent, (mem_checked_iff rule parent).mpr (.inr ⟨child, member, inChild⟩), stray,
    isStray, reached⟩

theorem reaches_of_mem_checked (rule : Rule) : ∀ node ∈ rule.checked, rule.Reaches node := by
  induction rule using childInduction with
  | step rule induction =>
    intro node inChecked
    rcases (mem_checked_iff rule node).mp inChecked with rfl | ⟨child, member, inChild⟩
    · exact .here _
    · have isChild := mem_children_of_checked member
      exact .through isChild (induction child isChild node inChild)

/-- The nodes of a rule are the checked nodes and the neglected ones. -/
theorem reaches_iff_checked_or_neglects (rule node : Rule) :
    rule.Reaches node ↔ node ∈ rule.checked ∨ rule.Neglects node := by
  constructor
  · intro reached
    induction reached with
    | here rule => exact .inl ((mem_checked_iff rule rule).mpr (.inl rfl))
    | @through rule child node member reached induction =>
      rcases (mem_children_iff rule child).mp member with isChecked | isStray
      · rcases induction with inChecked | neglected
        · exact .inl ((mem_checked_iff rule node).mpr (.inr ⟨child, isChecked, inChecked⟩))
        · exact .inr (.of_checkedChild isChecked neglected)
      · have self : rule ∈ rule.checked := (mem_checked_iff rule rule).mpr (.inl rfl)
        exact .inr ⟨rule, self, child, isStray, reached⟩
  · rintro (inChecked | ⟨parent, inChecked, stray, isStray, reached⟩)
    · exact reaches_of_mem_checked rule node inChecked
    · have isChild := (mem_children_iff parent stray).mpr (.inr isStray)
      exact (reaches_of_mem_checked rule parent inChecked).trans (.through isChild reached)

/-- A node has what its kind asks for, and a symbol refers to a defined name. -/
@[mk_iff]
structure WellFormed (grammar : Grammar) (node : Rule) : Prop where
  symbol : node.kind = .symbol → ∃ name, node.name = some name ∧ grammar.defines name = true
  text : node.kind = .string ∨ node.kind = .pattern ∨ node.kind = .aliased →
    ∃ text, node.value = some (.text text)
  field : node.kind = .field → ∃ name, node.name = some name
  choice : node.kind = .choice → node.members ≠ []
  content : node.kind.isWrapper = true → ∃ child, node.content = some child

end Rule

namespace Validation

/-- The rules that the checks start from: those with names, the extras and the
reserved words. -/
def checkedRules (grammar : Grammar) : List Rule :=
  grammar.rules.values ++ grammar.extras ++ grammar.reserved.values.flatten

section

attribute [local simp] violation? Rule.lacksPart Rule.symbolName? Rule.isSymbol Rule.textValue?
  RuleKind.isWrapper

/-- A node has no violation exactly when it is well formed, whatever the context. -/
theorem violation?_eq_none_iff (grammar : Grammar) (context : String) (node : Rule) :
    violation? grammar context node = none ↔ node.WellFormed grammar := by
  rw [Rule.wellFormed_iff]
  obtain ⟨kind, value, name, content, members, named, flags, contextName⟩ := node
  cases kind
  case blank | seq => simp
  case choice => cases members <;> simp
  case string | pattern => rcases value with _ | (_ | _) <;> simp
  case symbol => cases name <;> simp
  case field => cases name <;> cases content <;> simp
  case aliased => rcases value with _ | (_ | _) <;> cases content <;> simp
  all_goals cases content <;> simp

end

/-- Each rule that the checks start from is checked within some context. -/
theorem ruleViolations_eq_nil {grammar : Grammar} (clean : violations grammar = [])
    {rule : Rule} (member : rule ∈ checkedRules grammar) :
    ∃ context, ruleViolations grammar context rule = [] := by
  simp only [violations, fixedViolations, wordViolations, List.append_eq_nil_iff,
    List.flatMap_eq_nil_iff] at clean
  obtain ⟨⟨⟨⟨_, named⟩, extras⟩, _⟩, reserved⟩ := clean
  rcases List.mem_append.mp member with outside | inWords
  · rcases List.mem_append.mp outside with inRules | inExtras
    · obtain ⟨entry, inEntries, rfl⟩ := List.mem_map.mp inRules
      exact ⟨entry.1, named entry inEntries⟩
    · exact ⟨"extras", extras rule inExtras⟩
  · obtain ⟨words, inValues, inSet⟩ := List.mem_flatten.mp inWords
    exact ⟨"reserved", reserved words inValues rule inSet⟩

/-- In a grammar without violations every checked node is well formed. -/
theorem wellFormed_of_mem_checked {grammar : Grammar} (clean : violations grammar = [])
    {rule node : Rule} (member : rule ∈ checkedRules grammar) (inChecked : node ∈ rule.checked) :
    node.WellFormed grammar := by
  obtain ⟨context, none⟩ := ruleViolations_eq_nil clean member
  exact (violation?_eq_none_iff grammar context node).mp
    (List.filterMap_eq_nil_iff.mp none node inChecked)

/-- In an accepted grammar all checked nodes are well formed, and all nodes are exactly
when the neglected ones are. -/
theorem wellFormed_iff_neglected_wellFormed (grammar : Grammar) (found : List Warning)
    (accepted : grammar.validate.value = .ok found) :
    (∀ rule ∈ checkedRules grammar, ∀ node ∈ rule.checked, node.WellFormed grammar) ∧
      ((∀ rule ∈ checkedRules grammar, ∀ node, rule.Reaches node → node.WellFormed grammar) ↔
        ∀ rule ∈ checkedRules grammar, ∀ node, rule.Neglects node → node.WellFormed grammar) := by
  have clean := ((validate_eq_ok_iff grammar found).mp accepted).1
  refine ⟨fun rule member node => wellFormed_of_mem_checked clean member, ?_⟩
  constructor
  · intro whole rule member node neglected
    exact whole rule member node
      ((Rule.reaches_iff_checked_or_neglects rule node).mpr (.inr neglected))
  · intro strays rule member node reached
    rcases (Rule.reaches_iff_checked_or_neglects rule node).mp reached with inChecked | neglected
    · exact wellFormed_of_mem_checked clean member inChecked
    · exact strays rule member node neglected

/-- A sequence of one defined symbol with a content that no check goes to. -/
def strayed (content : Rule) : Grammar where
  name := "strayed"
  rules := ⟨[("first", { Rule.seq [.symbol "first"] with content := some content })], by simp⟩

/-- A stray symbol that refers to a rule does no harm. -/
theorem strayed_defined_wellFormed :
    (∃ found, (strayed (.symbol "first")).validate.value = .ok found) ∧
      ∀ rule ∈ checkedRules (strayed (.symbol "first")), ∀ node, rule.Reaches node →
        node.WellFormed (strayed (.symbol "first")) := by
  have accepted := (validate_eq_ok_iff (strayed (.symbol "first")) _).mpr ⟨by decide, rfl⟩
  have judged : ∀ rule ∈ checkedRules (strayed (.symbol "first")), ∀ node ∈ rule.nodes,
      violation? (strayed (.symbol "first")) "first" node = none := by decide
  refine ⟨⟨_, accepted⟩, (wellFormed_iff_neglected_wellFormed _ _ accepted).2.mpr ?_⟩
  intro rule member node neglected
  have reached := (Rule.reaches_iff_checked_or_neglects rule node).mpr (.inr neglected)
  exact (violation?_eq_none_iff _ "first" node).mp
    (judged rule member node ((Rule.mem_nodes_iff_reaches rule node).mpr reached))

/-- A stray symbol that refers to nothing is accepted all the same. -/
theorem strayed_undefined_accepted :
    (∃ found, (strayed (.symbol "ghost")).validate.value = .ok found) ∧
      ∃ rule ∈ checkedRules (strayed (.symbol "ghost")), ∃ node, rule.Reaches node ∧
        ¬ node.WellFormed (strayed (.symbol "ghost")) := by
  refine ⟨⟨_, (validate_eq_ok_iff _ _).mpr ⟨by decide, rfl⟩⟩, _, .head _, .symbol "ghost",
    .through (.head _) (.here _), ?_⟩
  rw [← violation?_eq_none_iff _ "first"]
  decide

end Validation

end GrammarArtifact
