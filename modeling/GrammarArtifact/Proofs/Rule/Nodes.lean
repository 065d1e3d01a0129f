import GrammarArtifact.Rule

/-!
# The nodes of a rule

Whoever looks at a whole rule goes from a node to its children and on, whatever the
kinds of the nodes are. `Reaches` says so without an order, and `nodes` lists what is
reached. The induction over the children of a node carries every argument about whole
rules; the lists of nodes and the references of a rule follow its single step.
-/

namespace GrammarArtifact.Rule

/-- A node is reached from a rule by going from children to children. -/
inductive Reaches : Rule → Rule → Prop
  | here (rule : Rule) : Reaches rule rule
  | through {rule child node : Rule} (member : child ∈ rule.children)
      (reached : Reaches child node) : Reaches rule node

/-- A symbol somewhere in a rule has the name. -/
def Mentions (rule : Rule) (name : String) : Prop :=
  ∃ node, rule.Reaches node ∧ node.symbolName? = some name

theorem Reaches.trans {first second third : Rule} (one : first.Reaches second)
    (other : second.Reaches third) : first.Reaches third := by
  induction one with
  | here => exact other
  | through member _ induction => exact .through member (induction other)

/-- Children are smaller than the node that they belong to. -/
theorem sizeOf_lt_of_mem_children {rule child : Rule} (member : child ∈ rule.children) :
    sizeOf child < sizeOf rule := by
  obtain ⟨kind, value, name, content, members, named, flags, contextName⟩ := rule
  simp only [children, List.mem_append, Option.mem_toList] at member
  rcases member with inContent | inMembers
  · subst inContent
    simp
    omega
  · have smaller := List.sizeOf_lt_of_mem inMembers
    simp
    omega

/-- What holds of a node whenever it holds of its children holds of every rule. -/
theorem childInduction {motive : Rule → Prop}
    (step : ∀ rule : Rule, (∀ child ∈ rule.children, motive child) → motive rule)
    (rule : Rule) : motive rule :=
  step rule fun child _ => childInduction step child
termination_by sizeOf rule
decreasing_by exact sizeOf_lt_of_mem_children ‹_›

theorem nodesIn_eq_flatMap (content : Option Rule) :
    nodesIn content = content.toList.flatMap nodes := by
  cases content <;> simp [nodesIn]

theorem nodesOf_eq_flatMap (rules : List Rule) : nodesOf rules = rules.flatMap nodes := by
  induction rules with
  | nil => rfl
  | cons rule rest induction => rw [nodesOf, induction, List.flatMap_cons]

/-- The nodes of a rule are the rule and then the nodes of its children. -/
theorem nodes_eq_cons_flatMap (rule : Rule) :
    rule.nodes = rule :: rule.children.flatMap nodes := by
  obtain ⟨kind, value, name, content, members, named, flags, contextName⟩ := rule
  rw [nodes, nodesIn_eq_flatMap, nodesOf_eq_flatMap, children, List.flatMap_append]

theorem mem_nodes_iff_reaches (rule node : Rule) : node ∈ rule.nodes ↔ rule.Reaches node := by
  induction rule using childInduction with
  | step rule induction =>
    rw [nodes_eq_cons_flatMap, List.mem_cons, List.mem_flatMap]
    constructor
    · rintro (rfl | ⟨child, member, below⟩)
      · exact .here _
      · exact .through member ((induction child member).mp below)
    · intro reached
      cases reached with
      | here => exact .inl rfl
      | through member reached => exact .inr ⟨_, member, (induction _ member).mpr reached⟩

/-- Gathering what nodes have to offer puts the last find first, before what has been
found already. -/
theorem foldl_toList_append {α : Type} (offer? : Rule → Option α) (nodes : List Rule)
    (found : List α) :
    nodes.foldl (fun found node => (offer? node).toList ++ found) found =
      (nodes.filterMap offer?).reverse ++ found := by
  induction nodes generalizing found with
  | nil => rfl
  | cons node rest induction =>
    rw [List.foldl_cons, induction, List.filterMap_cons]
    cases offer? node <;> simp

/-- The references of a rule are the names that its symbols mention. -/
theorem mem_references_iff_mentions (rule : Rule) (name : String) :
    name ∈ rule.references ↔ rule.Mentions name := by
  rw [references, fold_eq_foldl_nodes, foldl_toList_append]
  simp [Mentions, mem_nodes_iff_reaches]

end GrammarArtifact.Rule
