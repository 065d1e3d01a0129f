import GrammarArtifact.Proofs.Rule.Nodes
import GrammarArtifact.Rule.Surface

/-!
# What a rule shows

A token hides what is below it, whatever it is put together from. `Shows` goes from a
node to its children as long as the node is no token, and `surface` lists what is met
on the way. A token itself is shown; only its children and what is below them are not.
-/

namespace GrammarArtifact.Rule

/-- A node is shown by a rule when it is reached from the rule without going below a
token. -/
inductive Shows : Rule → Rule → Prop
  | here (rule : Rule) : Shows rule rule
  | through {rule child node : Rule} (unhidden : rule.kind.isToken = false)
      (member : child ∈ rule.children) (shown : Shows child node) : Shows rule node

theorem surfaceIn_eq_flatMap (content : Option Rule) :
    surfaceIn content = content.toList.flatMap surface := by
  cases content <;> simp [surfaceIn]

theorem surfaceOf_eq_flatMap (rules : List Rule) :
    surfaceOf rules = rules.flatMap surface := by
  induction rules with
  | nil => rfl
  | cons rule rest induction => rw [surfaceOf, induction, List.flatMap_cons]

/-- The surface of a rule is the rule and, unless it is a token, the surfaces of its
children. -/
theorem surface_eq_cons_flatMap (rule : Rule) :
    rule.surface =
      rule :: if rule.kind.isToken then [] else rule.children.flatMap surface := by
  obtain ⟨kind, value, name, content, members, named, flags, contextName⟩ := rule
  rw [surface, surfaceIn_eq_flatMap, surfaceOf_eq_flatMap, children, List.flatMap_append]

/-- The surface of a rule lists what the rule shows. -/
theorem mem_surface_iff_shows (rule node : Rule) : node ∈ rule.surface ↔ rule.Shows node := by
  induction rule using childInduction with
  | step rule induction =>
    rw [surface_eq_cons_flatMap, List.mem_cons]
    cases hidden : rule.kind.isToken with
    | true =>
      simp only [if_true, List.not_mem_nil, or_false]
      constructor
      · rintro rfl
        exact .here _
      · intro shown
        cases shown with
        | here => rfl
        | through unhidden => simp [hidden] at unhidden
    | false =>
      simp only [Bool.false_eq_true, if_false, List.mem_flatMap]
      constructor
      · rintro (rfl | ⟨child, member, below⟩)
        · exact .here _
        · exact .through hidden member ((induction child member).mp below)
      · intro shown
        cases shown with
        | here => exact .inl rfl
        | through _ member shown => exact .inr ⟨_, member, (induction _ member).mpr shown⟩

end GrammarArtifact.Rule
