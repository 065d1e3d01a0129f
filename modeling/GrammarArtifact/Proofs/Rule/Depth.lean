import GrammarArtifact.Proofs.Rule.Surface
import Mathlib.Data.List.Chain

/-!
# The depth of recursions over rules

A function that goes through a rule calls itself for children of a node, so the calls that are
open at a time belong to nodes on one way down the rule. `Visit` describes such a function by
what it does at a node and for which children it calls itself then, and `Visit.run?` runs it
with a limit on the calls that are open. If no way down the rule has more nodes than the limit,
the limit is never met and the run gives what the function gives.
-/

namespace GrammarArtifact.Rule

variable {σ : Type} {depth : Nat} {rule : Rule}

/-- A node and the ones right below it, all the way down. -/
abbrev IsPath (path : List Rule) : Prop := path.IsChain fun node child => child ∈ node.children

/-- No way down a rule has more nodes than a number. -/
inductive Within : Nat → Rule → Prop
  | node {depth : Nat} {rule : Rule} (below : ∀ child ∈ rule.children, Within depth child) :
      Within (depth + 1) rule

theorem Within.mono {more : Nat} (within : Within depth rule) (le : depth ≤ more) :
    Within more rule := by
  induction within generalizing more with
  | node _ induction =>
    obtain ⟨more, rfl⟩ := Nat.exists_eq_succ_of_ne_zero (n := more) (by omega)
    exact .node fun child member => induction child member (Nat.le_of_succ_le_succ le)

theorem Within.length_le {path : List Rule} (within : Within depth rule)
    (isPath : IsPath (rule :: path)) : (rule :: path).length ≤ depth := by
  induction path generalizing depth rule with
  | nil =>
    cases within with
    | node => simp
  | cons child path induction =>
    obtain ⟨member, isPath⟩ := List.isChain_cons_cons.mp isPath
    cases within with
    | node below => exact Nat.succ_le_succ (induction (below child member) isPath)

/-- A function that goes through a rule: what it makes of a node after what it has found so far,
and the children that it then goes on to, one after the other. -/
structure Visit (σ : Type) where
  enter : σ → Rule → σ
  next : σ → Rule → List Rule
  inside : ∀ state rule, next state rule ⊆ rule.children

namespace Visit

/-- Go through a rule with a limit on the calls that are open at a time. Nothing comes out when
a call would exceed the limit. -/
def run? (visit : Visit σ) : Nat → σ → Rule → Option σ
  | 0, _, _ => none
  | depth + 1, state, rule =>
    let here := visit.enter state rule
    (visit.next here rule).foldlM (visit.run? depth) here

/-- A function does what a visit says: it enters the node and then calls itself. -/
def Describes (visit : Visit σ) (f : σ → Rule → σ) : Prop :=
  ∀ state rule, f state rule =
    (visit.next (visit.enter state rule) rule).foldl f (visit.enter state rule)

/-- Calls that all come to their ends give what they give without a limit. -/
theorem foldlM_eq_some_foldl {limited : σ → Rule → Option σ} {f : σ → Rule → σ}
    {children : List Rule}
    (each : ∀ child ∈ children, ∀ state, limited state child = some (f state child)) (here : σ) :
    children.foldlM limited here = some (children.foldl f here) := by
  induction children generalizing here with
  | nil => rfl
  | cons child rest induction =>
    rw [List.foldlM_cons, each child List.mem_cons_self]
    exact induction (fun other member => each other (List.mem_cons_of_mem child member)) _

/-- A limit that no way down a rule exceeds makes no difference. -/
theorem run?_eq_some {visit : Visit σ} {f : σ → Rule → σ} (describes : visit.Describes f)
    (within : Within depth rule) (state : σ) :
    visit.run? depth state rule = some (f state rule) := by
  induction within generalizing state with
  | node _ induction =>
    rw [run?, describes]
    exact foldlM_eq_some_foldl (fun child member => induction child (visit.inside _ _ member)) _

/-- The visit that goes to all nodes. -/
def everywhere (step : σ → Rule → σ) : Visit σ where
  enter := step
  next _ rule := rule.children
  inside _ _ := List.Subset.refl _

theorem describes_fold (step : σ → Rule → σ) : (everywhere step).Describes (fold step) := by
  have each : fold step = fun state rule => rule.nodes.foldl step state :=
    funext₂ fun state rule => fold_eq_foldl_nodes step state rule
  intro state rule
  rw [each]
  dsimp only [everywhere]
  rw [nodes_eq_cons_flatMap, List.foldl_cons, List.foldl_flatMap]

/-- The visit that goes to the nodes that no token hides. -/
def aboveTokens (step : σ → Rule → σ) : Visit σ where
  enter := step
  next _ rule := if rule.kind.isToken then [] else rule.children
  inside _ rule := by split <;> simp

theorem describes_foldSurface (step : σ → Rule → σ) :
    (aboveTokens step).Describes (foldSurface step) := by
  have each : foldSurface step = fun state rule => rule.surface.foldl step state :=
    funext₂ fun state rule => foldSurface_eq_foldl_surface step state rule
  intro state rule
  rw [each]
  dsimp only [aboveTokens]
  rw [surface_eq_cons_flatMap, List.foldl_cons]
  split
  · rfl
  · exact List.foldl_flatMap

end Visit

end GrammarArtifact.Rule
