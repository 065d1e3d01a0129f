import GrammarArtifact.Proofs.Rule.Depth
import GrammarArtifact.Proofs.Validation.LeftRecursion

/-!
# The depth of the checks

The check of a rule and the search for left recursion call themselves for some of the children
of a node, and stop early when they have found something. What they make of a node and where
they go on are known, so both are described by visits.
-/

namespace GrammarArtifact.Validation

open Rule (Visit)

/-- The visit that checks a rule. It goes no further when it has a fault. -/
def checking (grammar : Grammar) (context : String) : Visit (Option Fault) where
  enter found rule := found.or (violation? grammar context rule)
  next found rule := if found.isSome then [] else rule.checkedChildren
  inside found rule := by
    split
    · simp
    · exact fun _ => Rule.mem_children_of_checked

theorem foldl_or_eq_findSome? {α β : Type} (find? : α → Option β) (found : Option β)
    (list : List α) :
    list.foldl (fun found element => found.or (find? element)) found =
      found.or (list.findSome? find?) := by
  induction list generalizing found with
  | nil => simp
  | cons element rest induction =>
    rw [List.foldl_cons, induction, List.findSome?_cons, Option.or_assoc]
    cases find? element <;> rfl

theorem describes_faultIn (grammar : Grammar) (context : String) :
    (checking grammar context).Describes fun found rule =>
      found.or (faultIn (scope grammar) context rule) := by
  intro found rule
  dsimp only
  rw [foldl_or_eq_findSome?, faultIn_eq_or, ← Option.or_assoc]
  dsimp only [checking]
  generalize found.or (violation? grammar context rule) = here
  cases here <;> simp

/-- The children that the search for left recursion goes on to. -/
def plainOpenings (rule : Rule) : List Rule :=
  match rule.kind with
  | .seq => rule.members.take 1
  | .choice => rule.members
  | .prec | .precLeft | .precRight | .precDynamic | .field | .aliased => rule.content.toList
  | _ => []

theorem mem_plainOpenings_iff {rule child : Rule} :
    child ∈ plainOpenings rule ↔ OpensPlainly rule child := by
  constructor
  · intro member
    cases kind : rule.kind <;> rw [plainOpenings, kind] at member
    case seq =>
      cases members : rule.members with
      | nil => simp [members] at member
      | cons first rest =>
        obtain rfl : child = first := by simpa [members] using member
        exact .member kind members
    case choice => exact .branch kind member
    case prec | precLeft | precRight | precDynamic | field | aliased =>
      exact .content (by simp [kind]) (Option.mem_toList.mp member)
    all_goals exact absurd member List.not_mem_nil
  · intro opened
    cases opened with
    | member kind members => simp [plainOpenings, kind, members]
    | branch kind member => simpa [plainOpenings, kind] using member
    | content kind content =>
      simp only [List.mem_cons, List.not_mem_nil, or_false] at kind
      rcases kind with kind | kind | kind | kind | kind | kind <;>
        simp [plainOpenings, kind, content]

/-- The visit that looks for a symbol at the beginning of a rule. It goes no further when it has
found it. -/
def opening (target : String) : Visit Bool where
  enter found rule := found || rule.symbolName? == some target
  next found rule := if found then [] else plainOpenings rule
  inside found rule := by
    split
    · simp
    · exact fun _ member => Rule.mem_children_of_checked
        (mem_plainOpenings_iff.mp member).opens.mem_checkedChildren

theorem foldl_or_eq_any {α : Type} (holds : α → Bool) (found : Bool) (list : List α) :
    list.foldl (fun found element => found || holds element) found = (found || list.any holds) := by
  induction list generalizing found with
  | nil => simp
  | cons element rest induction => rw [List.foldl_cons, induction, List.any_cons, Bool.or_assoc]

theorem describes_beginsWith (target : String) :
    (opening target).Describes fun found rule => found || beginsWith target rule := by
  intro found rule
  have splits : beginsWith target rule =
      (rule.symbolName? == some target || (plainOpenings rule).any (beginsWith target)) := by
    rw [Bool.eq_iff_iff, beginsWith_iff_here_or_child]
    simp [mem_plainOpenings_iff]
  dsimp only
  rw [foldl_or_eq_any, splits, ← Bool.or_assoc]
  dsimp only [opening]
  generalize (found || rule.symbolName? == some target) = here
  cases here <;> simp

end GrammarArtifact.Validation
