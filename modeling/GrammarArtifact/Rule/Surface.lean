import GrammarArtifact.Rule

/-!
# The surface of a rule

A token is one piece of text to the parser, however it is put together. The nodes
below a token are hidden, and the others are the surface of the rule.
-/

namespace GrammarArtifact

/-- The kinds that hide what is below them. -/
def RuleKind.isToken : RuleKind → Bool
  | .token | .immediateToken => true
  | _ => false

namespace Rule

mutual

/-- The nodes of a tree that no token hides, in the order of `nodes`. -/
def surface : Rule → List Rule
  | ⟨kind, value, name, content, members, named, flags, contextName⟩ =>
    ⟨kind, value, name, content, members, named, flags, contextName⟩ ::
      if kind.isToken then [] else surfaceIn content ++ surfaceOf members

/-- The surface of a content, if there is one. -/
def surfaceIn : Option Rule → List Rule
  | none => []
  | some rule => surface rule

/-- The surfaces of several trees, one tree after the other. -/
def surfaceOf : List Rule → List Rule
  | [] => []
  | rule :: rest => surface rule ++ surfaceOf rest

end

mutual

/-- Combine the nodes on the surface of a tree, in order, without listing them. -/
def foldSurface {α : Type} (step : α → Rule → α) (start : α) : Rule → α
  | ⟨kind, value, name, content, members, named, flags, contextName⟩ =>
    let here := step start ⟨kind, value, name, content, members, named, flags, contextName⟩
    if kind.isToken then here else foldSurfaceAll step (foldSurfaceIn step here content) members

/-- Combine the surface of a content, if there is one. -/
def foldSurfaceIn {α : Type} (step : α → Rule → α) (start : α) : Option Rule → α
  | none => start
  | some rule => foldSurface step start rule

/-- Combine the surfaces of several trees, one tree after the other. -/
def foldSurfaceAll {α : Type} (step : α → Rule → α) (start : α) : List Rule → α
  | [] => start
  | rule :: rest => foldSurfaceAll step (foldSurface step start rule) rest

end

mutual

theorem foldSurface_eq_foldl_surface {α : Type} (step : α → Rule → α) (start : α) :
    (rule : Rule) → foldSurface step start rule = rule.surface.foldl step start
  | ⟨kind, _, _, content, members, _, _, _⟩ => by
    cases hidden : kind.isToken <;>
      simp [foldSurface, surface, hidden, foldSurfaceIn_eq_foldl_surfaceIn step _ content,
        foldSurfaceAll_eq_foldl_surfaceOf step _ members]

theorem foldSurfaceIn_eq_foldl_surfaceIn {α : Type} (step : α → Rule → α) (start : α) :
    (content : Option Rule) →
      foldSurfaceIn step start content = (surfaceIn content).foldl step start
  | none => by simp [foldSurfaceIn, surfaceIn]
  | some rule => by simp [foldSurfaceIn, surfaceIn, foldSurface_eq_foldl_surface step _ rule]

theorem foldSurfaceAll_eq_foldl_surfaceOf {α : Type} (step : α → Rule → α) (start : α) :
    (rules : List Rule) →
      foldSurfaceAll step start rules = (surfaceOf rules).foldl step start
  | [] => by simp [foldSurfaceAll, surfaceOf]
  | rule :: rest => by
    simp [foldSurfaceAll, surfaceOf, foldSurface_eq_foldl_surface step start rule,
      foldSurfaceAll_eq_foldl_surfaceOf step _ rest]

end

end Rule

end GrammarArtifact
