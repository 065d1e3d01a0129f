import GrammarArtifact.Grammar
import GrammarArtifact.Rule.Surface

/-!
# Node kinds

The nodes of a syntax tree are of a kind. A rule makes a named kind, a literal token
an anonymous one, and an alias either.
-/

namespace GrammarArtifact

/-- A kind of syntax tree nodes. Nodes of an invisible kind never appear in a tree. -/
structure NodeKind where
  name : String
  named : Bool
  visible : Bool
deriving DecidableEq, Repr

namespace NodeKind

/-- The kind at the end of the text. -/
def ending : NodeKind := ⟨"end", false, false⟩

/-- The kind that a rule makes. Rules whose name begins with an underscore are
hidden. -/
def ofRule (name : String) : NodeKind := ⟨name, true, name.toList.head? != some '_'⟩

/-- The name that an alias shows: the text that it holds, or else its name. -/
def aliasName? (node : Rule) : Option String := node.textValue? <|> node.name

/-- The kind that a node on the surface of a rule makes. -/
def ofNode? (node : Rule) : Option NodeKind :=
  match node.kind with
  | .string => node.textValue?.map fun text => ⟨text, false, true⟩
  | .aliased => (aliasName? node).map fun name => ⟨name, node.named.getD false, true⟩
  | _ => none

/-- What tells kinds apart. -/
def key (kind : NodeKind) : String × Bool := (kind.name, kind.named)

/-- An order of keys: by name, and anonymous kinds before named ones. -/
def keyOrder (left right : String × Bool) : Ordering := lexOrd.compare left right

instance : Std.TransCmp keyOrder :=
  inferInstanceAs (Std.TransCmp (compareLex (compareOn Prod.fst) (compareOn Prod.snd)))

instance : Std.LawfulEqCmp keyOrder where
  compare_self := by simp [keyOrder]
  eq_of_compare {left right} same := by
    obtain ⟨name, named⟩ := left
    obtain ⟨name', named'⟩ := right
    simpa [keyOrder, lexOrd, compareLex, compareOn] using same

/-- The kinds that nodes on the surface of the rules make, in rule order. -/
def ofSurfaces (grammar : Grammar) : List NodeKind :=
  (grammar.rules.values.foldl
    (fun kinds rule => rule.foldSurface (fun kinds node => (ofNode? node).toList ++ kinds) kinds)
    []).reverse

/-- All that a grammar contributes to its node kinds, repetitions included. -/
def contributions (grammar : Grammar) : List NodeKind :=
  ending :: grammar.rules.names.map ofRule ++ ofSurfaces grammar

end NodeKind

end GrammarArtifact
