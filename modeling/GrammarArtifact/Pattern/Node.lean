import GrammarArtifact.Pattern.Anchor

/-!
# Patterns

A pattern is a tree: characters and anchors are put in sequence, given as branches
to choose from, and repeated. Groups hold a pattern together, and some also capture what
it matches.
-/

namespace GrammarArtifact.Pattern

/-- A node of a pattern. A character comes with the depth of the brackets around its
description. A repetition without an upper bound has no `most`. -/
inductive Node
  | empty
  | one (set : CharSet) (brackets : Nat)
  | place (anchor : Anchor)
  | sequence (first second : Node)
  | choice (first second : Node)
  | group (captures : Bool) (content : Node)
  | repeated (content : Node) (least : Nat) (most : Option Nat)
deriving DecidableEq, Repr

namespace Node

/-- Several nodes in sequence. -/
def inSequence : List Node → Node
  | [] => .empty
  | [node] => node
  | node :: rest => .sequence node (inSequence rest)

/-- Several branches to choose from. -/
def anyOf : List Node → Node
  | [] => .empty
  | [node] => node
  | node :: rest => .choice node (anyOf rest)

/-- How deep a pattern is nested, where it may be the rest of a longer sequence or
choice. A sequence or choice counts once, however many parts it has. -/
def depthWithin (ofSequence ofChoice : Bool) : Node → Nat
  | .empty | .place _ => 0
  | .one _ brackets => brackets
  | .sequence first second =>
    (if ofSequence then 0 else 1) +
      max (first.depthWithin false false) (second.depthWithin true false)
  | .choice first second =>
    (if ofChoice then 0 else 1) +
      max (first.depthWithin false false) (second.depthWithin false true)
  | .group _ content => 1 + content.depthWithin false false
  | .repeated content _ _ => 1 + content.depthWithin false false

/-- How deep a pattern is nested. -/
def depth (node : Node) : Nat := node.depthWithin false false

end Node

end GrammarArtifact.Pattern
