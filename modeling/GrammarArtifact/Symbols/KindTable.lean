import GrammarArtifact.Symbols.NodeKind

/-!
# Tables of node kinds

A table of node kinds numbers them from zero, in the order in which they came up. It
also keeps the number of every key, so that a kind is found by what tells it apart.
Numbers have sixteen bits: a kind that comes up when all of them are taken has no
number, unless its key has one already.
-/

namespace GrammarArtifact

/-- Node kinds in the order of their numbers, and the number of each key. -/
structure KindTable where
  kinds : Array NodeKind
  ids : Std.TreeMap (String × Bool) UInt16 NodeKind.keyOrder
  kinds_fit : kinds.size ≤ UInt16.size

namespace KindTable

/-- The table without kinds. -/
def empty : KindTable := ⟨#[], ∅, Nat.zero_le _⟩

/-- Give the next number to a kind. A kind whose key has a number adds nothing, and
there is no table with more kinds than numbers. -/
def push? (table : KindTable) (kind : NodeKind) : Option KindTable :=
  if table.ids.contains kind.key then some table
  else if room : table.kinds.size < UInt16.size then
    some {
      kinds := table.kinds.push kind
      ids := table.ids.insert kind.key (UInt16.ofNatLT table.kinds.size room)
      kinds_fit := by rwa [Array.size_push] }
  else none

/-- Number some kinds one after the other, if the numbers suffice. -/
def pushAll? (table : KindTable) (kinds : List NodeKind) : Option KindTable :=
  kinds.foldlM push? table

/-- The number of node kinds. -/
def kindCount (table : KindTable) : Nat := table.kinds.size

/-- The node kind with a number. -/
def kind? (table : KindTable) (id : UInt16) : Option NodeKind := table.kinds[id.toNat]?

/-- The number of the node kind with a name. -/
def kindId? (table : KindTable) (name : String) (named : Bool) : Option UInt16 :=
  table.ids[(name, named)]?

end KindTable

end GrammarArtifact
