import GrammarArtifact.Pattern.Node
import Std.Data.TreeSet

/-!
# Matching patterns

A pattern moves from place to place in a text. Its places are those before the first
character, between two characters, and behind the last one, and they are numbered from
zero. From given places, a pattern leads to those where it can end. It is found in a text
when it leads anywhere from any place.
-/

namespace GrammarArtifact.Pattern

/-- Places of a text, in increasing order. -/
abbrev Places := List Nat

namespace Places

/-- The places that are in either list. -/
def union (left right : Places) : Places :=
  if left.isEmpty then right
  else if right.isEmpty then left
  else ((Std.TreeSet.ofList left).insertMany right).toList

theorem mem_union {left right : Places} {place : Nat} :
    place ∈ left.union right ↔ place ∈ left ∨ place ∈ right := by
  unfold union
  split
  · simp_all
  · split
    · simp_all
    · rw [Std.TreeSet.mem_toList, Std.TreeSet.mem_insertMany_list, Std.TreeSet.mem_ofList]
      simp

/-- Move from each place that is followed by a character of a set. -/
def advance (text : Array Char) (set : CharSet) (places : Places) : Places :=
  (places.filter fun place => text[place]?.any set.contains).map (· + 1)

theorem mem_advance {text : Array Char} {set : CharSet} {places : Places} {place : Nat} :
    place ∈ places.advance text set ↔
      ∃ start ∈ places, text[start]?.any set.contains = true ∧ place = start + 1 := by
  simp only [advance, List.mem_map, List.mem_filter]
  constructor
  · rintro ⟨start, ⟨member, found⟩, rfl⟩
    exact ⟨start, member, found, rfl⟩
  · rintro ⟨start, member, found, rfl⟩
    exact ⟨start, ⟨member, found⟩, rfl⟩

/-- The places where an anchor holds. -/
def hold (text : Array Char) (anchor : Anchor) (places : Places) : Places :=
  places.filter fun place =>
    anchor.holds (if place = 0 then none else text[place - 1]?) text[place]?

theorem mem_hold {text : Array Char} {anchor : Anchor} {places : Places} {place : Nat} :
    place ∈ places.hold text anchor ↔ place ∈ places ∧
      anchor.holds (if place = 0 then none else text[place - 1]?) text[place]? = true :=
  List.mem_filter

/-- Move a number of times. When a move changes nothing, further moves do not either. -/
def moveTimes (move : Places → Places) : Nat → Places → Places
  | 0, places => places
  | remaining + 1, places =>
    let moved := move places
    if moved = places then places else moveTimes move remaining moved

/-- All places seen after up to a number of moves, given those seen before and among
them the new ones. Only new places are moved on from, because all others have been. -/
def spread (move : Places → Places) : Nat → Std.TreeSet Nat → Places → Std.TreeSet Nat
  | 0, seen, _ => seen
  | remaining + 1, seen, new =>
    let next := (move new).filter fun place => !seen.contains place
    if next.isEmpty then seen else spread move remaining (seen.insertMany next) next

end Places

namespace Node

/-- The places where a node can end when it begins at given places. More moves than the
text has characters add nothing, so they bound a repetition without end. -/
def lead (text : Array Char) : Node → Places → Places
  | .empty, places => places
  | .one set _, places => places.advance text set
  | .place anchor, places => places.hold text anchor
  | .sequence first second, places => second.lead text (first.lead text places)
  | .choice first second, places => (first.lead text places).union (second.lead text places)
  | .group _ content, places => content.lead text places
  | .repeated content least most, places =>
    let rounds := match most with
      | none => text.size
      | some most => most - least
    let start := Places.moveTimes (content.lead text) least places
    (Places.spread (content.lead text) rounds (.ofList start) start).toList

/-- Whether the pattern is found in a text. -/
def isFoundIn (node : Node) (text : List Char) : Bool :=
  !(node.lead text.toArray (List.range (text.length + 1))).isEmpty

end Node

end GrammarArtifact.Pattern
