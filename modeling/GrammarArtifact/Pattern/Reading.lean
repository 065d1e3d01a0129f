import GrammarArtifact.Pattern.Room
import GrammarArtifact.Pattern.Token

/-!
# From tokens to patterns

The tokens of a pattern are put together group by group. A pattern is refused when
its groups do not close, when a repetition has nothing to repeat, when it is nested too
deep, or when it takes too much room.
-/

namespace GrammarArtifact.Pattern

/-- What has been put together of one group: its finished branches, and the parts of
the branch being read, each last first. -/
structure GroupLevel where
  captures : Bool := false
  branches : List Node := []
  parts : List Node := []

namespace GroupLevel

/-- Add a part to the branch being read. -/
def add (level : GroupLevel) (part : Node) : GroupLevel :=
  { level with parts := part :: level.parts }

/-- Begin another branch. -/
def nextBranch (level : GroupLevel) : GroupLevel :=
  { level with branches := .inSequence level.parts.reverse :: level.branches, parts := [] }

/-- All that has been put together. -/
def node (level : GroupLevel) : Node :=
  .anyOf (level.branches.reverse ++ [.inSequence level.parts.reverse])

/-- Repeat the last part. A directive cannot be repeated. -/
def repeatLast? (level : GroupLevel) (least : Nat) (most : Option Nat) : Option GroupLevel :=
  match level.parts with
  | [] | .empty :: _ => none
  | part :: parts => some { level with parts := .repeated part least most :: parts }

end GroupLevel

/-- Put tokens together, given the levels around the group being read, innermost
first. -/
def assemble? (outer : List GroupLevel) (level : GroupLevel) : List Token → Option Node
  | [] => if outer.isEmpty then some level.node else none
  | .one set brackets :: rest => assemble? outer (level.add (.one set brackets)) rest
  | .place anchor :: rest => assemble? outer (level.add (.place anchor)) rest
  | .directive :: rest => assemble? outer (level.add .empty) rest
  | .opening captures :: rest => assemble? (level :: outer) { captures } rest
  | .closing :: rest =>
    match outer with
    | [] => none
    | parent :: outer => assemble? outer (parent.add (.group level.captures level.node)) rest
  | .bar :: rest => assemble? outer level.nextBranch rest
  | .repetition least most :: rest =>
    match level.repeatLast? least most with
    | none => none
    | some level => assemble? outer level rest

variable [Text.Unicode]

/-- Read a pattern, however large. -/
def parse? (text : List Char) : Option Node := (tokens? {} text).bind (assemble? [] {})

/-- How deep a pattern may be nested. -/
def depthLimit : Nat := 250

/-- Whether a pattern is neither nested too deep nor takes too much room. -/
def fits (node : Node) : Bool := node.depth ≤ depthLimit && (Plan.ofNode node).isSmall

/-- Read a pattern within the limits. -/
def read? (text : List Char) : Option Node := (parse? text).filter fits

end GrammarArtifact.Pattern
