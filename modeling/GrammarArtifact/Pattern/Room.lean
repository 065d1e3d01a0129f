import GrammarArtifact.Pattern.Plan
import GrammarArtifact.Text.ByteRows
import Std.Data.HashMap

/-!
# The room that patterns take

A pattern is built twice, as a machine that reads the bytes of a text forwards and as
one that reads them backwards. A machine consists of states, and a state can have edges
to other states that are taken on certain bytes, or links to other states that are taken
without reading. Patterns whose machines take too much room are refused, so here the
room is counted without building anything.
-/

namespace GrammarArtifact.Pattern

namespace Room

/-- The room for one state, without its edges and links. -/
def state : Nat := 32

/-- The room for one edge of a state that has several. -/
def edge : Nat := 8

/-- The room for one link. -/
def link : Nat := 4

/-- The room that there is for each of the machines. -/
def limit : Nat := 10485760

/-- The room for a state where two ways part. -/
def fork : Nat := state + 2 * link

end Room

/-- The direction in which a machine reads. -/
inductive Direction
  | forwards
  | backwards
deriving DecidableEq, Repr

/-! ## Sets -/

namespace Room

open Text.ByteRows (ByteRange)

/-- A row together with the groups that follow: rows with the same first range are one
group, which holds the remainders of its rows. -/
def addRow (row : List ByteRange) (groups : List (ByteRange × List (List ByteRange))) :
    List (ByteRange × List (List ByteRange)) :=
  match row, groups with
  | [], groups => groups
  | range :: rest, (first, rests) :: groups =>
    if range = first then (first, rest :: rests) :: groups
    else (range, [rest]) :: (first, rests) :: groups
  | range :: rest, [] => [(range, [rest])]

/-- The states made so far, by their edges: the first and the last byte and the number
of the state that the edge leads to. Number zero is the state behind the last byte. -/
abbrev States := Std.HashMap (List (Nat × Nat × Nat)) Nat

mutual

/-- Make the state that reads some rows of at most a number of bytes, and give its
number. A state that has been made before is taken again. -/
def makeState (length : Nat) (rows : List (List ByteRange)) (made : States) : Nat × States :=
  match length with
  | 0 => (0, made)
  | length + 1 =>
    match rows.foldr addRow [] with
    | [] => (0, made)
    | groups =>
      let (edges, made) := makeEdges length groups made
      match made[edges]? with
      | some number => (number, made)
      | none => (made.size + 1, made.insert edges (made.size + 1))
termination_by (length, 0)

/-- Make the edges of a state from its groups, and the states that they lead to. -/
def makeEdges (length : Nat) (groups : List (ByteRange × List (List ByteRange)))
    (made : States) : List (Nat × Nat × Nat) × States :=
  match groups with
  | [] => ([], made)
  | (range, rows) :: rest =>
    let (number, made) := makeState length rows made
    let (edges, made) := makeEdges length rest made
    ((range.1, range.2, number) :: edges, made)
termination_by (length, groups.length + 1)

end

/-- The room for the states that read a character forwards, byte by byte. States that
read the same are made once. -/
def setForwards (rows : List (List ByteRange)) : Nat :=
  let (_, made) := makeState 4 rows {}
  made.fold (fun room edges _ => room + state + edges.length * edge) state

/-- The number of ranges that two rows have in common at the front. -/
def shared : List ByteRange → List ByteRange → Nat
  | left :: lefts, right :: rights => if left = right then shared lefts rights + 1 else 0
  | _, _ => 0

/-- The number of ranges in rows, where those in common with the row before count once. -/
def distinct (before : List ByteRange) : List (List ByteRange) → Nat
  | [] => 0
  | row :: rest => row.length - shared before row + distinct row rest

/-- The room for the states that read a character backwards. There is a link for every
row, and rows share only the states of their first bytes. -/
def setBackwards (rows : List (List ByteRange)) : Nat :=
  state + state + rows.length * link + distinct [] rows * state

/-- The room for one character of a set. -/
def ofSet (direction : Direction) (set : CharSet) : Nat :=
  if set.entries.all fun range => range.2 < 0x80 then
    state + state + set.entries.length * edge
  else
    match direction with
    | .forwards => setForwards (Text.ByteRows.ofSet set)
    | .backwards => setBackwards (Text.ByteRows.ofSet set)

/-! ## Texts -/

/-- The bytes of a text in the order in which they are read. -/
def bytes (direction : Direction) (text : List Char) : List UInt8 :=
  let row := text.flatMap String.utf8EncodeChar
  match direction with
  | .forwards => row
  | .backwards => row.reverse

/-- Put a text among others, which are held by their first byte, last one first. -/
def addText (first : UInt8) (rest : List UInt8) :
    List (UInt8 × List (List UInt8)) → List (UInt8 × List (List UInt8))
  | [] => [(first, [rest])]
  | (byte, rests) :: others =>
    if byte = first then (byte, rest :: rests) :: others
    else (byte, rests) :: addText first rest others

/-- Texts that have a state in common, in sections that end where one of them does. Each
section holds texts by their first byte, and sections are held last first. That a text
ends where another has ended before counts only behind a longer text. -/
def sections (texts : List (List UInt8)) : List (List (UInt8 × List (List UInt8))) :=
  texts.foldl (fun found text =>
    match text, found with
    | [], [[], []] => found
    | [], found => [] :: found
    | byte :: rest, current :: before => addText byte rest current :: before
    | byte :: rest, [] => [[(byte, [rest])]]) [[]]

/-- The room for a state with some edges, unless it has none. -/
def branching (edges : Nat) : Nat :=
  if edges = 0 then 0 else if edges = 1 then state else state + edges * edge

/-- The room for a tree of texts with at most a number of bytes each. -/
def tree : Nat → List (List UInt8) → Nat
  | 0, _ => 0
  | length + 1, texts =>
    let found := sections texts
    let links := (found.countP fun current => !current.isEmpty) + (found.length - 1)
    let own := found.foldl (fun room current => room + branching current.length) 0
    let below := found.flatten.filter fun group => group.2.any fun rest => !rest.isEmpty
    below.foldl (fun room group => room + tree length group.2.reverse)
      (state + links * link + own)

/-- The room for a choice between texts. -/
def ofTexts (texts : List (List UInt8)) : Nat :=
  state + tree ((texts.map List.length).foldl max 0) texts

end Room

/-! ## Plans -/

namespace Plan

/-- The characters of a plan that is a text. -/
def text? : Plan → Option (List Char)
  | .text characters => some characters
  | _ => none

mutual

/-- The room for a plan. What exceeds the limit need not be counted to the end. -/
def room (direction : Direction) : Plan → Nat
  | .nothing | .place _ => Room.state
  | .text characters => (Room.bytes direction characters).length * Room.state
  | .oneOf set => Room.ofSet direction set
  | .capture content =>
    content.room direction + if direction = .forwards then 2 * Room.state else 0
  | .sequence parts => roomOfAll direction 0 parts
  | .choice branches =>
    match branches.mapM text? with
    | some texts => Room.ofTexts (texts.map (Room.bytes direction))
    | none =>
      roomOfAll direction (2 * Room.state + branches.length * Room.link) branches
  | .repeated content least most =>
    let once := content.room direction
    match most with
    | none =>
      if least = 0 && !content.takesSome then once + Room.state + 2 * Room.fork
      else once * max least 1 + Room.fork
    | some most =>
      if least = 0 && most = 1 then once + Room.state + Room.fork
      else if least = most then once * least
      else
        (if least = 0 then Room.state else once * least) + Room.state +
          (most - least) * (once + Room.fork)

/-- The room for several plans on top of some other. -/
def roomOfAll (direction : Direction) (room : Nat) : List Plan → Nat
  | [] => room
  | plan :: rest =>
    if Room.limit < room then room
    else roomOfAll direction (room + plan.room direction) rest

end

/-- Whether both machines for a plan have enough room. Each has a state to begin with
and one to end with, and the one that reads forwards captures all that it matches. -/
def isSmall (plan : Plan) : Bool :=
  plan.room .backwards + 2 * Room.state ≤ Room.limit &&
    plan.capture.room .forwards + 2 * Room.state ≤ Room.limit

end Plan

end GrammarArtifact.Pattern
