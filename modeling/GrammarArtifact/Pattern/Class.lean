import GrammarArtifact.Pattern.Escape

/-!
# Bracketed classes

A class lists characters, ranges, escapes and further classes between brackets, and
combines such lists by operations, which all bind alike and to the left.
-/

namespace GrammarArtifact.Pattern

/-- An operation on two lists of a class. -/
inductive Operation
  | intersection
  | difference
  | symmetricDifference
deriving DecidableEq, Repr

/-- The result of an operation. -/
def Operation.apply : Operation → CharSet → CharSet → CharSet
  | .intersection => Text.Ranges.intersection
  | .difference => Text.Ranges.difference
  | .symmetricDifference => Text.Ranges.symmetricDifference

/-- A set as a class writes it, and how deep the writing is nested. -/
structure Written where
  set : CharSet
  depth : Nat := 0

/-- What has been read of a class: the ranges and the number of the members of the list
being read, how deep these are nested, and what stands to the left of the last
operation. -/
structure ClassLevel where
  negated : Bool
  left : Option (Written × Operation) := none
  ranges : List (Nat × Nat) := []
  count : Nat := 0
  depth : Nat := 0

namespace ClassLevel

variable [Text.Unicode]

/-- Add a member to the list being read. -/
def add (level : ClassLevel) (member : Written) : ClassLevel :=
  { level with
    ranges := member.set.entries ++ level.ranges
    count := level.count + 1
    depth := max level.depth member.depth }

/-- The list being read. Only a list of several members counts as nested itself. -/
def list (level : ClassLevel) : Written :=
  { set := .ofList level.ranges, depth := level.depth + if level.count ≤ 1 then 0 else 1 }

/-- What has been read so far. -/
def content (level : ClassLevel) (mode : Mode) : Written :=
  let right := level.list
  match level.left with
  | none => right
  | some (left, operation) =>
    { set := operation.apply (mode.fold left.set) (mode.fold right.set)
      depth := max left.depth right.depth + 1 }

/-- Begin the list to the right of an operation. -/
def operate (level : ClassLevel) (mode : Mode) (operation : Operation) : ClassLevel :=
  { negated := level.negated, left := some (level.content mode, operation) }

/-- The whole class. -/
def finish? (level : ClassLevel) (mode : Mode) : Option Written :=
  let content := level.content mode
  (mode.finish? level.negated content.set).map ({ set := ·, depth := content.depth + 1 })

end ClassLevel

/-- Pass hyphens at the front, together with layout, perhaps from within a comment,
and count the hyphens on top of those found before. -/
def passHyphens (layout comment : Bool) (found : Nat) : List Char → Nat × List Char
  | [] => (found, [])
  | c :: rest =>
    if comment then passHyphens layout (c != '\n') found rest
    else if layout && Text.isBlank c then passHyphens layout false found rest
    else if layout && c = '#' then passHyphens layout true found rest
    else if c = '-' then passHyphens layout false (found + 1) rest
    else (found, c :: rest)

theorem passHyphens_suffix (layout comment : Bool) (found : Nat) (text : List Char) :
    (passHyphens layout comment found text).2 <:+ text := by
  induction text generalizing comment found with
  | nil => exact List.suffix_refl []
  | cons c rest induction =>
    unfold passHyphens
    repeat' split
    all_goals first
      | exact (induction _ _).trans (List.suffix_cons c rest)
      | exact List.suffix_refl _

/-- Pass hyphens and layout, and count the hyphens. -/
def hyphens (mode : Mode) : Reader Nat := fun text =>
  let passed := passHyphens mode.layout false 0 text
  some ⟨passed.1, passed.2, passHyphens_suffix mode.layout false 0 text⟩

/-- Read the opening of a class from behind its bracket. Hyphens at the front stand
for themselves, and so does a closing bracket that comes first. -/
def classOpening (mode : Mode) : Reader ClassLevel :=
  (Reader.layout mode.layout).bind fun _ =>
    (Reader.optional '^').bind fun negated =>
      (hyphens mode).bind fun count =>
        if count = 0 then
          (Reader.optional ']').map fun closing =>
            if closing then ClassLevel.add { negated } { set := .single ']' } else { negated }
        else .lift (some { negated, ranges := (CharSet.single '-').entries, count })

/-- Read a class that has a name, from behind its bracket: the name stands between
colons, perhaps behind a sign of negation. -/
def namedClass : Reader (Bool × CharSet) :=
  (Reader.optional ':').bind fun colon =>
    if colon then
      (Reader.optional '^').bind fun negated =>
        (Reader.upTo ':' []).bind fun name =>
          (Reader.optional ']').bind fun closing =>
            .lift (if closing then (classNamed? (String.ofList name)).map (negated, ·) else none)
    else .lift none

/-- What can stand in the list of a class or at an end of a range. -/
inductive ClassMember
  | literal (c : Char)
  | set (set : CharSet)

namespace ClassMember

/-- A character as a member of a class. With seven bits there is none beyond. -/
def ofChar? (mode : Mode) (c : Char) : Option ClassMember :=
  if mode.sevenBits && 0x80 ≤ c.toNat then none else some (.literal c)

/-- An escape as a member of a class. Anchors are no members. -/
def ofEscape? (mode : Mode) : Escape → Option ClassMember
  | .literal c => ofChar? mode c
  | .set members => some (.set members)
  | .place _ => none

/-- The set of one member of a class. -/
def toSet : ClassMember → CharSet
  | .literal c => .single c
  | .set members => members

/-- The range from one member to another. -/
def rangeTo? : ClassMember → ClassMember → Option CharSet
  | .literal low, .literal high => if high < low then none else some (.between low high)
  | _, _ => none

end ClassMember

variable [Text.Unicode]

/-- Read a member of a class whose first character has been passed. -/
def classMember (mode : Mode) (first : Char) : Reader ClassMember :=
  if first = '\\' then
    (escape mode).bind fun escape => .lift (ClassMember.ofEscape? mode escape)
  else .lift (ClassMember.ofChar? mode first)

/-- Whether a hyphen makes a range. It does unless a closing bracket or another hyphen
comes next. What comes next is found at a glance, which does not look behind comments. -/
def rangeFollows (mode : Mode) (text : List Char) : Bool :=
  match skip mode.layout text with
  | '-' :: rest =>
    let next := glance mode.layout false rest
    !(next = some ']' || next = some '-')
  | _ => false

/-- Read the range that begins with a member, from its hyphen on. -/
def rangeFrom (mode : Mode) (low : ClassMember) : Reader CharSet :=
  .counted mode.layout fun _ =>
    .counted mode.layout fun c =>
      (classMember mode c).bind fun high => .lift (low.rangeTo? high)

/-- Read a member of a class or a range between two of them, whose first character
has been passed. -/
def classItem (mode : Mode) (first : Char) : Reader CharSet :=
  (classMember mode first).bind fun member text =>
    if rangeFollows mode text then rangeFrom mode member text else some (.here member.toSet)

/-- The operation that a character stands for when it comes twice. -/
def Operation.ofChar? (c : Char) : Option Operation :=
  if c = '&' then some .intersection
  else if c = '-' then some .difference
  else if c = '~' then some .symmetricDifference
  else none

/-- Read an operation whose first character has been passed. -/
def operation (first : Char) : Reader Operation :=
  (Reader.optional first).bind fun twice => .lift (if twice then Operation.ofChar? first else none)

/-- A piece of a class. -/
inductive ClassPiece
  | closing
  | opening (level : ClassLevel)
  | operation (operation : Operation)
  | member (written : Written)

/-- Read a piece of a class. -/
def classPiece (mode : Mode) : Reader ClassPiece :=
  .counted mode.layout fun c =>
    if c = ']' then .lift (some .closing)
    else if c = '[' then
      .tryElse namedClass
        (fun named => .lift ((mode.finish? named.1 named.2).map fun set => .member { set }))
        ((classOpening mode).map .opening)
    else
      .tryElse (operation c) (fun operation => .lift (some (.operation operation)))
        ((classItem mode c).map fun set => .member { set })

/-- Read a class from within its brackets on. The levels around the one being read
are held innermost first. -/
def classBody (mode : Mode) (outer : List ClassLevel) (level : ClassLevel) :
    Reader Written := fun text =>
  match read : classPiece mode text with
  | none => none
  | some piece =>
    have : piece.rest.length < text.length := Reader.length_lt_of_counted read
    let further (outer : List ClassLevel) (level : ClassLevel) : Option (Taken Written text) :=
      (classBody mode outer level piece.rest).map (·.widen piece.within)
    match piece.value with
    | .closing =>
      match level.finish? mode, outer with
      | none, _ => none
      | some written, [] => some ⟨written, piece.rest, piece.within⟩
      | some written, parent :: outer => further outer (parent.add written)
    | .opening inner => further (level :: outer) inner
    | .operation operation => further outer (level.operate mode operation)
    | .member written => further outer (level.add written)
termination_by text => text.length

/-- Read a class from behind its first bracket. -/
def bracketClass (mode : Mode) : Reader Written :=
  (classOpening mode).bind fun level => classBody mode [] level

end GrammarArtifact.Pattern
