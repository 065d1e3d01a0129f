import GrammarArtifact.Pattern.Node

/-!
# Plans of patterns

A plan is what there is to build for a pattern, without what does not matter for that.
Characters in a row are one text, branches that are single characters are one set, what
all branches begin with is taken out of them, and repetitions that cannot change
anything are dropped.
-/

namespace GrammarArtifact.Pattern

/-- What there is to build for a pattern. -/
inductive Plan
  | nothing
  | text (characters : List Char)
  | oneOf (set : CharSet)
  | place (anchor : Anchor)
  | capture (content : Plan)
  | sequence (parts : List Plan)
  | choice (branches : List Plan)
  | repeated (content : Plan) (least : Nat) (most : Option Nat)
deriving Repr

namespace Plan

/-! ## Comparing -/

mutual

/-- Whether two plans are the same. Captures have numbers of their own and are all
different. -/
def isSame : Plan → Plan → Bool
  | .nothing, .nothing => true
  | .text left, .text right => left == right
  | .oneOf left, .oneOf right => left == right
  | .place left, .place right => left == right
  | .sequence left, .sequence right => areSame left right
  | .choice left, .choice right => areSame left right
  | .repeated left least most, .repeated right least' most' =>
    least == least' && most == most' && isSame left right
  | _, _ => false

/-- Whether two rows of plans are the same. -/
def areSame : List Plan → List Plan → Bool
  | [], [] => true
  | left :: lefts, right :: rights => isSame left right && areSame lefts rights
  | _, _ => false

end

/-! ## Lengths -/

mutual

/-- Whether a plan takes no character, whatever it matches. A set without characters
does not count, because it matches nothing at all. -/
def isEmpty : Plan → Bool
  | .nothing | .place _ => true
  | .text characters => characters.isEmpty
  | .oneOf _ => false
  | .capture content => content.isEmpty
  | .sequence parts => areEmpty parts
  | .choice branches => areEmpty branches
  | .repeated content _ _ => content.isEmpty

/-- Whether none of some plans takes a character. -/
def areEmpty : List Plan → Bool
  | [] => true
  | plan :: rest => plan.isEmpty && areEmpty rest

end

mutual

/-- Whether a plan takes at least one character, whatever it matches. -/
def takesSome : Plan → Bool
  | .nothing | .place _ => false
  | .text characters => !characters.isEmpty
  | .oneOf set => !set.entries.isEmpty
  | .capture content => content.takesSome
  | .sequence parts => anyTakesSome parts
  | .choice branches => allTakeSome branches
  | .repeated content least _ => 0 < least && content.takesSome

/-- Whether any of some plans takes at least one character. -/
def anyTakesSome : List Plan → Bool
  | [] => false
  | plan :: rest => plan.takesSome || anyTakesSome rest

/-- Whether each of some plans takes at least one character. -/
def allTakeSome : List Plan → Bool
  | [] => true
  | plan :: rest => plan.takesSome && allTakeSome rest

end

/-! ## Sequences -/

/-- The plan for one character of a set. -/
def ofSet (set : CharSet) : Plan :=
  match set.entries with
  | [(low, high)] => if low = high then .text [Char.ofNat low] else .oneOf set
  | _ => .oneOf set

/-- The parts of a plan that is a sequence. -/
def parts : Plan → List Plan
  | .nothing => []
  | .sequence parts => parts
  | plan => [plan]

/-- The plan that has some parts. -/
def ofParts : List Plan → Plan
  | [] => .nothing
  | [plan] => plan
  | parts => .sequence parts

/-- Put a part in front of others. Texts that meet are joined. -/
def addPart (part : Plan) (rest : List Plan) : List Plan :=
  match part, rest with
  | .text front, .text back :: rest => .text (front ++ back) :: rest
  | part, rest => part :: rest

/-- One plan after another. -/
def followedBy (first second : Plan) : Plan :=
  ofParts (first.parts.foldr addPart second.parts)

/-! ## Choices -/

/-- The branches of a plan that is a choice. -/
def branches : Plan → List Plan
  | .choice branches => branches
  | plan => [plan]

/-- The characters that a plan chooses one from, if it does no more than that. -/
def singles? : Plan → Option (List (Nat × Nat))
  | .text [c] => some [(c.toNat, c.toNat)]
  | .oneOf set => some set.entries
  | _ => none

/-- What two rows of plans have in common at the front. -/
def commonFront : List Plan → List Plan → List Plan
  | left :: lefts, right :: rights =>
    if left.isSame right then left :: commonFront lefts rights else []
  | _, _ => []

/-- A choice between branches, none of which is a choice. Single characters make a set. -/
def choose (branches : List Plan) : Plan :=
  match branches with
  | [plan] => plan
  | branches =>
    match branches.mapM singles? with
    | some sets => ofSet (.ofList sets.flatten)
    | none => .choice branches

/-- The parts of a plan with at least two of them. -/
def sequence? : Plan → Option (List Plan)
  | .sequence parts => some parts
  | _ => none

/-- A choice between plans. If all of them are sequences and begin with the same parts,
these come before the choice. -/
def anyOf (plans : List Plan) : Plan :=
  let all := plans.flatMap branches
  match choose all, all.mapM sequence? with
  | .choice _, some (first :: others) =>
    let front := others.foldl commonFront first
    if front.isEmpty then .choice all
    else
      let tails := (first :: others).map fun parts => ofParts (parts.drop front.length)
      followedBy (ofParts front) (choose (tails.flatMap branches))
  | plan, _ => plan

/-! ## Repetitions -/

/-- A repeated plan. What takes no character need not be repeated more than once. -/
def repeatedly (content : Plan) (least : Nat) (most : Option Nat) : Plan :=
  let empty := content.isEmpty
  let least := if empty then min least 1 else least
  let most := if empty then some (min (most.getD 1) 1) else most
  if least = 0 && most = some 0 then .nothing
  else if least = 1 && most = some 1 then content
  else .repeated content least most

/-! ## Patterns -/

/-- The plans for the branches of a pattern. -/
def ofBranches : Node → List Plan
  | .empty => [.nothing]
  | .one set _ => [ofSet set]
  | .place anchor => [.place anchor]
  | .sequence first second => [followedBy (anyOf (ofBranches first)) (anyOf (ofBranches second))]
  | .choice first second => anyOf (ofBranches first) :: ofBranches second
  | .group captures content =>
    let plan := anyOf (ofBranches content)
    [if captures then .capture plan else plan]
  | .repeated content least most => [repeatedly (anyOf (ofBranches content)) least most]

/-- The plan for a pattern. -/
def ofNode (node : Node) : Plan := anyOf (ofBranches node)

end Plan

end GrammarArtifact.Pattern
