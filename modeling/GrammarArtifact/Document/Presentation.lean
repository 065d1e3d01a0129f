import GrammarArtifact.Document.Grammar
import GrammarArtifact.Document.Syntax
import Mathlib.Logic.Relation

/-!
# Presentations of the same content

The trees of two grammar documents are alike when they differ only in how the records in
them are written: in the order of their members, in members that go by no label of the
record, and in whether an optional part that is missing has a member that is `null`. The
order of lists and tables is content, and so is every string and number. What stands where
in a grammar document is said by shapes, so that records are found at every level.
-/

namespace GrammarArtifact.Document

/-- The records in a grammar document. -/
inductive RecordSort
  | grammar
  | rule
deriving DecidableEq, Repr

/-- What stands at a place of a grammar document. -/
inductive Shape
  | record (sort : RecordSort)
  | listOf (items : Shape)
  | tableOf (values : Shape)
  | plain
deriving DecidableEq, Repr

/-- A place in a record: its label, what stands there, and whether `null` may stand there in
place of nothing. -/
structure RecordPlace where
  label : String
  shape : Shape
  nullable : Bool
deriving DecidableEq, Repr

namespace RuleKey

/-- What stands under a key of a rule. -/
def shape : RuleKey → Shape
  | .content => .record .rule
  | .members => .listOf (.record .rule)
  | .kind | .value | .name | .named | .flags | .contextName => .plain

/-- Whether a part of a rule is optional. -/
def nullable : RuleKey → Bool
  | .value | .name | .content | .named | .flags | .contextName => true
  | .kind | .members => false

end RuleKey

namespace GrammarKey

/-- What stands under a key of a grammar. -/
def shape : GrammarKey → Shape
  | .rules => .tableOf (.record .rule)
  | .extras | .externals => .listOf (.record .rule)
  | .precedences => .listOf (.listOf (.record .rule))
  | .reserved => .tableOf (.listOf (.record .rule))
  | .schema | .name | .inherits | .inline | .conflicts | .word | .supertypes => .plain

/-- Whether a part of a grammar is optional. -/
def nullable : GrammarKey → Bool
  | .schema | .inherits | .word => true
  | .name | .rules | .extras | .externals | .inline | .precedences | .conflicts | .reserved
  | .supertypes => false

end GrammarKey

/-- The places of a record, in the order in which a list gives their values. -/
def RecordSort.places : RecordSort → List RecordPlace
  | .grammar => grammarForm.keys.map fun key => ⟨grammarForm.label key, key.shape, key.nullable⟩
  | .rule => ruleForm.keys.map fun key => ⟨ruleForm.label key, key.shape, key.nullable⟩

/-- One change to how the records in a tree are written. It is made in a record itself, or
inside of a list, a table or a record. -/
inductive Change : Shape → Tree → Tree → Prop
  | item {shape : Shape} {before after : List Tree} {item other : Tree}
      (change : Change shape item other) :
      Change (.listOf shape) (.list (before ++ item :: after)) (.list (before ++ other :: after))
  | entry {shape : Shape} {before after : List (Quoted × Tree)} {key : Quoted} {value other : Tree}
      (change : Change shape value other) :
      Change (.tableOf shape) (.object (before ++ (key, value) :: after))
        (.object (before ++ (key, other) :: after))
  | member {sort : RecordSort} {place : RecordPlace} {before after : List (Quoted × Tree)}
      {key : Quoted} {value other : Tree} (known : place ∈ sort.places)
      (named : key.text? = some place.label) (change : Change place.shape value other) :
      Change (.record sort) (.object (before ++ (key, value) :: after))
        (.object (before ++ (key, other) :: after))
  | slot {sort : RecordSort} {place : RecordPlace} {before after : List Tree} {item other : Tree}
      (known : sort.places[before.length]? = some place)
      (change : Change place.shape item other) :
      Change (.record sort) (.list (before ++ item :: after)) (.list (before ++ other :: after))
  | permuted {sort : RecordSort} {members others : List (Quoted × Tree)}
      (perm : members.Perm others) : Change (.record sort) (.object members) (.object others)
  | unknown {sort : RecordSort} {members : List (Quoted × Tree)} {key : Quoted} {label : String}
      (value : Tree) (named : key.text? = some label)
      (fresh : ∀ place ∈ sort.places, place.label ≠ label) :
      Change (.record sort) (.object members) (.object ((key, value) :: members))
  | null {sort : RecordSort} {place : RecordPlace} {members : List (Quoted × Tree)} {key : Quoted}
      (known : place ∈ sort.places) (optional : place.nullable = true)
      (named : key.text? = some place.label)
      (absent : ∀ member ∈ members, member.1.text? ≠ some place.label) :
      Change (.record sort) (.object members) (.object ((key, .null) :: members))

/-- Two trees become each other by changes to how records are written, made and undone. -/
def Alike (shape : Shape) : Tree → Tree → Prop := Relation.EqvGen (Change shape)

/-- The values of the members that go by a label, in their order. -/
def valuesOf (label : String) (members : List (Quoted × Tree)) : List Tree :=
  members.filterMap fun member => if member.1.text? = some label then some member.2 else none

/-- The value that stands at a place of a record, which is written as an object or as a
list. -/
inductive Holds (sort : RecordSort) : Tree → String → Tree → Prop
  | member {members : List (Quoted × Tree)} {label : String} {value : Tree}
      (named : value ∈ valuesOf label members) : Holds sort (.object members) label value
  | slot {items : List Tree} {index : Nat} {place : RecordPlace} {value : Tree}
      (known : sort.places[index]? = some place) (found : items[index]? = some value) :
      Holds sort (.list items) place.label value

end GrammarArtifact.Document
