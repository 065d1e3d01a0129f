import GrammarArtifact.Document.Writer
import GrammarArtifact.Document.Scan

/-!
# Documents as trees

A document is a tree of values, and its written form is a row of tokens with spaces
anywhere between them. The tree of a grammar has a member for everything that the
grammar holds: only optional parts that are missing have none.
-/

namespace GrammarArtifact.Document

/-- A value that can be written in a document. -/
inductive Value
  | flag (value : Bool)
  | number (value : Int)
  | string (text : String)
  | list (items : List Value)
  | object (members : List (String × Value))

namespace Value

mutual

/-- How many brackets are open at a time. -/
def depth : Value → Nat
  | .flag _ => 0
  | .number _ => 0
  | .string _ => 0
  | .list items => depthOf items + 1
  | .object members => depthIn members + 1

/-- How many brackets are open at a time within some values. -/
def depthOf : List Value → Nat
  | [] => 0
  | item :: items => max item.depth (depthOf items)

/-- How many brackets are open at a time within the values of some members. -/
def depthIn : List (String × Value) → Nat
  | [] => 0
  | (_, value) :: members => max value.depth (depthIn members)

end

/-- What stands before an element or a member: a comma, unless it is the first. -/
def comma : Bool → List (List Char)
  | true => []
  | false => [[',']]

mutual

/-- The tokens of a value. -/
def tokens : Value → List (List Char)
  | .flag value => [(toString value).toList]
  | .number value => [(toString value).toList]
  | .string text => [writeString text]
  | .list items => ['['] :: (tokensOf true items ++ [[']']])
  | .object members => ['\x7b'] :: (tokensIn true members ++ [['\x7d']])

/-- The tokens of some elements of a list. -/
def tokensOf (first : Bool) : List Value → List (List Char)
  | [] => []
  | item :: items => comma first ++ (item.tokens ++ tokensOf false items)

/-- The tokens of some members of an object. -/
def tokensIn (first : Bool) : List (String × Value) → List (List Char)
  | [] => []
  | (key, value) :: members =>
    comma first ++ (writeString key :: [':'] :: (value.tokens ++ tokensIn false members))

end

/-- The written form without any spaces between tokens. -/
def text (value : Value) : String := String.ofList value.tokens.flatten

/-! ## Grammars as trees -/

/-- A member for a part that can be missing. -/
def optional {κ α : Type} (key : κ) (write : α → Value) (part : Option α) :
    List (κ × Value) :=
  (part.map fun part => (key, write part)).toList

/-- The tree of a rule value. -/
def ofRuleValue : RuleValue → Value
  | .level size => .number size.toInt
  | .text text => .string text

mutual

/-- The tree of a rule. -/
def ofRule : Rule → Value
  | ⟨kind, value, name, content, members, named, flags, contextName⟩ =>
    .object <|
      [("type", .string kind.tag)] ++
      optional "value" ofRuleValue value ++
      optional "name" .string name ++
      ofContent content ++
      [("members", .list (ofRules members))] ++
      optional "named" .flag named ++
      optional "flags" .string flags ++
      optional "context_name" .string contextName

/-- The member that holds the content of a rule, if there is one. -/
def ofContent : Option Rule → List (String × Value)
  | none => []
  | some rule => [("content", ofRule rule)]

/-- The trees of some rules. -/
def ofRules : List Rule → List Value
  | [] => []
  | rule :: rest => ofRule rule :: ofRules rest

end

/-- The tree of a list of texts. -/
def ofTexts (texts : List String) : Value := .list (texts.map .string)

/-- The tree of a table. -/
def ofTable {α : Type} (write : α → Value) (table : Table α) : Value :=
  .object (table.entries.map fun entry => (entry.1, write entry.2))

/-- The tree of a grammar. -/
def ofGrammar (grammar : Grammar) : Value :=
  .object <|
    optional "$schema" .string grammar.schema ++
    [("name", .string grammar.name)] ++
    optional "inherits" .string grammar.inherits ++
    [("rules", ofTable ofRule grammar.rules),
      ("extras", .list (ofRules grammar.extras)),
      ("externals", .list (ofRules grammar.externals)),
      ("inline", ofTexts grammar.inline),
      ("precedences", .list (grammar.precedences.map fun group => .list (ofRules group))),
      ("conflicts", .list (grammar.conflicts.map ofTexts)),
      ("reserved", ofTable (fun words => .list (ofRules words)) grammar.reserved)] ++
    optional "word" .string grammar.word ++
    [("supertypes", ofTexts grammar.supertypes)]

end Value

/-- A text consists of some tokens, with spaces around and between them. -/
def LaidOut : List (List Char) → List Char → Prop
  | [], text => skipSpace text = []
  | token :: tokens, text => ∃ rest, skipSpace text = token ++ rest ∧ LaidOut tokens rest

end GrammarArtifact.Document
