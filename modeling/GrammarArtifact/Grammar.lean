import GrammarArtifact.Rule
import GrammarArtifact.Table

/-!
# Grammars

A grammar names its rules, in order, and the first of them is where parsing
starts. The other sections refer to rules by name, or hold rules of their own
that belong to no name.
-/

namespace GrammarArtifact

/-- A declarative grammar. -/
structure Grammar where
  schema : Option String := none
  name : String
  inherits : Option String := none
  rules : Table Rule
  extras : List Rule := []
  externals : List Rule := []
  inline : List String := []
  precedences : List (List Rule) := []
  conflicts : List (List String) := []
  reserved : Table (List Rule) := .empty
  word : Option String := none
  supertypes : List String := []

namespace Grammar

/-- The rule that parsing starts from: the first one. -/
def start? (grammar : Grammar) : Option (String × Rule) := grammar.rules.first?

/-- The name that an external rule goes by: the name it holds, or else the text of
a string. -/
def externalName? (rule : Rule) : Option String := rule.name <|> rule.stringValue?

/-- The names of the external rules, in order. Some may have none. -/
def externalNames (grammar : Grammar) : List String :=
  grammar.externals.filterMap externalName?

/-- Whether a name belongs to a rule or to an external rule. -/
def defines (grammar : Grammar) (name : String) : Bool :=
  grammar.rules.contains name || grammar.externalNames.contains name

/-- Equality of grammars. The order of the rules and of the reserved word sets does
not count, and every other order does. -/
def beq (left right : Grammar) : Bool :=
  left.schema == right.schema && left.name == right.name && left.inherits == right.inherits &&
    left.rules.sameBindings right.rules && left.extras == right.extras &&
    left.externals == right.externals && left.inline == right.inline &&
    left.precedences == right.precedences && left.conflicts == right.conflicts &&
    left.reserved.sameBindings right.reserved && left.word == right.word &&
    left.supertypes == right.supertypes

instance : BEq Grammar := ⟨beq⟩

end Grammar

end GrammarArtifact
