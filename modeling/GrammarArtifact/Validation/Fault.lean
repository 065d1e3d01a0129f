import GrammarArtifact.Rule

/-!
# Faults of grammars

The reasons to reject a grammar, and their wording.
-/

namespace GrammarArtifact

/-- The sections of a grammar that refer to rules by name. -/
inductive Section
  | word
  | inline
  | supertypes
  | conflicts
  | precedences
deriving DecidableEq, Repr

namespace Section

/-- All sections, in the order in which they are checked. -/
def all : List Section := [.word, .inline, .supertypes, .conflicts, .precedences]

/-- The name of a section. -/
def name : Section → String
  | .word => "word"
  | .inline => "inline"
  | .supertypes => "supertypes"
  | .conflicts => "conflicts"
  | .precedences => "precedences"

/-- The section that goes by a name. -/
def ofName? (name : String) : Option Section := all.find? (·.name == name)

end Section

namespace Validation

/-- What is wrong with a grammar. The last part of a fault within a rule names the
rule, or the section that the rule stands in. -/
inductive Fault
  | noRules
  | undefinedSymbol (symbol context : String)
  | missingContent (kind : RuleKind) (context : String)
  | malformedRule (kind : RuleKind) (context : String)
  | unknownReference (place : Section) (name : String)
deriving DecidableEq, Repr

namespace Fault

/-- The wording of a fault. -/
def message : Fault → String
  | .noRules => "grammar has no rules"
  | .undefinedSymbol symbol context =>
    s!"undefined symbol '{symbol}' referenced in rule '{context}'"
  | .missingContent kind context => s!"{kind.name} rule in '{context}' has no content"
  | .malformedRule kind context => s!"malformed {kind.name} rule in '{context}'"
  | .unknownReference place name => s!"{place.name} refers to undefined rule '{name}'"

end Fault

end Validation

end GrammarArtifact
