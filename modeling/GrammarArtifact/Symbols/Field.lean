import GrammarArtifact.Grammar
import GrammarArtifact.Text.Ascending

/-!
# Fields

Fields name the children of a syntax tree node. The fields of a grammar are those
anywhere in its rules, in ascending order and each once.
-/

namespace GrammarArtifact

/-- The name of the field that a node makes. -/
def Rule.fieldName? (node : Rule) : Option String :=
  if node.kind = .field then node.name else none

/-- The names of the fields that nodes make, last first. -/
def Grammar.foundFields (grammar : Grammar) : List String :=
  grammar.rules.values.foldl
    (fun found rule => rule.fold (fun found node => node.fieldName?.toList ++ found) found) []

/-- The names of the fields of a grammar. -/
def Grammar.fieldNames (grammar : Grammar) : List String :=
  Text.ascending grammar.foundFields.reverse

end GrammarArtifact
