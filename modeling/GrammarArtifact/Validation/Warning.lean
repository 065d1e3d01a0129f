import GrammarArtifact.Validation.Precedence
import GrammarArtifact.Validation.Reachability

/-!
# Warnings

What deserves a second look in a grammar that is well formed.
-/

namespace GrammarArtifact.Validation

/-- A reason to look at a rule again. -/
inductive Warning
  | unreachableRule (rule : String)
  | mixedPrecedence (rule : String) (levels : List Int32)
deriving DecidableEq, Repr

namespace Warning

/-- The wording of a warning. -/
def message : Warning → String
  | .unreachableRule rule => s!"unreachable rule '{rule}'"
  | .mixedPrecedence rule levels =>
    let list := ", ".intercalate (levels.map fun level => toString level.toInt)
    s!"rule '{rule}' has multiple precedence levels: [{list}]"

end Warning

/-- The warnings about a grammar: its unreachable rules in rule order, and then its
rules with more than one precedence level in the order of their names. -/
def warnings (grammar : Grammar) : List Warning :=
  (unreachableRules grammar).map .unreachableRule ++
    (mixedPrecedences grammar).map fun entry => .mixedPrecedence entry.1 entry.2

end GrammarArtifact.Validation
