import GrammarArtifact.Event
import GrammarArtifact.Validation.LeftRecursion
import GrammarArtifact.Validation.Warning
import GrammarArtifact.Validation.Wellformed

/-!
# Validation

A grammar that is not well formed is rejected with its first fault. Any other grammar
passes with its warnings, however many there are.
-/

namespace GrammarArtifact

namespace Validation

/-- The events about left-recursive rules. -/
def recursionEvents (grammar : Grammar) : List Event :=
  (leftRecursiveRules grammar).map fun rule =>
    { level := .debug
      topic := .validation
      message := "left-recursive rule"
      fields := [("grammar", .text grammar.name), ("rule", .text rule)] }

/-- The events about warnings. -/
def warningEvents (grammar : Grammar) (warnings : List Warning) : List Event :=
  warnings.map fun warning =>
    { level := .debug
      topic := .validation
      message := warning.message
      fields := [("grammar", .text grammar.name)] }

end Validation

open Validation in
/-- Validate a grammar: its first fault, or its warnings. Left-recursive rules and
warnings are told as events, and faults are not. -/
def Grammar.validate (grammar : Grammar) : Logged (Except Fault (List Warning)) :=
  match fault? grammar with
  | some fault => pure (.error fault)
  | none => do
    let found := warnings grammar
    Logged.tell (recursionEvents grammar)
    Logged.tell (warningEvents grammar found)
    return .ok found

end GrammarArtifact
