import GrammarArtifact.Language
import GrammarArtifact.Proofs.Validation.Violations

/-!
# The gates before a language

A grammar becomes a language after two gates: it has no violation, and its symbols can be
numbered. The language then holds the grammar itself, its symbol table and its warnings.
-/

namespace GrammarArtifact.Language

variable [Matcher]

/-- The language of a grammar, gate by gate. -/
theorem value_ofGrammar (grammar : Grammar) :
    (ofGrammar grammar).value =
      match grammar.validate.value with
      | .error fault => .error (.invalid fault)
      | .ok warnings =>
        match (SymbolTable.ofGrammar? grammar).value with
        | none => .error .tooManySymbols
        | some symbols => .ok (.declarative grammar symbols warnings) := by
  rw [ofGrammar, Logged.value_bind]
  cases grammar.validate.value with
  | error fault => rfl
  | ok warnings =>
    rw [Logged.value_bind]
    cases (SymbolTable.ofGrammar? grammar).value <;> rfl

/-- The grammars that become languages, and the languages that they become. -/
theorem ofGrammar_eq_ok_iff (grammar : Grammar) (language : Language) :
    (ofGrammar grammar).value = .ok language ↔
      Validation.violations grammar = [] ∧
        ∃ symbols, (SymbolTable.ofGrammar? grammar).value = some symbols ∧
          .declarative grammar symbols (Validation.warnings grammar) = language := by
  rw [value_ofGrammar, Validation.value_validate]
  cases Validation.violations grammar with
  | cons fault rest => simp
  | nil => cases (SymbolTable.ofGrammar? grammar).value <;> simp

/-- The grammars that do not, and why: the first violation, or too many symbols. -/
theorem ofGrammar_eq_error_iff (grammar : Grammar) (failure : LoadFailure) :
    (ofGrammar grammar).value = .error failure ↔
      (∃ fault, (Validation.violations grammar).head? = some fault ∧
          .invalid fault = failure) ∨
        Validation.violations grammar = [] ∧ (SymbolTable.ofGrammar? grammar).value = none ∧
          .tooManySymbols = failure := by
  rw [value_ofGrammar, Validation.value_validate]
  cases Validation.violations grammar with
  | cons fault rest => simp
  | nil => cases (SymbolTable.ofGrammar? grammar).value <;> simp

end GrammarArtifact.Language
