import GrammarArtifact.Grammar

/-!
# Left recursion

A rule is left-recursive when it can begin with a symbol that refers to it. A
sequence begins with its first member, a choice with any of its members, and a
precedence, a field or an alias with its content. No other node counts as beginning
with what is below it.
-/

namespace GrammarArtifact.Validation

mutual

/-- Whether a rule can begin with a symbol of a given name. -/
def beginsWith (target : String) : Rule → Bool
  | ⟨kind, _, name, content, members, _, _, _⟩ =>
    match kind with
    | .symbol => name == some target
    | .seq => firstBeginsWith target members
    | .choice => anyBeginsWith target members
    | .prec | .precLeft | .precRight | .precDynamic | .field | .aliased =>
      contentBeginsWith target content
    | _ => false

/-- Whether there is a content and it can begin with the symbol. -/
def contentBeginsWith (target : String) : Option Rule → Bool
  | none => false
  | some rule => beginsWith target rule

/-- Whether there is a first member and it can begin with the symbol. -/
def firstBeginsWith (target : String) : List Rule → Bool
  | [] => false
  | rule :: _ => beginsWith target rule

/-- Whether some member can begin with the symbol. -/
def anyBeginsWith (target : String) : List Rule → Bool
  | [] => false
  | rule :: rest => beginsWith target rule || anyBeginsWith target rest

end

/-- The names of the left-recursive rules, in rule order. -/
def leftRecursiveRules (grammar : Grammar) : List String :=
  (grammar.rules.entries.filter fun entry => beginsWith entry.1 entry.2).map Prod.fst

end GrammarArtifact.Validation
