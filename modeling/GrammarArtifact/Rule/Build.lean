import GrammarArtifact.Rule

/-!
# Building rules

One function per kind of node, for writing rule trees by hand.
-/

namespace GrammarArtifact.Rule

/-- The rule that matches the empty text. -/
def blank : Rule := { kind := .blank }

/-- The rule that matches a text. -/
def string (text : String) : Rule := { kind := .string, value := some (.text text) }

/-- The rule that matches an expression. -/
def pattern (expression : String) : Rule :=
  { kind := .pattern, value := some (.text expression) }

/-- The rule that refers to another rule. -/
def symbol (name : String) : Rule := { kind := .symbol, name := some name }

/-- One of several rules. -/
def choice (members : List Rule) : Rule := { kind := .choice, members }

/-- Several rules one after the other. -/
def seq (members : List Rule) : Rule := { kind := .seq, members }

/-- A rule any number of times. -/
def many (content : Rule) : Rule := { kind := .many, content := some content }

/-- A rule at least once. -/
def many1 (content : Rule) : Rule := { kind := .many1, content := some content }

/-- A rule as one token. -/
def token (content : Rule) : Rule := { kind := .token, content := some content }

/-- A rule with a precedence level. -/
def prec (level : Int32) (content : Rule) : Rule :=
  { kind := .prec, value := some (.level level), content := some content }

/-- A rule with a precedence level that associates to the left. -/
def precLeft (level : Int32) (content : Rule) : Rule :=
  { kind := .precLeft, value := some (.level level), content := some content }

/-- A rule with a precedence level that associates to the right. -/
def precRight (level : Int32) (content : Rule) : Rule :=
  { kind := .precRight, value := some (.level level), content := some content }

/-- A rule whose node is stored under a field name. -/
def field (name : String) (content : Rule) : Rule :=
  { kind := .field, name := some name, content := some content }

end GrammarArtifact.Rule
