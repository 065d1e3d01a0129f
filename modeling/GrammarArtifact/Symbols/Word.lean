import GrammarArtifact.Grammar

/-!
# Words

The word section of a grammar names the rule that words match. Literal tokens that
are words are keywords.
-/

namespace GrammarArtifact

namespace Grammar

/-- Where the search for the pattern of words goes on from a node: from a symbol to
the rule it refers to, and from a token to its content. -/
def wordStep? (grammar : Grammar) (node : Rule) : Option Rule :=
  match node.kind with
  | .symbol => node.name.bind grammar.rules.find?
  | .token => node.content
  | _ => none

/-- The first pattern on the way from a node, within a number of nodes. -/
def wordPatternWithin (grammar : Grammar) : Nat → Rule → Option String
  | 0, _ => none
  | remaining + 1, node =>
    match node.patternValue? with
    | some pattern => some pattern
    | none => (grammar.wordStep? node).bind (grammar.wordPatternWithin remaining)

/-- The pattern that the rule with a name leads to, found on a way of no more nodes than
there are rules. -/
def patternFrom? (grammar : Grammar) (name : String) : Option String :=
  (grammar.rules.find? name).bind (grammar.wordPatternWithin grammar.rules.size)

/-- The pattern of words. -/
def wordPattern? (grammar : Grammar) : Option String := grammar.word.bind grammar.patternFrom?

end Grammar

/-- The expression that a whole word has to match. -/
def wholeWord (pattern : String) : List Char :=
  "^(?:".toList ++ pattern.toList ++ ")$".toList

end GrammarArtifact
