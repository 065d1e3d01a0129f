import GrammarArtifact.Grammar

/-!
# Precedence levels

A rule that uses more than one precedence level deserves a second look. The levels
of all rules are noted in one index, node by node, under the names of the rules.
-/

namespace GrammarArtifact.Validation

/-- Precedence levels by the names of the rules that use them. -/
abbrev LevelIndex := Std.TreeMap String (Std.TreeSet Int32)

/-- Note the level of a node, if it gives one, for the rule with a name. -/
def LevelIndex.note (rule : String) (index : LevelIndex) (node : Rule) : LevelIndex :=
  match node.precedence? with
  | none => index
  | some level => index.insert rule ((index.getD rule ∅).insert level)

/-- The precedence levels of the rules of a grammar. -/
def levelIndex (grammar : Grammar) : LevelIndex :=
  grammar.rules.entries.foldl (fun index entry => entry.2.fold (LevelIndex.note entry.1) index) ∅

/-- The rules with more than one precedence level and those levels, each in ascending
order. -/
def mixedPrecedences (grammar : Grammar) : List (String × List Int32) :=
  (levelIndex grammar).toList.filterMap fun entry =>
    if 1 < entry.2.size then some (entry.1, entry.2.toList) else none

end GrammarArtifact.Validation
