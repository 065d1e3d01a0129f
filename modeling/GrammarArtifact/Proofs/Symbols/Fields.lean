import GrammarArtifact.Proofs.Rule.Nodes
import GrammarArtifact.Proofs.Text.Ascending
import GrammarArtifact.Symbols.Field
import Mathlib.Data.Finset.Card

/-!
# Which fields a grammar has

Fields are gathered from all nodes of all rules, also from those below tokens. Each name
counts once, however many nodes make a field of it.
-/

namespace GrammarArtifact.Grammar

/-- The names of the fields anywhere in the rules. -/
def fieldSet (grammar : Grammar) : Finset String :=
  (((grammar.rules.values.flatMap Rule.nodes).filter (·.kind = .field)).filterMap
    Rule.name).toFinset

/-- What is found at the nodes of one rule after the other. -/
theorem foundFields_eq (grammar : Grammar) :
    grammar.foundFields =
      ((grammar.rules.values.flatMap Rule.nodes).filterMap Rule.fieldName?).reverse := by
  simp only [foundFields, Rule.fold_eq_foldl_nodes]
  rw [← List.foldl_flatMap, Rule.foldl_toList_append, List.append_nil]

/-- The fields of a grammar are the names of the field nodes anywhere in its rules. -/
theorem toFinset_fieldNames (grammar : Grammar) :
    grammar.fieldNames.toFinset = grammar.fieldSet := by
  ext name
  simp only [fieldNames, List.mem_toFinset, Text.mem_ascending_iff, foundFields_eq,
    List.reverse_reverse, fieldSet, List.mem_filterMap, List.mem_filter]
  simp [Rule.fieldName?, and_assoc]

/-- Fields are listed in ascending order. -/
theorem pairwise_lt_fieldNames (grammar : Grammar) : grammar.fieldNames.Pairwise (· < ·) :=
  Text.pairwise_lt_ascending _

/-- No field is listed twice. -/
theorem nodup_fieldNames (grammar : Grammar) : grammar.fieldNames.Nodup := by
  refine grammar.pairwise_lt_fieldNames.imp ?_
  rintro field _ before rfl
  exact String.lt_irrefl field before

/-- Each field is counted once. -/
theorem length_fieldNames (grammar : Grammar) :
    grammar.fieldNames.length = grammar.fieldSet.card := by
  rw [← toFinset_fieldNames, List.toFinset_card_of_nodup grammar.nodup_fieldNames]

/-- The list of the fields follows from which fields there are. -/
theorem fieldNames_eq_of_fieldSet_eq {left right : Grammar}
    (same : left.fieldSet = right.fieldSet) : left.fieldNames = right.fieldNames := by
  have perm : left.fieldNames.Perm right.fieldNames := by
    apply List.perm_of_nodup_nodup_toFinset_eq left.nodup_fieldNames right.nodup_fieldNames
    rw [toFinset_fieldNames, toFinset_fieldNames, same]
  refine perm.eq_of_pairwise ?_ left.pairwise_lt_fieldNames right.pairwise_lt_fieldNames
  intro first second _ _ before after
  exact absurd before (String.lt_asymm after)

end GrammarArtifact.Grammar
