import GrammarArtifact.Proofs.Symbols.Contributions

/-!
# What a table holds, whatever its order

Numbers follow the order in which kinds come up. Without its numbers, a table is fixed by
what asks for one and by the names of the rules: everything that asks has one kind, and
whether it can be seen depends on its key alone. A rule keeps its kind from a literal or an
alias of the same key because all rules come first, and the end of the text comes before
them.
-/

namespace GrammarArtifact

/-- The keys of the kinds that cannot be seen: that of the end of the text, and those of
the rules whose names begin with an underscore. -/
def Grammar.Hides (grammar : Grammar) (key : String × Bool) : Prop :=
  key = ("end", false) ∨
    key.2 = true ∧ key.1 ∈ grammar.rules.names ∧ ∃ rest, key.1.toList = '_' :: rest

namespace SymbolTable

open NodeKind

variable [Matcher] {grammar : Grammar} {table : SymbolTable}

/-- A kind of a table is hidden exactly when its key is. What the rules show besides has
keys that neither the end of the text nor a rule has, and can be seen. -/
theorem visible_eq_false_iff_hides (built : (ofGrammar? grammar).value = some table)
    {kind : NodeKind} (member : kind ∈ table.kinds.toList) :
    kind.visible = false ↔ grammar.Hides kind.key := by
  have distinct := (extends_of_ofGrammar? built).numbered.nodup_keys
  obtain ⟨added, inSurfaces, kinds⟩ := kinds_of_ofGrammar? built
  rw [KindTable.keys, kinds, List.map_append] at distinct
  rw [kinds, List.mem_append, List.mem_cons, List.mem_map] at member
  rcases member with (rfl | ⟨name, isRule, rfl⟩) | later
  · exact iff_of_true rfl (.inl rfl)
  · rw [visible_ofRule_eq_false_iff]
    simp [Grammar.Hides, ofRule, key, isRule]
  · have seen := visible_of_mem_ofSurfaces (inSurfaces.mem later)
    refine iff_of_false (by simp [seen]) ?_
    have apart := (List.nodup_append.mp distinct).2.2
    have absent : kind.key ∉ (ending :: grammar.rules.names.map ofRule).map key :=
      fun before => apart _ before _ (List.mem_map_of_mem later) rfl
    rw [List.map_cons, map_key_ofRule, List.mem_cons, List.mem_map] at absent
    rintro (isEnd | ⟨named, isRule, _⟩)
    · exact absent (.inl isEnd)
    · exact absent (.inr ⟨kind.name, isRule, Prod.ext rfl named.symm⟩)

/-- A table holds the kinds whose keys ask for a number, each hidden or not as its key
says. -/
theorem mem_kinds_iff (built : (ofGrammar? grammar).value = some table) (kind : NodeKind) :
    kind ∈ table.kinds.toList ↔
      kind.key ∈ grammar.keySequence ∧ (kind.visible = false ↔ grammar.Hides kind.key) := by
  have asks (key : String × Bool) :
      key ∈ table.kinds.toList.map NodeKind.key ↔ key ∈ grammar.keySequence := by
    rw [← KindTable.keys, keys_of_ofGrammar? built, List.mem_eraseDups]
  constructor
  · intro member
    exact ⟨(asks kind.key).mp (List.mem_map_of_mem member),
      visible_eq_false_iff_hides built member⟩
  · rintro ⟨asked, hidden⟩
    obtain ⟨found, member, same⟩ := List.mem_map.mp ((asks kind.key).mpr asked)
    have alike : found.visible = kind.visible := by
      rw [Bool.eq_iff_iff, ← Bool.not_eq_false, ← Bool.not_eq_false, hidden,
        visible_eq_false_iff_hides built member, same]
    obtain ⟨name, named, visible⟩ := found
    obtain ⟨name', named', visible'⟩ := kind
    simp only [key, Prod.mk.injEq] at same
    obtain ⟨rfl, rfl⟩ := same
    obtain rfl := alike
    exact member

/-- The keywords are the literal tokens among the kinds that the pattern of words matches,
if there is one and it can be compiled. -/
theorem value_keywordsOf (grammar : Grammar) (kinds : List NodeKind) :
    (keywordsOf grammar kinds).value =
      (grammar.wordPattern?.bind fun pattern => Matcher.compile? (wholeWord pattern)).elim []
        (keywordsAmong kinds) := by
  unfold keywordsOf
  split
  · next none => simp [none]
  · next pattern found =>
    split
    · next isFoundIn compiled => simp [found, compiled]
    · next refused =>
      rw [found, Option.bind_some, refused]
      rfl

/-- Which keywords there are depends on the pattern of words and on which kinds there are. -/
theorem mem_keywordsOf_iff_of_mem_iff {left right : Grammar}
    (pattern : left.wordPattern? = right.wordPattern?) {kinds kinds' : List NodeKind}
    (same : ∀ kind, kind ∈ kinds ↔ kind ∈ kinds') (word : String) :
    word ∈ (keywordsOf left kinds).value ↔ word ∈ (keywordsOf right kinds').value := by
  rw [value_keywordsOf, value_keywordsOf, pattern]
  cases right.wordPattern?.bind fun pattern => Matcher.compile? (wholeWord pattern) with
  | none => exact Iff.rfl
  | some isFoundIn => simp [keywordsAmong, same]

end SymbolTable

end GrammarArtifact
