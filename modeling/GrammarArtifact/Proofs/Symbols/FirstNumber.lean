import GrammarArtifact.Proofs.Symbols.Contents

/-!
# Who has the first number

The first number belongs to the end of the text, which is an anonymous kind called `end`.
Rules make named kinds, so none of them has its key. A literal token and an alias can: an
anonymous text `end` that a rule shows asks for the key of the end of the text and gets
its number, and its kind, which cannot be seen. Nothing else that a grammar contributes
meets the end of the text, and only a hidden rule hides what it shares its key with.
-/

namespace GrammarArtifact.SymbolTable

open NodeKind

section Built

variable [Matcher] {grammar : Grammar} {table : SymbolTable}

/-- The first number is that of the end of the text. -/
theorem kindId?_eq_zero_iff (built : (ofGrammar? grammar).value = some table) (name : String)
    (named : Bool) : table.kindId? name named = some 0 ↔ name = "end" ∧ named = false := by
  have first : table.keys[0]? = some ("end", false) := by
    simp [keys_of_ofGrammar? built, Grammar.keySequence, List.eraseDups_cons]
  have here := (extends_of_ofGrammar? built).numbered (name, named) 0
  rw [KindTable.kindId?, here]
  change table.keys[0]? = _ ↔ _
  simp [first, eq_comm]

/-- Everything that asks for a number gets one, and with it a kind of its key. -/
theorem exists_kind_of_asked (built : (ofGrammar? grammar).value = some table) {name : String}
    {named : Bool} (asked : (name, named) ∈ grammar.keySequence) :
    ∃ id kind, table.kindId? name named = some id ∧ table.kind? id = some kind ∧
      kind.key = (name, named) := by
  have numbered := (extends_of_ofGrammar? built).numbered
  have present := (isSome_kindId?_iff built name named).mpr asked
  obtain ⟨id, found⟩ := Option.isSome_iff_exists.mp present
  obtain ⟨kind, here, rfl, rfl⟩ := (numbered.kindId?_eq_some_iff name named id).mp found
  exact ⟨id, kind, found, here, rfl⟩

/-- What the kinds of a grammar have to do with the first number. All of its rules have a
later one. So does every literal and every alias that a rule shows, except for an anonymous
`end`; and if it shares no key with a rule, its kind can be seen with the same exception. -/
theorem only_anonymous_end_has_first_number (grammar : Grammar) (table : SymbolTable)
    (built : (ofGrammar? grammar).value = some table) :
    (∀ name ∈ grammar.rules.names, ∃ id, table.kindId? name true = some id ∧ 1 ≤ id) ∧
    ∀ rule ∈ grammar.rules.values, ∀ node, rule.Shows node → ∀ name named,
      node.shownKey? = some (name, named) →
        ∃ id kind, table.kindId? name named = some id ∧ table.kind? id = some kind ∧
          (1 ≤ id ↔ ¬ (name = "end" ∧ named = false)) ∧
          (¬ (named = true ∧ name ∈ grammar.rules.names) →
            (kind.visible = true ↔ ¬ (name = "end" ∧ named = false))) := by
  have later (id : UInt16) : 1 ≤ id ↔ id ≠ 0 := by
    rw [UInt16.le_iff_toNat_le, ne_eq, ← UInt16.toNat_inj]
    exact Nat.one_le_iff_ne_zero
  refine ⟨fun name isRule => ?_, fun rule isRule node shown name named key => ?_⟩
  · obtain ⟨id, _, found, -⟩ := exists_kind_of_asked built
      ((grammar.named_mem_keySequence_iff name).mpr (.inl isRule))
    refine ⟨id, found, (later id).mpr ?_⟩
    rintro rfl
    exact absurd ((kindId?_eq_zero_iff built name true).mp found).2 Bool.noConfusion
  · have asks : (name, named) ∈ grammar.shownKeys :=
      (grammar.mem_shownKeys_iff _).mpr ⟨rule, isRule, node, shown, key⟩
    obtain ⟨id, kind, found, here, same⟩ :=
      exists_kind_of_asked built (List.mem_append_right _ asks)
    have first : id = 0 ↔ name = "end" ∧ named = false := by
      rw [← kindId?_eq_zero_iff built, found, Option.some_inj]
    refine ⟨id, kind, found, here, (later id).trans first.not, fun unshared => ?_⟩
    have member : kind ∈ table.kinds.toList := by
      rw [KindTable.kind?, ← Array.getElem?_toList] at here
      exact List.mem_of_getElem? here
    have hidden := visible_eq_false_iff_hides built member
    rw [← Bool.not_eq_false, hidden, same, Grammar.Hides]
    refine not_congr ⟨?_, fun isEnd => .inl (Prod.ext isEnd.1 isEnd.2)⟩
    rintro (isEnd | ⟨isNamed, inRules, -⟩)
    · exact Prod.mk.inj isEnd
    · exact absurd ⟨isNamed, inRules⟩ unshared

end Built

/-- A grammar with blocks between two literal tokens. -/
def blocked : Grammar where
  name := "blocked"
  rules := ⟨[("block", .seq [.string "begin", .string "end"])], by simp⟩

/-- The opening token has a number of its own and can be seen. -/
theorem blocked_begin_numbered :
    ∃ table id kind, (ofGrammar? blocked).value = some table ∧
      table.kindId? "begin" false = some id ∧ table.kind? id = some kind ∧ 1 ≤ id ∧
        kind.visible = true := by
  have fits : (ofGrammar? blocked).value.isSome := by decide +kernel
  obtain ⟨table, built⟩ := Option.isSome_iff_exists.mp fits
  obtain ⟨-, shown⟩ := only_anonymous_end_has_first_number blocked table built
  obtain ⟨id, kind, found, here, first, visible⟩ :=
    shown (.seq [.string "begin", .string "end"]) (by decide) (.string "begin")
      (.through rfl (by decide) (.here _)) "begin" false rfl
  exact ⟨table, id, kind, built, found, here, first.mpr (by decide),
    (visible (by decide)).mpr (by decide)⟩

/-- The closing token has the number and the kind of the end of the text. -/
theorem blocked_end_not_numbered :
    ∃ table, (ofGrammar? blocked).value = some table ∧
      (∃ rule ∈ blocked.rules.values, ∃ node, rule.Shows node ∧
        node.stringValue? = some "end") ∧
      table.kindId? "end" false = some 0 ∧ table.kind? 0 = some ⟨"end", false, false⟩ := by
  have missing : (ofGrammar? blocked).value.any fun table =>
      table.kindId? "end" false = some 0 ∧ table.kind? 0 = some ⟨"end", false, false⟩ := by
    decide +kernel
  cases built : (ofGrammar? blocked).value with
  | none => simp [built] at missing
  | some table =>
    simp only [built, Option.any_some, decide_eq_true_eq] at missing
    exact ⟨table, rfl, ⟨.seq [.string "begin", .string "end"], by decide, .string "end",
      .through rfl (by decide) (.here _), rfl⟩, missing⟩

end GrammarArtifact.SymbolTable
