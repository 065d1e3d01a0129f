import GrammarArtifact.Proofs.Text.ByteOrder
import GrammarArtifact.Proofs.Validation.MixedPrecedence
import GrammarArtifact.Proofs.Validation.Violations
import GrammarArtifact.Rule.Build

/-!
# Warnings about precedence levels

Behind the warnings about unreachable rules, an accepted grammar has one warning for each
rule that uses two different levels, and no others. A level is used by any precedence node
anywhere in the rule, as long as the node gives it as a number: precedences that go by a
name, and numbers that nodes of other kinds hold, do not count.
-/

namespace GrammarArtifact.Validation

/-- Some precedence node anywhere in a rule gives a level as a number. -/
def UsesLevel (rule : Rule) (level : Int32) : Prop :=
  ∃ node, rule.Reaches node ∧ node.kind ∈ [.prec, .precLeft, .precRight, .precDynamic] ∧
    node.value = some (.level level)

theorem precedence?_eq_some_iff (node : Rule) (level : Int32) :
    node.precedence? = some level ↔
      node.kind ∈ [.prec, .precLeft, .precRight, .precDynamic] ∧
        node.value = some (.level level) := by
  have kinds : node.kind.isPrecedence = true ↔
      node.kind ∈ [.prec, .precLeft, .precRight, .precDynamic] := by
    cases node.kind <;> decide
  rw [← kinds, Rule.precedence?]
  cases node.kind.isPrecedence with
  | false => simp
  | true => rcases node.value with _ | (_ | _) <;> simp

theorem mem_foldl_addLevel_iff (nodes : List Rule) (levels : Std.TreeSet Int32)
    (level : Int32) :
    level ∈ nodes.foldl addLevel levels ↔
      level ∈ levels ∨ ∃ node ∈ nodes, node.precedence? = some level := by
  induction nodes generalizing levels with
  | nil => simp
  | cons node rest induction =>
    rw [List.foldl_cons, induction, addLevel]
    cases given : node.precedence? with
    | none => simp [given]
    | some number => simp [given, or_assoc, or_left_comm]

/-- The levels of a rule are those that it uses. -/
theorem mem_precedenceLevels_iff (rule : Rule) (level : Int32) :
    level ∈ precedenceLevels rule ↔ UsesLevel rule level := by
  rw [precedenceLevels, Std.TreeSet.mem_toList, levelSet, mem_foldl_addLevel_iff]
  simp [UsesLevel, Rule.mem_nodes_iff_reaches, precedence?_eq_some_iff]

theorem pairwise_lt_precedenceLevels (rule : Rule) :
    (precedenceLevels rule).Pairwise fun low high => low.toInt < high.toInt := by
  refine (levelSet rule).ordered_toList.imp ?_
  intro low high before
  exact Int32.lt_iff_toInt_lt.mp (compareOfLessAndEq_eq_lt.mp before)

/-- A rule has more than one level exactly when it uses two that differ. -/
theorem one_lt_length_precedenceLevels_iff (rule : Rule) :
    1 < (precedenceLevels rule).length ↔
      ∃ one other, one ≠ other ∧ UsesLevel rule one ∧ UsesLevel rule other := by
  have ascends := pairwise_lt_precedenceLevels rule
  simp only [← mem_precedenceLevels_iff]
  generalize precedenceLevels rule = levels at ascends ⊢
  rcases levels with _ | ⟨first, _ | ⟨second, rest⟩⟩
  · simp
  · refine iff_of_false (Nat.lt_irrefl 1) ?_
    rintro ⟨one, other, apart, isFirst, isFirst'⟩
    exact apart ((List.mem_singleton.mp isFirst).trans (List.mem_singleton.mp isFirst').symm)
  · refine iff_of_true (by simp) ⟨first, second, ?_, by simp, by simp⟩
    have before := (List.pairwise_cons.mp ascends).1 second List.mem_cons_self
    intro same
    exact Int.lt_irrefl second.toInt (same ▸ before)

/-- The warnings about precedence levels are exact. They stand behind those about unreachable
rules, in the order of the bytes of the names, and there is one for each rule that uses two
different levels and for no other. It lists the levels of its rule in ascending order. -/
theorem precedence_warnings_exact (grammar : Grammar) (found : List Warning)
    (accepted : grammar.validate.value = .ok found) :
    ∃ (unreachable : List String) (mixed : List (String × List Int32)),
      found = unreachable.map .unreachableRule ++
        mixed.map (fun told => .mixedPrecedence told.1 told.2) ∧
      (mixed.Pairwise fun first second => Text.bytes first.1 < Text.bytes second.1) ∧
      (∀ name rule, (name, rule) ∈ grammar.rules.entries →
        ((∃ levels, (name, levels) ∈ mixed) ↔
          ∃ one other, one ≠ other ∧ UsesLevel rule one ∧ UsesLevel rule other)) ∧
      ∀ name levels, (name, levels) ∈ mixed →
        ∃ rule, (name, rule) ∈ grammar.rules.entries ∧
          (levels.Pairwise fun low high => low.toInt < high.toInt) ∧
          ∀ level, level ∈ levels ↔ UsesLevel rule level := by
  obtain ⟨_, rfl⟩ := (validate_eq_ok_iff grammar found).mp accepted
  refine ⟨unreachableRules grammar, mixedPrecedences grammar, rfl, ?_, ?_, ?_⟩
  · exact (mixedPrecedences_strictly_ascending grammar).imp (Text.bytes_lt_iff _ _).mpr
  · intro name rule isRule
    simp only [mem_mixedPrecedences_iff, ← one_lt_length_precedenceLevels_iff]
    constructor
    · rintro ⟨levels, ⟨name', rule'⟩, isRule', told⟩
      simp only [mixedLevels?, Option.ite_none_right_eq_some, Option.some.injEq,
        Prod.mk.injEq] at told
      obtain ⟨several, rfl, _⟩ := told
      -- A name is that of one rule only.
      have bound := (grammar.rules.find?_eq_some_iff name' rule).mpr isRule
      rw [(grammar.rules.find?_eq_some_iff name' rule').mpr isRule'] at bound
      exact Option.some.inj bound ▸ several
    · intro several
      exact ⟨precedenceLevels rule, (name, rule), isRule, if_pos several⟩
  · intro name levels member
    obtain ⟨⟨name', rule⟩, isRule, told⟩ := (mem_mixedPrecedences_iff grammar _).mp member
    simp only [mixedLevels?, Option.ite_none_right_eq_some, Option.some.injEq,
      Prod.mk.injEq] at told
    obtain ⟨_, rfl, rfl⟩ := told
    exact ⟨rule, isRule, pairwise_lt_precedenceLevels rule, mem_precedenceLevels_iff rule⟩

/-- A grammar whose rules use the lowest level and others, some of them in members of
wrappers or in contents of sequences, and one of them twice. -/
def layered : Grammar where
  name := "layered"
  rules := ⟨[("term", { Rule.precLeft 1 (.symbol "unit") with
      members := [.prec (-2147483648) .blank, .precRight 1 .blank] }),
    ("expr", { Rule.seq [.prec 3 (.symbol "term")] with content := some (.prec 2 .blank) }),
    ("unit", .choice [.prec 7 (.symbol "expr"),
      { kind := .precDynamic, value := some (.text "high"), content := some .blank }])],
    by simp⟩

theorem layered_told :
    ∃ (unreachable : List String) (mixed : List (String × List Int32)),
      layered.validate.value = .ok (unreachable.map .unreachableRule ++
        mixed.map fun told => .mixedPrecedence told.1 told.2) ∧
      (∃ levels, ("term", levels) ∈ mixed) ∧ (∃ levels, ("expr", levels) ∈ mixed) ∧
      ¬ ∃ levels, ("unit", levels) ∈ mixed := by
  have clean : violations layered = [] := by decide
  have accepted := (validate_eq_ok_iff layered _).mpr ⟨clean, rfl⟩
  obtain ⟨unreachable, mixed, told, _, warned, _⟩ := precedence_warnings_exact layered _ accepted
  have of_length {name : String} {rule : Rule} (isRule : (name, rule) ∈ layered.rules.entries) :
      (∃ levels, (name, levels) ∈ mixed) ↔ 1 < (precedenceLevels rule).length := by
    rw [one_lt_length_precedenceLevels_iff, warned name rule isRule]
  refine ⟨unreachable, mixed, told ▸ accepted, ?_, ?_, ?_⟩
  · exact (of_length (.head _)).mpr (by decide +kernel)
  · exact (of_length (.tail _ (.head _))).mpr (by decide +kernel)
  · rw [of_length (.tail _ (.tail _ (.head _)))]
    decide +kernel

end GrammarArtifact.Validation
