import GrammarArtifact.Proofs.Language.Gates
import GrammarArtifact.Proofs.Symbols.Contributions
import GrammarArtifact.Proofs.Validation.NeglectedNodes

/-!
# Which references have a node kind

The checks let a symbol refer to a rule or to an external rule, and they go to the extras
as they go to the rules. Node kinds come from the rules alone. So whatever refers to a
rule, and every literal that a rule shows, has a kind in any language. A name that only
an external rule goes by, or a literal that only an extra shows, has one when it happens
to be shown by a rule as well.
-/

namespace GrammarArtifact

/-- A string on the surface of a rule asks for a number by its text. -/
theorem Rule.shownKey?_of_stringValue? {node : Rule} {text : String}
    (literal : node.stringValue? = some text) : node.shownKey? = some (text, false) := by
  unfold stringValue? at literal
  split at literal
  · next isString => simp [shownKey?, isString, literal]
  · contradiction

namespace Language

/-- What the symbols and literals of an accepted grammar have a kind for. A symbol that
is checked in a rule or an extra is defined, and its name has a named kind exactly when
it belongs to a rule or is shown as a named alias. A literal that a rule shows has an
anonymous kind. Any other text, such as a literal of an extra, has one only if it reads
like the end of the text or is shown as an anonymous alias. -/
theorem kinds_cover_rules [Matcher] (grammar : Grammar) (language : Language)
    (accepted : (ofGrammar grammar).value = .ok language) :
    (∀ rule ∈ grammar.rules.values ++ grammar.extras, ∀ node ∈ rule.checked,
      ∀ name, node.symbolName? = some name → grammar.defines name = true ∧
        ((language.kindId? name true).isSome ↔
          name ∈ grammar.rules.names ∨ (name, true) ∈ grammar.shownKeys)) ∧
    (∀ rule ∈ grammar.rules.values, ∀ node text, rule.Shows node →
      node.stringValue? = some text → (language.kindId? text false).isSome) ∧
    ∀ text, (language.kindId? text false).isSome ↔
      text = "end" ∨ (text, false) ∈ grammar.shownKeys := by
  obtain ⟨clean, symbols, built, rfl⟩ := (ofGrammar_eq_ok_iff grammar language).mp accepted
  have known (name : String) (named : Bool) :
      ((declarative grammar symbols (Validation.warnings grammar)).kindId? name named).isSome ↔
        (name, named) ∈ grammar.keySequence :=
    SymbolTable.isSome_kindId?_iff built name named
  refine ⟨?_, ?_, ?_⟩
  · intro rule member node inChecked name refers
    refine ⟨?_, (known name true).trans (grammar.named_mem_keySequence_iff name)⟩
    have sound := Validation.wellFormed_of_mem_checked clean
      (List.mem_append_left _ member) inChecked
    unfold Rule.symbolName? at refers
    split at refers
    · next isSymbol =>
      obtain ⟨defined, named, known⟩ := sound.symbol (of_decide_eq_true isSymbol)
      obtain rfl : defined = name := Option.some.inj (named.symm.trans refers)
      exact known
    · contradiction
  · intro rule member node text shown literal
    rw [known, grammar.anonymous_mem_keySequence_iff]
    exact .inr ((grammar.mem_shownKeys_iff _).mpr
      ⟨rule, member, node, shown, Rule.shownKey?_of_stringValue? literal⟩)
  · intro text
    exact (known text false).trans (grammar.anonymous_mem_keySequence_iff text)

/-- A grammar with an external rule that one of its rules refers to, and with extras that
refer to a rule and match a literal. -/
def indented : Grammar where
  name := "indented"
  rules := ⟨[("page", .seq [.symbol "indent", .string "-"]), ("note", .string "#")], by simp⟩
  extras := [.symbol "note", .string " "]
  externals := [.symbol "indent"]

/-- The rule that an extra refers to and the literals of the rules have kinds. -/
theorem indented_covered :
    ∃ language, (ofGrammar indented).value = .ok language ∧
      (language.kindId? "note" true).isSome ∧ (language.kindId? "-" false).isSome ∧
      ¬ (language.kindId? " " false).isSome := by
  have loads : (ofGrammar indented).value.isOk := by decide +kernel
  cases accepted : (ofGrammar indented).value with
  | error failure => simp [accepted, Except.isOk, Except.toBool] at loads
  | ok language =>
    obtain ⟨symbols, literals, texts⟩ := kinds_cover_rules indented language accepted
    refine ⟨language, rfl, ?_, ?_, ?_⟩
    · have note := symbols (.symbol "note") (by decide) (.symbol "note") (by decide) "note" rfl
      exact note.2.mpr (by decide)
    · refine literals (.seq [.symbol "indent", .string "-"]) (by decide) (.string "-") "-" ?_ rfl
      exact .through rfl (by decide) (.here _)
    · rw [texts " "]
      decide

/-- The name of the external rule and the literal of the extras have no kinds, although
the grammar is accepted. -/
theorem indented_uncovered :
    ∃ language, (ofGrammar indented).value = .ok language ∧
      (∃ rule ∈ indented.rules.values, ∃ node ∈ rule.checked,
        node.symbolName? = some "indent" ∧ language.kindId? "indent" true = none) ∧
      ∃ rule ∈ indented.extras, ∃ node, rule.Shows node ∧
        node.stringValue? = some " " ∧ language.kindId? " " false = none := by
  have missing : (ofGrammar indented).value.toOption.any fun language =>
      language.kindId? "indent" true = none ∧ language.kindId? " " false = none := by
    decide +kernel
  cases accepted : (ofGrammar indented).value with
  | error failure => simp [accepted, Except.toOption] at missing
  | ok language =>
    simp only [accepted, Except.toOption, Option.any_some, decide_eq_true_eq] at missing
    refine ⟨language, rfl, ⟨.seq [.symbol "indent", .string "-"], by decide, .symbol "indent",
      by decide, rfl, missing.1⟩, .string " ", by decide, .string " ", .here _, rfl, missing.2⟩

end Language

end GrammarArtifact
