import GrammarArtifact.Proofs.Symbols.Contents
import GrammarArtifact.Proofs.Symbols.WholeWords
import GrammarArtifact.Validation

/-!
# Which texts are keywords

Keywords are chosen from the kinds of a table and not from the literal tokens of the rules.
A kind does not tell whether a string or an anonymous alias made it, and the kind of the
end of the text cannot be seen even where a string has its key. So keywords are the
anonymous texts that the rules show and that the pattern of words matches, without `end`.
Aliases that are no literal come in by this, and a literal `end` stays out.

First occurrences are found among the keys of all kinds, before any choice is made.
Choosing keeps anonymous keys apart, so it can as well be made first.
-/

namespace GrammarArtifact

namespace Grammar

/-- The texts of the strings that the rules show, rule by rule and in the order of the
nodes. -/
def literals (grammar : Grammar) : List String :=
  grammar.rules.values.flatMap fun rule => rule.surface.filterMap Rule.stringValue?

/-- The anonymous texts that the rules show, those of strings and of aliases. -/
def anonymousTexts (grammar : Grammar) : List String :=
  grammar.shownKeys.filterMap fun key => if key.2 then none else some key.1

/-- The text that an anonymous alias shows. -/
def anonymousAlias? (node : Rule) : Option String :=
  if node.kind = .aliased ∧ node.named.getD false = false then NodeKind.aliasName? node else none

/-- A rule shows a text as an anonymous alias. -/
def ShowsAlias (grammar : Grammar) (text : String) : Prop :=
  ∃ rule ∈ grammar.rules.values, ∃ node, rule.Shows node ∧ anonymousAlias? node = some text

theorem mem_literals_iff (grammar : Grammar) (text : String) :
    text ∈ grammar.literals ↔
      ∃ rule ∈ grammar.rules.values, ∃ node, rule.Shows node ∧
        node.stringValue? = some text := by
  simp [literals, List.mem_filterMap, Rule.mem_surface_iff_shows]

/-- A node that shows an anonymous text is a string or an anonymous alias. -/
theorem anonymousKey_eq_or (node : Rule) :
    (node.shownKey?.bind fun key => if key.2 then none else some key.1) =
      node.stringValue?.or (anonymousAlias? node) := by
  obtain ⟨kind, value, name, content, members, named, flags, contextName⟩ := node
  cases kind
  case string =>
    rcases value with _ | (_ | _) <;>
      simp [Rule.shownKey?, Rule.stringValue?, anonymousAlias?, Rule.textValue?]
  case aliased =>
    cases isNamed : named.getD false <;>
      simp [Rule.shownKey?, Rule.stringValue?, anonymousAlias?, isNamed, NodeKind.aliasName?,
        Option.bind_map]
  all_goals simp [Rule.shownKey?, Rule.stringValue?, anonymousAlias?]

theorem anonymousTexts_eq_flatMap (grammar : Grammar) :
    grammar.anonymousTexts =
      grammar.rules.values.flatMap fun rule =>
        rule.surface.filterMap fun node => node.stringValue?.or (anonymousAlias? node) := by
  simp only [anonymousTexts, shownKeys, List.filterMap_flatMap, List.filterMap_filterMap,
    anonymousKey_eq_or]

theorem mem_anonymousTexts_iff (grammar : Grammar) (text : String) :
    text ∈ grammar.anonymousTexts ↔ text ∈ grammar.literals ∨ grammar.ShowsAlias text := by
  have either (node : Rule) : node.stringValue?.or (anonymousAlias? node) = some text ↔
      node.stringValue? = some text ∨ anonymousAlias? node = some text := by
    unfold Rule.stringValue? anonymousAlias?
    cases node.kind <;> simp
  simp only [anonymousTexts_eq_flatMap, mem_literals_iff, ShowsAlias, List.mem_flatMap,
    List.mem_filterMap, Rule.mem_surface_iff_shows, either]
  constructor
  · rintro ⟨rule, isRule, node, shown, literal | isAlias⟩
    · exact .inl ⟨rule, isRule, node, shown, literal⟩
    · exact .inr ⟨rule, isRule, node, shown, isAlias⟩
  · rintro (⟨rule, isRule, node, shown, literal⟩ | ⟨rule, isRule, node, shown, isAlias⟩)
    · exact ⟨rule, isRule, node, shown, .inl literal⟩
    · exact ⟨rule, isRule, node, shown, .inr isAlias⟩

end Grammar

namespace SymbolTable

open NodeKind

/-- Where no anonymous alias is matched and no literal `end` is, what is chosen from all
anonymous texts are the literals that are matched. -/
theorem filter_anonymousTexts_eq (grammar : Grammar) {matched : String → Bool}
    (noAlias : ∀ text, grammar.ShowsAlias text → matched text = false)
    (noEnd : "end" ∈ grammar.literals → matched "end" = false) :
    (grammar.anonymousTexts.filter fun text => text ≠ "end" ∧ matched text = true) =
      grammar.literals.filter matched := by
  rw [Grammar.anonymousTexts_eq_flatMap, Grammar.literals, List.filter_flatMap,
    List.filter_flatMap]
  apply List.flatMap_congr
  intro rule isRule
  rw [List.filter_filterMap, List.filter_filterMap]
  apply List.filterMap_congr
  intro shown inSurface
  have shows := (Rule.mem_surface_iff_shows rule shown).mp inSurface
  cases literal : shown.stringValue? with
  | some text =>
    by_cases isEnd : text = "end"
    · subst isEnd
      have unmatched := noEnd
        ((grammar.mem_literals_iff "end").mpr ⟨rule, isRule, shown, shows, literal⟩)
      simp [Option.filter, unmatched]
    · simp [Option.filter, isEnd]
  | none =>
    cases isAlias : Grammar.anonymousAlias? shown with
    | none => rfl
    | some text =>
      simp [Option.filter, noAlias text ⟨rule, isRule, shown, shows, isAlias⟩]

section Chosen

variable [Matcher] {grammar : Grammar} {table : SymbolTable} {isFoundIn : List Char → Bool}

/-- The text of an anonymous key, unless it is that of the end of the text or nothing is found
in it. -/
def wordOf? (isFoundIn : List Char → Bool) (key : String × Bool) : Option String :=
  if key.2 = false ∧ key.1 ≠ "end" ∧ isFoundIn key.1.toList = true then some key.1 else none

/-- Keywords are chosen from the keys of the kinds alone. -/
theorem keywordsAmong_eq_filterMap (built : (ofGrammar? grammar).value = some table) :
    keywordsAmong table.kinds.toList isFoundIn = table.keys.filterMap (wordOf? isFoundIn) := by
  rw [keywordsAmong, KindTable.keys, List.filterMap_map, ← List.filterMap_eq_map,
    List.filterMap_filter]
  apply List.filterMap_congr
  intro kind member
  have hidden := visible_eq_false_iff_hides built member
  obtain ⟨name, named, visible⟩ := kind
  cases named with
  | true => simp [wordOf?, key]
  | false =>
    simp only [key, Grammar.Hides, Prod.mk.injEq, and_true, Bool.false_eq_true, false_and,
      or_false] at hidden
    cases visible with
    | true =>
      have other : name ≠ "end" := fun same => Bool.noConfusion (hidden.mpr same)
      simp [wordOf?, key, other]
    | false => simp [wordOf?, key, hidden.mp rfl]

/-- The keywords of a table, as it is read off what the rules show. -/
theorem keywords_eq (built : (ofGrammar? grammar).value = some table) {pattern : String}
    (found : grammar.wordPattern? = some pattern)
    (compiled : Matcher.compile? (wholeWord pattern) = some isFoundIn) :
    table.keywords = (grammar.anonymousTexts.filter fun text =>
      text ≠ "end" ∧ isFoundIn text.toList = true).eraseDups := by
  have apart ⦃one other : String × Bool⦄ ⦃text : String⦄ (first : wordOf? isFoundIn one = some text)
      (second : wordOf? isFoundIn other = some text) : one = other := by
    simp only [wordOf?, Option.ite_none_right_eq_some, Option.some_inj] at first second
    exact Prod.ext (first.2.trans second.2.symm) (first.1.1.trans second.1.1.symm)
  have shown : grammar.keySequence.filterMap (wordOf? isFoundIn) =
      grammar.shownKeys.filterMap (wordOf? isFoundIn) := by
    have noRules : (grammar.rules.names.map (·, true)).filterMap (wordOf? isFoundIn) = [] := by
      simp [List.filterMap_map, Function.comp_def, wordOf?]
    rw [Grammar.keySequence, List.filterMap_append, List.filterMap_cons, noRules]
    simp [wordOf?]
  have chosen : grammar.shownKeys.filterMap (wordOf? isFoundIn) =
      grammar.anonymousTexts.filter fun text =>
        text ≠ "end" ∧ isFoundIn text.toList = true := by
    rw [Grammar.anonymousTexts, List.filter_filterMap]
    congr 1
    funext key
    cases isNamed : key.2 <;> simp [wordOf?, isNamed, Option.filter]
  calc table.keywords = keywordsAmong table.kinds.toList isFoundIn := by
        rw [(parts_of_ofGrammar? built).2.2, value_keywordsOf, found, Option.bind_some, compiled]
        rfl
    _ = grammar.keySequence.eraseDups.filterMap (wordOf? isFoundIn) := by
        rw [keywordsAmong_eq_filterMap built, keys_of_ofGrammar? built]
    _ = _ := by rw [filterMap_eraseDups apart, shown, chosen]

end Chosen

/-- Which texts are keywords, when it is decided which texts the pattern of words matches as a
whole. They are the anonymous texts that the rules show and the pattern matches, in the order
in which they first come up, without `end`. So the keywords are the matched literals exactly
when no literal `end` is matched and every anonymous alias that is matched is a literal as
well, and they come in the order of the literals when no alias is matched at all. -/
theorem keywords_are_anonymous_texts_but_end [Matcher] (grammar : Grammar) (table : SymbolTable)
    (pattern : String) (matched : String → Bool)
    (built : (ofGrammar? grammar).value = some table)
    (found : grammar.wordPattern? = some pattern)
    (decides : Matcher.DecidesWhole pattern matched) :
    table.keywords = (grammar.anonymousTexts.filter fun text =>
      text ≠ "end" ∧ matched text = true).eraseDups ∧
    ((∀ text, text ∈ table.keywords ↔ text ∈ grammar.literals ∧ matched text = true) ↔
      ¬ ("end" ∈ grammar.literals ∧ matched "end" = true) ∧
        ∀ text, grammar.ShowsAlias text → matched text = true → text ≠ "end" →
          text ∈ grammar.literals) ∧
    ((∀ text, grammar.ShowsAlias text → matched text = false) →
      ("end" ∈ grammar.literals → matched "end" = false) →
        table.keywords = (grammar.literals.filter matched).eraseDups) := by
  obtain ⟨isFoundIn, compiled, whole⟩ := decides
  have keywords : table.keywords = (grammar.anonymousTexts.filter fun text =>
      text ≠ "end" ∧ matched text = true).eraseDups := by
    simpa only [whole] using keywords_eq built found compiled
  have isKeyword (text : String) : text ∈ table.keywords ↔
      (text ∈ grammar.literals ∨ grammar.ShowsAlias text) ∧ text ≠ "end" ∧
        matched text = true := by
    rw [keywords, List.mem_eraseDups, List.mem_filter, decide_eq_true_eq,
      grammar.mem_anonymousTexts_iff]
  refine ⟨keywords, ?_, fun noAlias noEnd => ?_⟩
  · constructor
    · intro exact
      refine ⟨fun isEnd => ((isKeyword "end").mp ((exact "end").mpr isEnd)).2.1 rfl, ?_⟩
      intro text isAlias isMatched other
      exact ((exact text).mp ((isKeyword text).mpr ⟨.inr isAlias, other, isMatched⟩)).1
    · rintro ⟨noEnd, literalToo⟩ text
      rw [isKeyword text]
      constructor
      · rintro ⟨literal | isAlias, other, isMatched⟩
        · exact ⟨literal, isMatched⟩
        · exact ⟨literalToo text isAlias isMatched other, isMatched⟩
      · rintro ⟨literal, isMatched⟩
        refine ⟨.inl literal, ?_, isMatched⟩
        rintro rfl
        exact noEnd ⟨literal, isMatched⟩
  · rw [keywords, filter_anonymousTexts_eq grammar noAlias noEnd]

/-- A grammar that shows a name under an alias between two literals. -/
def nicknamed (closing : String) : Grammar where
  name := "nicknamed"
  rules := ⟨[("page", .seq [.string closing,
      { kind := .aliased, value := some (.text "nick"), content := some (.symbol "name") },
      .string "if"]),
    ("name", .pattern "[a-z]+")], by simp⟩
  word := some "name"

/-- The pattern of lower case words does not end in a comment. -/
theorem not_endsInComment_lowerCase : ¬Pattern.EndsInComment "[a-z]+".toList := by
  rintro ⟨_, inComment⟩
  exact absurd inComment (by decide +kernel)

/-- Between the anchors it is within the limits of the matcher of patterns. -/
theorem followsPatterns_lowerCase : Matcher.FollowsPatterns (wholeWord "[a-z]+") :=
  Matcher.engine_follows (by decide +kernel)

/-- So the matcher of patterns decides which texts are made of lower case letters. -/
theorem exists_decidesWhole_lowerCase :
    ∃ node, Pattern.parse? "[a-z]+".toList = some node ∧
      Matcher.DecidesWhole "[a-z]+" fun text => decide (node.MatchesWhole text.toList) := by
  have accepted : (Pattern.parse? "[a-z]+".toList).isSome := by decide +kernel
  obtain ⟨node, read⟩ := Option.isSome_iff_exists.mp accepted
  exact ⟨node, read, followsPatterns_lowerCase.decidesWhole read not_endsInComment_lowerCase⟩

/-- The alias is a keyword, although no literal reads like it. -/
theorem nicknamed_alias_is_keyword :
    ∃ table node, (ofGrammar? (nicknamed ";")).value = some table ∧
      (nicknamed ";").wordPattern? = some "[a-z]+" ∧
      Pattern.parse? "[a-z]+".toList = some node ∧
      Matcher.DecidesWhole "[a-z]+" (fun text => decide (node.MatchesWhole text.toList)) ∧
      table.keywords = ((nicknamed ";").anonymousTexts.filter fun text =>
        text ≠ "end" ∧ decide (node.MatchesWhole text.toList) = true).eraseDups ∧
      "nick" ∈ table.keywords ∧ "nick" ∉ (nicknamed ";").literals := by
  have chosen : (ofGrammar? (nicknamed ";")).value.any fun table => "nick" ∈ table.keywords := by
    decide +kernel
  have found : (nicknamed ";").wordPattern? = some "[a-z]+" := by decide
  obtain ⟨table, built, isKeyword⟩ := (Option.any_eq_true _ _).mp chosen
  obtain ⟨node, read, decides⟩ := exists_decidesWhole_lowerCase
  obtain ⟨keywords, -, -⟩ :=
    keywords_are_anonymous_texts_but_end _ table "[a-z]+" _ built found decides
  exact ⟨table, node, built, found, read, decides, keywords, of_decide_eq_true isKeyword,
    by decide⟩

/-- A literal `end` that the pattern of words matches is no keyword. -/
theorem nicknamed_end_is_no_keyword :
    (nicknamed "end").validate.value.isOk ∧
    ∃ table node, (ofGrammar? (nicknamed "end")).value = some table ∧
      (nicknamed "end").wordPattern? = some "[a-z]+" ∧
      Pattern.parse? "[a-z]+".toList = some node ∧
      Matcher.DecidesWhole "[a-z]+" (fun text => decide (node.MatchesWhole text.toList)) ∧
      "end" ∈ (nicknamed "end").literals ∧ node.MatchesWhole "end".toList ∧
      table.keywords = ["nick", "if"] := by
  have chosen : (ofGrammar? (nicknamed "end")).value.any fun table =>
      table.keywords = ["nick", "if"] := by decide +kernel
  have matching : (Pattern.parse? "[a-z]+".toList).all fun node =>
      decide (node.MatchesWhole "end".toList) := by decide +kernel
  obtain ⟨table, built, keywords⟩ := (Option.any_eq_true _ _).mp chosen
  obtain ⟨node, read, decides⟩ := exists_decidesWhole_lowerCase
  rw [read, Option.all_some, decide_eq_true_eq] at matching
  exact ⟨by decide +kernel, table, node, built, by decide, read, decides, by decide, matching,
    of_decide_eq_true keywords⟩

end SymbolTable

end GrammarArtifact
