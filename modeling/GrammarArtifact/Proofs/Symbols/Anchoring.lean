import GrammarArtifact.Proofs.Symbols.Keywords
import GrammarArtifact.Proofs.Symbols.WholeWords

/-!
# The pattern of words between its anchors

Keywords are found with the pattern of words as the content of a group between anchors. That
is faithful to the pattern in most cases: what is accepted between the anchors is a pattern by
itself, and it is found in the texts that the pattern matches as a whole. There are two
exceptions. A pattern that closes the group can be accepted between the anchors without being
one by itself, and a pattern that ends in a comment is refused there, because the comment takes
in what should close the group.
-/

namespace GrammarArtifact

namespace SymbolTable

open Matcher Pattern

/-- What is told of a pattern of words that cannot be read. -/
def unreadableWord (grammar : Grammar) : Event where
  level := .warn
  topic := .symbols
  message := "word pattern is not a valid regex; no keywords extracted"
  fields := [("grammar", .text grammar.name)]
  unkept := ["err"]

section Matched

variable [Matcher] {grammar : Grammar} {pattern : String}

theorem keywordsOf_of_refused (found : grammar.wordPattern? = some pattern)
    (refused : compile? (wholeWord pattern) = none) (kinds : List NodeKind) :
    keywordsOf grammar kinds = ⟨[], [unreadableWord grammar]⟩ := by
  simp only [keywordsOf, found, refused]
  rfl

theorem keywordsOf_of_compiled {isFoundIn : List Char → Bool}
    (found : grammar.wordPattern? = some pattern)
    (compiled : compile? (wholeWord pattern) = some isFoundIn) (kinds : List NodeKind) :
    keywordsOf grammar kinds = ⟨keywordsAmong kinds isFoundIn, []⟩ := by
  simp only [keywordsOf, found, compiled]
  rfl

end Matched

/-- Putting a pattern of words between anchors is faithful, as long as the pattern neither
ends in a comment nor has a parenthesis that closes nothing. A matcher that goes by the syntax
and the meaning of patterns, here of this one and of it between the anchors, takes both or none
of them. If it takes them, what it finds between the anchors is what the pattern matches as a
whole. So without a pattern there are no keywords but a warning, and with one the keywords are
the literal tokens that it matches. Which characters Unicode has in its classes does not
matter. -/
theorem word_anchored_faithfully [Text.Unicode] [Matcher] (pattern : String)
    (ended : ¬EndsInComment pattern.toList) (noStray : ¬HasStrayClosing pattern.toList)
    (alone : FollowsPatterns pattern.toList) (between : FollowsPatterns (wholeWord pattern)) :
    ((compile? (wholeWord pattern)).isSome ↔ (compile? pattern.toList).isSome) ∧
    (∀ node, parse? pattern.toList = some node →
      ∃ isFoundIn, compile? (wholeWord pattern) = some isFoundIn ∧
        ∀ text, isFoundIn text = true ↔ node.MatchesWhole text) ∧
    ∀ grammar kinds, grammar.wordPattern? = some pattern →
      (compile? pattern.toList = none →
        keywordsOf grammar kinds = ⟨[], [unreadableWord grammar]⟩) ∧
      ∀ node, parse? pattern.toList = some node →
        keywordsOf grammar kinds =
          ⟨(kinds.filter fun kind => !kind.named && kind.visible &&
            decide (node.MatchesWhole kind.name.toList)).map (·.name), []⟩ := by
  have refuses (refused : parse? pattern.toList = none) :
      compile? (wholeWord pattern) = none := between.compile?_eq_none refused noStray
  refine ⟨?_, fun node read => between.exists_isFoundIn read ended, ?_⟩
  · rw [alone, Option.isSome_map]
    cases read : parse? pattern.toList with
    | none => rw [refuses read, Option.isSome_none, Option.isSome_none]
    | some node =>
      obtain ⟨isFoundIn, compiled, _⟩ := between.exists_isFoundIn read ended
      rw [compiled]
      exact ⟨fun _ => rfl, fun _ => rfl⟩
  · intro grammar kinds found
    constructor
    · intro refused
      rw [alone, Option.map_eq_none_iff] at refused
      exact keywordsOf_of_refused found (refuses refused) kinds
    · intro node read
      obtain ⟨isFoundIn, compiled, matching⟩ := between.exists_isFoundIn read ended
      have same (text : List Char) : isFoundIn text = decide (node.MatchesWhole text) := by
        rw [Bool.eq_iff_iff, decide_eq_true_eq]
        exact matching text
      rw [keywordsOf_of_compiled found compiled, keywordsAmong]
      simp only [same]

/-- A grammar with two literals and a pattern of words. -/
def spliced (pattern : String) : Grammar where
  name := "spliced"
  rules := ⟨[("page", .seq [.string "apple", .string ";"]), ("name", .pattern pattern)],
    by simp⟩
  word := some "name"

/-- The pattern of lower case words chooses the literal that is a word. -/
theorem spliced_anchored_faithfully :
    ¬EndsInComment "[a-z]+".toList ∧ ¬HasStrayClosing "[a-z]+".toList ∧
    FollowsPatterns "[a-z]+".toList ∧ FollowsPatterns (wholeWord "[a-z]+") ∧
    (spliced "[a-z]+").wordPattern? = some "[a-z]+" ∧
    ∃ node, parse? "[a-z]+".toList = some node ∧
      node.MatchesWhole "apple".toList ∧ ¬node.MatchesWhole ";".toList ∧
      keywordsOf (spliced "[a-z]+") [⟨"apple", false, true⟩, ⟨";", false, true⟩] =
        ⟨["apple"], []⟩ := by
  have ended := not_endsInComment_lowerCase
  have noStray : ¬HasStrayClosing "[a-z]+".toList := by
    rintro ⟨before, after, same, _⟩
    have closing : ')' ∈ "[a-z]+".toList := same ▸ List.mem_append_right before List.mem_cons_self
    exact absurd closing (by decide)
  have alone : FollowsPatterns "[a-z]+".toList := engine_follows (by decide +kernel)
  have between := followsPatterns_lowerCase
  have found : (spliced "[a-z]+").wordPattern? = some "[a-z]+" := by decide
  have own : (parse? "[a-z]+".toList).any fun node =>
      decide (node.MatchesWhole "apple".toList) && !decide (node.MatchesWhole ";".toList) := by
    decide +kernel
  obtain ⟨node, read, matched⟩ := (Option.any_eq_true _ _).mp own
  rw [Bool.and_eq_true, Bool.not_eq_true', decide_eq_true_eq, decide_eq_false_iff_not] at matched
  obtain ⟨-, -, chosen⟩ := word_anchored_faithfully "[a-z]+" ended noStray alone between
  refine ⟨ended, noStray, alone, between, found, node, read, matched.1, matched.2, ?_⟩
  rw [(chosen _ _ found).2 node read]
  have kept : decide (node.MatchesWhole "apple".toList) = true := decide_eq_true matched.1
  have dropped : decide (node.MatchesWhole ";".toList) = false := decide_eq_false matched.2
  simp only [List.filter_cons, List.filter_nil, kept, dropped]
  rfl

/-- A pattern with a parenthesis that closes nothing is none by itself, but it is accepted
between the anchors and makes a keyword, with no warning. A pattern that ends in a comment is
one by itself, but it is refused between the anchors. -/
theorem anchoring_unfaithful :
    parse? "a)|(b".toList = none ∧ (parse? (wholeWord "a)|(b")).isSome ∧
    (spliced "a)|(b").validate.value.isOk ∧
    (ofGrammar? (spliced "a)|(b")).value.any (·.keywords = ["apple"]) ∧
    (ofGrammar? (spliced "a)|(b")).events = [] ∧
    (parse? "(?x)[a-z]+ # letters".toList).isSome ∧
    parse? (wholeWord "(?x)[a-z]+ # letters") = none := by
  decide +kernel

end SymbolTable

end GrammarArtifact
