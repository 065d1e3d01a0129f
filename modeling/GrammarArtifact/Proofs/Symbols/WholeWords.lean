import GrammarArtifact.Pattern.Engine
import GrammarArtifact.Proofs.Pattern.Anchored
import GrammarArtifact.Symbols.Word

/-!
# What matchers say of whole words

Whether a pattern matches a whole word is asked of a matcher by the pattern between anchors.
A matcher is relied on in no more than the texts that it is asked for, so what is assumed of it
is said of one text, or of one pattern. The matcher of patterns meets these assumptions on all
texts within its limits.
-/

namespace GrammarArtifact

namespace Matcher

open Pattern

/-- A matcher decides by the pattern between anchors which texts the pattern matches as a
whole. -/
def DecidesWhole [Matcher] (pattern : String) (matchesWhole : String → Bool) : Prop :=
  ∃ isFoundIn, compile? (wholeWord pattern) = some isFoundIn ∧
    ∀ text : String, isFoundIn text.toList = matchesWhole text

/-- A matcher goes by the syntax and the meaning of patterns on a text: it takes the text if
that is a pattern, and then it finds what the pattern spans. -/
def FollowsPatterns [Text.Unicode] [Matcher] (text : List Char) : Prop :=
  compile? text = (parse? text).map Node.isFoundIn

theorem wholeWord_eq_anchored (pattern : String) :
    wholeWord pattern = anchored pattern.toList := by
  simp [wholeWord, anchored]

section Follows

variable [Text.Unicode]

/-- The matcher of patterns follows them where their limits are not exceeded. -/
theorem engine_follows {text : List Char} (small : (parse? text).all fits = true) :
    @FollowsPatterns _ engine text := by
  have within : read? text = parse? text := by
    rw [read?]
    cases parsed : parse? text with
    | none => rfl
    | some node =>
      rw [parsed, Option.all_some] at small
      rw [Option.filter_some_pos small]
  exact congrArg (Option.map Node.isFoundIn) within

variable [Matcher] {pattern : String} {node : Node}

/-- What is found of a pattern between the anchors is what the pattern matches as a whole,
unless it ends in a comment. -/
theorem FollowsPatterns.exists_isFoundIn (follows : FollowsPatterns (wholeWord pattern))
    (read : parse? pattern.toList = some node) (ended : ¬EndsInComment pattern.toList) :
    ∃ isFoundIn, compile? (wholeWord pattern) = some isFoundIn ∧
      ∀ text, isFoundIn text = true ↔ node.MatchesWhole text := by
  rcases parse?_anchored read with ⟨inComment, _⟩ | ⟨_, makes⟩
  · exact absurd inComment ended
  · rw [FollowsPatterns, wholeWord_eq_anchored, makes, Option.map_some] at follows
    rw [wholeWord_eq_anchored]
    exact ⟨_, follows, fun text => node.anchored_isFoundIn_iff text false⟩

/-- So the matcher decides which texts the pattern matches as a whole. -/
theorem FollowsPatterns.decidesWhole (follows : FollowsPatterns (wholeWord pattern))
    (read : parse? pattern.toList = some node) (ended : ¬EndsInComment pattern.toList) :
    DecidesWhole pattern fun text => decide (node.MatchesWhole text.toList) := by
  obtain ⟨isFoundIn, compiled, exact⟩ := follows.exists_isFoundIn read ended
  refine ⟨isFoundIn, compiled, fun text => ?_⟩
  rw [Bool.eq_iff_iff, decide_eq_true_eq]
  exact exact text.toList

/-- Between the anchors nothing is taken that is refused alone, unless the pattern has a
parenthesis that closes nothing. -/
theorem FollowsPatterns.compile?_eq_none (follows : FollowsPatterns (wholeWord pattern))
    (refused : parse? pattern.toList = none) (noStray : ¬HasStrayClosing pattern.toList) :
    compile? (wholeWord pattern) = none := by
  rw [follows, wholeWord_eq_anchored, Option.map_eq_none_iff, ← Option.not_isSome_iff_eq_none]
  intro accepted
  rcases isSome_parse?_of_anchored accepted with valid | stray
  · rw [refused] at valid
    contradiction
  · exact noStray stray

end Follows

end Matcher

end GrammarArtifact
