/-!
# Rests of texts

What is left of a text after something has been read from its front is never longer
than the text. These are the facts about lengths that readers are built from.
-/

namespace GrammarArtifact.Text

theorem length_le_self (text : List Char) : text.length ≤ text.length := Nat.le_refl _

theorem length_tail_le (c : Char) (rest : List Char) : rest.length ≤ (c :: rest).length :=
  Nat.le_succ _

theorem length_tail_lt (c : Char) (rest : List Char) : rest.length < (c :: rest).length :=
  Nat.lt_succ_self _

theorem length_le_of_lt {rest text : List Char} (shorter : rest.length < text.length) :
    rest.length ≤ text.length :=
  Nat.le_of_lt shorter

theorem length_lt_of_within {rest text whole : List Char} (shorter : rest.length < text.length)
    (within : text.length ≤ whole.length) : rest.length < whole.length :=
  Nat.lt_of_lt_of_le shorter within

end GrammarArtifact.Text
