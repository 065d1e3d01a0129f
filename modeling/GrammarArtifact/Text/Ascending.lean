/-!
# Ascending rows of texts

A row of texts is put into ascending order by sorting it and dropping what then repeats
the text before it. In such a row the place of a text is found by bisection: the part that
the text can be in is halved until a single place is left.
-/

namespace GrammarArtifact.Text

/-- Some texts in ascending order, each once. -/
def ascending (texts : List String) : List String :=
  (texts.mergeSort fun first second => decide (first ≤ second)).eraseReps

/-- Halve a part of a row until one place is left. The part is given by its first place and
the number of its places, and each place is known to be beyond what is looked for or not. -/
def narrow (beyond : Nat → Bool) (first count : Nat) : Nat :=
  if count ≤ 1 then first
  else
    let half := count / 2
    narrow beyond (if beyond (first + half) then first else first + half) (count - half)
termination_by count

/-- The place of a text in an ascending row. -/
def placeIn? (row : Array String) (text : String) : Option Nat :=
  let place := narrow (fun place => row[place]?.any fun other => decide (text < other)) 0 row.size
  if row[place]? = some text then some place else none

end GrammarArtifact.Text
