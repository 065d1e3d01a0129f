import GrammarArtifact.Pattern.Reader
import GrammarArtifact.Text.Unicode

/-!
# Layout

Where a pattern is laid out freely, blanks between its characters do not count, nor do
comments from a number sign to the end of the line.
-/

namespace GrammarArtifact.Pattern

/-- Pass blanks and comments, perhaps from within a comment. -/
def passLayout (comment : Bool) : List Char → List Char
  | [] => []
  | c :: rest =>
    if comment then passLayout (c != '\n') rest
    else if Text.isBlank c then passLayout false rest
    else if c = '#' then passLayout true rest
    else c :: rest

theorem passLayout_suffix (comment : Bool) (text : List Char) :
    passLayout comment text <:+ text := by
  induction text generalizing comment with
  | nil => exact List.suffix_refl []
  | cons c rest induction =>
    have further (comment : Bool) : passLayout comment rest <:+ c :: rest :=
      (induction comment).trans (List.suffix_cons c rest)
    unfold passLayout
    split
    · exact further _
    · split
      · exact further _
      · split
        · exact further _
        · exact List.suffix_refl _

/-- Pass blanks and comments where they do not count. -/
def skip (layout : Bool) (text : List Char) : List Char :=
  if layout then passLayout false text else text

theorem skip_suffix (layout : Bool) (text : List Char) : skip layout text <:+ text := by
  unfold skip
  split
  · exact passLayout_suffix false text
  · exact List.suffix_refl text

/-- The character that comes next when blanks are passed, and a first number sign with
them. A comment is not passed to its end. -/
def glance (layout marked : Bool) : List Char → Option Char
  | [] => none
  | c :: rest =>
    if layout && Text.isBlank c then glance layout marked rest
    else if layout && !marked && c = '#' then glance layout true rest
    else some c

namespace Reader

variable {α : Type}

/-- Pass blanks and comments where they do not count. -/
def layout (counts : Bool) : Reader Unit := fun text =>
  some ⟨(), skip counts text, skip_suffix counts text⟩

/-- Pass blanks, which never count where this is read. -/
def blanks : Reader Unit := fun text =>
  some ⟨(), text.dropWhile Text.isBlank, List.dropWhile_suffix Text.isBlank⟩

/-- Take the first character that counts, and go on by it. -/
def counted (counts : Bool) (further : Char → Reader α) : Reader α :=
  (layout counts).bind fun _ => next.bind further

/-- Behind a character there is less left than before. -/
theorem length_lt_of_counted {counts : Bool} {further : Char → Reader α} {text : List Char}
    {taken : Taken α text} (read : counted counts further text = some taken) :
    taken.rest.length < text.length := by
  obtain ⟨passed, _, _, inner, rfl⟩ := bind_eq_some_iff.mp read
  obtain ⟨first, isFirst, last, _, rfl⟩ := bind_eq_some_iff.mp inner
  have shorter := Nat.lt_of_le_of_lt last.within.length_le (length_lt_of_next isFirst)
  exact Nat.lt_of_lt_of_le shorter passed.within.length_le

/-- Read up to a closing brace, without blanks and comments where they do not count.
What has been read is held last first. -/
def untilBrace (layout comment : Bool) (read : List Char) : Reader (List Char)
  | [] => none
  | c :: rest =>
    let further (comment : Bool) (read : List Char) :=
      (untilBrace layout comment read rest).map Taken.behind
    if comment then further (c != '\n') read
    else if layout && Text.isBlank c then further false read
    else if layout && c = '#' then further true read
    else if c = '\x7d' then some (.next read.reverse)
    else further false (c :: read)

end Reader

end GrammarArtifact.Pattern
