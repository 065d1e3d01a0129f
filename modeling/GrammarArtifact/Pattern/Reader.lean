/-!
# Readers

The parts of a pattern are read from the front of its text, and every part hands on
the text that is left, which is the end of the text before. A reader takes such a part
from any text, or fails. Readers are put together from a few small ones.
-/

namespace GrammarArtifact.Pattern

/-- A part of a pattern, and the text that is left behind it. -/
structure Taken (α : Type) (text : List Char) where
  value : α
  rest : List Char
  within : rest <:+ text

namespace Taken

variable {α : Type} {text rest longer : List Char} {c : Char}

/-- The same part seen from a text that the text is the end of. -/
def widen (taken : Taken α text) (bound : text <:+ longer) : Taken α longer :=
  ⟨taken.value, taken.rest, taken.within.trans bound⟩

/-- A part that takes nothing. -/
def here (value : α) : Taken α text := ⟨value, text, List.suffix_refl text⟩

/-- A part that takes one character. -/
def next (value : α) : Taken α (c :: rest) := ⟨value, rest, List.suffix_cons c rest⟩

/-- The same part behind a further character. -/
def behind (taken : Taken α rest) : Taken α (c :: rest) :=
  taken.widen (List.suffix_cons c rest)

end Taken

/-- What takes a part from the front of a text, or fails. -/
def Reader (α : Type) : Type := (text : List Char) → Option (Taken α text)

namespace Reader

variable {α β : Type}

/-- Take nothing, and fail where there is no value. -/
def lift (value : Option α) : Reader α := fun _ => value.map Taken.here

/-- Read one part behind another. -/
def bind (first : Reader α) (further : α → Reader β) : Reader β := fun text =>
  (first text).bind fun taken =>
    (further taken.value taken.rest).map (·.widen taken.within)

theorem bind_eq_some_iff {first : Reader α} {further : α → Reader β} {text : List Char}
    {taken : Taken β text} :
    first.bind further text = some taken ↔
      ∃ part, first text = some part ∧
        ∃ last, further part.value part.rest = some last ∧ last.widen part.within = taken := by
  simp only [bind, Option.bind_eq_some_iff, Option.map_eq_some_iff]

/-- Read a part and take it for something else. -/
def map (f : α → β) (reader : Reader α) : Reader β :=
  reader.bind fun value => lift (some (f value))

/-- Take one character. -/
def next : Reader Char
  | [] => none
  | c :: _ => some (.next c)

theorem length_lt_of_next {text : List Char} {taken : Taken Char text}
    (read : next text = some taken) : taken.rest.length < text.length := by
  cases text with
  | nil => contradiction
  | cons c rest =>
    obtain rfl := Option.some.inj read
    exact Nat.lt_succ_self _

/-- Take a character if it comes next, and tell whether it does. -/
def optional (mark : Char) : Reader Bool
  | [] => some (.here false)
  | c :: _ => if c = mark then some (.next true) else some (.here false)

/-- Tell whether a character comes next, without taking it. -/
def ahead (mark : Char) : Reader Bool := fun text => some (.here (text.head? == some mark))

/-- Go on from a part if there is one, and read something else if there is none. -/
def tryElse (attempt : Reader α) (further : α → Reader β) (otherwise : Reader β) : Reader β :=
  fun text =>
    match attempt text with
    | some taken => (further taken.value taken.rest).map (·.widen taken.within)
    | none => otherwise text

/-- Read up to a mark and pass it. What has been read is held last first. -/
def upTo (mark : Char) (read : List Char) : Reader (List Char)
  | [] => none
  | c :: rest =>
    if c = mark then some (.next read.reverse)
    else (upTo mark (c :: read) rest).map Taken.behind

end Reader

end GrammarArtifact.Pattern
