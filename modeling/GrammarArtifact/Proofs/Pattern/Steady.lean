import GrammarArtifact.Pattern.Layout
import Mathlib.Tactic.SplitIfs

/-!
# Readers in front of a closing parenthesis

A pattern can be read by itself or as the content of a group, where a closing parenthesis and
more stand behind it. Most of the time this makes no difference. A reader takes the same from
the front and leaves the parenthesis where it is. There are two ways to miss it: a reader goes
on beyond the parenthesis, because what it reads has not ended, or a comment without an end
takes in all that stands behind.

A reader that is steady at a text misses the parenthesis in these ways only. What it reads
alone it also reads in front of a parenthesis, unless a comment takes that in, and what it
reads in front of a parenthesis, without going beyond it, it also reads alone. Readers that
are put together from steady ones are steady again, so that it suffices to look at the small
ones that everything is put together from.
-/

namespace GrammarArtifact.Pattern

namespace Reader

variable {α β : Type} {text rest : List Char} {value : α}

/-! ## What readers take -/

/-- The value that a reader takes from a text, and what it leaves. -/
def run (reader : Reader α) (text : List Char) : Option (α × List Char) :=
  (reader text).map fun taken => (taken.value, taken.rest)

theorem suffix_of_run {reader : Reader α} (found : reader.run text = some (value, rest)) :
    rest <:+ text := by
  obtain ⟨taken, _, same⟩ := Option.map_eq_some_iff.mp found
  exact (Prod.mk.inj same).2 ▸ taken.within

theorem run_bind_eq_some_iff {first : Reader α} {further : α → Reader β} {result : β} :
    (first.bind further).run text = some (result, rest) ↔
      ∃ value middle, first.run text = some (value, middle) ∧
        (further value).run middle = some (result, rest) := by
  simp only [run, bind, Option.map_eq_some_iff, Option.bind_eq_some_iff, Prod.mk.injEq]
  constructor
  · rintro ⟨_, ⟨taken, before, last, behind, rfl⟩, rfl, rfl⟩
    exact ⟨taken.value, taken.rest, ⟨taken, before, rfl, rfl⟩, last, behind, rfl, rfl⟩
  · rintro ⟨_, _, ⟨taken, before, rfl, rfl⟩, last, behind, rfl, rfl⟩
    exact ⟨_, ⟨taken, before, last, behind, rfl⟩, rfl, rfl⟩

theorem run_lift_eq_some_iff {found : Option α} :
    (lift found).run text = some (value, rest) ↔ found = some value ∧ rest = text := by
  cases found with
  | none => simp [run, lift]
  | some found => simp [run, lift, Taken.here, eq_comm]

/-- A part seen from behind a further character is the same part. -/
theorem run_behind (reader other : Reader α) (c : Char)
    (same : reader (c :: rest) = (other rest).map Taken.behind) :
    reader.run (c :: rest) = other.run rest := by
  simp only [run, same, Option.map_map]
  rfl

/-! ## Steady readers -/

/-- The reader takes the same from a text by itself and in front of a parenthesis, as long
as no line ends behind that. -/
def Keeps (reader : Reader α) (text : List Char) (value : α) (rest : List Char) : Prop :=
  reader.run text = some (value, rest) ∧
    ∀ after, '\n' ∉ after → reader.run (text ++ ')' :: after) = some (value, rest ++ ')' :: after)

/-- The reader misses a parenthesis behind the text only in a comment, or by going beyond
it. There may be results that it stops with although it would fail without the parenthesis. -/
structure Steady (hanging : α → List Char → Prop) (reader : Reader α) (text : List Char) :
    Prop where
  alone : ∀ value rest, reader.run text = some (value, rest) →
    reader.Keeps text value rest ∨
      rest = [] ∧ ∀ after, '\n' ∉ after → reader.run (text ++ ')' :: after) = some (value, [])
  before : ∀ after value rest, reader.run (text ++ ')' :: after) = some (value, rest) →
    rest <:+ after ∨
      ∃ kept, rest = kept ++ ')' :: after ∧ (reader.Keeps text value kept ∨ hanging value kept)

/-- No result at all. -/
def never (_ : α) (_ : List Char) : Prop := False

variable {hanging : α → List Char → Prop} {hangingNext : β → List Char → Prop}

/-- A reader is steady where it does the same as one that is. -/
theorem Steady.congr {reader other : Reader α} {text' : List Char}
    (steady : other.Steady hanging text')
    (alone : reader.run text = other.run text')
    (before : ∀ after, reader.run (text ++ ')' :: after) = other.run (text' ++ ')' :: after)) :
    reader.Steady hanging text := by
  have keeps (value : α) (rest : List Char) :
      reader.Keeps text value rest ↔ other.Keeps text' value rest := by
    simp only [Keeps, alone, before]
  constructor
  · simpa only [keeps, alone, before] using steady.alone
  · simpa only [keeps, before] using steady.before

/-- More results may be allowed to hang. -/
theorem Steady.weaken {reader : Reader α} {other : α → List Char → Prop}
    (steady : reader.Steady hanging text)
    (weaker : ∀ value kept, hanging value kept → other value kept) :
    reader.Steady other text := by
  refine ⟨steady.alone, ?_⟩
  intro after value rest found
  rcases steady.before after value rest found with beyond | ⟨kept, same, keeps | hangs⟩
  · exact .inl beyond
  · exact .inr ⟨kept, same, .inl keeps⟩
  · exact .inr ⟨kept, same, .inr (weaker value kept hangs)⟩

/-- A reader that keeps something in front of any parenthesis is steady. -/
theorem Steady.of_keeps {reader : Reader α} (alone : reader.run text = some (value, rest))
    (before : ∀ after, reader.run (text ++ ')' :: after) = some (value, rest ++ ')' :: after)) :
    reader.Steady hanging text := by
  have keeps : reader.Keeps text value rest := ⟨alone, fun after _ => before after⟩
  constructor
  · intro value' rest' found
    rw [alone, Option.some.injEq, Prod.mk.injEq] at found
    obtain ⟨rfl, rfl⟩ := found
    exact .inl keeps
  · intro after value' rest' found
    rw [before, Option.some.injEq, Prod.mk.injEq] at found
    obtain ⟨rfl, rfl⟩ := found
    exact .inr ⟨rest, rfl, .inl keeps⟩

/-- A reader that fails by itself and always goes beyond a parenthesis is steady. -/
theorem Steady.of_fails {reader : Reader α} (alone : reader.run text = none)
    (before : ∀ after value rest, reader.run (text ++ ')' :: after) = some (value, rest) →
      rest <:+ after) : reader.Steady hanging text := by
  constructor
  · intro value rest found
    rw [alone] at found
    contradiction
  · intro after value rest found
    exact .inl (before after value rest found)

/-- Steady readers make a steady reader. Where the first one stops with a result that hangs,
the second one has to go beyond the parenthesis, or to stop with such a result again. -/
theorem Steady.bind_hanging {first : Reader α} {further : α → Reader β}
    (steady : first.Steady hanging text)
    (next : ∀ value rest, first.run text = some (value, rest) →
      (further value).Steady hangingNext rest)
    (hangs : ∀ value kept, hanging value kept → ∀ after result rest,
      (further value).run (kept ++ ')' :: after) = some (result, rest) →
        rest <:+ after ∨ ∃ kept, rest = kept ++ ')' :: after ∧ hangingNext result kept) :
    (first.bind further).Steady hangingNext text := by
  constructor
  · intro result rest found
    obtain ⟨value, middle, before, behind⟩ := run_bind_eq_some_iff.mp found
    rcases steady.alone value middle before with ⟨_, keepsFirst⟩ | ⟨rfl, takenIn⟩
    · rcases (next value middle before).alone result rest behind with
        ⟨_, keepsNext⟩ | ⟨rfl, takenIn⟩
      · left
        refine ⟨found, ?_⟩
        intro after quiet
        exact run_bind_eq_some_iff.mpr ⟨value, _, keepsFirst after quiet, keepsNext after quiet⟩
      · right
        refine ⟨rfl, ?_⟩
        intro after quiet
        exact run_bind_eq_some_iff.mpr ⟨value, _, keepsFirst after quiet, takenIn after quiet⟩
    · right
      obtain rfl : rest = [] := List.suffix_nil.mp (suffix_of_run behind)
      refine ⟨rfl, ?_⟩
      intro after quiet
      exact run_bind_eq_some_iff.mpr ⟨value, [], takenIn after quiet, behind⟩
  · intro after result rest found
    obtain ⟨value, middle, before, behind⟩ := run_bind_eq_some_iff.mp found
    rcases steady.before after value middle before with
      beyond | ⟨kept, rfl, ⟨alone, keepsFirst⟩ | hangsFirst⟩
    · exact .inl ((suffix_of_run behind).trans beyond)
    · rcases (next value kept alone).before after result rest behind with
        beyond | ⟨kept', rfl, ⟨alone', keepsNext⟩ | hangsNext⟩
      · exact .inl beyond
      · refine .inr ⟨kept', rfl, .inl ⟨run_bind_eq_some_iff.mpr ⟨value, kept, alone, alone'⟩, ?_⟩⟩
        intro after quiet
        exact run_bind_eq_some_iff.mpr ⟨value, _, keepsFirst after quiet, keepsNext after quiet⟩
      · exact .inr ⟨kept', rfl, .inr hangsNext⟩
    · rcases hangs value kept hangsFirst after result rest behind with
        beyond | ⟨kept', rfl, hangsNext⟩
      · exact .inl beyond
      · exact .inr ⟨kept', rfl, .inr hangsNext⟩

theorem Steady.bind {first : Reader α} {further : α → Reader β}
    (steady : first.Steady never text)
    (next : ∀ value rest, first.run text = some (value, rest) →
      (further value).Steady hangingNext rest) :
    (first.bind further).Steady hangingNext text :=
  steady.bind_hanging next fun _ _ impossible => False.elim impossible

/-- A choice between steady readers is steady. -/
theorem Steady.ite {condition : Prop} [Decidable condition] {first second : Reader α}
    (yes : condition → first.Steady hanging text) (no : ¬condition → second.Steady hanging text) :
    (if condition then first else second).Steady hanging text := by
  by_cases holds : condition
  · rw [if_pos holds]
    exact yes holds
  · rw [if_neg holds]
    exact no holds

/-! ## Definite readers -/

/-- A reader finds the same in front of any parenthesis, or it never finds anything. -/
def Definite (reader : Reader α) (text : List Char) : Prop :=
  (∃ value rest, reader.run text = some (value, rest) ∧
    ∀ after, reader.run (text ++ ')' :: after) = some (value, rest ++ ')' :: after)) ∨
  reader.run text = none ∧ ∀ after, reader.run (text ++ ')' :: after) = none

theorem Definite.steady {reader : Reader α} (definite : reader.Definite text) :
    reader.Steady hanging text := by
  rcases definite with ⟨value, rest, alone, before⟩ | ⟨alone, before⟩
  · exact .of_keeps alone before
  · apply Steady.of_fails alone
    intro after value rest found
    rw [before] at found
    contradiction

theorem run_bind_of_some {first : Reader α} (further : α → Reader β)
    (found : first.run text = some (value, rest)) :
    (first.bind further).run text = (further value).run rest := by
  apply Option.ext
  rintro ⟨result, last⟩
  rw [run_bind_eq_some_iff, found]
  constructor
  · rintro ⟨_, _, same, further⟩
    obtain ⟨rfl, rfl⟩ := Prod.mk.inj (Option.some.inj same)
    exact further
  · intro further
    exact ⟨value, rest, rfl, further⟩

theorem run_bind_of_none {first : Reader α} (further : α → Reader β)
    (missing : first.run text = none) : (first.bind further).run text = none := by
  apply Option.ext
  rintro ⟨result, last⟩
  rw [run_bind_eq_some_iff, missing]
  simp

theorem Definite.bind {first : Reader α} {further : α → Reader β}
    (definite : first.Definite text)
    (next : ∀ value rest, first.run text = some (value, rest) →
      (further value).Definite rest) :
    (first.bind further).Definite text := by
  rcases definite with ⟨value, rest, alone, before⟩ | ⟨alone, before⟩
  · rcases next value rest alone with ⟨result, last, alone', before'⟩ | ⟨alone', before'⟩
    · refine .inl ⟨result, last, (run_bind_of_some further alone).trans alone', ?_⟩
      intro after
      exact (run_bind_of_some further (before after)).trans (before' after)
    · refine .inr ⟨(run_bind_of_some further alone).trans alone', ?_⟩
      intro after
      exact (run_bind_of_some further (before after)).trans (before' after)
  · refine .inr ⟨run_bind_of_none further alone, ?_⟩
    intro after
    exact run_bind_of_none further (before after)

/-! ## Small readers -/

theorem definite_lift (value : Option α) (text : List Char) : (lift value).Definite text := by
  cases value with
  | none => exact .inr ⟨rfl, fun _ => rfl⟩
  | some value => exact .inl ⟨value, text, rfl, fun _ => rfl⟩

theorem steady_lift (value : Option α) (text : List Char) :
    (lift value).Steady hanging text :=
  (definite_lift value text).steady

theorem Steady.map {reader : Reader α} {f : α → β}
    (steady : reader.Steady (fun value kept => hangingNext (f value) kept) text) :
    (reader.map f).Steady hangingNext text := by
  apply steady.bind_hanging
  · intro value rest _
    exact steady_lift _ rest
  · intro value kept hangs after result rest found
    obtain ⟨same, rfl⟩ := run_lift_eq_some_iff.mp found
    exact .inr ⟨kept, rfl, Option.some.inj same ▸ hangs⟩

theorem run_next_eq_some_iff {c : Char} : next.run text = some (c, rest) ↔ text = c :: rest := by
  cases text with
  | nil => simp [run, next]
  | cons d text => simp [run, next, Taken.next]

theorem steady_next {hanging : Char → List Char → Prop} (text : List Char) :
    next.Steady hanging text := by
  cases text with
  | nil =>
    apply Steady.of_fails rfl
    intro after value rest found
    obtain rfl := (List.cons.inj (run_next_eq_some_iff.mp found)).2
    exact List.suffix_refl _
  | cons c rest => exact .of_keeps rfl fun _ => rfl

theorem run_optional_cons (mark c : Char) (rest : List Char) :
    (optional mark).run (c :: rest) =
      if c = mark then some (true, rest) else some (false, c :: rest) := by
  simp only [run, optional]
  split_ifs <;> rfl

theorem definite_optional {mark : Char} (other : mark ≠ ')') (text : List Char) :
    (optional mark).Definite text := by
  cases text with
  | nil =>
    refine .inl ⟨false, [], rfl, ?_⟩
    intro after
    rw [List.nil_append, run_optional_cons, if_neg (Ne.symm other)]
  | cons c rest =>
    have step (rest : List Char) := run_optional_cons mark c rest
    split_ifs at step
    · exact .inl ⟨true, rest, step rest, fun _ => step _⟩
    · exact .inl ⟨false, c :: rest, step rest, fun _ => step _⟩

theorem steady_optional {hanging : Bool → List Char → Prop} {mark : Char}
    (other : mark ≠ ')') (text : List Char) : (optional mark).Steady hanging text :=
  (definite_optional other text).steady

theorem steady_ahead {hanging : Bool → List Char → Prop} {mark : Char} (other : mark ≠ ')')
    (text : List Char) : (ahead mark).Steady hanging text := by
  cases text with
  | nil =>
    apply Steady.of_keeps rfl
    intro after
    have differs : (')' == mark) = false := beq_eq_false_iff_ne.mpr (Ne.symm other)
    simp [run, ahead, Taken.here, differs]
  | cons c rest => exact .of_keeps rfl fun _ => rfl

theorem run_upTo_cons (mark : Char) (read : List Char) (c : Char) (rest : List Char) :
    (upTo mark read).run (c :: rest) =
      if c = mark then some (read.reverse, rest) else (upTo mark (c :: read)).run rest := by
  split_ifs with ends
  · simp [run, upTo, ends, Taken.next]
  · exact run_behind (upTo mark read) (upTo mark (c :: read)) c (by rw [upTo, if_neg ends])

/-- What is found before a mark does not depend on what stands behind. -/
theorem run_upTo_append {mark : Char} {read name : List Char}
    (found : (upTo mark read).run text = some (name, rest)) (behind : List Char) :
    (upTo mark read).run (text ++ behind) = some (name, rest ++ behind) := by
  induction text generalizing read with
  | nil => contradiction
  | cons c text induction =>
    rw [List.cons_append]
    rw [run_upTo_cons] at found ⊢
    split_ifs at found ⊢
    · simp only [Option.some.injEq, Prod.mk.injEq] at found ⊢
      exact ⟨found.1, congrArg (· ++ behind) found.2⟩
    · exact induction found

/-- What is read up to a mark behind a further character has that character in it. -/
theorem mem_of_run_upTo {mark c : Char} (other : c ≠ mark) {read name after : List Char}
    (missing : (upTo mark read).run text = none)
    (found : (upTo mark read).run (text ++ c :: after) = some (name, rest)) : c ∈ name := by
  have inside (read text : List Char) (held : c ∈ read)
      (found : (upTo mark read).run text = some (name, rest)) : c ∈ name := by
    induction text generalizing read with
    | nil => contradiction
    | cons d text induction =>
      rw [run_upTo_cons] at found
      split_ifs at found
      · simp only [Option.some.injEq, Prod.mk.injEq] at found
        exact found.1 ▸ List.mem_reverse.mpr held
      · exact induction (d :: read) (List.mem_cons_of_mem d held) found
  induction text generalizing read with
  | nil =>
    rw [List.nil_append, run_upTo_cons, if_neg other] at found
    exact inside (c :: read) after List.mem_cons_self found
  | cons d text induction =>
    rw [List.cons_append] at found
    rw [run_upTo_cons] at missing found
    split_ifs at missing found
    exact induction missing found

theorem steady_upTo {hanging : List Char → List Char → Prop} (mark : Char)
    (read text : List Char) :
    (upTo mark read).Steady hanging text := by
  induction text generalizing read with
  | nil =>
    apply Steady.of_fails rfl
    intro after value rest found
    rw [List.nil_append, run_upTo_cons] at found
    split_ifs at found
    · simp only [Option.some.injEq, Prod.mk.injEq] at found
      exact found.2 ▸ List.suffix_refl _
    · exact suffix_of_run found
  | cons c rest induction =>
    have step (rest : List Char) := run_upTo_cons mark read c rest
    split_ifs at step
    · exact .of_keeps (step rest) fun _ => step _
    · exact (induction _).congr (step rest) fun _ => step _

theorem run_tryElse_of_some {attempt : Reader α} (further : α → Reader β)
    (otherwise : Reader β) (found : attempt.run text = some (value, rest)) :
    (attempt.tryElse further otherwise).run text = (further value).run rest := by
  obtain ⟨taken, isTaken, same⟩ := Option.map_eq_some_iff.mp found
  obtain ⟨rfl, rfl⟩ := Prod.mk.inj same
  simp only [run, tryElse, isTaken, Option.map_map]
  rfl

theorem run_tryElse_of_none {attempt : Reader α} (further : α → Reader β)
    (otherwise : Reader β) (missing : attempt.run text = none) :
    (attempt.tryElse further otherwise).run text = otherwise.run text := by
  have none := Option.map_eq_none_iff.mp missing
  simp only [run, tryElse, none]

theorem Steady.tryElse {attempt : Reader α} {further : α → Reader β} {otherwise : Reader β}
    (definite : attempt.Definite text)
    (found : ∀ value rest, attempt.run text = some (value, rest) →
      (further value).Steady hangingNext rest)
    (missing : attempt.run text = none → otherwise.Steady hangingNext text) :
    (attempt.tryElse further otherwise).Steady hangingNext text := by
  rcases definite with ⟨value, rest, alone, before⟩ | ⟨alone, before⟩
  · apply (found value rest alone).congr
    · exact run_tryElse_of_some further otherwise alone
    · intro after
      exact run_tryElse_of_some further otherwise (before after)
  · apply (missing alone).congr
    · exact run_tryElse_of_none further otherwise alone
    · intro after
      exact run_tryElse_of_none further otherwise (before after)

/-! ## Layout -/

theorem isBlank_closing : Text.isBlank ')' = false := by decide

/-- At its end, a reader that is within a comment is steady: up to the end of the line, the
comment takes in what stands behind it. -/
theorem Steady.of_comment {reader : Reader α} (ends : reader.run [] = some (value, []))
    (passes : ∀ c rest, (c != '\n') = true → reader.run (c :: rest) = reader.run rest) :
    reader.Steady hanging [] := by
  have takesIn (after : List Char) (quiet : '\n' ∉ after) :
      reader.run after = some (value, []) := by
    induction after with
    | nil => exact ends
    | cons c rest induction =>
      rw [List.mem_cons, not_or] at quiet
      rw [passes c rest (bne_iff_ne.mpr (Ne.symm quiet.1)), induction quiet.2]
  have beyond (after : List Char) : reader.run (')' :: after) = reader.run after :=
    passes ')' after rfl
  constructor
  · intro value' rest found
    rw [ends, Option.some.injEq, Prod.mk.injEq] at found
    obtain ⟨rfl, rfl⟩ := found
    refine .inr ⟨rfl, ?_⟩
    intro after quiet
    rw [List.nil_append, beyond, takesIn after quiet]
  · intro after value' rest found
    rw [List.nil_append, beyond] at found
    exact .inl (suffix_of_run found)

/-- Pass blanks and comments, perhaps from within a comment. -/
def layoutFrom (comment : Bool) : Reader Unit := fun text =>
  some ⟨(), passLayout comment text, passLayout_suffix comment text⟩

theorem run_layoutFrom_cons (comment : Bool) (c : Char) (rest : List Char) :
    (layoutFrom comment).run (c :: rest) =
      if comment then (layoutFrom (c != '\n')).run rest
      else if Text.isBlank c then (layoutFrom false).run rest
      else if c = '#' then (layoutFrom true).run rest
      else some ((), c :: rest) := by
  simp only [run, layoutFrom, passLayout]
  split_ifs <;> rfl

theorem steady_layoutFrom {hanging : Unit → List Char → Prop} (comment : Bool)
    (text : List Char) : (layoutFrom comment).Steady hanging text := by
  induction text generalizing comment with
  | nil =>
    cases comment with
    | false =>
      apply Steady.of_keeps rfl
      intro after
      simp [run, layoutFrom, passLayout, isBlank_closing]
    | true =>
      apply Steady.of_comment rfl
      intro c rest goesOn
      rw [run_layoutFrom_cons, if_pos rfl, goesOn]
  | cons c rest induction =>
    have step (rest : List Char) := run_layoutFrom_cons comment c rest
    split_ifs at step
    · exact (induction _).congr (step rest) fun _ => step _
    · exact (induction _).congr (step rest) fun _ => step _
    · exact (induction _).congr (step rest) fun _ => step _
    · exact .of_keeps (step rest) fun _ => step _

theorem steady_layout {hanging : Unit → List Char → Prop} (counts : Bool) (text : List Char) :
    (layout counts).Steady hanging text := by
  cases counts with
  | false => exact .of_keeps rfl fun _ => rfl
  | true => exact (steady_layoutFrom false text).congr rfl fun _ => rfl

/-- What counts can be cut off from what does not, and is found whatever stands behind it. -/
theorem exists_passed {counts : Bool} {c : Char} (found : skip counts text = c :: rest) :
    ∃ before, text = before ++ c :: rest ∧ skip counts before = [] ∧
      ∀ behind, skip counts (before ++ c :: behind) = c :: behind := by
  have pass (comment : Bool) (text : List Char) (found : passLayout comment text = c :: rest) :
      ∃ before, text = before ++ c :: rest ∧ passLayout comment before = [] ∧
        ∀ behind, passLayout comment (before ++ c :: behind) = c :: behind := by
    induction text generalizing comment with
    | nil => contradiction
    | cons d text induction =>
      have step (text : List Char) := passLayout.eq_2 comment d text
      have goesOn (next : Bool) (further : passLayout next text = c :: rest)
          (step : ∀ text, passLayout comment (d :: text) = passLayout next text) :
          ∃ before, d :: text = before ++ c :: rest ∧ passLayout comment before = [] ∧
            ∀ behind, passLayout comment (before ++ c :: behind) = c :: behind := by
        obtain ⟨before, rfl, nothing, counts⟩ := induction next further
        exact ⟨d :: before, rfl, (step _).trans nothing, fun _ => (step _).trans (counts _)⟩
      rw [step] at found
      split_ifs at step found
      · exact goesOn _ found step
      · exact goesOn _ found step
      · exact goesOn _ found step
      · obtain ⟨rfl, rfl⟩ := List.cons.inj found
        exact ⟨[], rfl, rfl, step⟩
  cases counts with
  | false => exact ⟨[], found, rfl, fun _ => rfl⟩
  | true => exact pass false text found

theorem skip_append {counts : Bool} {text rest : List Char} {c : Char}
    (found : skip counts text = c :: rest) (behind : List Char) :
    skip counts (text ++ behind) = c :: (rest ++ behind) := by
  obtain ⟨before, rfl, _, counts⟩ := exists_passed found
  rw [List.append_assoc, List.cons_append, counts]

theorem run_layout_eq_some_iff {counts : Bool} {done : Unit} :
    (layout counts).run text = some (done, rest) ↔ skip counts text = rest := by
  simp [run, layout]

/-- Where nothing counts, a parenthesis is the next that does, unless a comment takes it in. -/
theorem skip_of_nothing {counts : Bool} (nothing : skip counts text = [])
    (after : List Char) :
    skip counts (text ++ ')' :: after) = ')' :: after ∨
      skip counts (text ++ ')' :: after) <:+ after := by
  have steady : (layout counts).Steady never text := steady_layout counts text
  rcases steady.before after () _ (run_layout_eq_some_iff.mpr rfl) with
    beyond | ⟨kept, same, ⟨alone, _⟩ | impossible⟩
  · exact .inr beyond
  · obtain rfl : [] = kept := nothing ▸ run_layout_eq_some_iff.mp alone
    exact .inl same
  · exact False.elim impossible

theorem skip_of_nothing_of_quiet {counts : Bool} (nothing : skip counts text = [])
    {after : List Char} (quiet : '\n' ∉ after) :
    skip counts (text ++ ')' :: after) = ')' :: after ∨
      skip counts (text ++ ')' :: after) = [] := by
  have steady : (layout counts).Steady never text := steady_layout counts text
  rcases steady.alone () [] (run_layout_eq_some_iff.mpr nothing) with
    ⟨_, keeps⟩ | ⟨_, takenIn⟩
  · exact .inl (run_layout_eq_some_iff.mp (keeps after quiet))
  · exact .inr (run_layout_eq_some_iff.mp (takenIn after quiet))

theorem run_counted_eq_some_iff {counts : Bool} {further : Char → Reader α} :
    (counted counts further).run text = some (value, rest) ↔
      ∃ c middle, skip counts text = c :: middle ∧
        (further c).run middle = some (value, rest) := by
  simp only [counted, run_bind_eq_some_iff, run_layout_eq_some_iff, run_next_eq_some_iff]
  constructor
  · rintro ⟨_, _, passed, c, middle, rfl, found⟩
    exact ⟨c, middle, passed, found⟩
  · rintro ⟨c, middle, passed, found⟩
    exact ⟨(), _, passed, c, middle, rfl, found⟩

theorem run_counted_of_skip {counts : Bool} {c : Char} (further : Char → Reader α)
    (found : skip counts text = c :: rest) :
    (counted counts further).run text = (further c).run rest := by
  have passed : (layout counts).run text = some ((), c :: rest) :=
    run_layout_eq_some_iff.mpr found
  have isNext : next.run (c :: rest) = some (c, rest) := run_next_eq_some_iff.mpr rfl
  rw [counted, run_bind_of_some _ passed, run_bind_of_some _ isNext]

/-- Behind a character there is less left than before. -/
theorem length_lt_of_run_counted {counts : Bool} {further : Char → Reader α}
    (found : (counted counts further).run text = some (value, rest)) :
    rest.length < text.length := by
  obtain ⟨taken, isTaken, same⟩ := Option.map_eq_some_iff.mp found
  exact (Prod.mk.inj same).2 ▸ length_lt_of_counted isTaken

theorem steady_counted {counts : Bool} {further : Char → Reader α} {text : List Char}
    (next : ∀ c rest, skip counts text = c :: rest → (further c).Steady hanging rest) :
    (counted counts further).Steady hanging text := by
  apply (steady_layout counts text).bind
  intro _ middle passed
  apply (steady_next middle).bind
  intro c rest taken
  exact next c rest ((run_layout_eq_some_iff.mp passed).trans (run_next_eq_some_iff.mp taken))

theorem run_blanks_cons (c : Char) (rest : List Char) :
    blanks.run (c :: rest) =
      if Text.isBlank c then blanks.run rest else some ((), c :: rest) := by
  simp only [run, blanks, List.dropWhile_cons]
  split_ifs <;> rfl

theorem steady_blanks {hanging : Unit → List Char → Prop} (text : List Char) :
    blanks.Steady hanging text := by
  induction text with
  | nil =>
    apply Steady.of_keeps rfl
    intro after
    rw [List.nil_append, run_blanks_cons, isBlank_closing]
    rfl
  | cons c rest induction =>
    have step (rest : List Char) := run_blanks_cons c rest
    split_ifs at step
    · exact induction.congr (step rest) fun _ => step _
    · exact .of_keeps (step rest) fun _ => step _

theorem run_untilBrace_cons (counts comment : Bool) (read : List Char) (c : Char)
    (rest : List Char) :
    (untilBrace counts comment read).run (c :: rest) =
      if comment then (untilBrace counts (c != '\n') read).run rest
      else if counts && Text.isBlank c then (untilBrace counts false read).run rest
      else if counts && c = '#' then (untilBrace counts true read).run rest
      else if c = '\x7d' then some (read.reverse, rest)
      else (untilBrace counts false (c :: read)).run rest := by
  simp only [run, untilBrace]
  split_ifs <;> simp [Function.comp_def, Taken.behind, Taken.widen, Taken.next]

/-- Where nothing counts there is no brace. -/
theorem run_untilBrace_eq_none {counts : Bool} {text : List Char} (read : List Char)
    (nothing : skip counts text = []) : (untilBrace counts false read).run text = none := by
  have pass (comment : Bool) (text : List Char) (nothing : passLayout comment text = []) :
      (untilBrace true comment read).run text = none := by
    induction text generalizing comment with
    | nil => rfl
    | cons c rest induction =>
      rw [passLayout] at nothing
      simp only [run_untilBrace_cons, Bool.true_and, decide_eq_true_eq]
      split_ifs at nothing ⊢
      · exact induction _ nothing
      · exact induction _ nothing
      · exact induction _ nothing
  cases counts with
  | false =>
    obtain rfl : text = [] := nothing
    rfl
  | true => exact pass false text nothing

theorem steady_untilBrace {hanging : List Char → List Char → Prop} (counts comment : Bool)
    (read text : List Char) :
    (untilBrace counts comment read).Steady hanging text := by
  induction text generalizing comment read with
  | nil =>
    apply Steady.of_fails rfl
    intro after value rest found
    rw [List.nil_append, run_untilBrace_cons] at found
    split_ifs at found
    all_goals first
      | exact suffix_of_run found
      | contradiction
  | cons c rest induction =>
    have step (rest : List Char) := run_untilBrace_cons counts comment read c rest
    split_ifs at step
    · exact (induction _ _).congr (step rest) fun _ => step _
    · exact (induction _ _).congr (step rest) fun _ => step _
    · exact (induction _ _).congr (step rest) fun _ => step _
    · exact .of_keeps (step rest) fun _ => step _
    · exact (induction _ _).congr (step rest) fun _ => step _

end Reader

end GrammarArtifact.Pattern
