import GrammarArtifact.Pattern.Token
import GrammarArtifact.Proofs.Pattern.SteadyClasses

/-!
# Lexemes are read steadily

What is read of a pattern at a time is steady, but for a brace that hangs behind an anchor.
Nothing is gained by this. Such a brace can only begin a counted repetition, which has a count
behind the brace.
-/

namespace GrammarArtifact.Pattern

open Reader

section

variable {hanging : Token → List Char → Prop} {hangingHead : Head → List Char → Prop}

/-! ## Repetitions -/

theorem steady_greed (token : Token) (text : List Char) :
    (greed token).Steady hanging text :=
  (steady_optional (by decide) text).map

theorem run_countDigits_cons (layout comment : Bool) (value : Option Nat) (c : Char)
    (rest : List Char) :
    (countDigits layout comment value).run (c :: rest) =
      if comment then (countDigits layout (c != '\n') value).run rest
      else if layout && Text.isBlank c then (countDigits layout false value).run rest
      else if layout && c = '#' then (countDigits layout true value).run rest
      else if c.isDigit then
        (countDigits layout false (some (value.getD 0 * 10 + (c.toNat - '0'.toNat)))).run rest
      else some (value, c :: rest) := by
  simp only [run, countDigits]
  split_ifs <;> simp [Function.comp_def, Taken.behind, Taken.widen, Taken.here]

theorem steady_countDigits {hanging : Option Nat → List Char → Prop} (layout comment : Bool)
    (value : Option Nat) (text : List Char) :
    (countDigits layout comment value).Steady hanging text := by
  induction text generalizing comment value with
  | nil =>
    cases comment with
    | false =>
      have alone : (countDigits layout false value).run [] = some (value, []) := rfl
      apply Steady.of_keeps alone
      intro after
      rw [List.nil_append, run_countDigits_cons]
      simp [isBlank_closing]
    | true =>
      apply Steady.of_comment rfl
      intro c rest goesOn
      rw [run_countDigits_cons, if_pos rfl, goesOn]
  | cons c rest induction =>
    have step (rest : List Char) := run_countDigits_cons layout comment value c rest
    split_ifs at step
    · exact (induction _ _).congr (step rest) fun _ => step _
    · exact (induction _ _).congr (step rest) fun _ => step _
    · exact (induction _ _).congr (step rest) fun _ => step _
    · exact (induction _ _).congr (step rest) fun _ => step _
    · exact .of_keeps (step rest) fun _ => step _

theorem steady_count {hanging : Nat → List Char → Prop} (mode : Mode) (text : List Char) :
    (count mode).Steady hanging text := by
  apply (steady_blanks text).bind
  intro _ rest _
  apply (steady_countDigits _ _ _ rest).bind
  intro value rest _
  apply (steady_blanks rest).bind
  intro _ rest _
  exact steady_lift _ rest

theorem steady_closeCount (mode : Mode) (least : Nat) (most : Option Nat) (text : List Char) :
    (closeCount mode least most).Steady hanging text := by
  apply (steady_next text).bind
  intro c rest _
  split_ifs
  · apply (steady_layout _ rest).bind
    intro _ rest _
    exact steady_greed _ rest
  · exact steady_lift _ rest

theorem steady_countedRepetition (mode : Mode) (text : List Char) :
    (countedRepetition mode).Steady hanging text := by
  apply (steady_layout _ text).bind
  intro _ rest _
  apply (steady_count mode rest).bind
  intro least rest _
  apply (steady_optional (by decide) rest).bind
  intro comma rest _
  split_ifs
  · apply (steady_layout _ rest).bind
    intro _ rest _
    apply (steady_ahead (by decide) rest).bind
    intro unbounded rest _
    split_ifs
    · exact steady_closeCount mode least none rest
    · apply (steady_count mode rest).bind
      intro most rest _
      exact steady_closeCount mode least (some most) rest
  · exact steady_closeCount mode least (some least) rest

/-! ## Groups -/

theorem run_flags_cons (read : List Char) (c : Char) (rest : List Char) :
    (flags read).run (c :: rest) =
      if c = ':' then
        if read.head? = some '-' then none else some (.flagged read.reverse, rest)
      else if c = ')' then
        if read.head? = some '-' || read.isEmpty then none
        else some (.directive read.reverse, rest)
      else if (c = '-' || Mode.letters.contains c) && !read.contains c then
        (flags (c :: read)).run rest
      else none := by
  simp only [run, flags]
  split_ifs <;> simp [Function.comp_def, Taken.behind, Taken.widen, Taken.next]

/-- Flags that a parenthesis ends make a directive with it. -/
theorem steady_flags (read text : List Char) : (flags read).Steady hangingHead text := by
  induction text generalizing read with
  | nil =>
    apply Steady.of_fails rfl
    intro after value rest found
    rw [List.nil_append, run_flags_cons, if_neg (by decide), if_pos rfl] at found
    split_ifs at found
    obtain ⟨-, rfl⟩ := Prod.mk.inj (Option.some.inj found)
    exact List.suffix_refl _
  | cons c rest induction =>
    have step (rest : List Char) := run_flags_cons read c rest
    have fails (missing : ∀ rest, (flags read).run (c :: rest) = none) :
        (flags read).Steady hangingHead (c :: rest) :=
      Definite.steady (.inr ⟨missing rest, fun _ => missing _⟩)
    split_ifs at step
    · exact fails step
    · exact .of_keeps (step rest) fun _ => step _
    · exact fails step
    · exact .of_keeps (step rest) fun _ => step _
    · exact (induction _).congr (step rest) fun _ => step _
    · exact fails step

variable [Text.Unicode]

theorem steady_groupName (taken : List (List Char)) (text : List Char) :
    (groupName taken).Steady hangingHead text :=
  (steady_upTo _ _ text).bind fun _ rest _ => steady_lift _ rest

theorem steady_head (mode : Mode) (names : List (List Char)) (text : List Char) :
    (head mode names).Steady hangingHead text := by
  apply (steady_layout _ text).bind
  intro _ rest _
  apply (steady_optional (by decide) rest).bind
  intro marked rest _
  split_ifs
  · apply (steady_optional (by decide) rest).bind
    intro long rest _
    apply (steady_optional (by decide) rest).bind
    intro named rest _
    split_ifs
    · exact steady_groupName names rest
    · exact steady_lift _ rest
    · exact steady_flags [] rest
  · exact steady_lift _ rest

end

/-! ## Lexemes -/

variable [Text.Unicode]

theorem steady_bracketClass {hanging : Written → List Char → Prop} (mode : Mode)
    (text : List Char) : (bracketClass mode).Steady hanging text := by
  apply (steady_classOpening mode text).bind
  intro level rest _
  exact steady_classBody mode [] level rest

theorem steady_plainToken (mode : Mode) (first : Char) (text : List Char) :
    (plainToken mode first).Steady (fun _ => BraceHangs mode) text := by
  refine .ite (fun _ => steady_lift _ text) fun _ => ?_
  refine .ite (fun _ => steady_greed _ text) fun _ => ?_
  refine .ite (fun _ => steady_greed _ text) fun _ => ?_
  refine .ite (fun _ => steady_greed _ text) fun _ => ?_
  refine .ite (fun _ => steady_countedRepetition mode text) fun _ => ?_
  refine .ite (fun _ => (steady_bracketClass mode text).map) fun _ => ?_
  refine .ite (fun _ => steady_lift _ text) fun _ => ?_
  refine .ite (fun _ => steady_lift _ text) fun _ => ?_
  refine .ite (fun _ => steady_lift _ text) fun _ => ?_
  refine .ite (fun _ => ?_) fun _ => steady_lift _ text
  apply ((steady_escape mode text).weaken ?_).map
  intro escape kept hangs
  exact hangs.2

/-- A token in front of a brace with nothing that counts behind it. -/
def LexemeHangs (mode : Mode) (lexeme : Lexeme) (text : List Char) : Prop :=
  (∃ token, lexeme = .token token) ∧ BraceHangs mode text

/-- Every lexeme is read steadily, but for an anchor with a brace behind it. -/
theorem steady_lexeme (context : Context) (text : List Char) :
    (lexeme context).Steady (LexemeHangs context.mode) text := by
  apply steady_counted
  intro c rest _
  split_ifs
  · exact (steady_head _ _ rest).map
  · exact steady_lift _ rest
  · apply ((steady_plainToken context.mode c rest).weaken ?_).map
    intro token kept hangs
    exact ⟨⟨token, rfl⟩, hangs⟩

end GrammarArtifact.Pattern
