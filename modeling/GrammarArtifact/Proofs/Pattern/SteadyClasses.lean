import GrammarArtifact.Pattern.Class
import GrammarArtifact.Proofs.Pattern.Steady

/-!
# Escapes and classes are read steadily

A class that is not closed in front of a parenthesis takes it for a member and goes on. All
readers of escapes and classes are steady, but for one case. Braces behind the escape of a
word boundary are looked into before they are read, and it is an error when there is nothing
in them. In front of a parenthesis there is something, and the brace is left for what comes
next.
-/

namespace GrammarArtifact.Pattern

open Reader

section

variable {hanging : Nat → List Char → Prop} {hangingEscape : Escape → List Char → Prop}

/-! ## Escapes -/

theorem steady_hexDigits (layout : Bool) (read : List Char) (count : Nat) (text : List Char) :
    (hexDigits layout read count).Steady hanging text := by
  induction count generalizing read text with
  | zero => exact steady_lift _ text
  | succ count induction => exact steady_counted fun c rest _ => induction (c :: read) rest

theorem steady_codePoint (mode : Mode) (count : Nat) (text : List Char) :
    (codePoint mode count).Steady hangingEscape text := by
  apply steady_counted
  intro c rest _
  split
  · exact (steady_untilBrace _ _ _ rest).bind fun _ rest _ => steady_lift _ rest
  · exact (steady_hexDigits _ _ _ rest).bind fun _ rest _ => steady_lift _ rest

variable [Text.Unicode]

theorem steady_property (mode : Mode) (negated : Bool) (text : List Char) :
    (property mode negated).Steady hangingEscape text := by
  apply steady_counted
  intro c rest _
  split
  · exact steady_lift _ rest
  · split
    · exact (steady_untilBrace _ _ _ rest).bind fun _ rest _ => steady_lift _ rest
    · exact steady_lift _ rest

theorem steady_namedPlace (mode : Mode) (text : List Char) :
    (namedPlace mode).Steady hangingEscape text :=
  (steady_untilBrace _ _ _ text).bind fun _ rest _ => steady_lift _ rest

end

section

variable [Text.Unicode]

/-- An opening brace with nothing that counts behind it. -/
def BraceHangs (mode : Mode) (text : List Char) : Prop :=
  ∃ rest, text = '\x7b' :: rest ∧ skip mode.layout rest = []

/-- An anchor in front of such a brace. -/
def AnchorHangs (mode : Mode) (escape : Escape) (text : List Char) : Prop :=
  (∃ anchor, escape = .place anchor) ∧ BraceHangs mode text

theorem run_wordBoundary_brace (mode : Mode) (rest : List Char) :
    (wordBoundary mode).run ('\x7b' :: rest) =
      match skip mode.layout rest with
      | [] => none
      | c :: _ =>
        if c.isAlpha || c = '-' then (namedPlace mode).run rest
        else some (wordEscape mode .boundary, '\x7b' :: rest) := by
  simp only [run, wordBoundary]
  cases skip mode.layout rest with
  | nil => rfl
  | cons c _ =>
    dsimp only
    split_ifs
    · rw [Option.map_map]
      rfl
    · rfl

theorem run_wordBoundary_of_ne (mode : Mode) {c : Char} (other : c ≠ '\x7b')
    (rest : List Char) :
    (wordBoundary mode).run (c :: rest) = some (wordEscape mode .boundary, c :: rest) := by
  simp [run, wordBoundary, other, Taken.here]

/-- Where nothing counts in front of a parenthesis, the name of a place goes beyond it. -/
theorem suffix_of_run_namedPlace {mode : Mode} {text after last : List Char} {value : Escape}
    (nothing : skip mode.layout text = [])
    (found : (namedPlace mode).run (text ++ ')' :: after) = some (value, last)) :
    last <:+ after := by
  have steady : (namedPlace mode).Steady never text := steady_namedPlace mode text
  rcases steady.before after value last found with
    beyond | ⟨kept, rfl, ⟨alone, _⟩ | impossible⟩
  · exact beyond
  · obtain ⟨_, _, name, _⟩ := run_bind_eq_some_iff.mp alone
    rw [run_untilBrace_eq_none [] nothing] at name
    contradiction
  · exact False.elim impossible

theorem steady_wordBoundary_of_hanging (mode : Mode) {rest : List Char}
    (nothing : skip mode.layout rest = []) :
    (wordBoundary mode).Steady (AnchorHangs mode) ('\x7b' :: rest) := by
  have step (rest : List Char) := run_wordBoundary_brace mode rest
  constructor
  · intro value last found
    rw [step, nothing] at found
    contradiction
  · intro after value last found
    rw [List.cons_append, step] at found
    split at found
    · contradiction
    · split_ifs at found
      · exact .inl (suffix_of_run_namedPlace nothing found)
      · obtain ⟨rfl, rfl⟩ := Prod.mk.inj (Option.some.inj found)
        exact .inr ⟨'\x7b' :: rest, rfl, .inr ⟨⟨_, rfl⟩, rest, rfl, nothing⟩⟩

/-- The escape of a word boundary stops at a brace that hangs. Otherwise it is steady. -/
theorem steady_wordBoundary (mode : Mode) (text : List Char) :
    (wordBoundary mode).Steady (AnchorHangs mode) text := by
  cases text with
  | nil => exact .of_keeps rfl fun _ => rfl
  | cons c rest =>
    by_cases brace : c = '\x7b'
    · subst brace
      cases inside : skip mode.layout rest with
      | nil => exact steady_wordBoundary_of_hanging mode inside
      | cons d more =>
        have alone := run_wordBoundary_brace mode rest
        have before (after : List Char) := run_wordBoundary_brace mode (rest ++ ')' :: after)
        simp only [inside] at alone
        simp only [skip_append inside] at before
        split_ifs at alone before
        · exact (steady_namedPlace mode rest).congr alone before
        · exact .of_keeps alone before
    · exact .of_keeps (run_wordBoundary_of_ne mode brace rest) fun _ =>
        run_wordBoundary_of_ne mode brace _

theorem steady_escape (mode : Mode) (text : List Char) :
    (escape mode).Steady (AnchorHangs mode) text := by
  apply (steady_next text).bind
  intro c rest _
  split_ifs
  · exact steady_codePoint _ _ rest
  · exact steady_codePoint _ _ rest
  · exact steady_codePoint _ _ rest
  · exact steady_property _ _ rest
  · exact steady_wordBoundary _ rest
  · exact steady_lift _ rest

/-! ## Classes -/

end

/-- Pass hyphens, perhaps from within a comment and behind others. -/
def hyphensFrom (layout comment : Bool) (found : Nat) : Reader Nat := fun text =>
  some ⟨(passHyphens layout comment found text).1, (passHyphens layout comment found text).2,
    passHyphens_suffix layout comment found text⟩

theorem run_hyphensFrom_cons (layout comment : Bool) (found : Nat) (c : Char)
    (rest : List Char) :
    (hyphensFrom layout comment found).run (c :: rest) =
      if comment then (hyphensFrom layout (c != '\n') found).run rest
      else if layout && Text.isBlank c then (hyphensFrom layout false found).run rest
      else if layout && c = '#' then (hyphensFrom layout true found).run rest
      else if c = '-' then (hyphensFrom layout false (found + 1)).run rest
      else some (found, c :: rest) := by
  simp only [run, hyphensFrom, passHyphens]
  split_ifs <;> rfl

theorem steady_hyphensFrom {hanging : Nat → List Char → Prop} (layout comment : Bool)
    (found : Nat) (text : List Char) : (hyphensFrom layout comment found).Steady hanging text := by
  induction text generalizing comment found with
  | nil =>
    cases comment with
    | false =>
      have alone : (hyphensFrom layout false found).run [] = some (found, []) := rfl
      apply Steady.of_keeps alone
      intro after
      rw [List.nil_append, run_hyphensFrom_cons]
      simp [isBlank_closing]
    | true =>
      apply Steady.of_comment rfl
      intro c rest goesOn
      rw [run_hyphensFrom_cons, if_pos rfl, goesOn]
  | cons c rest induction =>
    have step (rest : List Char) := run_hyphensFrom_cons layout comment found c rest
    split_ifs at step
    · exact (induction _ _).congr (step rest) fun _ => step _
    · exact (induction _ _).congr (step rest) fun _ => step _
    · exact (induction _ _).congr (step rest) fun _ => step _
    · exact (induction _ _).congr (step rest) fun _ => step _
    · exact .of_keeps (step rest) fun _ => step _

theorem steady_hyphens {hanging : Nat → List Char → Prop} (mode : Mode) (text : List Char) :
    (hyphens mode).Steady hanging text :=
  steady_hyphensFrom mode.layout false 0 text

theorem steady_classOpening {hanging : ClassLevel → List Char → Prop} (mode : Mode)
    (text : List Char) : (classOpening mode).Steady hanging text := by
  apply (steady_layout _ text).bind
  intro _ rest _
  apply (steady_optional (by decide) rest).bind
  intro negated rest _
  apply (steady_hyphens mode rest).bind
  intro count rest _
  split_ifs
  · exact (steady_optional (by decide) rest).map
  · exact steady_lift _ rest

theorem steady_classMember [Text.Unicode] {hanging : ClassMember → List Char → Prop} (mode : Mode)
    (first : Char) (text : List Char) : (classMember mode first).Steady hanging text := by
  unfold classMember
  split_ifs
  · apply (steady_escape mode text).bind_hanging
    · intro _ rest _
      exact steady_lift _ rest
    · rintro _ kept ⟨⟨anchor, rfl⟩, _⟩ after result rest found
      have noMember := (run_lift_eq_some_iff.mp found).1
      contradiction
  · exact steady_lift _ text

theorem steady_rangeFrom [Text.Unicode] {hanging : CharSet → List Char → Prop} (mode : Mode)
    (low : ClassMember) (text : List Char) : (rangeFrom mode low).Steady hanging text := by
  apply steady_counted
  intro _ rest _
  apply steady_counted
  intro c rest _
  exact (steady_classMember mode c rest).bind fun _ rest _ => steady_lift _ rest

theorem definite_operation (first : Char) (text : List Char) :
    (operation first).Definite text := by
  by_cases closing : first = ')'
  · have fails (text : List Char) : (operation first).run text = none := by
      rw [Option.eq_none_iff_forall_ne_some]
      rintro ⟨value, rest⟩ found
      obtain ⟨twice, middle, _, found⟩ := run_bind_eq_some_iff.mp found
      have isOperation := (run_lift_eq_some_iff.mp found).1
      rw [closing] at isOperation
      cases twice
      · contradiction
      · contradiction
    exact .inr ⟨fails text, fun after => fails _⟩
  · apply (definite_optional closing text).bind
    intro twice rest _
    exact definite_lift _ rest

/-- No class has a parenthesis in its name. -/
theorem classNamed?_eq_none {name : List Char} (closing : ')' ∈ name) :
    classNamed? (String.ofList name) = none := by
  cases found : classNamed? (String.ofList name) with
  | none => rfl
  | some set =>
    unfold classNamed? at found
    split at found
    all_goals first
      | contradiction
      | rename_i named
        have letters := congrArg String.toList named
        rw [String.toList_ofList] at letters
        rw [letters] at closing
        exact absurd closing (by decide)

/-- A name that goes beyond a parenthesis is none. -/
theorem definite_namedClass (text : List Char) : namedClass.Definite text := by
  unfold namedClass
  apply (definite_optional (by decide) text).bind
  intro colon rest _
  split_ifs
  · apply (definite_optional (by decide) rest).bind
    intro negated rest _
    cases alone : (upTo ':' []).run rest with
    | some found =>
      have definite : (upTo ':' []).Definite rest :=
        .inl ⟨found.1, found.2, alone, fun after => run_upTo_append alone _⟩
      apply definite.bind
      intro name rest _
      apply (definite_optional (by decide) rest).bind
      intro closing rest _
      exact definite_lift _ rest
    | none =>
      refine .inr ⟨run_bind_of_none _ alone, ?_⟩
      intro after
      rw [Option.eq_none_iff_forall_ne_some]
      rintro ⟨value, last⟩ found
      obtain ⟨name, middle, named, found⟩ := run_bind_eq_some_iff.mp found
      obtain ⟨closing, middle, _, found⟩ := run_bind_eq_some_iff.mp found
      have isClass := (run_lift_eq_some_iff.mp found).1
      rw [classNamed?_eq_none (mem_of_run_upTo (by decide) alone named)] at isClass
      cases closing
      · contradiction
      · contradiction
  · exact definite_lift _ rest

theorem glance_closing (layout marked : Bool) (text after : List Char) :
    glance layout marked (text ++ ')' :: after) = some ((glance layout marked text).getD ')') := by
  induction text generalizing marked with
  | nil => simp [glance, isBlank_closing]
  | cons c rest induction =>
    rw [List.cons_append, glance, glance]
    split_ifs
    · exact induction _
    · exact induction _
    · rfl

/-- Whether a range follows is told by what counts, even where a hyphen is the last of it. -/
theorem rangeFollows_closing {mode : Mode} {text : List Char}
    (something : skip mode.layout text ≠ []) (after : List Char) :
    rangeFollows mode (text ++ ')' :: after) = rangeFollows mode text := by
  obtain ⟨c, rest, passed⟩ := List.exists_cons_of_ne_nil something
  simp only [rangeFollows, passed, skip_append passed]
  by_cases hyphen : c = '-'
  · subst hyphen
    simp only [glance_closing]
    cases glance mode.layout false rest with
    | none => rfl
    | some c => rfl
  · simp [hyphen]

theorem exists_hyphen_of_rangeFollows {mode : Mode} {text : List Char}
    (follows : rangeFollows mode text = true) :
    ∃ rest, skip mode.layout text = '-' :: rest := by
  unfold rangeFollows at follows
  split at follows
  · exact ⟨_, ‹_›⟩
  · contradiction

variable [Text.Unicode]

/-- The end of a member, or the rest of a range that begins with it. -/
def itemFrom (mode : Mode) (member : ClassMember) : Reader CharSet := fun text =>
  if rangeFollows mode text then rangeFrom mode member text else some (.here member.toSet)

theorem run_itemFrom (mode : Mode) (member : ClassMember) (text : List Char) :
    (itemFrom mode member).run text =
      if rangeFollows mode text then (rangeFrom mode member).run text
      else some (member.toSet, text) := by
  simp only [run, itemFrom]
  split_ifs <;> rfl

/-- A hyphen behind a comment that takes in the parenthesis makes a range beyond it. -/
theorem steady_itemFrom {hanging : CharSet → List Char → Prop} (mode : Mode)
    (member : ClassMember) (text : List Char) : (itemFrom mode member).Steady hanging text := by
  by_cases nothing : skip mode.layout text = []
  · have alone : (itemFrom mode member).run text = some (member.toSet, text) := by
      rw [run_itemFrom, if_neg]
      intro follows
      obtain ⟨rest, passed⟩ := exists_hyphen_of_rangeFollows follows
      rw [nothing] at passed
      contradiction
    have keeps : (itemFrom mode member).Keeps text member.toSet text := by
      refine ⟨alone, ?_⟩
      intro after quiet
      rw [run_itemFrom, if_neg]
      intro follows
      obtain ⟨rest, passed⟩ := exists_hyphen_of_rangeFollows follows
      rcases skip_of_nothing_of_quiet nothing quiet with next | next
      · simp [next] at passed
      · simp [next] at passed
    constructor
    · intro value rest found
      rw [alone] at found
      obtain ⟨rfl, rfl⟩ := Prod.mk.inj (Option.some.inj found)
      exact .inl keeps
    · intro after value rest found
      rw [run_itemFrom] at found
      split_ifs at found with follows
      · obtain ⟨behind, hyphen⟩ := exists_hyphen_of_rangeFollows follows
        rcases skip_of_nothing nothing after with next | beyond
        · simp [next] at hyphen
        · obtain ⟨_, middle, passed, found⟩ := run_counted_eq_some_iff.mp found
          have inside : middle <:+ skip mode.layout (text ++ ')' :: after) :=
            passed ▸ List.suffix_cons _ middle
          exact .inl ((suffix_of_run found).trans (inside.trans beyond))
      · obtain ⟨rfl, rfl⟩ := Prod.mk.inj (Option.some.inj found)
        exact .inr ⟨text, rfl, .inl keeps⟩
  · have same := rangeFollows_closing nothing
    by_cases follows : rangeFollows mode text = true
    · apply (steady_rangeFrom mode member text).congr
      · rw [run_itemFrom, if_pos follows]
      · intro after
        rw [run_itemFrom, same, if_pos follows]
    · apply Steady.of_keeps
      · rw [run_itemFrom, if_neg follows]
      · intro after
        rw [run_itemFrom, same, if_neg follows]

theorem steady_classItem {hanging : CharSet → List Char → Prop} (mode : Mode) (first : Char)
    (text : List Char) : (classItem mode first).Steady hanging text := by
  apply (steady_classMember mode first text).bind
  intro member rest _
  exact steady_itemFrom mode member rest

theorem steady_classPiece {hanging : ClassPiece → List Char → Prop} (mode : Mode)
    (text : List Char) : (classPiece mode).Steady hanging text := by
  apply steady_counted
  intro c rest _
  split_ifs
  · exact steady_lift _ rest
  · apply Steady.tryElse (definite_namedClass rest)
    · intro _ rest _
      exact steady_lift _ rest
    · intro _
      exact (steady_classOpening mode rest).map
  · apply Steady.tryElse (definite_operation c rest)
    · intro _ rest _
      exact steady_lift _ rest
    · intro _
      exact (steady_classItem mode c rest).map

/-- What is read of a class behind a piece of it. -/
def bodyAfter (mode : Mode) (outer : List ClassLevel) (level : ClassLevel) :
    ClassPiece → Reader Written
  | .closing => (lift (level.finish? mode)).bind fun written =>
    match outer with
    | [] => lift (some written)
    | parent :: outer => classBody mode outer (parent.add written)
  | .opening inner => classBody mode (level :: outer) inner
  | .operation operation => classBody mode outer (level.operate mode operation)
  | .member written => classBody mode outer (level.add written)

theorem run_classBody (mode : Mode) (outer : List ClassLevel) (level : ClassLevel)
    (text : List Char) :
    run (classBody mode outer level) text =
      ((classPiece mode).bind (bodyAfter mode outer level)).run text := by
  have widened {α : Type} {rest : List Char} (reader : Reader α) (within : rest <:+ text) :
      ((reader rest).map (·.widen within)).map (fun taken => (taken.value, taken.rest)) =
        reader.run rest := by
    rw [Option.map_map]
    rfl
  rw [run, classBody.eq_def]
  split
  · rename_i missing
    rw [run_bind_of_none _ (by rw [run, missing, Option.map_none])]
    rfl
  · rename_i piece isPiece
    rw [run_bind_of_some _ (by rw [run, isPiece, Option.map_some])]
    dsimp only
    cases piece.value with
    | closing =>
      dsimp only [bodyAfter]
      cases level.finish? mode with
      | none => rfl
      | some written =>
        cases outer with
        | nil => rfl
        | cons parent outer =>
          rw [run_bind_of_some _ (run_lift_eq_some_iff.mpr ⟨rfl, rfl⟩)]
          exact widened (classBody mode outer (parent.add written)) piece.within
    | opening inner => exact widened (classBody mode (level :: outer) inner) piece.within
    | operation operation =>
      exact widened (classBody mode outer (level.operate mode operation)) piece.within
    | member written => exact widened (classBody mode outer (level.add written)) piece.within

theorem steady_classBody {hanging : Written → List Char → Prop} (mode : Mode)
    (outer : List ClassLevel) (level : ClassLevel) (text : List Char) :
    Steady hanging (classBody mode outer level) text := by
  induction length : text.length using Nat.strongRecOn
    generalizing outer level text with
  | _ n induction =>
  subst length
  have steady : ((classPiece mode).bind (bodyAfter mode outer level)).Steady hanging text := by
    apply (steady_classPiece mode text).bind
    intro piece rest isPiece
    have shorter : rest.length < text.length := length_lt_of_run_counted isPiece
    have further (outer : List ClassLevel) (level : ClassLevel) :
        Steady hanging (classBody mode outer level) rest :=
      induction _ shorter outer level rest rfl
    cases piece with
    | closing =>
      rw [bodyAfter]
      apply (steady_lift _ rest).bind
      intro written rest' isWritten
      rw [(run_lift_eq_some_iff.mp isWritten).2]
      cases outer with
      | nil => exact steady_lift _ rest
      | cons parent outer => exact further _ _
    | opening inner => exact further _ _
    | operation operation => exact further _ _
    | member written => exact further _ _
  apply steady.congr (run_classBody mode outer level text)
  intro after
  exact run_classBody mode outer level _

end GrammarArtifact.Pattern
