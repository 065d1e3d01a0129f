import GrammarArtifact.Proofs.Pattern.Contexts
import GrammarArtifact.Proofs.Pattern.SteadyLexemes

/-!
# Rows of tokens within further groups

Within further groups a text has the same tokens as by itself. A parenthesis behind the text
closes the innermost of these groups, unless a comment at the end of the text takes it in.
Where a row of tokens closes that group, there is a parenthesis in the text that closes nothing
in what stands in front of it.
-/

namespace GrammarArtifact.Pattern

open Reader

/-- Neither blanks nor comments begin with the character. -/
theorem skip_cons {c : Char} (noBlank : Text.isBlank c = false) (noMark : c ≠ '#')
    (counts : Bool) (rest : List Char) : skip counts (c :: rest) = c :: rest := by
  cases counts with
  | false => rfl
  | true => simp [skip, passLayout, noBlank, noMark]

theorem skip_closing (counts : Bool) (after : List Char) :
    skip counts (')' :: after) = ')' :: after :=
  skip_cons isBlank_closing (by decide) counts after

variable [Text.Unicode] {context behind last : Context} {text rest after : List Char} {lex : Lexeme}
  {token : Token} {tokens more : List Token}

/-! ## Rows of tokens -/

/-- Tokens are read one by one, up to where nothing counts. -/
theorem tokens?_eq (context : Context) (text : List Char) :
    tokens? context text =
      if skip context.mode.layout text = [] then some []
      else ((lexeme context).run text).bind fun part =>
        (context.after? part.1).bind fun step => (tokens? step.2 part.2).map (step.1 :: ·) := by
  rw [tokens?]
  by_cases nothing : skip context.mode.layout text = []
  · rw [nothing, List.isEmpty_nil, if_pos rfl, if_pos rfl]
  · rw [List.isEmpty_eq_false_iff.mpr nothing, if_neg Bool.false_ne_true, if_neg nothing]
    split
    · rename_i missing
      have missing : (lexeme context).run text = none := by rw [run, missing, Option.map_none]
      rw [missing, Option.bind_none]
    · rename_i taken isTaken
      have found : (lexeme context).run text = some (taken.value, taken.rest) := by
        rw [run, isTaken, Option.map_some]
      rw [found, Option.bind_some]
      dsimp only
      cases context.after? taken.value with
      | none => rfl
      | some step => rfl

theorem tokens?_of_nothing (nothing : skip context.mode.layout text = []) :
    tokens? context text = some [] := by
  rw [tokens?_eq, if_pos nothing]

theorem tokens?_nil (context : Context) : tokens? context [] = some [] := by
  apply tokens?_of_nothing
  cases context.mode.layout with
  | false => rfl
  | true => rfl

/-- Where there is a lexeme, something counts. -/
theorem skip_ne_nil_of_run_lexeme (found : (lexeme context).run text = some (lex, rest)) :
    skip context.mode.layout text ≠ [] := by
  obtain ⟨c, middle, passed, _⟩ := run_counted_eq_some_iff.mp found
  rw [passed]
  exact List.cons_ne_nil c middle

theorem tokens?_of_run_lexeme (found : (lexeme context).run text = some (lex, rest)) :
    tokens? context text =
      (context.after? lex).bind fun step => (tokens? step.2 rest).map (step.1 :: ·) := by
  rw [tokens?_eq, if_neg (skip_ne_nil_of_run_lexeme found), found, Option.bind_some]

theorem tokens?_congr {other : List Char}
    (same : skip context.mode.layout text = skip context.mode.layout other) :
    tokens? context text = tokens? context other := by
  have sameLexeme : (lexeme context).run text = (lexeme context).run other := by
    apply Option.ext
    rintro ⟨lex, rest⟩
    simp only [lexeme, run_counted_eq_some_iff, same]
  rw [tokens?_eq, tokens?_eq context other, same, sameLexeme]

/-- The tokens of a text from one context to another. -/
inductive Row : Context → List Char → List Token → Context → Prop
  | nothing {context : Context} {text : List Char}
      (nothing : skip context.mode.layout text = []) : Row context text [] context
  | token {context behind last : Context} {text rest : List Char} {lex : Lexeme}
      {token : Token} {tokens : List Token}
      (read : (lexeme context).run text = some (lex, rest))
      (step : context.after? lex = some (token, behind))
      (further : Row behind rest tokens last) : Row context text (token :: tokens) last

theorem Row.tokens?_eq (row : Row context text tokens last) :
    tokens? context text = some tokens := by
  induction row with
  | nothing nothing => exact tokens?_of_nothing nothing
  | token read step _ further =>
    rw [tokens?_of_run_lexeme read, step, Option.bind_some, further, Option.map_some]

theorem exists_row {context : Context} {text : List Char} {tokens : List Token}
    (found : tokens? context text = some tokens) : ∃ last, Row context text tokens last := by
  induction tokens generalizing context text with
  | nil =>
    rw [tokens?_eq] at found
    split_ifs at found with nothing
    · exact ⟨context, .nothing nothing⟩
    · obtain ⟨_, _, found⟩ := Option.bind_eq_some_iff.mp found
      obtain ⟨_, _, found⟩ := Option.bind_eq_some_iff.mp found
      obtain ⟨_, _, same⟩ := Option.map_eq_some_iff.mp found
      contradiction
  | cons token tokens induction =>
    rw [tokens?_eq] at found
    split_ifs at found with nothing
    · exact absurd (Option.some.inj found) (List.cons_ne_nil token tokens).symm
    · obtain ⟨⟨lex, rest⟩, read, found⟩ := Option.bind_eq_some_iff.mp found
      obtain ⟨⟨token, behind⟩, step, found⟩ := Option.bind_eq_some_iff.mp found
      obtain ⟨tokens, further, same⟩ := Option.map_eq_some_iff.mp found
      obtain ⟨rfl, rfl⟩ := List.cons.inj same
      obtain ⟨last, row⟩ := induction further
      exact ⟨last, .token read step row⟩

/-- The groups that are open behind a row of tokens are those of its last context. -/
theorem Row.depthBehind?_eq (row : Row context text tokens last) :
    depthBehind? context.outer.length tokens = some last.outer.length := by
  induction row with
  | nothing _ => rfl
  | token read step _ further =>
    have proper := yields_lexeme _ _ _ _ read
    rw [depthBehind?, depthBehind?_of_after? proper step, Option.bind_some, further]

/-! ## Rows in front of a parenthesis -/

theorem run_lexeme_closing (context : Context) (after : List Char) :
    (lexeme context).run (')' :: after) = some (.closing, after) :=
  run_counted_of_skip _ (skip_closing _ after)

/-- A parenthesis closes nothing outside of all groups. -/
theorem tokens?_closing_of_outermost (outermost : context.outer = []) (after : List Char) :
    tokens? context (')' :: after) = none := by
  rw [tokens?_of_run_lexeme (run_lexeme_closing context after), Context.after?, outermost,
    Option.bind_none]

/-- In front of a parenthesis the same tokens are read within further groups, and the
parenthesis is the next token, unless it is taken in by a comment. -/
theorem Row.before_closing (row : Row context text tokens last) :
    (∀ modes after, '\n' ∉ after →
      tokens? (context.within modes) (text ++ ')' :: after) =
        (tokens? (last.within modes) (')' :: after)).map (tokens ++ ·)) ∨
    ∀ modes after, '\n' ∉ after →
      tokens? (context.within modes) (text ++ ')' :: after) = some tokens := by
  induction row with
  | @nothing context text nothing =>
    have steady : (layout context.mode.layout).Steady never text := steady_layout _ text
    rcases steady.alone () [] (run_layout_eq_some_iff.mpr nothing) with
      ⟨_, keeps⟩ | ⟨_, takenIn⟩
    · left
      intro modes after quiet
      have same : skip (context.within modes).mode.layout (text ++ ')' :: after) =
          skip (context.within modes).mode.layout (')' :: after) :=
        (run_layout_eq_some_iff.mp (keeps after quiet)).trans (skip_closing _ after).symm
      rw [tokens?_congr same]
      exact Option.map_id'.symm
    · right
      intro modes after quiet
      exact tokens?_of_nothing (run_layout_eq_some_iff.mp (takenIn after quiet))
  | @token context behind last text rest lex token tokens read step further induction =>
    rcases (steady_lexeme context text).alone lex rest read with ⟨_, keeps⟩ | ⟨rfl, takenIn⟩
    · have reads (modes after : List _) (quiet : '\n' ∉ after) :
          tokens? (context.within modes) (text ++ ')' :: after) =
            (tokens? (behind.within modes) (rest ++ ')' :: after)).map (token :: ·) := by
        have reads : (lexeme (context.within modes)).run (text ++ ')' :: after) =
            some (lex, rest ++ ')' :: after) := keeps after quiet
        rw [tokens?_of_run_lexeme reads, after?_within step, Option.bind_some]
      rcases induction with before | takenIn
      · left
        intro modes after quiet
        rw [reads modes after quiet, before modes after quiet, Option.map_map]
        rfl
      · right
        intro modes after quiet
        rw [reads modes after quiet, takenIn modes after quiet, Option.map_some]
    · right
      intro modes after quiet
      obtain rfl := Option.some.inj ((tokens?_nil behind).symm.trans further.tokens?_eq)
      have reads : (lexeme (context.within modes)).run (text ++ ')' :: after) =
          some (lex, []) := takenIn after quiet
      rw [tokens?_of_run_lexeme reads, after?_within step, Option.bind_some, tokens?_nil,
        Option.map_some]

/-! ## Rows that close a further group -/

omit [Text.Unicode] in
/-- There is no count where nothing counts. -/
theorem run_countedRepetition_eq_none {mode : Mode} (nothing : skip mode.layout text = []) :
    (countedRepetition mode).run text = none := by
  have passed : (layout mode.layout).run text = some ((), []) :=
    run_layout_eq_some_iff.mpr nothing
  have noCount : (count mode).run [] = none := rfl
  rw [countedRepetition, run_bind_of_some _ passed, run_bind_of_none _ noCount]

/-- A brace that hangs begins nothing. -/
theorem tokens?_of_braceHangs (hangs : BraceHangs context.mode text) :
    tokens? context text = none := by
  obtain ⟨rest, rfl, nothing⟩ := hangs
  have passed : skip context.mode.layout ('\x7b' :: rest) = '\x7b' :: rest :=
    skip_cons (by decide) (by decide) _ rest
  have noCount : (plainToken context.mode '\x7b').run rest = none :=
    run_countedRepetition_eq_none nothing
  have fails : (lexeme context).run ('\x7b' :: rest) = none := by
    rw [lexeme, run_counted_of_skip _ passed, if_neg (by decide), if_neg (by decide)]
    exact run_bind_of_none _ noCount
  rw [tokens?_eq, passed, if_neg (List.cons_ne_nil _ _), fails, Option.bind_none]

omit [Text.Unicode] in
theorem eq_closing_of_after? (proper : lex.IsProper)
    (step : context.after? lex = some (.closing, behind)) : lex = .closing := by
  cases lex with
  | opening head =>
    cases head with
    | plain | named | flagged | directive => simp [Context.after?] at step
  | closing => rfl
  | token plain =>
    obtain ⟨rfl, _⟩ := Prod.mk.inj (Option.some.inj step)
    exact absurd (proper 0) (by decide)

theorem skip_of_run_closing (read : (lexeme context).run text = some (.closing, rest)) :
    skip context.mode.layout text = ')' :: rest := by
  obtain ⟨c, middle, passed, read⟩ := run_counted_eq_some_iff.mp read
  split_ifs at read with opens closes
  · obtain ⟨_, _, _, isClosing⟩ := run_bind_eq_some_iff.mp read
    exact absurd (run_lift_eq_some_iff.mp isClosing).1 (by simp)
  · obtain ⟨_, rfl⟩ := run_lift_eq_some_iff.mp read
    exact closes ▸ passed
  · obtain ⟨_, _, _, isClosing⟩ := run_bind_eq_some_iff.mp read
    exact absurd (run_lift_eq_some_iff.mp isClosing).1 (by simp)

/-- Within further groups, a row that closes the innermost of them has a parenthesis behind
what is read alone. That parenthesis makes it unreadable. -/
theorem exists_closing_text {modes : List Mode} {inside : List Token}
    (row : Row (context.within modes) text (inside ++ .closing :: more) last)
    (closed : depthBehind? context.outer.length inside = some 0) :
    ∃ before after, text = before ++ ')' :: after ∧ tokens? context before = some inside ∧
      tokens? context (before ++ [')']) = none := by
  induction inside generalizing context text with
  | nil =>
    have outermost : context.outer = [] := List.length_eq_zero_iff.mp (Option.some.inj closed)
    cases row with
    | token read step further =>
      obtain rfl := eq_closing_of_after? (yields_lexeme _ _ _ _ read) step
      obtain ⟨before, rfl, nothing, counts⟩ := exists_passed (skip_of_run_closing read)
      have same : skip context.mode.layout (before ++ [')']) = skip context.mode.layout [')'] :=
        (counts []).trans (skip_closing _ []).symm
      refine ⟨before, _, rfl, tokens?_of_nothing nothing, ?_⟩
      rw [tokens?_congr same]
      exact tokens?_closing_of_outermost outermost []
  | cons token inside induction =>
    cases row with
    | @token _ _ _ _ rest lex _ _ read step further =>
      have proper : lex.IsProper := yields_lexeme _ _ _ _ read
      have inContext : token.depthBehind? context.outer.length ≠ none := by
        intro missing
        rw [depthBehind?, missing] at closed
        contradiction
      obtain ⟨inner, stepAlone, rfl⟩ := exists_after?_of_within step inContext
      rw [depthBehind?, depthBehind?_of_after? proper stepAlone, Option.bind_some] at closed
      obtain ⟨before, after, rfl, reads, fails⟩ := induction further closed
      obtain ⟨part, rfl⟩ := suffix_of_run read
      refine ⟨part ++ before, after, (List.append_assoc _ _ _).symm, ?_⟩
      have read : (lexeme context).run ((part ++ before) ++ ')' :: after) =
          some (lex, before ++ ')' :: after) := by
        rw [List.append_assoc]
        exact read
      rcases (steady_lexeme context (part ++ before)).before after lex _ read with
        beyond | ⟨kept, same, ⟨alone, keeps⟩ | ⟨⟨plain, rfl⟩, hangs⟩⟩
      -- The parenthesis is still there behind the lexeme, which so has not gone beyond it.
      · have shorter := beyond.length_le
        simp only [List.length_append, List.length_cons] at shorter
        omega
      · obtain rfl := List.append_cancel_right same
        have front := keeps [] List.not_mem_nil
        rw [tokens?_of_run_lexeme alone, tokens?_of_run_lexeme front, stepAlone]
        simp only [Option.bind_some, reads, fails]
        exact ⟨rfl, rfl⟩
      -- An anchor with a brace behind it, where no row goes on.
      · obtain rfl := List.append_cancel_right same
        obtain ⟨rfl, rfl⟩ := Prod.mk.inj (Option.some.inj stepAlone)
        rw [tokens?_of_braceHangs hangs] at reads
        contradiction

end GrammarArtifact.Pattern
