import GrammarArtifact.Proofs.Document.Reading

/-!
# Passing over values, step by step

Passing keeps the brackets that are open around the place it has come to. It stands either
before a value or behind one. `Step` lists its steps, one constructor for each; passing is
done when it stands behind a value and no bracket is open.
-/

namespace GrammarArtifact.Document.Reader

variable {text rest whole : List Char} {brackets outer : List Bracket}

/-- A key that is passed over is a string and a colon. -/
theorem yields_passKey :
    Yields (passKey text) () rest ↔
      ∃ front after, skipSpace text = '"' :: front ∧ passString front = .ok after ∧
        skipSpace after = ':' :: rest := by
  unfold passKey
  rw [yields_afterSpace]
  generalize skipSpace text = front
  split
  next => simp
  next front =>
    split
    next passed => simp [passed]
    next after passed =>
      simp only [List.cons.injEq, true_and, exists_eq_left', exists_and_left, passed,
        Except.ok.injEq, ← yields_colon]
      cases colon after with
      | error => simp
      | ok read => simp [Read.widen]
  next _ other => simpa using fun front found _ _ => (other front found).elim

/-- The values that hold no other: words, strings and numbers. -/
theorem yields_passScalar {c : Char} :
    Yields (passScalar (c :: text)) () rest ↔
      (c = 'n' ∧ text = 'u' :: 'l' :: 'l' :: rest) ∨ (c = 't' ∧ text = 'r' :: 'u' :: 'e' :: rest) ∨
        (c = 'f' ∧ text = 'a' :: 'l' :: 's' :: 'e' :: rest) ∨
        (c = '"' ∧ passString text = .ok rest) ∨ (c = '-' ∧ passNumber text = .ok rest) ∨
        (isDigit c = true ∧ passNumber (c :: text) = .ok rest) := by
  simp only [passScalar]
  split
  next null => subst null; simp [yields_word, isDigit]
  split
  next true => subst true; simp [yields_word, isDigit]
  split
  next false => subst false; simp [yields_word, isDigit]
  split
  next quote =>
    subst quote
    split <;> simp [*, isDigit]
  split
  next minus =>
    subst minus
    split <;> simp [*, isDigit]
  split
  next digit => split <;> simp [*]
  next digit => simp [*]

/-- Where passing stands: before a value or behind one, inside some open brackets. -/
inductive Stage
  | value (brackets : List Bracket)
  | after (brackets : List Bracket)

/-- What passing can do next, and the text that it then goes on with. -/
inductive Step : Stage → List Char → Stage → List Char → Prop
  | emptyList {brackets : List Bracket} {text after behind : List Char}
      (opens : skipSpace text = '[' :: after) (closes : skipSpace after = ']' :: behind) :
      Step (.value brackets) text (.after brackets) behind
  | list {brackets : List Bracket} {text after tail : List Char} {c : Char}
      (opens : skipSpace text = '[' :: after) (found : skipSpace after = c :: tail)
      (other : c ≠ ']') : Step (.value brackets) text (.value (.list :: brackets)) after
  | emptyObject {brackets : List Bracket} {text after behind : List Char}
      (opens : skipSpace text = '\x7b' :: after) (closes : skipSpace after = '\x7d' :: behind) :
      Step (.value brackets) text (.after brackets) behind
  | object {brackets : List Bracket} {text after behind : List Char}
      (opens : skipSpace text = '\x7b' :: after) (key : Yields (passKey after) () behind) :
      Step (.value brackets) text (.value (.object :: brackets)) behind
  | scalar {brackets : List Bracket} {text tail behind : List Char} {c : Char}
      (found : skipSpace text = c :: tail) (noList : c ≠ '[') (noObject : c ≠ '\x7b')
      (read : Yields (passScalar (c :: tail)) () behind) :
      Step (.value brackets) text (.after brackets) behind
  | nextItem {outer : List Bracket} {text after : List Char}
      (comma : skipSpace text = ',' :: after) :
      Step (.after (.list :: outer)) text (.value (.list :: outer)) after
  | nextMember {outer : List Bracket} {text after behind : List Char}
      (comma : skipSpace text = ',' :: after) (key : Yields (passKey after) () behind) :
      Step (.after (.object :: outer)) text (.value (.object :: outer)) behind
  | closeList {outer : List Bracket} {text after : List Char}
      (closes : skipSpace text = ']' :: after) :
      Step (.after (.list :: outer)) text (.after outer) after
  | closeObject {outer : List Bracket} {text after : List Char}
      (closes : skipSpace text = '\x7d' :: after) :
      Step (.after (.object :: outer)) text (.after outer) after

/-- Every step takes something from the text. -/
theorem Step.shorter {stage next : Stage} {behind : List Char}
    (step : Step stage text next behind) : behind.length < text.length := by
  cases step with
  | emptyList opens closes =>
    exact Nat.lt_trans (length_lt_of_skipSpace closes) (length_lt_of_skipSpace opens)
  | list opens => exact length_lt_of_skipSpace opens
  | emptyObject opens closes =>
    exact Nat.lt_trans (length_lt_of_skipSpace closes) (length_lt_of_skipSpace opens)
  | object opens key => exact Nat.lt_trans key.shorter (length_lt_of_skipSpace opens)
  | scalar found _ _ read =>
    exact Nat.lt_of_lt_of_le read.shorter (found ▸ length_skipSpace_le text)
  | nextItem comma => exact length_lt_of_skipSpace comma
  | nextMember comma key => exact Nat.lt_trans key.shorter (length_lt_of_skipSpace comma)
  | closeList closes => exact length_lt_of_skipSpace closes
  | closeObject closes => exact length_lt_of_skipSpace closes

/-- Passing goes from a stage to the end of the value that it began with. -/
def Passes (whole : List Char) : Stage → List Char → List Char → Prop
  | .value brackets, text, rest => ∃ within, Yields (passValue whole brackets text within) () rest
  | .after brackets, text, rest => ∃ shorter, Yields (passAfter whole brackets text shorter) () rest

/-- Passing is done behind a value with no bracket open. -/
theorem passes_done_iff :
    Passes whole (.after []) text rest ↔ text.length < whole.length ∧ text = rest := by
  simp [Passes, passAfter]

/-- Passing over a value takes a step and goes on from there. -/
theorem exists_step_of_passValue {within : text.length ≤ whole.length}
    (yields : Yields (passValue whole brackets text within) () rest) :
    ∃ next behind, Step (.value brackets) text next behind ∧ Passes whole next behind rest := by
  unfold passValue at yields
  split at yields
  next after opens =>
    split at yields
    · simp at yields
    next behind closed found =>
      exact ⟨_, _, .emptyList opens (nextItem_eq_close_iff.mp ⟨_, found⟩), _, yields⟩
    next front bound found =>
      obtain ⟨rfl, c, tail, start, other⟩ := nextItem_eq_item_iff.mp ⟨_, found⟩
      rw [skipSpace_skipSpace] at start
      exact ⟨_, _, .list opens start other, _, yields⟩
  next after opens =>
    split at yields
    next behind closes => exact ⟨_, _, .emptyObject opens closes, _, yields⟩
    next =>
      split at yields
      · simp at yields
      next key done => exact ⟨_, _, .object opens (yields_of_eq_ok done), _, yields⟩
  next noList noObject =>
    split at yields
    · simp at yields
    next read done =>
      have scalar : Yields (passScalar (skipSpace text)) () read.rest := yields_of_eq_ok done
      obtain ⟨c, tail, found⟩ := List.exists_cons_of_ne_nil scalar.ne_nil
      exact ⟨_, _, .scalar found (fun same => noList tail (same ▸ found))
        (fun same => noObject tail (same ▸ found)) (found ▸ scalar), _, yields⟩

/-- Every step before a value is one that passing takes. -/
theorem passValue_of_step {next : Stage} {behind : List Char}
    (step : Step (.value brackets) text next behind) (passes : Passes whole next behind rest)
    (within : text.length ≤ whole.length) :
    Yields (passValue whole brackets text within) () rest := by
  unfold passValue
  cases step with
  | @emptyList _ _ after _ opens closes =>
    obtain ⟨_, found⟩ : ∃ shorter, nextItem true after = .ok (.close behind shorter) :=
      nextItem_eq_close_iff.mpr closes
    split
    next same =>
      cases opens.symm.trans same
      split
      next failed => simp [found] at failed
      next again =>
        cases found.symm.trans again
        exact passes.2
      next again => simp [found] at again
    next same => simp [opens] at same
    next other _ => exact absurd opens (other _)
  | @list _ _ after tail c opens start other =>
    obtain ⟨_, found⟩ : ∃ within, nextItem true behind = .ok (.item (c :: tail) within) :=
      nextItem_eq_item_iff.mpr ⟨start, c, tail, by rw [← start, skipSpace_skipSpace], other⟩
    split
    next same =>
      cases opens.symm.trans same
      split
      next failed => simp [found] at failed
      next again => simp [found] at again
      next again => exact passes.2
    next same => simp [opens] at same
    next other _ => exact absurd opens (other _)
  | emptyObject opens closes =>
    split
    next same => simp [opens] at same
    next same =>
      cases opens.symm.trans same
      split
      next again =>
        cases closes.symm.trans again
        exact passes.2
      next other => exact absurd closes (other _)
    next _ other => exact absurd opens (other _)
  | object opens key =>
    obtain ⟨_, done⟩ := key
    obtain ⟨_, _, quote, -, -⟩ := yields_passKey.mp ⟨_, done⟩
    split
    next same => simp [opens] at same
    next same =>
      cases opens.symm.trans same
      split
      next closes => simp [quote] at closes
      next =>
        split
        next failed => simp [done] at failed
        next again =>
          cases done.symm.trans again
          exact passes.2
    next _ other => exact absurd opens (other _)
  | scalar found noList noObject read =>
    split
    next opens => exact absurd (List.cons.inj (found.symm.trans opens)).1 noList
    next opens => exact absurd (List.cons.inj (found.symm.trans opens)).1 noObject
    next =>
      rw [← found] at read
      obtain ⟨_, done⟩ := read
      split
      next failed => simp [done] at failed
      next again =>
        cases done.symm.trans again
        exact passes.2

/-- Before a value, passing takes a step and goes on. -/
theorem passes_value_iff :
    Passes whole (.value brackets) text rest ↔ text.length ≤ whole.length ∧
      ∃ next behind, Step (.value brackets) text next behind ∧ Passes whole next behind rest := by
  constructor
  · rintro ⟨within, yields⟩
    exact ⟨within, exists_step_of_passValue yields⟩
  · rintro ⟨within, next, behind, step, passes⟩
    exact ⟨within, passValue_of_step step passes within⟩

/-- Passing on inside a bracket takes a step and goes on from there. -/
theorem exists_step_of_passAfter {bracket : Bracket} {shorter : text.length < whole.length}
    (yields : Yields (passAfter whole (bracket :: outer) text shorter) () rest) :
    ∃ next behind, Step (.after (bracket :: outer)) text next behind ∧
      Passes whole next behind rest := by
  unfold passAfter at yields
  split at yields
  · simp at yields
  next c after found =>
    split at yields
    next comma =>
      subst comma
      split at yields
      next => exact ⟨_, _, .nextItem found, _, yields⟩
      next =>
        split at yields
        · simp at yields
        next key done => exact ⟨_, _, .nextMember found (yields_of_eq_ok done), _, yields⟩
    next =>
      split at yields
      next closes =>
        obtain ⟨rfl, rfl⟩ := closes
        exact ⟨_, _, .closeList found, _, yields⟩
      next =>
        split at yields
        next closes =>
          obtain ⟨rfl, rfl⟩ := closes
          exact ⟨_, _, .closeObject found, _, yields⟩
        next => simp at yields

/-- Every step behind a value is one that passing takes. -/
theorem passAfter_of_step {bracket : Bracket} {next : Stage} {behind : List Char}
    (step : Step (.after (bracket :: outer)) text next behind)
    (passes : Passes whole next behind rest) (shorter : text.length < whole.length) :
    Yields (passAfter whole (bracket :: outer) text shorter) () rest := by
  unfold passAfter
  cases step with
  | nextItem comma =>
    split
    next ends => simp [comma] at ends
    next same =>
      cases comma.symm.trans same
      simpa using passes.2
  | nextMember comma key =>
    obtain ⟨_, done⟩ := key
    split
    next ends => simp [comma] at ends
    next same =>
      cases comma.symm.trans same
      simp only [if_true]
      split
      next failed => simp [done] at failed
      next again =>
        cases done.symm.trans again
        exact passes.2
  | closeList closes =>
    split
    next ends => simp [closes] at ends
    next same =>
      cases closes.symm.trans same
      simpa using passes.2
  | closeObject closes =>
    split
    next ends => simp [closes] at ends
    next same =>
      cases closes.symm.trans same
      simpa using passes.2

/-- Behind a value inside a bracket, passing takes a step and goes on. -/
theorem passes_after_iff {bracket : Bracket} :
    Passes whole (.after (bracket :: outer)) text rest ↔ text.length < whole.length ∧
      ∃ next behind, Step (.after (bracket :: outer)) text next behind ∧
        Passes whole next behind rest := by
  constructor
  · rintro ⟨shorter, yields⟩
    exact ⟨shorter, exists_step_of_passAfter yields⟩
  · rintro ⟨shorter, next, behind, step, passes⟩
    exact ⟨shorter, passAfter_of_step step passes shorter⟩

end GrammarArtifact.Document.Reader
