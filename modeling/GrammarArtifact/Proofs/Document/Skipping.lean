import GrammarArtifact.Proofs.Document.Layout
import GrammarArtifact.Proofs.Document.Passing

/-!
# What is passed over

Passing over a value takes a text exactly when it begins with a tree, of any form, depth and
size. `Finishes` says what the open brackets still demand of the text: the rest of the
innermost list or object, then that of the one around it, and so on. A step of passing makes
a demand from the one that it leaves, and every demand that is not met yet allows a step.
-/

namespace GrammarArtifact.Document.Reader

open GrammarArtifact.Document.Tree (tokensOf tokensIn)

variable {text rest : List Char} {brackets : List Bracket}

/-- A text goes on with the rest of what is in the open brackets, up to the end of the
outermost of them. -/
def Finishes : List Bracket → List Char → List Char → Prop
  | [], text, rest => text = rest
  | .list :: outer, text, rest =>
    ∃ items middle, Opens (tokensOf false items ++ [[']']]) text middle ∧ Finishes outer middle rest
  | .object :: outer, text, rest =>
    ∃ members middle,
      Opens (tokensIn false members ++ [['\x7d']]) text middle ∧ Finishes outer middle rest

/-- Before a value a text goes on with a tree first. -/
def Demands : Stage → List Char → List Char → Prop
  | .value brackets, text, rest =>
    ∃ tree middle, Opens (Tree.tokens tree) text middle ∧ Finishes brackets middle rest
  | .after brackets, text, rest => Finishes brackets text rest

/-- What follows a value inside some brackets ends it. -/
theorem Finishes.ends (finishes : Finishes brackets text rest) (ends : Ends rest) : Ends text := by
  match brackets, finishes with
  | [], rfl => exact ends
  | .list :: _, ⟨_, _, opens, _⟩ => exact Tree.ends_of_opens_tokensOf opens
  | .object :: _, ⟨_, _, opens, _⟩ => exact Tree.ends_of_opens_tokensIn opens

/-- A key that is passed over is a well-formed string in front of a colon. -/
theorem yields_passKey_iff :
    Yields (passKey text) () rest ↔
      ∃ (key : Quoted) (after : List Char),
        skipSpace text = '"' :: (key.inside ++ '"' :: after) ∧ skipSpace after = ':' :: rest := by
  rw [yields_passKey]
  constructor
  · rintro ⟨front, after, quote, passed, colon⟩
    obtain ⟨inside, quotable, rfl⟩ := passString_eq_ok_iff.mp passed
    exact ⟨⟨inside, quotable⟩, after, quote, colon⟩
  · rintro ⟨⟨inside, quotable⟩, after, quote, colon⟩
    exact ⟨_, after, quote, passString_eq_ok_iff.mpr ⟨inside, quotable, rfl⟩, colon⟩

/-- A scalar that is passed over is a tree. -/
theorem exists_tree_of_passScalar {c : Char} {tail : List Char} (found : skipSpace text = c :: tail)
    (yields : Yields (passScalar (c :: tail)) () rest) :
    ∃ tree : Tree, Opens tree.tokens text rest := by
  rcases yields_passScalar.mp yields with ⟨rfl, rfl⟩ | ⟨rfl, rfl⟩ | ⟨rfl, rfl⟩ | ⟨rfl, passed⟩ |
    ⟨rfl, passed⟩ | ⟨digit, passed⟩
  · exact ⟨.null, opens_singleton.mpr found⟩
  · exact ⟨.flag true, opens_singleton.mpr found⟩
  · exact ⟨.flag false, opens_singleton.mpr found⟩
  · obtain ⟨inside, quotable, rfl⟩ := passString_eq_ok_iff.mp passed
    exact ⟨.string ⟨inside, quotable⟩, opens_singleton.mpr (by simp [found, Quoted.token])⟩
  · obtain ⟨magnitude, isMagnitude, rfl⟩ := exists_magnitude_of_passNumber passed
    exact ⟨.number ⟨true, magnitude, isMagnitude⟩, opens_singleton.mpr found⟩
  · obtain ⟨magnitude, isMagnitude, same⟩ := exists_magnitude_of_passNumber passed
    exact ⟨.number ⟨false, magnitude, isMagnitude⟩, opens_singleton.mpr (found.trans same)⟩

/-- A step goes from a demand to what it leaves of it. -/
theorem Demands.of_step {stage next : Stage} {behind : List Char}
    (step : Step stage text next behind) (demands : Demands next behind rest) :
    Demands stage text rest := by
  cases step with
  | emptyList opens closes =>
    exact ⟨.list [], _, ⟨_, opens, opens_singleton.mpr closes⟩, demands⟩
  | list opens =>
    obtain ⟨item, middle, first, items, last, later, finishes⟩ := demands
    refine ⟨.list (item :: items), last, ⟨_, opens, ?_⟩, finishes⟩
    exact Tree.opens_tokensOf_cons.mpr
      ⟨_, middle, rfl, (opens_skipSpace item.tokens_ne_nil).mpr first, later⟩
  | emptyObject opens closes =>
    exact ⟨.object [], _, ⟨_, opens, opens_singleton.mpr closes⟩, demands⟩
  | object opens key =>
    obtain ⟨key, after, quote, colon⟩ := yields_passKey_iff.mp key
    obtain ⟨value, middle, first, members, last, later, finishes⟩ := demands
    refine ⟨.object ((key, value) :: members), last, ⟨_, opens, ?_⟩, finishes⟩
    exact Tree.opens_tokensIn_cons.mpr
      ⟨_, after, middle, rfl, by rwa [skipSpace_skipSpace], ⟨_, colon, first⟩, later⟩
  | scalar found _ _ read =>
    obtain ⟨tree, opens⟩ := exists_tree_of_passScalar found read
    exact ⟨tree, _, opens, demands⟩
  | nextItem comma =>
    obtain ⟨item, middle, first, items, last, later, finishes⟩ := demands
    exact ⟨item :: items, last,
      Tree.opens_tokensOf_cons.mpr ⟨_, middle, comma, first, later⟩, finishes⟩
  | nextMember comma key =>
    obtain ⟨key, after, quote, colon⟩ := yields_passKey_iff.mp key
    obtain ⟨value, middle, first, members, last, later, finishes⟩ := demands
    exact ⟨(key, value) :: members, last,
      Tree.opens_tokensIn_cons.mpr ⟨_, after, middle, comma, quote, ⟨_, colon, first⟩, later⟩,
      finishes⟩
  | closeList closes => exact ⟨[], _, opens_singleton.mpr closes, demands⟩
  | closeObject closes => exact ⟨[], _, opens_singleton.mpr closes, demands⟩

/-- A scalar is passed over in one step. -/
theorem step_of_scalar {c : Char} {tail behind : List Char} (found : skipSpace text = c :: tail)
    (scalar : c ≠ '[' ∧ c ≠ '\x7b') (read : Yields (passScalar (c :: tail)) () behind) :
    Step (.value brackets) text (.after brackets) behind :=
  .scalar found scalar.1 scalar.2 read

/-- Before a tree there is a step. -/
theorem Demands.exists_step_value (demands : Demands (.value brackets) text rest)
    (ends : Ends rest) :
    ∃ next behind, Step (.value brackets) text next behind ∧ Demands next behind rest := by
  obtain ⟨tree, middle, opens, finishes⟩ := demands
  have ends := finishes.ends ends
  match tree, opens with
  | .null, opens =>
    have found := opens_singleton.mp opens
    exact ⟨_, middle, step_of_scalar found (by decide) (yields_passScalar.mpr (by simp)), finishes⟩
  | .flag true, opens =>
    have found := opens_singleton.mp opens
    exact ⟨_, middle, step_of_scalar found (by decide) (yields_passScalar.mpr (by simp)), finishes⟩
  | .flag false, opens =>
    have found := opens_singleton.mp opens
    exact ⟨_, middle, step_of_scalar found (by decide) (yields_passScalar.mpr (by simp)), finishes⟩
  | .string ⟨inside, quotable⟩, opens =>
    have found := opens_singleton.mp opens
    have passed : passString (inside ++ '"' :: middle) = .ok middle :=
      passString_eq_ok_iff.mpr ⟨inside, quotable, rfl⟩
    exact ⟨_, middle, step_of_scalar found (by decide) (yields_passScalar.mpr (by simp [passed])),
      finishes⟩
  | .number ⟨true, magnitude, isMagnitude⟩, opens =>
    have found := opens_singleton.mp opens
    have passed := passNumber_of_magnitude isMagnitude ends
    exact ⟨_, middle, step_of_scalar found (by decide) (yields_passScalar.mpr (by simp [passed])),
      finishes⟩
  | .number ⟨false, magnitude, isMagnitude⟩, opens =>
    have found := opens_singleton.mp opens
    have passed := passNumber_of_magnitude isMagnitude ends
    obtain ⟨c, tail, rfl, digit⟩ := isMagnitude.exists_digit
    exact ⟨_, middle, step_of_scalar found
      ⟨ne_of_number (.inr digit) (by decide), ne_of_number (.inr digit) (by decide)⟩
      (yields_passScalar.mpr (.inr (.inr (.inr (.inr (.inr ⟨digit, passed⟩)))))), finishes⟩
  | .list [], ⟨after, opens, closes⟩ =>
    exact ⟨_, middle, .emptyList opens (opens_singleton.mp closes), finishes⟩
  | .list (item :: items), ⟨after, opens, inside⟩ =>
    obtain ⟨_, first, rfl, opens', later⟩ := Tree.opens_tokensOf_cons.mp inside
    obtain ⟨c, tail, found, begins⟩ := Tree.exists_begins opens'
    rw [skipSpace_skipSpace] at found
    rw [opens_skipSpace item.tokens_ne_nil] at opens'
    exact ⟨_, after, .list opens found begins.ne.1,
      item, first, opens', items, middle, later, finishes⟩
  | .object [], ⟨after, opens, closes⟩ =>
    exact ⟨_, middle, .emptyObject opens (opens_singleton.mp closes), finishes⟩
  | .object ((key, value) :: members), ⟨after, opens, inside⟩ =>
    obtain ⟨_, front, first, rfl, quote, ⟨behind, colon, opens'⟩, later⟩ :=
      Tree.opens_tokensIn_cons.mp inside
    rw [skipSpace_skipSpace] at quote
    exact ⟨_, behind, .object opens (yields_passKey_iff.mpr ⟨key, front, quote, colon⟩),
      value, first, opens', members, middle, later, finishes⟩

/-- Inside a bracket there is a step. -/
theorem Demands.exists_step_after {bracket : Bracket} {outer : List Bracket}
    (demands : Demands (.after (bracket :: outer)) text rest) :
    ∃ next behind,
      Step (.after (bracket :: outer)) text next behind ∧ Demands next behind rest := by
  match bracket, demands with
  | .list, ⟨[], middle, closes, finishes⟩ =>
    exact ⟨_, middle, .closeList (opens_singleton.mp closes), finishes⟩
  | .list, ⟨item :: items, middle, inside, finishes⟩ =>
    obtain ⟨front, first, comma, opens, later⟩ := Tree.opens_tokensOf_cons.mp inside
    exact ⟨_, front, .nextItem comma, item, first, opens, items, middle, later, finishes⟩
  | .object, ⟨[], middle, closes, finishes⟩ =>
    exact ⟨_, middle, .closeObject (opens_singleton.mp closes), finishes⟩
  | .object, ⟨(key, value) :: members, middle, inside, finishes⟩ =>
    obtain ⟨front, after, first, comma, quote, ⟨behind, colon, opens⟩, later⟩ :=
      Tree.opens_tokensIn_cons.mp inside
    exact ⟨_, behind, .nextMember comma (yields_passKey_iff.mpr ⟨key, after, quote, colon⟩),
      value, first, opens, members, middle, later, finishes⟩

/-- All steps together meet the demand, by induction on the text that is left. -/
theorem demands_of_passes {whole : List Char} {stage : Stage}
    (passes : Passes whole stage text rest) : Demands stage text rest := by
  induction size : text.length using Nat.strongRecOn generalizing stage text with
  | ind n induction =>
    subst size
    cases stage with
    | value brackets =>
      obtain ⟨-, next, behind, step, passes⟩ := passes_value_iff.mp passes
      exact .of_step step (induction _ step.shorter passes rfl)
    | after brackets =>
      cases brackets with
      | nil => exact (passes_done_iff.mp passes).2
      | cons bracket outer =>
        obtain ⟨-, next, behind, step, passes⟩ := passes_after_iff.mp passes
        exact .of_step step (induction _ step.shorter passes rfl)

/-- A demand is met step by step. -/
theorem Demands.passes {whole : List Char} {stage : Stage} (demands : Demands stage text rest)
    (ends : Ends rest) (within : text.length ≤ whole.length)
    (behind : ∀ brackets, stage = .after brackets → text.length < whole.length) :
    Passes whole stage text rest := by
  induction size : text.length using Nat.strongRecOn generalizing stage text with
  | ind n induction =>
    subst size
    have later {next : Stage} {left : List Char} (step : Step stage text next left)
        (demands : Demands next left rest) : Passes whole next left rest := by
      have shorter := Nat.lt_of_lt_of_le step.shorter within
      exact induction _ step.shorter demands (Nat.le_of_lt shorter) (fun _ _ => shorter) rfl
    cases stage with
    | value brackets =>
      obtain ⟨next, left, step, demands⟩ := demands.exists_step_value ends
      exact passes_value_iff.mpr ⟨within, next, left, step, later step demands⟩
    | after brackets =>
      have shorter := behind brackets rfl
      cases brackets with
      | nil => exact passes_done_iff.mpr ⟨shorter, demands⟩
      | cons bracket outer =>
        obtain ⟨next, left, step, demands⟩ := demands.exists_step_after
        exact passes_after_iff.mpr ⟨shorter, next, left, step, later step demands⟩

/-- What is passed over is a tree, and every tree is passed over. -/
theorem yields_ignored_iff (ends : Ends rest) :
    Yields (ignored text) () rest ↔ ∃ tree : Tree, Opens tree.tokens text rest := by
  constructor
  · intro yields
    have passes : Passes text (.value []) text rest := ⟨_, yields⟩
    obtain ⟨tree, _, opens, rfl⟩ := demands_of_passes passes
    exact ⟨tree, opens⟩
  · rintro ⟨tree, opens⟩
    have demands : Demands (.value []) text rest := ⟨tree, rest, opens, rfl⟩
    exact (demands.passes ends (Nat.le_refl _) (by simp)).2

end GrammarArtifact.Document.Reader
