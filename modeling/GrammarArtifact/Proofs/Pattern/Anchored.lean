import GrammarArtifact.Proofs.Pattern.Spans
import GrammarArtifact.Proofs.Pattern.Wrapping

/-!
# Patterns between anchors

A pattern is put between an opening of a group and a parenthesis that is meant to close it, and
anchors are put around the group. The pattern can escape the group in two ways: a comment at
its end takes the parenthesis in, or a parenthesis of its own, which closes nothing in the
pattern, closes the group. Otherwise what stands between the anchors is the pattern, and it is
refused when the pattern is.
-/

namespace GrammarArtifact.Pattern

open Reader

/-- A pattern as the content of a group between anchors at both ends of a line. -/
def anchored (text : List Char) : List Char :=
  '^' :: '(' :: '?' :: ':' :: (text ++ [')', '$'])

variable [Text.Unicode]

/-- A comment at the end of a pattern takes in a parenthesis behind it, which would not be
accepted otherwise. -/
def EndsInComment (text : List Char) : Prop :=
  (parse? text).isSome ∧ (parse? (text ++ [')'])).isSome

/-- A parenthesis that closes nothing stands behind what is a pattern by itself. -/
def HasStrayClosing (text : List Char) : Prop :=
  ∃ before after, text = before ++ ')' :: after ∧
    (parse? before).isSome ∧ parse? (before ++ [')']) = none

theorem tokens?_anchored (text : List Char) :
    tokens? {} (anchored text) =
      (tokens? (Context.within {} [{}]) (text ++ [')', '$'])).map
        (.place .textStart :: .opening false :: ·) := by
  have first : (lexeme {}).run (anchored text) =
      some (.token (.place .textStart), '(' :: '?' :: ':' :: (text ++ [')', '$'])) := rfl
  have second : (lexeme {}).run ('(' :: '?' :: ':' :: (text ++ [')', '$'])) =
      some (.opening (.flagged []), text ++ [')', '$']) := rfl
  rw [tokens?_of_run_lexeme first]
  simp only [Context.after?, Option.bind_some]
  rw [tokens?_of_run_lexeme second]
  simp only [Context.after?, Option.bind_some, Option.map_map]
  rfl

/-- Behind the group that the pattern stands in, only the anchor is left. -/
theorem tokens?_group_end {context : Context} (outermost : context.outer = []) :
    tokens? (context.within [{}]) [')', '$'] = some [.closing, .place .textEnd] := by
  obtain ⟨mode, outer, names⟩ := context
  obtain rfl : outer = [] := outermost
  have anchor : (lexeme { names }).run ['$'] = some (.token (.place .textEnd), []) := rfl
  rw [tokens?_of_run_lexeme (run_lexeme_closing _ ['$'])]
  simp only [Context.within, Context.after?, List.nil_append, Option.bind_some]
  rw [tokens?_of_run_lexeme anchor]
  simp only [Context.after?, Option.bind_some, tokens?_nil, Option.map_some]

omit [Text.Unicode] in
/-- What stands in the group is put together as by itself. -/
theorem assemble?_anchored {inside behind : List Token}
    (closed : depthBehind? 0 inside = some 0) :
    assemble? [] {} (.place .textStart :: .opening false :: (inside ++ .closing :: behind)) =
      (assemble? [] {} inside).bind fun node =>
        assemble? [] { parts := [.group false node, .place .textStart] } behind :=
  @assemble?_group inside behind [] [] {} { parts := [.place .textStart] } closed

/-- A pattern is a part of what it makes between anchors, unless it ends in a comment. -/
theorem parse?_anchored {text : List Char} {node : Node} (read : parse? text = some node) :
    (EndsInComment text ∧ parse? (anchored text) = none) ∨
      ¬EndsInComment text ∧ parse? (anchored text) =
        some (.sequence (.place .textStart) (.sequence (.group false node) (.place .textEnd))) := by
  obtain ⟨tokens, found, assembled⟩ := Option.bind_eq_some_iff.mp read
  have closed : depthBehind? 0 tokens = some 0 := depthBehind?_of_assemble? assembled
  obtain ⟨last, row⟩ := exists_row found
  have outermost : last.outer = [] :=
    List.length_eq_zero_iff.mp (Option.some.inj (row.depthBehind?_eq.symm.trans closed))
  rcases row.before_closing with before | takenIn
  · right
    have alone : tokens? {} (text ++ [')']) = none := by
      have nothing : (last.within []).outer = [] := by rw [Context.within, outermost]; rfl
      have reads := before [] [] List.not_mem_nil
      rwa [tokens?_closing_of_outermost nothing, Option.map_none] at reads
    have wrapped := before [{}] ['$'] (by decide)
    rw [tokens?_group_end outermost, Option.map_some] at wrapped
    constructor
    · rintro ⟨_, accepted⟩
      rw [parse?, alone] at accepted
      contradiction
    · rw [parse?, tokens?_anchored, wrapped, Option.map_some, Option.bind_some,
        assemble?_anchored closed, assembled]
      rfl
  · left
    have alone : tokens? {} (text ++ [')']) = some tokens := takenIn [] [] List.not_mem_nil
    have wrapped := takenIn [{}] ['$'] (by decide)
    constructor
    · refine ⟨by rw [read, Option.isSome_some], ?_⟩
      rw [parse?, alone, Option.bind_some, assembled, Option.isSome_some]
    · rw [parse?, tokens?_anchored, wrapped, Option.map_some, Option.bind_some]
      rw [Option.eq_none_iff_forall_ne_some]
      intro whole assembled
      have closes : depthBehind? 1 tokens = some 0 := depthBehind?_of_assemble? assembled
      rw [depthBehind?_succ closed] at closes
      contradiction

/-- What makes a pattern between anchors is one itself, unless it closes a group that it does
not open. -/
theorem isSome_parse?_of_anchored {text : List Char}
    (accepted : (parse? (anchored text)).isSome) :
    (parse? text).isSome ∨ HasStrayClosing text := by
  obtain ⟨whole, read⟩ := Option.isSome_iff_exists.mp accepted
  rw [parse?, tokens?_anchored] at read
  obtain ⟨_, wrapped, assembled⟩ := Option.bind_eq_some_iff.mp read
  obtain ⟨tokens, found, rfl⟩ := Option.map_eq_some_iff.mp wrapped
  have closed : depthBehind? 1 tokens = some 0 := depthBehind?_of_assemble? assembled
  obtain ⟨inside, behind, rfl, balanced⟩ := exists_closing closed
  rw [assemble?_anchored balanced] at assembled
  obtain ⟨node, isNode, _⟩ := Option.bind_eq_some_iff.mp assembled
  obtain ⟨last, row⟩ := exists_row found
  obtain ⟨before, after, same, reads, fails⟩ := exists_closing_text row balanced
  have readable : parse? before = some node := by
    rw [parse?, reads, Option.bind_some, isNode]
  have refused : parse? (before ++ [')']) = none := by
    rw [parse?, fails, Option.bind_none]
  rcases List.append_eq_append_iff.mp same with ⟨part, rfl, ends⟩ | ⟨part, rfl, ends⟩
  · left
    -- The parenthesis that closes the group is the one behind the pattern.
    obtain rfl : part = [] := by
      rcases part with - | ⟨c, - | ⟨d, part⟩⟩
      · rfl
      · simp at ends
      · simp at ends
    rw [List.append_nil] at readable
    rw [readable, Option.isSome_some]
  · cases part with
    | nil =>
      left
      rw [List.append_nil, readable, Option.isSome_some]
    | cons c part =>
      right
      obtain rfl := (List.cons.inj ends).1
      exact ⟨before, part, rfl, by rw [readable, Option.isSome_some], refused⟩

end GrammarArtifact.Pattern
