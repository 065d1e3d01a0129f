import GrammarArtifact.Proofs.Pattern.Assembly
import GrammarArtifact.Proofs.Pattern.Steady

/-!
# Contexts and the groups around them

The modes that a context keeps are those of the open groups, so that a context knows as many
groups as the row of tokens in front of it leaves open. Further groups around a context change
nothing, as long as none of them is closed.
-/

namespace GrammarArtifact.Pattern

open Reader

/-! ## Tokens that leave groups alone -/

/-- All that a reader can find has a property. -/
def Reader.Yields {α : Type} (P : α → Prop) (reader : Reader α) : Prop :=
  ∀ text value rest, reader.run text = some (value, rest) → P value

section

variable {α β : Type} {P : β → Prop}

theorem yields_bind {first : Reader α} {further : α → Reader β}
    (yields : ∀ value, (further value).Yields P) : (first.bind further).Yields P := by
  intro text result rest found
  obtain ⟨value, middle, _, behind⟩ := run_bind_eq_some_iff.mp found
  exact yields value middle result rest behind

theorem yields_lift {value : Option β} (holds : ∀ result, value = some result → P result) :
    (lift value).Yields P := by
  intro text result rest found
  exact holds result (run_lift_eq_some_iff.mp found).1

theorem yields_some {result : β} (holds : P result) : (lift (some result)).Yields P :=
  yields_lift fun _ same => Option.some.inj same ▸ holds

theorem yields_none : (lift (none : Option β)).Yields P :=
  yields_lift fun _ impossible => nomatch impossible

theorem yields_ite {condition : Prop} [Decidable condition] {first second : Reader β}
    (yes : first.Yields P) (no : second.Yields P) :
    (if condition then first else second).Yields P := by
  by_cases holds : condition
  · rw [if_pos holds]
    exact yes
  · rw [if_neg holds]
    exact no

theorem yields_map {reader : Reader α} {f : α → β} (holds : ∀ value, P (f value)) :
    (reader.map f).Yields P :=
  yields_bind fun value => yields_some (holds value)

end

/-- A token neither opens nor closes a group. -/
def Token.IsPlain (token : Token) : Prop := ∀ depth, token.depthBehind? depth = some depth

theorem yields_closeCount (mode : Mode) (least : Nat) (most : Option Nat) :
    (closeCount mode least most).Yields Token.IsPlain := by
  apply yields_bind
  intro c
  split_ifs
  · exact yields_bind fun _ => yields_map fun _ _ => rfl
  · exact yields_none

theorem yields_countedRepetition (mode : Mode) :
    (countedRepetition mode).Yields Token.IsPlain := by
  apply yields_bind
  intro _
  apply yields_bind
  intro least
  apply yields_bind
  intro comma
  split_ifs
  · apply yields_bind
    intro _
    apply yields_bind
    intro unbounded
    split_ifs
    · exact yields_closeCount mode least none
    · exact yields_bind fun most => yields_closeCount mode least (some most)
  · exact yields_closeCount mode least (some least)

theorem yields_plainToken [Text.Unicode] (mode : Mode) (first : Char) :
    (plainToken mode first).Yields Token.IsPlain := by
  have dot : (lift (mode.dot?.map fun set => .one set 0)).Yields Token.IsPlain := by
    apply yields_lift
    intro token found
    obtain ⟨set, _, rfl⟩ := Option.map_eq_some_iff.mp found
    exact fun _ => rfl
  have escaped : ((escape mode).map (Token.ofEscape mode)).Yields Token.IsPlain := by
    apply yields_map
    intro escape
    cases escape with
    | literal c => exact fun _ => rfl
    | set members => exact fun _ => rfl
    | place anchor => exact fun _ => rfl
  refine yields_ite (yields_some fun _ => rfl) ?_
  refine yields_ite (yields_map fun _ _ => rfl) ?_
  refine yields_ite (yields_map fun _ _ => rfl) ?_
  refine yields_ite (yields_map fun _ _ => rfl) ?_
  refine yields_ite (yields_countedRepetition mode) ?_
  refine yields_ite (yields_map fun _ _ => rfl) ?_
  refine yields_ite dot ?_
  refine yields_ite (yields_some fun _ => rfl) ?_
  refine yields_ite (yields_some fun _ => rfl) ?_
  exact yields_ite escaped (yields_some fun _ => rfl)

/-- Groups have lexemes of their own. -/
def Lexeme.IsProper : Lexeme → Prop
  | .token plain => plain.IsPlain
  | _ => True

theorem yields_lexeme [Text.Unicode] (context : Context) :
    (lexeme context).Yields Lexeme.IsProper := by
  unfold lexeme counted
  apply yields_bind
  intro _
  apply yields_bind
  intro c
  split_ifs
  · exact yields_map fun _ => trivial
  · exact yields_some trivial
  · intro text value rest found
    obtain ⟨token, middle, isToken, behind⟩ := run_bind_eq_some_iff.mp found
    rw [run_lift_eq_some_iff, Option.some.injEq] at behind
    exact behind.1 ▸ yields_plainToken context.mode c _ _ _ isToken

/-- The groups that are open behind a token are those of the context there. -/
theorem depthBehind?_of_after? {context behind : Context} {lexeme : Lexeme} {token : Token}
    (proper : lexeme.IsProper) (found : context.after? lexeme = some (token, behind)) :
    token.depthBehind? context.outer.length = some behind.outer.length := by
  cases lexeme with
  | opening head =>
    cases head with
    | plain | named | flagged | directive =>
      obtain ⟨rfl, rfl⟩ := Prod.mk.inj (Option.some.inj found)
      rfl
  | closing =>
    rw [Context.after?] at found
    cases modes : context.outer with
    | nil =>
      rw [modes] at found
      contradiction
    | cons mode outer =>
      rw [modes] at found
      obtain ⟨rfl, rfl⟩ := Prod.mk.inj (Option.some.inj found)
      rfl
  | token plain =>
    obtain ⟨rfl, rfl⟩ := Prod.mk.inj (Option.some.inj found)
    exact proper _

/-! ## Contexts within further groups -/

/-- A context with further groups around it. -/
def Context.within (context : Context) (modes : List Mode) : Context :=
  { context with outer := context.outer ++ modes }

theorem after?_within {context behind : Context} {lexeme : Lexeme} {token : Token}
    (found : context.after? lexeme = some (token, behind)) (modes : List Mode) :
    (context.within modes).after? lexeme = some (token, behind.within modes) := by
  cases lexeme with
  | opening head =>
    cases head with
    | plain | named | flagged | directive =>
      obtain ⟨rfl, rfl⟩ := Prod.mk.inj (Option.some.inj found)
      rfl
  | closing =>
    obtain ⟨mode, outer, names⟩ := context
    cases outer with
    | nil => contradiction
    | cons parent outer =>
      obtain ⟨rfl, rfl⟩ := Prod.mk.inj (Option.some.inj found)
      rfl
  | token plain =>
    obtain ⟨rfl, rfl⟩ := Prod.mk.inj (Option.some.inj found)
    rfl

/-- A token that closes none of the further groups is one without them. -/
theorem exists_after?_of_within {context : Context} {modes : List Mode} {lexeme : Lexeme}
    {token : Token} {behind : Context}
    (found : (context.within modes).after? lexeme = some (token, behind))
    (inside : token.depthBehind? context.outer.length ≠ none) :
    ∃ inner, context.after? lexeme = some (token, inner) ∧ behind = inner.within modes := by
  cases lexeme with
  | opening head =>
    cases head with
    | plain | named | flagged | directive =>
      obtain ⟨rfl, rfl⟩ := Prod.mk.inj (Option.some.inj found)
      exact ⟨_, rfl, rfl⟩
  | closing =>
    obtain ⟨mode, outer, names⟩ := context
    cases outer with
    | nil =>
      cases modes with
      | nil => contradiction
      | cons parent modes =>
        obtain ⟨rfl, rfl⟩ := Prod.mk.inj (Option.some.inj found)
        exact absurd rfl inside
    | cons parent outer =>
      obtain ⟨rfl, rfl⟩ := Prod.mk.inj (Option.some.inj found)
      exact ⟨_, rfl, rfl⟩
  | token plain =>
    obtain ⟨rfl, rfl⟩ := Prod.mk.inj (Option.some.inj found)
    exact ⟨_, rfl, rfl⟩

end GrammarArtifact.Pattern
