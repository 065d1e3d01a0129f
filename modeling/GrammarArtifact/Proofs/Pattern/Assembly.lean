import GrammarArtifact.Pattern.Reading

/-!
# Groups in rows of tokens

A row of tokens can be put together only when each of its groups closes. What stands within a
group up to the token that closes it is put together as it is by itself, and becomes a part of
what is around the group.
-/

namespace GrammarArtifact.Pattern

/-! ## Open groups -/

/-- How many groups are open behind a token. A closing needs an open group. -/
def Token.depthBehind? (depth : Nat) : Token → Option Nat
  | .opening _ => some (depth + 1)
  | .closing =>
    match depth with
    | 0 => none
    | depth + 1 => some depth
  | _ => some depth

/-- How many groups are open behind a row of tokens. -/
def depthBehind? (depth : Nat) : List Token → Option Nat
  | [] => some depth
  | token :: rest => (token.depthBehind? depth).bind fun depth => depthBehind? depth rest

/-- A group around a row stays open behind it. -/
theorem depthBehind?_succ {depth last : Nat} {tokens : List Token}
    (found : depthBehind? depth tokens = some last) :
    depthBehind? (depth + 1) tokens = some (last + 1) := by
  induction tokens generalizing depth with
  | nil =>
    obtain rfl := Option.some.inj found
    rfl
  | cons token rest induction =>
    cases token with
    | closing =>
      cases depth with
      | zero => contradiction
      | succ depth => exact induction found
    | one | place | directive | opening | bar | repetition => exact induction found

/-- A row that can be put together leaves no group open. -/
theorem depthBehind?_of_assemble? {outer : List GroupLevel} {level : GroupLevel}
    {tokens : List Token} {node : Node} (assembled : assemble? outer level tokens = some node) :
    depthBehind? outer.length tokens = some 0 := by
  induction tokens generalizing outer level with
  | nil =>
    cases outer with
    | nil => rfl
    | cons _ _ => contradiction
  | cons token rest induction =>
    cases token with
    | one set brackets => exact induction assembled
    | place anchor => exact induction assembled
    | directive => exact induction assembled
    | opening captures => exact induction assembled
    | closing =>
      cases outer with
      | nil => contradiction
      | cons parent outer => exact induction assembled
    | bar => exact induction assembled
    | repetition least most =>
      rw [assemble?] at assembled
      cases repeated : level.repeatLast? least most with
      | none =>
        rw [repeated] at assembled
        contradiction
      | some level =>
        rw [repeated] at assembled
        exact induction assembled

/-- A row that closes one group more than it opens has the closing of that group in it. -/
theorem exists_closing {depth : Nat} {tokens : List Token}
    (closed : depthBehind? (depth + 1) tokens = some 0) :
    ∃ within behind, tokens = within ++ .closing :: behind ∧
      depthBehind? depth within = some 0 := by
  induction tokens generalizing depth with
  | nil => exact absurd (Option.some.inj closed) (Nat.succ_ne_zero depth)
  | cons token rest induction =>
    have plain (same : ∀ depth, token.depthBehind? depth = some depth) :
        ∃ within behind, token :: rest = within ++ .closing :: behind ∧
          depthBehind? depth within = some 0 := by
      rw [depthBehind?, same] at closed
      obtain ⟨within, behind, rfl, inside⟩ := induction closed
      refine ⟨token :: within, behind, rfl, ?_⟩
      rw [depthBehind?, same]
      exact inside
    cases token with
    | opening captures =>
      obtain ⟨within, behind, rfl, inside⟩ := induction closed
      exact ⟨.opening captures :: within, behind, rfl, inside⟩
    | closing =>
      cases depth with
      | zero => exact ⟨[], rest, rfl, rfl⟩
      | succ depth =>
        obtain ⟨within, behind, rfl, inside⟩ := induction closed
        exact ⟨.closing :: within, behind, rfl, inside⟩
    | one set brackets => exact plain fun _ => rfl
    | place anchor => exact plain fun _ => rfl
    | directive => exact plain fun _ => rfl
    | bar => exact plain fun _ => rfl
    | repetition least most => exact plain fun _ => rfl

/-! ## Groups as parts -/

/-- Whether the outermost of some levels captures what it matches. -/
def outermostCaptures (outer : List GroupLevel) (level : GroupLevel) : Bool :=
  (outer.getLastD level).captures

theorem outermostCaptures_congr (outer : List GroupLevel) {level other : GroupLevel}
    (same : level.captures = other.captures) :
    outermostCaptures outer level = outermostCaptures outer other := by
  cases outer with
  | nil => exact same
  | cons parent outer => rfl

theorem outermostCaptures_cons (parent : GroupLevel) (outer : List GroupLevel)
    (level : GroupLevel) :
    outermostCaptures (parent :: outer) level = outermostCaptures outer parent := by
  rw [outermostCaptures, List.getLastD_cons, outermostCaptures]

theorem captures_of_repeatLast? {level repeated : GroupLevel} {least : Nat} {most : Option Nat}
    (found : level.repeatLast? least most = some repeated) :
    repeated.captures = level.captures := by
  unfold GroupLevel.repeatLast? at found
  split at found
  · contradiction
  · contradiction
  · exact Option.some.inj found ▸ rfl

/-- What stands within a group is put together as by itself and added around the group. -/
theorem assemble?_group {within behind : List Token} {inner outer : List GroupLevel}
    {level parent : GroupLevel} (closed : depthBehind? inner.length within = some 0) :
    assemble? (inner ++ parent :: outer) level (within ++ .closing :: behind) =
      (assemble? inner level within).bind fun node =>
        assemble? outer (parent.add (.group (outermostCaptures inner level) node)) behind := by
  induction within generalizing inner level with
  | nil =>
    obtain rfl : inner = [] := List.length_eq_zero_iff.mp (Option.some.inj closed)
    rfl
  | cons token rest induction =>
    have goesOn (inner' : List GroupLevel) (next : GroupLevel)
        (same : outermostCaptures inner' next = outermostCaptures inner level)
        (closed : depthBehind? inner'.length rest = some 0) :
        assemble? (inner' ++ parent :: outer) next (rest ++ .closing :: behind) =
          (assemble? inner' next rest).bind fun node =>
            assemble? outer (parent.add (.group (outermostCaptures inner level) node)) behind :=
      same ▸ induction closed
    have sameLevel (next : GroupLevel) (same : next.captures = level.captures) :
        outermostCaptures inner next = outermostCaptures inner level :=
      outermostCaptures_congr inner same
    cases token with
    | one set brackets => exact goesOn inner _ (sameLevel _ rfl) closed
    | place anchor => exact goesOn inner _ (sameLevel _ rfl) closed
    | directive => exact goesOn inner _ (sameLevel _ rfl) closed
    | opening captures =>
      exact goesOn (level :: inner) { captures } (outermostCaptures_cons level inner _) closed
    | closing =>
      cases inner with
      | nil => contradiction
      | cons next inner =>
        apply goesOn inner (next.add (.group level.captures level.node)) _ closed
        rw [outermostCaptures_cons]
        exact outermostCaptures_congr inner rfl
    | bar => exact goesOn inner _ (sameLevel _ rfl) closed
    | repetition least most =>
      rw [List.cons_append, assemble?, assemble?]
      cases repeated : level.repeatLast? least most with
      | none => rfl
      | some next =>
        exact goesOn inner next (sameLevel next (captures_of_repeatLast? repeated)) closed

end GrammarArtifact.Pattern
