import GrammarArtifact.Pattern.Matching
import Mathlib.Data.Finset.Card
import Mathlib.Order.Monotone.Basic

/-!
# What patterns match

A pattern spans the part of a text between two places, or it does not. This is said node
by node, and a repetition is any number of spans in a row within its bounds. The search
moves whole lists of places at once instead. It stops moving when a move changes nothing,
and in an open repetition it moves only places that are new, for no more rounds than the
text has characters. The places that it ends with are nevertheless exactly those that a
span leads to: a row of spans that visits no place twice is never longer than the text.

Only places of the text are considered. The search starts from these and never leaves them.
-/

namespace GrammarArtifact.Pattern

/-! ## Steps in a row -/

/-- A number of steps in a row lead from one place to another. -/
def Repeats (step : Nat → Nat → Prop) : Nat → Nat → Nat → Prop
  | 0, start, stop => stop = start
  | times + 1, start, stop => ∃ middle, step start middle ∧ Repeats step times middle stop

namespace Repeats

variable {step : Nat → Nat → Prop}

theorem succ_iff_last (times start stop : Nat) :
    Repeats step (times + 1) start stop ↔
      ∃ middle, Repeats step times start middle ∧ step middle stop := by
  induction times generalizing start with
  | zero => simp [Repeats]
  | succ times induction =>
    rw [Repeats]
    simp only [induction]
    constructor
    · rintro ⟨middle, first, last, between, final⟩
      exact ⟨last, ⟨middle, first, between⟩, final⟩
    · rintro ⟨last, ⟨middle, first, between⟩, final⟩
      exact ⟨middle, first, last, between, final⟩

/-- Steps that stay within a bound do so in a row. -/
theorem stop_le {bound : Nat}
    (bounded : ∀ start stop, start ≤ bound → step start stop → stop ≤ bound)
    {times start stop : Nat} (inside : start ≤ bound) (steps : Repeats step times start stop) :
    stop ≤ bound := by
  induction times generalizing start with
  | zero => exact steps ▸ inside
  | succ times induction =>
    obtain ⟨middle, first, rest⟩ := steps
    exact induction (bounded start middle inside first) rest

end Repeats

/-- A place is reached in at most a number of steps. -/
def ReachedWithin (step : Nat → Nat → Prop) (times start stop : Nat) : Prop :=
  ∃ few ≤ times, Repeats step few start stop

namespace ReachedWithin

variable {step : Nat → Nat → Prop}

theorem mono {few many start stop : Nat} (le : few ≤ many)
    (reached : ReachedWithin step few start stop) : ReachedWithin step many start stop := by
  obtain ⟨times, within, steps⟩ := reached
  exact ⟨times, Nat.le_trans within le, steps⟩

theorem succ_iff (times start stop : Nat) :
    ReachedWithin step (times + 1) start stop ↔ ReachedWithin step times start stop ∨
      ∃ middle, ReachedWithin step times start middle ∧ step middle stop := by
  constructor
  · rintro ⟨few, within, steps⟩
    rcases Nat.of_le_succ within with less | rfl
    · exact .inl ⟨few, less, steps⟩
    · obtain ⟨middle, between, final⟩ := (Repeats.succ_iff_last times start stop).mp steps
      exact .inr ⟨middle, ⟨times, Nat.le_refl _, between⟩, final⟩
  · rintro (reached | ⟨middle, ⟨few, within, between⟩, final⟩)
    · exact reached.mono (Nat.le_succ times)
    · exact ⟨few + 1, Nat.succ_le_succ within,
        (Repeats.succ_iff_last few start stop).mpr ⟨middle, between, final⟩⟩

/-- When one more step adds nothing, no number of steps does. -/
theorem of_saturated {times start : Nat}
    (saturated : ∀ stop, ReachedWithin step (times + 1) start stop →
      ReachedWithin step times start stop)
    {many stop : Nat} (reached : ReachedWithin step many start stop) :
    ReachedWithin step times start stop := by
  induction many generalizing stop with
  | zero => exact reached.mono (Nat.zero_le times)
  | succ many induction =>
    rcases (succ_iff many start stop).mp reached with earlier | ⟨middle, between, final⟩
    · exact induction earlier
    · apply saturated stop
      exact (succ_iff times start stop).mpr (.inr ⟨middle, induction between, final⟩)

open scoped Classical in
/-- The places up to a bound that are reached in at most a number of steps. -/
noncomputable def places (step : Nat → Nat → Prop) (bound start times : Nat) : Finset Nat :=
  (Finset.range (bound + 1)).filter (ReachedWithin step times start)

variable {bound start : Nat}

open scoped Classical in
theorem card_places_le (step : Nat → Nat → Prop) (bound start times : Nat) :
    (places step bound start times).card ≤ bound + 1 :=
  (Finset.card_le_card (Finset.filter_subset _ _)).trans_eq (Finset.card_range _)

theorem mem_places_iff (bounded : ∀ start stop, start ≤ bound → step start stop → stop ≤ bound)
    (inside : start ≤ bound) (times stop : Nat) :
    stop ∈ places step bound start times ↔ ReachedWithin step times start stop := by
  simp only [places, Finset.mem_filter, Finset.mem_range, Nat.lt_succ_iff, and_iff_right_iff_imp]
  rintro ⟨few, _, steps⟩
  exact steps.stop_le bounded inside

/-- There are only so many places, so some number of steps adds nothing to one step less. -/
theorem exists_saturated
    (bounded : ∀ start stop, start ≤ bound → step start stop → stop ≤ bound)
    (inside : start ≤ bound) :
    ∃ times ≤ bound, ∀ stop, ReachedWithin step (times + 1) start stop →
      ReachedWithin step times start stop := by
  by_contra none
  push Not at none
  have fills : ∀ times ≤ bound + 1, times < (places step bound start times).card := by
    intro times within
    induction times with
    | zero =>
      apply Finset.card_pos.mpr
      exact ⟨start, (mem_places_iff bounded inside 0 start).mpr ⟨0, Nat.le_refl 0, rfl⟩⟩
    | succ times induction =>
      obtain ⟨stop, later, notBefore⟩ := none times (Nat.le_of_succ_le_succ within)
      apply Nat.lt_of_le_of_lt (induction (Nat.le_of_succ_le within))
      apply Finset.card_lt_card
      rw [Finset.ssubset_iff_of_subset]
      · refine ⟨stop, (mem_places_iff bounded inside _ stop).mpr later, ?_⟩
        rwa [mem_places_iff bounded inside]
      · intro place
        rw [mem_places_iff bounded inside, mem_places_iff bounded inside]
        exact ReachedWithin.mono (Nat.le_succ times)
  have tooMany := fills (bound + 1) (Nat.le_refl _)
  exact Nat.lt_irrefl _ (Nat.lt_of_lt_of_le tooMany (card_places_le step bound start _))

/-- Within a bound, as many steps as the bound reach whatever is reached at all. -/
theorem of_bounded (bounded : ∀ start stop, start ≤ bound → step start stop → stop ≤ bound)
    (inside : start ≤ bound) {times stop : Nat} (reached : ReachedWithin step times start stop) :
    ReachedWithin step bound start stop := by
  obtain ⟨few, within, saturated⟩ := exists_saturated bounded inside
  exact (of_saturated saturated reached).mono within

end ReachedWithin

/-! ## Moving lists of places -/

namespace Places

section

variable {move : Places → Places} {step : Nat → Nat → Prop} {size : Nat}

/-- A move takes places of a text to all those that a step leads to, which are places of
the text again. -/
structure Moves (size : Nat) (move : Places → Places) (step : Nat → Nat → Prop) : Prop where
  exact : ∀ places : Places, (∀ place ∈ places, place ≤ size) →
    ∀ stop, stop ∈ move places ↔ ∃ start ∈ places, step start stop
  bounded : ∀ start stop, start ≤ size → step start stop → stop ≤ size

theorem Moves.stop_le (moves : Moves size move step) {places : Places}
    (inside : ∀ place ∈ places, place ≤ size) : ∀ place ∈ move places, place ≤ size := by
  intro place member
  obtain ⟨start, isStart, leads⟩ := (moves.exact places inside place).mp member
  exact moves.bounded start place (inside start isStart) leads

/-- A list of places that a move does not change is not changed by any number of moves. -/
theorem Moves.mem_iff_of_fixed (moves : Moves size move step) {places : Places}
    (inside : ∀ place ∈ places, place ≤ size) (fixed : move places = places) (times stop : Nat) :
    stop ∈ places ↔ ∃ start ∈ places, Repeats step times start stop := by
  induction times with
  | zero => simp [Repeats]
  | succ times induction =>
    rw [induction]
    nth_rewrite 1 [← fixed]
    simp only [moves.exact places inside, Repeats]
    constructor
    · rintro ⟨middle, ⟨start, isStart, first⟩, rest⟩
      exact ⟨start, isStart, middle, first, rest⟩
    · rintro ⟨start, isStart, middle, first, rest⟩
      exact ⟨middle, ⟨start, isStart, first⟩, rest⟩

theorem Moves.mem_moveTimes (moves : Moves size move step) (times : Nat) (places : Places)
    (inside : ∀ place ∈ places, place ≤ size) (stop : Nat) :
    stop ∈ moveTimes move times places ↔ ∃ start ∈ places, Repeats step times start stop := by
  induction times generalizing places with
  | zero => simp [moveTimes, Repeats]
  | succ times induction =>
    simp only [moveTimes]
    split
    · next fixed => exact moves.mem_iff_of_fixed inside fixed (times + 1) stop
    · rw [induction (move places) (moves.stop_le inside)]
      simp only [moves.exact places inside, Repeats]
      constructor
      · rintro ⟨middle, ⟨start, isStart, first⟩, rest⟩
        exact ⟨start, isStart, middle, first, rest⟩
      · rintro ⟨start, isStart, middle, first, rest⟩
        exact ⟨middle, ⟨start, isStart, first⟩, rest⟩

/-- Some of the starts reaches the place in at most a number of steps. -/
def Spreads (step : Nat → Nat → Prop) (starts : Places) (times place : Nat) : Prop :=
  ∃ start ∈ starts, ReachedWithin step times start place

theorem Spreads.mono {starts : Places} {few many place : Nat} (le : few ≤ many)
    (spreads : Spreads step starts few place) : Spreads step starts many place := by
  obtain ⟨start, isStart, reached⟩ := spreads
  exact ⟨start, isStart, reached.mono le⟩

theorem spreads_succ_iff (starts : Places) (times place : Nat) :
    Spreads step starts (times + 1) place ↔ Spreads step starts times place ∨
      ∃ middle, Spreads step starts times middle ∧ step middle place := by
  simp only [Spreads, ReachedWithin.succ_iff]
  constructor
  · rintro ⟨start, isStart, earlier | ⟨middle, between, final⟩⟩
    · exact .inl ⟨start, isStart, earlier⟩
    · exact .inr ⟨middle, ⟨start, isStart, between⟩, final⟩
  · rintro (⟨start, isStart, earlier⟩ | ⟨middle, ⟨start, isStart, between⟩, final⟩)
    · exact ⟨start, isStart, .inl earlier⟩
    · exact ⟨start, isStart, .inr ⟨middle, between, final⟩⟩

/-- Where a search stands: the places seen are those that some steps reach, and all but the
new ones have been moved on from. -/
structure Survey (size : Nat) (step : Nat → Nat → Prop) (starts : Places) (times : Nat)
    (seen : Std.TreeSet Nat) (new : Places) : Prop where
  inside : ∀ place ∈ new, place ≤ size
  reached : ∀ place, place ∈ seen ↔ Spreads step starts times place
  isSeen : ∀ place ∈ new, place ∈ seen
  movedOn : ∀ place ∈ seen, place ∉ new → ∀ next, step place next → next ∈ seen

/-- What the next step reaches has been seen, or a move of the new places finds it. -/
theorem Survey.spreads_succ_iff (moves : Moves size move step) {starts : Places} {times : Nat}
    {seen : Std.TreeSet Nat} {new : Places} (survey : Survey size step starts times seen new)
    (place : Nat) :
    Spreads step starts (times + 1) place ↔
      place ∈ seen ∨ place ∈ (move new).filter fun place => !seen.contains place := by
  rw [Places.spreads_succ_iff, ← survey.reached]
  constructor
  · rintro (earlier | ⟨middle, between, final⟩)
    · exact .inl earlier
    · by_cases isOld : place ∈ seen
      · exact .inl isOld
      · right
        have isNew : middle ∈ new := by
          by_contra old
          exact isOld (survey.movedOn middle ((survey.reached middle).mpr between) old place final)
        apply List.mem_filter.mpr
        refine ⟨(moves.exact new survey.inside place).mpr ⟨middle, isNew, final⟩, ?_⟩
        simpa [← Std.TreeSet.contains_iff_mem] using isOld
  · rintro (earlier | added)
    · exact .inl earlier
    · obtain ⟨middle, isNew, final⟩ :=
        (moves.exact new survey.inside place).mp (List.mem_filter.mp added).1
      exact .inr ⟨middle, (survey.reached middle).mp (survey.isSeen middle isNew), final⟩

/-- A round keeps the search in order and adds what one more step reaches. -/
theorem Survey.next (moves : Moves size move step) {starts : Places} {times : Nat}
    {seen : Std.TreeSet Nat} {new : Places} (survey : Survey size step starts times seen new)
    {next : Places} (added : (move new).filter (fun place => !seen.contains place) = next) :
    Survey size step starts (times + 1) (seen.insertMany next) next := by
  have mem_seen (place : Nat) : place ∈ seen.insertMany next ↔ place ∈ seen ∨ place ∈ next := by
    rw [Std.TreeSet.mem_insertMany_list, List.contains_iff_mem]
  constructor
  · intro place member
    rw [← added] at member
    exact moves.stop_le survey.inside place (List.mem_filter.mp member).1
  · intro place
    rw [mem_seen, survey.spreads_succ_iff moves, added]
  · intro place member
    exact (mem_seen place).mpr (.inr member)
  · intro place member old other final
    have before := ((mem_seen place).mp member).resolve_right old
    rw [mem_seen, ← added, ← survey.spreads_succ_iff moves, Places.spreads_succ_iff]
    exact .inr ⟨place, (survey.reached place).mp before, final⟩

/-- A search that finds no new place has found whatever is reached at all. -/
theorem Survey.mem_seen_of_spreads (moves : Moves size move step) {starts : Places}
    {times : Nat} {seen : Std.TreeSet Nat} {new : Places}
    (survey : Survey size step starts times seen new)
    (nothing : (move new).filter (fun place => !seen.contains place) = []) {many place : Nat}
    (spreads : Spreads step starts many place) : place ∈ seen := by
  induction many generalizing place with
  | zero => exact (survey.reached place).mpr (spreads.mono (Nat.zero_le times))
  | succ many induction =>
    rcases (Places.spreads_succ_iff starts many place).mp spreads with earlier | later
    · exact induction earlier
    · obtain ⟨middle, between, final⟩ := later
      have isSeen := (survey.reached middle).mp (induction between)
      have further : Spreads step starts (times + 1) place :=
        (Places.spreads_succ_iff starts times place).mpr (.inr ⟨middle, isSeen, final⟩)
      rw [survey.spreads_succ_iff moves, nothing] at further
      exact further.resolve_right List.not_mem_nil

/-- Every round of a search counts for one more step. -/
theorem Survey.mem_spread (moves : Moves size move step) {starts : Places} (rounds : Nat)
    {times : Nat} {seen : Std.TreeSet Nat} {new : Places}
    (survey : Survey size step starts times seen new) (place : Nat) :
    place ∈ spread move rounds seen new ↔ Spreads step starts (times + rounds) place := by
  induction rounds generalizing times seen new with
  | zero => exact survey.reached place
  | succ rounds induction =>
    simp only [spread]
    split
    · next nothing =>
      constructor
      · intro isSeen
        exact ((survey.reached place).mp isSeen).mono (Nat.le_add_right times _)
      · intro spreads
        exact survey.mem_seen_of_spreads moves (List.isEmpty_iff.mp nothing) spreads
    · rw [induction (survey.next moves rfl), Nat.add_assoc, Nat.add_comm 1]

/-- A search from given places finds what a bounded number of steps reaches. -/
theorem Moves.mem_spread (moves : Moves size move step) (rounds : Nat) (starts : Places)
    (inside : ∀ place ∈ starts, place ≤ size) (place : Nat) :
    place ∈ spread move rounds (.ofList starts) starts ↔ Spreads step starts rounds place := by
  have survey : Survey size step starts 0 (.ofList starts) starts := by
    constructor
    · exact inside
    · intro place
      simp [Spreads, ReachedWithin, Repeats, Std.TreeSet.mem_ofList]
    · intro place member
      simpa [Std.TreeSet.mem_ofList] using member
    · intro place member old
      simp [Std.TreeSet.mem_ofList, old] at member
  rw [survey.mem_spread moves, Nat.zero_add]

end

end Places

/-! ## Spans -/

namespace Node

/-- A node matches the part of a text between two places. -/
def Spans (text : Array Char) : Node → Nat → Nat → Prop
  | .empty, start, stop => stop = start
  | .one set _, start, stop => text[start]?.any set.contains = true ∧ stop = start + 1
  | .place anchor, start, stop => stop = start ∧
      anchor.holds (if start = 0 then none else text[start - 1]?) text[start]? = true
  | .sequence first second, start, stop =>
    ∃ middle, first.Spans text start middle ∧ second.Spans text middle stop
  | .choice first second, start, stop => first.Spans text start stop ∨ second.Spans text start stop
  | .group _ content, start, stop => content.Spans text start stop
  | .repeated content least most, start, stop =>
    ∃ times, least ≤ times ∧ (∀ bound ∈ most, times ≤ max least bound) ∧
      Repeats (content.Spans text) times start stop

/-- The node matches a text from its first place to its last. -/
def MatchesWhole (node : Node) (text : List Char) : Prop :=
  node.Spans text.toArray 0 text.length

theorem Spans.stop_le {text : Array Char} {node : Node} {start stop : Nat}
    (inside : start ≤ text.size) (spans : node.Spans text start stop) : stop ≤ text.size := by
  induction node generalizing start stop with
  | empty => exact spans ▸ inside
  | one set brackets =>
    obtain ⟨found, rfl⟩ := spans
    by_contra beyond
    rw [Array.getElem?_eq_none (by omega)] at found
    contradiction
  | place anchor => exact spans.1 ▸ inside
  | sequence first second firstInduction secondInduction =>
    obtain ⟨middle, before, behind⟩ := spans
    exact secondInduction (firstInduction inside before) behind
  | choice first second firstInduction secondInduction =>
    rcases spans with before | behind
    · exact firstInduction inside before
    · exact secondInduction inside behind
  | group captures content induction => exact induction inside spans
  | repeated content least most induction =>
    obtain ⟨times, _, _, steps⟩ := spans
    exact steps.stop_le (fun _ _ => induction) inside

section

variable {step : Nat → Nat → Prop}

/-- A number of steps within the bounds of a repetition is the least number of steps, and
then a number within the rest. -/
theorem exists_repeats_iff (least : Nat) (most : Option Nat) (start stop : Nat) :
    (∃ times, least ≤ times ∧ (∀ bound ∈ most, times ≤ max least bound) ∧
        Repeats step times start stop) ↔
      ∃ middle, Repeats step least start middle ∧
        ∃ more, (∀ bound ∈ most, more ≤ bound - least) ∧ Repeats step more middle stop := by
  have parts (more : Nat) : Repeats step (least + more) start stop ↔
      ∃ middle, Repeats step least start middle ∧ Repeats step more middle stop := by
    induction least generalizing start with
    | zero => simp [Repeats]
    | succ least induction =>
      rw [Nat.add_right_comm]
      simp only [Repeats, induction]
      constructor
      · rintro ⟨next, first, middle, before, behind⟩
        exact ⟨middle, ⟨next, first, before⟩, behind⟩
      · rintro ⟨middle, ⟨next, first, before⟩, behind⟩
        exact ⟨next, first, middle, before, behind⟩
  constructor
  · rintro ⟨times, atLeast, fits, steps⟩
    obtain ⟨more, rfl⟩ := Nat.exists_eq_add_of_le atLeast
    obtain ⟨middle, before, behind⟩ := (parts more).mp steps
    refine ⟨middle, before, more, ?_, behind⟩
    intro bound isBound
    have := fits bound isBound
    omega
  · rintro ⟨middle, before, more, fits, behind⟩
    refine ⟨least + more, Nat.le_add_right least more, ?_, ?_⟩
    case refine_2 => exact (parts more).mpr ⟨middle, before, behind⟩
    intro bound isBound
    have := fits bound isBound
    omega

/-- The rounds of the search suffice for all numbers of steps within the rest. -/
theorem reachedWithin_rounds_iff {size : Nat}
    (bounded : ∀ start stop, start ≤ size → step start stop → stop ≤ size)
    {least start stop : Nat} {most : Option Nat} (inside : start ≤ size) :
    ReachedWithin step (match most with | none => size | some most => most - least) start stop ↔
      ∃ more, (∀ bound ∈ most, more ≤ bound - least) ∧ Repeats step more start stop := by
  cases most with
  | none =>
    constructor
    · rintro ⟨more, _, steps⟩
      exact ⟨more, by simp, steps⟩
    · rintro ⟨more, _, steps⟩
      exact .of_bounded bounded inside ⟨more, Nat.le_refl more, steps⟩
  | some most => simp [ReachedWithin]

end

/-- The search takes places of a text to exactly those where spans from them end. -/
theorem moves_lead (text : Array Char) (node : Node) :
    Places.Moves text.size (node.lead text) (node.Spans text) := by
  refine ⟨?_, fun start stop => Spans.stop_le⟩
  induction node with
  | empty =>
    intro places inside stop
    simp [lead, Spans]
  | one set brackets =>
    intro places inside stop
    simp only [lead, Spans, Places.mem_advance]
  | place anchor =>
    intro places inside stop
    simp only [lead, Spans, Places.mem_hold]
    constructor
    · rintro ⟨member, holds⟩
      exact ⟨stop, member, rfl, holds⟩
    · rintro ⟨start, member, rfl, holds⟩
      exact ⟨member, holds⟩
  | sequence first second firstExact secondExact =>
    intro places inside stop
    have firstMoves : Places.Moves text.size (first.lead text) (first.Spans text) :=
      ⟨firstExact, fun _ _ => Spans.stop_le⟩
    rw [lead, secondExact _ (firstMoves.stop_le inside)]
    simp only [firstExact places inside, Spans]
    constructor
    · rintro ⟨middle, ⟨start, member, before⟩, behind⟩
      exact ⟨start, member, middle, before, behind⟩
    · rintro ⟨start, member, middle, before, behind⟩
      exact ⟨middle, ⟨start, member, before⟩, behind⟩
  | choice first second firstExact secondExact =>
    intro places inside stop
    rw [lead, Places.mem_union, firstExact places inside, secondExact places inside]
    simp only [Spans, and_or_left, exists_or]
  | group captures content contentExact => exact contentExact
  | repeated content least most contentExact =>
    intro places inside stop
    have moves : Places.Moves text.size (content.lead text) (content.Spans text) :=
      ⟨contentExact, fun _ _ => Spans.stop_le⟩
    have started := moves.mem_moveTimes least places inside
    have startInside : ∀ place ∈ Places.moveTimes (content.lead text) least places,
        place ≤ text.size := by
      intro place member
      obtain ⟨start, isStart, steps⟩ := (started place).mp member
      exact steps.stop_le moves.bounded (inside start isStart)
    rw [lead.eq_def, Std.TreeSet.mem_toList, moves.mem_spread _ _ startInside]
    simp only [Places.Spreads, started, Spans]
    constructor
    · rintro ⟨middle, ⟨start, member, before⟩, behind⟩
      have middleInside := before.stop_le moves.bounded (inside start member)
      have more := (reachedWithin_rounds_iff moves.bounded middleInside).mp behind
      exact ⟨start, member, (exists_repeats_iff least most start stop).mpr ⟨middle, before, more⟩⟩
    · rintro ⟨start, member, spans⟩
      obtain ⟨middle, before, more⟩ := (exists_repeats_iff least most start stop).mp spans
      have middleInside := before.stop_le moves.bounded (inside start member)
      exact ⟨middle, ⟨start, member, before⟩,
        (reachedWithin_rounds_iff moves.bounded middleInside).mpr more⟩

/-- A pattern is found in a text exactly when it spans some part of it. -/
theorem isFoundIn_iff (node : Node) (text : List Char) :
    node.isFoundIn text = true ↔
      ∃ start ≤ text.length, ∃ stop, node.Spans text.toArray start stop := by
  have inside : ∀ place ∈ List.range (text.length + 1), place ≤ text.toArray.size := by
    intro place member
    rw [List.mem_range, Nat.lt_succ_iff] at member
    rwa [List.size_toArray]
  rw [isFoundIn, Bool.not_eq_true', List.isEmpty_eq_false_iff_exists_mem]
  simp only [(node.moves_lead text.toArray).exact _ inside, List.mem_range, Nat.lt_succ_iff]
  constructor
  · rintro ⟨stop, start, member, spans⟩
    exact ⟨start, member, stop, spans⟩
  · rintro ⟨start, member, stop, spans⟩
    exact ⟨stop, start, member, spans⟩

theorem spans_textStart_iff (text : Array Char) {start : Nat} (inside : start ≤ text.size)
    (stop : Nat) : (place .textStart).Spans text start stop ↔ start = 0 ∧ stop = 0 := by
  by_cases first : start = 0
  · simp [Spans, Anchor.holds, first]
  · simp only [Spans, Anchor.holds, first, if_false, false_and, iff_false, not_and,
      Option.isNone_iff_eq_none, Array.getElem?_eq_none_iff]
    omega

theorem spans_textEnd_iff (text : Array Char) {start : Nat} (inside : start ≤ text.size)
    (stop : Nat) : (place .textEnd).Spans text start stop ↔ start = text.size ∧ stop = start := by
  simp only [Spans, Anchor.holds, Option.isNone_iff_eq_none, Array.getElem?_eq_none_iff]
  constructor
  · rintro ⟨rfl, behind⟩
    exact ⟨Nat.le_antisymm inside behind, rfl⟩
  · rintro ⟨rfl, rfl⟩
    exact ⟨rfl, Nat.le_refl _⟩

/-- Between anchors at both ends of the text, a pattern is found exactly when it matches the
whole text. -/
theorem anchored_isFoundIn_iff (node : Node) (text : List Char) (captures : Bool) :
    (sequence (.place .textStart) (.sequence (.group captures node)
      (.place .textEnd))).isFoundIn text = true ↔ node.MatchesWhole text := by
  rw [isFoundIn_iff, MatchesWhole]
  constructor
  · rintro ⟨start, inside, stop, middle, atStart, last, spans, atEnd⟩
    obtain ⟨rfl, rfl⟩ := (spans_textStart_iff text.toArray inside middle).mp atStart
    have within : last ≤ text.toArray.size := Spans.stop_le (Nat.zero_le _) spans
    obtain ⟨rfl, rfl⟩ := (spans_textEnd_iff text.toArray within stop).mp atEnd
    simpa [Spans] using spans
  · intro spans
    have atStart := (spans_textStart_iff text.toArray (Nat.zero_le _) 0).mpr ⟨rfl, rfl⟩
    have atEnd := (spans_textEnd_iff text.toArray (Nat.le_refl _) text.toArray.size).mpr ⟨rfl, rfl⟩
    rw [← List.size_toArray] at spans
    exact ⟨0, Nat.zero_le _, _, 0, atStart, _, spans, atEnd⟩

/-- Whether a pattern matches a whole text is found out with anchors around it. -/
instance (node : Node) (text : List Char) : Decidable (node.MatchesWhole text) :=
  decidable_of_iff _ (node.anchored_isFoundIn_iff text false)

end Node

end GrammarArtifact.Pattern
