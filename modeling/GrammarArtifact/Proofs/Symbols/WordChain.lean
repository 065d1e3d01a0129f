import GrammarArtifact.Proofs.Rule.Nodes
import GrammarArtifact.Proofs.Table
import GrammarArtifact.Rule.Build
import GrammarArtifact.Symbols
import Mathlib.Data.Fintype.EquivFin
import Mathlib.Data.List.Nodup
import Mathlib.Data.List.Perm.Subperm

/-!
# The chain to the pattern of words

From a node, the search for the pattern of words goes on in at most one way, so it follows
a chain. `Step` is one hop of it: to the body of the rule that a symbol refers to, or into
a token. The chain ends in a node without a hop, or it comes back to a node and never ends.

A chain that ends goes to no rule twice, since from there it would go on alike and not come
closer to its end. The rules that it goes to are therefore never too many for the bound on
its length, which is the number of rules. Tokens are: they count as hops, and a rule can
hold any number of them. So a pattern is found exactly when the tokens on the way to it
are no more than the rules off the way.
-/

namespace GrammarArtifact

/-- One hop of the chain. -/
inductive Hop
  | toRule (name : String)
  | intoToken
deriving DecidableEq, Repr

/-- The rules that some hops go to, in their order. -/
def Hop.goneTo : List Hop → List String
  | [] => []
  | .toRule name :: hops => name :: goneTo hops
  | .intoToken :: hops => goneTo hops

namespace Grammar

/-- A node is followed by the body of the rule that it refers to if it is a symbol, and by
its content if it is a token. -/
inductive Step (grammar : Grammar) : Rule → Hop → Rule → Prop
  | toRule {node body : Rule} {name : String} (isSymbol : node.kind = .symbol)
      (refers : node.name = some name) (bound : grammar.rules.find? name = some body) :
      Step grammar node (.toRule name) body
  | intoToken {node inner : Rule} (isToken : node.kind = .token)
      (holds : node.content = some inner) : Step grammar node .intoToken inner

/-- The chain from a node comes to another one in some hops. -/
inductive Chain (grammar : Grammar) : Rule → List Hop → Rule → Prop
  | here (node : Rule) : Chain grammar node [] node
  | hop {node next last : Rule} {hop : Hop} {hops : List Hop}
      (step : grammar.Step node hop next) (later : Chain grammar next hops last) :
      Chain grammar node (hop :: hops) last

/-- The chain ends in a node: it has no hop from there. -/
def Ends (grammar : Grammar) (last : Rule) : Prop := ∀ hop next, ¬ grammar.Step last hop next

/-- The chain from a node comes to some node over and over. -/
def Cycles (grammar : Grammar) (node : Rule) : Prop :=
  ∃ hops again hop loop, grammar.Chain node hops again ∧ grammar.Chain again (hop :: loop) again

variable {grammar : Grammar} {node next last last' : Rule} {hop : Hop} {hops hops' : List Hop}

/-! ## One hop -/

/-- The search goes on from a node by its hop. -/
theorem wordStep?_eq_some_iff :
    grammar.wordStep? node = some next ↔ ∃ hop, grammar.Step node hop next := by
  unfold wordStep?
  constructor
  · intro found
    split at found
    next isSymbol =>
      obtain ⟨name, refers, bound⟩ := Option.bind_eq_some_iff.mp found
      exact ⟨_, .toRule isSymbol refers bound⟩
    next isToken => exact ⟨_, .intoToken isToken found⟩
    next => contradiction
  · rintro ⟨_, ⟨isSymbol, refers, bound⟩ | ⟨isToken, holds⟩⟩
    · simp [isSymbol, refers, bound]
    · simp [isToken, holds]

/-- A node has one hop at most. -/
theorem Step.unique {hop' : Hop} {next' : Rule} (step : grammar.Step node hop next)
    (step' : grammar.Step node hop' next') : hop = hop' ∧ next = next' := by
  cases step with
  | toRule isSymbol refers bound =>
    cases step' with
    | toRule _ refers' bound' =>
      obtain rfl := Option.some.inj (refers.symm.trans refers')
      exact ⟨rfl, Option.some.inj (bound.symm.trans bound')⟩
    | intoToken isToken => simp [isSymbol] at isToken
  | intoToken isToken holds =>
    cases step' with
    | toRule isSymbol => simp [isToken] at isSymbol
    | intoToken _ holds' => exact ⟨rfl, Option.some.inj (holds.symm.trans holds')⟩

/-- There is no hop from a pattern. -/
theorem ends_of_patternValue? {pattern : String} (found : last.patternValue? = some pattern) :
    grammar.Ends last := by
  unfold Rule.patternValue? at found
  split at found
  next isPattern =>
    rintro hop next (⟨isSymbol, -, -⟩ | ⟨isToken, -⟩)
    · simp [isPattern] at isSymbol
    · simp [isPattern] at isToken
  next => contradiction

/-! ## Whole chains -/

theorem Chain.append (one : grammar.Chain node hops next) (other : grammar.Chain next hops' last) :
    grammar.Chain node (hops ++ hops') last := by
  induction one with
  | here => exact other
  | hop step _ induction => exact .hop step (induction other)

/-- A chain that ends does so in one place, after the same hops. -/
theorem Chain.unique (chain : grammar.Chain node hops last) (ends : grammar.Ends last)
    (chain' : grammar.Chain node hops' last') (ends' : grammar.Ends last') :
    hops = hops' ∧ last = last' := by
  induction chain generalizing hops' with
  | here =>
    cases chain' with
    | here => exact ⟨rfl, rfl⟩
    | hop step' => exact absurd step' (ends _ _)
  | hop step _ induction =>
    cases chain' with
    | here => exact absurd step (ends' _ _)
    | hop step' later' =>
      obtain ⟨rfl, rfl⟩ := step.unique step'
      obtain ⟨rfl, rfl⟩ := induction ends later'
      exact ⟨rfl, rfl⟩

/-- A rule that the chain goes to has a body, and the chain goes on from there. -/
theorem Chain.exists_of_mem_goneTo (chain : grammar.Chain node hops last) {name : String}
    (gone : name ∈ Hop.goneTo hops) :
    ∃ body rest, grammar.rules.find? name = some body ∧ grammar.Chain body rest last ∧
      rest.length < hops.length := by
  induction chain with
  | here => simp [Hop.goneTo] at gone
  | @hop node next last hop hops step later induction =>
    have onLater (inLater : name ∈ Hop.goneTo hops) :
        ∃ body rest, grammar.rules.find? name = some body ∧ grammar.Chain body rest last ∧
          rest.length < (hop :: hops).length := by
      obtain ⟨body, rest, bound, chain, shorter⟩ := induction inLater
      exact ⟨body, rest, bound, chain, Nat.lt_succ_of_lt shorter⟩
    cases step with
    | toRule _ _ bound =>
      rcases List.mem_cons.mp gone with rfl | inLater
      · exact ⟨next, hops, bound, later, Nat.lt_succ_self _⟩
      · exact onLater inLater
    | intoToken => exact onLater gone

/-- A chain that ends does not come back to the rule that it started from: it would go on
from there as it did before, and not come closer to its end. -/
theorem Chain.not_mem_goneTo (chain : grammar.Chain node hops last) (ends : grammar.Ends last)
    {name : String} (start : grammar.rules.find? name = some node) :
    name ∉ Hop.goneTo hops := by
  intro gone
  obtain ⟨body, rest, bound, again, shorter⟩ := chain.exists_of_mem_goneTo gone
  obtain rfl := Option.some.inj (bound.symm.trans start)
  obtain ⟨rfl, -⟩ := again.unique ends chain ends
  exact Nat.lt_irrefl _ shorter

/-- It goes to no rule twice. -/
theorem Chain.nodup_goneTo (chain : grammar.Chain node hops last) (ends : grammar.Ends last) :
    (Hop.goneTo hops).Nodup := by
  induction chain with
  | here => exact List.nodup_nil
  | hop step later induction =>
    cases step with
    | toRule _ _ bound =>
      exact List.nodup_cons.mpr ⟨later.not_mem_goneTo ends bound, induction ends⟩
    | intoToken => exact induction ends

/-- Every hop goes to a rule or into a token. -/
theorem length_eq_goneTo_add_count (hops : List Hop) :
    hops.length = (Hop.goneTo hops).length + hops.count .intoToken := by
  induction hops with
  | nil => rfl
  | cons hop hops induction =>
    cases hop with
    | toRule name =>
      have other : Hop.toRule name ≠ .intoToken := nofun
      rw [List.count_cons_of_ne other]
      simp only [Hop.goneTo, List.length_cons]
      omega
    | intoToken =>
      rw [List.count_cons_self]
      simp only [Hop.goneTo, List.length_cons]
      omega

/-- The rules that a chain does not go to. -/
def offChain (grammar : Grammar) (name : String) (hops : List Hop) : List String :=
  grammar.rules.names.filter fun other => other ∉ name :: Hop.goneTo hops

/-- A chain that ends stays within the bound exactly when it goes into no more tokens than
there are rules to which it does not go. -/
theorem Chain.length_lt_iff (chain : grammar.Chain node hops last) (ends : grammar.Ends last)
    {name : String} (start : grammar.rules.find? name = some node) :
    hops.length < grammar.rules.size ↔
      hops.count .intoToken ≤ (grammar.offChain name hops).length := by
  have apart : (name :: Hop.goneTo hops).Nodup :=
    List.nodup_cons.mpr ⟨chain.not_mem_goneTo ends start, chain.nodup_goneTo ends⟩
  have areRules : name :: Hop.goneTo hops ⊆ grammar.rules.names := by
    intro other member
    have isBound : ∃ body, grammar.rules.find? other = some body := by
      rcases List.mem_cons.mp member with rfl | gone
      · exact ⟨node, start⟩
      · obtain ⟨body, _, bound, _⟩ := chain.exists_of_mem_goneTo gone
        exact ⟨body, bound⟩
    obtain ⟨body, bound⟩ := isBound
    exact List.mem_map_of_mem ((Table.find?_eq_some_iff _ _ _).mp bound)
  have split : (name :: Hop.goneTo hops).length + (grammar.offChain name hops).length =
      grammar.rules.size := by
    have onChain : (grammar.rules.names.filter fun other => other ∈ name :: Hop.goneTo hops).Perm
        (name :: Hop.goneTo hops) := by
      have distinct : grammar.rules.names.Nodup := grammar.rules.distinct
      rw [List.perm_ext_iff_of_nodup (distinct.filter _) apart]
      intro other
      rw [List.mem_filter, decide_eq_true_eq]
      exact ⟨And.right, fun member => ⟨areRules member, member⟩⟩
    have whole := List.length_eq_length_filter_add (l := grammar.rules.names)
      fun other => other ∈ name :: Hop.goneTo hops
    rw [onChain.length_eq] at whole
    simpa [offChain, Table.names, Table.size] using whole.symm
  have length := length_eq_goneTo_add_count hops
  rw [List.length_cons] at split
  omega

/-! ## Ends and cycles -/

/-- What the chain from the body of a rule comes to is a node of some rule. -/
theorem Chain.mem_nodes (chain : grammar.Chain node hops last)
    (inside : ∃ rule ∈ grammar.rules.values, rule.Reaches node) :
    ∃ rule ∈ grammar.rules.values, rule.Reaches last := by
  induction chain with
  | here => exact inside
  | @hop node next _ _ _ step _ induction =>
    apply induction
    cases step with
    | toRule _ _ bound =>
      exact ⟨next, List.mem_map_of_mem ((Table.find?_eq_some_iff _ _ _).mp bound), .here _⟩
    | intoToken _ holds =>
      obtain ⟨rule, isRule, reached⟩ := inside
      have below : next ∈ node.children := by simp [Rule.children, holds]
      exact ⟨rule, isRule, reached.trans (.through below (.here _))⟩

/-- The chain from the body of a rule ends, or it cycles. The rules have finitely many
nodes, so if the chain comes to none of them twice it cannot go on forever. -/
theorem exists_end_or_cycles {name : String} (start : grammar.rules.find? name = some node) :
    (∃ hops last, grammar.Chain node hops last ∧ grammar.Ends last) ∨ grammar.Cycles node := by
  by_cases cycles : grammar.Cycles node
  · exact .inr cycles
  left
  let Met := { met : Rule // ∃ hops, grammar.Chain node hops met }
  have isRule : node ∈ grammar.rules.values :=
    List.mem_map_of_mem ((Table.find?_eq_some_iff _ _ _).mp start)
  have finite : Finite Met := by
    let nodes := grammar.rules.values.flatMap Rule.nodes
    have inNodes (met : Met) : met.1 ∈ nodes := by
      obtain ⟨hops, chain⟩ := met.2
      obtain ⟨rule, member, reached⟩ := chain.mem_nodes ⟨node, isRule, .here node⟩
      exact List.mem_flatMap.mpr ⟨rule, member, (Rule.mem_nodes_iff_reaches _ _).mpr reached⟩
    exact Finite.of_injective (fun met : Met => (⟨met.1, inNodes met⟩ : { n // n ∈ nodes }))
      fun one other same => Subtype.ext (congrArg (fun n => n.1) same)
  let Later (one other : Met) : Prop := ∃ hop hops, grammar.Chain other.1 (hop :: hops) one.1
  have transitive : IsTrans Met Later := ⟨by
    rintro one middle other ⟨hop, hops, first⟩ ⟨hop', hops', second⟩
    exact ⟨hop', hops' ++ hop :: hops, second.append first⟩⟩
  have irreflexive : Std.Irrefl Later := ⟨by
    rintro ⟨met, hops, chain⟩ ⟨hop, loop, back⟩
    exact cycles ⟨hops, met, hop, loop, chain, back⟩⟩
  have wellFounded : WellFounded Later := Finite.wellFounded_of_trans_of_irrefl Later
  have ended (met : Met) : ∃ hops last, grammar.Chain met.1 hops last ∧ grammar.Ends last := by
    induction met using wellFounded.induction with
    | _ met induction =>
      by_cases ends : grammar.Ends met.1
      · exact ⟨[], met.1, .here _, ends⟩
      · simp only [Ends, not_forall, not_not] at ends
        obtain ⟨hop, next, step⟩ := ends
        obtain ⟨before, chain⟩ := met.2
        have one : grammar.Chain met.1 [hop] next := .hop step (.here next)
        obtain ⟨hops, last, later, ends⟩ :=
          induction ⟨next, before ++ [hop], chain.append one⟩ ⟨hop, [], one⟩
        exact ⟨hop :: hops, last, .hop step later, ends⟩
  exact ended ⟨node, [], .here node⟩

/-- A chain that ends goes on to its end from wherever it comes. -/
theorem Chain.exists_rest (chain : grammar.Chain node hops last) (ends : grammar.Ends last)
    {met : Rule} (comes : grammar.Chain node hops' met) :
    ∃ rest, grammar.Chain met rest last := by
  induction comes generalizing hops with
  | here => exact ⟨hops, chain⟩
  | hop step _ induction =>
    cases chain with
    | here => exact absurd step (ends _ _)
    | hop step' later =>
      obtain ⟨-, rfl⟩ := step.unique step'
      exact induction later

/-- A chain that ends does not cycle: from a node to which it came back, it would be as far
from its end as before. -/
theorem Chain.not_cycles (chain : grammar.Chain node hops last) (ends : grammar.Ends last) :
    ¬ grammar.Cycles node := by
  rintro ⟨before, again, hop, loop, first, back⟩
  obtain ⟨rest, toEnd⟩ := chain.exists_rest ends first
  obtain ⟨same, -⟩ := (back.append toEnd).unique ends toEnd ends
  have lengths := congrArg List.length same
  simp only [List.length_append, List.length_cons] at lengths
  omega

/-! ## The search -/

/-- Within a limit the search finds the pattern that the chain comes to in fewer hops. -/
theorem wordPatternWithin_eq_some_iff (limit : Nat) (node : Rule) (pattern : String) :
    grammar.wordPatternWithin limit node = some pattern ↔
      ∃ hops last, grammar.Chain node hops last ∧ last.patternValue? = some pattern ∧
        hops.length < limit := by
  induction limit generalizing node with
  | zero => simp [wordPatternWithin]
  | succ limit induction =>
    rw [wordPatternWithin]
    cases here : node.patternValue? with
    | some found =>
      simp only [Option.some.injEq]
      constructor
      · rintro rfl
        exact ⟨[], node, .here node, here, Nat.succ_pos limit⟩
      · rintro ⟨hops, last, chain, atEnd, -⟩
        obtain ⟨-, rfl⟩ := (Chain.here node).unique (ends_of_patternValue? here) chain
          (ends_of_patternValue? atEnd)
        exact Option.some.inj (here.symm.trans atEnd)
    | none =>
      simp only [Option.bind_eq_some_iff, induction, wordStep?_eq_some_iff]
      constructor
      · rintro ⟨next, ⟨hop, step⟩, hops, last, later, atEnd, bound⟩
        exact ⟨hop :: hops, last, .hop step later, atEnd, Nat.succ_lt_succ bound⟩
      · rintro ⟨hops, last, chain, atEnd, bound⟩
        cases chain with
        | here => simp [here] at atEnd
        | hop step later =>
          exact ⟨_, ⟨_, step⟩, _, _, later, atEnd, Nat.lt_of_succ_lt_succ bound⟩

/-- From a rule the search finds the pattern that its chain comes to, if there are enough
rules off the chain for the tokens on it. -/
theorem patternFrom?_eq_some_iff (grammar : Grammar) (name pattern : String) :
    grammar.patternFrom? name = some pattern ↔
      ∃ body hops last, grammar.rules.find? name = some body ∧ grammar.Chain body hops last ∧
        last.patternValue? = some pattern ∧
          hops.count .intoToken ≤ (grammar.offChain name hops).length := by
  simp only [patternFrom?, Option.bind_eq_some_iff, wordPatternWithin_eq_some_iff]
  constructor
  · rintro ⟨body, start, hops, last, chain, atEnd, bound⟩
    exact ⟨body, hops, last, start, chain, atEnd,
      (chain.length_lt_iff (ends_of_patternValue? atEnd) start).mp bound⟩
  · rintro ⟨body, hops, last, start, chain, atEnd, fit⟩
    exact ⟨body, start, hops, last, chain, atEnd,
      (chain.length_lt_iff (ends_of_patternValue? atEnd) start).mpr fit⟩

/-- What the search for the pattern of words finds from a rule, and when it finds nothing.
It finds the pattern at the end of the chain, unless the chain goes into more tokens than
there are rules off the chain. It finds nothing from a name that is no rule, from a chain
that cycles, from one that ends in a node that is no pattern, and from one with more tokens
than that. -/
theorem pattern_found_iff_tokens_fit (grammar : Grammar) (name : String) :
    (∀ pattern, grammar.patternFrom? name = some pattern ↔
      ∃ body hops last, grammar.rules.find? name = some body ∧ grammar.Chain body hops last ∧
        last.patternValue? = some pattern ∧
          hops.count .intoToken ≤ (grammar.offChain name hops).length) ∧
    (grammar.patternFrom? name = none ↔ grammar.rules.find? name = none ∨
      ∃ body, grammar.rules.find? name = some body ∧ (grammar.Cycles body ∨
        ∃ hops last, grammar.Chain body hops last ∧ grammar.Ends last ∧
          (last.patternValue? = none ∨
            (grammar.offChain name hops).length < hops.count .intoToken))) := by
  have found := patternFrom?_eq_some_iff grammar name
  refine ⟨found, ?_⟩
  rw [Option.eq_none_iff_forall_ne_some]
  constructor
  · intro missed
    cases start : grammar.rules.find? name with
    | none => exact .inl rfl
    | some body =>
      refine .inr ⟨body, rfl, ?_⟩
      rcases exists_end_or_cycles start with ⟨hops, last, chain, ends⟩ | cycles
      · refine .inr ⟨hops, last, chain, ends, ?_⟩
        cases atEnd : last.patternValue? with
        | none => exact .inl rfl
        | some pattern =>
          refine .inr (Nat.lt_of_not_le fun fit => missed pattern ?_)
          exact (found pattern).mpr ⟨body, hops, last, start, chain, atEnd, fit⟩
      · exact .inl cycles
  · intro cause pattern same
    obtain ⟨body, hops, last, start, chain, atEnd, fit⟩ := (found pattern).mp same
    have ends : grammar.Ends last := ends_of_patternValue? atEnd
    rcases cause with unknown | ⟨body', start', cycles | ⟨hops', last', chain', ends', unfit⟩⟩
    · simp [unknown] at start
    · obtain rfl := Option.some.inj (start.symm.trans start')
      exact chain.not_cycles ends cycles
    · obtain rfl := Option.some.inj (start.symm.trans start')
      obtain ⟨rfl, rfl⟩ := chain.unique ends chain' ends'
      rcases unfit with noPattern | many
      · simp [noPattern] at atEnd
      · exact Nat.not_lt_of_le fit many

/-- A grammar whose words are tokens twice over. -/
def wrapped : Grammar where
  name := "wrapped"
  rules := ⟨[("page", .string "if"), ("word", .token (.symbol "name")),
    ("name", .token (.pattern "[a-z]+"))], by simp⟩
  word := some "word"

/-- The chain of its words comes to a pattern, which is not found: there are two tokens on
the chain, and one rule off it. -/
theorem wrapped_pattern_missed :
    wrapped.patternFrom? "word" = none ∧
      ∃ body hops last, wrapped.rules.find? "word" = some body ∧
        wrapped.Chain body hops last ∧ last.patternValue? = some "[a-z]+" := by
  refine ⟨by decide, .token (.symbol "name"), [.intoToken, .toRule "name", .intoToken],
    .pattern "[a-z]+", by decide, ?_, rfl⟩
  have intoName : wrapped.Step (.token (.symbol "name")) .intoToken (.symbol "name") :=
    .intoToken rfl rfl
  have toName : wrapped.Step (.symbol "name") (.toRule "name") (.token (.pattern "[a-z]+")) :=
    .toRule rfl rfl (by decide)
  have intoPattern : wrapped.Step (.token (.pattern "[a-z]+")) .intoToken (.pattern "[a-z]+") :=
    .intoToken rfl rfl
  exact .hop intoName (.hop toName (.hop intoPattern (.here _)))

end Grammar

end GrammarArtifact
