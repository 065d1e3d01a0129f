import GrammarArtifact.Proofs.Table
import GrammarArtifact.Proofs.Validation.NeglectedNodes
import Mathlib.Logic.Relation

/-!
# Left-recursive rules

A rule derives sequences of terminals and symbols when no symbol is replaced by its rule. It
is left-recursive when one of these sequences begins with the rule's own symbol. Whether it
does can be read off the tree: from a node, a derivation goes on in the content of a wrapper,
in any branch of a choice, and in any member of a sequence that stands behind members which
derive nothing. So a symbol begins a derivation exactly when such ways lead to it.

The check follows plain ways only. It never goes past the first member of a sequence, and
contents of repetitions and of reserved contexts are not looked at. What it notes is left
recursive, and what it misses can only be reached over the ways that are not plain.
-/

namespace GrammarArtifact.Validation

/-! ## Derivations -/

/-- What derived sequences are made of. -/
inductive Item
  | terminal
  | symbol (name : String)
deriving DecidableEq, Repr

mutual

/-- A rule derives a sequence, where symbols stand for themselves and a token is one
terminal, however it is put together. -/
inductive Derives : Rule → List Item → Prop
  | blank {rule : Rule} (kind : rule.kind = .blank) : Derives rule []
  | terminal {rule : Rule} (kind : rule.kind ∈ [.string, .pattern, .token, .immediateToken]) :
      Derives rule [.terminal]
  | symbol {rule : Rule} {name : String} (kind : rule.kind = .symbol)
      (named : rule.name = some name) : Derives rule [.symbol name]
  | choice {rule member : Rule} {items : List Item} (kind : rule.kind = .choice)
      (isMember : member ∈ rule.members) (below : Derives member items) : Derives rule items
  | seq {rule : Rule} {items : List Item} (kind : rule.kind = .seq)
      (row : DerivesRow rule.members items) : Derives rule items
  | many {rule content : Rule} {items : List Item} (times : Nat) (kind : rule.kind = .many)
      (holds : rule.content = some content)
      (row : DerivesRow (List.replicate times content) items) : Derives rule items
  | many1 {rule content : Rule} {items : List Item} (times : Nat) (kind : rule.kind = .many1)
      (holds : rule.content = some content)
      (row : DerivesRow (List.replicate (times + 1) content) items) : Derives rule items
  | wrapper {rule content : Rule} {items : List Item}
      (kind : rule.kind ∈
        [.prec, .precLeft, .precRight, .precDynamic, .field, .aliased, .reserved])
      (holds : rule.content = some content) (below : Derives content items) : Derives rule items

/-- Rules one after the other derive what they derive one after the other. -/
inductive DerivesRow : List Rule → List Item → Prop
  | nil : DerivesRow [] []
  | cons {rule : Rule} {rest : List Rule} {items more : List Item} (first : Derives rule items)
      (behind : DerivesRow rest more) : DerivesRow (rule :: rest) (items ++ more)

end

/-- Members that derive nothing can be put in front. -/
theorem DerivesRow.of_passed {passed rules : List Rule} {items : List Item}
    (nothing : ∀ member ∈ passed, Derives member []) (row : DerivesRow rules items) :
    DerivesRow (passed ++ rules) items := by
  induction passed with
  | nil => exact row
  | cons member rest induction =>
    exact .cons (nothing member List.mem_cons_self)
      (induction fun other inRest => nothing other (List.mem_cons_of_mem _ inRest))

theorem exists_derivesRow {rules : List Rule}
    (each : ∀ rule ∈ rules, ∃ items, Derives rule items) : ∃ items, DerivesRow rules items := by
  induction rules with
  | nil => exact ⟨[], .nil⟩
  | cons rule rest induction =>
    obtain ⟨items, first⟩ := each rule List.mem_cons_self
    obtain ⟨more, behind⟩ := induction fun other inRest =>
      each other (List.mem_cons_of_mem _ inRest)
    exact ⟨items ++ more, .cons first behind⟩

/-! ## Where derivations begin -/

/-- A derivation of a node can begin with what the child derives. -/
inductive Opens : Rule → Rule → Prop
  | member {node child : Rule} {passed rest : List Rule} (kind : node.kind = .seq)
      (members : node.members = passed ++ child :: rest)
      (nothing : ∀ member ∈ passed, Derives member []) : Opens node child
  | branch {node child : Rule} (kind : node.kind = .choice) (isMember : child ∈ node.members) :
      Opens node child
  | content {node child : Rule}
      (kind : node.kind ∈ [.many, .many1, .prec, .precLeft, .precRight, .precDynamic, .field,
        .aliased, .reserved])
      (holds : node.content = some child) : Opens node child

/-- The check goes on from a node to the child. -/
inductive OpensPlainly : Rule → Rule → Prop
  | member {node child : Rule} {rest : List Rule} (kind : node.kind = .seq)
      (members : node.members = child :: rest) : OpensPlainly node child
  | branch {node child : Rule} (kind : node.kind = .choice) (isMember : child ∈ node.members) :
      OpensPlainly node child
  | content {node child : Rule}
      (kind : node.kind ∈ [.prec, .precLeft, .precRight, .precDynamic, .field, .aliased])
      (holds : node.content = some child) : OpensPlainly node child

/-- Some way leads from a rule to a symbol of a given name. -/
def LeadsTo (step : Rule → Rule → Prop) (rule : Rule) (name : String) : Prop :=
  ∃ node, Relation.ReflTransGen step rule node ∧ node.symbolName? = some name

theorem OpensPlainly.opens {node child : Rule} (plain : OpensPlainly node child) :
    Opens node child := by
  cases plain with
  | member kind members => exact @Opens.member node child [] _ kind members (by simp)
  | branch kind isMember => exact .branch kind isMember
  | content kind holds =>
    refine .content ?_ holds
    simp only [List.mem_cons, List.not_mem_nil, or_false] at kind ⊢
    rcases kind with kind | kind | kind | kind | kind | kind <;> simp [kind]

theorem Opens.mem_checkedChildren {node child : Rule} (opened : Opens node child) :
    child ∈ node.checkedChildren := by
  cases opened with
  | member kind members => simp [Rule.checkedChildren, kind, members]
  | branch kind isMember => simpa [Rule.checkedChildren, kind] using isMember
  | content kind holds =>
    simp only [List.mem_cons, List.not_mem_nil, or_false] at kind
    rcases kind with kind | kind | kind | kind | kind | kind | kind | kind | kind <;>
      simp [Rule.checkedChildren, RuleKind.isWrapper, kind, holds]

theorem symbolName?_eq_some_iff (node : Rule) (name : String) :
    node.symbolName? = some name ↔ node.kind = .symbol ∧ node.name = some name := by
  simp [Rule.symbolName?, Rule.isSymbol]

theorem leadsTo_iff (step : Rule → Rule → Prop) (rule : Rule) (name : String) :
    LeadsTo step rule name ↔
      rule.symbolName? = some name ∨ ∃ child, step rule child ∧ LeadsTo step child name := by
  constructor
  · rintro ⟨node, way, isSymbol⟩
    rcases Relation.ReflTransGen.cases_head way with rfl | ⟨child, first, rest⟩
    · exact .inl isSymbol
    · exact .inr ⟨child, first, node, rest, isSymbol⟩
  · rintro (isSymbol | ⟨child, first, node, rest, isSymbol⟩)
    · exact ⟨rule, .refl, isSymbol⟩
    · exact ⟨node, .head first rest, isSymbol⟩

mutual

/-- A derivation that begins with a symbol has taken some way to it. -/
theorem leadsTo_of_derives {rule : Rule} {items : List Item} {name : String}
    {rest : List Item} : Derives rule items → items = .symbol name :: rest →
      LeadsTo Opens rule name
  | .blank _, same => by contradiction
  | .terminal _, same => by simp at same
  | .symbol kind named, same => by
    simp only [List.cons.injEq, Item.symbol.injEq] at same
    exact (leadsTo_iff Opens _ _).mpr
      (.inl ((symbolName?_eq_some_iff _ _).mpr ⟨kind, same.1 ▸ named⟩))
  | .choice kind isMember below, same =>
    (leadsTo_iff Opens _ _).mpr (.inr ⟨_, .branch kind isMember, leadsTo_of_derives below same⟩)
  | .seq kind row, same => by
    obtain ⟨passed, child, after, members, nothing, way⟩ := leadsTo_of_derivesRow row same
    exact (leadsTo_iff Opens _ _).mpr (.inr ⟨child, .member kind members nothing, way⟩)
  | @Derives.many _ content _ times kind holds row, same => by
    obtain ⟨passed, child, after, members, _, way⟩ := leadsTo_of_derivesRow row same
    have inRow : child ∈ List.replicate times content := by rw [members]; simp
    obtain rfl := List.eq_of_mem_replicate inRow
    exact (leadsTo_iff Opens _ _).mpr (.inr ⟨child, .content (by simp [kind]) holds, way⟩)
  | @Derives.many1 _ content _ times kind holds row, same => by
    obtain ⟨passed, child, after, members, _, way⟩ := leadsTo_of_derivesRow row same
    have inRow : child ∈ List.replicate (times + 1) content := by rw [members]; simp
    obtain rfl := List.eq_of_mem_replicate inRow
    exact (leadsTo_iff Opens _ _).mpr (.inr ⟨child, .content (by simp [kind]) holds, way⟩)
  | .wrapper kind holds below, same => by
    have among := List.mem_cons_of_mem RuleKind.many (List.mem_cons_of_mem RuleKind.many1 kind)
    exact (leadsTo_iff Opens _ _).mpr
      (.inr ⟨_, .content among holds, leadsTo_of_derives below same⟩)

/-- In a row, the members before the one that the symbol comes from have derived nothing. -/
theorem leadsTo_of_derivesRow {rules : List Rule} {items : List Item} {name : String}
    {rest : List Item} : DerivesRow rules items → items = .symbol name :: rest →
      ∃ passed child after, rules = passed ++ child :: after ∧
        (∀ member ∈ passed, Derives member []) ∧ LeadsTo Opens child name
  | .nil, same => by contradiction
  | @DerivesRow.cons rule _ [] _ first behind, same => by
    obtain ⟨passed, child, after, rfl, nothing, way⟩ := leadsTo_of_derivesRow behind same
    refine ⟨rule :: passed, child, after, rfl, ?_, way⟩
    intro member inPassed
    rcases List.mem_cons.mp inPassed with rfl | later
    · exact first
    · exact nothing member later
  | @DerivesRow.cons rule rules (item :: more) _ first behind, same => by
    simp only [List.cons_append, List.cons.injEq] at same
    have begins : item :: more = .symbol name :: more := by rw [same.1]
    exact ⟨[], rule, rules, rfl, by simp, leadsTo_of_derives first begins⟩

end

/-- When all that the checks go on to derives something, a derivation of a node can begin
with any derivation of a child that opens it. -/
theorem Opens.exists_derives_append {node child : Rule} {items : List Item}
    (opened : Opens node child) (below : Derives child items)
    (others : ∀ other ∈ node.checkedChildren, ∃ items, Derives other items) :
    ∃ more, Derives node (items ++ more) := by
  cases opened with
  | @member passed rest kind members nothing =>
    have isMember (other : Rule) (inRest : other ∈ rest) : other ∈ node.checkedChildren := by
      simp [Rule.checkedChildren, kind, members, inRest]
    obtain ⟨more, behind⟩ := exists_derivesRow fun other inRest =>
      others other (isMember other inRest)
    refine ⟨more, .seq kind ?_⟩
    rw [members]
    exact .of_passed nothing (.cons below behind)
  | branch kind isMember =>
    refine ⟨[], .choice kind isMember ?_⟩
    rwa [List.append_nil]
  | content kind holds =>
    have once : DerivesRow [child] (items ++ []) := .cons below .nil
    refine ⟨[], ?_⟩
    rcases List.mem_cons.mp kind with isMany | kind
    · exact .many 1 isMany holds once
    · rcases List.mem_cons.mp kind with isMany1 | kind
      · exact .many1 0 isMany1 holds once
      · rw [List.append_nil]
        exact .wrapper kind holds below

/-- A rule whose checked nodes are well formed derives something. -/
theorem exists_derives {grammar : Grammar} (rule : Rule)
    (wellFormed : ∀ node ∈ rule.checked, node.WellFormed grammar) :
    ∃ items, Derives rule items := by
  induction rule using Rule.childInduction with
  | step rule induction =>
    have self := wellFormed rule ((Rule.mem_checked_iff rule rule).mpr (.inl rfl))
    have below (child : Rule) (isChecked : child ∈ rule.checkedChildren) :
        ∃ items, Derives child items := by
      apply induction child (Rule.mem_children_of_checked isChecked)
      intro node inChild
      apply wellFormed
      exact (Rule.mem_checked_iff rule node).mpr (.inr ⟨child, isChecked, inChild⟩)
    cases kind : rule.kind
    case blank => exact ⟨[], .blank kind⟩
    case string | pattern | token | immediateToken => exact ⟨_, .terminal (by simp [kind])⟩
    case symbol =>
      obtain ⟨name, named, _⟩ := self.symbol kind
      exact ⟨_, .symbol kind named⟩
    case choice =>
      obtain ⟨member, isMember⟩ := List.exists_mem_of_ne_nil _ (self.choice kind)
      obtain ⟨items, derived⟩ := below member (by simpa [Rule.checkedChildren, kind] using isMember)
      exact ⟨items, .choice kind isMember derived⟩
    case seq =>
      have each (member : Rule) (isMember : member ∈ rule.members) :
          ∃ items, Derives member items :=
        below member (by simpa [Rule.checkedChildren, kind] using isMember)
      obtain ⟨items, row⟩ := exists_derivesRow each
      exact ⟨items, .seq kind row⟩
    all_goals
      obtain ⟨content, holds⟩ := self.content (by simp [kind, RuleKind.isWrapper])
      have opened : Opens rule content := .content (by simp [kind]) holds
      obtain ⟨items, derived⟩ := below content opened.mem_checkedChildren
      obtain ⟨more, whole⟩ := opened.exists_derives_append derived below
      exact ⟨_, whole⟩

/-- When the checked nodes are well formed, a rule derives a sequence that begins with a
symbol exactly when some way leads to the symbol. -/
theorem derives_symbol_first_iff {grammar : Grammar} (rule : Rule) (name : String)
    (wellFormed : ∀ node ∈ rule.checked, node.WellFormed grammar) :
    (∃ rest, Derives rule (.symbol name :: rest)) ↔ LeadsTo Opens rule name := by
  constructor
  · rintro ⟨rest, derived⟩
    exact leadsTo_of_derives derived rfl
  · rintro ⟨node, way, isSymbol⟩
    induction way using Relation.ReflTransGen.head_induction_on with
    | refl =>
      obtain ⟨kind, named⟩ := (symbolName?_eq_some_iff node name).mp isSymbol
      exact ⟨[], .symbol kind named⟩
    | @head rule child opened _ induction =>
      have isChecked := opened.mem_checkedChildren
      have inside {other node : Rule} (isChecked : other ∈ rule.checkedChildren)
          (inOther : node ∈ other.checked) : node.WellFormed grammar :=
        wellFormed node ((Rule.mem_checked_iff rule node).mpr (.inr ⟨other, isChecked, inOther⟩))
      obtain ⟨rest, below⟩ := induction fun node => inside isChecked
      obtain ⟨more, whole⟩ := opened.exists_derives_append below fun other isOther =>
        exists_derives other fun node => inside isOther
      exact ⟨rest ++ more, whole⟩

/-! ## What is noted -/

theorem anyBeginsWith_iff (name : String) (rules : List Rule) :
    anyBeginsWith name rules = true ↔ ∃ rule ∈ rules, beginsWith name rule = true := by
  induction rules with
  | nil => simp [anyBeginsWith]
  | cons rule rest induction => simp [anyBeginsWith, induction]

/-- The check finds the symbol in a node itself, or in a child that it goes on to. -/
theorem beginsWith_iff_here_or_child (name : String) (rule : Rule) :
    beginsWith name rule = true ↔
      rule.symbolName? = some name ∨
        ∃ child, OpensPlainly rule child ∧ beginsWith name child = true := by
  obtain ⟨kind, value, own, content, members, named, flags, contextName⟩ := rule
  constructor
  · intro finds
    cases kind
    case symbol =>
      rw [beginsWith, beq_iff_eq] at finds
      exact .inl ((symbolName?_eq_some_iff _ name).mpr ⟨rfl, finds⟩)
    case seq =>
      cases members with
      | nil => simp [beginsWith, firstBeginsWith] at finds
      | cons first rest => exact .inr ⟨first, .member rfl rfl, by rwa [beginsWith] at finds⟩
    case choice =>
      rw [beginsWith] at finds
      obtain ⟨child, isMember, below⟩ := (anyBeginsWith_iff name members).mp finds
      exact .inr ⟨child, .branch rfl isMember, below⟩
    case prec | precLeft | precRight | precDynamic | field | aliased =>
      cases content with
      | none => simp [beginsWith, contentBeginsWith] at finds
      | some child => exact .inr ⟨child, .content (by simp) rfl, by rwa [beginsWith] at finds⟩
    all_goals simp [beginsWith] at finds
  · rintro (isSymbol | ⟨child, opened, below⟩)
    · obtain ⟨rfl, rfl⟩ := (symbolName?_eq_some_iff _ name).mp isSymbol
      simp [beginsWith]
    · cases opened with
      | member isSeq first =>
        obtain rfl : kind = .seq := isSeq
        obtain rfl : members = _ := first
        rwa [beginsWith, firstBeginsWith]
      | branch isChoice isMember =>
        obtain rfl : kind = .choice := isChoice
        rw [beginsWith]
        exact (anyBeginsWith_iff name members).mpr ⟨child, isMember, below⟩
      | content among holds =>
        obtain rfl : content = some child := holds
        simp only [List.mem_cons, List.not_mem_nil, or_false] at among
        rcases among with rfl | rfl | rfl | rfl | rfl | rfl <;>
          rwa [beginsWith, contentBeginsWith]

/-- The check finds a symbol exactly when some plain way leads to it. -/
theorem beginsWith_iff_leadsTo (name : String) (rule : Rule) :
    beginsWith name rule = true ↔ LeadsTo OpensPlainly rule name := by
  induction rule using Rule.childInduction with
  | step rule induction =>
    rw [beginsWith_iff_here_or_child, leadsTo_iff]
    refine or_congr_right (exists_congr fun child => and_congr_right fun opened => ?_)
    exact induction child (Rule.mem_children_of_checked opened.opens.mem_checkedChildren)

/-- A name is noted exactly when the check finds it in the rule that it names. -/
theorem mem_leftRecursiveRules_iff {grammar : Grammar} {name : String} {rule : Rule}
    (isRule : (name, rule) ∈ grammar.rules.entries) :
    name ∈ leftRecursiveRules grammar ↔ beginsWith name rule = true := by
  simp only [leftRecursiveRules, List.mem_map, List.mem_filter]
  constructor
  · rintro ⟨⟨name', rule'⟩, ⟨isRule', finds⟩, rfl⟩
    -- A name is that of one rule only.
    have bound := (grammar.rules.find?_eq_some_iff _ rule).mpr isRule
    rw [(grammar.rules.find?_eq_some_iff _ rule').mpr isRule'] at bound
    exact Option.some.inj bound ▸ finds
  · intro finds
    exact ⟨(name, rule), ⟨isRule, finds⟩, rfl⟩

/-- A warning is worded by its kind or by the rule first. -/
theorem Warning.message_eq_append (warning : Warning) :
    ∃ rest, warning.message = "unreachable rule '" ++ rest ∨
      warning.message = "rule '" ++ rest := by
  cases warning with
  | unreachableRule rule => exact ⟨rule ++ "'", .inl (String.append_assoc ..)⟩
  | mixedPrecedence rule levels =>
    obtain ⟨list, spelled⟩ : ∃ list, (mixedPrecedence rule levels).message =
      "rule '" ++ rule ++ "' has multiple precedence levels: [" ++ list ++ "]" := ⟨_, rfl⟩
    rw [String.append_assoc, String.append_assoc, String.append_assoc] at spelled
    exact ⟨_, .inr spelled⟩

/-- So no warning is worded like a note about left recursion. -/
theorem Warning.message_ne_note (warning : Warning) :
    warning.message ≠ "left-recursive rule" := by
  intro same
  have letters := congrArg String.toList same
  obtain ⟨rest, spelled | spelled⟩ := warning.message_eq_append
  · rw [spelled, String.toList_append] at letters
    exact absurd (List.cons.inj letters).1 (by decide)
  · rw [spelled, String.toList_append] at letters
    exact absurd (List.cons.inj letters).1 (by decide)

/-- An accepted grammar has one note for each name that is noted, in their order. -/
theorem notes_eq_recursionEvents {grammar : Grammar} {found : List Warning}
    (accepted : grammar.validate.value = .ok found) :
    grammar.validate.events.filter (·.message = "left-recursive rule") =
      recursionEvents grammar := by
  have clean := ((validate_eq_ok_iff grammar found).mp accepted).1
  have notes : (recursionEvents grammar).filter (·.message = "left-recursive rule") =
      recursionEvents grammar := by
    rw [List.filter_eq_self]
    intro event isNote
    obtain ⟨name, _, rfl⟩ := List.mem_map.mp isNote
    exact decide_eq_true rfl
  have others : (warningEvents grammar (warnings grammar)).filter
      (·.message = "left-recursive rule") = [] := by
    rw [List.filter_eq_nil_iff]
    intro event isWarning
    obtain ⟨warning, _, rfl⟩ := List.mem_map.mp isWarning
    simpa using warning.message_ne_note
  rw [Grammar.validate, fault?_eq_head?, clean]
  simp only [List.head?_nil, Logged.events_bind, Logged.events_tell, Logged.events_pure,
    List.append_nil, List.filter_append, notes, others]

/-- In an accepted grammar, rules are noted as left-recursive in their order, each at most
once. Those are noted from which a plain way leads to their own symbol. They derive a sequence
that begins with the symbol, and so do exactly the rules from which any way leads to it. -/
theorem left_recursion_noted_on_plain_ways (grammar : Grammar) (found : List Warning)
    (accepted : grammar.validate.value = .ok found) :
    ∃ noted : List String, noted.Sublist grammar.rules.names ∧
      grammar.validate.events.filter (·.message = "left-recursive rule") =
        (noted.map fun name =>
          { level := .debug, topic := .validation, message := "left-recursive rule",
            fields := [("grammar", .text grammar.name), ("rule", .text name)] }) ∧
      ∀ name rule, (name, rule) ∈ grammar.rules.entries →
        (name ∈ noted ↔ LeadsTo OpensPlainly rule name) ∧
        (name ∈ noted → ∃ rest, Derives rule (.symbol name :: rest)) ∧
        ((∃ rest, Derives rule (.symbol name :: rest)) ↔ LeadsTo Opens rule name) := by
  have clean := ((validate_eq_ok_iff grammar found).mp accepted).1
  refine ⟨leftRecursiveRules grammar, List.filter_sublist.map _,
    notes_eq_recursionEvents accepted, ?_⟩
  intro name rule isRule
  have isChecked : rule ∈ checkedRules grammar := by
    apply List.mem_append_left
    exact List.mem_append_left _ (List.mem_map_of_mem isRule)
  have noted := (mem_leftRecursiveRules_iff isRule).trans (beginsWith_iff_leadsTo name rule)
  have derives := derives_symbol_first_iff rule name fun node =>
    wellFormed_of_mem_checked clean isChecked
  refine ⟨noted, ?_, derives⟩
  intro isNoted
  obtain ⟨node, way, isSymbol⟩ := noted.mp isNoted
  have plain : OpensPlainly ≤ Opens := fun _ _ => OpensPlainly.opens
  exact derives.mpr ⟨node, Relation.ReflTransGen.mono plain rule node way, isSymbol⟩

/-- Sums, which begin with sums behind a precedence and a field, and terms, which do not. -/
def summed : Grammar where
  name := "summed"
  rules := ⟨[("sum", .choice [.symbol "term",
      .precLeft 1 (.seq [.field "left" (.symbol "sum"), .string "+", .symbol "term"])]),
    ("term", .seq [.pattern "[0-9]+", .choice [.blank, .symbol "term"]])], by simp⟩

theorem summed_noted :
    (∃ found, summed.validate.value = .ok found) ∧
      ∃ noted : List String, noted.Sublist ["sum", "term"] ∧ "sum" ∈ noted ∧ "term" ∉ noted ∧
        summed.validate.events.filter (·.message = "left-recursive rule") =
          noted.map fun name =>
            { level := .debug, topic := .validation, message := "left-recursive rule",
              fields := [("grammar", .text "summed"), ("rule", .text name)] } := by
  have accepted := (validate_eq_ok_iff summed _).mpr ⟨by decide, rfl⟩
  obtain ⟨noted, sublist, told, exact⟩ := left_recursion_noted_on_plain_ways summed _ accepted
  refine ⟨⟨_, accepted⟩, noted, sublist, ?_, ?_, told⟩
  · rw [(exact "sum" _ (.head _)).1, ← beginsWith_iff_leadsTo]
    decide
  · rw [(exact "term" _ (.tail _ (.head _))).1, ← beginsWith_iff_leadsTo]
    decide

/-- Three rules that begin with themselves: behind a member that can be empty, in a repetition
and in a reserved context. -/
def folded : Grammar where
  name := "folded"
  rules := ⟨[("page", .choice [.symbol "list", .symbol "pile", .symbol "kept"]),
    ("list", .seq [.choice [.string "x", .blank], .symbol "list"]),
    ("pile", .choice [.string "y", .many1 (.symbol "pile")]),
    ("kept", .choice [.string "z", { kind := .reserved, content := some (.symbol "kept") }])],
    by simp⟩

theorem folded_not_noted :
    (∃ found, folded.validate.value = .ok found) ∧
      folded.validate.events.filter (·.message = "left-recursive rule") = [] ∧
      ∀ entry ∈ folded.rules.entries, entry.1 ≠ "page" →
        ∃ rest, Derives entry.2 (.symbol entry.1 :: rest) := by
  have accepted := (validate_eq_ok_iff folded _).mpr ⟨by decide, rfl⟩
  have silent : leftRecursiveRules folded = [] := by decide
  refine ⟨⟨_, accepted⟩, ?_, ?_⟩
  · rw [notes_eq_recursionEvents accepted, recursionEvents, silent, List.map_nil]
  · have list : Derives (.symbol "list") [.symbol "list"] := .symbol rfl rfl
    have pile : Derives (.symbol "pile") [.symbol "pile"] := .symbol rfl rfl
    have kept : Derives (.symbol "kept") [.symbol "kept"] := .symbol rfl rfl
    have nothing : Derives (.choice [.string "x", .blank]) [] :=
      .choice rfl (.tail _ (.head _)) (.blank rfl)
    intro entry isRule notPage
    simp only [folded, List.mem_cons, List.not_mem_nil, or_false] at isRule
    rcases isRule with rfl | rfl | rfl | rfl
    · exact absurd rfl notPage
    · exact ⟨[], .seq rfl (.cons nothing (.cons list .nil))⟩
    · exact ⟨[], .choice rfl (.tail _ (.head _)) (.many1 0 rfl rfl (.cons pile .nil))⟩
    · exact ⟨[], .choice rfl (.tail _ (.head _)) (.wrapper (by decide) rfl kept)⟩

end GrammarArtifact.Validation
