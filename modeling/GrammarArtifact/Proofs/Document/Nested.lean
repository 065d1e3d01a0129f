import GrammarArtifact.Proofs.Document.Places
import GrammarArtifact.Proofs.Rule.Nodes

/-!
# Rules within the trees of documents

A way down a rule turns from a node to its content or to one of its members. The tree that a
rule is read from has the same ways: where the rule has a node, the tree has a tree that the
node is read from, and the other way round. Each turn takes from the brackets that may still
be opened. The rules of a grammar come from trees in the sections of its document, and every
tree there is read into a rule.
-/

namespace GrammarArtifact

/-! ## Ways -/

namespace Rule

/-- How a way goes on from a node. -/
inductive Turn
  | content
  | member (index : Nat)
deriving DecidableEq, Repr

/-- The node that a turn goes to. -/
def turn? (rule : Rule) : Turn → Option Rule
  | .content => rule.content
  | .member index => rule.members[index]?

/-- The node at the end of a way. -/
def at? (rule : Rule) : List Turn → Option Rule
  | [] => some rule
  | turn :: way => (rule.turn? turn).bind (·.at? way)

/-- The children of a node are where a turn can go to. -/
theorem mem_children_iff_turn? {rule child : Rule} :
    child ∈ rule.children ↔ ∃ turn, rule.turn? turn = some child := by
  rw [children, List.mem_append, Option.mem_toList, List.mem_iff_getElem?]
  constructor
  · rintro (content | ⟨index, member⟩)
    · exact ⟨.content, content⟩
    · exact ⟨.member index, member⟩
  · rintro ⟨turn, same⟩
    cases turn with
    | content => exact .inl same
    | member index => exact .inr ⟨index, same⟩

/-- What is reached from a rule is at the end of a way. -/
theorem reaches_iff_exists_at? {rule node : Rule} :
    rule.Reaches node ↔ ∃ way, rule.at? way = some node := by
  constructor
  · intro reached
    induction reached with
    | here rule => exact ⟨[], rfl⟩
    | through member _ induction =>
      obtain ⟨turn, same⟩ := mem_children_iff_turn?.mp member
      obtain ⟨way, found⟩ := induction
      exact ⟨turn :: way, by rw [at?, same, Option.bind_some, found]⟩
  · rintro ⟨way, found⟩
    induction way generalizing rule with
    | nil =>
      obtain rfl := Option.some.inj found
      exact .here rule
    | cons turn way induction =>
      obtain ⟨child, same, found⟩ := Option.bind_eq_some_iff.mp found
      exact .through (mem_children_iff_turn?.mpr ⟨turn, same⟩) (induction found)

end Rule

namespace Document

namespace Tree

/-- How a way goes on from a tree that is read as a rule. -/
inductive Turns : Tree → Rule.Turn → Tree → Prop
  | content {tree child : Tree} (held : Holds .rule tree "content" child) (solid : child ≠ .null) :
      Turns tree .content child
  | member {tree child : Tree} {items : List Tree} {index : Nat}
      (held : Holds .rule tree "members" (.list items)) (found : items[index]? = some child) :
      Turns tree (.member index) child

/-- A way leads from a tree that is read as a rule to another one inside of it. -/
inductive Leads : Tree → List Rule.Turn → Tree → Prop
  | here (tree : Tree) : Leads tree [] tree
  | turn {tree child last : Tree} {turn : Rule.Turn} {way : List Rule.Turn}
      (turns : tree.Turns turn child) (later : child.Leads way last) :
      Leads tree (turn :: way) last

/-- A tree within a section of a grammar is read as a rule. Of the values that a table holds for
a name only the last one is read into the grammar. -/
inductive Occurs : Shape → Tree → Tree → Prop
  | rule (tree : Tree) : Occurs (.record .rule) tree tree
  | item {shape : Shape} {items : List Tree} {item inner : Tree} (member : item ∈ items)
      (within : Occurs shape item inner) : Occurs (.listOf shape) (.list items) inner
  | entry {shape : Shape} {members : List (Quoted × Tree)} {name : String} {value inner : Tree}
      (last : (valuesOf name members).getLast? = some value)
      (within : Occurs shape value inner) : Occurs (.tableOf shape) (.object members) inner

end Tree

/-! ## Rules and their trees -/

/-- What a tree means as the members of a rule. -/
def Meaning.ruleMembers : Nat → Meaning (List Rule)
  | 0 => fun _ _ => False
  | inner + 1 => Meaning.list (Meaning.rule inner)

/-- What a tree means as a rule when at least one bracket may be opened. -/
theorem rule_succ (depth : Nat) :
    Meaning.rule (depth + 1) =
      Meaning.record ruleForm Parts.rule
        (ruleMeanings depth (Meaning.rule depth) (Meaning.ruleMembers depth)) default := by
  cases depth <;> rfl

/-- No rule is read when no bracket may be opened. -/
theorem exists_succ_of_rule {depth : Nat} {tree : Tree} {rule : Rule}
    (means : Meaning.rule depth tree rule) : ∃ inner, depth = inner + 1 := by
  cases depth with
  | zero => exact means.elim
  | succ inner => exact ⟨inner, rfl⟩

theorem places_rule : RecordSort.rule.places =
    ruleForm.keys.map fun key => ⟨ruleForm.label key, key.shape, key.nullable⟩ := rfl

section Rules

variable {depth : Nat} {tree child : Tree} {rule node : Rule} {turn : Rule.Turn}
  {way : List Rule.Turn}

/-- What stands at a place of a rule is the part of the rule. -/
theorem rule_part_of_holds (key : RuleKey) {value : Tree}
    (means : Meaning.rule (depth + 1) tree rule)
    (holds : Holds .rule tree (ruleForm.label key) value) :
    ruleMeanings depth (Meaning.rule depth) (Meaning.ruleMembers depth) key value
      (Parts.rule.get key rule) := by
  rw [rule_succ] at means
  exact RecordForm.part_of_holds key?_label_ruleForm (by decide) places_rule means holds

/-- A part of a rule that is not missing stands at its place. -/
theorem exists_rule_holds (key : RuleKey) (means : Meaning.rule (depth + 1) tree rule)
    (written : Parts.rule.get key rule ≠ Parts.rule.get key default) :
    ∃ value, Holds .rule tree (ruleForm.label key) value ∧
      ruleMeanings depth (Meaning.rule depth) (Meaning.ruleMembers depth) key value
        (Parts.rule.get key rule) := by
  rw [rule_succ] at means
  exact RecordForm.exists_holds_of_ne_blank key?_label_ruleForm (by decide) places_rule means
    written

/-- Where the tree of a rule can turn, the rule can. -/
theorem exists_turn?_of_turns (means : Meaning.rule depth tree rule)
    (turns : tree.Turns turn child) :
    ∃ inner node, inner < depth ∧ rule.turn? turn = some node ∧ Meaning.rule inner child node := by
  obtain ⟨inner, rfl⟩ := exists_succ_of_rule means
  cases turns with
  | content held solid =>
    rcases rule_part_of_holds .content means held with ⟨null, -⟩ | ⟨-, node, meant, same⟩
    · exact absurd null solid
    · exact ⟨inner, node, Nat.lt_succ_self inner, same.symm, meant⟩
  | @member _ items index held found =>
    cases inner with
    | zero => exact (rule_part_of_holds .members means held).elim
    | succ inner =>
      obtain ⟨_, ⟨⟩, meant⟩ := rule_part_of_holds .members means held
      obtain ⟨bound, same⟩ := List.getElem?_eq_some_iff.mp found
      have bound' : index < rule.members.length := meant.length_eq ▸ bound
      refine ⟨inner, rule.members[index], by omega, List.getElem?_eq_getElem bound', ?_⟩
      exact same ▸ meant.get bound bound'

/-- Where a rule can turn, its tree can. -/
theorem exists_turns_of_turn? (means : Meaning.rule depth tree rule)
    (same : rule.turn? turn = some node) :
    ∃ inner child, inner < depth ∧ tree.Turns turn child ∧ Meaning.rule inner child node := by
  obtain ⟨inner, rfl⟩ := exists_succ_of_rule means
  cases turn with
  | content =>
    have content : rule.content = some node := same
    have written : Parts.rule.get .content rule ≠ Parts.rule.get .content default := by
      simp [Parts.rule, content, default]
    obtain ⟨child, held, ⟨-, missing⟩ | ⟨solid, known, meant, same⟩⟩ :=
      exists_rule_holds .content means written
    · exact absurd missing written
    · obtain rfl : known = node := Option.some.inj (same.trans content)
      exact ⟨inner, child, Nat.lt_succ_self inner, .content held solid, meant⟩
  | member index =>
    obtain ⟨bound, found⟩ := List.getElem?_eq_some_iff.mp same
    have written : Parts.rule.get .members rule ≠ Parts.rule.get .members default :=
      List.ne_nil_of_length_pos (Nat.zero_lt_of_lt bound)
    obtain ⟨value, held, meant⟩ := exists_rule_holds .members means written
    cases inner with
    | zero => exact meant.elim
    | succ inner =>
      obtain ⟨items, rfl, meant⟩ := meant
      have bound' : index < items.length := meant.length_eq ▸ bound
      refine ⟨inner, items[index], by omega, .member held (List.getElem?_eq_getElem bound'), ?_⟩
      exact found ▸ meant.get bound' bound

/-- Where a way leads in the tree of a rule, there is a node of the rule that is read there. -/
theorem exists_at?_of_leads (means : Meaning.rule depth tree rule) (leads : tree.Leads way child) :
    ∃ inner node, rule.at? way = some node ∧ Meaning.rule (inner + 1) child node := by
  induction leads generalizing depth rule with
  | here tree =>
    obtain ⟨inner, rfl⟩ := exists_succ_of_rule means
    exact ⟨inner, rule, rfl, means⟩
  | turn turns _ induction =>
    obtain ⟨_, below, -, same, meant⟩ := exists_turn?_of_turns means turns
    obtain ⟨inner, node, found, meant⟩ := induction meant
    exact ⟨inner, node, by rw [Rule.at?, same, Option.bind_some, found], meant⟩

/-- Every node of a rule is read at the end of a way in the tree of the rule. -/
theorem exists_leads_of_at? (means : Meaning.rule depth tree rule)
    (found : rule.at? way = some node) : ∃ child, tree.Leads way child := by
  induction way generalizing depth tree rule with
  | nil => exact ⟨tree, .here tree⟩
  | cons turn way induction =>
    obtain ⟨below, same, found⟩ := Option.bind_eq_some_iff.mp found
    obtain ⟨_, next, -, turns, meant⟩ := exists_turns_of_turn? means same
    obtain ⟨child, leads⟩ := induction meant found
    exact ⟨child, .turn turns leads⟩

end Rules

/-! ## Grammars and their rules -/

/-- The rules of a part of a grammar. -/
def rulesIn : (key : GrammarKey) → Parts.grammar.Part key → List Rule
  | .rules, rules => rules.values
  | .extras, rules | .externals, rules => rules
  | .precedences, groups => groups.flatten
  | .reserved, groups => groups.values.flatten
  | .schema, _ | .name, _ | .inherits, _ | .inline, _ | .conflicts, _ | .word, _
  | .supertypes, _ => []

/-- The number of brackets that may be opened for a rule in a section of a grammar. -/
def GrammarKey.depth : GrammarKey → Nat
  | .precedences | .reserved => nestingLimit - 3
  | _ => nestingLimit - 2

section Grammars

variable {α : Type} {shape : Shape} {meaning : Meaning α} {rules : α → List Rule} {depth : Nat}

/-- The rules in what trees stand for are those that are read from the trees inside. -/
def Carries (shape : Shape) (meaning : Meaning α) (rules : α → List Rule) (depth : Nat) : Prop :=
  ∀ ⦃tree value⦄, meaning tree value →
    (∀ rule ∈ rules value, ∃ inner, Tree.Occurs shape tree inner ∧ Meaning.rule depth inner rule) ∧
      ∀ inner, Tree.Occurs shape tree inner → ∃ rule ∈ rules value, Meaning.rule depth inner rule

theorem Carries.congr {others : α → List Rule} (carries : Carries shape meaning rules depth)
    (same : ∀ value, rules value = others value) : Carries shape meaning others depth :=
  funext same ▸ carries

theorem carries_rule (depth : Nat) :
    Carries (.record .rule) (Meaning.rule depth) (fun rule => [rule]) depth := by
  intro tree rule means
  constructor
  · intro other member
    obtain rfl := List.mem_singleton.mp member
    exact ⟨tree, .rule tree, means⟩
  · intro inner occurs
    cases occurs with
    | rule => exact ⟨rule, List.mem_singleton_self rule, means⟩

theorem carries_plain (meaning : Meaning α) : Carries .plain meaning (fun _ => []) depth := by
  intro tree value _
  refine ⟨by simp, fun inner occurs => ?_⟩
  cases occurs

/-- A list carries what its elements carry. -/
theorem carries_list (carries : Carries shape meaning rules depth) :
    Carries (.listOf shape) (Meaning.list meaning) (fun values => values.flatMap rules) depth := by
  rintro _ values ⟨items, rfl, means⟩
  constructor
  · intro rule member
    obtain ⟨value, listed, member⟩ := List.mem_flatMap.mp member
    obtain ⟨index, bound, rfl⟩ := List.getElem_of_mem listed
    have bound' : index < items.length := means.length_eq ▸ bound
    obtain ⟨inner, occurs, meant⟩ := (carries (means.get bound' bound)).1 rule member
    exact ⟨inner, .item (List.getElem_mem bound') occurs, meant⟩
  · intro inner occurs
    cases occurs with
    | item listed occurs =>
      obtain ⟨index, bound, rfl⟩ := List.getElem_of_mem listed
      have bound' : index < values.length := means.length_eq ▸ bound
      obtain ⟨rule, member, meant⟩ := (carries (means.get bound bound')).2 inner occurs
      exact ⟨rule, List.mem_flatMap.mpr ⟨_, List.getElem_mem bound', member⟩, meant⟩

/-- The last value of a name stands for what a table holds under the name. -/
theorem last_value_of_table {members : List (Quoted × Tree)} {found : Table α}
    (means : Meaning.table meaning (.object members) found) (name : String) :
    Option.Rel meaning (valuesOf name members).getLast? (found.find? name) := by
  obtain ⟨_, ⟨⟩, entries, binds, rfl⟩ := means
  rw [Table.find?_ofBindings]
  exact last_value_of_binds binds name

/-- A table carries what its values carry. -/
theorem carries_table (carries : Carries shape meaning rules depth) :
    Carries (.tableOf shape) (Meaning.table meaning) (fun found => found.values.flatMap rules)
      depth := by
  intro tree found means
  obtain ⟨members, rfl, -⟩ := id means
  constructor
  · intro rule member
    obtain ⟨value, listed, member⟩ := List.mem_flatMap.mp member
    obtain ⟨⟨name, _⟩, entry, rfl⟩ := List.mem_map.mp listed
    have related := last_value_of_table means name
    rw [(found.find?_eq_some_iff name _).mpr entry] at related
    generalize last : (valuesOf name members).getLast? = item at related
    cases related with
    | some meant =>
      obtain ⟨inner, occurs, meant⟩ := (carries meant).1 rule member
      exact ⟨inner, .entry last occurs, meant⟩
  · intro inner occurs
    cases occurs with
    | @entry _ _ name _ _ last occurs =>
      have related := last_value_of_table means name
      rw [last] at related
      generalize bound : found.find? name = value at related
      cases related with
      | some meant =>
        obtain ⟨rule, member, meant⟩ := (carries meant).2 inner occurs
        have listed :=
          List.mem_map_of_mem (f := Prod.snd) ((found.find?_eq_some_iff name _).mp bound)
        exact ⟨rule, List.mem_flatMap.mpr ⟨_, listed, member⟩, meant⟩

/-- Every part of a grammar carries its rules. -/
theorem carries_grammarMeanings (key : GrammarKey) :
    Carries key.shape (grammarMeanings key) (rulesIn key) key.depth := by
  cases key with
  | schema | name | inherits | inline | conflicts | word | supertypes => exact carries_plain _
  | rules =>
    exact (carries_table (carries_rule _)).congr fun rules => List.flatMap_singleton' rules.values
  | extras | externals =>
    exact (carries_list (carries_rule _)).congr List.flatMap_singleton'
  | precedences =>
    refine (carries_list (carries_list (carries_rule _))).congr fun groups => ?_
    simp [rulesIn]
  | reserved =>
    refine (carries_table (carries_list (carries_rule _))).congr fun groups => ?_
    simp [rulesIn]

variable {tree : Tree} {grammar : Grammar}

theorem places_grammar : RecordSort.grammar.places =
    grammarForm.keys.map fun key => ⟨grammarForm.label key, key.shape, key.nullable⟩ := rfl

/-- Every rule of a grammar is read from a tree in its section of the document. -/
theorem exists_occurs_of_mem_rulesIn (means : Meaning.grammar tree grammar) (key : GrammarKey)
    {rule : Rule} (member : rule ∈ rulesIn key (Parts.grammar.get key grammar)) :
    ∃ part inner, Holds .grammar tree (grammarForm.label key) part ∧
      Tree.Occurs key.shape part inner ∧ Meaning.rule key.depth inner rule := by
  have blank : rulesIn key (Parts.grammar.get key { name := "", rules := .empty }) = [] := by
    cases key <;> rfl
  have written : Parts.grammar.get key grammar ≠
      Parts.grammar.get key { name := "", rules := .empty } := by
    intro same
    rw [same, blank] at member
    exact List.not_mem_nil member
  obtain ⟨part, held, meant⟩ :=
    RecordForm.exists_holds_of_ne_blank key?_label_grammarForm (by decide) places_grammar means
      written
  obtain ⟨inner, occurs, meant⟩ := (carries_grammarMeanings key meant).1 rule member
  exact ⟨part, inner, held, occurs, meant⟩

/-- Every tree in a section of the document is read into a rule of the grammar. -/
theorem exists_mem_rulesIn_of_occurs (means : Meaning.grammar tree grammar) (key : GrammarKey)
    {part inner : Tree} (held : Holds .grammar tree (grammarForm.label key) part)
    (occurs : Tree.Occurs key.shape part inner) :
    ∃ rule ∈ rulesIn key (Parts.grammar.get key grammar), Meaning.rule key.depth inner rule :=
  (carries_grammarMeanings key
    (RecordForm.part_of_holds key?_label_grammarForm (by decide) places_grammar means held)).2
      inner occurs

/-- The rule of a name is read from the last value that the document has for the name. -/
theorem exists_last_value (means : Meaning.grammar tree grammar) {name : String} {rule : Rule}
    (bound : grammar.rules.find? name = some rule) :
    ∃ members inner, Holds .grammar tree "rules" (.object members) ∧
      (valuesOf name members).getLast? = some inner ∧
        Meaning.rule (nestingLimit - 2) inner rule := by
  obtain ⟨_, table, holds⟩ := exists_holds_of_record .grammar GrammarKey.rules places_grammar
    key?_label_grammarForm (by decide) means rfl
  obtain ⟨members, rfl, -⟩ := id table
  have related : Option.Rel (Meaning.rule (nestingLimit - 2)) (valuesOf name members).getLast?
      (grammar.rules.find? name) := last_value_of_table table name
  rw [bound] at related
  generalize last : (valuesOf name members).getLast? = value at related
  cases related with
  | some meant => exact ⟨members, _, (holds _).mpr rfl, last, meant⟩

end Grammars

/-! ## Rules as they are written -/

/-- The empty rule as an object. -/
def blankObject : Tree :=
  .object [(.plain "type" (by decide), .string (.plain "BLANK" (by decide)))]

/-- A rule around another one as an object, which has the kind and the content before its other
labels. -/
def wrappingObject (kind : Quoted) (inner : Tree) (others : List (Quoted × Tree)) : Tree :=
  .object ((.plain "type" (by decide), .string kind) ::
    (.plain "content" (by decide), inner) :: others)

end Document

end GrammarArtifact
