import GrammarArtifact.Pattern.Engine
import GrammarArtifact.Proofs.Rule.Surface
import GrammarArtifact.Proofs.Symbols.Fields
import GrammarArtifact.Proofs.Symbols.KindTable
import GrammarArtifact.Rule.Build
import GrammarArtifact.Symbols
import GrammarArtifact.Text.Tables

/-!
# Which kinds a grammar has

Everything that asks for a number is listed here once for each time that it asks, without
any table: the end of the text, the rules, and what the rules show. A grammar has a
symbol table exactly when the first occurrences in this list, and the names of its
fields, are no more than the numbers. The table then holds the first occurrences and
nothing else. Rules come before everything that could take their keys, so each of them
keeps the place that it has in the grammar, and whether a kind can be seen depends on
that place alone.
-/

namespace GrammarArtifact

/-- The key that a node asks a number for where a rule shows it: that of the text of a
string, and that of the name of an alias, which is its text or else its name. -/
def Rule.shownKey? (node : Rule) : Option (String × Bool) :=
  match node.kind with
  | .string => node.textValue?.map (·, false)
  | .aliased => (node.textValue?.or node.name).map (·, node.named.getD false)
  | _ => none

namespace Grammar

/-- What the rules show, rule by rule and in the order of the nodes. -/
def shownKeys (grammar : Grammar) : List (String × Bool) :=
  grammar.rules.values.flatMap fun rule => rule.surface.filterMap Rule.shownKey?

/-- All that asks for a number, repetitions included. -/
def keySequence (grammar : Grammar) : List (String × Bool) :=
  ("end", false) :: grammar.rules.names.map (·, true) ++ grammar.shownKeys

/-- The rules show the key of each node on their surfaces that has one. -/
theorem mem_shownKeys_iff (grammar : Grammar) (key : String × Bool) :
    key ∈ grammar.shownKeys ↔
      ∃ rule ∈ grammar.rules.values, ∃ node, rule.Shows node ∧ node.shownKey? = some key := by
  simp [shownKeys, List.mem_filterMap, Rule.mem_surface_iff_shows]

/-- By a named key only rules and aliases ask for a number. -/
theorem named_mem_keySequence_iff (grammar : Grammar) (name : String) :
    (name, true) ∈ grammar.keySequence ↔
      name ∈ grammar.rules.names ∨ (name, true) ∈ grammar.shownKeys := by
  simp [keySequence]

/-- By an anonymous key no rule asks for a number. -/
theorem anonymous_mem_keySequence_iff (grammar : Grammar) (text : String) :
    (text, false) ∈ grammar.keySequence ↔
      text = "end" ∨ (text, false) ∈ grammar.shownKeys := by
  simp [keySequence]

end Grammar

namespace NodeKind

theorem map_key_ofRule (names : List String) :
    (names.map ofRule).map key = names.map (·, true) := by
  simp [key, ofRule]

theorem visible_ofRule_eq_false_iff (name : String) :
    (ofRule name).visible = false ↔ ∃ rest, name.toList = '_' :: rest := by
  rw [ofRule]
  cases name.toList <;> simp

/-- The kind that a node makes has the key that the node asks for. -/
theorem map_key_ofNode? (node : Rule) : (ofNode? node).map key = node.shownKey? := by
  obtain ⟨kind, value, name, content, members, named, flags, contextName⟩ := node
  cases kind
  case string => simp [ofNode?, Rule.shownKey?, key, Function.comp_def]
  case aliased => simp [ofNode?, Rule.shownKey?, aliasName?, key, Function.comp_def]
  all_goals rfl

theorem ofSurfaces_eq_flatMap (grammar : Grammar) :
    ofSurfaces grammar =
      grammar.rules.values.flatMap fun rule => rule.surface.filterMap ofNode? := by
  simp only [ofSurfaces, Rule.foldSurface_eq_foldl_surface]
  rw [← List.foldl_flatMap, Rule.foldl_toList_append, List.append_nil, List.reverse_reverse,
    List.filterMap_flatMap]

/-- What the rules show can be seen. -/
theorem visible_of_mem_ofSurfaces {grammar : Grammar} {kind : NodeKind}
    (member : kind ∈ ofSurfaces grammar) : kind.visible = true := by
  rw [ofSurfaces_eq_flatMap, List.mem_flatMap] at member
  obtain ⟨rule, _, inSurface⟩ := member
  obtain ⟨node, _, made⟩ := List.mem_filterMap.mp inSurface
  unfold ofNode? at made
  split at made
  · obtain ⟨text, _, rfl⟩ := Option.map_eq_some_iff.mp made
    rfl
  · obtain ⟨name, _, rfl⟩ := Option.map_eq_some_iff.mp made
    rfl
  · contradiction

/-- The keys of the contributions are all that asks for a number. -/
theorem map_key_contributions (grammar : Grammar) :
    (contributions grammar).map key = grammar.keySequence := by
  have shown : (ofSurfaces grammar).map key = grammar.shownKeys := by
    rw [ofSurfaces_eq_flatMap, Grammar.shownKeys, List.map_flatMap]
    simp only [List.map_filterMap, map_key_ofNode?]
  rw [contributions, List.cons_append, List.map_cons, List.map_append, map_key_ofRule, shown]
  rfl

/-- A rule has a number of its own, because no other rule has its name and the end of
the text is anonymous. -/
theorem nodup_key_rules (grammar : Grammar) :
    ((ending :: grammar.rules.names.map ofRule).map key).Nodup := by
  have apart : (grammar.rules.names.map (·, true)).Nodup :=
    grammar.rules.distinct.map fun _ _ same => congrArg Prod.fst same
  rw [List.map_cons, map_key_ofRule, List.nodup_cons]
  exact ⟨by simp [ending, key], apart⟩

end NodeKind

namespace SymbolTable

open NodeKind

section Built

variable [Matcher]

/-- A symbol table holds the kinds that have been numbered, the fields, and the keywords
among the kinds. -/
theorem parts_of_ofGrammar? {grammar : Grammar} {table : SymbolTable}
    (built : (ofGrammar? grammar).value = some table) :
    KindTable.empty.pushAll? (contributions grammar) = some table.toKindTable ∧
      table.fields = grammar.fieldNames.toArray ∧
      table.keywords = (keywordsOf grammar table.kinds.toList).value := by
  rw [ofGrammar?] at built
  split at built
  · contradiction
  · next kinds pushed =>
    simp only at built
    split at built
    · next fit =>
      obtain rfl := Option.some.inj built
      exact ⟨pushed, rfl, rfl⟩
    · contradiction

/-- A table goes on from nothing after all that the grammar contributes. -/
theorem extends_of_ofGrammar? {grammar : Grammar} {table : SymbolTable}
    (built : (ofGrammar? grammar).value = some table) :
    KindTable.empty.Extends (contributions grammar) table.toKindTable :=
  KindTable.numbered_empty.extends_of_pushAll? (parts_of_ofGrammar? built).1

/-- The keys of a table are the first occurrences in what asks for a number. -/
theorem keys_of_ofGrammar? {grammar : Grammar} {table : SymbolTable}
    (built : (ofGrammar? grammar).value = some table) :
    table.keys = grammar.keySequence.eraseDups := by
  rw [(extends_of_ofGrammar? built).keys, map_key_contributions]
  rfl

/-- A name is found exactly when something asks for a number by it. -/
theorem isSome_kindId?_iff {grammar : Grammar} {table : SymbolTable}
    (built : (ofGrammar? grammar).value = some table) (name : String) (named : Bool) :
    (table.kindId? name named).isSome ↔ (name, named) ∈ grammar.keySequence := by
  rw [(extends_of_ofGrammar? built).numbered.isSome_kindId?_iff, keys_of_ofGrammar? built,
    List.mem_eraseDups]

/-- There is no table exactly when kinds or fields outnumber their numbers. -/
theorem ofGrammar?_eq_none_iff (grammar : Grammar) :
    (ofGrammar? grammar).value = none ↔
      65536 < grammar.keySequence.eraseDups.length ∨ 65535 < grammar.fieldSet.card := by
  have kinds := KindTable.numbered_empty.pushAll?_eq_none_iff (contributions grammar)
  rw [map_key_contributions] at kinds
  have fields := grammar.length_fieldNames
  rw [ofGrammar?]
  cases pushed : KindTable.empty.pushAll? (contributions grammar) with
  | none => exact iff_of_true rfl (.inl (kinds.mp pushed))
  | some table =>
    have few : ¬ 65536 < grammar.keySequence.eraseDups.length := by
      intro many
      simp [kinds.mpr many] at pushed
    simp only [few, false_or]
    split
    · next fit =>
      rw [fields] at fit
      exact iff_of_false nofun (Nat.not_lt_of_le (Nat.le_of_lt_succ fit))
    · next unfit =>
      rw [fields] at unfit
      exact iff_of_true rfl (Nat.lt_of_succ_le (Nat.le_of_not_lt unfit))

/-- A table holds the end of the text, then the rules, and then kinds that the rules
show. -/
theorem kinds_of_ofGrammar? {grammar : Grammar} {table : SymbolTable}
    (built : (ofGrammar? grammar).value = some table) :
    ∃ added, added.Sublist (ofSurfaces grammar) ∧
      table.kinds.toList = ending :: grammar.rules.names.map ofRule ++ added := by
  have pushed := (parts_of_ofGrammar? built).1
  rw [contributions, KindTable.pushAll?, List.foldlM_append] at pushed
  obtain ⟨middle, first, second⟩ := Option.bind_eq_some_iff.mp pushed
  obtain ⟨numbered, keys, kept, inRules, kinds⟩ :=
    KindTable.numbered_empty.extends_of_pushAll? first
  obtain ⟨_, _, added, inSurfaces, kinds'⟩ := numbered.extends_of_pushAll? second
  have whole : kept = ending :: grammar.rules.names.map ofRule := by
    apply inRules.eq_of_length
    have same : kept.map key = (ending :: grammar.rules.names.map ofRule).map key := by
      rw [KindTable.keys, kinds] at keys
      exact keys.trans (eraseDups_eq_self (nodup_key_rules grammar))
    simpa using congrArg List.length same
  refine ⟨added, inSurfaces, ?_⟩
  rw [kinds', kinds, whole]
  rfl

/-- The numbers of the rules follow that of the end of the text. -/
theorem kindId?_of_rule {grammar : Grammar} {table : SymbolTable}
    (built : (ofGrammar? grammar).value = some table) {index : Nat} {name : String}
    (rule : grammar.rules.names[index]? = some name) :
    ∃ id : UInt16, id.toNat = index + 1 ∧ table.kindId? name true = some id := by
  obtain ⟨added, _, kinds⟩ := kinds_of_ofGrammar? built
  have inRules : (grammar.rules.names.map (·, true))[index]? = some (name, true) := by
    simp [rule]
  have here : table.keys[index + 1]? = some (name, true) := by
    rw [KindTable.keys, kinds, List.map_append, List.map_cons, map_key_ofRule, List.cons_append,
      List.getElem?_cons_succ]
    exact (List.getElem?_append_left (List.getElem?_eq_some_iff.mp inRules).1).trans inRules
  obtain ⟨id, place⟩ := KindTable.exists_id_of_getElem? here
  refine ⟨id, place, ?_⟩
  rw [← place] at here
  exact ((extends_of_ofGrammar? built).numbered (name, true) id).mpr here

/-- What cannot be seen is the end of the text, and the hidden rules. -/
theorem visible_eq_false_iff {grammar : Grammar} {table : SymbolTable}
    (built : (ofGrammar? grammar).value = some table) {id : UInt16} {kind : NodeKind}
    (here : table.kind? id = some kind) :
    kind.visible = false ↔ id = 0 ∨ ∃ index rest, id.toNat = index + 1 ∧
      grammar.rules.names[index]? = some kind.name ∧ kind.name.toList = '_' :: rest := by
  obtain ⟨added, inSurfaces, kinds⟩ := kinds_of_ofGrammar? built
  rw [KindTable.kind?, ← Array.getElem?_toList, kinds, List.cons_append] at here
  have zero : id = 0 ↔ id.toNat = 0 := by rw [← UInt16.toNat_inj]; rfl
  rw [zero]
  cases place : id.toNat with
  | zero =>
    rw [place, List.getElem?_cons_zero] at here
    obtain rfl := Option.some.inj here
    simp [ending]
  | succ index =>
    rw [place, List.getElem?_cons_succ] at here
    cases found : grammar.rules.names[index]? with
    | some name =>
      have inRules : (grammar.rules.names.map ofRule)[index]? = some (ofRule name) := by
        simp [found]
      rw [List.getElem?_append_left (List.getElem?_eq_some_iff.mp inRules).1, inRules] at here
      obtain rfl := Option.some.inj here
      rw [visible_ofRule_eq_false_iff]
      constructor
      · rintro ⟨rest, hidden⟩
        exact .inr ⟨index, rest, rfl, found, hidden⟩
      · rintro (first | ⟨_, rest, _, _, hidden⟩)
        · contradiction
        · exact ⟨rest, hidden⟩
    | none =>
      have behind : (grammar.rules.names.map ofRule).length ≤ index := by
        simpa using List.getElem?_eq_none_iff.mp found
      rw [List.getElem?_append_right behind] at here
      have seen := visible_of_mem_ofSurfaces (inSurfaces.mem (List.mem_of_getElem? here))
      rw [seen]
      refine iff_of_false Bool.noConfusion ?_
      rintro (first | ⟨index', _, same, rule, _⟩)
      · contradiction
      · rw [← Nat.succ.inj same, found] at rule
        contradiction

/-- Symbol tables hold exactly what they are to hold, and are missing exactly when it
does not fit. The first occurrences of all that asks for a number are numbered in their
order, so that the rules come right after the end of the text, and nothing is hidden
besides that end and the rules that begin with an underscore. -/
theorem numbers_first_occurrences (grammar : Grammar) :
    ((ofGrammar? grammar).value = none ↔
      65536 < grammar.keySequence.eraseDups.length ∨ 65535 < grammar.fieldSet.card) ∧
    ∀ table, (ofGrammar? grammar).value = some table →
      (table.kinds.toList.map fun kind => (kind.name, kind.named)) =
        grammar.keySequence.eraseDups ∧
      (∀ index name, grammar.rules.names[index]? = some name →
        ∃ id : UInt16, id.toNat = index + 1 ∧ table.kindId? name true = some id) ∧
      ∀ id kind, table.kind? id = some kind → (kind.visible = false ↔
        id = 0 ∨ ∃ index rest, id.toNat = index + 1 ∧
          grammar.rules.names[index]? = some kind.name ∧ kind.name.toList = '_' :: rest) :=
  ⟨ofGrammar?_eq_none_iff grammar, fun _ built => ⟨keys_of_ofGrammar? built,
    fun _ _ => kindId?_of_rule built, fun _ _ => visible_eq_false_iff built⟩⟩

end Built

/-- A grammar with a hidden rule, a rule and an alias of one name, and texts within a
token. -/
def masked : Grammar where
  name := "masked"
  rules := ⟨[("page", .seq [.string "end", .string "a", .field "line" (.string "a"),
      { kind := .aliased, value := some (.text "page"), named := some true,
        content := some (.token (.string "b")) },
      { kind := .aliased, value := some (.text "_c"), named := some true,
        content := some .blank }]),
    ("_gap", .blank)], by simp⟩

theorem masked_numbered :
    ∃ table, (ofGrammar? masked).value = some table ∧
      (table.kinds.toList.map fun kind => (kind.name, kind.named)) =
        [("end", false), ("page", true), ("_gap", true), ("a", false), ("_c", true)] ∧
      (∃ id : UInt16, id.toNat = 2 ∧ table.kindId? "_gap" true = some id) ∧
      ∀ kind, table.kind? 4 = some kind → kind.visible = true := by
  obtain ⟨missing, exact⟩ := numbers_first_occurrences masked
  cases built : (ofGrammar? masked).value with
  | none => exact absurd (missing.mp built) (by decide)
  | some table =>
    obtain ⟨keys, rules, hidden⟩ := exact table built
    refine ⟨table, rfl, keys.trans (by decide), rules 1 "_gap" rfl, ?_⟩
    intro kind here
    rw [← Bool.not_eq_false, hidden 4 kind here]
    rintro (first | ⟨index, _, place, rule, _⟩)
    · contradiction
    · obtain rfl : index = 3 := (Nat.succ.inj place).symm
      contradiction

end SymbolTable

end GrammarArtifact
