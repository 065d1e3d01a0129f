import GrammarArtifact.Proofs.Symbols.Contributions
import GrammarArtifact.Proofs.Text.ByteOrder

/-!
# Looking fields up

The fields of a symbol table stand in the order of their bytes, so bisection finds the place
of each of them. Numbers are one ahead of places, because no field has the number zero, and
since there are fewer fields than numbers, the last field of a full table still has one.
-/

namespace GrammarArtifact

/-- A name is that of a field when some node of some rule makes a field of it. -/
theorem Grammar.mem_fieldNames_iff (grammar : Grammar) (name : String) :
    name ∈ grammar.fieldNames ↔ ∃ rule ∈ grammar.rules.values, ∃ node, rule.Reaches node ∧
      node.kind = .field ∧ node.name = some name := by
  rw [← List.mem_toFinset, grammar.toFinset_fieldNames, fieldSet, List.mem_toFinset]
  simp only [List.mem_filterMap, List.mem_filter, List.mem_flatMap, Rule.mem_nodes_iff_reaches,
    decide_eq_true_eq]
  constructor
  · rintro ⟨node, ⟨⟨rule, isRule, reached⟩, isField⟩, named⟩
    exact ⟨rule, isRule, node, reached, isField, named⟩
  · rintro ⟨rule, isRule, node, reached, isField, named⟩
    exact ⟨node, ⟨⟨rule, isRule, reached⟩, isField⟩, named⟩

namespace SymbolTable

/-- The number of a place is one more, and there is one for every place of a table. -/
theorem fieldName?_eq_some_iff (table : SymbolTable) (id : UInt16) (name : String) :
    table.fieldName? id = some name ↔
      ∃ place, id.toNat = place + 1 ∧ table.fields[place]? = some name := by
  have zero : id = 0 ↔ id.toNat = 0 := by rw [← UInt16.toNat_inj]; rfl
  rw [fieldName?]
  split
  · next none_field =>
    rw [zero] at none_field
    refine iff_of_false nofun ?_
    rintro ⟨place, number, _⟩
    omega
  · next numbered =>
    rw [zero] at numbered
    constructor
    · intro here
      exact ⟨id.toNat - 1, by omega, here⟩
    · rintro ⟨place, number, here⟩
      rwa [number, Nat.add_sub_cancel]

theorem isSome_fieldName?_iff (table : SymbolTable) (id : UInt16) :
    (table.fieldName? id).isSome ↔ 1 ≤ id.toNat ∧ id.toNat ≤ table.fieldCount := by
  rw [Option.isSome_iff_exists]
  simp only [fieldName?_eq_some_iff, fieldCount]
  constructor
  · rintro ⟨name, place, number, here⟩
    have inside : place < table.fields.size := (Array.getElem?_eq_some_iff.mp here).1
    omega
  · rintro ⟨positive, inUse⟩
    have inside : id.toNat - 1 < table.fields.size := by omega
    exact ⟨table.fields[id.toNat - 1], id.toNat - 1, by omega, Array.getElem?_eq_getElem inside⟩

/-- Where fields ascend, the number that is found is that of the place of the field. -/
theorem fieldId?_eq_some_iff {table : SymbolTable}
    (ascends : table.fields.toList.Pairwise (· < ·)) (name : String) (id : UInt16) :
    table.fieldId? name = some id ↔ table.fieldName? id = some name := by
  rw [fieldName?_eq_some_iff, fieldId?, Option.bind_eq_some_iff]
  simp only [Text.placeIn?_eq_some_iff ascends]
  constructor
  · rintro ⟨place, here, numbered⟩
    split at numbered
    · obtain rfl := Option.some.inj numbered
      exact ⟨place, UInt16.toNat_ofNatLT, here⟩
    · contradiction
  · rintro ⟨place, number, here⟩
    have room : place + 1 < UInt16.size := number ▸ id.toNat_lt
    refine ⟨place, here, ?_⟩
    rw [dif_pos room, Option.some.injEq, ← UInt16.toNat_inj, UInt16.toNat_ofNatLT, number]

/-- Names and numbers of fields are inverse to each other. The names are those that field
nodes anywhere in the rules have, in the order of their bytes, and the numbers in use are
those from one up to the number of fields. -/
theorem fields_and_ids_inverse [Matcher] (grammar : Grammar) (table : SymbolTable)
    (built : (ofGrammar? grammar).value = some table) :
    (table.fields.toList.Pairwise fun first second => Text.bytes first < Text.bytes second) ∧
    (∀ name, name ∈ table.fields ↔ ∃ rule ∈ grammar.rules.values, ∃ node,
      rule.Reaches node ∧ node.kind = .field ∧ node.name = some name) ∧
    (∀ id : UInt16, (table.fieldName? id).isSome ↔
      1 ≤ id.toNat ∧ id.toNat ≤ table.fieldCount) ∧
    (∀ id : UInt16, 1 ≤ id.toNat → id.toNat ≤ table.fieldCount →
      ∃ name, table.fieldName? id = some name ∧ table.fieldId? name = some id) ∧
    (∀ name id, table.fieldId? name = some id ↔ table.fieldName? id = some name) ∧
    ∀ name ∈ table.fields, (table.fieldId? name).isSome := by
  have fields := (parts_of_ofGrammar? built).2.1
  have ascends : table.fields.toList.Pairwise (· < ·) := by
    rw [fields]
    exact grammar.pairwise_lt_fieldNames
  refine ⟨?_, ?_, table.isSome_fieldName?_iff, ?_, fieldId?_eq_some_iff ascends, ?_⟩
  · exact ascends.imp (Text.bytes_lt_iff _ _).mpr
  · intro name
    rw [fields, List.mem_toArray]
    exact grammar.mem_fieldNames_iff name
  · intro id positive inUse
    obtain ⟨name, here⟩ :=
      Option.isSome_iff_exists.mp ((table.isSome_fieldName?_iff id).mpr ⟨positive, inUse⟩)
    exact ⟨name, here, (fieldId?_eq_some_iff ascends name id).mpr here⟩
  · intro name member
    obtain ⟨place, inside, rfl⟩ := Array.getElem_of_mem member
    have room : place + 1 < UInt16.size := Nat.lt_of_le_of_lt inside table.fields_fit
    have here : table.fieldName? (UInt16.ofNatLT (place + 1) room) = some table.fields[place] :=
      (table.fieldName?_eq_some_iff _ _).mpr
        ⟨place, UInt16.toNat_ofNatLT, Array.getElem?_eq_getElem inside⟩
    rw [(fieldId?_eq_some_iff ascends _ _).mpr here]
    rfl

/-- A grammar with fields within a token, behind content and members, and of one name. -/
def fielded : Grammar where
  name := "fielded"
  rules := ⟨[("page", .seq [.field "z" (.symbol "line"), .field "é" (.string "-"),
      { kind := .token, content := some (.field "a" .blank), members := [.field "z" .blank] }]),
    ("line", .field "\x7f" (.field "ab" .blank))], by simp⟩

theorem fielded_looked_up :
    ∃ table, (ofGrammar? fielded).value = some table ∧
      table.fields = #["a", "ab", "z", "\x7f", "é"] ∧ Text.bytes "\x7f" < Text.bytes "é" ∧
      (∀ id : UInt16, (table.fieldName? id).isSome ↔ 1 ≤ id.toNat ∧ id.toNat ≤ 5) ∧
      table.fieldName? 5 = some "é" ∧ table.fieldId? "é" = some 5 := by
  cases built : (ofGrammar? fielded).value with
  | none => exact absurd ((ofGrammar?_eq_none_iff fielded).mp built) (by decide)
  | some table =>
    have fields : table.fields = #["a", "ab", "z", "\x7f", "é"] := by
      have found : fielded.foundFields.reverse = ["z", "é", "a", "z", "\x7f", "ab"] := by
        decide +kernel
      have sorted : ["z", "é", "a", "z", "\x7f", "ab"].mergeSort
          (fun first second => first ≤ second) = ["a", "ab", "z", "z", "\x7f", "é"] := by
        simp [List.mergeSort, List.MergeSort.Internal.splitInTwo]
      rw [(parts_of_ofGrammar? built).2.1, Grammar.fieldNames, found, Text.ascending, sorted]
      decide
    obtain ⟨ascends, _, inUse, _, inverse, _⟩ := fields_and_ids_inverse fielded table built
    have order : Text.bytes "\x7f" < Text.bytes "é" := by
      rw [fields] at ascends
      exact List.pairwise_iff_getElem.mp ascends 3 4 (by decide) (by decide) (by decide)
    have count : table.fieldCount = 5 := congrArg Array.size fields
    have last : table.fieldName? 5 = some "é" := by rw [fieldName?, fields]; rfl
    rw [count] at inUse
    exact ⟨table, rfl, fields, order, inUse, last, (inverse "é" 5).mpr last⟩

end SymbolTable

end GrammarArtifact
