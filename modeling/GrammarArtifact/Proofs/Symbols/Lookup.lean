import GrammarArtifact.Proofs.Symbols.Contributions
import Mathlib.Data.List.NodupEquivFin
import Mathlib.Data.List.OfFn

/-!
# Looking kinds up

A symbol table answers two questions about its kinds, and the answers are inverse to each
other: which kind has a number, and which number a name has. The numbers in use are those
below the number of kinds, up to a table that uses all of them. Keywords are chosen from
the kinds, so they come in the order of their numbers and none comes twice.
-/

namespace GrammarArtifact

/-- Kinds that are chosen from a table in order have ascending numbers. -/
theorem KindTable.exists_ids_of_sublist (table : KindTable) {chosen : List NodeKind}
    (fromTable : chosen.Sublist table.kinds.toList) :
    ∃ ids : List UInt16, ids.Pairwise (· < ·) ∧
      List.Forall₂ (fun id kind => table.kind? id = some kind) ids chosen := by
  obtain ⟨place, same⟩ := List.sublist_iff_exists_fin_orderEmbedding_get_eq.mp fromTable
  have room (index : Fin chosen.length) : (place index).val < UInt16.size := by
    have inside : (place index).val < table.kinds.size := (place index).isLt
    exact Nat.lt_of_lt_of_le inside table.kinds_fit
  refine ⟨List.ofFn fun index => UInt16.ofNatLT (place index) (room index), ?_, ?_⟩
  · rw [List.pairwise_ofFn]
    intro first second before
    rw [UInt16.lt_iff_toNat_lt, UInt16.toNat_ofNatLT, UInt16.toNat_ofNatLT]
    exact place.strictMono before
  · rw [List.forall₂_iff_get]
    refine ⟨List.length_ofFn, ?_⟩
    intro index inIds inChosen
    have here := same ⟨index, inChosen⟩
    simp only [List.get_eq_getElem, List.getElem_ofFn, KindTable.kind?, UInt16.toNat_ofNatLT]
    rw [List.get_eq_getElem, List.get_eq_getElem] at here
    rw [here, Array.getElem_toList, Array.getElem?_eq_getElem]

namespace SymbolTable

/-- Keywords are the names of visible anonymous kinds, in the order of the kinds. -/
theorem keywordsOf_sublist [Matcher] (grammar : Grammar) (kinds : List NodeKind) :
    ((keywordsOf grammar kinds).value.map fun word => NodeKind.mk word false true).Sublist
      kinds := by
  unfold keywordsOf
  split
  · exact List.nil_sublist kinds
  · split
    · next isFoundIn _ =>
      have chosen : ((keywordsAmong kinds isFoundIn).map fun word => NodeKind.mk word false true) =
          kinds.filter fun kind =>
            !kind.named && kind.visible && isFoundIn kind.name.toList := by
        rw [keywordsAmong, List.map_map]
        refine (List.map_congr_left ?_).trans (List.map_id _)
        rintro ⟨name, named, visible⟩ member
        have kept := (List.mem_filter.mp member).2
        simp only [Bool.and_eq_true, Bool.not_eq_true'] at kept
        simp [kept]
      rw [Logged.value_pure, chosen]
      exact List.filter_sublist
    · exact List.nil_sublist kinds

/-- Numbers and kinds of a symbol table are inverse to each other, all numbers below the
number of kinds are in use and no others are, and the keywords stand at ascending
numbers. -/
theorem kinds_and_ids_inverse [Matcher] (grammar : Grammar) (table : SymbolTable)
    (built : (ofGrammar? grammar).value = some table) :
    (∀ id : UInt16, (table.kind? id).isSome ↔ id.toNat < table.kindCount) ∧
    (∀ id : UInt16, id.toNat < table.kindCount → ∃ kind, table.kind? id = some kind ∧
      table.kindId? kind.name kind.named = some id) ∧
    (∀ name named id, table.kindId? name named = some id →
      ∃ kind, table.kind? id = some kind ∧ kind.name = name ∧ kind.named = named) ∧
    (∀ name named, table.kindId? name named = none →
      ∀ kind ∈ table.kinds, ¬ (kind.name = name ∧ kind.named = named)) ∧
    (∃ ids : List UInt16, ids.Pairwise (· < ·) ∧ List.Forall₂
      (fun id word => table.kind? id = some ⟨word, false, true⟩) ids table.keywords) ∧
    table.keywords.Nodup := by
  have numbered := (extends_of_ofGrammar? built).numbered
  have keywords := (parts_of_ofGrammar? built).2.2
  have chosen := keywordsOf_sublist grammar table.kinds.toList
  rw [← keywords] at chosen
  refine ⟨table.isSome_kind?_iff, ?_, ?_, ?_, ?_, ?_⟩
  · intro id inUse
    obtain ⟨kind, here⟩ := Option.isSome_iff_exists.mp ((table.isSome_kind?_iff id).mpr inUse)
    exact ⟨kind, here, (numbered.kindId?_eq_some_iff _ _ id).mpr ⟨kind, here, rfl, rfl⟩⟩
  · intro name named id found
    exact (numbered.kindId?_eq_some_iff name named id).mp found
  · rintro name named missed kind member ⟨rfl, rfl⟩
    have known : (table.kindId? kind.name kind.named).isSome :=
      (numbered.isSome_kindId?_iff _ _).mpr (List.mem_map.mpr ⟨kind, by simpa using member, rfl⟩)
    simp [missed] at known
  · obtain ⟨ids, ascending, found⟩ := table.exists_ids_of_sublist chosen
    rw [List.forall₂_map_right_iff] at found
    exact ⟨ids, ascending, found⟩
  · have distinct : table.kinds.toList.Nodup := .of_map _ numbered.nodup_keys
    exact .of_map _ (chosen.nodup distinct)

/-- A grammar with a literal token that is a word, one that is none, and both again. -/
def worded : Grammar where
  name := "worded"
  rules := ⟨[("page", .seq [.string "+", .string "if", .symbol "word", .string "if"]),
    ("word", .pattern "[a-z]+")], by simp⟩
  word := some "word"

theorem worded_looked_up :
    ∃ table, (ofGrammar? worded).value = some table ∧ table.keywords = ["if"] ∧
      (∀ id : UInt16, (table.kind? id).isSome ↔ id.toNat < 5) ∧
      (∃ id kind, table.kind? id = some kind ∧ table.kindId? "if" false = some id ∧
        kind.name = "if") ∧
      ∃ ids : List UInt16, ids.Pairwise (· < ·) ∧ List.Forall₂
        (fun id word => table.kind? id = some ⟨word, false, true⟩) ids ["if"] := by
  have parts : (ofGrammar? worded).value.any fun table =>
      table.kindCount = 5 ∧ table.keywords = ["if"] ∧ (table.kindId? "if" false).isSome := by
    decide +kernel
  cases built : (ofGrammar? worded).value with
  | none => simp [built] at parts
  | some table =>
    simp only [built, Option.any_some, decide_eq_true_eq] at parts
    obtain ⟨count, keywords, known⟩ := parts
    obtain ⟨inUse, _, named, _, chosen, _⟩ := kinds_and_ids_inverse worded table built
    obtain ⟨id, found⟩ := Option.isSome_iff_exists.mp known
    obtain ⟨kind, here, name, _⟩ := named "if" false id found
    rw [count] at inUse
    rw [keywords] at chosen
    exact ⟨table, rfl, keywords, inUse, ⟨id, kind, here, found, name⟩, chosen⟩

end SymbolTable

end GrammarArtifact
