import Std.Data.TreeMap
import GrammarArtifact.Distinct

/-!
# Ordered tables

A table binds distinct names to values and remembers the order in which the names
first came up. When a name is bound again, its value is replaced and its place
stays. Two tables can therefore hold the same bindings in different orders;
`sameBindings` tells whether they do.
-/

namespace GrammarArtifact

/-- Bindings of distinct names to values, in order. -/
structure Table (α : Type) where
  entries : List (String × α)
  distinct : (entries.map Prod.fst).Nodup

namespace Table

variable {α : Type}

/-- The table without bindings. -/
def empty : Table α := ⟨[], by simp⟩

instance : Inhabited (Table α) := ⟨empty⟩

/-- The bound names, in order. -/
def names (table : Table α) : List String := table.entries.map Prod.fst

/-- The bound values, in order. -/
def values (table : Table α) : List α := table.entries.map Prod.snd

/-- The number of bindings. -/
def size (table : Table α) : Nat := table.entries.length

/-- Whether nothing is bound. -/
def isEmpty (table : Table α) : Bool := table.entries.isEmpty

/-- The value bound to a name. -/
def find? (table : Table α) (name : String) : Option α := table.entries.lookup name

/-- Whether a name is bound. -/
def contains (table : Table α) (name : String) : Bool := table.names.contains name

/-- The first binding. -/
def first? (table : Table α) : Option (String × α) := table.entries.head?

/-- The table that results from binding names one after the other. -/
def ofBindings (bindings : List (String × α)) : Table α :=
  let latest : Std.TreeMap String α :=
    bindings.foldl (fun map binding => map.insert binding.1 binding.2) ∅
  let places := distinctOn compare id (bindings.map Prod.fst)
  ⟨places.filterMap fun name => latest[name]?.map fun value => (name, value), by
    have apart : places.Nodup := by
      simpa using nodup_distinctOn compare id (bindings.map Prod.fst)
    refine List.Sublist.nodup ?_ apart
    generalize places = names
    induction names with
    | nil => simp
    | cons name rest induction =>
      cases found : latest[name]? with
      | none => simpa [List.filterMap_cons, found] using induction.cons name
      | some value => simpa [List.filterMap_cons, found] using induction⟩

/-- Bind a name: a bound name keeps its place and takes the new value, and a new
name comes last. -/
def insert (table : Table α) (name : String) (value : α) : Table α :=
  if bound : name ∈ table.names then
    ⟨table.entries.map fun entry => if entry.1 = name then (name, value) else entry, by
      have same : (table.entries.map fun entry =>
          if entry.1 = name then (name, value) else entry).map Prod.fst = table.names := by
        simp only [List.map_map, names]
        apply List.map_congr_left
        intro entry _
        by_cases hit : entry.1 = name <;> simp [hit]
      rw [same]
      exact table.distinct⟩
  else
    ⟨table.entries ++ [(name, value)], by
      rw [List.map_append, List.nodup_append]
      refine ⟨table.distinct, by simp, ?_⟩
      intro earlier member other last
      simp only [List.map_cons, List.map_nil, List.mem_singleton] at last
      rintro rfl
      exact bound (last ▸ member)⟩

/-- Drop the binding of a name; the others keep their order. -/
def erase (table : Table α) (name : String) : Table α :=
  ⟨table.entries.filter fun entry => entry.1 ≠ name,
    (List.filter_sublist.map Prod.fst).nodup table.distinct⟩

/-- Whether two tables hold the same bindings, in whatever order. -/
def sameBindings [BEq α] (left right : Table α) : Bool :=
  left.size == right.size &&
    left.entries.all fun entry => right.find? entry.1 == some entry.2

end Table

end GrammarArtifact
