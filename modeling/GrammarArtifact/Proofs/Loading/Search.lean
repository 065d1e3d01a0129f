import GrammarArtifact.Proofs.Loading.Gates
import GrammarArtifact.Proofs.Path

/-!
# Searching for files

A search probes its directories in order and takes the first one that has the file. The events
that it tells are its probes: one for each directory up to the first hit, or for all of them
when there is none. The path that it finds begins with the directory unless the name of the
file is an absolute path, for such a name stands for itself wherever it is looked for. Whether
the directory itself or the names on the way are links is not looked at.
-/

namespace GrammarArtifact

open GrammarArtifact.Path (join startsWith isAbsolute)

namespace Settings

variable {settings : Settings} {files : FileSystem} {file : String}

/-- The event told of a path that is looked at. -/
def probe (path : String) (found : Bool) : Event where
  level := .trace
  topic := .search
  message := "probing grammar search path"
  fields := [("path", .text path), ("found", .flag found)]

/-- The first directory that has a file, by its place among the search paths. -/
structure FirstHit (settings : Settings) (files : FileSystem) (file : String) (index : Nat)
    (directory : String) : Prop where
  listed : settings.searchPaths[index]? = some directory
  hit : (files (join directory file)).isFile = true
  missed : ∀ earlier ∈ settings.searchPaths.take index, (files (join earlier file)).isFile = false

/-- A probe is told first, and the others only if it finds nothing. -/
theorem events_firstFile_cons (files : FileSystem) (path : String) (rest : List String) :
    (firstFile files (path :: rest)).events =
      probe path (files path).isFile ::
        if (files path).isFile then [] else (firstFile files rest).events := by
  rw [firstFile, Logged.events_bind, Logged.events_note]
  cases (files path).isFile <;> rfl

/-- Probing goes on to the first path that has a file. -/
theorem events_firstFile_of_hit {before after : List String} {path : String}
    (missed : ∀ earlier ∈ before, (files earlier).isFile = false)
    (hit : (files path).isFile = true) :
    (firstFile files (before ++ path :: after)).events =
      before.map (probe · false) ++ [probe path true] := by
  induction before with
  | nil => simp [events_firstFile_cons, hit]
  | cons first before induction =>
    obtain ⟨here, later⟩ := List.forall_mem_cons.mp missed
    simp [events_firstFile_cons, here, induction later]

/-- Without a hit all paths are probed. -/
theorem events_firstFile_of_miss {paths : List String}
    (missed : ∀ path ∈ paths, (files path).isFile = false) :
    (firstFile files paths).events = paths.map (probe · false) := by
  induction paths with
  | nil => rfl
  | cons first paths induction =>
    obtain ⟨here, later⟩ := List.forall_mem_cons.mp missed
    simp [events_firstFile_cons, here, induction later]

/-- A first hit splits the candidates of a search at the path that it finds. -/
theorem FirstHit.candidates_eq {index : Nat} {directory : String}
    (first : settings.FirstHit files file index directory) :
    ∃ after, settings.candidates file =
      (settings.searchPaths.take index).map (join · file) ++ join directory file :: after := by
  obtain ⟨bound, rfl⟩ := List.getElem?_eq_some_iff.mp first.listed
  refine ⟨(settings.searchPaths.drop (index + 1)).map (join · file), ?_⟩
  conv_lhs => rw [candidates, ← List.take_append_drop index settings.searchPaths,
    ← List.getElem_cons_drop bound, List.map_append, List.map_cons]

/-- A search finds a path exactly when it belongs to a first hit. -/
theorem value_resolve_eq_some_iff {path : String} :
    (settings.resolve files file).value = some path ↔
      ∃ index directory, settings.FirstHit files file index directory ∧
        join directory file = path := by
  rw [resolve, Location.value_firstFile]
  constructor
  · intro found
    obtain ⟨hit, before, after, order, missed⟩ := List.find?_eq_some_iff_append.mp found
    obtain ⟨earlier, later, split, rfl, rest⟩ := List.map_eq_append_iff.mp order
    obtain ⟨directory, later, rfl, rfl, -⟩ := List.map_eq_cons_iff.mp rest
    refine ⟨earlier.length, directory, ⟨by simp [split], hit, ?_⟩, rfl⟩
    simpa [split] using missed
  · rintro ⟨index, directory, first, rfl⟩
    obtain ⟨after, order⟩ := first.candidates_eq
    refine List.find?_eq_some_iff_append.mpr ⟨first.hit, _, after, order, ?_⟩
    simpa only [List.forall_mem_map, Bool.not_eq_true'] using first.missed

/-- A search finds nothing exactly when no directory has the file. -/
theorem value_resolve_eq_none_iff :
    (settings.resolve files file).value = none ↔
      ∀ directory ∈ settings.searchPaths, (files (join directory file)).isFile = false := by
  rw [resolve, Location.value_firstFile, candidates, List.find?_eq_none]
  simp

/-- A search takes the first directory that has the file, and probes each directory up to it
once; without such a directory it probes all of them and finds nothing. What it finds lies
below the directory exactly when the name of the file is no absolute path or lies below the
directory by itself. The files of grammars have such names exactly when the grammars do. -/
theorem search_takes_first_hit (settings : Settings) (files : FileSystem) (file : String) :
    (∀ path, (settings.resolve files file).value = some path ↔
      ∃ index directory, settings.FirstHit files file index directory ∧
        join directory file = path) ∧
    (∀ index directory, settings.FirstHit files file index directory →
      (settings.resolve files file).events =
          (settings.searchPaths.take index).map (fun earlier => probe (join earlier file) false) ++
            [probe (join directory file) true] ∧
        (startsWith (join directory file) directory = true ↔
          isAbsolute file = false ∨ startsWith file directory = true)) ∧
    ((settings.resolve files file).value = none ↔
      ∀ directory ∈ settings.searchPaths, (files (join directory file)).isFile = false) ∧
    ((settings.resolve files file).value = none →
      (settings.resolve files file).events =
        settings.searchPaths.map fun directory => probe (join directory file) false) ∧
    ∀ grammar, isAbsolute (Artifact.fileName grammar) = isAbsolute grammar ∧
      isAbsolute (Compiled.fileName grammar) = isAbsolute grammar := by
  refine ⟨fun path => value_resolve_eq_some_iff, ?hit, value_resolve_eq_none_iff, ?miss, ?names⟩
  case hit =>
    intro index directory first
    obtain ⟨after, order⟩ := first.candidates_eq
    refine ⟨?_, Path.startsWith_join_iff directory file⟩
    have missed : ∀ path ∈ (settings.searchPaths.take index).map (join · file),
        (files path).isFile = false := List.forall_mem_map.mpr first.missed
    rw [resolve, order, events_firstFile_of_hit missed first.hit, List.map_map]
    rfl
  case miss =>
    intro nowhere
    have missed : ∀ path ∈ settings.candidates file, (files path).isFile = false :=
      List.forall_mem_map.mpr (value_resolve_eq_none_iff.mp nowhere)
    rw [resolve, events_firstFile_of_miss missed, candidates, List.map_map]
    rfl
  case names =>
    intro grammar
    exact ⟨Path.isAbsolute_append grammar (by decide), Path.isAbsolute_append grammar (by decide)⟩

/-- Two directories with a file of the same name. -/
def cabins : FileSystem := fun path =>
  if path ∈ ["cabin/oak.json", "/den/oak.json"] then ⟨true, true, .ok "", .error "file too short"⟩
  else ⟨false, false, .error .missing, .error "no such file"⟩

/-- The file is found in the second of three directories, and the third is not probed. -/
theorem cabins_searched :
    let settings : Settings := { searchPaths := ["attic", "cabin", "/den"] }
    (settings.resolve cabins "oak.json").value = some "cabin/oak.json" ∧
      (settings.resolve cabins "oak.json").events =
        [probe "attic/oak.json" false, probe "cabin/oak.json" true] ∧
      startsWith "cabin/oak.json" "cabin" = true ∧
      ({ searchPaths := ["attic"] : Settings }.resolve cabins "oak.json").events =
        [probe "attic/oak.json" false] := by
  intro settings
  have first : settings.FirstHit cabins "oak.json" 1 "cabin" :=
    ⟨rfl, by decide +kernel, by decide +kernel⟩
  obtain ⟨found, hits, -, -, -⟩ := search_takes_first_hit settings cabins "oak.json"
  obtain ⟨-, -, nowhere, probed, -⟩ :=
    search_takes_first_hit { searchPaths := ["attic"] } cabins "oak.json"
  obtain ⟨told, below⟩ := hits 1 "cabin" first
  exact ⟨(found _).mpr ⟨1, "cabin", first, by decide +kernel⟩, told.trans (by decide +kernel),
    below.mpr (.inl (by decide +kernel)),
    (probed (nowhere.mpr (by decide +kernel))).trans (by decide +kernel)⟩

/-- An absolute path in place of a name is found outside of all search paths. -/
theorem absolute_name_found_outside :
    let settings : Settings := { searchPaths := ["attic", "cabin"] }
    (settings.resolve cabins "/den/oak.json").value = some "/den/oak.json" ∧
      ∀ directory ∈ settings.searchPaths, startsWith "/den/oak.json" directory = false := by
  decide +kernel

end Settings

end GrammarArtifact
