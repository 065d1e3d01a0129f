import GrammarArtifact.Proofs.Rule.Nodes
import GrammarArtifact.Proofs.Table
import GrammarArtifact.Validation.Warning
import Mathlib.Data.List.Nodup

/-!
# Rules with more than one precedence level

All rules note their levels in one index. A node adds to the levels of its own rule and
changes none of any other, so behind all nodes of all rules the index holds for each name
what the rule with that name alone makes of no levels.

What is told of a rule depends on that rule alone, and the rules are told in the order of
their names, which are distinct. So the list is fixed by what it holds: leaving out some
rules of a grammar leaves out what is told of them and changes nothing else.
-/

namespace GrammarArtifact.Validation

/-! ## Levels in the index -/

/-- Add the level that a node gives, if it gives one. -/
def addLevel (levels : Std.TreeSet Int32) (node : Rule) : Std.TreeSet Int32 :=
  node.precedence?.elim levels levels.insert

/-- The levels of a rule by itself. -/
def levelSet (rule : Rule) : Std.TreeSet Int32 := rule.nodes.foldl addLevel ∅

/-- The levels of a rule by itself, ascending and each once. -/
def precedenceLevels (rule : Rule) : List Int32 := (levelSet rule).toList

/-- A node adds to the levels under its own name and leaves all others. -/
theorem getD_note (rule name : String) (index : LevelIndex) (node : Rule) :
    (index.note rule node).getD name ∅ =
      if name = rule then addLevel (index.getD rule ∅) node else index.getD name ∅ := by
  rw [LevelIndex.note, addLevel]
  by_cases own : name = rule
  · subst own
    cases node.precedence? <;> simp
  · have apart : compare rule name ≠ .eq := by simpa using Ne.symm own
    cases node.precedence? <;> simp [own, Std.TreeMap.getD_insert, apart]

theorem getD_foldl_note (rule name : String) (nodes : List Rule) (index : LevelIndex) :
    (nodes.foldl (LevelIndex.note rule) index).getD name ∅ =
      if name = rule then nodes.foldl addLevel (index.getD rule ∅) else index.getD name ∅ := by
  induction nodes generalizing index with
  | nil =>
    split
    · next own => rw [own]; rfl
    · rfl
  | cons node rest induction =>
    rw [List.foldl_cons, induction, getD_note, getD_note]
    split
    · next own => simp
    · rfl

/-- Behind all rules there are the levels from before, and on top of them those of the rule
that has the name. -/
theorem getD_foldl_entries (name : String) (entries : List (String × Rule))
    (apart : (entries.map Prod.fst).Nodup) (index : LevelIndex) :
    (entries.foldl (fun index entry => entry.2.fold (LevelIndex.note entry.1) index) index).getD
        name ∅ =
      (entries.lookup name).elim (index.getD name ∅) fun rule =>
        rule.nodes.foldl addLevel (index.getD name ∅) := by
  induction entries generalizing index with
  | nil => rfl
  | cons entry rest induction =>
    obtain ⟨fresh, apart⟩ := List.nodup_cons.mp apart
    rw [List.foldl_cons, induction apart, Rule.fold_eq_foldl_nodes, getD_foldl_note,
      List.lookup_cons]
    by_cases own : name = entry.1
    · have unbound : rest.lookup name = none := by
        rw [List.lookup_eq_none_iff]
        intro other member
        have different : name ≠ other.1 := by
          rintro rfl
          exact fresh (own ▸ List.mem_map_of_mem member)
        simpa using different
      rw [unbound]
      simp [own]
    · have missed : (name == entry.1) = false := by simpa using own
      simp [own, missed]

/-- The index holds for each rule its own levels. -/
theorem getD_levelIndex (grammar : Grammar) (name : String) :
    (levelIndex grammar).getD name ∅ = (grammar.rules.find? name).elim ∅ levelSet := by
  rw [levelIndex, getD_foldl_entries name _ grammar.rules.distinct, Table.find?]
  rfl

/-! ## Rules with several levels -/

/-- What is told of a rule, if it has more than one precedence level. -/
def mixedLevels? (entry : String × Rule) : Option (String × List Int32) :=
  let levels := precedenceLevels entry.2
  if 1 < levels.length then some (entry.1, levels) else none

theorem name_of_mixedLevels? {entry : String × Rule} {told : String × List Int32}
    (mixed : mixedLevels? entry = some told) : told.1 = entry.1 := by
  simp only [mixedLevels?] at mixed
  split at mixed
  · exact (congrArg Prod.fst (Option.some.inj mixed)).symm
  · contradiction

/-- Told is what there is to tell of some rule. -/
theorem mem_mixedPrecedences_iff (grammar : Grammar) (told : String × List Int32) :
    told ∈ mixedPrecedences grammar ↔
      ∃ entry ∈ grammar.rules.entries, mixedLevels? entry = some told := by
  have indexed := getD_levelIndex grammar
  simp only [mixedPrecedences, List.mem_filterMap, Option.ite_none_right_eq_some,
    Option.some.injEq, mixedLevels?, precedenceLevels, Std.TreeSet.length_toList]
  constructor
  · rintro ⟨⟨name, levels⟩, member, several, rfl⟩
    have here := Std.TreeMap.mem_toList_iff_getElem?_eq_some.mp member
    have own := indexed name
    rw [Std.TreeMap.getD_eq_getD_getElem?, here, Option.getD_some] at own
    cases found : grammar.rules.find? name with
    | none =>
      rw [found] at own
      simp [own] at several
    | some rule =>
      rw [found] at own
      subst own
      exact ⟨(name, rule), (grammar.rules.find?_eq_some_iff name rule).mp found, several, rfl⟩
  · rintro ⟨⟨name, rule⟩, member, several, rfl⟩
    have own := indexed name
    rw [(grammar.rules.find?_eq_some_iff name rule).mpr member,
      Std.TreeMap.getD_eq_getD_getElem?] at own
    cases here : (levelIndex grammar)[name]? with
    | none =>
      have none_noted : levelSet rule = ∅ := by simpa [here] using own.symm
      simp [none_noted] at several
    | some levels =>
      have same : levels = levelSet rule := by simpa [here] using own
      subst same
      exact ⟨(name, levelSet rule), Std.TreeMap.mem_toList_iff_getElem?_eq_some.mpr here,
        several, rfl⟩

/-- The rules are told in the order of their names. -/
theorem mixedPrecedences_strictly_ascending (grammar : Grammar) :
    (mixedPrecedences grammar).Pairwise fun first second => first.1 < second.1 := by
  have indexed := Std.TreeMap.ordered_keys_toList (t := levelIndex grammar)
  rw [mixedPrecedences, List.pairwise_filterMap]
  refine indexed.imp ?_
  intro first second before told toldFirst told' toldSecond
  simp only [Option.ite_none_right_eq_some, Option.some.injEq] at toldFirst toldSecond
  obtain ⟨_, rfl⟩ := toldFirst
  obtain ⟨_, rfl⟩ := toldSecond
  exact compareOfLessAndEq_eq_lt.mp before

theorem mixedPrecedences_ascending (grammar : Grammar) :
    (mixedPrecedences grammar).Pairwise fun first second => first.1 ≤ second.1 :=
  (mixedPrecedences_strictly_ascending grammar).imp fun before =>
    String.not_lt.mp (String.lt_asymm before)

/-- No rule is told twice. -/
theorem nodup_names_mixedPrecedences (grammar : Grammar) :
    ((mixedPrecedences grammar).map Prod.fst).Nodup := by
  rw [List.Nodup, List.pairwise_map]
  refine (mixedPrecedences_strictly_ascending grammar).imp ?_
  intro first second before same
  exact String.lt_irrefl second.1 (same ▸ before)

/-- What there is to tell is told of rules that are apart. -/
theorem nodup_names_mixedLevels? (grammar : Grammar) :
    ((grammar.rules.entries.filterMap mixedLevels?).map Prod.fst).Nodup := by
  have told (entries : List (String × Rule)) :
      ((entries.filterMap mixedLevels?).map Prod.fst).Sublist (entries.map Prod.fst) := by
    induction entries with
    | nil => exact .refl _
    | cons entry rest induction =>
      cases mixed : mixedLevels? entry with
      | none =>
        rw [List.filterMap_cons_none mixed]
        exact induction.cons entry.1
      | some found =>
        rw [List.filterMap_cons_some mixed, List.map_cons, name_of_mixedLevels? mixed]
        exact induction.cons_cons entry.1
  exact (told _).nodup grammar.rules.distinct

theorem mixedPrecedences_perm (grammar : Grammar) :
    (mixedPrecedences grammar).Perm (grammar.rules.entries.filterMap mixedLevels?) := by
  apply (List.perm_ext_iff_of_nodup (.of_map _ (nodup_names_mixedPrecedences grammar))
    (.of_map _ (nodup_names_mixedLevels? grammar))).mpr
  intro told
  rw [mem_mixedPrecedences_iff, List.mem_filterMap]

/-- What is told is told of a rule. -/
theorem name_mem_of_mem_mixedPrecedences {grammar : Grammar} {told : String × List Int32}
    (member : told ∈ mixedPrecedences grammar) : told.1 ∈ grammar.rules.names := by
  rw [(mixedPrecedences_perm grammar).mem_iff, List.mem_filterMap] at member
  obtain ⟨entry, inRules, mixed⟩ := member
  rw [name_of_mixedLevels? mixed]
  exact List.mem_map_of_mem inRules

/-- The order is fixed by the names, so whatever holds the same and is in the order of the
names is what is told of the rules. -/
theorem eq_mixedPrecedences_of_perm {told : List (String × List Int32)} {grammar : Grammar}
    (perm : told.Perm (mixedPrecedences grammar))
    (ascending : told.Pairwise fun first second => first.1 ≤ second.1) :
    told = mixedPrecedences grammar := by
  refine perm.eq_of_pairwise ?_ ascending (mixedPrecedences_ascending grammar)
  intro first second inTold inGrammar before after
  exact List.inj_on_of_nodup_map (nodup_names_mixedPrecedences grammar)
    (perm.mem_iff.mp inTold) inGrammar (String.le_antisymm before after)

/-- The order of the rules does not matter to what is told of them. -/
theorem mixedPrecedences_eq_of_perm {left right : Grammar}
    (perm : left.rules.entries.Perm right.rules.entries) :
    mixedPrecedences left = mixedPrecedences right := by
  refine eq_mixedPrecedences_of_perm ?_ (mixedPrecedences_ascending left)
  calc (mixedPrecedences left).Perm (left.rules.entries.filterMap mixedLevels?) :=
        mixedPrecedences_perm left
    List.Perm _ (right.rules.entries.filterMap mixedLevels?) := perm.filterMap _
    List.Perm _ (mixedPrecedences right) := (mixedPrecedences_perm right).symm

/-- When a grammar has some of the rules of another one, what is told of it is what is
told of those rules there. -/
theorem mixedPrecedences_eq_filter {few many : Grammar} (kept : String → Bool)
    (entries : few.rules.entries = many.rules.entries.filter fun entry => kept entry.1) :
    mixedPrecedences few = (mixedPrecedences many).filter fun told => kept told.1 := by
  have same : few.rules.entries.filterMap mixedLevels? =
      (many.rules.entries.filterMap mixedLevels?).filter fun told => kept told.1 := by
    rw [entries, List.filterMap_filter, List.filter_filterMap]
    apply List.filterMap_congr
    intro entry _
    cases mixed : mixedLevels? entry with
    | none => simp
    | some told => simp [Option.filter, name_of_mixedLevels? mixed]
  have perm : ((mixedPrecedences many).filter fun told => kept told.1).Perm
      (mixedPrecedences few) := by
    refine ((mixedPrecedences_perm many).filter _).trans ?_
    rw [← same]
    exact (mixedPrecedences_perm few).symm
  exact (eq_mixedPrecedences_of_perm perm
    ((mixedPrecedences_ascending many).sublist List.filter_sublist)).symm

/-- The rule that a warning finds to have several precedence levels, and these levels. -/
def Warning.mixed? : Warning → Option (String × List Int32)
  | .unreachableRule _ => none
  | .mixedPrecedence rule levels => some (rule, levels)

theorem filterMap_mixed?_warnings (grammar : Grammar) :
    (warnings grammar).filterMap Warning.mixed? = mixedPrecedences grammar := by
  simp [warnings, Warning.mixed?, List.filterMap_append, List.filterMap_map,
    Function.comp_def]

end GrammarArtifact.Validation
