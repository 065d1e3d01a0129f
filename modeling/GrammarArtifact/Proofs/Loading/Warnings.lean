import GrammarArtifact.Loading
import GrammarArtifact.Proofs.Symbols.Anchoring

/-!
# Warnings of loads

Events at the level of warnings tell that a load was rejected, and there is one further reason
for one: a pattern of words that cannot be read, which is for the matcher to say. That pattern
comes up only after all gates, so a load tells either of its rejection, once, or of the pattern
of its language, or of nothing. Each stage is followed by its warnings alone: searching, reading
and validating have none, and where a stage fails, the one warning of the failure is still to
come.
-/

namespace GrammarArtifact

/-! ## Warnings of computations -/

namespace Logged

variable {α β : Type}

/-- The events of a computation that are warnings. -/
def warnings (computation : Logged α) : List Event :=
  computation.events.filter (·.level = .warn)

@[simp] theorem warnings_pure (value : α) : (pure value : Logged α).warnings = [] := rfl

@[simp] theorem warnings_bind (first : Logged α) (next : α → Logged β) :
    (first >>= next).warnings = first.warnings ++ (next first.value).warnings := by
  simp [warnings]

theorem warnings_note (event : Event) :
    (note event).warnings = if event.level = .warn then [event] else [] := by
  simp [warnings, List.filter_cons]

theorem warnings_tell_of_debug {events : List Event}
    (minor : ∀ event ∈ events, event.level = .debug) : (tell events).warnings = [] := by
  refine List.filter_eq_nil_iff.mpr fun event member => ?_
  simp [minor event member]

end Logged

open Logged

/-! ## Languages -/

section Languages

/-- A grammar has a pattern of words that the matcher does not take between its anchors. -/
def Grammar.WordUnreadable [Matcher] (grammar : Grammar) : Prop :=
  ∃ pattern, grammar.wordPattern? = some pattern ∧ Matcher.compile? (wholeWord pattern) = none

/-- The warnings about the pattern of words of a grammar. -/
def Grammar.wordWarnings [Matcher] (grammar : Grammar) : List Event :=
  grammar.wordPattern?.elim [] fun pattern =>
    (Matcher.compile? (wholeWord pattern)).elim [SymbolTable.unreadableWord grammar] fun _ => []

theorem Language.warnings_validate (grammar : Grammar) : grammar.validate.warnings = [] := by
  have noted : (tell (Validation.recursionEvents grammar)).warnings = [] :=
    warnings_tell_of_debug (by simp [Validation.recursionEvents])
  have told (found : List Validation.Warning) :
      (tell (Validation.warningEvents grammar found)).warnings = [] :=
    warnings_tell_of_debug (by simp [Validation.warningEvents])
  rw [Grammar.validate]
  split
  · rfl
  · rw [warnings_bind, warnings_bind, noted, told]
    rfl

variable [Matcher]

theorem Grammar.wordWarnings_of_unreadable {grammar : Grammar}
    (unreadable : grammar.WordUnreadable) :
    grammar.wordWarnings = [SymbolTable.unreadableWord grammar] := by
  obtain ⟨pattern, found, refused⟩ := unreadable
  simp [wordWarnings, found, refused]

theorem Grammar.wordWarnings_of_readable {grammar : Grammar}
    (readable : ¬ grammar.WordUnreadable) : grammar.wordWarnings = [] := by
  cases found : grammar.wordPattern? with
  | none => simp [wordWarnings, found]
  | some pattern =>
    cases compiled : Matcher.compile? (wholeWord pattern) with
    | none => exact absurd ⟨pattern, found, compiled⟩ readable
    | some isFoundIn => simp [wordWarnings, found, compiled]

namespace Language

/-- The warnings about the pattern of words of the grammar that a language comes from. -/
def wordWarnings (language : Language) : List Event :=
  language.grammar?.elim [] Grammar.wordWarnings

/-- The warnings that are told while a language is made, by what came of it: those about its
pattern of words, and none when there is no language. -/
def warningsOf : Except LoadFailure Language → List Event
  | .ok language => language.wordWarnings
  | .error _ => []

theorem warnings_keywordsOf (grammar : Grammar) (kinds : List NodeKind) :
    (SymbolTable.keywordsOf grammar kinds).warnings = grammar.wordWarnings := by
  rw [SymbolTable.keywordsOf, Grammar.wordWarnings]
  cases grammar.wordPattern? with
  | none => rfl
  | some pattern =>
    simp only [Option.elim_some]
    cases Matcher.compile? (wholeWord pattern) <;> rfl

/-- Keywords are looked for last, so a grammar without a table is not warned of. -/
theorem warnings_table (grammar : Grammar) :
    (SymbolTable.ofGrammar? grammar).warnings =
      (SymbolTable.ofGrammar? grammar).value.elim [] fun _ => grammar.wordWarnings := by
  rw [SymbolTable.ofGrammar?]
  split
  · rfl
  · simp only
    split
    · rw [warnings_bind, warnings_keywordsOf, warnings_pure, List.append_nil]
      rfl
    · rfl

theorem warnings_ofGrammar (grammar : Grammar) :
    (ofGrammar grammar).warnings = warningsOf (ofGrammar grammar).value := by
  rw [ofGrammar, value_bind, warnings_bind, warnings_validate]
  cases grammar.validate.value with
  | error fault => rfl
  | ok warnings =>
    rw [value_bind, warnings_bind, warnings_table]
    cases (SymbolTable.ofGrammar? grammar).value with
    | none => rfl
    | some symbols => exact List.append_nil grammar.wordWarnings

theorem warnings_ofText (expected text : String) :
    (ofText expected text).warnings = warningsOf (ofText expected text).value := by
  rw [ofText]
  split
  · rfl
  · next grammar _ =>
    split
    · exact warnings_ofGrammar grammar
    · rfl

end Language

end Languages

/-! ## Files -/

theorem warnings_firstFile (files : FileSystem) (paths : List String) :
    (Settings.firstFile files paths).warnings = [] := by
  induction paths with
  | nil => rfl
  | cons path rest induction =>
    rw [Settings.firstFile, warnings_bind]
    cases (files path).isFile with
    | true => rfl
    | false => exact induction

theorem warnings_resolve (files : FileSystem) (file : String) (location : Location) :
    (location.resolve files file).warnings = [] := by
  cases location with
  | given path => rfl
  | search settings =>
    rw [Location.resolve, warnings_bind, Settings.resolve, warnings_firstFile]
    cases (Settings.firstFile files (settings.candidates file)).value <;> rfl

/-! ## Handles -/

/-- A load that gives an invalid handle is warned of by one event, which names the grammar and
is not about its pattern of words. A load that gives a valid one is warned of only for the
pattern of words of its language. -/
def Handle.Told [Matcher] (grammar : String) (loaded : Logged Handle) : Prop :=
  match loaded.value with
  | .valid language => loaded.warnings = language.wordWarnings
  | .invalid _ => ∃ event, loaded.warnings = [event] ∧
      event.fields.lookup "grammar" = some (.text grammar) ∧ event.topic ≠ .symbols

namespace Artifact

theorem warnings_language [Matcher] (files : FileSystem) (grammar : String) (location : Location) :
    (language files grammar location).warnings =
      Language.warningsOf (language files grammar location).value := by
  rw [language, value_bind, warnings_bind, warnings_resolve]
  cases (location.resolve files (fileName grammar)).value with
  | error failure => rfl
  | ok path =>
    simp only [value_bind, warnings_bind, warnings_note]
    cases readText files path with
    | error failure => rfl
    | ok text => exact Language.warnings_ofText grammar text

/-- The handle of an artifact tells of its failure, once. -/
theorem told_handle [Text.Unicode] [Matcher] (grammar : String)
    {made : Logged (Except LoadFailure Language)}
    (warned : made.warnings = Language.warningsOf made.value) :
    Handle.Told grammar (do handle grammar (← made) : Logged Handle) := by
  rw [Handle.Told, value_bind, warnings_bind, warned]
  cases made.value with
  | ok language => exact List.append_nil language.wordWarnings
  | error failure => exact ⟨_, rfl, rfl, nofun⟩

end Artifact

namespace Compiled

/-- What a function returned is accepted without a warning, or rejected with one. -/
theorem told_inspect [Matcher] (grammar : String) (accepted : VersionRange)
    (returned : Option ParserHeader) : Handle.Told grammar (inspect grammar accepted returned) := by
  cases returned with
  | none => exact ⟨_, rfl, rfl, nofun⟩
  | some header =>
    rw [inspect]
    split
    · rfl
    · exact ⟨_, rfl, rfl, nofun⟩

theorem warnings_call (files : FileSystem) (grammar : String) (location : Location) :
    (call files grammar location).warnings = [] := by
  rw [call, warnings_bind, warnings_resolve]
  cases (location.resolve files (fileName grammar)).value with
  | error failure => rfl
  | ok path =>
    simp only
    split
    · simp only [warnings_bind, warnings_note]
      cases (files path).library with
      | error reason => rfl
      | ok library =>
        simp only
        cases library.function? (Library.functionName grammar) <;> rfl
    · rfl

theorem told_handle [Text.Unicode] [Matcher] (files : FileSystem) (grammar : String)
    (location : Location) :
    Handle.Told grammar (handle files grammar location) := by
  have quiet := warnings_call files grammar location
  rw [Handle.Told, handle, value_bind, warnings_bind, quiet]
  cases (call files grammar location).value with
  | ok returned => exact told_inspect grammar location.versions returned
  | error failure => exact ⟨_, rfl, rfl, nofun⟩

end Compiled

/-! ## Entry points -/

namespace EntryPoint

variable {files : FileSystem} {entry : EntryPoint}

/-- Every entry point but a computation of one's own tells of its load as it should. -/
theorem told_load [Text.Unicode] [Matcher] (files : FileSystem) (entry : EntryPoint)
    (standard : ∀ grammar load, entry ≠ .custom grammar load) :
    Handle.Told entry.grammar (entry.load files) := by
  cases entry with
  | shipped =>
    have warned := Language.warnings_ofText Shipped.name Shipped.text
    rw [load]
    -- The computation stands for any, so that nothing tries to run it on the shipped text.
    generalize Language.ofText Shipped.name Shipped.text = made at warned ⊢
    exact Artifact.told_handle Shipped.name warned
  | custom grammar load => exact absurd rfl (standard grammar load)
  | artifact grammar location =>
    exact Artifact.told_handle grammar (Artifact.warnings_language files grammar location)
  | parser grammar returned accepted => exact Compiled.told_inspect grammar accepted returned
  | library grammar location => exact Compiled.told_handle files grammar location

/-- A load that gives an invalid handle is warned of exactly once, whatever the cause. The
warning names the grammar, and none is about a pattern of words. A load that gives a valid
handle is warned of exactly once if the grammar of its language has a pattern of words that
cannot be read between its anchors, and never otherwise. -/
theorem rejected_loads_warned_once [Text.Unicode] [Matcher] (files : FileSystem)
    (entry : EntryPoint) (standard : ∀ grammar load, entry ≠ .custom grammar load) :
    (∀ cause, (entry.load files).value = .invalid cause →
      (∃ event, (entry.load files).warnings = [event] ∧
        event.fields.lookup "grammar" = some (.text entry.grammar)) ∧
      ∀ grammar, SymbolTable.unreadableWord grammar ∉ (entry.load files).events) ∧
    ∀ language, (entry.load files).value = .valid language →
      (∀ grammar, language.grammar? = some grammar → grammar.WordUnreadable →
        (entry.load files).warnings = [SymbolTable.unreadableWord grammar]) ∧
      ((∀ grammar, language.grammar? = some grammar → ¬ grammar.WordUnreadable) →
        (entry.load files).warnings = []) := by
  have told := told_load files entry standard
  rw [Handle.Told] at told
  refine ⟨?invalid, ?valid⟩
  case invalid =>
    intro cause rejected
    rw [rejected] at told
    obtain ⟨event, only, named, other⟩ := told
    refine ⟨⟨event, only, named⟩, fun grammar member => other ?_⟩
    have warned : SymbolTable.unreadableWord grammar ∈ (entry.load files).warnings :=
      List.mem_filter.mpr ⟨member, rfl⟩
    rw [only, List.mem_singleton] at warned
    exact warned ▸ rfl
  case valid =>
    intro language granted
    rw [granted] at told
    refine ⟨fun grammar declared unreadable => ?_, fun readable => ?_⟩
    · rw [told, Language.wordWarnings, declared]
      exact Grammar.wordWarnings_of_unreadable unreadable
    · rw [told, Language.wordWarnings]
      cases declared : language.grammar? with
      | none => rfl
      | some grammar => exact Grammar.wordWarnings_of_readable (readable grammar declared)

/-- An artifact whose pattern of words opens a class and does not close it. -/
def birch : String :=
  "\x7b\"name\": \"birch\", \"word\": \"leaf\", " ++
    "\"rules\": \x7b\"leaf\": [\"PATTERN\", \"[a-z\"]\x7d\x7d"

/-- A directory with that artifact and nothing else. -/
def grove : FileSystem := fun path =>
  if path = "grove/birch.json" then ⟨true, true, .ok birch, .error "file too short"⟩
  else ⟨false, false, .error .missing, .error "no such file"⟩

/-- The artifact gives a language, of whose pattern one warning tells. Where there is no
artifact and where there is no library, one warning tells of that. -/
theorem grove_warned :
    let entry := artifact "birch" (.given "grove/birch.json")
    let absent := artifact "elm" (.search { searchPaths := ["grove"] })
    let unopened := library "birch" (.given "grove/birch.so")
    ((entry.load grove).value.isValid = true ∧
      ∃ grammar, (entry.load grove).warnings = [SymbolTable.unreadableWord grammar]) ∧
    ((absent.load grove).value.isValid = false ∧
      ∃ event, (absent.load grove).warnings = [event]) ∧
    (unopened.load grove).value.isValid = false ∧
      ∃ event, (unopened.load grove).warnings = [event] := by
  intro entry absent unopened
  refine ⟨?granted, ?absent, ?unopened⟩
  case granted =>
    have worded : (entry.load grove).value.language?.any fun language =>
        language.grammar?.any (·.wordPattern? = some "[a-z") := by decide +kernel
    have unreadable : Matcher.compile? (wholeWord "[a-z") = none :=
      Option.isNone_iff_eq_none.mp (by decide +kernel)
    obtain ⟨-, valid⟩ := rejected_loads_warned_once grove entry nofun
    cases loaded : (entry.load grove).value with
    | invalid cause => simp [loaded, Handle.language?] at worded
    | valid language =>
      cases declared : language.grammar? with
      | none => simp [loaded, Handle.language?, declared] at worded
      | some grammar =>
        have found : grammar.wordPattern? = some "[a-z" := by
          simpa [loaded, Handle.language?, declared] using worded
        exact ⟨rfl, grammar,
          (valid language loaded).1 grammar declared ⟨"[a-z", found, unreadable⟩⟩
  case absent =>
    obtain ⟨invalid, -⟩ := rejected_loads_warned_once grove absent nofun
    have rejected : (absent.load grove).value = .invalid (some (.notInSearchPath "elm.json")) := rfl
    obtain ⟨⟨event, only, -⟩, -⟩ := invalid _ rejected
    exact ⟨by rw [rejected]; rfl, event, only⟩
  case unopened =>
    obtain ⟨invalid, -⟩ := rejected_loads_warned_once grove unopened nofun
    have rejected : (unopened.load grove).value = .invalid (some (.notFound "grove/birch.so")) :=
      rfl
    obtain ⟨⟨event, only, -⟩, -⟩ := invalid _ rejected
    exact ⟨by rw [rejected]; rfl, event, only⟩

end EntryPoint

end GrammarArtifact
