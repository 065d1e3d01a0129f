import GrammarArtifact.Loading
import GrammarArtifact.Proofs.Language.Answers
import GrammarArtifact.Proofs.Language.Gates
import GrammarArtifact.Proofs.Symbols.Contributions

/-!
# The gates of loading

Whatever the entry point, loading goes through gates in a fixed order, and the first gate
that does not let pass is the reason why there is no language. What the gates look at is
described here without them: `Finds` and `Misses` for the search of a file, `Admits` and
`Refuses` for the text of an artifact, `Rejects` for what a function returned, `Grants`
and `Stops` for a whole entry point. The relations for failures have one constructor for
each gate, which says that all earlier gates let pass and that this one does not. What is
granted answers from the grammar that an entry point `Declares` or the header that it
`Returns`.
-/

namespace GrammarArtifact

/-! ## Files -/

namespace Location

variable {files : FileSystem} {file path : String} {location : Location}

/-- A file is found where it is given, or at the first path of a search that has a file. -/
inductive Finds (files : FileSystem) (file : String) : Location → String → Prop
  | given (path : String) : Finds files file (.given path) path
  | search {settings : Settings} {before after : List String} {path : String}
      (order : settings.candidates file = before ++ path :: after)
      (passed : ∀ earlier ∈ before, (files earlier).isFile = false)
      (found : (files path).isFile = true) : Finds files file (.search settings) path

/-- A search that has a file at none of its paths misses it. -/
inductive Misses (files : FileSystem) (file : String) : Location → Prop
  | search {settings : Settings}
      (passed : ∀ path ∈ settings.candidates file, (files path).isFile = false) :
      Misses files file (.search settings)

/-- The first file is the first path that has one. -/
theorem value_firstFile (files : FileSystem) (paths : List String) :
    (Settings.firstFile files paths).value = paths.find? fun path => (files path).isFile := by
  induction paths with
  | nil => rfl
  | cons path rest induction =>
    rw [Settings.firstFile, Logged.value_bind]
    cases found : (files path).isFile with
    | true => simp [found]
    | false => simpa [found] using induction

/-- A search, by the first of its paths that has a file. -/
theorem value_resolve_search (files : FileSystem) (file : String) (settings : Settings) :
    (resolve files file (.search settings)).value =
      match (settings.candidates file).find? fun path => (files path).isFile with
      | some path => .ok path
      | none => .error (.notInSearchPath file) := by
  rw [resolve, Logged.value_bind, Settings.resolve, value_firstFile]
  cases (settings.candidates file).find? fun path => (files path).isFile <;> rfl

/-- Resolving gives the path at which the file is found. -/
theorem value_resolve_eq_ok_iff :
    (location.resolve files file).value = .ok path ↔ location.Finds files file path := by
  cases location with
  | given known =>
    constructor
    · rintro ⟨⟩
      exact .given path
    · rintro ⟨⟩
      rfl
  | search settings =>
    rw [value_resolve_search]
    constructor
    · intro resolved
      split at resolved
      · next first =>
        obtain rfl := Except.ok.inj resolved
        obtain ⟨found, before, after, order, passed⟩ := List.find?_eq_some_iff_append.mp first
        exact .search order (by simpa using passed) found
      · contradiction
    · intro finds
      cases finds with
      | search order passed found =>
        have first : (settings.candidates file).find? (fun path => (files path).isFile) =
            some path :=
          List.find?_eq_some_iff_append.mpr ⟨found, _, _, order, by simpa using passed⟩
        rw [first]

/-- Resolving fails exactly when a search misses the file. -/
theorem value_resolve_eq_error_iff {failure : LoadFailure} :
    (location.resolve files file).value = .error failure ↔
      location.Misses files file ∧ .notInSearchPath file = failure := by
  cases location with
  | given known =>
    constructor
    · rintro ⟨⟩
    · rintro ⟨⟨⟩, _⟩
  | search settings =>
    rw [value_resolve_search]
    constructor
    · intro resolved
      split at resolved
      · contradiction
      · next nowhere =>
        obtain rfl := Except.error.inj resolved
        exact ⟨.search (by simpa using nowhere), rfl⟩
    · rintro ⟨⟨passed⟩, rfl⟩
      have nowhere : (settings.candidates file).find? (fun path => (files path).isFile) =
          none :=
        List.find?_eq_none.mpr (by simpa using passed)
      rw [nowhere]

end Location

/-! ## Artifacts -/

namespace Language

variable {expected text : String} {language : Language} {failure : LoadFailure}

/-- A text is admitted as an artifact for a grammar when it is a grammar document that
declares the name of the grammar, has no violations and has few enough symbols. The
language holds the grammar of the document, its symbols and its warnings. -/
inductive Admits [Matcher] (expected text : String) : Language → Prop
  | document {grammar : Grammar} {symbols : SymbolTable}
      (decoded : Document.readGrammar text = .ok grammar)
      (named : grammar.name = expected)
      (sound : Validation.violations grammar = [])
      (fit : grammar.keySequence.eraseDups.length ≤ 65536 ∧ grammar.fieldSet.card ≤ 65535)
      (numbered : (SymbolTable.ofGrammar? grammar).value = some symbols) :
      Admits expected text (.declarative grammar symbols (Validation.warnings grammar))

/-- Why a text is refused as an artifact for a grammar. -/
inductive Refuses (expected text : String) : LoadFailure → Prop
  | malformed {fault : Document.Fault}
      (undecoded : Document.readGrammar text = .error fault) :
      Refuses expected text (.malformed fault)
  | nameMismatch {grammar : Grammar}
      (decoded : Document.readGrammar text = .ok grammar)
      (misnamed : grammar.name ≠ expected) :
      Refuses expected text (.nameMismatch expected grammar.name)
  | invalid {grammar : Grammar} {fault : Validation.Fault}
      (decoded : Document.readGrammar text = .ok grammar)
      (named : grammar.name = expected)
      (told : (Validation.violations grammar).head? = some fault) :
      Refuses expected text (.invalid fault)
  | tooManySymbols {grammar : Grammar}
      (decoded : Document.readGrammar text = .ok grammar)
      (named : grammar.name = expected)
      (sound : Validation.violations grammar = [])
      (unfit : 65536 < grammar.keySequence.eraseDups.length ∨ 65535 < grammar.fieldSet.card) :
      Refuses expected text .tooManySymbols

variable [Matcher]

/-- Behind the gates of decoding and naming, the gates of the grammar decide. -/
theorem ofText_of_named {grammar : Grammar} (decoded : Document.readGrammar text = .ok grammar)
    (named : grammar.name = expected) : ofText expected text = ofGrammar grammar := by
  rw [ofText, decoded]
  exact if_pos named

theorem value_ofText_eq_ok_iff :
    (ofText expected text).value = .ok language ↔ Admits expected text language := by
  constructor
  · intro loaded
    rw [ofText] at loaded
    split at loaded
    · contradiction
    · next grammar decoded =>
      split at loaded
      · next named =>
        obtain ⟨sound, symbols, numbered, rfl⟩ := (ofGrammar_eq_ok_iff grammar language).mp loaded
        have fit : ¬ (_ ∨ _) := fun unfit =>
          nomatch numbered.symm.trans ((SymbolTable.ofGrammar?_eq_none_iff grammar).mpr unfit)
        rw [not_or, Nat.not_lt, Nat.not_lt] at fit
        exact .document decoded named sound fit numbered
      · contradiction
  · rintro ⟨decoded, named, sound, _, numbered⟩
    rw [ofText_of_named decoded named, ofGrammar_eq_ok_iff]
    exact ⟨sound, _, numbered, rfl⟩

theorem value_ofText_eq_error_iff :
    (ofText expected text).value = .error failure ↔ Refuses expected text failure := by
  constructor
  · intro loaded
    rw [ofText] at loaded
    split at loaded
    · next undecoded =>
      obtain rfl := Except.error.inj loaded
      exact .malformed undecoded
    · next grammar decoded =>
      split at loaded
      · next named =>
        obtain ⟨fault, told, rfl⟩ | ⟨sound, unnumbered, rfl⟩ :=
          (ofGrammar_eq_error_iff grammar failure).mp loaded
        · exact .invalid decoded named told
        · exact .tooManySymbols decoded named sound
            ((SymbolTable.ofGrammar?_eq_none_iff grammar).mp unnumbered)
      · next misnamed =>
        obtain rfl := Except.error.inj loaded
        exact .nameMismatch decoded misnamed
  · intro refused
    cases refused with
    | malformed undecoded => rw [ofText, undecoded, Logged.value_pure]
    | nameMismatch decoded misnamed =>
      rw [ofText, decoded]
      simp only [misnamed, if_false, Logged.value_pure]
    | invalid decoded named told =>
      rw [ofText_of_named decoded named, ofGrammar_eq_error_iff]
      exact .inl ⟨_, told, rfl⟩
    | tooManySymbols decoded named sound unfit =>
      rw [ofText_of_named decoded named, ofGrammar_eq_error_iff]
      exact .inr ⟨sound, (SymbolTable.ofGrammar?_eq_none_iff _).mpr unfit, rfl⟩

/-- The name of an admitted language is the one that was expected. -/
theorem Admits.name_eq (admitted : Admits expected text language) : language.name = expected := by
  obtain ⟨_, named, _, _, _⟩ := admitted
  exact named

/-- An admitted language answers from the grammar that was read and from its symbols. -/
theorem Admits.answers (admitted : Admits expected text language) :
    ∃ grammar table, Document.readGrammar text = .ok grammar ∧
      (SymbolTable.ofGrammar? grammar).value = some table ∧
        language.AnswersFrom grammar table := by
  obtain ⟨decoded, _, _, _, numbered⟩ := admitted
  exact ⟨_, _, decoded, numbered, declarative_answersFrom _ _⟩

end Language

namespace Artifact

variable {files : FileSystem} {grammar : String} {location : Location}

/-- The text of an artifact is read when its file is found and can be read. -/
inductive Reads (files : FileSystem) (grammar : String) (location : Location) : String → Prop
  | file {path text : String}
      (found : location.Finds files (fileName grammar) path)
      (readable : (files path).text = .ok text) : Reads files grammar location text

/-- Why there is no text of an artifact. -/
inductive Lacks (files : FileSystem) (grammar : String) (location : Location) :
    LoadFailure → Prop
  | notInSearchPath (missed : location.Misses files (fileName grammar)) :
      Lacks files grammar location (.notInSearchPath (fileName grammar))
  | notFound {path : String}
      (found : location.Finds files (fileName grammar) path)
      (absent : (files path).text = .error .missing) :
      Lacks files grammar location (.notFound path)
  | unreadable {path : String} {fault : ReadFault}
      (found : location.Finds files (fileName grammar) path)
      (present : fault ≠ .missing)
      (unread : (files path).text = .error fault) :
      Lacks files grammar location (.unreadable fault)

theorem readText_eq_ok_iff {path text : String} :
    readText files path = .ok text ↔ (files path).text = .ok text := by
  rw [readText]
  split <;> simp_all

theorem readText_eq_error_iff {path : String} {failure : LoadFailure} :
    readText files path = .error failure ↔
      (files path).text = .error .missing ∧ .notFound path = failure ∨
        ∃ fault, fault ≠ .missing ∧ (files path).text = .error fault ∧
          .unreadable fault = failure := by
  rw [readText]
  split <;> simp_all

section Admitted

variable [Matcher]

/-- The language of an artifact, from where the file is on. -/
theorem value_language (files : FileSystem) (grammar : String) (location : Location) :
    (language files grammar location).value =
      match (location.resolve files (fileName grammar)).value with
      | .error failure => .error failure
      | .ok path =>
        match readText files path with
        | .error failure => .error failure
        | .ok text => (Language.ofText grammar text).value := by
  rw [language, Logged.value_bind]
  cases (location.resolve files (fileName grammar)).value with
  | error failure => rfl
  | ok path =>
    simp only [Logged.value_bind]
    cases readText files path <;> rfl

/-- An artifact gives a language when its text is read and admitted. -/
theorem value_language_eq_ok_iff {found : Language} :
    (language files grammar location).value = .ok found ↔
      ∃ text, Reads files grammar location text ∧ Language.Admits grammar text found := by
  rw [value_language]
  constructor
  · intro loaded
    split at loaded
    · contradiction
    · next path resolved =>
      split at loaded
      · contradiction
      · next text read =>
        exact ⟨text,
          .file (Location.value_resolve_eq_ok_iff.mp resolved) (readText_eq_ok_iff.mp read),
          Language.value_ofText_eq_ok_iff.mp loaded⟩
  · rintro ⟨text, ⟨found, readable⟩, admitted⟩
    rw [Location.value_resolve_eq_ok_iff.mpr found]
    simp only [readText_eq_ok_iff.mpr readable]
    exact Language.value_ofText_eq_ok_iff.mpr admitted

/-- An artifact gives none when there is no text of it, or when the text is refused. -/
theorem value_language_eq_error_iff {failure : LoadFailure} :
    (language files grammar location).value = .error failure ↔
      Lacks files grammar location failure ∨
        ∃ text, Reads files grammar location text ∧ Language.Refuses grammar text failure := by
  rw [value_language]
  constructor
  · intro loaded
    split at loaded
    · next unresolved =>
      obtain rfl := Except.error.inj loaded
      obtain ⟨missed, rfl⟩ := Location.value_resolve_eq_error_iff.mp unresolved
      exact .inl (.notInSearchPath missed)
    · next path resolved =>
      have found := Location.value_resolve_eq_ok_iff.mp resolved
      split at loaded
      · next textless =>
        obtain rfl := Except.error.inj loaded
        obtain ⟨absent, rfl⟩ | ⟨fault, present, unread, rfl⟩ := readText_eq_error_iff.mp textless
        · exact .inl (.notFound found absent)
        · exact .inl (.unreadable found present unread)
      · next text read =>
        exact .inr ⟨text, .file found (readText_eq_ok_iff.mp read),
          Language.value_ofText_eq_error_iff.mp loaded⟩
  · rintro (lacking | ⟨text, ⟨found, readable⟩, refused⟩)
    · cases lacking with
      | notInSearchPath missed =>
        rw [Location.value_resolve_eq_error_iff.mpr ⟨missed, rfl⟩]
      | notFound found absent =>
        rw [Location.value_resolve_eq_ok_iff.mpr found]
        simp only [readText_eq_error_iff.mpr (.inl ⟨absent, rfl⟩)]
      | unreadable found present unread =>
        rw [Location.value_resolve_eq_ok_iff.mpr found]
        simp only [readText_eq_error_iff.mpr (.inr ⟨_, present, unread, rfl⟩)]
    · rw [Location.value_resolve_eq_ok_iff.mpr found]
      simp only [readText_eq_ok_iff.mpr readable]
      exact Language.value_ofText_eq_error_iff.mpr refused

end Admitted

/-- The handle for an artifact holds what came of it, for rejecting it only tells of it.
The computation stands for any, so that nothing tries to run it on the shipped text. -/
theorem value_bind_handle [Text.Unicode] (grammar : String)
    (computation : Logged (Except LoadFailure Language)) :
    (do handle grammar (← computation) : Logged Handle).value =
      .ofExcept computation.value := by
  rw [Logged.value_bind]
  cases computation.value <;> rfl

end Artifact

/-! ## Compiled parsers -/

/-- A version lies outside a range below its first version or above its last. -/
theorem VersionRange.contains_eq_false_iff {range : VersionRange} {version : UInt32} :
    range.contains version = false ↔ version < range.first ∨ range.last < version := by
  simp only [contains, Bool.and_eq_false_iff, decide_eq_false_iff_not, UInt32.not_le]

namespace Compiled

variable {files : FileSystem} {grammar : String} {location : Location}
  {accepted : VersionRange} {returned : Option ParserHeader} {language : Language}
  {failure : LoadFailure} {cause : Option LoadFailure}

/-- A library offers what its function for a grammar returns, when its file is found and
can be opened and there is the function. -/
inductive Offers (files : FileSystem) (grammar : String) (location : Location) :
    Option ParserHeader → Prop
  | function {path : String} {library : Library} {returned : Option ParserHeader}
      (found : location.Finds files (fileName grammar) path)
      (present : (files path).isPresent = true)
      (opened : (files path).library = .ok library)
      (offered : library.function? (Library.functionName grammar) = some returned) :
      Offers files grammar location returned

/-- Why there is no function for a grammar. -/
inductive Lacks (files : FileSystem) (grammar : String) (location : Location) :
    LoadFailure → Prop
  | notInSearchPath (missed : location.Misses files (fileName grammar)) :
      Lacks files grammar location (.notInSearchPath (fileName grammar))
  | notFound {path : String}
      (found : location.Finds files (fileName grammar) path)
      (absent : (files path).isPresent = false) :
      Lacks files grammar location (.notFound path)
  | notALibrary {path reason : String}
      (found : location.Finds files (fileName grammar) path)
      (present : (files path).isPresent = true)
      (unopened : (files path).library = .error reason) :
      Lacks files grammar location (.notALibrary reason)
  | missingFunction {path : String} {library : Library}
      (found : location.Finds files (fileName grammar) path)
      (present : (files path).isPresent = true)
      (opened : (files path).library = .ok library)
      (unoffered : library.function? (Library.functionName grammar) = none) :
      Lacks files grammar location (.missingFunction (Library.functionName grammar))

/-- Why what a function returned is rejected: there is nothing, for which no reason is
known, or the version of the header lies outside the range. -/
inductive Rejects (accepted : VersionRange) : Option ParserHeader → Option LoadFailure → Prop
  | null : Rejects accepted none none
  | versionMismatch {header : ParserHeader}
      (outside : header.version < accepted.first ∨ accepted.last < header.version) :
      Rejects accepted (some header) (some (.versionMismatch header.version accepted))

/-- What a function returned, by its header and the version of that. -/
theorem value_inspect (grammar : String) (accepted : VersionRange)
    (returned : Option ParserHeader) :
    (inspect grammar accepted returned).value =
      match returned with
      | none => .invalid none
      | some header =>
        if accepted.contains header.version then .valid (.compiled grammar header)
        else .invalid (some (.versionMismatch header.version accepted)) := by
  cases returned with
  | none => rfl
  | some header =>
    rw [inspect]
    simp only
    split <;> rfl

theorem value_inspect_eq_valid_iff :
    (inspect grammar accepted returned).value = .valid language ↔
      ∃ header, returned = some header ∧
        (accepted.first ≤ header.version ∧ header.version ≤ accepted.last) ∧
        .compiled grammar header = language := by
  rw [value_inspect]
  cases returned with
  | none => simp
  | some header =>
    simp only [VersionRange.contains, Bool.and_eq_true, decide_eq_true_eq, Option.some.injEq,
      exists_eq_left']
    split
    · next within => simp [within]
    · next outside => simp [outside]

theorem value_inspect_eq_invalid_iff :
    (inspect grammar accepted returned).value = .invalid cause ↔
      Rejects accepted returned cause := by
  rw [value_inspect]
  constructor
  · intro inspected
    split at inspected
    · obtain rfl := Handle.invalid.inj inspected
      exact .null
    · next header =>
      split at inspected
      · contradiction
      · next outside =>
        obtain rfl := Handle.invalid.inj inspected
        rw [Bool.not_eq_true, VersionRange.contains_eq_false_iff] at outside
        exact .versionMismatch outside
  · intro rejected
    cases rejected with
    | null => rfl
    | versionMismatch outside =>
      simp only [VersionRange.contains_eq_false_iff.mpr outside, Bool.false_eq_true, if_false]

/-- What the function of a library returns, from where the file is on. -/
theorem value_call (files : FileSystem) (grammar : String) (location : Location) :
    (call files grammar location).value =
      match (location.resolve files (fileName grammar)).value with
      | .error failure => .error failure
      | .ok path =>
        if (files path).isPresent then
          match (files path).library with
          | .error reason => .error (.notALibrary reason)
          | .ok library =>
            match library.function? (Library.functionName grammar) with
            | none => .error (.missingFunction (Library.functionName grammar))
            | some returned => .ok returned
        else .error (.notFound path) := by
  rw [call, Logged.value_bind]
  cases (location.resolve files (fileName grammar)).value with
  | error failure => rfl
  | ok path =>
    simp only
    split
    · simp only [Logged.value_bind]
      cases (files path).library with
      | error reason => rfl
      | ok library =>
        simp only
        cases library.function? (Library.functionName grammar) <;> rfl
    · rfl

/-- The function of a library is called when it is offered. -/
theorem value_call_eq_ok_iff :
    (call files grammar location).value = .ok returned ↔
      Offers files grammar location returned := by
  rw [value_call]
  constructor
  · intro called
    split at called
    · contradiction
    · next path resolved =>
      split at called
      · next present =>
        split at called
        · contradiction
        · next library opened =>
          split at called
          · contradiction
          · next offered =>
            obtain rfl := Except.ok.inj called
            exact .function (Location.value_resolve_eq_ok_iff.mp resolved) present opened offered
      · contradiction
  · rintro ⟨found, present, opened, offered⟩
    rw [Location.value_resolve_eq_ok_iff.mpr found]
    simp only [present, if_true, opened, offered]

/-- There is no call exactly when the function is lacking. -/
theorem value_call_eq_error_iff :
    (call files grammar location).value = .error failure ↔
      Lacks files grammar location failure := by
  rw [value_call]
  constructor
  · intro called
    split at called
    · next unresolved =>
      obtain rfl := Except.error.inj called
      obtain ⟨missed, rfl⟩ := Location.value_resolve_eq_error_iff.mp unresolved
      exact .notInSearchPath missed
    · next path resolved =>
      have found := Location.value_resolve_eq_ok_iff.mp resolved
      split at called
      · next present =>
        split at called
        · next reason unopened =>
          obtain rfl := Except.error.inj called
          exact .notALibrary found present unopened
        · next library opened =>
          split at called
          · next unoffered =>
            obtain rfl := Except.error.inj called
            exact .missingFunction found present opened unoffered
          · contradiction
      · next absent =>
        obtain rfl := Except.error.inj called
        exact .notFound found (Bool.eq_false_of_not_eq_true absent)
  · intro lacking
    cases lacking with
    | notInSearchPath missed =>
      rw [Location.value_resolve_eq_error_iff.mpr ⟨missed, rfl⟩]
    | notFound found absent =>
      rw [Location.value_resolve_eq_ok_iff.mpr found]
      simp only [absent, Bool.false_eq_true, if_false]
    | notALibrary found present unopened =>
      rw [Location.value_resolve_eq_ok_iff.mpr found]
      simp only [present, if_true, unopened]
    | missingFunction found present opened unoffered =>
      rw [Location.value_resolve_eq_ok_iff.mpr found]
      simp only [present, if_true, opened, unoffered]

/-- Rejecting a library only tells of it. -/
theorem value_handle [Text.Unicode] (files : FileSystem) (grammar : String) (location : Location) :
    (handle files grammar location).value =
      match (call files grammar location).value with
      | .ok returned => (inspect grammar location.versions returned).value
      | .error failure => .invalid (some failure) := by
  rw [handle, Logged.value_bind]
  cases (call files grammar location).value <;> rfl

end Compiled

/-! ## Entry points -/

theorem Handle.ofExcept_eq_valid_iff {loaded : Except LoadFailure Language}
    {language : Language} : ofExcept loaded = .valid language ↔ loaded = .ok language := by
  cases loaded <;> simp [ofExcept]

theorem Handle.ofExcept_eq_invalid_iff {loaded : Except LoadFailure Language}
    {cause : Option LoadFailure} :
    ofExcept loaded = .invalid cause ↔
      ∃ failure, loaded = .error failure ∧ some failure = cause := by
  cases loaded <;> simp [ofExcept]

namespace EntryPoint

/-- An entry point grants a language when every gate lets pass. -/
inductive Grants [Matcher] (files : FileSystem) : EntryPoint → Language → Prop
  | shipped {language : Language}
      (admitted : Language.Admits Shipped.name Shipped.text language) :
      Grants files .shipped language
  | artifact {grammar text : String} {location : Location} {language : Language}
      (read : Artifact.Reads files grammar location text)
      (admitted : Language.Admits grammar text language) :
      Grants files (.artifact grammar location) language
  | parser {grammar : String} {header : ParserHeader} {accepted : VersionRange}
      (within : accepted.first ≤ header.version ∧ header.version ≤ accepted.last) :
      Grants files (.parser grammar (some header) accepted) (.compiled grammar header)
  | library {grammar : String} {location : Location} {header : ParserHeader}
      (offered : Compiled.Offers files grammar location (some header))
      (within : location.versions.first ≤ header.version ∧
        header.version ≤ location.versions.last) :
      Grants files (.library grammar location) (.compiled grammar header)

/-- The gate that stops an entry point, by the reason that it gives. -/
inductive Stops (files : FileSystem) : EntryPoint → Option LoadFailure → Prop
  | shipped {failure : LoadFailure}
      (refused : Language.Refuses Shipped.name Shipped.text failure) :
      Stops files .shipped (some failure)
  | artifactLacking {grammar : String} {location : Location} {failure : LoadFailure}
      (lacking : Artifact.Lacks files grammar location failure) :
      Stops files (.artifact grammar location) (some failure)
  | artifactRefused {grammar text : String} {location : Location} {failure : LoadFailure}
      (read : Artifact.Reads files grammar location text)
      (refused : Language.Refuses grammar text failure) :
      Stops files (.artifact grammar location) (some failure)
  | parser {grammar : String} {returned : Option ParserHeader} {accepted : VersionRange}
      {cause : Option LoadFailure} (rejected : Compiled.Rejects accepted returned cause) :
      Stops files (.parser grammar returned accepted) cause
  | libraryLacking {grammar : String} {location : Location} {failure : LoadFailure}
      (lacking : Compiled.Lacks files grammar location failure) :
      Stops files (.library grammar location) (some failure)
  | libraryRejected {grammar : String} {location : Location} {returned : Option ParserHeader}
      {cause : Option LoadFailure} (offered : Compiled.Offers files grammar location returned)
      (rejected : Compiled.Rejects location.versions returned cause) :
      Stops files (.library grammar location) cause

/-- The grammar that an entry point declares, in the text that it ships or reads. -/
inductive Declares (files : FileSystem) : EntryPoint → Grammar → Prop
  | shipped {grammar : Grammar} (decoded : Document.readGrammar Shipped.text = .ok grammar) :
      Declares files .shipped grammar
  | artifact {name text : String} {location : Location} {grammar : Grammar}
      (read : Artifact.Reads files name location text)
      (decoded : Document.readGrammar text = .ok grammar) :
      Declares files (.artifact name location) grammar

/-- The header that an entry point has of a parser, at hand or from a library. -/
inductive Returns (files : FileSystem) : EntryPoint → ParserHeader → Prop
  | parser {grammar : String} {header : ParserHeader} {accepted : VersionRange} :
      Returns files (.parser grammar (some header) accepted) header
  | library {grammar : String} {location : Location} {header : ParserHeader}
      (offered : Compiled.Offers files grammar location (some header)) :
      Returns files (.library grammar location) header

variable {files : FileSystem} {entry : EntryPoint} {language : Language}
  {cause : Option LoadFailure}

section Load

variable [Text.Unicode] [Matcher]

/-- Loading gives a valid handle exactly for what is granted. -/
theorem value_load_eq_valid_iff (standard : ∀ grammar load, entry ≠ .custom grammar load) :
    (entry.load files).value = .valid language ↔ entry.Grants files language := by
  cases entry with
  | shipped =>
    rw [load, Artifact.value_bind_handle, Handle.ofExcept_eq_valid_iff,
      Language.value_ofText_eq_ok_iff]
    constructor
    · exact .shipped
    · rintro ⟨admitted⟩
      exact admitted
  | custom grammar load => exact absurd rfl (standard grammar load)
  | artifact grammar location =>
    rw [load, Artifact.value_bind_handle, Handle.ofExcept_eq_valid_iff,
      Artifact.value_language_eq_ok_iff]
    constructor
    · rintro ⟨text, read, admitted⟩
      exact .artifact read admitted
    · rintro ⟨⟩
      next text read admitted => exact ⟨text, read, admitted⟩
  | parser grammar returned accepted =>
    rw [load, Compiled.value_inspect_eq_valid_iff]
    constructor
    · rintro ⟨header, rfl, within, rfl⟩
      exact .parser within
    · rintro ⟨⟩
      next header within => exact ⟨header, rfl, within, rfl⟩
  | library grammar location =>
    rw [load, Compiled.value_handle]
    constructor
    · intro loaded
      split at loaded
      · next returned called =>
        obtain ⟨header, rfl, within, rfl⟩ := Compiled.value_inspect_eq_valid_iff.mp loaded
        exact .library (Compiled.value_call_eq_ok_iff.mp called) within
      · contradiction
    · rintro ⟨⟩
      next header within offered =>
        rw [Compiled.value_call_eq_ok_iff.mpr offered]
        exact Compiled.value_inspect_eq_valid_iff.mpr ⟨header, rfl, within, rfl⟩

/-- Loading gives an invalid handle exactly for the reason of the gate that stops it. -/
theorem value_load_eq_invalid_iff (standard : ∀ grammar load, entry ≠ .custom grammar load) :
    (entry.load files).value = .invalid cause ↔ entry.Stops files cause := by
  cases entry with
  | shipped =>
    rw [load, Artifact.value_bind_handle, Handle.ofExcept_eq_invalid_iff]
    constructor
    · rintro ⟨failure, failed, rfl⟩
      exact .shipped (Language.value_ofText_eq_error_iff.mp failed)
    · rintro ⟨refused⟩
      exact ⟨_, Language.value_ofText_eq_error_iff.mpr refused, rfl⟩
  | custom grammar load => exact absurd rfl (standard grammar load)
  | artifact grammar location =>
    rw [load, Artifact.value_bind_handle, Handle.ofExcept_eq_invalid_iff]
    constructor
    · rintro ⟨failure, failed, rfl⟩
      obtain lacking | ⟨text, read, refused⟩ := Artifact.value_language_eq_error_iff.mp failed
      · exact .artifactLacking lacking
      · exact .artifactRefused read refused
    · intro stopped
      cases stopped with
      | artifactLacking lacking =>
        exact ⟨_, Artifact.value_language_eq_error_iff.mpr (.inl lacking), rfl⟩
      | artifactRefused read refused =>
        exact ⟨_, Artifact.value_language_eq_error_iff.mpr (.inr ⟨_, read, refused⟩), rfl⟩
  | parser grammar returned accepted =>
    rw [load, Compiled.value_inspect_eq_invalid_iff]
    constructor
    · exact .parser
    · rintro ⟨⟩
      next rejected => exact rejected
  | library grammar location =>
    rw [load, Compiled.value_handle]
    constructor
    · intro loaded
      split at loaded
      · next returned called =>
        exact .libraryRejected (Compiled.value_call_eq_ok_iff.mp called)
          (Compiled.value_inspect_eq_invalid_iff.mp loaded)
      · next failure uncalled =>
        obtain rfl := Handle.invalid.inj loaded
        exact .libraryLacking (Compiled.value_call_eq_error_iff.mp uncalled)
    · intro stopped
      cases stopped with
      | libraryLacking lacking => rw [Compiled.value_call_eq_error_iff.mpr lacking]
      | libraryRejected offered rejected =>
        rw [Compiled.value_call_eq_ok_iff.mpr offered]
        exact Compiled.value_inspect_eq_invalid_iff.mpr rejected

/-- Checked loading hands out the language of a valid handle, and otherwise names the
grammar beside the reason. -/
theorem value_loadChecked (files : FileSystem) (entry : EntryPoint) :
    (entry.loadChecked files).value =
      match (entry.load files).value with
      | .valid language => .ok language
      | .invalid cause => .error ⟨entry.grammar, cause⟩ := by
  rw [loadChecked, Logged.value_bind]
  cases (entry.load files).value <;> rfl

end Load

section Granted

variable [Matcher]

/-- What is granted has the name of the grammar of the entry point. -/
theorem Grants.name_eq (granted : entry.Grants files language) :
    language.name = entry.grammar := by
  cases granted with
  | shipped admitted => exact admitted.name_eq
  | artifact read admitted => exact admitted.name_eq
  | parser within => rfl
  | library offered within => rfl

/-- What is granted answers from the grammar that the entry point declares, or from the header
that it has. -/
theorem Grants.answers (granted : entry.Grants files language) :
    (∃ grammar table, entry.Declares files grammar ∧
      (SymbolTable.ofGrammar? grammar).value = some table ∧
        language.AnswersFrom grammar table) ∨
      ∃ header, entry.Returns files header ∧ language.AnswersFromHeader header := by
  cases granted with
  | shipped admitted =>
    obtain ⟨grammar, table, decoded, numbered, answers⟩ := admitted.answers
    exact .inl ⟨grammar, table, .shipped decoded, numbered, answers⟩
  | artifact read admitted =>
    obtain ⟨grammar, table, decoded, numbered, answers⟩ := admitted.answers
    exact .inl ⟨grammar, table, .artifact read decoded, numbered, answers⟩
  | parser within => exact .inr ⟨_, .parser, Language.compiled_answersFromHeader _ _⟩
  | library offered within =>
    exact .inr ⟨_, .library offered, Language.compiled_answersFromHeader _ _⟩

end Granted

/-- A language is handed out exactly when every gate lets pass, and otherwise the error
names the grammar and gives the reason of the gate that stops. The language has the name
of the grammar. All that can be asked of it is answered from the grammar that was read and
the table of its symbols, or from the header of the parser. -/
theorem language_granted_exactly_when_gates_pass [Text.Unicode] [Matcher] (files : FileSystem)
    (entry : EntryPoint) (standard : ∀ grammar load, entry ≠ .custom grammar load) :
    (∀ language, (entry.loadChecked files).value = .ok language ↔
      entry.Grants files language) ∧
    (∀ error, (entry.loadChecked files).value = .error error ↔
      error.grammar = entry.grammar ∧ entry.Stops files error.cause) ∧
    ∀ language, entry.Grants files language →
      language.name = entry.grammar ∧
      ((∃ grammar table, entry.Declares files grammar ∧
        (SymbolTable.ofGrammar? grammar).value = some table ∧
          language.AnswersFrom grammar table) ∨
        ∃ header, entry.Returns files header ∧ language.AnswersFromHeader header) := by
  refine ⟨?granted, ?stopped, fun language granted => ⟨granted.name_eq, granted.answers⟩⟩
  case granted =>
    intro language
    rw [value_loadChecked, ← value_load_eq_valid_iff standard]
    cases (entry.load files).value <;> simp
  case stopped =>
    intro error
    rw [value_loadChecked, ← value_load_eq_invalid_iff standard]
    obtain ⟨grammar, cause⟩ := error
    cases (entry.load files).value <;> simp [eq_comm]

/-- A parser of today that a library makes available. -/
def pine : ParserHeader where
  version := 14
  symbols := 40
  aliases := 2
  tokens := 20
  externalTokens := 0
  states := 100
  largeStates := 10
  productions := 5
  fields := 3

/-- An artifact that refers to a rule that there is not. -/
def cone : String :=
  "\x7b\"name\": \"fir\", \"rules\": \x7b\"tree\": [\"SYMBOL\", null, \"cone\"]\x7d\x7d"

/-- An artifact with one rule. -/
def acorn : String :=
  "\x7b\"name\": \"oak\", \"rules\": \x7b\"tree\": [\"STRING\", \"leaf\"]\x7d\x7d"

/-- A directory with the library of a grammar, with an artifact of its name that declares
another one, and with an artifact that is as it should be. -/
def shelf : FileSystem := fun path =>
  if path = "shelf/pine.so" then
    ⟨true, true, .error .notUtf8, .ok ⟨[("tree_sitter_pine", some pine)]⟩⟩
  else if path = "shelf/pine.json" then ⟨true, true, .ok cone, .error "file too short"⟩
  else if path = "shelf/oak.json" then ⟨true, true, .ok acorn, .error "file too short"⟩
  else ⟨false, false, .error .missing, .error "no such file"⟩

/-- The library is found in the second directory and grants its parser. The wrong name
of the artifact is told, and the missing rule only where the name is right. The language of
the other artifact answers from the table of its grammar. -/
theorem shelf_gates :
    let location := Location.search { searchPaths := ["attic", "shelf"] }
    ((library "pine" location).loadChecked shelf).value = .ok (.compiled "pine" pine) ∧
    ((artifact "pine" location).loadChecked shelf).value =
      .error ⟨"pine", some (.nameMismatch "pine" "fir")⟩ ∧
    ((artifact "fir" (.given "shelf/pine.json")).loadChecked shelf).value =
      .error ⟨"fir", some (.invalid (.undefinedSymbol "cone" "tree"))⟩ ∧
    ∃ language grammar table,
      ((artifact "oak" location).loadChecked shelf).value = .ok language ∧
      (artifact "oak" location).Declares shelf grammar ∧
      (SymbolTable.ofGrammar? grammar).value = some table ∧
      language.AnswersFrom grammar table := by
  intro location
  have decoded : (Document.readGrammar cone).toOption.any fun grammar =>
      grammar.name = "fir" ∧
      (Validation.violations grammar).head? = some (.undefinedSymbol "cone" "tree") := by
    decide +kernel
  cases read : Document.readGrammar cone with
  | error fault => simp [read, Except.toOption] at decoded
  | ok grammar =>
    simp only [read, Except.toOption, Option.any_some, decide_eq_true_eq] at decoded
    obtain ⟨named, told⟩ := decoded
    have mismatch : Language.Refuses "pine" cone (.nameMismatch "pine" "fir") := by
      rw [← named]
      exact .nameMismatch read (by rw [named]; decide)
    have libraryFound : location.Finds shelf (Compiled.fileName "pine") "shelf/pine.so" :=
      Location.value_resolve_eq_ok_iff.mp (by decide +kernel)
    have artifactFound : location.Finds shelf (Artifact.fileName "pine") "shelf/pine.json" :=
      Location.value_resolve_eq_ok_iff.mp (by decide +kernel)
    have offered : Compiled.Offers shelf "pine" location (some pine) :=
      .function libraryFound rfl rfl (by decide +kernel)
    refine ⟨?library, ?misnamed, ?invalid, ?granted⟩
    case library =>
      exact ((language_granted_exactly_when_gates_pass shelf (.library "pine" location)
        fun _ _ => nofun).1 _).mpr (.library offered (by decide))
    case misnamed =>
      exact ((language_granted_exactly_when_gates_pass shelf (.artifact "pine" location)
        fun _ _ => nofun).2.1 _).mpr ⟨rfl, .artifactRefused (.file artifactFound rfl) mismatch⟩
    case invalid =>
      exact ((language_granted_exactly_when_gates_pass shelf
        (.artifact "fir" (.given "shelf/pine.json")) fun _ _ => nofun).2.1 _).mpr
        ⟨rfl, .artifactRefused (.file (.given _) rfl) (.invalid read named told)⟩
    case granted =>
      obtain ⟨granted, -, answers⟩ :=
        language_granted_exactly_when_gates_pass shelf (.artifact "oak" location) fun _ _ => nofun
      have loads : ((artifact "oak" location).loadChecked shelf).value.isOk := by decide +kernel
      cases loaded : ((artifact "oak" location).loadChecked shelf).value with
      | error error => simp [loaded, Except.isOk, Except.toBool] at loads
      | ok language =>
        obtain ⟨-, ⟨grammar, table, declared, numbered, fromTable⟩ | ⟨_, ⟨⟩, _⟩⟩ :=
          answers language ((granted language).mp loaded)
        exact ⟨language, grammar, table, rfl, declared, numbered, fromTable⟩

end EntryPoint

end GrammarArtifact
