import GrammarArtifact.Event
import GrammarArtifact.FileSystem
import GrammarArtifact.Path

/-!
# Settings

The settings of loading say in which directories artifacts are looked for, in order,
and which interface versions compiled parsers may have.
-/

namespace GrammarArtifact

/-- Where to look for artifacts, and which parsers to accept. -/
structure Settings where
  searchPaths : List String := []
  versions : VersionRange := .standard
deriving DecidableEq, Repr

/-- What the surroundings of a program say about directories. The home of the account
counts when no home is set, or an empty one. -/
structure Environment where
  searchPath : Option String := none
  home : Option String := none
  accountHome : Option String := none
  configHome : Option String := none
  dataHome : Option String := none
  programDirectory : Option String := none
deriving DecidableEq, Repr

namespace Environment

/-- The home directory. -/
def homeDirectory? (environment : Environment) : Option String :=
  (environment.home.filter (· ≠ "")) <|> environment.accountHome

/-- A directory that is set by an absolute path, or else stands below the home. -/
def userDirectory? (environment : Environment) (set : Option String) (usual : String) :
    Option String :=
  (set.filter Path.isAbsolute) <|> environment.homeDirectory?.map (Path.join · usual)

/-- The directories to search: those that are listed between colons, then those of
the user for settings and for data, and then the one beside the program. -/
def searchPaths (environment : Environment) : List String :=
  let shared (directory : String) := Path.join (Path.join directory "sakurae") "grammars"
  environment.searchPath.elim [] (Path.parts ':') ++
    ((environment.userDirectory? environment.configHome ".config").map shared).toList ++
    ((environment.userDirectory? environment.dataHome ".local/share").map shared).toList ++
    (environment.programDirectory.map (Path.join · "grammars")).toList

end Environment

namespace Settings

/-- The settings that follow from the environment. -/
def ofEnvironment (environment : Environment) : Settings :=
  { searchPaths := environment.searchPaths }

/-- Search a further directory, after the others. -/
def addPath (settings : Settings) (directory : String) : Settings :=
  { settings with searchPaths := settings.searchPaths ++ [directory] }

/-- Accept other versions. -/
def withVersions (settings : Settings) (versions : VersionRange) : Settings :=
  { settings with versions }

/-- The first of some paths at which there is a file. Every path that is looked at is
told as an event. -/
def firstFile (files : FileSystem) : List String → Logged (Option String)
  | [] => pure none
  | path :: rest => do
    let found := (files path).isFile
    Logged.note {
      level := .trace
      topic := .search
      message := "probing grammar search path"
      fields := [("path", .text path), ("found", .flag found)] }
    if found then return some path else firstFile files rest

/-- The paths that a file can have. -/
def candidates (settings : Settings) (file : String) : List String :=
  settings.searchPaths.map (Path.join · file)

/-- The path of a file in the first search path that has it. -/
def resolve (settings : Settings) (files : FileSystem) (file : String) :
    Logged (Option String) :=
  firstFile files (settings.candidates file)

end Settings

end GrammarArtifact
