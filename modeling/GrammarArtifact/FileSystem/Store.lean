import GrammarArtifact.FileSystem
import GrammarArtifact.Path

/-!
# Stores

A store is a file system that is written entry by entry. Places in it are given by
the names on the way to them, innermost first, so the root is the place without
names, and the place above another one is its tail.
-/

namespace GrammarArtifact

/-- A place in a store. -/
abbrev Place := List String

/-- What a file holds: bytes, or a shared library. -/
inductive Contents
  | bytes (data : ByteArray)
  | library (library : Library)

/-- What stands at a place. -/
inductive Entry
  | directory
  | file (contents : Contents)

/-- A file system as a list of places and what stands there, together with the
directory that relative paths start from and the words for what is no library. -/
structure Store where
  entries : List (Place × Entry) := []
  working : Place := []
  refusal : String → String := fun path => s!"{path}: no shared library"

namespace Store

/-- What stands at a place. The root is always a directory. -/
def entry? (store : Store) (place : Place) : Option Entry :=
  if place = [] then some .directory else store.entries.lookup place

/-- The longest name, in bytes. -/
def longestName : Nat := 255

/-- The longest path, in bytes. -/
def longestPath : Nat := 4095

/-- Go on from a place by names. Every place that a name is looked up in has to be a
directory. -/
def walk (store : Store) (place : Place) : List String → Except ReadFault Place
  | [] => .ok place
  | name :: rest =>
    match store.entry? place with
    | some .directory =>
      if name = "." then walk store place rest
      else if name = ".." then walk store place.tail rest
      else if longestName < name.utf8ByteSize then .error .nameTooLong
      else if (store.entry? (name :: place)).isNone then .error .missing
      else walk store (name :: place) rest
    | _ => .error .notDirectory

/-- What stands at the end of a path. A path that ends with a slash leads to a
directory or nowhere. -/
def find (store : Store) (path : String) : Except ReadFault Entry := do
  if path.toList.contains '\x00' then .error .zeroInName
  if path = "" then .error .missing
  if longestPath < path.utf8ByteSize then .error .nameTooLong
  let start := if Path.isAbsolute path then [] else store.working
  let place ← store.walk start (Path.parts '/' path)
  match store.entry? place with
  | none => .error .missing
  | some (.file contents) =>
    if Path.endsWithSlash path then .error .notDirectory else .ok (.file contents)
  | some .directory => .ok .directory

/-- The text of an entry. -/
def text : Entry → Except ReadFault String
  | .directory => .error .isDirectory
  | .file (.library _) => .error .notUtf8
  | .file (.bytes data) =>
    match String.fromUTF8? data with
    | some text => .ok text
    | none => .error .notUtf8

/-- What can be seen in a store. A library is opened only by a path with a slash;
without one, the path would be a name to be found elsewhere. -/
def look (store : Store) : FileSystem := fun path =>
  let refused := .error (store.refusal path)
  match store.find path with
  | .error fault =>
    { isPresent := false, isFile := false, text := .error fault, library := refused }
  | .ok entry =>
    { isPresent := true
      isFile := match entry with
        | .file _ => true
        | .directory => false
      text := text entry
      library := match entry with
        | .file (.library library) => if path.toList.contains '/' then .ok library else refused
        | _ => refused }

/-! ## Writing -/

/-- The place that a path leads to when all places on the way are directories. -/
def placeOf (store : Store) (path : String) : Place :=
  let start := if Path.isAbsolute path then [] else store.working
  (Path.parts '/' path).foldl
    (fun place name =>
      if name = "." then place else if name = ".." then place.tail else name :: place) start

/-- Put an entry at a place. -/
def put (store : Store) (place : Place) (entry : Entry) : Store :=
  { store with entries := (place, entry) :: store.entries.filter (·.1 ≠ place) }

/-- Make a place and all places above it directories, where nothing is yet. -/
def makePlace (store : Store) : Place → Store
  | [] => store
  | name :: above =>
    let made := store.makePlace above
    if (made.entry? (name :: above)).isSome then made else made.put (name :: above) .directory

/-- Make a directory and those above it. -/
def makeDirectory (store : Store) (path : String) : Store :=
  store.makePlace (store.placeOf path)

/-- Write a file and make the directories above it. -/
def write (store : Store) (path : String) (contents : Contents) : Store :=
  let place := store.placeOf path
  (store.makePlace place.tail).put place (.file contents)

/-- Remove what stands at a path, and everything below. -/
def remove (store : Store) (path : String) : Store :=
  let place := store.placeOf path
  { store with entries := store.entries.filter fun entry => !place.isSuffixOf entry.1 }

/-- A store with nothing but an empty working directory. -/
def fresh : Store := Store.makePlace { working := ["work", "tmp"] } ["work", "tmp"]

end Store

end GrammarArtifact
