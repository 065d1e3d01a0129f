/-!
# Events

What happens while grammars are loaded is told in events. A computation that tells
events is a value together with its events, in the order in which they came up.
-/

namespace GrammarArtifact

/-- How much an event matters, from the most to the least. -/
inductive Level
  | error
  | warn
  | info
  | debug
  | trace
deriving DecidableEq, Repr

namespace Level

/-- All levels, from the most important one on. -/
def all : List Level := [.error, .warn, .info, .debug, .trace]

/-- The name of a level. -/
def name : Level → String
  | .error => "ERROR"
  | .warn => "WARN"
  | .info => "INFO"
  | .debug => "DEBUG"
  | .trace => "TRACE"

/-- How many levels are more important. -/
def rank : Level → Nat
  | .error => 0
  | .warn => 1
  | .info => 2
  | .debug => 3
  | .trace => 4

end Level

/-- What a field of an event can hold. -/
inductive EventValue
  | text (value : String)
  | number (value : Nat)
  | flag (value : Bool)
deriving DecidableEq, Repr

/-- The part of loading that an event comes from. -/
inductive Topic
  | validation
  | symbols
  | language
  | search
  | artifact
  | parser
  | check
deriving DecidableEq, Repr

/-- Something that happened. Fields that are not kept are known by their names only. -/
structure Event where
  level : Level
  topic : Topic
  message : String
  fields : List (String × EventValue) := []
  unkept : List String := []
deriving DecidableEq, Repr

/-- The names of all fields of an event, of which the message is one. -/
def Event.fieldNames (event : Event) : List String :=
  "message" :: (event.fields.map (·.1) ++ event.unkept)

/-- A value and the events told while it was computed. -/
structure Logged (α : Type) where
  value : α
  events : List Event := []

namespace Logged

variable {α β : Type}

/-- A value without events. -/
protected def pure (value : α) : Logged α := ⟨value, []⟩

/-- One computation after another. -/
protected def bind (first : Logged α) (next : α → Logged β) : Logged β :=
  let second := next first.value
  ⟨second.value, first.events ++ second.events⟩

instance : Monad Logged where
  pure := Logged.pure
  bind := Logged.bind

/-- Tell some events. -/
def tell (events : List Event) : Logged Unit := ⟨(), events⟩

/-- Tell one event. -/
def note (event : Event) : Logged Unit := tell [event]

@[simp] theorem value_pure (value : α) : (pure value : Logged α).value = value := rfl

@[simp] theorem events_pure (value : α) : (pure value : Logged α).events = [] := rfl

@[simp] theorem value_bind (first : Logged α) (next : α → Logged β) :
    (first >>= next).value = (next first.value).value := rfl

@[simp] theorem events_bind (first : Logged α) (next : α → Logged β) :
    (first >>= next).events = first.events ++ (next first.value).events := rfl

@[simp] theorem events_tell (events : List Event) : (tell events).events = events := rfl

@[simp] theorem events_note (event : Event) : (note event).events = [event] := rfl

instance : LawfulMonad Logged :=
  LawfulMonad.mk' Logged
    (fun computation => by
      show Logged.mk computation.value (computation.events ++ []) = computation
      rw [List.append_nil])
    (fun _ _ => rfl)
    (fun _ _ _ => by simp [bind, Logged.bind])

end Logged

end GrammarArtifact
