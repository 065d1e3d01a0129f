import GrammarArtifact.Document.Reader

/-!
# Records in documents

A record has a fixed set of keys. It is written as an object, in which the keys come
in any order and unknown keys are passed over, or as a list of the values in the
order in which the keys are declared. A record that leaves out a key takes the value
that the key has in a blank record, unless the key is required.
-/

namespace GrammarArtifact.Document

/-- The form of a record: its name in messages, and its keys in declaration order. -/
structure RecordForm (κ : Type) where
  name : String
  keys : List κ
  label : κ → String
  required : κ → Bool

namespace RecordForm

variable {κ σ : Type}

/-- The key that goes by a label. -/
def key? (form : RecordForm κ) (label : String) : Option κ :=
  form.keys.find? (form.label · == label)

/-- Read one member of an object, from after its key on, into the record read so far.
Beside the record stand the keys that it has already. -/
def member [DecidableEq κ] (form : RecordForm κ) (field : κ → σ → Reader σ)
    (state : σ × List κ) (label : String) : Reader (σ × List κ) :=
  match form.key? label with
  | none => Reader.andThen Reader.colon fun _ => Reader.map (fun _ => state) Reader.ignored
  | some key =>
    if key ∈ state.2 then fun _ => .error (.keyRepeated label)
    else Reader.andThen Reader.colon fun _ =>
      Reader.map (fun value => (value, key :: state.2)) (field key state.1)

/-- Read the end of a list in which every key has its value. -/
def close (text : List Char) : Except Fault (Read Unit text) :=
  Reader.afterSpace (fun front =>
    match front with
    | [] => .error (.ended .list)
    | ']' :: _ => .ok (.next ())
    | ',' :: rest =>
      match skipSpace rest with
      | ']' :: _ => .error .trailingComma
      | _ => .error .trailingText
    | _ => .error .trailingText) text

/-- Read the values of a list into the record read so far. The number of values
before them is `index`, and the keys that have no value yet are `keys`. -/
def slots (form : RecordForm κ) (field : κ → σ → Reader σ) (whole : List Char)
    (first : Bool) (index : Nat) (record : σ) :
    (keys : List κ) → (text : List Char) → text.length ≤ whole.length →
      Except Fault (Read σ whole)
  | [], text, within =>
    match close text with
    | .error fault => .error fault
    | .ok read => .ok ((read.map fun _ => record).widen within)
  | key :: keys, text, within =>
    match Reader.nextItem first text with
    | .error fault => .error fault
    | .ok (.close rest shorter) =>
      match (key :: keys).findIdx? form.required with
      | some missing => .error (.tooShort (index + missing) form.name form.keys.length)
      | none => .ok ⟨record, rest, Text.length_lt_of_within shorter within⟩
    | .ok (.item rest bound) =>
      match field key record rest with
      | .error fault => .error fault
      | .ok next =>
        slots form field whole false (index + 1) next.value keys next.rest
          (Nat.le_trans (Nat.le_of_lt next.shorter) (Nat.le_trans bound within))

/-- Read a record. A key's reader turns the record read so far into the next one.
There is no reader for the keys when no bracket may be opened any more. -/
def read [DecidableEq κ] (form : RecordForm κ) (field : Option (κ → σ → Reader σ))
    (blank : σ) : Reader σ := Reader.afterSpace fun text =>
  match text with
  | '\x7b' :: rest =>
    match field with
    | none => .error .tooDeep
    | some field =>
      match Reader.members (form.member field) rest true (blank, []) rest
          (Text.length_le_self rest) with
      | .error fault => .error fault
      | .ok done =>
        match form.keys.find? fun key => form.required key && key ∉ done.value.2 with
        | some missing => .error (.keyMissing (form.label missing))
        | none => .ok (done.map Prod.fst).behind
  | '[' :: rest =>
    match field with
    | none => .error .tooDeep
    | some field =>
      (form.slots field rest true 0 blank form.keys rest (Text.length_le_self rest)).map
        Read.behind
  | other => .error (Reader.mismatch (.record form.name) other)

end RecordForm

end GrammarArtifact.Document
