import GrammarArtifact.Document.Scan
import GrammarArtifact.Text.Rest

/-!
# Reading documents

A reader takes the text that is left and yields a value together with the rest of
the text, or the first fault. The rest is strictly shorter, and the result carries
the proof, so lists and objects of any length are read by recursion on the text.

The second half of this module passes over values that nobody wants. Passing keeps
its own stack of open brackets, so it goes to any depth, while readers of nested
values are given the number of brackets that may still be opened.
-/

namespace GrammarArtifact.Document

/-- A value read from the front of a text, and what is left of the text. -/
structure Read (α : Type) (text : List Char) where
  value : α
  rest : List Char
  shorter : rest.length < text.length

/-- A way to read a value of a type. -/
abbrev Reader (α : Type) := (text : List Char) → Except Fault (Read α text)

namespace Read

variable {α β : Type} {text rest longer : List Char} {c : Char}

/-- The same reading with its value changed. -/
def map (f : α → β) (read : Read α text) : Read β text :=
  ⟨f read.value, read.rest, read.shorter⟩

/-- The same reading seen from a text that is at least as long. -/
def widen (read : Read α text) (within : text.length ≤ longer.length) : Read α longer :=
  ⟨read.value, read.rest, Nat.lt_of_lt_of_le read.shorter within⟩

/-- A value that takes one character. -/
def next (value : α) : Read α (c :: rest) := ⟨value, rest, Text.length_tail_lt c rest⟩

/-- The same reading behind a further character. -/
def behind (read : Read α rest) : Read α (c :: rest) := read.widen (Text.length_tail_le c rest)

end Read

namespace Reader

variable {α β : Type}

/-- Read and change the value. -/
def map (f : α → β) (reader : Reader α) : Reader β := fun text =>
  match reader text with
  | .error fault => .error fault
  | .ok read => .ok (read.map f)

/-- Read one value and then another from the rest. -/
def andThen (first : Reader α) (second : α → Reader β) : Reader β := fun text =>
  match first text with
  | .error fault => .error fault
  | .ok read =>
    match second read.value read.rest with
    | .error fault => .error fault
    | .ok next => .ok (next.widen (Nat.le_of_lt read.shorter))

/-- Skip spaces before reading. -/
def afterSpace (reader : Reader α) : Reader α := fun text =>
  match reader (skipSpace text) with
  | .error fault => .error fault
  | .ok read => .ok (read.widen (length_skipSpace_le text))

/-- Pass the rest of a word whose first letter stands at the front, for a value. -/
def word (letters : List Char) (value : α) : Reader α
  | [] => .error (.ended .value)
  | _ :: text =>
    match passed : scanWord letters text with
    | .error fault => .error fault
    | .ok rest => .ok ⟨value, rest, Nat.lt_succ_of_le (length_of_scanWord passed)⟩

/-- Read a string from its opening quote on. -/
def quoted : Reader String
  | [] => .error (.ended .value)
  | _ :: text =>
    match scanned : scanString [] text with
    | .error fault => .error fault
    | .ok (string, rest) =>
      .ok ⟨string, rest, Nat.lt_succ_of_lt (length_of_scanString scanned)⟩

/-- Read a number that begins with a digit, or whose minus sign has been passed. -/
def digits (negative : Bool) : Reader Number := fun text =>
  match scanned : scanNumber negative text with
  | .error fault => .error fault
  | .ok (number, rest) =>
    match number.value? with
    | none => .error .numberTooLarge
    | some value => .ok ⟨value, rest, length_of_scanNumber scanned⟩

/-- Read a number from its sign or first digit on. -/
def number : Reader Number
  | '-' :: rest => (digits true rest).map Read.behind
  | text => digits false text

/-- The fault for a value that is not of the wanted type. The value is read so far
as it takes to describe it, so it can have a fault of its own. -/
def mismatch (wanted : Wanted) (text : List Char) : Fault :=
  let describe {α : Type} (result : Except Fault (Read α text)) (found : α → Found) : Fault :=
    match result with
    | .error fault => fault
    | .ok read => .wrongType (found read.value) wanted
  match text with
  | [] => .ended .value
  | c :: _ =>
    if c = 'n' then describe (word ['u', 'l', 'l'] () text) fun _ => .null
    else if c = 't' then describe (word ['r', 'u', 'e'] () text) fun _ => .boolean true
    else if c = 'f' then describe (word ['a', 'l', 's', 'e'] () text) fun _ => .boolean false
    else if c = '-' || isDigit c then describe (number text) .number
    else if c = '"' then describe (quoted text) .string
    else if c = '[' then .wrongType .sequence wanted
    else if c = '\x7b' then .wrongType .map wanted
    else .valueExpected

/-- Read a string. -/
def string : Reader String := afterSpace fun text =>
  match text with
  | '"' :: rest => quoted ('"' :: rest)
  | other => .error (mismatch .string other)

/-- Read `true` or `false`. -/
def boolean : Reader Bool := afterSpace fun text =>
  match text with
  | 't' :: rest => word ['r', 'u', 'e'] true ('t' :: rest)
  | 'f' :: rest => word ['a', 'l', 's', 'e'] false ('f' :: rest)
  | other => .error (mismatch .boolean other)

/-- Read `null`, and nothing else. -/
def unit : Reader Unit := afterSpace fun text =>
  match text with
  | 'n' :: rest => word ['u', 'l', 'l'] () ('n' :: rest)
  | other => .error (mismatch .unit other)

/-- Read `null` for no value, or else a value. -/
def optional (reader : Reader α) : Reader (Option α) := afterSpace fun text =>
  match text with
  | 'n' :: rest => word ['u', 'l', 'l'] none ('n' :: rest)
  | other => map some reader other

/-- Pass the colon between a key and its value. -/
def colon : Reader Unit := afterSpace fun text =>
  match text with
  | ':' :: _ => .ok (.next ())
  | [] => .error (.ended .object)
  | _ => .error .colonExpected

/-! ## Lists -/

/-- What comes next in a list: its end, or an element. -/
inductive NextItem (text : List Char)
  | close (rest : List Char) (shorter : rest.length < text.length)
  | item (rest : List Char) (within : rest.length ≤ text.length)

/-- Look for the next element of a list. Elements but the first follow a comma. -/
def nextItem (first : Bool) (text : List Char) : Except Fault (NextItem text) :=
  match found : skipSpace text with
  | [] => .error (.ended .list)
  | c :: rest =>
    have bound : rest.length < text.length := by
      have := length_skipSpace_le text
      rw [found] at this
      exact this
    if c = ']' then .ok (.close rest bound)
    else if first then .ok (.item (c :: rest) bound)
    else if c = ',' then
      match skipSpace rest with
      | [] => .error (.ended .value)
      | ']' :: _ => .error .trailingComma
      | _ => .ok (.item rest (Text.length_le_of_lt bound))
    else .error .listEndExpected

/-- Read the elements of a list whose bracket has been passed. The elements read so
far are held last first. -/
def items (item : Reader α) (whole : List Char) (first : Bool) (read : List α)
    (text : List Char) (within : text.length ≤ whole.length) :
    Except Fault (Read (List α) whole) :=
  match nextItem first text with
  | .error fault => .error fault
  | .ok (.close rest shorter) =>
    .ok ⟨read.reverse, rest, Nat.lt_of_lt_of_le shorter within⟩
  | .ok (.item rest bound) =>
    match item rest with
    | .error fault => .error fault
    | .ok next =>
      have shorter : next.rest.length < text.length := Nat.lt_of_lt_of_le next.shorter bound
      items item whole false (next.value :: read) next.rest
        (Nat.le_trans (Nat.le_of_lt shorter) within)
termination_by text.length

/-- Read a list. There is no reader for its elements when no bracket may be opened
any more. -/
def list (item : Option (Reader α)) : Reader (List α) := afterSpace fun text =>
  match text with
  | '[' :: rest =>
    match item with
    | none => .error .tooDeep
    | some item => (items item rest true [] rest (Text.length_le_self rest)).map Read.behind
  | other => .error (mismatch .sequence other)

/-! ## Objects -/

/-- Look for the next key of an object. Keys but the first follow a comma. No key
means that the object has been closed. -/
def nextKey (first : Bool) : Reader (Option String) := afterSpace fun text =>
  match text with
  | [] => .error (.ended .object)
  | c :: rest =>
    if c = '\x7d' then .ok (.next none)
    else if first then
      if c = '"' then map some quoted (c :: rest) else .error .keyExpected
    else if c = ',' then
      match found : skipSpace rest with
      | [] => .error (.ended .value)
      | '"' :: after =>
        have within : ('"' :: after).length ≤ (c :: rest).length := by
          have := length_skipSpace_le rest
          rw [found] at this
          exact Nat.le_succ_of_le this
        match map some quoted ('"' :: after) with
        | .error fault => .error fault
        | .ok read => .ok (read.widen within)
      | '\x7d' :: _ => .error .trailingComma
      | _ => .error .keyExpected
    else .error .objectEndExpected

/-- Read the members of an object whose brace has been passed. Each member, from
after its key on, turns the value read so far into the next one. -/
def members (member : α → String → Reader α) (whole : List Char) (first : Bool) (value : α)
    (text : List Char) (within : text.length ≤ whole.length) :
    Except Fault (Read α whole) :=
  match nextKey first text with
  | .error fault => .error fault
  | .ok ⟨none, rest, shorter⟩ => .ok ⟨value, rest, Nat.lt_of_lt_of_le shorter within⟩
  | .ok ⟨some key, rest, bound⟩ =>
    match member value key rest with
    | .error fault => .error fault
    | .ok next =>
      have shorter : next.rest.length < text.length := Nat.lt_trans next.shorter bound
      members member whole false next.value next.rest
        (Nat.le_trans (Nat.le_of_lt shorter) within)
termination_by text.length

/-- Read an object as bindings of its keys, last first. There is no reader for its
values when no bracket may be opened any more. -/
def bindings (value : Option (Reader α)) : Reader (List (String × α)) := afterSpace fun text =>
  match text with
  | '\x7b' :: rest =>
    match value with
    | none => .error .tooDeep
    | some value =>
      let member (read : List (String × α)) (key : String) : Reader (List (String × α)) :=
        andThen colon fun _ => map (fun v => (key, v) :: read) value
      (members member rest true [] rest (Text.length_le_self rest)).map Read.behind
  | other => .error (mismatch .map other)

/-! ## Passing over values -/

/-- An open bracket around what is being passed. -/
inductive Bracket
  | list
  | object
deriving DecidableEq, Repr

/-- Pass the key of a member and its colon. -/
def passKey : Reader Unit := afterSpace fun text =>
  match text with
  | [] => .error (.ended .object)
  | '"' :: rest =>
    match passed : passString rest with
    | .error fault => .error fault
    | .ok after =>
      match colon after with
      | .error fault => .error fault
      | .ok read =>
        .ok (read.widen (Nat.le_succ_of_le (Nat.le_of_lt (length_of_passString passed))))
  | _ => .error .keyExpected

/-- Pass a value that holds no other. -/
def passScalar (text : List Char) : Except Fault (Read Unit text) :=
  match text with
  | [] => .error (.ended .value)
  | c :: rest =>
    if c = 'n' then word ['u', 'l', 'l'] () (c :: rest)
    else if c = 't' then word ['r', 'u', 'e'] () (c :: rest)
    else if c = 'f' then word ['a', 'l', 's', 'e'] () (c :: rest)
    else if c = '"' then
      match passed : passString rest with
      | .error fault => .error fault
      | .ok after => .ok ⟨(), after, Nat.lt_succ_of_lt (length_of_passString passed)⟩
    else if c = '-' then
      match passed : passNumber rest with
      | .error fault => .error fault
      | .ok after => .ok ⟨(), after, Nat.lt_succ_of_lt (length_of_passNumber passed)⟩
    else if isDigit c then
      match passed : passNumber (c :: rest) with
      | .error fault => .error fault
      | .ok after => .ok ⟨(), after, length_of_passNumber passed⟩
    else .error .valueExpected

mutual

/-- Pass a value inside some open brackets, and then everything up to the end of the
outermost of them. -/
def passValue (whole : List Char) (brackets : List Bracket) (text : List Char)
    (_within : text.length ≤ whole.length) : Except Fault (Read Unit whole) :=
  match found : skipSpace text with
  | '[' :: rest =>
    have shorter : rest.length < text.length := by
      have := length_skipSpace_le text
      rw [found] at this
      exact this
    match nextItem true rest with
    | .error fault => .error fault
    | .ok (.close after closed) =>
      passAfter whole brackets after (by omega)
    | .ok (.item _ _) => passValue whole (.list :: brackets) rest (by omega)
  | '\x7b' :: rest =>
    have shorter : rest.length < text.length := by
      have := length_skipSpace_le text
      rw [found] at this
      exact this
    match opened : skipSpace rest with
    | '\x7d' :: after =>
      have closed : after.length < rest.length := by
        have := length_skipSpace_le rest
        rw [opened] at this
        exact this
      passAfter whole brackets after (by omega)
    | _ =>
      match passKey rest with
      | .error fault => .error fault
      | .ok key =>
        have := key.shorter
        passValue whole (.object :: brackets) key.rest (by omega)
  | front =>
    match passScalar front with
    | .error fault => .error fault
    | .ok read =>
      have bound : read.rest.length < text.length := by
        have := length_skipSpace_le text
        have := read.shorter
        rw [found] at *
        omega
      passAfter whole brackets read.rest (by omega)
termination_by text.length

/-- Go on after a value inside some open brackets. -/
def passAfter (whole : List Char) (brackets : List Bracket) (text : List Char)
    (shorter : text.length < whole.length) :
    Except Fault (Read Unit whole) :=
  match brackets with
  | [] => .ok ⟨(), text, shorter⟩
  | bracket :: outer =>
    match found : skipSpace text with
    | [] => .error (.ended (if bracket = .list then .list else .object))
    | c :: rest =>
      have bound : rest.length < text.length := by
        have := length_skipSpace_le text
        rw [found] at this
        exact this
      if c = ',' then
        match bracket with
        | .list => passValue whole (bracket :: outer) rest (by omega)
        | .object =>
          match passKey rest with
          | .error fault => .error fault
          | .ok key =>
            have := key.shorter
            passValue whole (bracket :: outer) key.rest (by omega)
      else if c = ']' ∧ bracket = .list then passAfter whole outer rest (by omega)
      else if c = '\x7d' ∧ bracket = .object then
        passAfter whole outer rest (by omega)
      else .error (if bracket = .list then .listEndExpected else .objectEndExpected)
termination_by text.length

end

/-- Pass a value of any form, depth and size. -/
def ignored : Reader Unit := fun text => passValue text [] text (Text.length_le_self text)

end Reader

end GrammarArtifact.Document
