import GrammarArtifact.Event
import GrammarArtifact.Path
import GrammarArtifact.Pattern.Reading
import GrammarArtifact.Text.Words

/-!
# Log filters

A log filter says which events are written to the log. It is a list of directives
between commas, each of the form `target[span{field=value}]=level` in which most parts
can be left out. A directive allows the events up to a level whose target begins with
a given text and that have a given field, and the most specific directive decides.
-/

namespace GrammarArtifact.CommandLine

/-- The target that events of a topic go to. -/
def target : Topic → String
  | .validation => "sakurae_grammar::validate"
  | .symbols => "sakurae_grammar::symbols"
  | .language => "sakurae_grammar::language"
  | .search => "sakurae_grammar::config"
  | .artifact => "sakurae_grammar::loader"
  | .parser => "sakurae_grammar::native"
  | .check => "sakurae_grammar::check"

/-- What a directive asks for besides a target: nothing, that an event has a field, or
that it happens within a span. -/
inductive Scope
  | any
  | field (name : String)
  | span
deriving DecidableEq, Repr

/-- A part of a log filter. Without a target it is about events of all targets, and
without a level it allows none of them. -/
structure Directive where
  target : Option String
  scope : Scope
  level : Option Level
deriving DecidableEq, Repr

/-- Why a directive cannot be read: it is malformed, or it would be cut inside a
character. -/
inductive DirectiveFault
  | malformed
  | cut
deriving DecidableEq, Repr

namespace Directive

/-! ## Levels -/

/-- The names of levels. No level at all is called off. -/
def levelNames : List (String × Option Level) :=
  [("off", none), ("error", some .error), ("warn", some .warn), ("info", some .info),
    ("debug", some .debug), ("trace", some .trace)]

/-- The value of a number that may have a plus sign in front. -/
def number? (text : List Char) : Option Nat :=
  let digits := if text.head? = some '+' then text.drop 1 else text
  if digits.isEmpty || !digits.all Char.isDigit then none
  else some (digits.foldl (fun value c => value * 10 + (c.toNat - '0'.toNat)) 0)

/-- The level with a number or with a name, in whatever case. -/
def level? (text : List Char) : Option (Option Level) :=
  match number? text with
  | some number => levelNames[number]?.map (·.2)
  | none => levelNames.lookup (Text.lowered text)

/-! ## Reading -/

/-- The number of bytes that a text takes. -/
def size (text : List Char) : Nat := text.foldl (fun bytes c => bytes + c.utf8Size) 0

/-- A text from a number of bytes on, unless that is inside a character. -/
def dropBytes : Nat → List Char → Except DirectiveFault (List Char)
  | 0, text => .ok text
  | _, [] => .ok []
  | bytes, c :: rest =>
    if c.utf8Size ≤ bytes then dropBytes (bytes - c.utf8Size) rest else .error .cut

/-- The first bytes of a text, unless they end inside a character. -/
def takeBytes : Nat → List Char → Except DirectiveFault (List Char)
  | 0, _ => .ok []
  | _, [] => .ok []
  | bytes, c :: rest =>
    if c.utf8Size ≤ bytes then (takeBytes (bytes - c.utf8Size) rest).map (c :: ·)
    else .error .cut

/-- Some bytes of a text, the end of the text being given as none. -/
def slice (text : List Char) (start : Nat) (stop : Option Nat) :
    Except DirectiveFault (List Char) :=
  match stop with
  | none => dropBytes start text
  | some stop =>
    match takeBytes stop text with
    | .error fault => .error fault
    | .ok front => dropBytes start front

/-- A directive as it stands, and the same without the blanks around it. Its marks are
looked for in the second, and what stands between them is taken from the first, at the
same places. -/
structure Source where
  whole : List Char
  shown : List Char

namespace Source

/-- A directive as it stands. -/
def ofText (text : String) : Source :=
  let front := text.toList.dropWhile Text.isBlank
  ⟨text.toList, (front.reverse.dropWhile Text.isBlank).reverse⟩

/-- The text between two places, each given by what is shown from there on. -/
def between (source : Source) (front back : List Char) : Except DirectiveFault (List Char) :=
  let place (rest : List Char) := size source.shown - size rest
  slice source.whole (place front) (some (place back))

/-- The text from a place on. -/
def onwards (source : Source) (front : List Char) : Except DirectiveFault (List Char) :=
  slice source.whole (size source.shown - size front) none

end Source

/-- Whether a text is one of the numbers that a field can be compared with: digits with
a sign and perhaps a point and an exponent, or one of the names of numbers that have no
digits. -/
def isNumber (text : List Char) : Bool :=
  let unsigned (text : List Char) :=
    if text.head?.any fun c => c = '+' || c = '-' then text.drop 1 else text
  let body := unsigned text
  if ["inf", "infinity", "nan"].contains (Text.lowered body) then true
  else
    let whole := body.takeWhile Char.isDigit
    let behind := body.dropWhile Char.isDigit
    let pointed := behind.head? = some '.'
    let places := if pointed then (behind.drop 1).takeWhile Char.isDigit else []
    let behind := if pointed then (behind.drop 1).dropWhile Char.isDigit else behind
    if whole.isEmpty && places.isEmpty then false
    else
      match behind with
      | [] => true
      | mark :: exponent =>
        let digits := unsigned exponent
        (mark = 'e' || mark = 'E') && !digits.isEmpty && digits.all Char.isDigit

variable [Text.Unicode]

/-- What a directive with a field asks for. A value can only be found in spans. It is a
number or a pattern. -/
def fieldScope (text : List Char) : Except DirectiveFault Scope :=
  let name := text.takeWhile (· ≠ '=')
  match text.dropWhile (· ≠ '=') with
  | [] => if name.isEmpty then .error .malformed else .ok (.field (String.ofList name))
  | _ :: value =>
    let value := value.takeWhile (· ≠ '=')
    if isNumber value || (Pattern.read? value).isSome then .ok .span else .error .malformed

/-- The level of a directive from its equals sign on. A level that is missing or left
empty allows everything. -/
def levelFrom (source : Source) : List Char → Except DirectiveFault (Option Level)
  | [] => .ok (some .trace)
  | '=' :: rest => do
    let name ← source.onwards rest
    if name.isEmpty then return some .trace
    match level? name with
    | some level => return level
    | none => throw .malformed
  | _ => .error .malformed

/-- The rest of a directive from behind its opening bracket. -/
def bracketed (source : Source) (target : Option String) (front : List Char) :
    Except DirectiveFault Directive := do
  let back := front.dropWhile fun c => c ≠ ']' && c ≠ '\x7b'
  match back with
  | ']' :: rest =>
    let _ ← source.between front back
    return { target, scope := .span, level := ← levelFrom source rest }
  | '\x7b' :: field =>
    let name ← source.between front back
    let close := field.dropWhile (· ≠ '\x7d')
    match close with
    | [] => throw .malformed
    | _ :: behind =>
      let scope ← fieldScope (← source.between field close)
      match behind with
      | ']' :: rest =>
        let scope := if name.isEmpty then scope else .span
        return { target, scope, level := ← levelFrom source rest }
      | _ => throw .malformed
  | _ => throw .malformed

/-- Whether a directive can begin with a character, other than with a bracket. -/
def canBegin (c : Char) : Bool := Text.isAlphanumeric c || ['-', ':', '_'].contains c

/-- The directive that a text stands for. A level alone is about all events, and a
target alone allows all of its events. -/
def ofText (text : String) : Except DirectiveFault Directive := do
  let source := Source.ofText text
  match source.shown with
  | [] => throw .malformed
  | c :: front =>
    if c = '[' then bracketed source none front
    else if !canBegin c then throw .malformed
    else
      let back := front.dropWhile fun c => c ≠ '=' && c ≠ '['
      match back with
      | [] =>
        match level? source.whole with
        | some level => return { target := none, scope := .any, level }
        | none => return { target := some text, scope := .any, level := some .trace }
      | mark :: rest =>
        let target := String.ofList (← source.between source.shown back)
        if mark = '[' then bracketed source (some target) rest
        else return { target := some target, scope := .any, level := ← levelFrom source back }

/-! ## Meaning -/

/-- Whether a directive is about an event. No event happens within a span. -/
def concerns (directive : Directive) (event : Event) : Bool :=
  (directive.target.all fun start =>
    start.toList.isPrefixOf (CommandLine.target event.topic).toList) &&
  match directive.scope with
  | .any => true
  | .field name => event.fieldNames.contains name
  | .span => false

/-- Whether a directive allows the level of an event. -/
def allows (directive : Directive) (event : Event) : Bool :=
  directive.level.any fun level => event.level.rank ≤ level.rank

/-- Whether a directive is at least as specific as another that is about the same event:
its target is longer, or it is as long and only this one asks for a field, or for one
with a name that is not before the other's. -/
def isAsSpecific (directive other : Directive) : Bool :=
  let weight (directive : Directive) : Nat :=
    directive.target.elim 0 fun target => target.utf8ByteSize + 1
  if weight directive = weight other then
    match directive.scope, other.scope with
    | .field name, .field before => !decide (name < before)
    | .field _, _ => true
    | _, .field _ => false
    | _, _ => true
  else weight other < weight directive

end Directive

/-- Which events are written to the log. -/
structure LogFilter where
  directives : List Directive
deriving DecidableEq, Repr

namespace LogFilter

variable [Text.Unicode]

/-- The filter that allows all events up to a level. -/
def upTo (level : Level) : LogFilter := ⟨[⟨none, .any, some level⟩]⟩

/-- The filter that a text stands for. Without any directive errors are allowed. -/
def ofText (text : String) : Except DirectiveFault LogFilter :=
  match Path.parts ',' text with
  | [] => .ok (upTo .error)
  | parts => (parts.mapM Directive.ofText).map (⟨·⟩)

/-- The filter for a text. When there is none, or it is malformed, warnings are allowed,
and details too if the user wants to know them. There is no filter for a text that
would be cut inside a character. -/
def ofSetting? (setting : Option String) (verbose : Bool) : Option LogFilter :=
  let standard := upTo (if verbose then .debug else .warn)
  match setting.map ofText with
  | none | some (.error .malformed) => some standard
  | some (.error .cut) => none
  | some (.ok filter) => some filter

/-- The directive that decides about an event: of those that are about it, the last one
of the most specific ones. -/
def decisive? (filter : LogFilter) (event : Event) : Option Directive :=
  (filter.directives.filter (·.concerns event)).foldl
    (fun best next => if best.all next.isAsSpecific then some next else best) none

/-- Whether an event is written to the log. -/
def allows (filter : LogFilter) (event : Event) : Bool :=
  (filter.decisive? event).any (·.allows event)

end LogFilter

end GrammarArtifact.CommandLine
