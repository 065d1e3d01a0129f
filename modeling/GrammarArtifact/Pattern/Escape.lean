import GrammarArtifact.Pattern.Layout
import GrammarArtifact.Pattern.Mode

/-!
# Escapes

What a backslash and the characters behind it stand for.
-/

namespace GrammarArtifact.Pattern

/-- What an escape stands for. -/
inductive Escape
  | literal (c : Char)
  | set (set : CharSet)
  | place (anchor : Anchor)
deriving DecidableEq, Repr

/-- The character with a code point. -/
def character? (code : Nat) : Option Char :=
  if code.isValidChar then some (Char.ofNat code) else none

/-- The number that hexadecimal digits write. -/
def hexadecimal? : List Char → Option Nat :=
  List.foldlM (fun value c => (Text.Ranges.hexDigit? c).map (value * 16 + ·)) 0

/-- Read a number of hexadecimal digits behind those that are held last first. -/
def hexDigits (layout : Bool) (read : List Char) : Nat → Reader Nat
  | 0 => .lift (hexadecimal? read.reverse)
  | remaining + 1 => .counted layout fun c => hexDigits layout (c :: read) remaining

/-- The character that digits between braces name. -/
def bracedEscape? (digits : List Char) : Option Escape := do
  if digits.isEmpty then none
  let code ← hexadecimal? digits
  let character ← character? code
  return .literal character

/-- The character that a code point of a number of digits names. Two digits alone name a
byte, which with seven bits must be one of the first half. -/
def codeEscape? (mode : Mode) (count code : Nat) : Option Escape :=
  if mode.sevenBits && count == 2 && 0x80 ≤ code then none
  else (character? code).map .literal

/-- Read the code point of an escape: a number of hexadecimal digits, or any number
of them between braces. -/
def codePoint (mode : Mode) (count : Nat) : Reader Escape :=
  .counted mode.layout fun c =>
    if c = '\x7b' then
      (Reader.untilBrace mode.layout false []).bind fun digits => .lift (bracedEscape? digits)
    else
      (hexDigits mode.layout [c] (count - 1)).bind fun code => .lift (codeEscape? mode count code)

variable [Text.Unicode]

/-- What stands before a mark in a text and what stands behind it, where the mark comes first. -/
def partsAt? (mark : List Char) : List Char → Option (List Char × List Char)
  | [] => none
  | c :: rest =>
    if mark.isPrefixOf (c :: rest) then some ([], (c :: rest).drop mark.length)
    else (partsAt? mark rest).map fun parts => (c :: parts.1, parts.2)

/-- The property that is named between braces: by itself, or with a value behind a colon or an
equals sign. An exclamation mark before the equals sign asks for the other characters, and it is
looked for first. The result says whether it is there. -/
def describedSet? (description : List Char) : Option (Bool × CharSet) :=
  match partsAt? ['!', '='] description with
  | some (name, value) => (Text.Unicode.value? name value).map (true, ·)
  | none =>
    match partsAt? [':'] description with
    | some (name, value) => (Text.Unicode.value? name value).map (false, ·)
    | none =>
      match partsAt? ['='] description with
      | some (name, value) => (Text.Unicode.value? name value).map (false, ·)
      | none => (Text.Unicode.property? description).map (false, ·)

/-- The set of the characters that a description between braces asks for. -/
def describedEscape? (mode : Mode) (negated : Bool) (description : List Char) :
    Option Escape := do
  let (others, set) ← describedSet? description
  let set ← mode.finish? (negated != others) set
  return .set set

/-- The set of the characters with a property that goes by one letter. -/
def letterEscape? (mode : Mode) (negated : Bool) (letter : Char) : Option Escape := do
  let set ← Text.Unicode.property? [letter]
  let set ← mode.finish? negated set
  return .set set

/-- Read the property of an escape: one letter, or a description between braces. There
are none with seven bits. -/
def property (mode : Mode) (negated : Bool) : Reader Escape :=
  .counted mode.layout fun c =>
    if mode.sevenBits then .lift none
    else if c = '\x7b' then
      (Reader.untilBrace mode.layout false []).bind fun description =>
        .lift (describedEscape? mode negated description)
    else .lift (letterEscape? mode negated c)

/-- The place that is named between braces behind the escape of a word boundary. -/
def wordPlaceNamed? : String → Option WordPlace
  | "start" => some .start
  | "end" => some .finish
  | "start-half" => some .startHalf
  | "end-half" => some .finishHalf
  | _ => none

/-- A place in relation to words, as an escape. -/
def wordEscape (mode : Mode) (place : WordPlace) : Escape :=
  .place (.word place mode.wordCharacters)

/-- Read the name of a place between braces, from behind the opening one. -/
def namedPlace (mode : Mode) : Reader Escape :=
  (Reader.untilBrace mode.layout false []).bind fun name =>
    .lift ((wordPlaceNamed? (String.ofList name)).map (wordEscape mode))

/-- Read what follows the escape of a word boundary: the name of a place between
braces, or nothing. Braces around anything but letters and hyphens belong to a
repetition. -/
def wordBoundary (mode : Mode) : Reader Escape
  | '\x7b' :: rest =>
    match skip mode.layout rest with
    | [] => none
    | c :: _ =>
      if c.isAlpha || c = '-' then (namedPlace mode rest).map Taken.behind
      else some (.here (wordEscape mode .boundary))
  | _ => some (.here (wordEscape mode .boundary))

/-- The character that a letter behind a backslash stands for. -/
def shortEscape? (c : Char) : Option Char :=
  if c = 'a' then some '\x07'
  else if c = 'f' then some '\x0c'
  else if c = 'n' then some '\n'
  else if c = 'r' then some '\r'
  else if c = 't' then some '\t'
  else if c = 'v' then some '\x0b'
  else none

/-- The place that a character behind a backslash stands for. -/
def shortAnchor? (mode : Mode) (c : Char) : Option Anchor :=
  if c = 'A' then some .textStart
  else if c = 'z' then some .textEnd
  else if c = 'B' then some (.word .noBoundary mode.wordCharacters)
  else if c = '<' then some (.word .start mode.wordCharacters)
  else if c = '>' then some (.word .finish mode.wordCharacters)
  else none

/-- Whether a character behind a backslash stands for itself: it needs seven bits,
and neither is a letter or a digit nor makes an anchor. -/
def standsForItself (c : Char) : Bool :=
  c.toNat < 0x80 && !c.isAlphanum && c != '<' && c != '>'

/-- What a single character behind a backslash stands for. Digits are kept for
references to groups, which no pattern may make. -/
def shortForm? (mode : Mode) (c : Char) : Option Escape :=
  if standsForItself c then some (.literal c)
  else
    (mode.shorthand? c).map .set <|>
      (shortEscape? c).map .literal <|>
      (shortAnchor? mode c).map .place

/-- Read an escape from behind its backslash. -/
def escape (mode : Mode) : Reader Escape :=
  Reader.next.bind fun c =>
    if c = 'x' then codePoint mode 2
    else if c = 'u' then codePoint mode 4
    else if c = 'U' then codePoint mode 8
    else if c = 'p' || c = 'P' then property mode (c == 'P')
    else if c = 'b' then wordBoundary mode
    else .lift (shortForm? mode c)

end GrammarArtifact.Pattern
