import GrammarArtifact.Language

/-!
# Reports

A report says in one line of JSON how loading went.
-/

namespace GrammarArtifact.CommandLine

/-- How loading went. -/
structure Report where
  grammar : String
  ok : Bool
  version : Option UInt32
  kinds : Nat
  fields : Nat
  keywords : List String
  warnings : List String
  error : Option String
deriving DecidableEq, Repr

namespace Report

/-- The report on a language that was loaded or on the error that prevented it. -/
def ofResult [Text.Unicode] : Except LoadError Language → Report
  | .ok language =>
    { grammar := language.name
      ok := true
      version := language.version?
      kinds := language.kindCount
      fields := language.fieldCount
      keywords := language.keywords
      warnings := language.warnings.map (·.message)
      error := none }
  | .error error =>
    { grammar := error.grammar
      ok := false
      version := none
      kinds := 0
      fields := 0
      keywords := []
      warnings := []
      error := some error.chain }

/-- The letters of the short escapes. -/
def shortEscapes : List (Char × Char) :=
  [('"', '"'), ('\\', '\\'), ('\n', 'n'), ('\r', 'r'), ('\t', 't'), ('\x08', 'b'),
    ('\x0c', 'f')]

/-- The written form of one character of a string: quotes, backslashes, line ends and
tabs have short escapes, and other control characters are given by their code point. -/
def writeChar (c : Char) : List Char :=
  match shortEscapes.lookup c with
  | some letter => ['\\', letter]
  | none =>
    if c.toNat < 0x20 || c.toNat = 0x7F then
      ['\\', 'u', '0', '0', Nat.digitChar (c.toNat / 16), Nat.digitChar (c.toNat % 16)]
    else [c]

/-- How many bytes are written in one stride. -/
def stride : Nat := 16

/-- The characters at the front of a text that are needed for a number of bytes, and the
text behind them. -/
def splitAtBytes : Nat → List Char → List Char × List Char
  | _, [] => ([], [])
  | bytes, c :: rest =>
    if bytes = 0 then ([], c :: rest)
    else
      let (front, back) := splitAtBytes (bytes - c.utf8Size) rest
      (c :: front, back)

/-- Whether a character is written as it is in the middle of others like it. Deletion
counts among these. -/
def isUnmarked (c : Char) : Bool := 0x20 ≤ c.toNat && c.toNat < 0x80 && c != '"' && c != '\\'

/-- The written form of the characters of one stride. Sixteen unmarked ones are written
as they are, and otherwise each character by itself. Only for deletion does that make a
difference. -/
def writeStride (front : List Char) : List Char :=
  if front.length = stride && front.all isUnmarked then front else front.flatMap writeChar

/-- The written form of the characters of a string, stride by stride. The number of
strides that may be taken comes first. -/
def writeChars : Nat → List Char → List Char
  | 0, _ => []
  | strides + 1, text =>
    if text.isEmpty then []
    else
      let (front, back) := splitAtBytes stride text
      writeStride front ++ writeChars strides back

/-- The written form of a string, for which as many strides as it has characters are
enough. -/
def writeString (text : String) : String :=
  String.ofList ('"' :: (writeChars text.length text.toList ++ ['"']))

/-- The written form of a list of strings. -/
def writeList (texts : List String) : String :=
  "[" ++ ",".intercalate (texts.map writeString) ++ "]"

/-- The names and written values of the members of a report, in order. -/
def members (report : Report) : List (String × String) :=
  [("grammar", writeString report.grammar),
    ("ok", if report.ok then "true" else "false"),
    ("abi_version", report.version.elim "null" fun version => toString version.toNat),
    ("node_kinds", toString report.kinds),
    ("fields", toString report.fields),
    ("keywords", writeList report.keywords),
    ("warnings", writeList report.warnings),
    ("error", report.error.elim "null" writeString)]

/-- The line of a report. -/
def line (report : Report) : String :=
  let written := report.members.map fun member => writeString member.1 ++ ":" ++ member.2
  "\x7b" ++ ",".intercalate written ++ "\x7d"

end Report

end GrammarArtifact.CommandLine
