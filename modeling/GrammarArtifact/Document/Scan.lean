import GrammarArtifact.Document.Fault

/-!
# Scanning documents

The smallest pieces of a document: blanks, the words `null`, `true` and `false`,
numbers and strings. Each scanner is given the text that is left and returns what it
found together with the rest. The lemmas beside them state that the rest of a piece
is shorter, which is why reading ends.

A piece that is read for its value and a piece that is only passed over differ in
two points. An escape in a passed string can name half of a surrogate pair, and a
passed number can be of any size; in exchange, a passed number that breaks off at
the end of the text counts as malformed.
-/

namespace GrammarArtifact.Document

/-- The characters that can stand between the pieces of a document. -/
def isSpace (c : Char) : Bool := c = ' ' || c = '\n' || c = '\t' || c = '\r'

/-- The text from the first character that is not a space. -/
def skipSpace : List Char → List Char
  | [] => []
  | c :: rest => if isSpace c then skipSpace rest else c :: rest

theorem length_skipSpace_le (text : List Char) : (skipSpace text).length ≤ text.length := by
  induction text with
  | nil => simp [skipSpace]
  | cons c rest induction =>
    unfold skipSpace
    split
    · exact Nat.le_succ_of_le induction
    · exact Nat.le_refl _

/-- Pass the rest of a word whose first letter has been seen. -/
def scanWord : (letters : List Char) → List Char → Except Fault (List Char)
  | [], text => .ok text
  | _ :: _, [] => .error (.ended .value)
  | letter :: letters, c :: rest =>
    if c = letter then scanWord letters rest else .error .wordExpected

theorem length_of_scanWord {letters text rest : List Char}
    (passed : scanWord letters text = .ok rest) : rest.length ≤ text.length := by
  induction letters generalizing text with
  | nil => simp_all [scanWord]
  | cons letter letters induction =>
    cases text with
    | nil => simp [scanWord] at passed
    | cons c tail =>
      unfold scanWord at passed
      split at passed
      · exact Nat.le_succ_of_le (induction passed)
      · contradiction

/-! ## Strings -/

/-- The number that four hexadecimal digits write. -/
def hexNumber? (a b c d : Char) : Option Nat := do
  let high ← Text.Ranges.hexDigit? a
  let upper ← Text.Ranges.hexDigit? b
  let lower ← Text.Ranges.hexDigit? c
  let low ← Text.Ranges.hexDigit? d
  return ((high * 16 + upper) * 16 + lower) * 16 + low

/-- The fault of an escape that needs four more digits than the text can give. The
text is measured in bytes: with four or more of them left, the digits are there and
wrong. -/
def shortEscape (text : List Char) : Fault :=
  if (String.ofList text).utf8ByteSize < 4 then .ended .string else .escapeMalformed

/-- The character that a short escape stands for. -/
def shortEscape? (c : Char) : Option Char :=
  if c = '"' || c = '\\' || c = '/' then some c
  else if c = 'b' then some '\x08'
  else if c = 'f' then some '\x0c'
  else if c = 'n' then some '\n'
  else if c = 'r' then some '\r'
  else if c = 't' then some '\t'
  else none

/-- Whether a number is the first half of a surrogate pair. -/
def isHighSurrogate (n : Nat) : Bool := 0xD800 ≤ n && n ≤ 0xDBFF

/-- Whether a number is the second half of a surrogate pair. -/
def isLowSurrogate (n : Nat) : Bool := 0xDC00 ≤ n && n ≤ 0xDFFF

/-- The character that a surrogate pair stands for. -/
def pairCharacter (high low : Nat) : Char :=
  Char.ofNat ((high - 0xD800) * 0x400 + (low - 0xDC00) + 0x10000)

/-- Read the second half of a surrogate pair and the character it completes. -/
def scanLowSurrogate (high : Nat) : List Char → Except Fault (Char × List Char)
  | [] => .error (.ended .string)
  | '\\' :: [] => .error (.ended .string)
  | '\\' :: 'u' :: a :: b :: c :: d :: rest =>
    match hexNumber? a b c d with
    | none => .error .escapeMalformed
    | some low =>
      if isLowSurrogate low then .ok (pairCharacter high low, rest)
      else .error .surrogateUnpaired
  | '\\' :: 'u' :: rest => .error (shortEscape rest)
  | _ => .error .surrogateCut

/-- Read an escape, given the text after its backslash. -/
def scanEscape : List Char → Except Fault (Char × List Char)
  | [] => .error (.ended .string)
  | 'u' :: a :: b :: c :: d :: rest =>
    match hexNumber? a b c d with
    | none => .error .escapeMalformed
    | some number =>
      if isLowSurrogate number then .error .surrogateUnpaired
      else if isHighSurrogate number then scanLowSurrogate number rest
      else .ok (Char.ofNat number, rest)
  | 'u' :: rest => .error (shortEscape rest)
  | c :: rest =>
    match shortEscape? c with
    | some plain => .ok (plain, rest)
    | none => .error .escapeMalformed

theorem length_of_scanLowSurrogate {high : Nat} {text rest : List Char} {c : Char}
    (read : scanLowSurrogate high text = .ok (c, rest)) : rest.length < text.length := by
  unfold scanLowSurrogate at read
  split at read <;> try contradiction
  split at read <;> try contradiction
  split at read <;> try contradiction
  simp only [Except.ok.injEq, Prod.mk.injEq] at read
  simp only [← read.2, List.length_cons]
  omega

theorem length_of_scanEscape {text rest : List Char} {c : Char}
    (read : scanEscape text = .ok (c, rest)) : rest.length < text.length := by
  unfold scanEscape at read
  split at read <;> try contradiction
  · split at read <;> try contradiction
    split at read <;> try contradiction
    split at read
    · have := length_of_scanLowSurrogate read
      simp only [List.length_cons]
      omega
    · simp only [Except.ok.injEq, Prod.mk.injEq] at read
      simp only [← read.2, List.length_cons]
      omega
  · split at read <;> try contradiction
    simp only [Except.ok.injEq, Prod.mk.injEq] at read
    simp [← read.2]

/-- Read a string whose opening quote has been passed. The characters read so far
are held last first. -/
def scanString (read : List Char) (text : List Char) : Except Fault (String × List Char) :=
  match text with
  | [] => .error (.ended .string)
  | c :: rest =>
    if c = '"' then .ok (String.ofList read.reverse, rest)
    else if c = '\\' then
      match _escape : scanEscape rest with
      | .error fault => .error fault
      | .ok (plain, after) => scanString (plain :: read) after
    else if c.toNat < 0x20 then .error .controlCharacter
    else scanString (c :: read) rest
termination_by text.length
decreasing_by
  · have := length_of_scanEscape _escape
    simp only [List.length_cons]
    omega
  · simp

theorem length_of_scanString {read text rest : List Char} {string : String}
    (scanned : scanString read text = .ok (string, rest)) : rest.length < text.length := by
  fun_induction scanString read text with
  | case1 => contradiction
  | case2 => simp_all
  | case3 => contradiction
  | case4 read tail plain after escape _ induction =>
    have := length_of_scanEscape escape
    have := induction scanned
    simp only [List.length_cons]
    omega
  | case5 => contradiction
  | case6 read c tail _ _ _ induction =>
    have := induction scanned
    simp only [List.length_cons]
    omega

/-- Pass an escape, given the text after its backslash. -/
def passEscape : List Char → Except Fault (List Char)
  | [] => .error (.ended .string)
  | 'u' :: a :: b :: c :: d :: rest =>
    if (hexNumber? a b c d).isSome then .ok rest else .error .escapeMalformed
  | 'u' :: rest => .error (shortEscape rest)
  | c :: rest => if (shortEscape? c).isSome then .ok rest else .error .escapeMalformed

theorem length_of_passEscape {text rest : List Char}
    (passed : passEscape text = .ok rest) : rest.length < text.length := by
  unfold passEscape at passed
  split at passed <;> try contradiction
  · split at passed <;> try contradiction
    simp only [Except.ok.injEq] at passed
    simp only [← passed, List.length_cons]
    omega
  · split at passed <;> try contradiction
    simp only [Except.ok.injEq] at passed
    simp [← passed]

/-- Pass a string whose opening quote has been passed. -/
def passString (text : List Char) : Except Fault (List Char) :=
  match text with
  | [] => .error (.ended .string)
  | c :: rest =>
    if c = '"' then .ok rest
    else if c = '\\' then
      match _escape : passEscape rest with
      | .error fault => .error fault
      | .ok after => passString after
    else if c.toNat < 0x20 then .error .controlCharacter
    else passString rest
termination_by text.length
decreasing_by
  · have := length_of_passEscape _escape
    simp only [List.length_cons]
    omega
  · simp

theorem length_of_passString {text rest : List Char}
    (passed : passString text = .ok rest) : rest.length < text.length := by
  fun_induction passString text with
  | case1 => contradiction
  | case2 => simp_all
  | case3 => contradiction
  | case4 tail after escape _ induction =>
    have := length_of_passEscape escape
    have := induction passed
    simp only [List.length_cons]
    omega
  | case5 => contradiction
  | case6 c tail _ _ _ induction =>
    have := induction passed
    simp only [List.length_cons]
    omega

/-! ## Numbers -/

/-- Whether a character is a decimal digit. -/
def isDigit (c : Char) : Bool := '0' ≤ c && c ≤ '9'

/-- The fault of a number that needs a digit and does not go on with one. -/
def digitWanted : List Char → Fault
  | [] => .ended .value
  | _ :: _ => .numberMalformed

/-- Read the exponent of a number, given the text after its letter. -/
def scanExponent (number : NumberText) (text : List Char) :
    Except Fault (NumberText × List Char) :=
  let (negative, digits) : Bool × List Char :=
    match text with
    | '+' :: rest => (false, rest)
    | '-' :: rest => (true, rest)
    | _ => (false, text)
  if (digits.takeWhile isDigit).isEmpty then .error (digitWanted digits)
  else .ok ({ number with exponent := some (negative, digits.takeWhile isDigit) },
    digits.dropWhile isDigit)

/-- Read what can follow the digits of a number: an exponent or nothing. -/
def scanAfterDigits (number : NumberText) :
    List Char → Except Fault (NumberText × List Char)
  | 'e' :: rest => scanExponent number rest
  | 'E' :: rest => scanExponent number rest
  | text => .ok (number, text)

/-- Read what can follow the whole part of a number: a fraction, an exponent, both
or nothing. -/
def scanAfterWhole (number : NumberText) : List Char → Except Fault (NumberText × List Char)
  | '.' :: rest =>
    if (rest.takeWhile isDigit).isEmpty then .error (digitWanted rest)
    else scanAfterDigits { number with fraction := rest.takeWhile isDigit }
      (rest.dropWhile isDigit)
  | text => scanAfterDigits number text

/-- Read a number whose sign has been passed. A whole part of more than one digit
does not begin with a zero. -/
def scanNumber (negative : Bool) : List Char → Except Fault (NumberText × List Char)
  | [] => .error (.ended .value)
  | '0' :: rest =>
    match rest with
    | c :: _ => if isDigit c then .error .numberMalformed
      else scanAfterWhole { negative, whole := ['0'] } rest
    | [] => scanAfterWhole { negative, whole := ['0'] } rest
  | c :: rest =>
    if isDigit c then
      scanAfterWhole { negative, whole := c :: rest.takeWhile isDigit } (rest.dropWhile isDigit)
    else .error .numberMalformed

theorem length_dropWhile_le (keep : Char → Bool) (text : List Char) :
    (text.dropWhile keep).length ≤ text.length :=
  (List.dropWhile_sublist keep).length_le

theorem length_of_scanExponent {number result : NumberText} {text rest : List Char}
    (read : scanExponent number text = .ok (result, rest)) : rest.length ≤ text.length := by
  unfold scanExponent at read
  split at read
  next negative digits split =>
    have shorter : digits.length ≤ text.length := by
      revert split
      split <;> (intro same; simp only [Prod.mk.injEq] at same; simp [← same.2])
    split at read
    · contradiction
    · simp only [Except.ok.injEq, Prod.mk.injEq] at read
      have := length_dropWhile_le isDigit digits
      simp only [← read.2]
      omega

theorem length_of_scanAfterDigits {number result : NumberText} {text rest : List Char}
    (read : scanAfterDigits number text = .ok (result, rest)) : rest.length ≤ text.length := by
  unfold scanAfterDigits at read
  split at read
  · exact Nat.le_succ_of_le (length_of_scanExponent read)
  · exact Nat.le_succ_of_le (length_of_scanExponent read)
  · simp only [Except.ok.injEq, Prod.mk.injEq] at read
    simp [← read.2]

theorem length_of_scanAfterWhole {number result : NumberText} {text rest : List Char}
    (read : scanAfterWhole number text = .ok (result, rest)) : rest.length ≤ text.length := by
  unfold scanAfterWhole at read
  split at read
  next tail =>
    split at read
    · contradiction
    · have := length_of_scanAfterDigits read
      have := length_dropWhile_le isDigit tail
      simp only [List.length_cons]
      omega
  · exact length_of_scanAfterDigits read

theorem length_of_scanNumber {negative : Bool} {result : NumberText} {text rest : List Char}
    (read : scanNumber negative text = .ok (result, rest)) : rest.length < text.length := by
  unfold scanNumber at read
  split at read
  · contradiction
  next tail =>
    have bound : rest.length ≤ tail.length := by
      split at read
      · split at read
        · contradiction
        · exact length_of_scanAfterWhole read
      · exact length_of_scanAfterWhole read
    exact Nat.lt_succ_of_le bound
  next c tail _ =>
    split at read
    · have := length_of_scanAfterWhole read
      have := length_dropWhile_le isDigit tail
      simp only [List.length_cons]
      omega
    · contradiction

/-- Pass a number whose sign has been passed. -/
def passNumber (text : List Char) : Except Fault (List Char) :=
  match scanNumber false text with
  | .ok (_, rest) => .ok rest
  | .error _ => .error .numberMalformed

theorem length_of_passNumber {text rest : List Char}
    (passed : passNumber text = .ok rest) : rest.length < text.length := by
  unfold passNumber at passed
  split at passed
  next read =>
    simp only [Except.ok.injEq] at passed
    exact passed ▸ length_of_scanNumber read
  · contradiction

end GrammarArtifact.Document
