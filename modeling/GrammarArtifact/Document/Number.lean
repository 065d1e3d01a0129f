import GrammarArtifact.Document.Binary64

/-!
# Numbers in documents

A number is written as a whole part, perhaps a fraction and perhaps an exponent. It
stands for an integer when it has neither of the last two and fits a 64-bit word,
signed below zero and unsigned above. Every other number is a double-precision
value. So is a zero with a minus sign, which no integer is.
-/

namespace GrammarArtifact.Document

/-- The value of a number. -/
inductive Number
  | integer (value : Int)
  | real (negative : Bool) (magnitude : Binary64)
deriving DecidableEq, Repr

namespace Number

/-- The written form in messages. -/
def toText : Number → String
  | integer value => toString value
  | real negative magnitude => (if negative then "-" else "") ++ magnitude.toText

/-- The largest value that the digits of a number are collected up to. -/
def digitCapacity : Nat := 18446744073709551615

/-- The value of a decimal digit. -/
def digitValue (c : Char) : Nat := c.toNat - '0'.toNat

/-- Read digits onto a value while the result stays within the capacity. The digits
from the first one that would exceed it are left over. -/
def collect (value : Nat) : List Char → Nat × List Char
  | [] => (value, [])
  | c :: rest =>
    let next := value * 10 + digitValue c
    if next ≤ digitCapacity then collect next rest else (value, c :: rest)

end Number

/-- A number as it is written: its sign, the digits before and after the point, and
the sign and digits of its exponent. -/
structure NumberText where
  negative : Bool
  whole : List Char
  fraction : List Char := []
  exponent : Option (Bool × List Char) := none
deriving Repr

namespace NumberText

/-- The exponent of ten, zero if none is written. -/
def exponentValue (text : NumberText) : Int :=
  match text.exponent with
  | none => 0
  | some (negative, digits) =>
    let size : Int := digits.foldl (fun value c => value * 10 + Number.digitValue c) 0
    if negative then -size else size

/-- The leading digits as one number, and the power of ten that it is multiplied
by. Digits that do not fit any more count as zeros before the point and are dropped
after it. -/
def significand (text : NumberText) : Nat × Int :=
  let (whole, left) := Number.collect 0 text.whole
  let (digits, dropped) := Number.collect whole text.fraction
  let places : Int := (text.fraction.length : Int) - dropped.length
  (digits, left.length - places + text.exponentValue)

/-- The double-precision magnitude `digits · 10 ^ power`, unless it is too large. The
digits and the power of ten are each rounded before they are combined, and a power
below the smallest one is reached in two divisions. -/
def scale? (digits : Nat) (power : Int) : Option Binary64 := do
  let start ← Binary64.ofNat? digits
  let ten (n : Nat) : Option Binary64 := Binary64.round? (Nat.pow 10 n) 1 0
  if start.mantissa = 0 then return .zero
  else if 308 < power then none
  else if 0 ≤ power then start.mul? (← ten power.toNat)
  else if -308 ≤ power then start.div? (← ten (-power).toNat)
  else if -616 ≤ power then
    let first ← start.div? (← ten 308)
    first.div? (← ten (-power - 308).toNat)
  else return .zero

/-- The value of a written number, unless it is too large for any. -/
def value? (text : NumberText) : Option Number :=
  let (whole, left) := Number.collect 0 text.whole
  if text.fraction.isEmpty ∧ text.exponent.isNone ∧ left.isEmpty then
    if ¬ text.negative then some (.integer whole)
    else if whole ≠ 0 ∧ whole ≤ 9223372036854775808 then some (.integer (-(whole : Int)))
    else (Binary64.ofNat? whole).map (.real true)
  else
    let (digits, power) := text.significand
    (scale? digits power).map (.real text.negative)

end NumberText

end GrammarArtifact.Document
