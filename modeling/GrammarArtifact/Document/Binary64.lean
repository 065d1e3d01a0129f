/-!
# Double-precision magnitudes

Numbers with a fraction or an exponent are held as double-precision values. This
module gives the magnitude of such a value as a mantissa and a power of two, rounds
exact quotients to it, and writes it with the fewest digits that read back as the
same value.
-/

namespace GrammarArtifact.Document

/-- The magnitude `mantissa · 2 ^ exponent`. A value other than zero has a mantissa
of 53 bits, or of fewer when its exponent is the smallest one. -/
structure Binary64 where
  mantissa : Nat
  exponent : Int
deriving DecidableEq, Repr

namespace Binary64

/-- The least mantissa of full precision: the 52nd power of two. -/
def fullMantissa : Nat := 0x10000000000000

/-- The smallest exponent. -/
def minExponent : Int := -1074

/-- The largest exponent. -/
def maxExponent : Int := 971

/-- Zero, without a sign. -/
def zero : Binary64 := ⟨0, minExponent⟩

/-- The numerator and the denominator of `2 ^ exponent`. -/
def powerOfTwo (exponent : Int) : Nat × Nat :=
  (Nat.pow 2 exponent.toNat, Nat.pow 2 (-exponent).toNat)

/-- The numerator and the denominator of `10 ^ exponent`. -/
def powerOfTen (exponent : Int) : Nat × Nat :=
  (Nat.pow 10 exponent.toNat, Nat.pow 10 (-exponent).toNat)

/-- The whole number nearest to a quotient; of two equally near ones the even one. -/
def nearest (numerator denominator : Nat) : Nat :=
  let quotient := numerator / denominator
  let twice := 2 * (numerator % denominator)
  if twice < denominator ∨ (twice = denominator ∧ quotient % 2 = 0) then quotient
  else quotient + 1

/-- The magnitude nearest to `numerator / denominator · 2 ^ scale`, unless that is
beyond the largest one. -/
def round? (numerator denominator : Nat) (scale : Int) : Option Binary64 :=
  if numerator = 0 then some zero
  else
    let size : Int := (numerator.log2 : Int) - denominator.log2
    let guess := size + scale - 52
    let (up, down) := powerOfTwo (scale - guess)
    let narrow := numerator * up < denominator * down * fullMantissa
    let exponent := max (if narrow then guess - 1 else guess) minExponent
    let (up, down) := powerOfTwo (scale - exponent)
    let mantissa := nearest (numerator * up) (denominator * down)
    let result : Binary64 :=
      if mantissa = 2 * fullMantissa then ⟨fullMantissa, exponent + 1⟩
      else ⟨mantissa, exponent⟩
    if result.exponent ≤ maxExponent then some result else none

/-- The magnitude nearest to a whole number, unless that is too large. -/
def ofNat? (n : Nat) : Option Binary64 := round? n 1 0

/-- The rounded product, unless it is too large. -/
def mul? (left right : Binary64) : Option Binary64 :=
  round? (left.mantissa * right.mantissa) 1 (left.exponent + right.exponent)

/-- The rounded quotient, unless it is too large. -/
def div? (left right : Binary64) : Option Binary64 :=
  round? left.mantissa right.mantissa (left.exponent - right.exponent)

/-- The largest power of ten not above a positive magnitude, as an exponent. -/
def decade (value : Binary64) : Int :=
  let (up, down) := powerOfTwo value.exponent
  let whole := value.mantissa * up / down
  if 0 < whole then (Nat.toDigits 10 whole).length - 1
  else
    let leading := (List.range 330).find? fun places =>
      down ≤ value.mantissa * up * Nat.pow 10 places
    Int.neg (leading.getD 330)

/-- Of the decimal numbers with a given number of digits, the one nearest to a
positive magnitude, provided that it rounds back to the magnitude. The result is a
whole number and the power of ten that it is multiplied by. -/
def withDigits? (value : Binary64) (count : Nat) : Option (Nat × Int) :=
  let power := value.decade - count + 1
  let (tenUp, tenDown) := powerOfTen power
  let (up, down) := powerOfTwo (value.exponent - 2)
  let middle := 4 * value.mantissa * up * tenDown
  let step := tenUp * down
  let gapBelow := if value.mantissa = fullMantissa ∧ minExponent < value.exponent then 1 else 2
  let low := (4 * value.mantissa - gapBelow) * up * tenDown
  let high := (4 * value.mantissa + 2) * up * tenDown
  let inclusive := value.mantissa % 2 = 0
  let inside (candidate : Nat) : Bool :=
    let place := candidate * step
    (low < place || (inclusive && low = place)) && (place < high || (inclusive && place = high))
  let below := middle / step
  let preferred := nearest middle step
  let other := if preferred = below then below + 1 else below
  if inside preferred then some (preferred, power)
  else if inside other then some (other, power)
  else none

/-- Drop zeros at the end of a whole number in favour of the power of ten. -/
def trimZeros (fuel : Nat) (digits : Nat) (power : Int) : Nat × Int :=
  match fuel with
  | 0 => (digits, power)
  | fuel + 1 =>
    if 0 < digits ∧ digits % 10 = 0 then trimZeros fuel (digits / 10) (power + 1)
    else (digits, power)

/-- The shortest decimal number that rounds to a positive magnitude. Seventeen
digits always suffice, so the search finds one. -/
def shortest (value : Binary64) : Nat × Int :=
  let found := (List.range 17).findSome? fun fewer => value.withDigits? (fewer + 1)
  let (digits, power) := found.getD (0, 0)
  trimZeros 20 digits power

/-- The written form: positional while the point stands at most sixteen digits in
or five places before the first digit, and otherwise with an exponent. A positional
form always has a point. -/
def toText (value : Binary64) : String :=
  if value.mantissa = 0 then "0.0"
  else
    let (number, power) := value.shortest
    let digits := Nat.toDigits 10 number
    let point : Int := digits.length + power
    let zeros (n : Int) : List Char := List.replicate n.toNat '0'
    if 0 ≤ power ∧ point ≤ 16 then String.ofList (digits ++ zeros power ++ ['.', '0'])
    else if 0 < point ∧ point ≤ 16 then
      String.ofList (digits.take point.toNat ++ '.' :: digits.drop point.toNat)
    else if -5 < point ∧ point ≤ 0 then
      String.ofList ('0' :: '.' :: zeros (-point) ++ digits)
    else
      let head := digits.take 1
      let tail := digits.drop 1
      let mantissa := if tail.isEmpty then head else head ++ '.' :: tail
      let sign := if 0 < point then "+" else ""
      String.ofList mantissa ++ "e" ++ sign ++ toString (point - 1)

end Binary64

end GrammarArtifact.Document
