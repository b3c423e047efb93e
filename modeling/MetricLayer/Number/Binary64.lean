/-!
# Binary floating point numbers of 64 bits

A finite number is kept by its bits and stands for `mantissa · 2 ^ exponent`.
`ofDecimal?` rounds a decimal to the nearest number, ties to even, and
`shortest` finds the fewest decimal digits that round back to it. Both work on
exact integers.
-/

namespace MetricLayer

/-- A finite number, by its bits: one of sign, eleven of exponent, fifty-two of
fraction. -/
structure Binary64 where
  bits : UInt64
  deriving DecidableEq, Repr

namespace Binary64

/-- The bit of the sign, which is above all others. -/
def signBit : Nat := 0x8000000000000000

/-- The bit above the fraction, `2 ^ 52`. -/
def leadingBit : Nat := 0x10000000000000

def isNegative (x : Binary64) : Bool := x.bits.toNat ≥ signBit

def biased (x : Binary64) : Nat := x.bits.toNat / leadingBit % 2048

def fraction (x : Binary64) : Nat := x.bits.toNat % leadingBit

/-- The magnitude is `mantissa · 2 ^ exponent`. -/
def mantissa (x : Binary64) : Nat :=
  if x.biased = 0 then x.fraction else x.fraction + leadingBit

def exponent (x : Binary64) : Int :=
  if x.biased = 0 then -1074 else (x.biased : Int) - 1075

/-- The number with a mantissa below `2 ^ 53`, which is at least `2 ^ 52` unless
the exponent is the least one. -/
def ofParts (negative : Bool) (mantissa : Nat) (exponent : Int) : Binary64 :=
  let sign := if negative then signBit else 0
  let magnitude :=
    if mantissa < leadingBit then mantissa
    else (exponent + 1075).toNat * leadingBit + (mantissa - leadingBit)
  ⟨UInt64.ofNat (sign + magnitude)⟩

/-- `num / den` rounded to the nearest integer, a tie to the even one. -/
def roundDiv (num den : Nat) : Nat :=
  let q := num / den
  let r := num % den
  if 2 * r < den then q
  else if den < 2 * r then q + 1
  else if q % 2 = 0 then q else q + 1

/-- The numerator and denominator of `n · base ^ e`. -/
def scaled (base n : Nat) (e : Int) : Nat × Nat :=
  if e < 0 then (n, base.pow (-e).toNat) else (n * base.pow e.toNat, 1)

/-- `num / den` in units of `2 ^ q`. -/
def inUnits (num den : Nat) (q : Int) : Nat × Nat :=
  if q < 0 then (num * Nat.pow 2 (-q).toNat, den) else (num, den * Nat.pow 2 q.toNat)

/-- The number nearest to `num / den`, unless it is too large for one. -/
def ofRatio? (negative : Bool) (num den : Nat) : Option Binary64 :=
  if num = 0 then some (ofParts negative 0 (-1074))
  else
    let guess := max ((num.log2 : Int) - den.log2 - 53) (-1074)
    let (n, d) := inUnits num den guess
    let q := if n / d ≥ 2 * leadingBit then guess + 1 else guess
    let (n, d) := inUnits num den q
    let m := roundDiv n d
    let (m, q) := if m = 2 * leadingBit then (leadingBit, q + 1) else (m, q)
    if q > 971 then none else some (ofParts negative m q)

/-- The number nearest to `digits · 10 ^ exponent`, unless it is too large. -/
def ofDecimal? (negative : Bool) (digits : Nat) (exponent : Int) : Option Binary64 :=
  let length : Int := (Nat.toDigits 10 digits).length
  if digits = 0 || length + exponent < -400 then some (ofParts negative 0 (-1074))
  else if length + exponent > 400 then none
  else
    let (num, den) := scaled 10 digits exponent
    ofRatio? negative num den

/-- Whether `n · 10 ^ p` rounds to the magnitude `m · 2 ^ q`: it lies between
the midpoints to the two neighbours, which themselves belong to an even `m`. -/
def roundsTo (m : Nat) (q : Int) (n : Nat) (p : Int) : Bool :=
  let lower := if m = leadingBit && q > -1074 then 4 * m - 1 else 4 * m - 2
  let upper := 4 * m + 2
  let (a, b) := scaled 10 n p
  let (c, d) := scaled 2 1 (q - 2)
  if m % 2 = 0 then lower * c * b ≤ a * d && a * d ≤ upper * c * b
  else lower * c * b < a * d && a * d < upper * c * b

/-- The multiple of `10 ^ p` nearest to `m · 2 ^ q` among its two neighbours,
if one of them rounds to it. -/
def onGrid? (m : Nat) (q : Int) (p : Int) : Option (Nat × Int) :=
  let (a, b) := scaled 2 m q
  let (c, d) := scaled 10 1 p
  let n := a * d / (b * c)
  let rest := a * d % (b * c)
  match roundsTo m q n p && n != 0, roundsTo m q (n + 1) p with
  | true, true =>
    if 2 * rest < b * c || (2 * rest == b * c && n % 2 == 0) then some (n, p) else some (n + 1, p)
  | true, false => some (n, p)
  | false, true => some (n + 1, p)
  | false, false => none

/-- The power of ten of the leading digit of `m · 2 ^ q`, for `m > 0`. -/
def leadingPower (m : Nat) (q : Int) : Int :=
  let (a, b) := scaled 2 m q
  if a ≥ b then ((Nat.toDigits 10 (a / b)).length : Int) - 1
  else -((Nat.toDigits 10 ((b - 1) / a)).length : Int)

/-- The decimal that `m · 2 ^ q` is. -/
def exactDecimal (m : Nat) (q : Int) : Nat × Int :=
  if q < 0 then (m * Nat.pow 5 (-q).toNat, q) else (m * Nat.pow 2 q.toNat, 0)

/-- The fewest digits `n` and the power `p` with `n · 10 ^ p` rounding to the
magnitude of `x`, of several the nearest. Seventeen digits always suffice. -/
def shortest (x : Binary64) : Nat × Int :=
  let m := x.mantissa
  let q := x.exponent
  if m = 0 then (0, 0)
  else
    let top := leadingPower m q + 1
    let digits : List Nat := List.range 19
    (digits.findSome? fun i : Nat => onGrid? m q (top - (i : Int))).getD (exactDecimal m q)

/-- The integer part, with zero for the negative numbers and the greatest word
for those above it. -/
def toUInt64 (x : Binary64) : UInt64 :=
  if x.isNegative then 0
  else
    let (a, b) := scaled 2 x.mantissa x.exponent
    UInt64.ofNat (min (a / b) (UInt64.size - 1))

/-- The layout of numbers in documents: positional while the point stands after
at most sixteen digits and before at most four zeros, else with an exponent. -/
def text (x : Binary64) : String :=
  let sign := if x.isNegative then "-" else ""
  let (n, p) := x.shortest
  if n = 0 then sign ++ "0.0"
  else
    let digits := (Nat.toDigits 10 n).reverse.dropWhile (· == '0') |>.reverse
    let p := p + ((Nat.toDigits 10 n).length - digits.length : Nat)
    let point := (digits.length : Int) + p
    let zeros (k : Nat) := String.ofList (List.replicate k '0')
    if 0 ≤ p && point ≤ 16 then
      sign ++ String.ofList digits ++ zeros p.toNat ++ ".0"
    else if 0 < point && point ≤ 16 then
      sign ++ String.ofList (digits.take point.toNat) ++ "." ++
        String.ofList (digits.drop point.toNat)
    else if -5 < point && point ≤ 0 then
      sign ++ "0." ++ zeros (-point).toNat ++ String.ofList digits
    else
      let tail := digits.drop 1
      sign ++ String.ofList (digits.take 1) ++
        (if tail.isEmpty then "" else "." ++ String.ofList tail) ++ "e" ++ toString (point - 1)

end Binary64

end MetricLayer
