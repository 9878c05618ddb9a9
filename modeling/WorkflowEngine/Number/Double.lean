/-!
# Binary floating-point numbers, exactly

A `Double` is a finite 64-bit binary floating-point number, held as what it denotes: a sign, a
mantissa and a power of two. Nothing here is rounded behind the reader's back; the two places where
a rational number has to be fitted into a `Double`, or a `Double` into few decimal digits, are
spelled out in exact natural-number arithmetic.

**Rounding** (`ofRatio?`). The nearest `Double`, a tie going to the even mantissa; `none` when the
number is too large. A decimal is rounded once (`ofDecimal?`), or its digits and its power of ten
are rounded apart and then put together (`scaled?`), which may miss the nearest `Double` by little.

**Shortest digits** (`shortest`). The fewest decimal digits that read back as the same `Double`, and
among those the nearest to it.
-/

namespace WorkflowEngine

/-- Mantissas have 53 bits: the first number that has more. -/
def Double.mantissaBound : Nat := 0x20000000000000

/-- The first number of 53 bits. -/
def Double.fullMantissa : Nat := 0x10000000000000

/-- `m · 2^e` is in normal form: 53 bits of mantissa, or fewer at the smallest exponent. -/
def Double.Fits (mantissa : Nat) (exponent : Int) : Prop :=
  mantissa < mantissaBound ∧ -1074 ≤ exponent ∧ exponent ≤ 971 ∧
    (fullMantissa ≤ mantissa ∨ exponent = -1074)

instance (m : Nat) (e : Int) : Decidable (Double.Fits m e) := by
  unfold Double.Fits; infer_instance

/-- The number `± mantissa · 2^exponent`. Zero has both signs. -/
structure Double where
  negative : Bool
  mantissa : Nat
  exponent : Int
  fits : Double.Fits mantissa exponent
deriving DecidableEq

namespace Double

/-- Zero with a sign. -/
def zero (negative : Bool) : Double := ⟨negative, 0, -1074, by decide⟩

instance : Inhabited Double := ⟨zero false⟩

def isZero (x : Double) : Bool := x.mantissa == 0

/-- Equality of the numbers denoted: the two zeros are equal. -/
def agrees (x y : Double) : Bool := x == y || (x.isZero && y.isZero)

/-! ## Rounding -/

/-- The integer nearest to `n / d`; a half goes to the even neighbour. -/
def nearest (n d : Nat) : Nat :=
  if 2 * (n % d) < d then n / d
  else if d < 2 * (n % d) then n / d + 1
  else n / d + n / d % 2

/-- The fraction `n / (d · b^e)` with natural numerator and denominator. -/
def scaleDown (n d b : Nat) (e : Int) : Nat × Nat :=
  if 0 ≤ e then (n, d * Nat.pow b e.toNat) else (n * Nat.pow b (-e).toNat, d)

/-- Whether `b^e ≤ n / d`. -/
def atLeastPower (n d b : Nat) (e : Int) : Bool :=
  let (n, d) := scaleDown n d b e
  d ≤ n

/-- The `Double` with this mantissa and exponent, if they are in normal form. -/
def make? (negative : Bool) (m : Nat) (e : Int) : Option Double :=
  if h : Fits m e then some ⟨negative, m, e, h⟩ else none

/-- The `Double` nearest to `n / d`, a tie going to the even mantissa; `none` past the largest. -/
def ofRatio? (negative : Bool) (n d : Nat) : Option Double :=
  if n = 0 then some (zero negative)
  else
    let bound : Int := n.log2 - d.log2
    let size := if atLeastPower n d 2 bound then bound else bound - 1
    let e := max (size - 52) (-1074)
    let (num, den) := scaleDown n d 2 e
    let m := nearest num den
    if m = mantissaBound then make? negative fullMantissa (e + 1) else make? negative m e

/-- The `Double` nearest to `digits · 10^power`. Powers that are out of range whatever the digits
are answered without computing them. -/
def ofDecimal? (negative : Bool) (digits : Nat) (power : Int) : Option Double :=
  if digits = 0 then some (zero negative)
  else if 400 < power then none
  else if (digits.log2 : Int) + 1 + power < -400 then some (zero negative)
  else
    let (n, d) := scaleDown digits 1 10 (-power)
    ofRatio? negative n d

/-- The magnitude as a fraction. -/
def ratio (x : Double) : Nat × Nat := scaleDown x.mantissa 1 2 (-x.exponent)

/-! ## Arithmetic -/

/-- The product, rounded; `none` when it is too large. -/
def mul? (x y : Double) : Option Double :=
  ofRatio? (x.negative != y.negative) (x.ratio.1 * y.ratio.1) (x.ratio.2 * y.ratio.2)

/-- The quotient by a number other than zero, rounded; `none` when it is too large. -/
def div? (x y : Double) : Option Double :=
  ofRatio? (x.negative != y.negative) (x.ratio.1 * y.ratio.2) (x.ratio.2 * y.ratio.1)

/-- The largest power of ten that is a `Double`. -/
def maxTens : Nat := 308

/-- `10^n`, rounded; `none` for more than `maxTens` tens. -/
def tens? (n : Nat) : Option Double := ofRatio? false (Nat.pow 10 n) 1

/-- `x / 10^n`, where at most `maxTens` tens are divided out at a time. A number below `2^64` is
zero after two times that many. -/
def overTens? (x : Double) (n : Nat) : Option Double :=
  if n ≤ maxTens then do x.div? (← tens? n)
  else if n ≤ 2 * maxTens then do (← x.div? (← tens? maxTens)).div? (← tens? (n - maxTens))
  else some (zero x.negative)

/-- `± significand · 10^power` for a significand of 64 bits, rounded twice: first the significand,
and then its product with the power of ten or, below zero, its quotient. `none` when it is too
large. -/
def scaled? (negative : Bool) (significand : Nat) (power : Int) : Option Double := do
  let x ← ofRatio? negative significand 1
  if x.isZero then x
  else if power < 0 then x.overTens? power.natAbs
  else if maxTens < power.toNat then none
  else x.mul? (← tens? power.toNat)

/-! ## Shortest digits -/

/-- The largest `p` with `10^p ≤ |x|`, for `x ≠ 0`. -/
def decade (x : Double) : Int :=
  let (n, d) := x.ratio
  let guess : Int := (((n.log2 : Int) - d.log2) * 30103).fdiv 100000
  if atLeastPower n d 10 (guess + 1) then guess + 1
  else if atLeastPower n d 10 guess then guess
  else if atLeastPower n d 10 (guess - 1) then guess - 1
  else guess - 2

/-- Whether `digits · 10^power` reads back as `x`. -/
def readsBack (x : Double) (digits : Nat) (power : Int) : Bool :=
  ofDecimal? x.negative digits power == some x

/-- The multiple of `10^power` next to `x` that reads back as `x`; of two, the nearer. -/
def onGrid (x : Double) (power : Int) : Option (Nat × Int) :=
  let (n, d) := x.ratio
  let (n, d) := scaleDown n d 10 power
  let low := n / d
  match x.readsBack low power, x.readsBack (low + 1) power with
  | true, true => some (nearest n d, power)
  | true, false => some (low, power)
  | false, true => some (low + 1, power)
  | false, false => none

/-- The fewest digits that read back as `x`, with the power of ten they are multiplied by. The
first grid tried has one point above `x`; seventeen digits always suffice. -/
def shortest (x : Double) : Nat × Int :=
  if x.isZero then (0, 0)
  else
    let p := x.decade
    ((List.range 18).findSome? fun k : Nat => x.onGrid (p + 1 - k)).getD (0, 0)

/-! ## Text -/

/-- Magnitudes from `10^-5` up to this power of ten are written positionally. -/
def positionalLimit : Int := 16

/-- Writes `digits · 10^power`: positionally with at least one place after the point, or, for very
small and very large numbers, as `d.ddd` times a signed power of ten. -/
def layout (digits : Nat) (power : Int) : String :=
  let ds := Nat.toDigits 10 digits
  let point : Int := ds.length + power
  let zeros (n : Int) := List.replicate n.toNat '0'
  let chars :=
    if 0 ≤ power ∧ point ≤ positionalLimit then ds ++ zeros power ++ ['.', '0']
    else if 0 < point ∧ point ≤ positionalLimit then
      ds.take point.toNat ++ '.' :: ds.drop point.toNat
    else if -5 < point ∧ point ≤ 0 then '0' :: '.' :: zeros (-point) ++ ds
    else
      let tail := ds.drop 1
      let sign := if point - 1 < 0 then '-' else '+'
      ds.take 1 ++ (if tail.isEmpty then [] else '.' :: tail) ++
        'e' :: sign :: Nat.toDigits 10 (point - 1).natAbs
  String.ofList chars

/-- The text of a number: the shortest digits that read back. -/
def text (x : Double) : String :=
  let magnitude := if x.isZero then "0.0" else layout x.shortest.1 x.shortest.2
  if x.negative then "-" ++ magnitude else magnitude

end Double

end WorkflowEngine
