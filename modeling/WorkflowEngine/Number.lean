import WorkflowEngine.Number.Double

/-!
# Numbers

A number is an integer, held exactly, or a `Double`. Written without point and exponent, and no
larger than a 64-bit integer, it is an integer; every other number is a `Double`. The two kinds
never compare equal: `1` is not `1.0`.

**Decimals.** Of the digits of a number only the first are looked at, as many as 64 bits hold: they
are its significand, and the rest counts as zeros. A `Double` is made of significand and power of
ten with two roundings (`Double.scaled?`).
-/

namespace WorkflowEngine

inductive Number where
  | int (i : Int)
  | double (d : Double)
deriving DecidableEq

namespace Number

instance : Inhabited Number := ⟨.int 0⟩

/-- The first number that does not fit into 64 bits. -/
def wordBound : Nat := 0x10000000000000000

/-- A number written in decimal, as far as it is looked at: `± significand · 10^power`. -/
structure Decimal where
  negative : Bool
  significand : Nat
  power : Int
  /-- Whether it is an integer with all its digits, written without point and exponent. -/
  whole : Bool

/-- The first number that does not fit into 64 bits with a sign. -/
def signedBound : Nat := 0x8000000000000000

/-- The integers that are held exactly: those of 64 bits, signed or not. -/
def isWord (i : Int) : Bool := -(signedBound : Int) ≤ i && i < wordBound

/-- The number a decimal denotes; `none` when it is too large. Minus zero is a `Double`. -/
def ofDecimal? (n : Decimal) : Option Number :=
  let i : Int := if n.negative then -n.significand else n.significand
  if n.whole && isWord i && !(n.negative && n.significand == 0) then some (.int i)
  else (Double.scaled? n.negative n.significand n.power).map .double

def isZero : Number → Bool
  | .int i => i == 0
  | .double d => d.isZero

/-- Equality of numbers of one kind. -/
def agrees : Number → Number → Bool
  | .int i, .int j => i == j
  | .double d, .double e => d.agrees e
  | _, _ => false

/-- The number as a natural number, if it is an integer without sign. -/
def toNat? : Number → Option Nat
  | .int i => if 0 ≤ i then some i.toNat else none
  | .double _ => none

/-- The number as a signed 64-bit integer, if it is one. -/
def toInt64? : Number → Option Int
  | .int i => if -(signedBound : Int) ≤ i ∧ i < signedBound then some i else none
  | .double _ => none

/-- The text of a number. -/
def text : Number → String
  | .int i => if i < 0 then "-" ++ Nat.repr i.natAbs else Nat.repr i.natAbs
  | .double d => d.text

end Number

end WorkflowEngine
