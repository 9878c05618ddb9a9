import WorkflowEngine.Text.Codes

/-!
# Texts written in ASCII

Any text can be written with lower-case letters, digits and hyphens: its characters of ASCII, a
hyphen, and then a row of numbers, which tell what other characters stand where. The numbers are
written with digits of base 36 and no space between them: the first digit below a threshold ends a
number, and the thresholds follow the size of the numbers before.

A number counts the places that are passed, from where the last character was put, around the text
and on to the next code at every round.
-/

namespace WorkflowEngine.Text.Punycode

/-- The value of a digit: after the letters come the decimal digits. -/
def digit? (c : Char) : Option Nat :=
  if c.isLower then some (c.toNat - 'a'.toNat)
  else if c.isDigit then some (c.toNat - '0'.toNat + 26)
  else none

def base : Nat := 36

/-- The threshold for the digit with this rank. -/
def threshold (bias rank : Nat) : Nat := max 1 (min 26 (rank - bias))

/-- How much the ranks are shifted when numbers have this size. -/
def shift (size : Nat) : Nat :=
  if 455 < size then base + shift (size / 35) else base * size / (size + 38)
termination_by size
decreasing_by omega

/-- The bias after a number, which was the first or a later one, and the count of the characters. -/
def adapt (isFirst : Bool) (number count : Nat) : Nat :=
  let size := if isFirst then number / 700 else number / 2
  shift (size + size / count)

/-- What has been read of the numbers. -/
structure Decoding where
  text : List Char
  /-- The code of the last character. -/
  code : Nat := 128
  /-- The place behind the last character. -/
  start : Nat := 0
  bias : Nat := 72
  /-- The number that is being read, so far. -/
  number : Nat := 0
  /-- What the next digit of the number counts. -/
  weight : Nat := 1
  rank : Nat := base

namespace Decoding

/-- The end of a number: puts in a character. -/
def place? (d : Decoding) : Option Decoding :=
  let count := d.text.length + 1
  let passed := d.start + d.number
  let code := d.code + passed / count
  let index := passed % count
  (ofCode? code).map fun c =>
    { text := d.text.take index ++ c :: d.text.drop index, code, start := index + 1
      bias := adapt (d.start = 0) d.number count }

/-- Reads a digit. -/
def next? (d : Decoding) (c : Char) : Option Decoding := do
  let value ← digit? c
  let t := threshold d.bias d.rank
  let e := { d with number := d.number + value * d.weight }
  if value < t then e.place?
  else return { e with weight := d.weight * (base - t), rank := d.rank + base }

end Decoding

/-- The text that a text in ASCII stands for. It has to be one that needs to be written so. -/
def decode? (cs : List Char) : Option (List Char) := do
  let digits := (cs.reverse.takeWhile (· ≠ '-')).reverse
  let plain := cs.take (cs.length - digits.length - 1)
  if digits.isEmpty || cs.head? = some '-' && plain.isEmpty then none
  let d ← digits.foldlM Decoding.next? { text := plain }
  if d.weight = 1 then some d.text else none

end WorkflowEngine.Text.Punycode
