import WorkflowEngine.Text.Cut
import WorkflowEngine.Text.Digits

/-!
# Internet addresses

An address of version 4 is written as at most four numbers with points between them: the last one
fills all the bytes that are left. A number may be decimal, octal after a zero, or hexadecimal
after `0x`.

An address of version 6 is written as eight groups of hexadecimal digits with colons between them.
Two colons stand for one or more groups that are zero, and the last two groups may be written as an
address of version 4 with four decimal numbers.
-/

namespace WorkflowEngine.Http

/-! ## Version 4 -/

/-- A number in an address of version 4. -/
def addressNumber? (part : List Char) : Option Nat :=
  match part with
  | ['0', 'x'] => some 0
  | '0' :: 'x' :: ds => Text.natural? 16 ds
  | '0' :: d :: ds => Text.natural? 8 (d :: ds)
  | ds => Text.natural? 10 ds

/-- The parts of a name but for an empty one at its end. -/
def writtenParts (parts : List (List Char)) : List (List Char) :=
  if parts.getLast? = some [] then parts.dropLast else parts

/-- Whether a name is meant as an address of version 4: its last part is a number. -/
def endsInNumber (parts : List (List Char)) : Bool :=
  (writtenParts parts).getLast?.any fun last =>
    (!last.isEmpty && last.all Char.isDigit) || (addressNumber? last).isSome

/-- Whether the parts of a name are an address of version 4. -/
def isAddress4 (parts : List (List Char)) : Bool :=
  match (writtenParts parts).mapM addressNumber? with
  | none => false
  | some ns =>
    ns.length ≤ 4 && ns.dropLast.all (· < 256) &&
      ns.getLast?.any (· < Nat.pow 256 (5 - ns.length))

/-! ## Version 6 -/

/-- Whether a number below 256 is written without superfluous zeros. -/
def isByte (part : List Char) : Bool :=
  (part.head? ≠ some '0' || part.length = 1) && (Text.natural? 10 part).any (· < 256)

/-- Whether four decimal numbers are an address of version 4. -/
def isDotted (text : List Char) : Bool :=
  let parts := Text.parts '.' text
  parts.length = 4 && parts.all isByte

/-- Whether these are the digits of a group. -/
def isGroup (text : List Char) : Bool := text.length ≤ 4 && (Text.natural? 16 text).isSome

/-- How many groups these parts are, of which the last may be two groups as an address of
version 4. -/
def groups? (dottedLast : Bool) : List (List Char) → Option Nat
  | [] => some 0
  | [part] => if isGroup part then some 1 else if dottedLast && isDotted part then some 2 else none
  | part :: rest => if isGroup part then (groups? dottedLast rest).map (1 + ·) else none

/-- How many groups a text between double colons holds. -/
def groupCount? (dottedLast : Bool) (text : List Char) : Option Nat :=
  if text.isEmpty then some 0 else groups? dottedLast (Text.parts ':' text)

/-- Whether a text is an address of version 6. -/
def isAddress6 (text : List Char) : Bool :=
  match Text.cutAtPair ':' text with
  | none => groupCount? true text = some 8
  | some (before, after) =>
    match groupCount? false before, groupCount? true after with
    | some m, some n => m + n < 8
    | _, _ => false

end WorkflowEngine.Http
