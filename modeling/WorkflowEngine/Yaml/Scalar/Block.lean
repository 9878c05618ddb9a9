import WorkflowEngine.Text.Digits
import WorkflowEngine.Yaml.Cursor

/-!
# Block scalars

A block scalar is written on lines of its own, all indented to the same column. In a literal one the
lines are kept. In a folded one a single line break between two lines that do not begin with blanks
is read as a space.

**Chomping** says what becomes of the line breaks at the end: all but the first are dropped (clip),
all are dropped (strip), or all are kept (keep).

**Indentation** is told by a digit, relative to the collection around, or else by the first line
that is not empty.
-/

namespace WorkflowEngine.Yaml

inductive Chomping where
  | clip
  | strip
  | keep
deriving DecidableEq

namespace Block

/-- What the line of the indicator says. -/
structure Header where
  chomping : Chomping := .clip
  /-- The digit for the indentation. -/
  digit : Option Nat := none

/-- A sign for the chomping. -/
def chomping? (c : Char) : Option Chomping :=
  if c = '+' then some .keep else if c = '-' then some .strip else none

/-- Reads the sign and the digit, in any order. `none` if the digit is 0. -/
def header (c : Cursor) : Option (Header × Cursor) :=
  let (h, c) : Header × Cursor :=
    match c.rest with
    | a :: rest =>
      match chomping? a, Text.digit? 10 a with
      | some chomping, _ =>
        match rest.head?.bind (Text.digit? 10) with
        | some d => (⟨chomping, d⟩, c.skip 2)
        | none => (⟨chomping, none⟩, c.skip 1)
      | none, some d =>
        match rest.head?.bind chomping? with
        | some chomping => (⟨chomping, d⟩, c.skip 2)
        | none => (⟨.clip, d⟩, c.skip 1)
      | none, none => ({}, c)
    | [] => ({}, c)
  if h.digit = some 0 then none else some (h, c)

/-- The furthest column that spaces reach before the first line that is not empty; `none` if a tab
follows them. -/
def reach (furthest column : Nat) : List Char → Option Nat
  | [] => some (max furthest column)
  | c :: rest =>
    if c = ' ' then reach furthest (column + 1) rest
    else if c = '\t' then none
    else if isBreak c then reach (max furthest column) 0 rest
    else some (max furthest column)

/-- The column of the lines of a block, inside a collection with this margin. -/
def indentation (h : Header) (margin : Nat) (text : List Char) : Option Nat :=
  match h.digit with
  | some d => some (margin - 1 + d)
  | none => (reach 0 0 text).map fun n => max n (max margin 1)

/-- A block that is being read; texts are newest first. -/
structure Lines where
  text : List Char := []
  /-- The break of the last line. -/
  lineBreak : List Char := []
  /-- The breaks of empty lines after it. -/
  emptyLines : List Char := []
  /-- Whether the last line began with a blank. -/
  blank : Bool := false

/-- Begins a line with `c`. -/
def Lines.begin (b : Lines) (folded : Bool) (c : Char) : Lines :=
  let joined := folded && b.lineBreak = ['\n'] && !b.blank && !isBlank c
  let between := if joined then (if b.emptyLines.isEmpty then [' '] else []) else b.lineBreak
  { text := c :: (b.emptyLines ++ between ++ b.text), blank := isBlank c }

/-- The text of a block. -/
def Lines.finish (b : Lines) (chomping : Chomping) : List Char :=
  match chomping with
  | .strip => b.text.reverse
  | .clip => (b.lineBreak ++ b.text).reverse
  | .keep => (b.emptyLines ++ b.lineBreak ++ b.text).reverse

/-- Goes on reading the lines of a block, which are indented to a column. `inLine` says whether the
line has begun. `none` if a tab stands in the indentation. -/
def linesFrom (folded : Bool) (indent : Nat) (inLine : Bool) (b : Lines) (p : Position) :
    List Char → Option (Lines × Cursor)
  | [] => some (b, ⟨p, []⟩)
  | c :: rest =>
    if inLine then
      if isBreak c then linesFrom folded indent false { b with lineBreak := [c] } (p.after c) rest
      else linesFrom folded indent true { b with text := c :: b.text } (p.after c) rest
    else if p.column < indent ∧ c = ' ' then linesFrom folded indent false b (p.after c) rest
    else if p.column < indent ∧ c = '\t' then none
    else if isBreak c then
      linesFrom folded indent false { b with emptyLines := c :: b.emptyLines } (p.after c) rest
    else if p.column = indent then
      linesFrom folded indent true (b.begin folded c) (p.after c) rest
    else some (b, ⟨p, c :: rest⟩)

/-- Reads a block scalar, whose indicator is behind the cursor, inside a collection with this
margin. -/
def read (folded : Bool) (margin : Nat) (c : Cursor) : Option (List Char × Cursor) := do
  let (h, c) ← header c
  let c ← c.skipLine?
  let indent ← indentation h margin c.rest
  let (b, c) ← linesFrom folded indent false {} c.position c.rest
  return (b.finish h.chomping, c)

end Block

end WorkflowEngine.Yaml
