/-!
# Places in a YAML text

A cursor is a place in a text: what follows it, the line and column it stands in, and how many bytes
come before it. YAML gives a meaning to columns and limits the bytes of keys, so everything that is
read is read from a cursor to a cursor.

**Line breaks.** Before anything is read, every way to end a line but the two separators of Unicode
is replaced by a line feed (`unifyBreaks`), so that one character ends a line.
-/

namespace WorkflowEngine.Yaml

/-! ## Characters -/

/-- Whether a character may stand in a text at all. -/
def isAllowed (c : Char) : Bool :=
  let n := c.toNat
  n = 0x9 || n = 0xA || n = 0xD || (0x20 ≤ n && n ≤ 0x7E) || n = 0x85 ||
    (0xA0 ≤ n && n ≤ 0xFFFD) || 0x10000 ≤ n

/-- Replaces carriage returns, with or without a line feed, and next-line characters by line
feeds. -/
def unifyBreaks : List Char → List Char
  | [] => []
  | '\r' :: '\n' :: rest => '\n' :: unifyBreaks rest
  | c :: rest => (if c = '\r' ∨ c.toNat = 0x85 then '\n' else c) :: unifyBreaks rest

def isBlank (c : Char) : Bool := c = ' ' || c = '\t'

/-- The byte order mark. -/
def isOrderMark (c : Char) : Bool := c.toNat = 0xFEFF

/-- A line feed, a line separator or a paragraph separator. -/
def isBreak (c : Char) : Bool := c = '\n' || c.toNat = 0x2028 || c.toNat = 0x2029

/-- The characters of names. -/
def isNameChar (c : Char) : Bool := c.isAlphanum || c = '_' || c = '-'

/-- The characters that mean something in a flow collection. -/
def isFlowIndicator (c : Char) : Bool :=
  c = ',' || c = '[' || c = ']' || c = '{' || c = '}'

/-- Whether a word ends before this text. -/
def endsWord : List Char → Bool
  | [] => true
  | c :: _ => isBlank c || isBreak c

/-! ## Cursors -/

structure Position where
  line : Nat := 0
  column : Nat := 0
  /-- How many bytes of text come before. -/
  bytes : Nat := 0
deriving DecidableEq

namespace Position

/-- The position after a character. -/
def after (p : Position) (c : Char) : Position :=
  let bytes := p.bytes + c.utf8Size
  if isBreak c then ⟨p.line + 1, 0, bytes⟩ else ⟨p.line, p.column + 1, bytes⟩

/-- The position after some characters. -/
def afterAll (p : Position) (cs : List Char) : Position := cs.foldl after p

end Position

structure Cursor where
  position : Position
  rest : List Char

namespace Cursor

def column (c : Cursor) : Nat := c.position.column

/-- The cursor some characters further on. -/
def skip (c : Cursor) (n : Nat) : Cursor := ⟨c.position.afterAll (c.rest.take n), c.rest.drop n⟩

/-- Reads the characters of the line that have a property. -/
def take (c : Cursor) (p : Char → Bool) : List Char × Cursor :=
  let taken := c.rest.takeWhile fun ch => !isBreak ch && p ch
  (taken, c.skip taken.length)

/-- Passes over the blanks of the line. -/
def skipBlanks (c : Cursor) : Cursor := (c.take isBlank).2

/-- Passes over the line break at the cursor, if there is one. -/
def skipBreak (c : Cursor) : Cursor :=
  match c.rest with
  | ch :: rest => if isBreak ch then ⟨c.position.after ch, rest⟩ else c
  | [] => c

/-- Passes over what may stand behind everything else in a line: blanks, a comment, and the line
break. `none` if something else stands there. -/
def skipLine? (c : Cursor) : Option Cursor :=
  let c := c.skipBlanks
  let c := if c.rest.head? = some '#' then (c.take fun _ => true).2 else c
  if c.rest.head?.all isBreak then some c.skipBreak else none

end Cursor

/-- Whether a line that begins with three times `mark`, and nothing more in that word, starts here:
the marker of a document. -/
def isMarker (mark : Char) (p : Position) (text : List Char) : Bool :=
  match text with
  | a :: b :: c :: rest =>
    p.column = 0 && a = mark && b = mark && c = mark && endsWord rest
  | _ => false

/-- Whether the marker of a document's start or end stands here. -/
def isDocumentMarker (p : Position) (text : List Char) : Bool :=
  isMarker '-' p text || isMarker '.' p text

end WorkflowEngine.Yaml
