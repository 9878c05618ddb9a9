import WorkflowEngine.Yaml.Scalar.Block
import WorkflowEngine.Yaml.Scalar.Plain
import WorkflowEngine.Yaml.Scalar.Quoted
import WorkflowEngine.Yaml.Token

/-!
# Cutting a text into tokens

Most tokens can be told by the next characters. Two things need more.

**Indentation.** The block collections that are open are told by their margins: the margin of a
collection is the first column that lies inside its entries. A line that begins left of the margin
closes the collection.

**Simple keys.** A key of a mapping can be told only by the colon after it. So wherever a key may
begin, the place is kept in mind, one place for each flow collection that is open; at the colon the
token for the key is put there. A place is given up when the line ends or the key gets too long. If
the place is where the keys of the innermost block mapping stand, giving it up is an error.

**Byte order marks.** Where a token could begin at the start of a line, a byte order mark is passed
over. It counts as a column.
-/

namespace WorkflowEngine.Yaml

/-- A place where a key may have begun. -/
structure KeyPlace where
  position : Position
  /-- How many tokens there were before it. -/
  index : Nat
  /-- Whether nothing but a key may stand there. -/
  required : Bool

structure Scan where
  cursor : Cursor
  /-- The tokens so far, newest first. -/
  tokens : List Token := []
  /-- The margins of the block collections that are open, innermost first. -/
  margins : List Nat := []
  /-- The place of a key in the block collections. -/
  blockKey : Option KeyPlace := none
  /-- The place of a key in each flow collection that is open, innermost first. -/
  flowKeys : List (Option KeyPlace) := []
  /-- Whether a key may begin at the next token. -/
  keyAllowed : Bool := true

namespace Scan

/-- Whether a flow collection is open. -/
def inFlow (s : Scan) : Bool := !s.flowKeys.isEmpty

/-- The innermost margin. -/
def margin (s : Scan) : Nat := s.margins.head?.getD 0

/-! ## Tokens and indentation -/

/-- Adds a token at the end. -/
def emit (s : Scan) (t : Token) : Scan := { s with tokens := t :: s.tokens }

/-- Puts a token after the first `index` tokens. -/
def insert (s : Scan) (index : Nat) (t : Token) : Scan :=
  let newer := s.tokens.length - index
  { s with tokens := s.tokens.take newer ++ t :: s.tokens.drop newer }

/-- Opens a block collection whose entries stand in a column, unless one is open. -/
def openBlock (s : Scan) (column index : Nat) (t : Token) : Scan :=
  if s.inFlow || column < s.margin then s
  else { s with margins := (column + 1) :: s.margins }.insert index t

/-- Closes the block collections whose margin is beyond `margin`. -/
def closeBlocks (margin : Nat) (tokens : List Token) : List Nat → List Nat × List Token
  | [] => ([], tokens)
  | m :: margins =>
    if margin < m then closeBlocks margin (.blockEnd :: tokens) margins else (m :: margins, tokens)

/-- Closes block collections, unless a flow collection is open. -/
def unwind (s : Scan) (margin : Nat) : Scan :=
  if s.inFlow then s
  else
    let (margins, tokens) := closeBlocks margin s.tokens s.margins
    { s with margins, tokens }

/-! ## Simple keys -/

/-- The place of a key that counts now. -/
def keyPlace (s : Scan) : Option KeyPlace :=
  match s.flowKeys with
  | [] => s.blockKey
  | k :: _ => k

def setKeyPlace (s : Scan) (k : Option KeyPlace) : Scan :=
  match s.flowKeys with
  | [] => { s with blockKey := k }
  | _ :: ks => { s with flowKeys := k :: ks }

/-- Gives up the place of a key. -/
def dropKey (s : Scan) : Option Scan :=
  if s.keyPlace.any (·.required) then none else some (s.setKeyPlace none)

/-- Keeps in mind that a key may begin here. -/
def saveKey (s : Scan) : Option Scan := do
  if !s.keyAllowed then return s
  let required := !s.inFlow && s.margin = s.cursor.column + 1
  let s ← s.dropKey
  return s.setKeyPlace (some ⟨s.cursor.position, s.tokens.length, required⟩)

/-- How many bytes the text of a simple key may have. -/
def maxKeyLength : Nat := 1024

/-- Whether a key that began at a place can no longer end at this position. -/
def isStale (k : KeyPlace) (p : Position) : Bool :=
  k.position.line < p.line || k.position.bytes + maxKeyLength < p.bytes

/-- A place of a key, unless it is stale. -/
def refresh (p : Position) : Option KeyPlace → Option (Option KeyPlace)
  | none => some none
  | some k => if isStale k p then (if k.required then none else some none) else some (some k)

/-- Gives up all stale places. -/
def dropStale (s : Scan) : Option Scan := do
  let p := s.cursor.position
  let flowKeys ← s.flowKeys.mapM (refresh p)
  let blockKey ← refresh p s.blockKey
  return { s with flowKeys, blockKey }

/-! ## Between tokens -/

/-- Passes over blanks, comments and line breaks. A line break outside flow collections allows a key
to begin; where a key may begin, a tab is no blank. A byte order mark may begin a line. -/
def toToken (flow allowed comment : Bool) (p : Position) : List Char → Bool × Cursor
  | [] => (allowed, ⟨p, []⟩)
  | c :: rest =>
    if isBreak c then toToken flow (allowed || !flow) false (p.after c) rest
    else if comment then toToken flow allowed true (p.after c) rest
    else if c = ' ' ∨ (c = '\t' ∧ (flow || !allowed)) then
      toToken flow allowed false (p.after c) rest
    else if c = '#' then toToken flow allowed true (p.after c) rest
    else if p.column = 0 ∧ isOrderMark c then toToken flow allowed false (p.after c) rest
    else (allowed, ⟨p, c :: rest⟩)

/-- Goes on to the next token, or to the end. -/
def skipSpace (s : Scan) : Scan :=
  let (keyAllowed, cursor) :=
    toToken s.inFlow s.keyAllowed false s.cursor.position s.cursor.rest
  { s with cursor, keyAllowed }

/-! ## Kinds of tokens -/

/-- A token of `n` characters. -/
def mark (s : Scan) (n : Nat) (t : Token) : Scan := { s.emit t with cursor := s.cursor.skip n }

/-- A token that has been read, after which a key may begin or not. -/
def accept (s : Scan) (r : Option Token.Lexeme) (keyAllowed : Bool) : Option Scan := do
  let (t, cursor) ← r
  return { s.emit t with cursor, keyAllowed }

/-- A marker of a document. -/
def marker (s : Scan) (t : Token) : Option Scan := do
  let s ← (s.unwind 0).dropKey
  return { s.mark 3 t with keyAllowed := false }

def directive (s : Scan) : Option Scan := do
  let s ← (s.unwind 0).dropKey
  s.accept (Token.directive? s.cursor) false

/-- The start of a flow collection. -/
def flowStart (s : Scan) (t : Token) : Option Scan := do
  let s ← s.saveKey
  return { s.mark 1 t with flowKeys := none :: s.flowKeys, keyAllowed := true }

/-- The end of a flow collection. -/
def flowEnd (s : Scan) (t : Token) : Option Scan := do
  let s ← s.dropKey
  return { s.mark 1 t with flowKeys := s.flowKeys.drop 1, keyAllowed := false }

def flowEntry (s : Scan) : Option Scan := do
  let s ← s.dropKey
  return { s.mark 1 .flowEntry with keyAllowed := true }

/-- Opens a block collection here. Outside flow collections it has to be a place where keys may
begin. -/
def openHere (s : Scan) (t : Token) : Option Scan :=
  if s.inFlow then some s
  else if s.keyAllowed then some (s.openBlock s.cursor.column s.tokens.length t)
  else none

def blockEntry (s : Scan) : Option Scan := do
  let s ← s.openHere .blockSequenceStart
  let s ← s.dropKey
  return { s.mark 1 .blockEntry with keyAllowed := true }

/-- A key that is announced by a question mark. -/
def complexKey (s : Scan) : Option Scan := do
  let s ← s.openHere .blockMappingStart
  let s ← s.dropKey
  return { s.mark 1 .key with keyAllowed := !s.inFlow }

/-- The colon before a value. -/
def value (s : Scan) : Option Scan :=
  match s.keyPlace with
  | some k =>
    let s := (s.insert k.index .key).openBlock k.position.column k.index .blockMappingStart
    some { (s.setKeyPlace none).mark 1 .value with keyAllowed := false }
  | none => do
    let s ← s.openHere .blockMappingStart
    return { s.mark 1 .value with keyAllowed := !s.inFlow }

def anchor (s : Scan) (make : List Char → Token) : Option Scan := do
  let s ← s.saveKey
  s.accept ((Token.name? (s.cursor.skip 1)).map fun r => (make r.1, r.2)) false

def tag (s : Scan) : Option Scan := do
  let s ← s.saveKey
  s.accept (Token.tag? s.inFlow s.cursor) false

def block (s : Scan) (style : Style) : Option Scan := do
  let s ← s.dropKey
  let r := Block.read (style = .folded) s.margin (s.cursor.skip 1)
  s.accept (r.map fun r => (.scalar style r.1, r.2)) true

def quoted (s : Scan) (read : Cursor → Option (List Char × Cursor)) : Option Scan := do
  let s ← s.saveKey
  s.accept ((read (s.cursor.skip 1)).map fun r => (.scalar .quoted r.1, r.2)) false

def plain (s : Scan) : Option Scan := do
  let s ← s.saveKey
  let r ← Plain.read s.inFlow s.margin s.cursor
  s.accept (some (.scalar .plain r.text, r.cursor)) r.broken

/-- Whether a plain scalar may begin with `c`, whatever follows. -/
def startsPlain (c : Char) : Bool :=
  !(isBlank c || isBreak c) &&
    c ∉ ['-', '?', ':', ',', '[', ']', '{', '}', '#', '&', '*', '!', '|', '>', '\'', '"', '%', '@',
      '\x60']

/-- Reads the token that begins with `c`. -/
def token (s : Scan) (c : Char) (rest : List Char) : Option Scan :=
  let text := c :: rest
  let position := s.cursor.position
  let separate := endsWord rest
  if position.column = 0 ∧ c = '%' then s.directive
  else if isMarker '-' position text then s.marker .documentStart
  else if isMarker '.' position text then s.marker .documentEnd
  else
    match c with
    | '[' => s.flowStart .flowSequenceStart
    | '{' => s.flowStart .flowMappingStart
    | ']' => s.flowEnd .flowSequenceEnd
    | '}' => s.flowEnd .flowMappingEnd
    | ',' => s.flowEntry
    | '*' => s.anchor .alias
    | '&' => s.anchor .anchor
    | '!' => s.tag
    | '\'' => s.quoted Quoted.single
    | '"' => s.quoted Quoted.double
    | '|' => if s.inFlow then none else s.block .literal
    | '>' => if s.inFlow then none else s.block .folded
    | '-' => if separate then s.blockEntry else s.plain
    | '?' => if s.inFlow || separate then s.complexKey else s.plain
    | ':' => if s.inFlow || separate then s.value else s.plain
    | c => if startsPlain c then s.plain else none

/-- Goes on to the next token and reads it; at the end, closes what is open. -/
def step (s : Scan) : Option Scan := do
  let s ← s.skipSpace.dropStale
  match s.cursor.rest with
  | [] => (s.unwind 0).dropKey
  | c :: rest => (s.unwind (s.cursor.column + 1)).token c rest

/-- Reads at most `n` tokens, and the end. -/
def run : Nat → Scan → Option Scan
  | 0, s => s.step
  | n + 1, s => if s.cursor.rest.isEmpty then s.step else s.step.bind (run n)

/-- The start of a text. -/
def start (text : List Char) : Scan := { cursor := ⟨{}, text⟩ }

end Scan

/-- The tokens of a text. -/
def Token.ofText? (text : List Char) : Option (List Token) :=
  if text.all isAllowed then
    (Scan.run text.length (Scan.start (unifyBreaks text))).map (·.tokens.reverse)
  else none

end WorkflowEngine.Yaml
