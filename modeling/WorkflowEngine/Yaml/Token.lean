import WorkflowEngine.Text.Digits
import WorkflowEngine.Yaml.Cursor
import WorkflowEngine.Yaml.Tag

/-!
# The tokens of a YAML text

A YAML text is first cut into tokens. The layout of block collections becomes tokens too:
indentation is looked at only while the text is cut, and what follows can be read without it.
-/

namespace WorkflowEngine.Yaml

/-- How a scalar is written. -/
inductive Style where
  | plain
  | quoted
  | literal
  | folded
deriving DecidableEq

inductive Token where
  | version (major minor : Nat)
  /-- Declares what a handle in tags stands for. -/
  | tagHandle (handle : List Char) (expansion : List UInt8)
  | documentStart
  | documentEnd
  | blockSequenceStart
  | blockMappingStart
  | blockEnd
  | flowSequenceStart
  | flowSequenceEnd
  | flowMappingStart
  | flowMappingEnd
  | blockEntry
  | flowEntry
  | key
  | value
  | anchor (name : List Char)
  | alias (name : List Char)
  /-- A tag. With an empty handle, the suffix is all of it. -/
  | tag (handle : List Char) (suffix : List UInt8)
  | scalar (style : Style) (text : List Char)
deriving DecidableEq

namespace Token

/-- A token, and the text after it. -/
abbrev Lexeme := Token × Cursor

/-! ## Anchors and aliases -/

/-- Whether a name may end before this text. -/
def endsName (text : List Char) : Bool :=
  endsWord text || text.head?.any fun c => c ∈ ['?', ':', ',', ']', '}', '%', '@', '\x60']

/-- Reads the name of an anchor or an alias, whose indicator is behind the cursor. -/
def name? (c : Cursor) : Option (List Char × Cursor) :=
  let (name, c) := c.take isNameChar
  if !name.isEmpty && endsName c.rest then some (name, c) else none

/-! ## Tags -/

/-- The characters of tags, escapes apart. -/
def isTagChar (c : Char) : Bool :=
  isNameChar c ||
    c ∈ [';', '/', '?', ':', '@', '&', '=', '+', '$', '.', '!', '~', '*', '\'', '(', ')']

/-- How many further octets belong to a character that begins with this one. -/
def octetsAfter? (octet : Nat) : Option Nat :=
  if octet < 0x80 then some 0
  else if octet / 0x20 = 6 then some 1
  else if octet / 0x10 = 0xE then some 2
  else if octet / 8 = 0x1E then some 3
  else none

/-- The octet that two hexadecimal digits denote. -/
def octet? (a b : Char) : Option Nat := Text.natural? 16 [a, b]

/-- Reads the octets of a tag, which are characters or escaped. `pending` octets of a character have
still to come. In a `verbatim` tag some more characters may stand. -/
def tagOctets (verbatim : Bool) (pending : Nat) : List Char → Option (List UInt8 × List Char)
  | [] => if pending = 0 then some ([], []) else none
  | '%' :: a :: b :: rest => do
    let octet ← octet? a b
    let pending ←
      if pending = 0 then octetsAfter? octet
      else if octet / 0x40 = 2 then some (pending - 1)
      else none
    let (octets, rest) ← tagOctets verbatim pending rest
    return (octet.toUInt8 :: octets, rest)
  | c :: rest =>
    if pending ≠ 0 ∨ c = '%' then none
    else if isTagChar c || (verbatim && c ∈ [',', '[', ']']) then do
      let (octets, rest) ← tagOctets verbatim 0 rest
      return (Tag.ascii [c] ++ octets, rest)
    else some ([], c :: rest)

/-- Reads the octets of a tag at a cursor. -/
def octets? (verbatim : Bool) (c : Cursor) : Option (List UInt8 × Cursor) := do
  let (octets, rest) ← tagOctets verbatim 0 c.rest
  return (octets, c.skip (c.rest.length - rest.length))

/-- Reads an exclamation mark, a name and, if there is one, another exclamation mark. -/
def handle? (c : Cursor) : Option (List Char × Cursor) :=
  if c.rest.head? = some '!' then
    let (name, c) := (c.skip 1).take isNameChar
    if c.rest.head? = some '!' then some ('!' :: name ++ ['!'], c.skip 1) else some ('!' :: name, c)
  else none

/-- Whether a handle has exclamation marks at both ends. -/
def isClosed (handle : List Char) : Bool := handle.length ≥ 2 && handle.getLast? = some '!'

/-- Reads a tag. Something has to be written between angle brackets or after a handle, even if it
does not count. -/
def tag? (flow : Bool) (c : Cursor) : Option Lexeme := do
  let (token, c) : Lexeme ←
    if (c.rest.drop 1).head? = some '<' then do
      let (suffix, c) ← octets? true (c.skip 2)
      if suffix.isEmpty || c.rest.head? ≠ some '>' then none
      pure (.tag [] (Tag.counted suffix), c.skip 1)
    else do
      let (handle, c) ← handle? c
      let (suffix, c) ← octets? false c
      if isClosed handle then
        if suffix.isEmpty then none
        pure (.tag handle (Tag.counted suffix), c)
      else
        let suffix := Tag.counted (Tag.ascii (handle.drop 1) ++ suffix)
        pure (if suffix.isEmpty then .tag [] Tag.mark.octets else .tag ['!'] suffix, c)
  if endsWord c.rest || (flow && c.rest.head? = some ',') then some (token, c) else none

/-! ## Directives -/

/-- Reads a number of at most nine digits. -/
def number? (c : Cursor) : Option (Nat × Cursor) :=
  let (ds, c) := c.take Char.isDigit
  if 9 < ds.length then none else (Text.natural? 10 ds).map fun n => (n, c)

/-- Reads what follows the name of a directive for the version. -/
def version? (c : Cursor) : Option Lexeme := do
  let (major, c) ← number? c.skipBlanks
  if c.rest.head? ≠ some '.' then none
  let (minor, c) ← number? (c.skip 1)
  return (.version major minor, c)

/-- Reads what follows the name of a directive for a handle. -/
def tagHandle? (c : Cursor) : Option Lexeme := do
  let (handle, c) ← handle? c.skipBlanks
  if !(isClosed handle || handle = ['!']) || !c.rest.head?.any isBlank then none
  let (expansion, c) ← octets? true c.skipBlanks
  if expansion.isEmpty || !endsWord c.rest then none
  return (.tagHandle handle (Tag.counted expansion), c)

/-- Reads a directive, with the rest of its line. -/
def directive? (c : Cursor) : Option Lexeme := do
  let (name, c) := (c.skip 1).take isNameChar
  if !endsWord c.rest then none
  let (token, c) ←
    if name = "YAML".toList then version? c
    else if name = "TAG".toList then tagHandle? c
    else none
  return (token, ← c.skipLine?)

end Token

end WorkflowEngine.Yaml
