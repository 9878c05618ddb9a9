import WorkflowEngine.Yaml.Node
import WorkflowEngine.Yaml.Token.Scan

/-!
# Documents from tokens

The grammar of documents, over tokens. A text is one document or none: after it nothing may follow
but markers of its end.
-/

namespace WorkflowEngine.Yaml

/-- What a document is read from. -/
structure Source where
  tokens : List Token
  /-- What the handles in tags stand for. -/
  handles : List (List Char × List UInt8) := []
  anchors : Anchors := {}

/-- A part of a document that is read from the tokens. -/
abbrev Compose := StateT Source Option

namespace Compose

/-! ## Tokens -/

/-- Whether one of these tokens is next. -/
def sees (ts : List Token) : Compose Bool := do
  return (← get).tokens.head?.any (· ∈ ts)

/-- Passes over a token. -/
def drop : Compose Unit := modify fun s => { s with tokens := s.tokens.drop 1 }

/-- Passes over a token if it is next. -/
def accept (t : Token) : Compose Bool := do
  if ← sees [t] then
    drop
    return true
  else return false

/-- Passes over a token that has to be next. -/
def expect (t : Token) : Compose Unit := do
  if !(← accept t) then failure

/-! ## Tags and anchors -/

/-- What the handles stand for that need no declaration. -/
def defaultHandles : List (List Char × List UInt8) :=
  [(['!'], Tag.mark.octets), (['!', '!'], (Tag.core "").octets)]

/-- A tag in full. -/
def fullTag (handle : List Char) (suffix : List UInt8) : Compose Tag := do
  if handle.isEmpty then return ⟨suffix⟩
  match ((← get).handles ++ defaultHandles).lookup handle with
  | some expansion => return ⟨expansion ++ suffix⟩
  | none => failure

/-- The tag that is next, if there is one. -/
def tag? : Compose (Option Tag) := do
  match (← get).tokens with
  | .tag handle suffix :: _ =>
    drop
    return some (← fullTag handle suffix)
  | _ => return none

/-- The anchor that is next, if there is one. -/
def anchor? : Compose (Option String) := do
  match (← get).tokens with
  | .anchor name :: _ =>
    drop
    return some (String.ofList name)
  | _ => return none

/-- The anchor and the tag of a node, in any order. -/
def properties : Compose (Option String × Option Tag) := do
  match ← anchor? with
  | some a => return (some a, ← tag?)
  | none =>
    match ← tag? with
    | some t => return (← anchor?, some t)
    | none => return (none, none)

/-- Gives a node its anchor; how many nodes had one before. -/
def give (name : String) : Compose Nat := do
  let s ← get
  set { s with anchors := s.anchors.give name }
  return s.anchors.count

/-- Keeps a complete node for aliases. -/
def keep (index : Nat) (n : Node) : Compose Unit :=
  modify fun s => { s with anchors := s.anchors.keep index n }

/-- The alias that is next, if there is one. -/
def alias? : Compose (Option Node) := do
  match (← get).tokens with
  | .alias name :: _ =>
    drop
    match (← get).anchors.numbers.get? (String.ofList name) with
    | some number => return some (.alias number)
    | none => failure
  | _ => return none

/-! ## Nodes -/

mutual

/-- A node. In a flow collection there are no block collections. In a mapping, a sequence need not
be indented. -/
def node (block unindented : Bool) : Nat → Compose Node
  | 0 => failure
  | n + 1 => do
    if let some a ← alias? then return a
    let (anchor, tag) ← properties
    let index ← anchor.mapM give
    let node ← content block unindented (anchor.isSome || tag.isSome) tag n
    if let some index := index then keep index node
    return node

/-- What a node holds; nothing needs to be written if it has an anchor or a tag. -/
def content (block unindented marked : Bool) (tag : Option Tag) : Nat → Compose Node
  | 0 => failure
  | n + 1 => do
    match (← get).tokens.head? with
    | some (.scalar style text) =>
      drop
      return .scalar tag style (String.ofList text)
    | some .flowSequenceStart =>
      drop
      return .sequence tag (← flowItems true n)
    | some .flowMappingStart =>
      drop
      return .mapping tag (← flowEntries true n)
    | t =>
      if unindented && t = some .blockEntry then return .sequence tag (← unindentedItems n)
      else if block && t = some .blockSequenceStart then
        drop
        return .sequence tag (← blockItems n)
      else if block && t = some .blockMappingStart then
        drop
        return .mapping tag (← blockEntries n)
      else if marked then return .scalar tag .plain ""
      else failure

/-- The items of a block sequence. -/
def blockItems : Nat → Compose (List Node)
  | 0 => failure
  | n + 1 => do
    if ← accept .blockEntry then
      let item ← if ← sees [.blockEntry, .blockEnd] then pure .empty else node true false n
      return item :: (← blockItems n)
    else
      expect .blockEnd
      return []

/-- The items of a block sequence that is not indented. -/
def unindentedItems : Nat → Compose (List Node)
  | 0 => failure
  | n + 1 => do
    if ← accept .blockEntry then
      let item ← if ← sees [.blockEntry, .key, .value, .blockEnd] then pure .empty
        else node true false n
      return item :: (← unindentedItems n)
    else return []

/-- The key or the value of an entry of a block mapping. -/
def blockPart : Nat → Compose Node
  | 0 => failure
  | n + 1 => do
    if ← sees [.key, .value, .blockEnd] then return .empty else node true true n

/-- The entries of a block mapping. -/
def blockEntries : Nat → Compose (List (Node × Node))
  | 0 => failure
  | n + 1 => do
    if ← accept .key then
      let key ← blockPart n
      let value ← if ← accept .value then blockPart n else pure .empty
      return (key, value) :: (← blockEntries n)
    else
      expect .blockEnd
      return []

/-- The value of an entry in a flow collection, which ends with this token. -/
def flowValue (last : Token) : Nat → Compose Node
  | 0 => failure
  | n + 1 => do
    if ← accept .value then
      if ← sees [.flowEntry, last] then return .empty else node false false n
    else return .empty

/-- An item of a flow sequence that is a mapping with one entry. Where the key is not written, the
token in its place is passed over. -/
def flowPair : Nat → Compose Node
  | 0 => failure
  | n + 1 => do
    let key ←
      if ← sees [.value, .flowEntry, .flowSequenceEnd] then do
        drop
        pure .empty
      else node false false n
    let value ← flowValue .flowSequenceEnd n
    return .mapping none [(key, value)]

/-- The items of a flow sequence. -/
def flowItems (first : Bool) : Nat → Compose (List Node)
  | 0 => failure
  | n + 1 => do
    if ← accept .flowSequenceEnd then return []
    if !first then expect .flowEntry
    if ← accept .flowSequenceEnd then return []
    let item ← if ← accept .key then flowPair n else node false false n
    return item :: (← flowItems false n)

/-- The entries of a flow mapping. -/
def flowEntries (first : Bool) : Nat → Compose (List (Node × Node))
  | 0 => failure
  | n + 1 => do
    if ← accept .flowMappingEnd then return []
    if !first then expect .flowEntry
    if ← accept .flowMappingEnd then return []
    if ← accept .key then
      let key ← if ← sees [.value, .flowEntry, .flowMappingEnd] then pure .empty
        else node false false n
      let value ← flowValue .flowMappingEnd n
      return (key, value) :: (← flowEntries false n)
    else
      let key ← node false false n
      return (key, .empty) :: (← flowEntries false n)

end

/-! ## Documents -/

/-- The directives before a document, of which `version` says whether one told the version. Whether
there was any. -/
def directives (version : Bool) : List Token → Option (Bool × List (List Char × List UInt8))
  | .version major minor :: ts =>
    if version || major ≠ 1 || (minor ≠ 1 && minor ≠ 2) then none
    else (directives true ts).map fun r => (true, r.2)
  | .tagHandle handle expansion :: ts => do
    let (_, handles) ← directives version ts
    if (handles.lookup handle).isSome then none
    return (true, (handle, expansion) :: handles)
  | _ => some (false, [])

def isDirective : Token → Bool
  | .version .. | .tagHandle .. => true
  | _ => false

/-- The root of a document. -/
def root (n : Nat) : Compose (Option Node) := do
  let ts := (← get).tokens
  if ts.isEmpty then return none
  let (declared, handles) ← directives false ts
  modify fun s => { s with tokens := s.tokens.dropWhile isDirective, handles }
  if declared || (← sees [.documentStart]) then
    expect .documentStart
    match (← get).tokens with
    | [] | .version .. :: _ | .tagHandle .. :: _ | .documentStart :: _ | .documentEnd :: _ =>
      return some .empty
    | _ => return some (← node true false n)
  else return some (← node true false n)

/-- A document, and nothing after it. The number bounds the depth of the reading. -/
def document (n : Nat) : Compose Document := do
  let root ← root n
  let s ← get
  if (s.tokens.dropWhile (· = .documentEnd)).isEmpty then return ⟨root, s.anchors⟩ else failure

end Compose

/-- The document that a text holds. Between two tokens there are never more than eight steps. -/
def Document.ofText? (text : String) : Option Document := do
  let tokens ← Token.ofText? text.toList
  (Compose.document (8 * (tokens.length + 1))).run' { tokens }

end WorkflowEngine.Yaml
