import WorkflowEngine.Yaml.Node.Compose
import WorkflowEngine.Yaml.Scalar.Typed

/-!
# Reading nodes

What a node yields to a reader that knows what it wants: a text, a number, a list, fields or any
value. Where a text is wanted, a scalar is taken as it is written, whatever it denotes. Where a list
or fields are wanted, nothing at all stands for none of them.

**Limits.** Values are nested only so deep, and only so many aliases are followed; together they see
to it that a document that stands for something huge or endless is not read.
-/

namespace WorkflowEngine.Yaml

/-- A reading of a node. The state is the number of aliases that may still be followed. -/
abbrev Reading := StateT Nat Option

namespace Reading

/-- Collections may be nested this deep. -/
def maxDepth : Nat := 128

/-- How many aliases may be followed for each part of the document. -/
def aliasesPerPart : Nat := 100

/-- The node itself, or the one that an alias stands for. -/
def follow (a : Anchors) : Node → Reading Node
  | .alias number => do
    if (← get) = 0 then failure
    modify (· - 1)
    match a.node? number with
    | some n => return n
    | none => failure
  | n => return n

/-- A part that may be missing altogether. -/
def ofOption {α : Type} : Option α → Reading α
  | some x => return x
  | none => failure

/-- The text of a scalar. -/
def text (a : Anchors) (n : Node) : Reading String := do
  match ← follow a n with
  | .scalar _ _ text => return text
  | _ => failure

/-- The node, unless it stands for nothing. -/
def present? (a : Anchors) (n : Node) : Reading (Option Node) := do
  let n ← follow a n
  match n with
  | .scalar tag style text => return if ← ofOption (Scalar.isAbsent tag style text) then none else n
  | _ => return n

/-- The text of a scalar that may stand for nothing. -/
def text? (a : Anchors) (n : Node) : Reading (Option String) := do
  (← present? a n).mapM (text a)

/-- A natural number, as a plain scalar or as a literal one with the tag for integers. -/
def nat (a : Anchors) (n : Node) : Reading Nat := do
  match ← follow a n with
  | .scalar tag style text =>
    if style = .plain || (style = .literal && tag = some (Tag.core "int")) then
      ofOption (Scalar.nat? text.toList)
    else failure
  | _ => failure

/-- A natural number that may be missing. -/
def nat? (a : Anchors) (n : Node) : Reading (Option Nat) := do
  (← present? a n).mapM (nat a)

/-- Whether a node is a plain scalar with nothing in it. -/
def isNothing : Node → Bool
  | .scalar _ style text => style = .plain && text.isEmpty
  | _ => false

/-- The items of a sequence. -/
def items (a : Anchors) (n : Node) : Reading (List Node) := do
  match ← follow a n with
  | .sequence _ items => return items
  | n => if isNothing n then return [] else failure

/-- The entries of a mapping. -/
def entries (a : Anchors) (n : Node) : Reading (List (Node × Node)) := do
  match ← follow a n with
  | .mapping _ entries => return entries
  | n => if isNothing n then return [] else failure

/-- The value of a node, with arrays and objects nested less than `depth` deep. The keys of its
mappings have to denote texts, and the last of two entries with one key counts. -/
def value (a : Anchors) : Nat → Node → Reading Value
  | 0, _ => failure
  | depth + 1, n => do
    match ← follow a n with
    | .scalar tag style text => ofOption (Scalar.value tag style text)
    | .sequence tag items =>
      if depth = 0 || tag.any Tag.isLocal then failure
      return .array (← items.mapM (value a depth))
    | .mapping tag entries =>
      if depth = 0 || tag.any Tag.isLocal then failure
      let field (r : Record Value) (e : Node × Node) : Reading (Record Value) := do
        match ← value a depth e.1 with
        | .string key => return r.insert key (← value a depth e.2)
        | _ => failure
      return .ofRecord (← entries.foldlM field .empty)
    | .alias _ => failure

end Reading

/-- What a reader makes of a document; `none` for the root stands for nothing written. -/
def Document.read {α : Type} (d : Document) (f : Anchors → Node → Reading α) : Option α :=
  (f d.anchors (d.root.getD .empty)).run' (Reading.aliasesPerPart * d.size)

/-- What a reader makes of a text. -/
def read {α : Type} (text : String) (f : Anchors → Node → Reading α) : Option α :=
  (Document.ofText? text).bind (·.read f)

end WorkflowEngine.Yaml
