import WorkflowEngine.Text.Cut
import WorkflowEngine.Text.Digits
import WorkflowEngine.Value

/-!
# Paths

A path is a text cut at its dots into segments. It is walked from the bindings of a context: the
first segment is a bound name, and each further segment a key of the object reached, or an index
into the array reached. A segment is an index when it is a decimal number of 64 bits, with or
without a plus sign and leading zeros.

Main statement: `Bindings.lookup`, which says what a path leads to.
-/

namespace WorkflowEngine

namespace Path

/-- The segments of a path. -/
def segments (path : String) : List String := (Text.parts '.' path.toList).map String.ofList

/-- The index that a segment denotes. -/
def index? (segment : String) : Option Nat :=
  let cs := match segment.toList with
    | '+' :: cs => cs
    | cs => cs
  (Text.natural? 10 cs).filter (· < Number.wordBound)

end Path

/-- The value one segment below another. -/
def Value.child (v : Value) (segment : String) : Option Value :=
  match v with
  | .object fields => fields.lookup segment
  | .array items => (Path.index? segment).bind (items[·]?)
  | _ => none

/-- The value that a list of segments leads to from `v`. -/
def Value.descend (v : Value) : List String → Option Value
  | [] => some v
  | s :: rest => (v.child s).bind (·.descend rest)

/-- The variables of a context: names bound to values. -/
abbrev Bindings := Record Value

namespace Bindings

/-- The value a path leads to. -/
def lookup (b : Bindings) (path : String) : Option Value :=
  match Path.segments path with
  | [] => none
  | s :: rest => (b.get? s).bind (·.descend rest)

/-- Whether a path leads to a value that counts as true; a path that leads nowhere does not. -/
def isTruthy (b : Bindings) (path : String) : Bool := (b.lookup path).any Value.truthy

/-- The reserved name that holds the result of the latest dispatch. -/
def outputKey : String := "_output"

/-- The result of the latest dispatch. -/
def output (b : Bindings) : Option Value := b.get? outputKey

/-- Equality of what is bound. -/
def agrees (b c : Bindings) : Bool := Value.agreesFields b.entries c.entries

end Bindings

end WorkflowEngine
