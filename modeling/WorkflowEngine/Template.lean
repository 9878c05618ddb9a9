import WorkflowEngine.Json.Text
import WorkflowEngine.Path
import WorkflowEngine.Text.Blank
import WorkflowEngine.Text.Cut

/-!
# Templates

A template is text with placeholders: a path between a doubled opening brace and the next doubled
closing brace, blanks around the path not counting.

**Reading** (`Template.ofChars`). A template is read from left to right into literal texts, each
with the path that follows it, and a tail. An opening pair that is never closed belongs to the tail,
so a text without a complete placeholder is all tail.

**Filling in** (`Template.fill`). Every placeholder is replaced by the text of the value its path
leads to: a string stands for itself, any other value for its compact JSON, and a path that leads
nowhere for nothing. What is filled in is not read again.
-/

namespace WorkflowEngine

/-- Literal texts, each followed by the text between a pair of doubled braces, and a tail. -/
structure Template where
  pieces : List (List Char × List Char)
  tail : List Char
deriving DecidableEq

namespace Template

/-- Reads a template. -/
def ofChars (text : List Char) : Template :=
  match hopen : Text.cutAtPair '{' text with
  | none => ⟨[], text⟩
  | some (before, inner) =>
    match hclose : Text.cutAtPair '}' inner with
    | none => ⟨[], text⟩
    | some (path, after) =>
      have : after.length < text.length :=
        Nat.lt_trans (Text.length_lt_of_cutAtPair hclose) (Text.length_lt_of_cutAtPair hopen)
      let rest := ofChars after
      ⟨(before, path) :: rest.pieces, rest.tail⟩
termination_by text.length

/-- The text that stands for a placeholder. -/
def substitution (b : Bindings) (path : List Char) : List Char :=
  match b.lookup (String.ofList (Text.trim path)) with
  | none => []
  | some v => v.plain.toList

/-- The template with its placeholders filled in. -/
def fill (b : Bindings) (t : Template) : List Char :=
  t.pieces.flatMap (fun p => p.1 ++ substitution b p.2) ++ t.tail

end Template

namespace Bindings

/-- The text of a template in a context. -/
def resolve (b : Bindings) (template : String) : String :=
  String.ofList ((Template.ofChars template.toList).fill b)

mutual

/-- A value with every string in it resolved as a template; keys stay as they are. -/
def resolveValue (b : Bindings) : Value → Value
  | .string s => .string (b.resolve s)
  | .array items => .array (resolveItems b items)
  | .object fields => .object (resolveFields b fields)
  | v => v

def resolveItems (b : Bindings) : List Value → List Value
  | [] => []
  | v :: vs => resolveValue b v :: resolveItems b vs

def resolveFields (b : Bindings) : List (String × Value) → List (String × Value)
  | [] => []
  | (k, v) :: fs => (k, resolveValue b v) :: resolveFields b fs

end

end Bindings

/-- Values written one after another, with a separator between them. -/
def Value.join (items : List Value) (separator : String) : String :=
  separator.intercalate (items.map Value.plain)

end WorkflowEngine
