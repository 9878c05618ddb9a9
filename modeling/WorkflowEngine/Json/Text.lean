import WorkflowEngine.Value

/-!
# Values written as compact JSON

The text of a value has no spaces. In a string the quote, the backslash and the control characters
below U+0020 are escaped, the five with a short escape by it and the others by four hexadecimal
digits; every other character stands for itself. The fields of an object are written in the order
they are held in, which for a canonical value is increasing order of key.
-/

namespace WorkflowEngine

namespace Json

/-- How one character is written inside a string. -/
def escaped (c : Char) : List Char :=
  match c with
  | '"' => ['\\', '"']
  | '\\' => ['\\', '\\']
  | '\n' => ['\\', 'n']
  | '\r' => ['\\', 'r']
  | '\t' => ['\\', 't']
  | c =>
    if c.toNat = 8 then ['\\', 'b']
    else if c.toNat = 12 then ['\\', 'f']
    else if c.toNat < 32 then
      ['\\', 'u', '0', '0', Nat.digitChar (c.toNat / 16), Nat.digitChar (c.toNat % 16)]
    else [c]

/-- A string in quotes. -/
def quoted (s : String) : List Char := '"' :: s.toList.flatMap escaped ++ ['"']

end Json

namespace Value

mutual

/-- The characters of a value's text. -/
def write : Value → List Char
  | .null => ['n', 'u', 'l', 'l']
  | .bool true => ['t', 'r', 'u', 'e']
  | .bool false => ['f', 'a', 'l', 's', 'e']
  | .number n => n.text.toList
  | .string s => Json.quoted s
  | .array [] => ['[', ']']
  | .array (v :: vs) => '[' :: write v ++ writeItems vs
  | .object [] => ['{', '}']
  | .object ((k, v) :: fs) => '{' :: Json.quoted k ++ ':' :: write v ++ writeFields fs

/-- The items after the first, and the closing bracket. -/
def writeItems : List Value → List Char
  | [] => [']']
  | v :: vs => ',' :: write v ++ writeItems vs

/-- The fields after the first, and the closing brace. -/
def writeFields : List (String × Value) → List Char
  | [] => ['}']
  | (k, v) :: fs => ',' :: Json.quoted k ++ ':' :: write v ++ writeFields fs

end

/-- The text of a value: compact JSON. -/
def text (v : Value) : String := String.ofList v.write

/-- A value as it appears inside other text: a string stands for itself, and every other value for
its compact JSON. -/
def plain : Value → String
  | .string s => s
  | v => v.text

end Value

end WorkflowEngine
