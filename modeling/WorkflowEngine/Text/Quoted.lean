import WorkflowEngine.Text.Printable

/-!
# Text in quotes, for messages

A text as a message shows it: in quotes, with the quote and the backslash escaped, the line feed,
carriage return, tabulator and null by a letter, and every other character that cannot be shown by
itself by its code in hexadecimal.
-/

namespace WorkflowEngine.Text

/-- The code of a character, in hexadecimal between braces. -/
def codeEscape (c : Char) : List Char := '\\' :: 'u' :: '{' :: Nat.toDigits 16 c.toNat ++ ['}']

/-- How a message shows a character. -/
def shown (c : Char) : List Char :=
  match c with
  | '"' => ['\\', '"']
  | '\\' => ['\\', '\\']
  | '\n' => ['\\', 'n']
  | '\r' => ['\\', 'r']
  | '\t' => ['\\', 't']
  | c =>
    if c.toNat = 0 then ['\\', '0']
    else if isPrintable c then [c]
    else codeEscape c

/-- How a message shows a text. -/
def inQuotes (s : String) : String := String.ofList ('"' :: s.toList.flatMap shown ++ ['"'])

end WorkflowEngine.Text
