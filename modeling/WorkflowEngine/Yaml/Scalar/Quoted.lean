import WorkflowEngine.Text.Codes
import WorkflowEngine.Text.Digits
import WorkflowEngine.Yaml.Gap

/-!
# Quoted scalars

Between single quotes only the quote has to be written in another way: twice. Between double quotes
a backslash begins an escape: of a line break, of a character by a letter, or of any character by
its code. A marker of a document must not stand inside.
-/

namespace WorkflowEngine.Yaml.Quoted

/-- The character that a backslash and a letter stand for. -/
def unescape? (c : Char) : Option Char :=
  match c with
  | '0' => some (Char.ofNat 0)
  | 'a' => some (Char.ofNat 7)
  | 'b' => some (Char.ofNat 8)
  | 't' | '\t' => some '\t'
  | 'n' => some '\n'
  | 'v' => some (Char.ofNat 0xB)
  | 'f' => some (Char.ofNat 0xC)
  | 'r' => some '\r'
  | 'e' => some (Char.ofNat 0x1B)
  | ' ' | '"' | '/' | '\\' => some c
  | 'N' => some (Char.ofNat 0x85)
  | '_' => some (Char.ofNat 0xA0)
  | 'L' => some (Char.ofNat 0x2028)
  | 'P' => some (Char.ofNat 0x2029)
  | _ => none

/-- The number of digits of the code that a backslash and this letter announce. -/
def codeLength? (c : Char) : Option Nat :=
  match c with
  | 'x' => some 2
  | 'u' => some 4
  | 'U' => some 8
  | _ => none

/-- The text read so far, newest first, with the gap after it. -/
def join (text : List Char) (gap : Gap) : List Char := gap.text.reverse ++ text

/-- Goes on reading between single quotes. -/
def singleFrom (text : List Char) (gap : Gap) (p : Position) :
    List Char → Option (List Char × Cursor)
  | [] => none
  | '\'' :: '\'' :: rest => singleFrom ('\'' :: join text gap) {} (p.afterAll ['\'', '\'']) rest
  | '\'' :: rest => some ((join text gap).reverse, ⟨p.after '\'', rest⟩)
  | c :: rest =>
    if isBlank c || isBreak c then singleFrom text (gap.add c) (p.after c) rest
    else if isDocumentMarker p (c :: rest) then none
    else singleFrom (c :: join text gap) {} (p.after c) rest

/-- Where a scalar between double quotes stands after a backslash. -/
inductive Escape where
  | none
  | backslash
  /-- Inside a code: how many digits are still to come, and its value so far. -/
  | code (missing value : Nat)

/-- Goes on reading between double quotes. -/
def doubleFrom (text : List Char) (gap : Gap) (escape : Escape) (p : Position) :
    List Char → Option (List Char × Cursor)
  | [] => none
  | c :: rest =>
    match escape with
    | .none =>
      if c = '"' then some ((join text gap).reverse, ⟨p.after c, rest⟩)
      else if c = '\\' then doubleFrom (join text gap) {} .backslash (p.after c) rest
      else if isBlank c || isBreak c then doubleFrom text (gap.add c) .none (p.after c) rest
      else if isDocumentMarker p (c :: rest) then none
      else doubleFrom (c :: join text gap) {} .none (p.after c) rest
    | .backslash =>
      if isBreak c then doubleFrom text { escaped := true } .none (p.after c) rest
      else
        match codeLength? c, unescape? c with
        | some n, _ => doubleFrom text {} (.code n 0) (p.after c) rest
        | none, some ch => doubleFrom (ch :: text) {} .none (p.after c) rest
        | none, none => none
    | .code missing value =>
      match Text.digit? 16 c with
      | none => none
      | some d =>
        let value := 16 * value + d
        if 1 < missing then doubleFrom text {} (.code (missing - 1) value) (p.after c) rest
        else
          match Text.ofCode? value with
          | some ch => doubleFrom (ch :: text) {} .none (p.after c) rest
          | none => none

/-- Reads a scalar between single quotes, of which the first is behind the cursor. -/
def single (c : Cursor) : Option (List Char × Cursor) := singleFrom [] {} c.position c.rest

/-- Reads a scalar between double quotes, of which the first is behind the cursor. -/
def double (c : Cursor) : Option (List Char × Cursor) := doubleFrom [] {} .none c.position c.rest

end WorkflowEngine.Yaml.Quoted
