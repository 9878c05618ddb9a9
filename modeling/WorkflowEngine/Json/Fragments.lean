import WorkflowEngine.Json.Reader

/-!
# JSON fragments in running text

A model's reply often holds JSON inside prose. `fragments` finds it: at every opening bracket it
looks for the bracket that balances it, takes the text up to there if it is JSON, and goes on after
it; where there is no such bracket, or the text is not JSON, it goes on one character further, so a
good fragment inside a bad one is found.

**Balance** (`balancedLength?`). Brackets inside strings do not count, and a closing bracket of the
wrong kind ends the search.
-/

namespace WorkflowEngine.Json

/-- What the search for a balancing bracket remembers: the closing brackets that are due, innermost
first, and whether it is inside a string, after a backslash. -/
structure Balance where
  due : List Char := []
  inString : Bool := false
  escaped : Bool := false

namespace Balance

/-- Inside a string: reads one character. -/
def stepString (s : Balance) (c : Char) : Balance :=
  if s.escaped then { s with escaped := false }
  else if c = '\\' then { s with escaped := true }
  else if c = '"' then { s with inString := false }
  else s

/-- How many characters there are up to the bracket that balances the first one. -/
def length? (s : Balance) : List Char → Option Nat
  | [] => none
  | c :: cs =>
    if s.inString then (length? (s.stepString c) cs).map (· + 1)
    else
      match c with
      | '"' => (length? { s with inString := true } cs).map (· + 1)
      | '{' => (length? { s with due := '}' :: s.due } cs).map (· + 1)
      | '[' => (length? { s with due := ']' :: s.due } cs).map (· + 1)
      | '}' | ']' =>
        match s.due with
        | [] => none
        | d :: due =>
          if d ≠ c then none
          else if due.isEmpty then some 1
          else (length? { s with due } cs).map (· + 1)
      | _ => (length? s cs).map (· + 1)

end Balance

/-- How many characters there are up to the bracket that balances the first one. -/
def balancedLength? (text : List Char) : Option Nat := Balance.length? {} text

/-- The JSON at the start of a text that opens with a bracket, and how long it is. -/
def fragmentAt? (text : List Char) : Option (Value × Nat) :=
  match balancedLength? text with
  | none => none
  | some n => (parse (text.take n)).toOption.map (·, n)

/-- The fragments of a text after its first `skip` characters. -/
def fragmentsAfter (skip : Nat) : List Char → List Value
  | [] => []
  | c :: cs =>
    match skip with
    | n + 1 => fragmentsAfter n cs
    | 0 =>
      if c = '{' ∨ c = '[' then
        match fragmentAt? (c :: cs) with
        | some (v, n) => v :: fragmentsAfter (n - 1) cs
        | none => fragmentsAfter 0 cs
      else fragmentsAfter 0 cs

/-- The values of the JSON objects and arrays in a text, in order of appearance. -/
def fragments (text : String) : List Value := fragmentsAfter 0 text.toList

end WorkflowEngine.Json
