import WorkflowEngine.Text.Digits
import WorkflowEngine.Value
import WorkflowEngine.Yaml.Node

/-!
# What a scalar denotes

A scalar without a tag denotes a text if it is quoted or a block. A plain one denotes null, a truth
value or a number if it is spelled like one, and otherwise a text. A tag of YAML's own fixes what
the scalar denotes, and it is an error if the scalar is not spelled so; a local tag is always an
error. Any other tag makes the scalar a text, unless the tag is as good as none.

**Numbers.** Integers may have a sign, and a base of 16, 8 or 2. Digits after a leading zero are a
text. An integer has to fit into 64 bits, unless it needs more than 128: then it is read with
fractions. Numbers with fractions that are too large are texts, and infinities and what is no number
denote null.
-/

namespace WorkflowEngine.Yaml

namespace Scalar

/-! ## Spellings -/

def isNull (text : String) : Bool := text ∈ ["null", "Null", "NULL", "~"]

def bool? (text : String) : Option Bool :=
  if text ∈ ["true", "True", "TRUE"] then some true
  else if text ∈ ["false", "False", "FALSE"] then some false
  else none

/-- A text without its sign. -/
def unsigned : List Char → List Char
  | '+' :: rest | '-' :: rest => rest
  | text => text

/-- Whether these are digits after a leading zero. -/
def isPadded (text : List Char) : Bool :=
  match unsigned text with
  | '0' :: rest => !rest.isEmpty && rest.all Char.isDigit
  | _ => false

/-- The magnitude of an integer without its sign. -/
def magnitude? (text : List Char) : Option Nat :=
  match text with
  | '0' :: 'x' :: ds => Text.natural? 16 ds
  | '0' :: 'o' :: ds => Text.natural? 8 ds
  | '0' :: 'b' :: ds => Text.natural? 2 ds
  | ds => if isPadded ds then none else Text.natural? 10 ds

/-- The integer that a text spells, up to 128 bits. -/
def integer? (text : List Char) : Option Int := do
  let n ← magnitude? (unsigned text)
  if text.head? = some '-' then
    if n ≤ Number.wordBound * Number.signedBound then some (-(n : Int)) else none
  else if n < Number.wordBound * Number.wordBound then some n
  else none

/-- The natural number of 64 bits that a text spells. -/
def nat? (text : List Char) : Option Nat := do
  let n ← magnitude? (unsigned text)
  if text.head? = some '-' ∨ Number.wordBound ≤ n then none else some n

/-- The value of an integer, if it fits into 64 bits. -/
def integerValue (i : Int) : Option Value :=
  if Number.isWord i then some (.int i) else none

/-- The power of ten that a text spells: nothing, or a mark, a sign and digits. -/
def power? (text : List Char) : Option Int :=
  match text with
  | [] => some 0
  | c :: rest =>
    if c = 'e' ∨ c = 'E' then
      (Text.natural? 10 (unsigned rest)).map fun n =>
        if rest.head? = some '-' then -(n : Int) else n
    else none

/-- The number that digits with a point and a power of ten spell. -/
def decimal? (negative : Bool) (text : List Char) : Option Double := do
  let whole := text.takeWhile Char.isDigit
  let text := text.dropWhile Char.isDigit
  let (places, text) :=
    match text with
    | '.' :: rest => (rest.takeWhile Char.isDigit, rest.dropWhile Char.isDigit)
    | rest => ([], rest)
  let digits ← Text.natural? 10 (whole ++ places)
  let power ← power? text
  Double.ofDecimal? negative digits (power - places.length)

/-- The value of a number with fractions, as a text spells it. -/
def fraction? (text : List Char) : Option Value :=
  let special (names : List String) (t : List Char) : Bool := String.ofList t ∈ names
  if special [".nan", ".NaN", ".NAN"] text || special [".inf", ".Inf", ".INF"] (unsigned text) then
    some .null
  else
    (decimal? (text.head? = some '-') (unsigned text)).map fun d => .number (.double d)

/-! ## Values -/

/-- The value of a plain scalar without a tag. -/
def plainValue (text : String) : Option Value :=
  let cs := text.toList
  if text.isEmpty || isNull text then some .null
  else
    match bool? text, integer? cs with
    | some b, _ => some (.bool b)
    | none, some i => integerValue i
    | none, none => some ((if isPadded cs then none else fraction? cs).getD (.string text))

/-- The value of a scalar without a tag. -/
def untaggedValue (style : Style) (text : String) : Option Value :=
  if style = .plain then plainValue text else some (.string text)

/-- The value of a scalar. -/
def value (tag : Option Tag) (style : Style) (text : String) : Option Value :=
  match tag with
  | none => untaggedValue style text
  | some t =>
    if t.isLocal then none
    else if t = .core "bool" then (bool? text).map .bool
    else if t = .core "int" then (integer? text.toList).bind integerValue
    else if t = .core "float" then fraction? text.toList
    else if t = .core "null" then (if isNull text then some .null else none)
    else if t.isMarked then untaggedValue style text
    else some (.string text)

/-- Whether a scalar stands for nothing where something may be missing; `none` if it has the tag of
null and another text. -/
def isAbsent (tag : Option Tag) (style : Style) (text : String) : Option Bool :=
  if style ≠ .plain then some false
  else
    match tag with
    | none => some (text.isEmpty || isNull text)
    | some t =>
      if t = .core "null" then (if isNull text then some true else none) else some false

end Scalar

end WorkflowEngine.Yaml
