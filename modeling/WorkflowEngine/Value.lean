import WorkflowEngine.Number
import WorkflowEngine.Record

/-!
# Values

What a context binds, an op is given and an executor answers: a tree of objects and arrays over
texts, numbers, truth values and null.

**Canonical form.** The fields of an object stand in increasing order of key, each key once, as in a
`Record`. Everything that builds an object from a record keeps this (`Value.ofRecord`), and
`Value.sorted` brings a tree into this form; of two fields with one key the later stays.

**Equality.** `Value.agrees` is equality of what is denoted: it differs from `=` only on the two
zeros of `Double`.
-/

namespace WorkflowEngine

inductive Value where
  | null
  | bool (b : Bool)
  | number (n : Number)
  | string (s : String)
  | array (items : List Value)
  | object (fields : List (String × Value))

namespace Value

instance : Inhabited Value := ⟨.null⟩

/-- The object with the bindings of a record. -/
def ofRecord (r : Record Value) : Value := .object r.entries

def int (i : Int) : Value := .number (.int i)

def nat (n : Nat) : Value := .number (.int n)

/-- Zero or one values, as a list. -/
def ofOption : Option Value → Value
  | none => .array []
  | some v => .array [v]

/-! ## Decidable equality -/

mutual

def decEq : (v w : Value) → Decidable (v = w)
  | .null, .null => isTrue rfl
  | .bool a, .bool b => if h : a = b then isTrue (h ▸ rfl) else isFalse (by simpa using h)
  | .number a, .number b => if h : a = b then isTrue (h ▸ rfl) else isFalse (by simpa using h)
  | .string a, .string b => if h : a = b then isTrue (h ▸ rfl) else isFalse (by simpa using h)
  | .array a, .array b =>
    match decEqItems a b with
    | isTrue h => isTrue (h ▸ rfl)
    | isFalse h => isFalse (by simpa using h)
  | .object a, .object b =>
    match decEqFields a b with
    | isTrue h => isTrue (h ▸ rfl)
    | isFalse h => isFalse (by simpa using h)
  | .null, .bool _ | .null, .number _ | .null, .string _ | .null, .array _ | .null, .object _
  | .bool _, .null | .bool _, .number _ | .bool _, .string _ | .bool _, .array _
  | .bool _, .object _ | .number _, .null | .number _, .bool _ | .number _, .string _
  | .number _, .array _ | .number _, .object _ | .string _, .null | .string _, .bool _
  | .string _, .number _ | .string _, .array _ | .string _, .object _ | .array _, .null
  | .array _, .bool _ | .array _, .number _ | .array _, .string _ | .array _, .object _
  | .object _, .null | .object _, .bool _ | .object _, .number _ | .object _, .string _
  | .object _, .array _ => isFalse (by simp)

def decEqItems : (vs ws : List Value) → Decidable (vs = ws)
  | [], [] => isTrue rfl
  | [], _ :: _ | _ :: _, [] => isFalse (by simp)
  | v :: vs, w :: ws =>
    match decEq v w, decEqItems vs ws with
    | isTrue h, isTrue h' => isTrue (by rw [h, h'])
    | isFalse h, _ => isFalse (by simp [h])
    | _, isFalse h => isFalse (by simp [h])

def decEqFields : (fs gs : List (String × Value)) → Decidable (fs = gs)
  | [], [] => isTrue rfl
  | [], _ :: _ | _ :: _, [] => isFalse (by simp)
  | (k, v) :: fs, (l, w) :: gs =>
    if hk : k = l then
      match decEq v w, decEqFields fs gs with
      | isTrue h, isTrue h' => isTrue (by rw [hk, h, h'])
      | isFalse h, _ => isFalse (by simp [h])
      | _, isFalse h => isFalse (by simp [h])
    else isFalse (by simp [hk])

end

instance : DecidableEq Value := decEq

/-! ## Equality of what is denoted -/

mutual

def agrees : Value → Value → Bool
  | .null, .null => true
  | .bool a, .bool b => a == b
  | .number a, .number b => a.agrees b
  | .string a, .string b => a == b
  | .array a, .array b => agreesItems a b
  | .object a, .object b => agreesFields a b
  | _, _ => false

def agreesItems : List Value → List Value → Bool
  | [], [] => true
  | v :: vs, w :: ws => agrees v w && agreesItems vs ws
  | _, _ => false

def agreesFields : List (String × Value) → List (String × Value) → Bool
  | [], [] => true
  | (k, v) :: fs, (l, w) :: gs => k == l && agrees v w && agreesFields fs gs
  | _, _ => false

end

/-! ## Canonical form -/

mutual

/-- The canonical form: every object's fields in order, the later of two fields with one key. -/
def sorted : Value → Value
  | .array items => .array (sortedItems items)
  | .object fields => ofRecord (sortedFields .empty fields)
  | v => v

def sortedItems : List Value → List Value
  | [] => []
  | v :: vs => sorted v :: sortedItems vs

/-- Binds the fields, from left to right, on top of a record. -/
def sortedFields (r : Record Value) : List (String × Value) → Record Value
  | [] => r
  | (k, v) :: fs => sortedFields (r.insert k (sorted v)) fs

end

/-- The fields of an object; none for any other value. -/
def fieldList : Value → List (String × Value)
  | .object fields => fields
  | _ => []

/-- The record with the fields of an object; of two fields with one key the later stays. -/
def toRecord (v : Value) : Record Value := .ofList v.fieldList

/-- The value of a field of an object. -/
def field? (v : Value) (key : String) : Option Value := v.fieldList.lookup key

/-! ## Truth -/

/-- Whether a value counts as true: `null`, `false`, zero and the empty text do not. Every array
and every object does. -/
def truthy : Value → Bool
  | .null => false
  | .bool b => b
  | .number n => !n.isZero
  | .string s => !s.isEmpty
  | .array _ | .object _ => true

end Value

end WorkflowEngine
