import WorkflowEngine.Path

/-!
# Contexts and the handles on them

A context is a cell that holds bindings. Ops never hold a cell, only a handle on one, so that
several of them can share its contents: a write through one handle is seen through every handle on
the same cell and through no other. Copying a context puts its bindings into a new cell.

A `Store` holds all cells of a run; cells are never given up, and a handle stays valid.
-/

namespace WorkflowEngine

/-- A handle on a context. Two handles share their context iff they are equal. -/
structure Handle where
  index : Nat
deriving DecidableEq

instance : Inhabited Handle := ⟨⟨0⟩⟩

/-- The contexts of a run. -/
structure Store where
  cells : Array Bindings

namespace Store

def empty : Store := ⟨#[]⟩

instance : Inhabited Store := ⟨empty⟩

/-- The bindings of a context. -/
def view (s : Store) (h : Handle) : Bindings := (s.cells[h.index]?).getD .empty

/-- A new context with the given bindings, and a handle on it. -/
def create (s : Store) (b : Bindings) : Handle × Store :=
  (⟨s.cells.size⟩, ⟨s.cells.push b⟩)

/-- Changes the bindings of a context. -/
def update (s : Store) (h : Handle) (f : Bindings → Bindings) : Store :=
  ⟨s.cells.modify h.index f⟩

def bind (s : Store) (h : Handle) (key : String) (value : Value) : Store :=
  s.update h (·.insert key value)

def unbind (s : Store) (h : Handle) (key : String) : Store := s.update h (·.erase key)

/-- Whether a handle is on a context of this store. -/
def Valid (s : Store) (h : Handle) : Prop := h.index < s.cells.size

instance (s : Store) (h : Handle) : Decidable (s.Valid h) := by unfold Valid; infer_instance

/-- Whether two contexts are one, or bind the same values. -/
def agrees (s : Store) (h k : Handle) : Bool := h == k || (s.view h).agrees (s.view k)

@[simp] theorem view_update_self {s : Store} {h : Handle} (hv : s.Valid h)
    (f : Bindings → Bindings) : (s.update h f).view h = f (s.view h) := by
  have hv : h.index < s.cells.size := hv
  simp [view, update, hv, Array.getElem_modify]

theorem view_update_of_ne {s : Store} {h k : Handle} (hk : k ≠ h) (f : Bindings → Bindings) :
    (s.update h f).view k = s.view k := by
  have : ¬h.index = k.index := fun e => hk (by cases h; cases k; simp_all)
  simp [view, update, Array.getElem?_modify, this]

@[simp] theorem view_create_self (s : Store) (b : Bindings) :
    (s.create b).2.view (s.create b).1 = b := by simp [view, create]

theorem view_create_of_valid {s : Store} {h : Handle} (hv : s.Valid h) (b : Bindings) :
    (s.create b).2.view h = s.view h := by
  have hv : h.index < s.cells.size := hv
  simp [view, create, Array.getElem?_push, Nat.ne_of_lt hv]

@[simp] theorem valid_update {s : Store} {h k : Handle} {f : Bindings → Bindings} :
    (s.update h f).Valid k ↔ s.Valid k := by simp [Valid, update]

theorem valid_create {s : Store} {k : Handle} {b : Bindings} :
    (s.create b).2.Valid k ↔ s.Valid k ∨ k = (s.create b).1 := by
  obtain ⟨i⟩ := k
  simp only [Valid, create, Array.size_push, Handle.mk.injEq]
  omega

theorem not_valid_create {s : Store} {b : Bindings} : ¬s.Valid (s.create b).1 := by
  simp [Valid, create]

end Store

end WorkflowEngine
