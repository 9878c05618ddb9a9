import WorkflowEngine.FanOut
import WorkflowEngine.Proofs.Trace

/-!
# The log of a fan-out

What a fan-out does with its tasks shows in the journal if every task writes down that it starts and
that it ends, and every report of progress is written down as well. A `Job` is such a task; on the
way to its end it does what it likes, and it may pause. A `Reporter` is what is told of the
progress; it may do what it likes too, but it does not pause.

The *log* of a trace is the list of these entries, oldest first.
-/

namespace WorkflowEngine

open FanOut (Report)

/-! ## Entries -/

/-- What is written down of a fan-out. -/
inductive Entry where
  | start (index : Nat)
  | finish (index : Nat)
  | progress (p : Progress)
deriving DecidableEq

namespace Entry

/-- The form of an entry in the journal. -/
def toValue : Entry → Value
  | .start i => .array [.string "start", .nat i]
  | .finish i => .array [.string "end", .nat i]
  | .progress p => .array [.string "progress", .nat p.done, .nat p.total]

/-- The entry that a value in the journal stands for. -/
def ofValue? : Value → Option Entry
  | .array [.string "start", .number n] => n.toNat?.map .start
  | .array [.string "end", .number n] => n.toNat?.map .finish
  | .array [.string "progress", .number d, .number t] => do
    return .progress ⟨← d.toNat?, ← t.toNat?⟩
  | _ => none

@[simp] theorem ofValue?_toValue (e : Entry) : ofValue? e.toValue = some e := by
  cases e <;> simp [toValue, ofValue?, Value.nat, Number.toNat?]

def start? : Entry → Option Nat
  | .start i => some i
  | _ => none

def finish? : Entry → Option Nat
  | .finish i => some i
  | _ => none

def progress? : Entry → Option Progress
  | .progress p => some p
  | _ => none

end Entry

/-- The entry that an action writes, if it writes one. -/
def Action.entry? : Action → Option Entry
  | .note v => Entry.ofValue? v
  | _ => none

def Mark.entry? : Mark → Option Entry
  | .did a _ => a.entry?
  | .paused => none

/-! ## Logs -/

abbrev Log := List Entry

namespace Log

/-- The entries that a trace leaves. -/
def of (t : List Mark) : Log := t.filterMap Mark.entry?

/-- The tasks that have been started, in this order. -/
def starts (l : Log) : List Nat := l.filterMap Entry.start?

/-- The tasks that have ended. -/
def finishes (l : Log) : List Nat := l.filterMap Entry.finish?

def reports (l : Log) : List Progress := l.filterMap Entry.progress?

/-- How many tasks have settled: their progress has been reported. -/
def settled (l : Log) : Nat := l.reports.length

/-- How many tasks have been started and have not settled. -/
def inFlight (l : Log) : Nat := l.starts.length - l.settled

/-- How many tasks have been started and have not ended. -/
def running (l : Log) : Nat := l.starts.length - l.finishes.length

@[simp] theorem of_append (t u : List Mark) : of (t ++ u) = of t ++ of u := List.filterMap_append

@[simp] theorem starts_append (l m : Log) : (l ++ m).starts = l.starts ++ m.starts :=
  List.filterMap_append

@[simp] theorem finishes_append (l m : Log) : (l ++ m).finishes = l.finishes ++ m.finishes :=
  List.filterMap_append

@[simp] theorem reports_append (l m : Log) : (l ++ m).reports = l.reports ++ m.reports :=
  List.filterMap_append

@[simp] theorem of_paused : of [.paused] = [] := rfl

theorem of_did {a : Action} (h : a.entry? = none) (x : a.Answer) : of [.did a x] = [] := by
  simp [of, Mark.entry?, h]

@[simp] theorem of_entry (e : Entry) (x : Unit) : of [.did (.note e.toValue) x] = [e] := by
  simp [of, Mark.entry?, Action.entry?]

@[simp] theorem of_poll (stop : Bool) : of [.did .poll stop] = [] := rfl

@[simp] theorem of_raise (e : Fault) (x : Unit) : of [.did (.raise e) x] = [] := rfl

@[simp] theorem starts_nil : starts [] = [] := rfl

@[simp] theorem starts_start (i : Nat) (l : Log) : starts (.start i :: l) = i :: starts l := rfl

@[simp] theorem starts_finish (i : Nat) (l : Log) : starts (.finish i :: l) = starts l := rfl

@[simp] theorem starts_progress (p : Progress) (l : Log) :
    starts (.progress p :: l) = starts l := rfl

@[simp] theorem finishes_nil : finishes [] = [] := rfl

@[simp] theorem finishes_start (i : Nat) (l : Log) : finishes (.start i :: l) = finishes l := rfl

@[simp] theorem finishes_finish (i : Nat) (l : Log) :
    finishes (.finish i :: l) = i :: finishes l := rfl

@[simp] theorem finishes_progress (p : Progress) (l : Log) :
    finishes (.progress p :: l) = finishes l := rfl

@[simp] theorem reports_nil : reports [] = [] := rfl

@[simp] theorem reports_start (i : Nat) (l : Log) : reports (.start i :: l) = reports l := rfl

@[simp] theorem reports_finish (i : Nat) (l : Log) : reports (.finish i :: l) = reports l := rfl

@[simp] theorem reports_progress (p : Progress) (l : Log) :
    reports (.progress p :: l) = p :: reports l := rfl

theorem mem_starts {l : Log} {i : Nat} : i ∈ l.starts ↔ .start i ∈ l := by
  simp only [starts, List.mem_filterMap]
  constructor
  · rintro ⟨e, he, hi⟩
    cases e <;> simp_all [Entry.start?]
  · exact fun h => ⟨_, h, rfl⟩

theorem mem_finishes {l : Log} {i : Nat} : i ∈ l.finishes ↔ .finish i ∈ l := by
  simp only [finishes, List.mem_filterMap]
  constructor
  · rintro ⟨e, he, hi⟩
    cases e <;> simp_all [Entry.finish?]
  · exact fun h => ⟨_, h, rfl⟩

end Log

/-! ## Flows that leave the log alone -/

namespace Flow

variable {α : Type}

/-- However it is answered, the flow gives a result, after at most `n` pauses, and it writes no
entry. -/
inductive Tame : Nat → Flow α → Prop
  | done {n : Nat} (a : α) : Tame n (.done (.ok a))
  | pause {n : Nat} {rest : Unit → Flow α} : Tame n (rest ()) → Tame (n + 1) (.pause rest)
  | act {n : Nat} {a : Action} {next : a.Answer → Flow α} :
      a.entry? = none → (∀ x, Tame n (next x)) → Tame n (.act a next)

/-- However it is answered, the flow pauses before it comes to an end. -/
inductive Suspends : Flow α → Prop
  | pause (rest : Unit → Flow α) : Suspends (.pause rest)
  | act {a : Action} {next : a.Answer → Flow α} : (∀ x, Suspends (next x)) → Suspends (.act a next)

theorem tame_wait (n : Nat) : (wait n).Tame n := by
  induction n with
  | zero => exact .done ()
  | succ n ih => exact .pause ih

end Flow

/-! ## Jobs -/

/-- A task that writes down its start and its end. In between it does as it likes; it gives a value
or fails. -/
structure Job (α : Type) where
  /-- How often it pauses at most. -/
  pauses : Nat
  body : Flow Unit
  outcome : Except Fault α
  tame : body.Tame pauses

namespace Job

variable {α : Type}

/-- What is left of a job when so much is left of its body. -/
def closing (job : Job α) (index : Nat) (body : Flow Unit) : Flow α := do
  body
  Flow.note (Entry.finish index).toValue
  Flow.ofExcept job.outcome

/-- The task. -/
def flow (job : Job α) (index : Nat) : Flow α := do
  Flow.note (Entry.start index).toValue
  job.closing index job.body

/-- A job that does nothing but pause. -/
def waiting (n : Nat) (outcome : Except Fault α) : Job α :=
  ⟨n, Flow.wait n, outcome, Flow.tame_wait n⟩

/-- Jobs as the tasks of a fan-out. -/
def flows (jobs : List (Job α)) : List (Flow α) := jobs.zipIdx.map fun p => p.1.flow p.2

/-- How often jobs pause at most, all together. -/
def allPauses : List (Job α) → Nat
  | [] => 0
  | job :: jobs => job.pauses + allPauses jobs

@[simp] theorem length_flows (jobs : List (Job α)) : (flows jobs).length = jobs.length := by
  simp [flows]

theorem getElem?_flows (jobs : List (Job α)) (i : Nat) :
    (flows jobs)[i]? = jobs[i]?.map fun job => job.flow i := by
  simp [flows, List.getElem?_zipIdx, Function.comp_def]

end Job

/-- What is told of the progress of a fan-out. It writes that down and does as it likes, but it does
not pause. -/
structure Reporter where
  more : Progress → Flow Unit
  tame : ∀ p, (more p).Tame 0

namespace Reporter

def report (r : Reporter) : Report := fun p => do
  Flow.note (Entry.progress p).toValue
  r.more p

/-- The reporter that only writes down what it is told. -/
def plain : Reporter := ⟨fun _ => .done (.ok ()), fun _ => .done ()⟩

end Reporter

end WorkflowEngine
