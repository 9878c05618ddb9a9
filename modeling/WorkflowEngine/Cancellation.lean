import WorkflowEngine.Value

/-!
# Cancellation

A run can be asked to stop in two ways: by a request, which is never taken back, and by a rule that
is asked again at every poll. The rule is told how often it has been asked, this time included, and
what has been written into the journal; once a stop has been requested it is not asked any more.
-/

namespace WorkflowEngine

/-- Whether to stop, given how often this has been asked and the journal, newest entry first. -/
abbrev StopRule := Nat → List Value → Bool

structure Cancellation where
  requested : Bool := false
  rule : Option StopRule := none
  /-- How often the rule has been asked. -/
  polls : Nat := 0

namespace Cancellation

instance : Inhabited Cancellation := ⟨{}⟩

/-- A rule that says to stop from its `n`-th poll on. -/
def fromPoll (n : Nat) : StopRule := fun polls _ => n ≤ polls

/-- A rule that says to stop once the journal has `n` entries. -/
def fromEntry (n : Nat) : StopRule := fun _ journal => n ≤ journal.length

/-- Requests a stop. -/
def request (c : Cancellation) : Cancellation := { c with requested := true }

/-- Whether the run has been asked to stop. -/
def poll (c : Cancellation) (journal : List Value) : Bool × Cancellation :=
  if c.requested then (true, c)
  else
    match c.rule with
    | none => (false, c)
    | some rule => (rule (c.polls + 1) journal, { c with polls := c.polls + 1 })

/-- What is shown of a cancellation. -/
def describe (c : Cancellation) : String :=
  "Cancellation \x7b cancelled: " ++ toString c.requested ++ ", has_predicate: " ++
    toString c.rule.isSome ++ " \x7d"

end Cancellation

end WorkflowEngine
