import WorkflowEngine.Executor.Group

/-!
# What goes wrong with parameters

A parameter that is missing, or not what it should be, is a fault that names it
(`Fault.IsAbout`). So the faults of the engine about its own parameters are told apart from the one
about the parameter `ops`, that of inner ops that cannot be decoded (`Fault.IsInnerOps`).
-/

namespace WorkflowEngine

/-- The fault of an op whose inner ops cannot be decoded. -/
def Fault.IsInnerOps : Fault → Prop
  | .invalidParam _ name _ => name = Op.opsKey
  | _ => False

/-- The fault says of a parameter that it is missing or that it is not what it should be. -/
def Fault.IsAbout (name : String) (e : Fault) : Prop :=
  (∃ kind, e = .missingParam kind name) ∨ ∃ kind complaint, e = .invalidParam kind name complaint

theorem Fault.IsAbout.not_isInnerOps {name : String} {e : Fault} (h : e.IsAbout name)
    (hname : name ≠ Op.opsKey) : ¬e.IsInnerOps := by
  rcases h with ⟨kind, rfl⟩ | ⟨kind, complaint, rfl⟩
  · exact id
  · exact hname

namespace Op

variable {op : Op} {name : String} {e : Fault}

/-- **A fault of a parameter names the parameter.** -/
theorem natParam_isAbout (h : op.natParam name = .error e) : e.IsAbout name := by
  unfold natParam at h
  split at h
  · cases h
  · cases h
  · split at h
    · cases h
    · cases h
      exact .inr ⟨_, _, rfl⟩
  · cases h
    exact .inr ⟨_, _, rfl⟩

theorem textParam_isAbout (h : op.textParam name = .error e) : e.IsAbout name := by
  unfold textParam at h
  split at h
  · cases h
  · cases h
  · cases h
  · cases h
    exact .inr ⟨_, _, rfl⟩

theorem requireText_isAbout (h : op.requireText name = .error e) : e.IsAbout name := by
  simp only [requireText, bind, Except.bind, pure, Except.pure, throw, throwThe,
    MonadExceptOf.throw] at h
  split at h
  · next e' he =>
    cases h
    exact textParam_isAbout he
  · split at h
    · cases h
    · cases h
      exact .inl ⟨_, rfl⟩

end Op

namespace Executor

variable {op : Op} {e : Fault}

/-- What goes wrong with the input of an op is about the parameter `inputKey`. -/
theorem inputArray_isAbout {b : Bindings} (h : inputArray op b = .error e) :
    e.IsAbout "inputKey" := by
  simp only [inputArray, bind, Except.bind, pure, Except.pure, throw, throwThe,
    MonadExceptOf.throw] at h
  split at h
  · next e' he =>
    cases h
    exact Op.requireText_isAbout he
  · split at h
    · cases h
    · cases h
      exact .inr ⟨_, _, rfl⟩
    · cases h
      exact .inr ⟨_, _, rfl⟩

theorem concurrency_isAbout {config : Config} {branches : Nat}
    (h : concurrency config op branches = .error e) : e.IsAbout "concurrency" := by
  simp only [concurrency, bind, Except.bind, pure, Except.pure] at h
  split at h
  · next e' he =>
    cases h
    exact Op.natParam_isAbout he
  · cases h

end Executor

/-- What goes wrong when a loop op is read: its body cannot be decoded, or the fault is about
another parameter. -/
theorem Loop.fault_of_ofOp {config : Config} {mode : LoopMode} {op : Op} {e : Fault}
    (h : ofOp config mode op = .error e) : op.innerOps = .error e ∨ ¬e.IsInnerOps := by
  simp only [ofOp, bind, Except.bind, pure, Except.pure] at h
  split at h
  · next e' he =>
    cases h
    exact .inl he
  · refine .inr ?_
    split at h
    · next e' he =>
      cases h
      exact (Op.natParam_isAbout he).not_isInnerOps (by decide)
    · split at h
      · next e' he =>
        cases h
        exact (Op.requireText_isAbout he).not_isInnerOps (by decide)
      · cases h

end WorkflowEngine
