import Mathlib
import WorkflowEngine.Definition.Json

/-!
# Encoded ops

The inner ops of an op are kept as values, so an op that is nested or stored has been encoded, and
what runs is what its encoding is read back as. An op has two encodings: `Op.encode` lays the kind
and the output binding over the parameters, and `Op.toValue` lays the parameters over them. There is
one way back, `Op.decode`.

An op is *unambiguous* if none of its parameters is called like one of its own fields.

**Theorem (`Op.reads_back`).** An op is what its encoding is read back as if and only if it is
unambiguous; then the two encodings are one. Whatever is decoded, from a value or from the text of a
workflow, is unambiguous, and encoding it again gives the value it was decoded from, except that an
output binding that was null is gone. So a list of ops that is put into an op comes out of it as it
was, in order, if and only if all of them are unambiguous.

**How the proof goes.** `Op.decode_eq_ok_iff` says of which values an op is the meaning, one
condition for each part of the op. The record that an op is encoded as meets them for the kind and
the binding in any case, and for the parameters if there was nothing there to be overwritten. Two
records are equal if they bind each name alike, which settles the way from a value to an op and
back.
-/

namespace WorkflowEngine

namespace Op

/-! ## What is decoded -/

/-- Whether no parameter is called like a field of the op. -/
def Unambiguous (op : Op) : Prop :=
  op.params.get? kindKey = none ∧ op.params.get? bindingKey = none

instance (op : Op) : Decidable op.Unambiguous := by unfold Unambiguous; infer_instance

/-- What is bound beside the fields of an op. -/
def parameters (fields : Record Value) : Record Value := (fields.erase kindKey).erase bindingKey

theorem get?_parameters (fields : Record Value) (key : String) :
    (parameters fields).get? key
      = if key = kindKey ∨ key = bindingKey then none else fields.get? key := by
  rw [parameters, Record.get?_erase, Record.get?_erase]
  by_cases hb : key = bindingKey <;> by_cases hk : key = kindKey <;> simp [hb, hk]

/-- The fields of an op are those of a record. -/
structure Fields (op : Op) (fields : Record Value) : Prop where
  kind : fields.get? kindKey = some (.string op.kind)
  binding : decodeBinding fields = .ok op.outputBinding
  params : op.params = parameters fields

theorem decodeKind_eq_ok_iff {fields : Record Value} {kind : Option String} :
    decodeKind fields = .ok kind ↔ fields.get? kindKey = kind.map .string := by
  unfold decodeKind
  cases kind <;> split <;> simp_all

/-- **What an op is read from**: an object with the fields of the op. -/
theorem decode_eq_ok_iff {v : Value} {op : Op} :
    decode v = .ok op ↔ (∃ fields, v = .object fields) ∧ op.Fields v.toRecord := by
  cases v with
  | object fields =>
    have hr : Value.toRecord (.object fields) = Record.ofList fields := rfl
    simp only [decode, bind, Except.bind, pure, Except.pure, throw, throwThe,
      MonadExceptOf.throw, hr]
    constructor
    · intro h
      split at h
      · cases h
      · next kind hkind =>
        split at h
        · cases h
        · next binding hbinding =>
          cases kind with
          | none => cases h
          | some kind =>
            cases h
            exact ⟨⟨fields, rfl⟩, decodeKind_eq_ok_iff.1 hkind, hbinding, rfl⟩
    · rintro ⟨-, hkind, hbinding, hparams⟩
      have hkind : decodeKind (Record.ofList fields) = .ok (some op.kind) :=
        decodeKind_eq_ok_iff.2 hkind
      obtain ⟨kind, binding, params⟩ := op
      subst hparams
      simp only [hkind, hbinding, parameters]
  | _ => simp [decode, throw, throwThe, MonadExceptOf.throw]

/-- No parameter of a decoded op is called like a field. -/
theorem Fields.unambiguous {op : Op} {fields : Record Value} (h : op.Fields fields) :
    op.Unambiguous := by
  rw [Unambiguous, h.params, get?_parameters, get?_parameters]
  simp

/-! ## What is encoded -/

@[simp] theorem toRecord_ofRecord (r : Record Value) : (Value.ofRecord r).toRecord = r :=
  Record.ofList_entries r

/-- The record that an op is encoded as. -/
def encoded (op : Op) : Record Value :=
  let r := op.params.insert kindKey (.string op.kind)
  op.outputBinding.elim r fun b => r.insert bindingKey (.string b)

theorem encode_eq (op : Op) : op.encode = .ofRecord op.encoded := rfl

theorem get?_encoded (op : Op) (key : String) :
    op.encoded.get? key
      = if key = bindingKey ∧ op.outputBinding.isSome then op.outputBinding.map .string
        else if key = kindKey then some (.string op.kind) else op.params.get? key := by
  obtain ⟨kind, binding, params⟩ := op
  cases binding with
  | none => simp [encoded, Record.get?_insert]
  | some b => by_cases h : key = bindingKey <;> simp [encoded, Record.get?_insert, h]

theorem decode_encode_eq_ok_iff {op op' : Op} :
    decode op.encode = .ok op' ↔ op'.Fields op.encoded := by
  rw [decode_eq_ok_iff, encode_eq, toRecord_ofRecord]
  exact ⟨fun h => h.2, fun h => ⟨⟨_, rfl⟩, h⟩⟩

theorem kindKey_ne_bindingKey : kindKey ≠ bindingKey := by decide

/-- The output binding comes out of the encoding if no parameter stands in its place. -/
theorem decodeBinding_encoded {op : Op} (h : op.params.get? bindingKey = none) :
    decodeBinding op.encoded = .ok op.outputBinding := by
  have hget := op.get?_encoded bindingKey
  rw [if_neg kindKey_ne_bindingKey.symm, h] at hget
  unfold decodeBinding
  cases hb : op.outputBinding <;> simp_all

/-- **An op is what its encoding is read back as if and only if it is unambiguous.** -/
theorem decode_encode_iff {op : Op} : decode op.encode = .ok op ↔ op.Unambiguous := by
  rw [decode_encode_eq_ok_iff]
  refine ⟨Fields.unambiguous, fun h => ⟨?_, decodeBinding_encoded h.2, ?_⟩⟩
  · rw [get?_encoded, if_neg fun hk => kindKey_ne_bindingKey hk.1, if_pos rfl]
  · refine Record.ext_get? fun key => ?_
    rw [get?_parameters, get?_encoded]
    by_cases hb : key = bindingKey
    · simp [hb, h.2]
    · by_cases hk : key = kindKey
      · simp [hk, h.1]
      · simp [hb, hk]

/-- The two encodings of an unambiguous op are one. -/
theorem encode_eq_toValue {op : Op} (h : op.Unambiguous) : op.encode = op.toValue := by
  refine congrArg Value.ofRecord (Record.ext_get? fun key => ?_)
  refine (op.get?_encoded key).trans ?_
  rw [Record.get?_union]
  obtain ⟨kind, binding, params⟩ := op
  obtain ⟨hkind, hbinding⟩ : params.get? kindKey = none ∧ params.get? bindingKey = none := h
  by_cases hb : key = bindingKey
  · have hk : bindingKey ≠ kindKey := kindKey_ne_bindingKey.symm
    cases binding <;> simp [hb, hk, hbinding, Record.get?_insert]
  · by_cases hk : key = kindKey
    · have hne := kindKey_ne_bindingKey
      cases binding <;> simp [hk, hne, hkind, Record.get?_insert]
    · cases binding <;> simp [hb, hk, Record.get?_insert]

/-! ## From a value to an op and back -/

/-- The fields of an op without an output binding that is null. -/
def withoutNullBinding (fields : Record Value) : Record Value :=
  if fields.get? bindingKey = some .null then fields.erase bindingKey else fields

theorem get?_withoutNullBinding (fields : Record Value) (key : String) :
    (withoutNullBinding fields).get? key
      = if key = bindingKey ∧ fields.get? bindingKey = some .null then none
        else fields.get? key := by
  unfold withoutNullBinding
  by_cases h : fields.get? bindingKey = some .null <;> simp [h, Record.get?_erase]

/-- An op's encoding is what it was decoded from, without an output binding that is null. -/
theorem Fields.encoded_eq {op : Op} {fields : Record Value} (h : op.Fields fields) :
    op.encoded = withoutNullBinding fields := by
  have hbinding := h.binding
  unfold decodeBinding at hbinding
  refine Record.ext_get? fun key => ?_
  rw [get?_encoded, get?_withoutNullBinding, h.params, get?_parameters]
  by_cases hb : key = bindingKey
  · subst hb
    have hk : bindingKey ≠ kindKey := kindKey_ne_bindingKey.symm
    split at hbinding
    · next hnone => simp [hk, hnone, ← Except.ok.inj hbinding]
    · next hnull => simp [hk, hnull, ← Except.ok.inj hbinding]
    · next text htext => simp [htext, ← Except.ok.inj hbinding]
    · cases hbinding
  · by_cases hk : key = kindKey
    · simp [hk, kindKey_ne_bindingKey, h.kind]
    · simp [hb, hk]

/-! ## Lists of ops -/

theorem decodeItems_cons_eq_ok_iff {v : Value} {vs : List Value} {ops : List Op} :
    decodeItems (v :: vs) = .ok ops
      ↔ ∃ op rest, decode v = .ok op ∧ decodeItems vs = .ok rest ∧ ops = op :: rest := by
  simp only [decodeItems, bind, Except.bind, pure, Except.pure]
  constructor
  · intro h
    split at h
    · cases h
    · next op hop =>
      split at h
      · cases h
      · next rest hrest =>
        cases h
        exact ⟨op, rest, hop, hrest, rfl⟩
  · rintro ⟨op, rest, hop, hrest, rfl⟩
    simp only [hop, hrest]

theorem decodeItems_encode_iff {ops : List Op} :
    decodeItems (ops.map encode) = .ok ops ↔ ∀ op ∈ ops, op.Unambiguous := by
  induction ops with
  | nil => simp [decodeItems]
  | cons op ops ih =>
    rw [List.map_cons, decodeItems_cons_eq_ok_iff, List.forall_mem_cons, ← ih,
      ← decode_encode_iff]
    constructor
    · rintro ⟨op', rest, hop, hrest, heq⟩
      obtain ⟨rfl, rfl⟩ := List.cons.inj heq
      exact ⟨hop, hrest⟩
    · rintro ⟨hop, hrest⟩
      exact ⟨op, ops, hop, hrest, rfl⟩

theorem innerOps_withOps (op : Op) (ops : List Op) :
    (op.withOps ops).innerOps
      = (decodeItems (ops.map encode)).mapError fun e => op.invalid opsKey (.ops e) := by
  have hparam : (op.withOps ops).param? opsKey = some (.array (ops.map encode)) :=
    Record.get?_insert_self ..
  unfold innerOps
  rw [hparam]
  rfl

/-- Ops that are put into an op come out of it if they are unambiguous, and only then. -/
theorem innerOps_withOps_iff {op : Op} {ops : List Op} :
    (op.withOps ops).innerOps = .ok ops ↔ ∀ o ∈ ops, o.Unambiguous := by
  rw [innerOps_withOps, ← decodeItems_encode_iff]
  cases decodeItems (ops.map encode) <;> simp [Except.mapError]

end Op

/-! ## Ops in the text of a workflow -/

namespace OpParts

/-- Whether the parameters read so far are called unlike the fields of an op. -/
def Unambiguous (p : OpParts) : Prop :=
  p.params.get? Op.kindKey = none ∧ p.params.get? Op.bindingKey = none

theorem Unambiguous.of_toOp? {p : OpParts} (hp : p.Unambiguous) {op : Op}
    (h : p.toOp? = some op) : op.Unambiguous := by
  obtain ⟨kind, -, rfl⟩ := Option.map_eq_some_iff.1 h
  exact hp

theorem Unambiguous.insert {p : OpParts} (hp : p.Unambiguous) {key : String}
    (hkind : key ≠ Op.kindKey) (hbinding : key ≠ Op.bindingKey) (v : Value) :
    Unambiguous { p with params := p.params.insert key v } :=
  ⟨(Record.get?_insert_of_ne hkind.symm).trans hp.1,
    (Record.get?_insert_of_ne hbinding.symm).trans hp.2⟩

end OpParts

namespace Json.Draft

theorem bind_eq_ok_iff {ε α β : Type} {x : Except ε α} {f : α → Except ε β} {b : β} :
    (x >>= f) = .ok b ↔ ∃ a, x = .ok a ∧ f a = .ok b := by
  cases x <;> simp [bind, Except.bind]

theorem opField_unambiguous {depth : Nat} {p q : OpParts} {key : String} {d : Draft}
    (h : opField depth p key d = .ok q) (hp : p.Unambiguous) : q.Unambiguous := by
  unfold opField at h
  split at h
  · obtain ⟨-, -, h⟩ := bind_eq_ok_iff.1 h
    obtain ⟨text, -, h⟩ := bind_eq_ok_iff.1 h
    cases h
    exact hp
  · next hkind =>
    split at h
    · obtain ⟨-, -, h⟩ := bind_eq_ok_iff.1 h
      obtain ⟨text, -, h⟩ := bind_eq_ok_iff.1 h
      cases h
      exact hp
    · next hbinding =>
      obtain ⟨v, -, h⟩ := bind_eq_ok_iff.1 h
      cases h
      exact hp.insert hkind hbinding v

theorem opFields_unambiguous {depth : Nat} {fields : List (Option String × Draft)}
    {p q : OpParts} (h : opFields depth p fields = .ok q) (hp : p.Unambiguous) :
    q.Unambiguous := by
  induction fields generalizing p with
  | nil =>
    cases h
    exact hp
  | cons e fields ih =>
    obtain ⟨key, -, h⟩ := bind_eq_ok_iff.1 h
    obtain ⟨p', hfield, h⟩ := bind_eq_ok_iff.1 h
    exact ih h (opField_unambiguous hfield hp)

theorem op_unambiguous {depth : Nat} {d : Draft} {op : Op} (h : d.op depth = .ok op) :
    op.Unambiguous := by
  cases d with
  | object fields =>
    obtain ⟨p, hfields, h⟩ := bind_eq_ok_iff.1 h
    split at h
    · next op' hop =>
      cases h
      exact (opFields_unambiguous hfields ⟨rfl, rfl⟩).of_toOp? hop
    · cases h
  | _ => cases h

theorem mapM_op_unambiguous {depth : Nat} {items : List Draft} {ops : List Op}
    (h : items.mapM (op depth) = .ok ops) : ∀ o ∈ ops, o.Unambiguous := by
  induction items generalizing ops with
  | nil =>
    cases h
    simp
  | cons d items ih =>
    rw [List.mapM_cons] at h
    obtain ⟨o, hop, h⟩ := bind_eq_ok_iff.1 h
    obtain ⟨rest, hrest, h⟩ := bind_eq_ok_iff.1 h
    cases h
    exact List.forall_mem_cons.2 ⟨op_unambiguous hop, ih hrest⟩

theorem ops_unambiguous {depth : Nat} {d : Draft} {ops : List Op} (h : d.ops depth = .ok ops) :
    ∀ o ∈ ops, o.Unambiguous := by
  cases d with
  | array items breach =>
    obtain ⟨ops', hitems, h⟩ := bind_eq_ok_iff.1 h
    unfold arrayEnd at h
    cases breach <;> cases h
    exact mapM_op_unambiguous hitems
  | _ => cases h

/-- Whether the ops read so far are unambiguous. -/
def Sound (p : WorkflowParts) : Prop := ∀ o ∈ p.ops.getD [], o.Unambiguous

theorem workflowField_sound {depth : Nat} {p q : WorkflowParts} {key : String} {d : Draft}
    (h : workflowField depth p key d = .ok q) (hp : Sound p) : Sound q := by
  unfold workflowField at h
  split at h
  · obtain ⟨-, -, h⟩ := bind_eq_ok_iff.1 h
    obtain ⟨text, -, h⟩ := bind_eq_ok_iff.1 h
    cases h
    exact hp
  · obtain ⟨-, -, h⟩ := bind_eq_ok_iff.1 h
    obtain ⟨text, -, h⟩ := bind_eq_ok_iff.1 h
    cases h
    exact hp
  · obtain ⟨-, -, h⟩ := bind_eq_ok_iff.1 h
    obtain ⟨ops, hops, h⟩ := bind_eq_ok_iff.1 h
    cases h
    exact ops_unambiguous hops
  · obtain ⟨-, -, h⟩ := bind_eq_ok_iff.1 h
    cases h
    exact hp

theorem workflowFields_sound {depth : Nat} {fields : List (Option String × Draft)}
    {p q : WorkflowParts} (h : workflowFields depth p fields = .ok q) (hp : Sound p) :
    Sound q := by
  induction fields generalizing p with
  | nil =>
    cases h
    exact hp
  | cons e fields ih =>
    obtain ⟨key, -, h⟩ := bind_eq_ok_iff.1 h
    obtain ⟨p', hfield, h⟩ := bind_eq_ok_iff.1 h
    exact ih h (workflowField_sound hfield hp)

theorem workflowItems_sound {depth : Nat} {items : List Draft} {breach : Option Breach}
    {p : WorkflowParts} (h : workflowItems depth items breach = .ok p) : Sound p := by
  unfold workflowItems at h
  split at h
  · cases breach <;> cases h
    simp [Sound]
  · obtain ⟨name, -, h⟩ := bind_eq_ok_iff.1 h
    cases breach <;> cases h
    simp [Sound]
  · obtain ⟨name, -, h⟩ := bind_eq_ok_iff.1 h
    obtain ⟨description, -, h⟩ := bind_eq_ok_iff.1 h
    cases breach <;> cases h
    simp [Sound]
  · obtain ⟨name, -, h⟩ := bind_eq_ok_iff.1 h
    obtain ⟨description, -, h⟩ := bind_eq_ok_iff.1 h
    obtain ⟨ops, hops, h⟩ := bind_eq_ok_iff.1 h
    split at h
    · cases breach <;> cases h
      exact ops_unambiguous hops
    · cases h

theorem Sound.of_toWorkflow? {p : WorkflowParts} (hp : Sound p) {w : Workflow}
    (h : p.toWorkflow? = some w) : ∀ o ∈ w.ops, o.Unambiguous := by
  obtain ⟨name, -, rfl⟩ := Option.map_eq_some_iff.1 h
  exact hp

theorem workflow_unambiguous {depth : Nat} {d : Draft} {w : Workflow}
    (h : d.workflow depth = .ok w) : ∀ o ∈ w.ops, o.Unambiguous := by
  cases d with
  | object fields =>
    obtain ⟨p, hparts, h⟩ := bind_eq_ok_iff.1 h
    dsimp only at h
    split at h
    · next w' hw =>
      cases h
      exact (workflowFields_sound hparts (by simp [Sound])).of_toWorkflow? hw
    · cases h
  | array items breach =>
    obtain ⟨p, hparts, h⟩ := bind_eq_ok_iff.1 h
    dsimp only at h
    split at h
    · next w' hw =>
      cases h
      exact (workflowItems_sound hparts).of_toWorkflow? hw
    · cases h
  | _ => cases h

end Json.Draft

/-- The ops of a workflow that is read from a text are unambiguous. -/
theorem Json.workflow_unambiguous {text : List Char} {w : Workflow}
    (h : Json.workflow text = .ok w) : ∀ o ∈ w.ops, o.Unambiguous := by
  obtain ⟨w', hw, h⟩ := Json.Draft.bind_eq_ok_iff.1 h
  unfold Json.Reading.finish at h
  split at h
  · cases h
  · cases h
    exact Json.Draft.workflow_unambiguous hw

/-! ## The theorem -/

/-- **What is encoded reads back as it was**, if and only if no parameter of the op is called like a
field of its own. -/
theorem Op.reads_back :
    (∀ op : Op, (Op.decode op.encode = .ok op ↔ op.Unambiguous)
      ∧ (op.Unambiguous → op.encode = op.toValue))
    ∧ (∀ (v : Value) (op : Op), Op.decode v = .ok op →
      op.Unambiguous ∧ Op.decode op.encode = .ok op
        ∧ op.encode = .ofRecord (withoutNullBinding v.toRecord))
    ∧ (∀ r : Record Value, (Value.ofRecord r).toRecord = r)
    ∧ (∀ (text : List Char) (w : Workflow), Json.workflow text = .ok w →
      ∀ op ∈ w.ops, op.Unambiguous ∧ Op.decode op.encode = .ok op)
    ∧ ∀ (op : Op) (ops : List Op),
      (op.withOps ops).innerOps = .ok ops ↔ ∀ o ∈ ops, o.Unambiguous := by
  refine ⟨fun op => ⟨decode_encode_iff, encode_eq_toValue⟩, fun v op h => ?_,
    toRecord_ofRecord, fun text w h op hop => ?_, fun op ops => innerOps_withOps_iff⟩
  · have hfields := (decode_eq_ok_iff.1 h).2
    have hun := hfields.unambiguous
    exact ⟨hun, decode_encode_iff.2 hun, congrArg Value.ofRecord hfields.encoded_eq⟩
  · have hun := Json.workflow_unambiguous h op hop
    exact ⟨hun, decode_encode_iff.2 hun⟩

/-- A nested op reads back as it was; one with a parameter `kind` does not; and an output binding
that is null is what a value loses on its way to an op and back. -/
theorem Op.reads_back_nested :
    Op.decode (Op.sequential [Op.map "xs" "x" [(Op.format "a").output "y"]]).encode
        = .ok (Op.sequential [Op.map "xs" "x" [(Op.format "a").output "y"]])
      ∧ Op.decode ((Op.new "set").withParam "kind" .null).encode
        ≠ .ok ((Op.new "set").withParam "kind" .null)
      ∧ (Op.new "set").encode
        = .ofRecord (withoutNullBinding
          (Value.toRecord (.object [("kind", .string "set"), ("outputBinding", .null)])))
      ∧ Op.decode (Op.new "wait").encode = .ok (Op.new "wait")
      ∧ (Op.withOps (Op.new "map") [Op.new "set", Op.format "a"]).innerOps
        = .ok [Op.new "set", Op.format "a"] := by
  obtain ⟨hop, hvalue, -, htext, hlist⟩ := Op.reads_back
  refine ⟨(hop _).1.2 (by decide), fun h => absurd ((hop _).1.1 h) (by decide),
    (hvalue _ _ rfl).2.2, ?_, (hlist _ _).2 (by decide)⟩
  exact (htext "[\"a\",null,[\x7b\"kind\":\"wait\"\x7d]]".toList ⟨"a", none, [Op.new "wait"]⟩
    rfl _ (List.mem_singleton.2 rfl)).2

end WorkflowEngine
