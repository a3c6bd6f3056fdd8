import KernelDispatch.Proofs.Kernel.Configuration
import KernelDispatch.Proofs.Kernel.Readiness
import KernelDispatch.Proofs.Loops

/-!
# From a fresh kernel to a ready one

Attributes alone determine what a configuration that succeeds makes of a kernel, whatever was set
before. One that fails may leave settings behind, but neither makes a kernel ready nor takes its
readiness away. So after any calls a kernel is ready exactly if one of them has succeeded, and right
after a success it is what a fresh kernel becomes by that call alone.

These laws are shown for each type of kernels; what follows from them for a row of calls is shown
once, for all types.
-/

namespace KernelDispatch

variable {α κ μ : Type}

/-- The laws of a kernel's way from fresh to ready. -/
structure LifecycleLaws [Kernel κ] (op : κ → String) (fresh : κ → κ) (Ready : κ → Prop)
    (settings : κ → Attributes → Except AttributeError κ) (k : κ) : Prop where
  op_fresh : op (fresh k) = op k
  not_ready_fresh : ¬ Ready (fresh k)
  settings_fresh : ∀ attrs, settings (fresh k) attrs = settings k attrs
  settings_ready : ∀ attrs k', settings k attrs = .ok k' → Ready k' ∧ fresh k' = fresh k
  /-- Settings that are accepted replace all of the kernel, and refused ones leave something behind
  that is as ready as the kernel was. -/
  configure_eq : ∀ attrs, ∃ kept, (Ready kept ↔ Ready k) ∧ fresh kept = fresh k ∧
    Kernel.configure k attrs = whenAccepted (settings k attrs) kept id
  invoke_of_not_ready : ¬ Ready k → ∀ inputs, Kernel.invoke k inputs = .error (.unconfigured (op k))
  invoke_of_ready : Ready k → ∀ inputs, Proceeds (Kernel.invoke k inputs)

/-- A type of kernels that are made fresh and become ready by a configuration. -/
class Lifecycle (κ : Type) [Kernel κ] where
  /-- The name of the operator in errors. -/
  op : κ → String
  /-- The kernel of the same operation before any configuration. -/
  fresh : κ → κ
  /-- Whether a configuration has succeeded. -/
  Ready : κ → Prop
  /-- The kernel that attributes make, or why they are refused. -/
  settings : κ → Attributes → Except AttributeError κ
  laws : ∀ k, LifecycleLaws op fresh Ready settings k

namespace LifecycleLaws

variable [Kernel κ] [Kernel μ] {op : κ → String} {fresh : κ → κ} {Ready : κ → Prop}
  {settings : κ → Attributes → Except AttributeError κ} {k : κ}

/-- A kernel whose attributes are checked ahead of all changes keeps everything when they are
refused. -/
theorem of_whenAccepted {check : Attributes → Except AttributeError α} {made : α → κ}
    (op_fresh : op (fresh k) = op k) (not_ready_fresh : ¬ Ready (fresh k))
    (settings_fresh : ∀ attrs, settings (fresh k) attrs = settings k attrs)
    (settings_eq : ∀ attrs, settings k attrs = (check attrs).map made)
    (ready_made : ∀ a, Ready (made a) ∧ fresh (made a) = fresh k)
    (configure_eq : ∀ attrs, Kernel.configure k attrs = whenAccepted (check attrs) k made)
    (invoke_of_not_ready : ¬ Ready k → ∀ inputs,
      Kernel.invoke k inputs = .error (.unconfigured (op k)))
    (invoke_of_ready : Ready k → ∀ inputs, Proceeds (Kernel.invoke k inputs)) :
    LifecycleLaws op fresh Ready settings k where
  op_fresh := op_fresh
  not_ready_fresh := not_ready_fresh
  settings_fresh := settings_fresh
  settings_ready attrs k' h := by
    rw [settings_eq] at h
    obtain ⟨a, -, rfl⟩ := map_eq_ok_iff.mp h
    exact ready_made a
  configure_eq attrs := by
    refine ⟨k, .rfl, rfl, ?_⟩
    rw [configure_eq, settings_eq]
    cases check attrs <;> rfl
  invoke_of_not_ready := invoke_of_not_ready
  invoke_of_ready := invoke_of_ready

/-- The laws hold as well of a kernel that is taken as one of a larger type. -/
theorem lift {op' : μ → String} {fresh' : μ → μ} {Ready' : μ → Prop}
    {settings' : μ → Attributes → Except AttributeError μ} (f : κ → μ)
    (configure_map : ∀ k attrs, Kernel.configure (f k) attrs = (Kernel.configure k attrs).map id f)
    (invoke_map : ∀ k inputs, Kernel.invoke (f k) inputs = Kernel.invoke k inputs)
    (op_map : ∀ k, op' (f k) = op k) (fresh_map : ∀ k, fresh' (f k) = f (fresh k))
    (ready_map : ∀ k, Ready' (f k) ↔ Ready k)
    (settings_map : ∀ k attrs, settings' (f k) attrs = (settings k attrs).map f)
    (h : LifecycleLaws op fresh Ready settings k) :
    LifecycleLaws op' fresh' Ready' settings' (f k) where
  op_fresh := by rw [fresh_map, op_map, op_map, h.op_fresh]
  not_ready_fresh := by
    rw [fresh_map, ready_map]
    exact h.not_ready_fresh
  settings_fresh attrs := by rw [fresh_map, settings_map, settings_map, h.settings_fresh]
  settings_ready attrs k' hk := by
    rw [settings_map] at hk
    obtain ⟨made, hmade, rfl⟩ := map_eq_ok_iff.mp hk
    obtain ⟨hready, hfresh⟩ := h.settings_ready attrs made hmade
    rw [ready_map, fresh_map, fresh_map, hfresh]
    exact ⟨hready, rfl⟩
  configure_eq attrs := by
    obtain ⟨kept, hready, hfresh, hconfigure⟩ := h.configure_eq attrs
    refine ⟨f kept, ?_, ?_, ?_⟩
    · rw [ready_map, ready_map, hready]
    · rw [fresh_map, fresh_map, hfresh]
    · rw [configure_map, hconfigure, settings_map]
      cases settings k attrs <;> rfl
  invoke_of_not_ready hk inputs := by
    rw [ready_map] at hk
    rw [invoke_map, op_map, h.invoke_of_not_ready hk]
  invoke_of_ready hk inputs := by
    rw [ready_map] at hk
    rw [invoke_map]
    exact h.invoke_of_ready hk inputs

end LifecycleLaws

/-! ### The types of kernels -/

namespace Reference

instance : Lifecycle Binary where
  op k := k.op.name
  fresh k := { k with ready := false }
  Ready k := k.ready = true
  settings k attrs := (Binary.checkAttributes attrs).map fun _ => { k with ready := true }
  laws _ := .of_whenAccepted rfl Bool.false_ne_true (fun _ => rfl) (fun _ => rfl)
    (fun _ => ⟨rfl, rfl⟩) (fun _ => rfl)
    (fun hk _ => by simp [Kernel.invoke, Binary.invoke, hk]) fun hk _ => Binary.proceeds_invoke hk

instance : Lifecycle Sum where
  op _ := "Sum"
  fresh _ := ⟨false⟩
  Ready k := k.ready = true
  settings _ attrs := (attrs.rejectUnknown []).map fun _ => ⟨true⟩
  laws _ := .of_whenAccepted rfl Bool.false_ne_true (fun _ => rfl) (fun _ => rfl)
    (fun _ => ⟨rfl, rfl⟩) (fun _ => rfl)
    (fun hk _ => by simp [Kernel.invoke, Sum.invoke, hk]) fun hk _ => Sum.proceeds_invoke hk

instance : Lifecycle MatMul where
  op _ := "MatMul"
  fresh _ := ⟨false⟩
  Ready k := k.ready = true
  settings _ attrs := (attrs.rejectUnknown []).map fun _ => ⟨true⟩
  laws _ := .of_whenAccepted rfl Bool.false_ne_true (fun _ => rfl) (fun _ => rfl)
    (fun _ => ⟨rfl, rfl⟩) (fun _ => rfl)
    (fun hk _ => by simp [Kernel.invoke, MatMul.invoke, hk]) fun hk _ => MatMul.proceeds_invoke hk

instance : Lifecycle Softmax where
  op _ := "Softmax"
  fresh k := { k with axis := none }
  Ready k := k.axis ≠ none
  settings k attrs :=
    (axisAttribute attrs (Softmax.defaultAxis k.form)).map fun axis => { k with axis := some axis }
  laws _ := .of_whenAccepted rfl (fun h => h rfl) (fun _ => rfl) (fun _ => rfl)
    (fun _ => ⟨nofun, rfl⟩) (fun _ => rfl)
    (fun hk _ => by simp [Kernel.invoke, Softmax.invoke, Decidable.not_not.mp hk])
    fun hk _ => Softmax.proceeds_invoke hk

instance : Lifecycle Flatten where
  op _ := "Flatten"
  fresh _ := ⟨none⟩
  Ready k := k.axis ≠ none
  settings _ attrs := (axisAttribute attrs 1).map fun axis => ⟨some axis⟩
  laws _ := .of_whenAccepted rfl (fun h => h rfl) (fun _ => rfl) (fun _ => rfl)
    (fun _ => ⟨nofun, rfl⟩) (fun _ => rfl)
    (fun hk _ => by simp [Kernel.invoke, Flatten.invoke, Decidable.not_not.mp hk])
    fun hk _ => Flatten.proceeds_invoke hk

/-- The operation as it is before any configuration. -/
def UnaryOp.fresh : UnaryOp → UnaryOp
  | leakyRelu _ => leakyRelu .hundredth
  | op => op

/-- The operation that attributes make of an operation on one number. -/
def UnaryOp.settings (attrs : Attributes) : UnaryOp → Except AttributeError UnaryOp
  | leakyRelu _ => do
    attrs.rejectUnknown ["alpha"]
    let slope ← attrs.floatOr "alpha" .hundredth
    if slope.isFinite then return leakyRelu slope else throw (.invalid "alpha" .notFinite)
  | op => (attrs.rejectUnknown []).map fun _ => op

/-- The operation before any configuration goes through the same settings. -/
theorem UnaryOp.settings_fresh (attrs : Attributes) (op : UnaryOp) :
    op.fresh.settings attrs = op.settings attrs := by
  cases op <;> rfl

/-- Settings that are accepted change no more than the slope. -/
theorem UnaryOp.fresh_of_settings {attrs : Attributes} {op op' : UnaryOp}
    (h : op.settings attrs = .ok op') : op'.fresh = op.fresh := by
  cases op with
  | leakyRelu old =>
    obtain ⟨_, -, h⟩ := bind_eq_ok_iff.mp h
    obtain ⟨slope, -, h⟩ := bind_eq_ok_iff.mp h
    cases hfinite : slope.isFinite with
    | true =>
      rw [hfinite] at h
      obtain rfl := Except.ok.inj h
      rfl
    | false =>
      rw [hfinite] at h
      cases h
  | _ =>
    obtain ⟨_, -, rfl⟩ := map_eq_ok_iff.mp h
    rfl

/-- Only a leaky rectifier may be left with another operation by settings that it refuses. -/
theorem Unary.exists_configure_eq (op : UnaryOp) (ready : Bool) (attrs : Attributes) :
    ∃ kept : UnaryOp, kept.fresh = op.fresh ∧ Kernel.configure (⟨op, ready⟩ : Unary) attrs =
      whenAccepted ((op.settings attrs).map (⟨·, true⟩)) ⟨kept, ready⟩ id := by
  cases op with
  | leakyRelu old =>
    rw [configure_leakyRelu, UnaryOp.settings]
    cases attrs.rejectUnknown ["alpha"] with
    | error e => exact ⟨.leakyRelu old, rfl, rfl⟩
    | ok _ =>
      cases attrs.floatOr "alpha" .hundredth with
      | error e => exact ⟨.leakyRelu old, rfl, rfl⟩
      | ok slope =>
        refine ⟨.leakyRelu slope, rfl, ?_⟩
        cases hfinite : slope.isFinite <;> simp [hfinite] <;> rfl
  | _ =>
    refine ⟨_, rfl, (configure_eq_whenAccepted (by simp)).trans ?_⟩
    simp only [UnaryOp.settings]
    cases attrs.rejectUnknown [] <;> rfl

instance : Lifecycle Unary where
  op k := k.op.name
  fresh k := ⟨k.op.fresh, false⟩
  Ready k := k.ready = true
  settings k attrs := (k.op.settings attrs).map (⟨·, true⟩)
  laws k := {
    op_fresh := by cases k.op <;> rfl
    not_ready_fresh := Bool.false_ne_true
    settings_fresh := fun attrs => by rw [UnaryOp.settings_fresh]
    settings_ready := fun attrs k' h => by
      obtain ⟨op, hop, rfl⟩ := map_eq_ok_iff.mp h
      rw [UnaryOp.fresh_of_settings hop]
      exact ⟨rfl, rfl⟩
    configure_eq := fun attrs => by
      obtain ⟨kept, hfresh, hconfigure⟩ := Unary.exists_configure_eq k.op k.ready attrs
      exact ⟨⟨kept, k.ready⟩, .rfl, by rw [hfresh], hconfigure⟩
    invoke_of_not_ready := fun hk _ => by simp [Kernel.invoke, Unary.invoke, hk]
    invoke_of_ready := fun hk _ => Unary.proceeds_invoke hk }

/-- The general product that attributes make. -/
def Gemm.settings (attrs : Attributes) : Except AttributeError Gemm := do
  attrs.rejectUnknown ["alpha", "beta", "transA", "transB"]
  let alpha ← attrs.floatOr "alpha" .one
  let beta ← attrs.floatOr "beta" .one
  let transA ← flag attrs "transA"
  let transB ← flag attrs "transB"
  return ⟨alpha, beta, transA, transB, true⟩

/-- A general product is left with the settings before the one that it refuses. -/
theorem Gemm.exists_configure_eq (g : Gemm) (attrs : Attributes) :
    ∃ kept : Gemm, kept.ready = g.ready ∧
      Kernel.configure g attrs = whenAccepted (settings attrs) kept id := by
  simp only [Kernel.configure, setup, settings, Setup.outcome_bind_lift, Setup.outcome_bind_modify,
    Setup.outcome_modify]
  cases attrs.rejectUnknown ["alpha", "beta", "transA", "transB"] with
  | error e => exact ⟨g, rfl, rfl⟩
  | ok _ =>
    cases attrs.floatOr "alpha" .one with
    | error e => exact ⟨g, rfl, rfl⟩
    | ok alpha =>
      cases attrs.floatOr "beta" .one with
      | error e => exact ⟨{ g with alpha }, rfl, rfl⟩
      | ok beta =>
        cases flag attrs "transA" with
        | error e => exact ⟨{ g with alpha, beta }, rfl, rfl⟩
        | ok transA =>
          refine ⟨{ g with alpha, beta, transA }, rfl, ?_⟩
          cases flag attrs "transB" <;> rfl

instance : Lifecycle Gemm where
  op _ := "Gemm"
  fresh _ := .fresh
  Ready k := k.ready = true
  settings _ := Gemm.settings
  laws g := {
    op_fresh := rfl
    not_ready_fresh := Bool.false_ne_true
    settings_fresh := fun _ => rfl
    settings_ready := fun attrs k' h => by
      simp only [Gemm.settings, bind_eq_ok_iff] at h
      obtain ⟨_, -, _, -, _, -, _, -, _, -, h⟩ := h
      obtain rfl := Except.ok.inj h
      exact ⟨rfl, rfl⟩
    configure_eq := fun attrs => by
      obtain ⟨kept, hready, hconfigure⟩ := Gemm.exists_configure_eq g attrs
      exact ⟨kept, by rw [hready], rfl, hconfigure⟩
    invoke_of_not_ready := Gemm.invoke_of_not_ready
    invoke_of_ready := fun hk _ => Gemm.proceeds_invoke hk }

end Reference

instance : Lifecycle ParallelKernel where
  op k := k.op.name
  fresh k := { k with ready := false }
  Ready k := k.ready = true
  settings k attrs := (k.op.checkAttributes attrs).map fun _ => { k with ready := true }
  laws _ := .of_whenAccepted rfl Bool.false_ne_true (fun _ => rfl) (fun _ => rfl)
    (fun _ => ⟨rfl, rfl⟩) (fun _ => rfl)
    (fun hk _ => by simp [Kernel.invoke, ParallelKernel.invokeScheduled, hk])
    fun hk => ParallelKernel.proceeds_invokeScheduled hk _

instance : Lifecycle ReferenceKernel where
  op
    | .binary k => Lifecycle.op k
    | .unary k => Lifecycle.op k
    | .sum k => Lifecycle.op k
    | .softmax k => Lifecycle.op k
    | .matMul k => Lifecycle.op k
    | .gemm k => Lifecycle.op k
    | .flatten k => Lifecycle.op k
  fresh
    | .binary k => .binary (Lifecycle.fresh k)
    | .unary k => .unary (Lifecycle.fresh k)
    | .sum k => .sum (Lifecycle.fresh k)
    | .softmax k => .softmax (Lifecycle.fresh k)
    | .matMul k => .matMul (Lifecycle.fresh k)
    | .gemm k => .gemm (Lifecycle.fresh k)
    | .flatten k => .flatten (Lifecycle.fresh k)
  Ready
    | .binary k => Lifecycle.Ready k
    | .unary k => Lifecycle.Ready k
    | .sum k => Lifecycle.Ready k
    | .softmax k => Lifecycle.Ready k
    | .matMul k => Lifecycle.Ready k
    | .gemm k => Lifecycle.Ready k
    | .flatten k => Lifecycle.Ready k
  settings
    | .binary k, attrs => (Lifecycle.settings k attrs).map .binary
    | .unary k, attrs => (Lifecycle.settings k attrs).map .unary
    | .sum k, attrs => (Lifecycle.settings k attrs).map .sum
    | .softmax k, attrs => (Lifecycle.settings k attrs).map .softmax
    | .matMul k, attrs => (Lifecycle.settings k attrs).map .matMul
    | .gemm k, attrs => (Lifecycle.settings k attrs).map .gemm
    | .flatten k, attrs => (Lifecycle.settings k attrs).map .flatten
  laws
    | .binary k => .lift ReferenceKernel.binary (fun _ _ => rfl) (fun _ _ => rfl) (fun _ => rfl)
        (fun _ => rfl) (fun _ => .rfl) (fun _ _ => rfl) (Lifecycle.laws k)
    | .unary k => .lift ReferenceKernel.unary (fun _ _ => rfl) (fun _ _ => rfl) (fun _ => rfl)
        (fun _ => rfl) (fun _ => .rfl) (fun _ _ => rfl) (Lifecycle.laws k)
    | .sum k => .lift ReferenceKernel.sum (fun _ _ => rfl) (fun _ _ => rfl) (fun _ => rfl)
        (fun _ => rfl) (fun _ => .rfl) (fun _ _ => rfl) (Lifecycle.laws k)
    | .softmax k => .lift ReferenceKernel.softmax (fun _ _ => rfl) (fun _ _ => rfl) (fun _ => rfl)
        (fun _ => rfl) (fun _ => .rfl) (fun _ _ => rfl) (Lifecycle.laws k)
    | .matMul k => .lift ReferenceKernel.matMul (fun _ _ => rfl) (fun _ _ => rfl) (fun _ => rfl)
        (fun _ => rfl) (fun _ => .rfl) (fun _ _ => rfl) (Lifecycle.laws k)
    | .gemm k => .lift ReferenceKernel.gemm (fun _ _ => rfl) (fun _ _ => rfl) (fun _ => rfl)
        (fun _ => rfl) (fun _ => .rfl) (fun _ _ => rfl) (Lifecycle.laws k)
    | .flatten k => .lift ReferenceKernel.flatten (fun _ _ => rfl) (fun _ _ => rfl) (fun _ => rfl)
        (fun _ => rfl) (fun _ => .rfl) (fun _ _ => rfl) (Lifecycle.laws k)

/-- Kernels of either of two types. -/
instance [Kernel κ] [Lifecycle κ] [Kernel μ] [Lifecycle μ] : Lifecycle (κ ⊕ μ) where
  op := Sum.elim Lifecycle.op Lifecycle.op
  fresh := Sum.map Lifecycle.fresh Lifecycle.fresh
  Ready := Sum.elim Lifecycle.Ready Lifecycle.Ready
  settings
    | .inl k, attrs => (Lifecycle.settings k attrs).map .inl
    | .inr k, attrs => (Lifecycle.settings k attrs).map .inr
  laws
    | .inl k => .lift Sum.inl (fun _ _ => rfl) (fun _ _ => rfl) (fun _ => rfl)
        (fun _ => rfl) (fun _ => .rfl) (fun _ _ => rfl) (Lifecycle.laws k)
    | .inr k => .lift Sum.inr (fun _ _ => rfl) (fun _ _ => rfl) (fun _ => rfl)
        (fun _ => rfl) (fun _ => .rfl) (fun _ _ => rfl) (Lifecycle.laws k)

/-! ### Rows of configurations -/

/-- Configurations one after another: their outcomes, and the kernel that they leave. -/
def configureAll [Kernel κ] (k : κ) : List Attributes → List (Except AttributeError Unit) × κ
  | [] => ([], k)
  | attrs :: rest =>
    let first := Kernel.configure k attrs
    let others := configureAll first.2 rest
    (first.1 :: others.1, others.2)

namespace Lifecycle

variable [Kernel κ] [Lifecycle κ]

/-- One configuration succeeds exactly if its attributes make a kernel, and this is then left. -/
theorem configure_eq_ok_iff {k k' : κ} {attrs : Attributes} :
    Kernel.configure k attrs = (.ok (), k') ↔ settings k attrs = .ok k' := by
  obtain ⟨kept, -, -, hconfigure⟩ := (laws k).configure_eq attrs
  rw [hconfigure, whenAccepted_eq_ok_iff]
  exact exists_eq_right

/-- One configuration keeps the type of the kernel, and readiness is never lost by it. -/
theorem configure_snd (k : κ) (attrs : Attributes) :
    fresh (Kernel.configure k attrs).2 = fresh k ∧
      (Ready (Kernel.configure k attrs).2 ↔
        (Kernel.configure k attrs).1 = .ok () ∨ Ready k) := by
  obtain ⟨kept, hready, hfresh, hconfigure⟩ := (laws k).configure_eq attrs
  rw [hconfigure]
  cases hsettings : settings k attrs with
  | ok k' =>
    obtain ⟨hready', hfresh'⟩ := (laws k).settings_ready attrs k' hsettings
    exact ⟨hfresh', iff_of_true hready' (.inl rfl)⟩
  | error e =>
    refine ⟨hfresh, hready.trans ?_⟩
    simp [whenAccepted]

/-- A row of configurations keeps the type of the kernel, and makes it ready exactly if one of them
succeeds, unless it is ready before. -/
theorem configureAll_snd (k : κ) (calls : List Attributes) :
    fresh (configureAll k calls).2 = fresh k ∧
      (Ready (configureAll k calls).2 ↔ .ok () ∈ (configureAll k calls).1 ∨ Ready k) := by
  induction calls generalizing k with
  | nil => simp [configureAll]
  | cons attrs rest ih =>
    obtain ⟨hfresh, hready⟩ := configure_snd k attrs
    obtain ⟨hfresh', hready'⟩ := ih (Kernel.configure k attrs).2
    refine ⟨hfresh'.trans hfresh, hready'.trans ?_⟩
    simp only [hready, configureAll, List.mem_cons, eq_comm (a := Except.ok ()), or_left_comm,
      or_assoc]

/-- An invocation asks for a configuration, under the kernel's own name, exactly if the kernel is
not ready. -/
theorem invoke_eq_unconfigured_iff {k : κ} {inputs : List Tensor} {name : String} :
    Kernel.invoke k inputs = .error (.unconfigured name) ↔ name = op k ∧ ¬ Ready k := by
  by_cases hready : Ready k
  · exact iff_of_false ((laws k).invoke_of_ready hready inputs name) fun h => h.2 hready
  · rw [(laws k).invoke_of_not_ready hready, Except.error.injEq, InvokeError.unconfigured.injEq,
      eq_comm, and_iff_left hready]

/-- Kernels of one type have one name and go through the same settings. -/
theorem eq_of_fresh_eq {k k' : κ} (h : fresh k = fresh k') :
    op k = op k' ∧ settings k = settings k' := by
  refine ⟨by rw [← (laws k).op_fresh, h, (laws k').op_fresh], funext fun attrs => ?_⟩
  rw [← (laws k).settings_fresh, h, (laws k').settings_fresh]

end Lifecycle

/-- The built-in backends hand out a fresh kernel of every type under its name. -/
theorem exists_find?_fresh (k : BuiltinKernel) :
    ∃ id, id.op = Lifecycle.op k ∧
      (Builtin.cpu.find? id = some (Lifecycle.fresh k) ∨
        Builtin.par.find? id = some (Lifecycle.fresh k)) := by
  cases k with
  | inr p =>
    obtain ⟨op, ready⟩ := p
    refine ⟨⟨op.name, Domain.standard, 13⟩, rfl, .inr ?_⟩
    cases op with
    | binary op => cases op <;> rfl
    | unary op => cases op <;> rfl
    | _ => rfl
  | inl r =>
    cases r with
    | binary k =>
      obtain ⟨op, ready⟩ := k
      refine ⟨⟨op.name, Domain.standard, 13⟩, rfl, .inl ?_⟩
      cases op with
      | arithmetic op => cases op <;> rfl
      | prelu => rfl
      | logical op => cases op <;> rfl
    | unary k =>
      obtain ⟨op, ready⟩ := k
      cases op with
      | gelu => exact ⟨⟨"Gelu", Domain.contributed, 1⟩, rfl, .inl rfl⟩
      | _ => exact ⟨⟨_, Domain.standard, 13⟩, rfl, .inl rfl⟩
    | softmax k =>
      obtain ⟨form, axis⟩ := k
      cases form with
      | flattening => exact ⟨⟨"Softmax", Domain.standard, 1⟩, rfl, .inl rfl⟩
      | lane => exact ⟨⟨"Softmax", Domain.standard, 13⟩, rfl, .inl rfl⟩
    | sum k => exact ⟨⟨"Sum", Domain.standard, 13⟩, rfl, .inl rfl⟩
    | matMul k => exact ⟨⟨"MatMul", Domain.standard, 13⟩, rfl, .inl rfl⟩
    | gemm k => exact ⟨⟨"Gemm", Domain.standard, 13⟩, rfl, .inl rfl⟩
    | flatten k => exact ⟨⟨"Flatten", Domain.standard, 13⟩, rfl, .inl rfl⟩

/-- The fresh kernel of every built-in type is one that a backend hands out. After any
configurations of it an invocation asks for a configuration, whatever its inputs, exactly if none of
them has succeeded; and a configuration that succeeds then leaves the kernel that it makes of the
fresh one. -/
theorem configureAll_fresh (k : BuiltinKernel) (calls : List Attributes) :
    let fresh := Lifecycle.fresh k
    let (outcomes, after) := configureAll fresh calls
    (∃ id, id.op = Lifecycle.op k ∧
        (Builtin.cpu.find? id = some fresh ∨ Builtin.par.find? id = some fresh)) ∧
      (∀ inputs name, Kernel.invoke after inputs = .error (.unconfigured name) ↔
        name = Lifecycle.op k ∧ .ok () ∉ outcomes) ∧
      ∀ attrs k', Kernel.configure after attrs = (.ok (), k') →
        Kernel.configure fresh attrs = (.ok (), k') := by
  intro fresh
  obtain ⟨hfresh, hready⟩ := Lifecycle.configureAll_snd fresh calls
  obtain ⟨hop, hsettings⟩ := Lifecycle.eq_of_fresh_eq hfresh
  refine ⟨exists_find?_fresh k, fun inputs name => ?_, fun attrs k' h => ?_⟩
  · have hunready : ¬ Lifecycle.Ready fresh := (Lifecycle.laws k).not_ready_fresh
    have hname : Lifecycle.op fresh = Lifecycle.op k := (Lifecycle.laws k).op_fresh
    rw [Lifecycle.invoke_eq_unconfigured_iff, hready, hop, hname, or_iff_left hunready]
  · rw [Lifecycle.configure_eq_ok_iff] at h ⊢
    rwa [← hsettings]

/-- A general product that has taken over a factor ahead of a refused flag asks for a configuration
still, and forgets the factor when one succeeds. -/
theorem configureAll_gemm :
    let gemm : BuiltinKernel := .inl (.gemm .fresh)
    let doubled := (Attributes.empty.insert "alpha" (.float ⟨0x40000000⟩)).insert "transA" (.int 7)
    let (outcomes, after) := configureAll gemm [doubled]
    let ready : BuiltinKernel := .inl (.gemm ⟨.one, .one, false, false, true⟩)
    outcomes = [.error (.invalid "transA" (.notFlag 7))] ∧ after ≠ gemm ∧
      (∀ inputs, Kernel.invoke after inputs = .error (.unconfigured "Gemm")) ∧
      Kernel.configure after .empty = (.ok (), ready) ∧
      Kernel.configure gemm .empty = (.ok (), ready) := by
  intro gemm doubled
  obtain ⟨-, hunready, hready⟩ := configureAll_fresh gemm [doubled]
  have houtcomes : (configureAll gemm [doubled]).1 = [.error (.invalid "transA" (.notFlag 7))] :=
    rfl
  have hchanged : (configureAll gemm [doubled]).2 ≠ gemm := by decide +kernel
  have hfailed : .ok () ∉ (configureAll gemm [doubled]).1 := by simp [houtcomes]
  exact ⟨houtcomes, hchanged, fun inputs => (hunready inputs "Gemm").mpr ⟨rfl, hfailed⟩, rfl,
    hready .empty _ rfl⟩

end KernelDispatch
