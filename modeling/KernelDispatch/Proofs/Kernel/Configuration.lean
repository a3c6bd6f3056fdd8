import KernelDispatch.Backend.Builtin

/-!
# Accepted and refused configurations

A kernel whose attributes are checked before anything is set is left alone by a configuration that
fails. Two kernels set while they check: the leaky rectifier keeps a slope that it refuses, and the
general product keeps the settings before the one that is refused. Neither becomes ready by that,
but one that was ready before computes something else afterwards.
-/

namespace KernelDispatch

variable {κ α : Type} {attrs : Attributes} {e : AttributeError}

namespace Setup

/-- A check that fails ends the configuration with what was set so far. -/
@[simp] theorem outcome_bind_lift (check : Except AttributeError α) (steps : α → Setup κ Unit)
    (k : κ) :
    Setup.outcome (liftM check >>= steps) k =
      match check with
      | .ok a => Setup.outcome (steps a) k
      | .error e => (.error e, k) := by
  cases check <;> rfl

/-- Reading the kernel changes nothing. -/
@[simp] theorem outcome_bind_get (steps : κ → Setup κ Unit) (k : κ) :
    Setup.outcome (get >>= steps) k = Setup.outcome (steps k) k := rfl

/-- A change is made before what follows it. -/
@[simp] theorem outcome_bind_modify (change : κ → κ) (steps : Unit → Setup κ Unit) (k : κ) :
    Setup.outcome (modify change >>= steps) k = Setup.outcome (steps ()) (change k) := rfl

/-- A failure leaves the kernel as the steps before it have made it. -/
@[simp] theorem outcome_throw (e : AttributeError) (k : κ) :
    Setup.outcome (throw e) k = (.error e, k) := rfl

/-- A change alone succeeds. -/
@[simp] theorem outcome_modify (change : κ → κ) (k : κ) :
    Setup.outcome (modify change) k = (.ok (), change k) := rfl

end Setup

/-- A check ahead of all changes configures the kernel when it succeeds. -/
theorem whenAccepted_eq_ok_iff {check : Except AttributeError α} {k k' : κ} {accepted : α → κ} :
    whenAccepted check k accepted = (.ok (), k') ↔ ∃ a, check = .ok a ∧ accepted a = k' := by
  cases check with
  | ok a => simp [whenAccepted]
  | error e => simp [whenAccepted]

/-- A configuration behind a check succeeds if the check does. -/
theorem whenAccepted_fst_eq_ok_iff {check : Except AttributeError α} {k : κ} {accepted : α → κ} :
    (whenAccepted check k accepted).1 = .ok () ↔ ∃ a, check = .ok a := by
  cases check <;> simp [whenAccepted]

/-- A configuration behind a check without a result succeeds if the check does. -/
theorem whenAccepted_fst_eq_ok_iff_unit {check : Except AttributeError Unit} {k : κ}
    {accepted : Unit → κ} : (whenAccepted check k accepted).1 = .ok () ↔ check = .ok () :=
  whenAccepted_fst_eq_ok_iff.trans ⟨fun ⟨_, h⟩ => h, fun h => ⟨(), h⟩⟩

/-- A check ahead of all changes leaves the kernel alone when it fails. -/
theorem whenAccepted_snd_of_error {check : Except AttributeError α} {k : κ} {accepted : α → κ}
    (h : (whenAccepted check k accepted).1 = .error e) : (whenAccepted check k accepted).2 = k := by
  cases check with
  | ok a => cases h
  | error e => rfl

/-- What is left of a general product when its configuration fails after something was set. -/
inductive Reference.Gemm.PartlyConfigured (attrs : Attributes) (g : Gemm) :
    AttributeError → Gemm → Prop
  /-- The second factor is refused after the first one. -/
  | beta {alpha : Binary32} {e : AttributeError} (taken : attrs.floatOr "alpha" .one = .ok alpha)
      (refused : attrs.floatOr "beta" .one = .error e) : PartlyConfigured attrs g e { g with alpha }
  /-- The first flag is refused after the factors. -/
  | transA {alpha beta : Binary32} {e : AttributeError}
      (taken : attrs.floatOr "alpha" .one = .ok alpha)
      (taken' : attrs.floatOr "beta" .one = .ok beta)
      (refused : flag attrs "transA" = .error e) : PartlyConfigured attrs g e { g with alpha, beta }
  /-- The second flag is refused after everything else. -/
  | transB {alpha beta : Binary32} {transA : Bool} {e : AttributeError}
      (taken : attrs.floatOr "alpha" .one = .ok alpha)
      (taken' : attrs.floatOr "beta" .one = .ok beta)
      (taken'' : flag attrs "transA" = .ok transA) (refused : flag attrs "transB" = .error e) :
      PartlyConfigured attrs g e { g with alpha, beta, transA }

/-- What is left of a built-in kernel when its configuration fails after something was set. -/
inductive PartlyConfigured (attrs : Attributes) :
    AttributeError → BuiltinKernel → BuiltinKernel → Prop
  /-- The slope of a leaky rectifier is refused after it has been taken over. -/
  | slope {old new : Binary32} {ready : Bool} (taken : attrs.floatOr "alpha" .hundredth = .ok new)
      (infinite : new.isFinite = false) :
      PartlyConfigured attrs (.invalid "alpha" .notFinite)
        (.inl (.unary ⟨.leakyRelu old, ready⟩)) (.inl (.unary ⟨.leakyRelu new, ready⟩))
  /-- A setting of a general product is refused after others. -/
  | gemm {g g' : Reference.Gemm} {e : AttributeError} (partly : g.PartlyConfigured attrs e g') :
      PartlyConfigured attrs e (.inl (.gemm g)) (.inl (.gemm g'))

namespace Reference

/-- The configuration of a leaky rectifier. -/
theorem Unary.configure_leakyRelu (old : Binary32) (ready : Bool) (attrs : Attributes) :
    Kernel.configure (⟨.leakyRelu old, ready⟩ : Unary) attrs =
      match attrs.rejectUnknown ["alpha"], attrs.floatOr "alpha" .hundredth with
      | .error e, _ => (.error e, ⟨.leakyRelu old, ready⟩)
      | .ok _, .error e => (.error e, ⟨.leakyRelu old, ready⟩)
      | .ok _, .ok new =>
        if new.isFinite then (.ok (), ⟨.leakyRelu new, true⟩)
        else (.error (.invalid "alpha" .notFinite), ⟨.leakyRelu new, ready⟩) := by
  simp only [Kernel.configure, setup, Setup.outcome_bind_get, Setup.outcome_bind_lift]
  cases attrs.rejectUnknown ["alpha"] with
  | error e => rfl
  | ok _ =>
    cases attrs.floatOr "alpha" .hundredth with
    | error e => rfl
    | ok new => cases hfinite : new.isFinite <;> simp [hfinite]

/-- The configuration of any other operation on one number. -/
theorem Unary.configure_eq_whenAccepted {k : Unary} (hop : ∀ slope, k.op ≠ .leakyRelu slope) :
    Kernel.configure k attrs =
      whenAccepted (attrs.rejectUnknown []) k fun _ => { k with ready := true } := by
  obtain ⟨op, ready⟩ := k
  cases op with
  | leakyRelu slope => exact absurd rfl (hop slope)
  | _ =>
    simp only [Kernel.configure, setup, Setup.outcome_bind_get, Setup.outcome_bind_lift]
    cases attrs.rejectUnknown [] <;> rfl

/-- A refused configuration of an operation on one number leaves it alone, unless it is a leaky
rectifier whose new slope is not finite. -/
theorem Unary.configure_snd_of_error {k : Unary} (h : (Kernel.configure k attrs).1 = .error e) :
    (Kernel.configure k attrs).2 = k ∨
      PartlyConfigured attrs e (.inl (.unary k)) (.inl (.unary (Kernel.configure k attrs).2)) := by
  by_cases hop : ∃ slope, k.op = .leakyRelu slope
  · obtain ⟨_, ready⟩ := k
    obtain ⟨old, rfl⟩ := hop
    rw [configure_leakyRelu] at h ⊢
    cases hknown : attrs.rejectUnknown ["alpha"] with
    | error e => exact .inl rfl
    | ok _ =>
      cases hslope : attrs.floatOr "alpha" .hundredth with
      | error e => exact .inl rfl
      | ok new =>
        cases hfinite : new.isFinite with
        | true => simp [hknown, hslope, hfinite] at h
        | false =>
          obtain rfl : .invalid "alpha" .notFinite = e := by
            simpa [hknown, hslope, hfinite] using h
          refine .inr ?_
          simpa [hfinite] using PartlyConfigured.slope hslope hfinite
  · rw [configure_eq_whenAccepted fun slope heq => hop ⟨slope, heq⟩] at h ⊢
    exact .inl (whenAccepted_snd_of_error h)

/-- A general product that is not ready reports that it is not configured. -/
theorem Gemm.invoke_of_not_ready {g : Gemm} (h : ¬ g.ready = true) (inputs : List Tensor) :
    g.invoke inputs = .error (.unconfigured "Gemm") := by
  simp [invoke, h]

/-- A general product does not become ready half way. -/
theorem Gemm.PartlyConfigured.ready_eq {g g' : Gemm} (h : g.PartlyConfigured attrs e g') :
    g'.ready = g.ready := by
  cases h <;> rfl

/-- A refused configuration of a general product keeps what was set before the refused setting. -/
theorem Gemm.configure_snd_of_error {g : Gemm} (h : (Kernel.configure g attrs).1 = .error e) :
    (Kernel.configure g attrs).2 = g ∨
      g.PartlyConfigured attrs e (Kernel.configure g attrs).2 := by
  simp only [Kernel.configure, setup, Setup.outcome_bind_lift, Setup.outcome_bind_modify,
    Setup.outcome_modify] at h ⊢
  cases hknown : attrs.rejectUnknown ["alpha", "beta", "transA", "transB"] with
  | error e => exact .inl rfl
  | ok _ =>
    cases halpha : attrs.floatOr "alpha" .one with
    | error e => exact .inl rfl
    | ok alpha =>
      simp only [hknown, halpha] at h
      cases hbeta : attrs.floatOr "beta" .one with
      | error e' =>
        obtain rfl : e' = e := by simpa [hbeta] using h
        exact .inr (.beta halpha hbeta)
      | ok beta =>
        simp only [hbeta] at h
        cases htransA : flag attrs "transA" with
        | error e' =>
          obtain rfl : e' = e := by simpa [htransA] using h
          exact .inr (.transA halpha hbeta htransA)
        | ok transA =>
          simp only [htransA] at h
          cases htransB : flag attrs "transB" with
          | error e' =>
            obtain rfl : e' = e := by simpa [htransB] using h
            exact .inr (.transB halpha hbeta htransA htransB)
          | ok transB => simp [htransB] at h

end Reference

/-- A configuration that fails leaves a built-in kernel as it is or partly configured. -/
theorem configure_snd_of_error {k : BuiltinKernel} (h : (Kernel.configure k attrs).1 = .error e) :
    (Kernel.configure k attrs).2 = k ∨ PartlyConfigured attrs e k (Kernel.configure k attrs).2 := by
  cases k with
  | inr k => exact .inl (congrArg Sum.inr (whenAccepted_snd_of_error h))
  | inl k =>
    cases k with
    | unary k =>
      exact (Reference.Unary.configure_snd_of_error h).imp_left
        (congrArg (Sum.inl ∘ ReferenceKernel.unary))
    | gemm k =>
      exact (Reference.Gemm.configure_snd_of_error h).imp
        (congrArg (Sum.inl ∘ ReferenceKernel.gemm)) .gemm
    | binary k =>
      have hk : (Kernel.configure k attrs).2 = k := whenAccepted_snd_of_error h
      exact .inl (congrArg (Sum.inl ∘ ReferenceKernel.binary) hk)
    | sum k =>
      have hk : (Kernel.configure k attrs).2 = k := whenAccepted_snd_of_error h
      exact .inl (congrArg (Sum.inl ∘ ReferenceKernel.sum) hk)
    | softmax k =>
      have hk : (Kernel.configure k attrs).2 = k := whenAccepted_snd_of_error h
      exact .inl (congrArg (Sum.inl ∘ ReferenceKernel.softmax) hk)
    | matMul k =>
      have hk : (Kernel.configure k attrs).2 = k := whenAccepted_snd_of_error h
      exact .inl (congrArg (Sum.inl ∘ ReferenceKernel.matMul) hk)
    | flatten k =>
      have hk : (Kernel.configure k attrs).2 = k := whenAccepted_snd_of_error h
      exact .inl (congrArg (Sum.inl ∘ ReferenceKernel.flatten) hk)

/-- A configuration that fails changes what a built-in kernel computes at most if it leaves the
kernel partly configured and the kernel was ready before. -/
theorem invoke_after_refusal {k : BuiltinKernel} (h : (Kernel.configure k attrs).1 = .error e) :
    (∀ inputs, Kernel.invoke (Kernel.configure k attrs).2 inputs = Kernel.invoke k inputs) ∨
      PartlyConfigured attrs e k (Kernel.configure k attrs).2 ∧
        ((∃ slope, k = .inl (.unary ⟨.leakyRelu slope, true⟩)) ∨
          ∃ g : Reference.Gemm, k = .inl (.gemm g) ∧ g.ready = true) := by
  rcases configure_snd_of_error h with hsame | hpartly
  · exact .inl fun inputs => by rw [hsame]
  · generalize hafter : (Kernel.configure k attrs).2 = k' at hpartly
    cases hpartly with
    | @slope old new ready taken infinite =>
      cases ready with
      | false =>
        have hinvoke (slope : Binary32) (inputs : List Tensor) :
            Kernel.invoke (.inl (.unary ⟨.leakyRelu slope, false⟩) : BuiltinKernel) inputs =
              .error (.unconfigured "LeakyRelu") := rfl
        exact .inl fun inputs => by rw [hinvoke, hinvoke]
      | true => exact .inr ⟨.slope taken infinite, .inl ⟨old, rfl⟩⟩
    | @gemm g g' _ partly =>
      by_cases hready : g.ready = true
      · exact .inr ⟨.gemm partly, .inr ⟨g, rfl, hready⟩⟩
      · have hready' : ¬ g'.ready = true := partly.ready_eq ▸ hready
        exact .inl fun inputs =>
          (Reference.Gemm.invoke_of_not_ready hready' inputs).trans
            (Reference.Gemm.invoke_of_not_ready hready inputs).symm

/-- A parallel softmax that refuses an axis computes the same as before. -/
theorem softmax_after_refusal :
    let softmax : BuiltinKernel := .inr ⟨.softmax, true⟩
    let first := Attributes.empty.insert "axis" (.int 0)
    (Kernel.configure softmax first).1 = .error (.invalid "axis" (.notLastAxis 0)) ∧
      ∀ inputs, Kernel.invoke (Kernel.configure softmax first).2 inputs =
        Kernel.invoke softmax inputs := by
  intro softmax first
  have hrefused : (Kernel.configure softmax first).1 = .error (.invalid "axis" (.notLastAxis 0)) :=
    rfl
  refine ⟨hrefused, ?_⟩
  rcases invoke_after_refusal hrefused with hsame | ⟨-, ⟨_, hleaky⟩ | ⟨_, hgemm, -⟩⟩
  · exact hsame
  · exact absurd hleaky Sum.inr_ne_inl
  · exact absurd hgemm Sum.inr_ne_inl

/-- A ready leaky rectifier computes with the infinite slope that it has just refused, and a ready
general product with the factor that came before the flag it has refused. -/
theorem invoke_after_refusal_ne :
    let leaky : BuiltinKernel := .inl (.unary ⟨.leakyRelu .hundredth, true⟩)
    let infinite := Attributes.empty.insert "alpha" (.float ⟨0x7f800000⟩)
    let minusOne : Tensor := ⟨.f32, ⟨[]⟩, [0, 0, 0x80, 0xbf]⟩
    let gemm : BuiltinKernel := .inl (.gemm ⟨.one, .one, false, false, true⟩)
    let doubled := (Attributes.empty.insert "alpha" (.float ⟨0x40000000⟩)).insert "transA" (.int 7)
    let unit : Tensor := ⟨.f32, ⟨[1, 1]⟩, [0, 0, 0x80, 0x3f]⟩
    ((Builtin.cpu.find? ⟨"LeakyRelu", "ai.onnx", 6⟩).map fun k => Kernel.configure k .empty) =
        some (.ok (), leaky) ∧
      (Kernel.configure leaky infinite).1 = .error (.invalid "alpha" .notFinite) ∧
      Kernel.invoke (Kernel.configure leaky infinite).2 [minusOne] ≠
        Kernel.invoke leaky [minusOne] ∧
      ((Builtin.cpu.find? ⟨"Gemm", "ai.onnx", 7⟩).map fun k => Kernel.configure k .empty) =
        some (.ok (), gemm) ∧
      (Kernel.configure gemm doubled).1 = .error (.invalid "transA" (.notFlag 7)) ∧
      Kernel.invoke (Kernel.configure gemm doubled).2 [unit, unit] ≠
        Kernel.invoke gemm [unit, unit] := by
  intro leaky infinite minusOne gemm doubled unit
  refine ⟨rfl, rfl, ?_, rfl, rfl, ?_⟩
  · exact ne_of_apply_ne Except.toOption (by decide +kernel)
  · exact ne_of_apply_ne Except.toOption (by decide +kernel)

end KernelDispatch
