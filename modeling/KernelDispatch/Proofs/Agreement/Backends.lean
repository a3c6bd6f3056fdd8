import KernelDispatch.Proofs.Agreement.Kernels
import KernelDispatch.Proofs.Kernel.Configuration
import KernelDispatch.Proofs.Ordered

/-!
# The parallel backend beside the reference backend

Whatever identity the parallel backend serves, the reference backend serves it with the counterpart
of the parallel kernel, and attributes that the parallel kernel accepts its counterpart accepts as
well. So the two backends can be compared kernel by kernel: they answer the same tensors, and the
reference backend answers whenever the parallel one does, with two exceptions.
-/

namespace KernelDispatch

open Parallel

variable {attrs : Attributes} {inputs outputs outputs' : List Tensor}

/-- The kernel of the reference family for a parallel operation, before or after configuration. -/
def ParallelOp.reference (ready : Bool) : ParallelOp → ReferenceKernel
  | binary op => .binary ⟨.arithmetic op, ready⟩
  | unary op => .unary ⟨op.reference, ready⟩
  | softmax => .softmax ⟨.lane, if ready then some (-1) else none⟩
  | matMul => .matMul ⟨ready⟩
  | sum => .sum ⟨ready⟩

/-- The inputs on which a parallel kernel may succeed though its counterpart cannot. -/
def ParallelOp.AcceptsAlone : ParallelOp → List Tensor → Prop
  | softmax, [a] => a.shape.rank = 0
  | matMul, [a, b] => Overflows a b
  | _, _ => False

/-! ### Catalogs -/

/-- A registration serves the versions of its operator that its range contains. -/
theorem Registration.serves_iff {α : Type} {r : Registration α} {op : String} {version : UInt32} :
    r.serves op version = true ↔
      r.op = op ∧ r.range.start ≤ version ∧ ∀ stop ∈ r.range.stop, version ≤ stop := by
  obtain ⟨name, ⟨start, _ | stop⟩, value⟩ := r <;> simp [serves, VersionRange.contains]

/-- A backend asks the catalog of an identity's domain if that is its first one. -/
theorem Backend.find?_of_head {κ : Type} {b : Backend κ} {c : Catalog κ} {rest : List (Catalog κ)}
    (hcatalogs : b.catalogs.catalogs = c :: rest) {id : Identity}
    (hdomain : c.domain = Domain.normalize id.domain) :
    b.find? id = (c.ranked.find? (·.serves id.op id.version)).map (·.value) := by
  have hfor : b.catalogFor id.domain = some c := by
    rw [catalogFor, CatalogSet.get?, hcatalogs, List.find?_cons_of_pos (by simpa using hdomain)]
  rw [find?, hfor, Option.bind_some, Catalog.lookup, Catalog.find?, if_pos hdomain.symm]

/-- A backend serves an identity by the value of the entries that cover it, if these all have the
same one. -/
theorem Backend.find?_eq_some {κ : Type} {b : Backend κ} {c : Catalog κ} {rest : List (Catalog κ)}
    {entries : List (Registration κ)} {q : Registration κ} {kernel : κ}
    (hcatalogs : b.catalogs.catalogs = c :: rest)
    (hranked : c.ranked = sortLatestFirst Registration.preferred entries) {id : Identity}
    (hdomain : c.domain = Domain.normalize id.domain) (hq : q ∈ entries)
    (hcovers : q.serves id.op id.version = true)
    (hvalue : ∀ r ∈ entries, r.serves id.op id.version = true → r.value = kernel) :
    b.find? id = some kernel := by
  rw [find?_of_head hcatalogs hdomain, hranked]
  cases hfound : (sortLatestFirst Registration.preferred entries).find?
      (·.serves id.op id.version) with
  | none => exact absurd hcovers (find?_sortLatestFirst_eq_none_iff.mp hfound q hq)
  | some r =>
    obtain ⟨hr, hserves⟩ := mem_of_find?_sortLatestFirst hfound
    rw [← hvalue r hr hserves, Option.map_some]

/-- What the parallel backend serves is one of its entries. -/
theorem Parallel.exists_entry_of_find? {id : Identity} {p : ParallelKernel}
    (h : Parallel.backend.find? id = some p) :
    Domain.standard = Domain.normalize id.domain ∧
      ∃ e ∈ standardEntries, e.serves id.op id.version = true ∧ e.value = p := by
  have hdomain : Domain.standard = Domain.normalize id.domain := by
    obtain ⟨c, hc, -⟩ := Option.bind_eq_some_iff.mp h
    rw [Backend.catalogFor, CatalogSet.get?] at hc
    obtain rfl := List.mem_singleton.mp (List.mem_of_find?_eq_some hc)
    have hdomain := List.find?_some hc
    rw [decide_eq_true_eq] at hdomain
    exact hdomain
  rw [Backend.find?_of_head rfl hdomain, Option.map_eq_some_iff] at h
  obtain ⟨e, hfound, hvalue⟩ := h
  obtain ⟨he, hserves⟩ := mem_of_find?_sortLatestFirst hfound
  exact ⟨hdomain, e, he, hserves, hvalue⟩

/-- Every parallel kernel is registered fresh and under its own name. -/
theorem Parallel.entry_value : ∀ e ∈ standardEntries,
    e.value.ready = false ∧ e.op = e.value.op.name := by
  decide +kernel

/-- The entries of the reference family for an operator of the parallel family: one covers every
version that the parallel entry covers, and those of other kernels end before these versions. -/
theorem Parallel.reference_entries : ∀ e ∈ standardEntries,
    (∃ q ∈ Reference.standardEntries, q.op = e.op ∧ q.range.start ≤ e.range.start ∧
      q.range.stop = none) ∧
    ∀ q ∈ Reference.standardEntries, q.op = e.op →
      q.value = e.value.op.reference false ∨ ∃ stop ∈ q.range.stop, stop < e.range.start := by
  decide +kernel

/-- The reference backend serves what the parallel backend serves, by the counterpart. -/
theorem Parallel.reference_find? {id : Identity} {p : ParallelKernel}
    (h : Parallel.backend.find? id = some p) :
    p.ready = false ∧ id.op = p.op.name ∧
      Reference.backend.find? id = some (p.op.reference false) := by
  obtain ⟨hdomain, e, he, hserves, rfl⟩ := exists_entry_of_find? h
  obtain ⟨hready, hname⟩ := entry_value e he
  obtain ⟨⟨q, hq, hop, hstart, hopen⟩, hothers⟩ := reference_entries e he
  obtain ⟨hid, hversion, -⟩ := Registration.serves_iff.mp hserves
  have hcovers : q.serves id.op id.version = true :=
    Registration.serves_iff.mpr
      ⟨hop.trans hid, UInt32.le_trans hstart hversion, by simp [hopen]⟩
  refine ⟨hready, hid.symm.trans hname,
    Backend.find?_eq_some rfl rfl hdomain hq hcovers fun r hr hserves => ?_⟩
  obtain ⟨hrop, -, hrversion⟩ := Registration.serves_iff.mp hserves
  rcases hothers r hr (hrop.trans hid.symm) with hvalue | ⟨stop, hstop, hbefore⟩
  · exact hvalue
  · have hlt := UInt32.lt_of_le_of_lt (UInt32.le_trans hversion (hrversion stop hstop)) hbefore
    exact absurd hlt (UInt32.lt_irrefl _)

/-! ### Attributes -/

/-- A kernel without attributes accepts the empty map alone. -/
theorem Attributes.eq_empty_of_rejectUnknown (h : attrs.rejectUnknown [] = .ok ()) :
    attrs = .empty := by
  obtain ⟨items, ordered⟩ := attrs
  cases items with
  | nil => rfl
  | cons item rest => cases h

/-- A parallel kernel that accepts attributes is configured by them, and so is its counterpart. -/
theorem ParallelOp.configure_reference {op : ParallelOp} {p' : ParallelKernel}
    (h : Kernel.configure (⟨op, false⟩ : ParallelKernel) attrs = (.ok (), p')) :
    p' = ⟨op, true⟩ ∧
      Kernel.configure (op.reference false) attrs = (.ok (), op.reference true) := by
  obtain ⟨_, hcheck, rfl⟩ := whenAccepted_eq_ok_iff.mp h
  refine ⟨rfl, ?_⟩
  cases op with
  | softmax =>
    simp only [checkAttributes, bind_eq_ok_iff] at hcheck
    obtain ⟨_, hknown, axis, haxis, hlast⟩ := hcheck
    obtain rfl : axis = -1 := by
      by_contra hne
      rw [if_neg hne] at hlast
      cases hlast
    have hreference : Reference.axisAttribute attrs (-1) = .ok (-1) := by
      rw [Reference.axisAttribute, hknown, ok_bind, haxis]
    change (whenAccepted (Reference.axisAttribute attrs (-1)) (⟨.lane, none⟩ : Reference.Softmax)
      _).map id ReferenceKernel.softmax = _
    rw [hreference]
    rfl
  | binary op =>
    obtain rfl := Attributes.eq_empty_of_rejectUnknown hcheck
    rfl
  | unary op =>
    obtain rfl := Attributes.eq_empty_of_rejectUnknown hcheck
    cases op <;> rfl
  | matMul =>
    obtain rfl := Attributes.eq_empty_of_rejectUnknown hcheck
    rfl
  | sum =>
    obtain rfl := Attributes.eq_empty_of_rejectUnknown hcheck
    rfl

/-! ### Invocations -/

/-- What a ready parallel kernel may do that succeeds. -/
theorem ParallelKernel.invoke_eq_ok {op : ParallelOp}
    (hinvoke : Kernel.invoke (⟨op, true⟩ : ParallelKernel) inputs = .ok outputs) :
    (∃ f a b, op = .binary f ∧ inputs = [a, b] ∧ Parallel.binary inOrder f a b = .ok outputs) ∨
      (∃ f a, op = .unary f ∧ inputs = [a] ∧ Parallel.unary inOrder f a = .ok outputs) ∨
      (∃ a, op = .softmax ∧ inputs = [a] ∧ Parallel.softmax inOrder a = .ok outputs) ∨
      (∃ a b, op = .matMul ∧ inputs = [a, b] ∧ Parallel.matMul inOrder a b = .ok outputs) ∨
      ∃ first rest, op = .sum ∧ inputs = first :: rest ∧
        Parallel.sum inOrder first rest = .ok outputs := by
  simp only [Kernel.invoke, invokeScheduled, Bool.not_true, Bool.false_eq_true, if_false] at hinvoke
  split at hinvoke
  · exact .inl ⟨_, _, _, rfl, rfl, hinvoke⟩
  · cases hinvoke
  · exact .inr (.inl ⟨_, _, rfl, rfl, hinvoke⟩)
  · cases hinvoke
  · exact .inr (.inr (.inl ⟨_, rfl, rfl, hinvoke⟩))
  · cases hinvoke
  · exact .inr (.inr (.inr (.inl ⟨_, _, rfl, rfl, hinvoke⟩)))
  · cases hinvoke
  · exact .inr (.inr (.inr (.inr ⟨_, _, rfl, rfl, hinvoke⟩)))
  · cases hinvoke

/-- Sums apart, a ready parallel kernel and its counterpart answer the same tensor where both
succeed. -/
theorem ParallelOp.invoke_eq_reference {op : ParallelOp} (hop : op ≠ .sum)
    (hinvoke : Kernel.invoke (⟨op, true⟩ : ParallelKernel) inputs = .ok outputs)
    (hinvoke' : Kernel.invoke (op.reference true) inputs = .ok outputs') : outputs = outputs' := by
  rcases ParallelKernel.invoke_eq_ok hinvoke with ⟨f, a, b, rfl, rfl, h⟩ | ⟨f, a, rfl, rfl, h⟩ |
    ⟨a, rfl, rfl, h⟩ | ⟨a, b, rfl, rfl, h⟩ | ⟨first, rest, rfl, rfl, h⟩
  · exact Except.ok.inj (((binary_eq_ok_iff f).mp h).symm.trans hinvoke')
  · exact Except.ok.inj (h.symm.trans ((unary_eq_invoke f a).trans hinvoke'))
  · have hrank : 0 < a.shape.rank :=
      Nat.pos_of_ne_zero fun hzero => Reference.Softmax.invoke_scalar_ne_ok hzero hinvoke'
    exact Except.ok.inj (((softmax_eq_ok_iff hrank).mp h).symm.trans hinvoke')
  · exact matMul_eq_multiply h hinvoke'
  · exact absurd rfl hop

/-- On well-formed tensors the counterpart of a ready parallel kernel succeeds where the parallel
kernel does, but for the inputs that the parallel kernel accepts alone. -/
theorem ParallelOp.exists_reference_eq_ok_iff {op : ParallelOp}
    (hinputs : ∀ t ∈ inputs, t.WellFormed)
    (hinvoke : Kernel.invoke (⟨op, true⟩ : ParallelKernel) inputs = .ok outputs) :
    (∃ outputs', Kernel.invoke (op.reference true) inputs = .ok outputs') ↔
      ¬ op.AcceptsAlone inputs := by
  rcases ParallelKernel.invoke_eq_ok hinvoke with ⟨f, a, b, rfl, rfl, h⟩ | ⟨f, a, rfl, rfl, h⟩ |
    ⟨a, rfl, rfl, h⟩ | ⟨a, b, rfl, rfl, h⟩ | ⟨first, rest, rfl, rfl, h⟩
  · exact iff_of_true ⟨outputs, (binary_eq_ok_iff f).mp h⟩ id
  · exact iff_of_true ⟨outputs, (unary_eq_invoke f a).symm.trans h⟩ id
  · by_cases hrank : a.shape.rank = 0
    · exact iff_of_false (fun ⟨_, h'⟩ => Reference.Softmax.invoke_scalar_ne_ok hrank h')
        fun hno => hno hrank
    · exact iff_of_true ⟨outputs, (softmax_eq_ok_iff (Nat.pos_of_ne_zero hrank)).mp h⟩ hrank
  · rw [List.forall_mem_cons, List.forall_mem_singleton] at hinputs
    exact exists_multiply_eq_ok_iff hinputs.1 hinputs.2 h
  · exact iff_of_true (exists_sum_eq_ok h) id

/-- An answer of a ready parallel kernel is one tensor. -/
theorem ParallelKernel.eq_singleton_of_invoke_eq_ok {op : ParallelOp}
    (hinvoke : Kernel.invoke (⟨op, true⟩ : ParallelKernel) inputs = .ok outputs) :
    ∃ output, outputs = [output] := by
  rcases invoke_eq_ok hinvoke with ⟨f, a, b, rfl, rfl, h⟩ | ⟨f, a, rfl, rfl, h⟩ |
    ⟨a, rfl, rfl, h⟩ | ⟨a, b, rfl, rfl, h⟩ | ⟨first, rest, rfl, rfl, h⟩
  · simp only [Parallel.binary, bind_eq_ok_iff] at h
    obtain ⟨_, -, _, -, _, -, _, -, h⟩ := h
    exact eq_singleton_of_answerFloats_eq_ok h
  · simp only [Parallel.unary, bind_eq_ok_iff] at h
    obtain ⟨_, -, _, -, h⟩ := h
    exact eq_singleton_of_answerFloats_eq_ok h
  · simp only [Parallel.softmax, bind_eq_ok_iff] at h
    obtain ⟨_, -, _, -, h⟩ := h
    exact eq_singleton_of_answerFloats_eq_ok h
  · obtain ⟨_, _, _, _, _, _, -, -, -, -, -, -, h⟩ := exists_of_matMul_eq_ok h
    exact eq_singleton_of_answerFloats_eq_ok h
  · obtain ⟨-, _, _, -, -, h⟩ := exists_of_sum_eq_ok h
    exact eq_singleton_of_answerFloats_eq_ok h

/-! ### Backends -/

/-- For an identity of an operator other than a sum the kernels of both backends, configured by the
same attributes, answer the same tensor where both succeed. -/
theorem Parallel.backend_outputs_eq {id : Identity} {p : ParallelKernel}
    (hp : Parallel.backend.find? id = some p)
    (hop : id.op ∈ ["Softmax", "Add", "Sub", "Mul", "Div", "Relu", "Sigmoid", "MatMul"]) :
    ∃ r, Reference.backend.find? id = some r ∧
      ∀ attrs p' r', Kernel.configure p attrs = (.ok (), p') →
        Kernel.configure r attrs = (.ok (), r') →
        ∀ inputs outputs outputs', Kernel.invoke p' inputs = .ok outputs →
          Kernel.invoke r' inputs = .ok outputs' →
          ∃ output, outputs = [output] ∧ outputs' = [output] := by
  obtain ⟨hfresh, hname, hr⟩ := reference_find? hp
  refine ⟨_, hr, fun attrs p' r' hp' hr' inputs outputs outputs' h h' => ?_⟩
  obtain ⟨op, ready⟩ := p
  obtain rfl : ready = false := hfresh
  obtain ⟨rfl, hreference⟩ := ParallelOp.configure_reference hp'
  obtain rfl : op.reference true = r' := (Prod.mk.inj (hreference.symm.trans hr')).2
  have hsum : op ≠ .sum := by
    rintro rfl
    rw [hname] at hop
    exact absurd hop (by decide)
  obtain ⟨output, rfl⟩ := ParallelKernel.eq_singleton_of_invoke_eq_ok h
  exact ⟨output, rfl, (ParallelOp.invoke_eq_reference hsum h h').symm⟩

/-- Both backends multiply the rows 1, 2 and 3, 4 by the columns 5, 7 and 6, 8: the entries are 19
and 22, and 43 and 50. -/
theorem Parallel.backend_outputs_eq_matMul :
    let a : Tensor := ⟨.f32, ⟨[2, 2]⟩,
      [0, 0, 0x80, 0x3f, 0, 0, 0, 0x40, 0, 0, 0x40, 0x40, 0, 0, 0x80, 0x40]⟩
    let b : Tensor := ⟨.f32, ⟨[2, 2]⟩,
      [0, 0, 0xa0, 0x40, 0, 0, 0xc0, 0x40, 0, 0, 0xe0, 0x40, 0, 0, 0, 0x41]⟩
    let c : Tensor := ⟨.f32, ⟨[2, 2]⟩,
      [0, 0, 0x98, 0x41, 0, 0, 0xb0, 0x41, 0, 0, 0x2c, 0x42, 0, 0, 0x48, 0x42]⟩
    Parallel.backend.find? ⟨"MatMul", "ai.onnx", 13⟩ = some ⟨.matMul, false⟩ ∧
      Kernel.invoke (⟨.matMul, true⟩ : ParallelKernel) [a, b] = .ok [c] ∧
      Kernel.invoke (.matMul ⟨true⟩ : ReferenceKernel) [a, b] = .ok [c] ∧
      ∃ output, [c] = [output] ∧ [c] = [output] := by
  intro a b c
  have hp : Parallel.backend.find? ⟨"MatMul", "ai.onnx", 13⟩ = some ⟨.matMul, false⟩ := rfl
  have h : Kernel.invoke (⟨.matMul, true⟩ : ParallelKernel) [a, b] = .ok [c] := by
    unfold a b c
    rfl
  have h' : Kernel.invoke (.matMul ⟨true⟩ : ReferenceKernel) [a, b] = .ok [c] := by
    unfold a b c
    rfl
  obtain ⟨r, hr, hagree⟩ := Parallel.backend_outputs_eq hp (by decide)
  obtain rfl : .matMul ⟨false⟩ = r := Option.some.inj hr
  exact ⟨hp, h, h', hagree .empty _ _ rfl rfl _ _ _ h h'⟩

/-- On well-formed tensors the reference backend answers wherever the parallel backend does, but for
a scalar under softmax and for a product with more entries than a machine word counts. -/
theorem Parallel.reference_accepts_iff {id : Identity} {p : ParallelKernel}
    (hp : Parallel.backend.find? id = some p) :
    ∃ r, Reference.backend.find? id = some r ∧
      ∀ attrs p' r', Kernel.configure p attrs = (.ok (), p') →
        Kernel.configure r attrs = (.ok (), r') →
        ∀ inputs, (∀ t ∈ inputs, t.WellFormed) →
          ∀ outputs, Kernel.invoke p' inputs = .ok outputs →
            ((∃ outputs', Kernel.invoke r' inputs = .ok outputs') ↔
              ¬ p.op.AcceptsAlone inputs) := by
  obtain ⟨hfresh, -, hr⟩ := reference_find? hp
  refine ⟨_, hr, fun attrs p' r' hp' hr' inputs hinputs outputs h => ?_⟩
  obtain ⟨op, ready⟩ := p
  obtain rfl : ready = false := hfresh
  obtain ⟨rfl, hreference⟩ := ParallelOp.configure_reference hp'
  obtain rfl : op.reference true = r' := (Prod.mk.inj (hreference.symm.trans hr')).2
  exact ParallelOp.exists_reference_eq_ok_iff hinputs h

/-- The reference backend normalizes the rows 1, 1 and 2, 1 of a matrix, like the parallel backend. -/
theorem Parallel.reference_accepts_softmax :
    let rows : Tensor := ⟨.f32, ⟨[2, 2]⟩,
      [0, 0, 0x80, 0x3f, 0, 0, 0x80, 0x3f, 0, 0, 0, 0x40, 0, 0, 0x80, 0x3f]⟩
    let softmax : Tensor := ⟨.f32, ⟨[2, 2]⟩,
      [0, 0, 0, 0x3f, 0, 0, 0, 0x3f, 0xa8, 0x26, 0x3b, 0x3f, 0xb1, 0xb2, 0x89, 0x3e]⟩
    rows.WellFormed ∧ Kernel.invoke (⟨.softmax, true⟩ : ParallelKernel) [rows] = .ok [softmax] ∧
      ∃ outputs, Kernel.invoke (.softmax ⟨.lane, some (-1)⟩ : ReferenceKernel) [rows] =
        .ok outputs := by
  intro rows softmax
  have hrows : rows.WellFormed := by
    unfold rows
    exact ⟨rfl, by decide⟩
  have h : Kernel.invoke (⟨.softmax, true⟩ : ParallelKernel) [rows] = .ok [softmax] := by
    unfold rows softmax
    decide +kernel
  have hp : Parallel.backend.find? ⟨"Softmax", "ai.onnx", 13⟩ = some ⟨.softmax, false⟩ := rfl
  obtain ⟨r, hr, haccepts⟩ := Parallel.reference_accepts_iff hp
  obtain rfl : .softmax ⟨.lane, none⟩ = r := Option.some.inj hr
  refine ⟨hrows, h, (haccepts .empty _ _ rfl rfl [rows] ?_ _ h).mpr ?_⟩
  · simpa using hrows
  · exact Nat.succ_ne_zero 1

/-- The parallel backend alone accepts a scalar under softmax, and a product whose number of entries
wraps to zero. -/
theorem Parallel.reference_rejects :
    let scalar : Tensor := ⟨.f32, ⟨[]⟩, [0, 0, 0x80, 0x3f]⟩
    let tall := Tensor.zeros 0x200000000 1
    let wide := Tensor.zeros 1 0x80000000
    (Parallel.backend.find? ⟨"Softmax", "ai.onnx", 13⟩ = some ⟨.softmax, false⟩ ∧
        Kernel.configure (⟨.softmax, false⟩ : ParallelKernel) .empty = (.ok (), ⟨.softmax, true⟩) ∧
        Reference.backend.find? ⟨"Softmax", "ai.onnx", 13⟩ = some (.softmax ⟨.lane, none⟩) ∧
        Kernel.configure (.softmax ⟨.lane, none⟩ : ReferenceKernel) .empty =
          (.ok (), .softmax ⟨.lane, some (-1)⟩) ∧
        scalar.WellFormed ∧
        Kernel.invoke (⟨.softmax, true⟩ : ParallelKernel) [scalar] = .ok [scalar] ∧
        Kernel.invoke (.softmax ⟨.lane, some (-1)⟩ : ReferenceKernel) [scalar] =
          .error (.axisRange (-1) 0)) ∧
      Parallel.backend.find? ⟨"MatMul", "ai.onnx", 13⟩ = some ⟨.matMul, false⟩ ∧
        Kernel.configure (⟨.matMul, false⟩ : ParallelKernel) .empty = (.ok (), ⟨.matMul, true⟩) ∧
        Reference.backend.find? ⟨"MatMul", "ai.onnx", 13⟩ = some (.matMul ⟨false⟩) ∧
        Kernel.configure (.matMul ⟨false⟩ : ReferenceKernel) .empty = (.ok (), .matMul ⟨true⟩) ∧
        tall.WellFormed ∧ wide.WellFormed ∧
        (∃ outputs, Kernel.invoke (⟨.matMul, true⟩ : ParallelKernel) [tall, wide] = .ok outputs) ∧
        ¬ ∃ outputs, Kernel.invoke (.matMul ⟨true⟩ : ReferenceKernel) [tall, wide] =
          .ok outputs := by
  intro scalar tall wide
  have hscalar : scalar.WellFormed := by
    unfold scalar
    exact ⟨rfl, by decide⟩
  have hsoftmax : Kernel.invoke (⟨.softmax, true⟩ : ParallelKernel) [scalar] = .ok [scalar] := by
    unfold scalar
    rfl
  have htall : tall.WellFormed := Tensor.wellFormed_zeros (by decide)
  have hwide : wide.WellFormed := Tensor.wellFormed_zeros (by decide)
  have hoverflow : Overflows tall wide :=
    ⟨0x200000000, 1, 0x80000000, rfl, rfl, Nat.one_pos, by decide⟩
  obtain ⟨outputs, hproduct⟩ : ∃ outputs, matMul inOrder tall wide = .ok outputs :=
    exists_matMul_eq_ok rfl rfl rfl rfl (by decide)
  clear_value tall wide
  refine ⟨⟨rfl, rfl, rfl, rfl, hscalar, hsoftmax, rfl⟩, rfl, rfl, rfl, rfl, htall, hwide,
    ⟨outputs, hproduct⟩, fun hreference => ?_⟩
  exact (exists_multiply_eq_ok_iff htall hwide hproduct).mp hreference hoverflow

end KernelDispatch
