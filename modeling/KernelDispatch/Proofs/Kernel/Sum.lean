import KernelDispatch.Proofs.Kernel.Elementwise
import KernelDispatch.Proofs.Number.SignedZero

/-!
# Sums of any number of operands

A sum goes through the shapes of its operands first, with one shape in hand that is replaced when
it counts a single element, and then adds one operand after another to the sums of all positions.
The shape that remains is the one that all operands share that are not single elements, in whatever
order they come; and each sum is the total of the elements at its position, the single ones
repeated.
-/

namespace KernelDispatch

variable {t : Tensor} {inputs : List Tensor} {n : Nat}

/-! ### The shape of many operands -/

/-- Whether a shape is that of all operands that are not single elements; if all are, it is that of
the first. -/
@[mk_iff] structure Shape.Common (shapes : List Shape) (s : Shape) : Prop where
  many : ∀ u ∈ shapes, u.count ≠ 1 → u = s
  single : (∀ u ∈ shapes, u.count = 1) → shapes.head? = some s

namespace Shape.Common

variable {u v s : Shape} {shapes : List Shape}

/-- The common shape of one operand is its own. -/
theorem singleton_iff : Common [u] s ↔ u = s := by
  simp only [common_iff, List.forall_mem_singleton, List.head?_cons, Option.some.injEq]
  by_cases hone : u.count = 1 <;> simp [hone]

/-- A second shape that is the first one or a single element changes nothing. -/
theorem cons_cons_iff_left (h : u = v ∨ v.count = 1) :
    Common (u :: v :: shapes) s ↔ Common (u :: shapes) s := by
  simp only [common_iff, List.forall_mem_cons, List.head?_cons, Option.some.injEq]
  rcases h with rfl | hone
  · tauto
  · simp [hone]

/-- A single element in front of another shape changes nothing. -/
theorem cons_cons_iff_right (hu : u.count = 1) (hv : v.count ≠ 1) :
    Common (u :: v :: shapes) s ↔ Common (v :: shapes) s := by
  simp [common_iff, hu, hv]

/-- Combining the first two shapes does not change what is common to all. -/
theorem cons_cons_iff (op : String) :
    Common (u :: v :: shapes) s ↔ ∃ r, pairShape op u v = .ok r ∧ Common (r :: shapes) s := by
  simp only [pairShape_eq_ok_iff]
  by_cases hleft : u = v ∨ v.count = 1
  · have hpair : u = v ∨ u.count = 1 ∨ v.count = 1 := hleft.imp_right .inr
    simp [hleft, hpair, cons_cons_iff_left hleft]
  by_cases hright : u.count = 1
  · simp [hleft, hright, cons_cons_iff_right hright fun hv => hleft (.inr hv)]
  · rw [not_or] at hleft
    refine iff_of_false (fun h => hleft.1 ?_) fun ⟨_, ⟨hpair, _⟩, _⟩ => ?_
    · exact (h.many u (by simp) hright).trans (h.many v (by simp) hleft.2).symm
    · exact hpair.elim hleft.1 fun h => h.elim hright hleft.2

/-- What remains when shapes are combined one after another is common to all of them. -/
theorem foldlM_pairShape_eq_ok_iff {op : String} :
    shapes.foldlM (pairShape op) u = .ok s ↔ Common (u :: shapes) s := by
  induction shapes generalizing u with
  | nil => exact Except.ok.injEq u s ▸ singleton_iff.symm
  | cons v shapes ih =>
    rw [List.foldlM_cons, bind_eq_ok_iff, cons_cons_iff op]
    exact exists_congr fun r => and_congr_right fun _ => ih

/-- There is a common shape exactly if no two shapes differ that are not single elements. -/
theorem exists_iff : (∃ s, Common (u :: shapes) s) ↔
    ∀ v ∈ u :: shapes, ∀ w ∈ u :: shapes, v.count ≠ 1 → w.count ≠ 1 → v = w := by
  constructor
  · rintro ⟨s, h⟩ v hv w hw hv1 hw1
    exact (h.many v hv hv1).trans (h.many w hw hw1).symm
  · intro h
    by_cases hsingle : ∀ v ∈ u :: shapes, v.count = 1
    · exact ⟨u, fun v hv hv1 => absurd (hsingle v hv) hv1, fun _ => rfl⟩
    · push Not at hsingle
      obtain ⟨w, hw, hw1⟩ := hsingle
      exact ⟨w, fun v hv hv1 => h v hv w hw hv1 hw1, fun hall => absurd (hall w hw) hw1⟩

/-- The common shape is one of the shapes. -/
theorem mem (h : Common (u :: shapes) s) : s ∈ u :: shapes := by
  by_cases hsingle : ∀ v ∈ u :: shapes, v.count = 1
  · obtain rfl := Option.some.inj (h.single hsingle)
    exact List.mem_cons_self
  · push Not at hsingle
    obtain ⟨w, hw, hw1⟩ := hsingle
    exact h.many w hw hw1 ▸ hw

/-- Operands fill the shape that is common to theirs. -/
theorem fills (h : Common (inputs.map (·.shape)) s) (ht : t ∈ inputs) : t.Fills s.count := by
  by_cases hone : t.count = 1
  · exact .inl hone
  · exact .inr (congrArg Shape.count (h.many t.shape (List.mem_map_of_mem ht) hone))

end Shape.Common

/-! ### The totals of all positions -/

namespace Reference.Sum

/-- The total of the numbers that the operands have for a position. -/
def totalAt (operands : List Tensor) (start : Binary32) (i : Nat) : Binary32 :=
  .total start (operands.map fun t => t.column.getD (t.repeated i) .zero)

/-- Adding an operand adds at every position the number that it has there. -/
theorem addOperand_eq_ok (ht : t.NumbersOf t.shape) (hfills : t.Fills n) (f : Nat → Binary32) :
    addOperand ((List.range n).map f) t =
      .ok ((List.range n).map fun i => f i + t.column.getD (t.repeated i) .zero) := by
  rw [addOperand, ht.readFloats_eq, ok_bind]
  refine mapM_zipIdx_map_range fun i hi => ?_
  have hsize : t.column.size = t.count := ht.size_column
  rw [hfills.readCyclic_eq_read hsize hi, read_of_lt (hsize ▸ hfills.repeated_lt hi)]
  rfl

/-- Adding operands one after another leaves the totals of all positions. -/
theorem foldlM_addOperand_eq_ok {operands : List Tensor}
    (hoperands : ∀ t ∈ operands, t.NumbersOf t.shape ∧ t.Fills n) (f : Nat → Binary32) :
    operands.foldlM addOperand ((List.range n).map f) =
      .ok ((List.range n).map fun i => totalAt operands (f i) i) := by
  induction operands generalizing f with
  | nil => rfl
  | cons t operands ih =>
    obtain ⟨ht, hrest⟩ := List.forall_mem_cons.mp hoperands
    rw [List.foldlM_cons, addOperand_eq_ok ht.1 ht.2, ok_bind, ih hrest]
    rfl

/-- What a sum does with one operand or more. -/
theorem invoke_cons (first : Tensor) (rest : List Tensor) :
    Sum.invoke ⟨true⟩ (first :: rest) = (do
      let shape ← (rest.map (·.shape)).foldlM (pairShape "Sum") first.shape
      let sums ← (first :: rest).foldlM addOperand (List.replicate shape.count .zero)
      answerFloats shape sums) := by
  rw [List.foldlM_map]
  rfl

/-- The sum of operands that have a shape in common. -/
theorem invoke_eq_answer {first : Tensor} {rest : List Tensor} {s : Shape}
    (hinputs : ∀ t ∈ first :: rest, t.NumbersOf t.shape)
    (hs : Shape.Common ((first :: rest).map (·.shape)) s) :
    Sum.invoke ⟨true⟩ (first :: rest) =
      answerFloats s ((List.range s.count).map (totalAt (first :: rest) .zero)) := by
  have hoperands : ∀ t ∈ first :: rest, t.NumbersOf t.shape ∧ t.Fills s.count := fun t ht =>
    ⟨hinputs t ht, hs.fills ht⟩
  have hstart : List.replicate s.count Binary32.zero =
      (List.range s.count).map fun _ => Binary32.zero := by simp
  rw [invoke_cons, Shape.Common.foldlM_pairShape_eq_ok_iff.mpr hs, ok_bind, hstart,
    foldlM_addOperand_eq_ok hoperands, ok_bind]

/-! ### What is accepted and what is answered -/

/-- Whether a sum accepts its inputs: there is one, all are tensors of numbers, and those that are
not single elements have one shape. -/
structure Accepted (inputs : List Tensor) : Prop where
  nonempty : inputs ≠ []
  numbers : ∀ t ∈ inputs, t.elementType = .f32
  agree : ∀ t ∈ inputs, ∀ t' ∈ inputs, t.count ≠ 1 → t'.count ≠ 1 → t.shape = t'.shape

/-- Whether a tensor is the sum of others: at each position the total, from zero, of what they have
for it in their order. -/
structure IsTotal (inputs : List Tensor) (s : Tensor) : Prop where
  wellFormed : s.WellFormed
  elementType : s.elementType = .f32
  shape : Shape.Common (inputs.map (·.shape)) s.shape
  totals : ∀ i < s.count, ∃ xs,
    List.Forall₂ (fun t x => t.number? (t.repeated i) = some x) inputs xs ∧
      s.number? i = some (.total .zero xs)

/-- What is added up was accepted. -/
theorem accepted_of_invoke_eq_ok {outputs : List Tensor}
    (h : Sum.invoke ⟨true⟩ inputs = .ok outputs) : Accepted inputs := by
  cases inputs with
  | nil => cases h
  | cons first rest =>
    rw [invoke_cons, bind_eq_ok_iff] at h
    obtain ⟨s, hs, h⟩ := h
    obtain ⟨sums, hsums, -⟩ := bind_eq_ok_iff.mp h
    refine ⟨List.cons_ne_nil _ _, fun t ht => ?_, fun t ht t' ht' hone hone' => ?_⟩
    · obtain ⟨-, hsteps⟩ := exists_step_of_foldlM_eq_ok (P := fun _ => True)
        (fun _ _ _ _ _ => trivial) trivial hsums
      obtain ⟨acc, next, -, hstep⟩ := hsteps t ht
      obtain ⟨values, hvalues, -⟩ := bind_eq_ok_iff.mp hstep
      exact elementType_of_readFloats_eq_ok hvalues
    · have hcommon : Shape.Common ((first :: rest).map (·.shape)) s :=
        Shape.Common.foldlM_pairShape_eq_ok_iff.mp hs
      exact (hcommon.many _ (List.mem_map_of_mem ht) hone).trans
        (hcommon.many _ (List.mem_map_of_mem ht') hone').symm

/-- Accepted operands are added up to their total. -/
theorem Accepted.exists_invoke_eq_ok (h : Accepted inputs) (hinputs : ∀ t ∈ inputs, t.WellFormed) :
    ∃ s, Sum.invoke ⟨true⟩ inputs = .ok [s] ∧ IsTotal inputs s := by
  cases inputs with
  | nil => exact absurd rfl h.nonempty
  | cons first rest =>
    have hnumbers : ∀ t ∈ first :: rest, t.NumbersOf t.shape := fun t ht =>
      .of_wellFormed (hinputs t ht) (h.numbers t ht)
    obtain ⟨s, hs⟩ : ∃ s, Shape.Common ((first :: rest).map (·.shape)) s := by
      refine Shape.Common.exists_iff.mpr ?_
      rw [← List.map_cons]
      simp only [List.forall_mem_map]
      exact h.agree
    obtain ⟨t, ht, rfl⟩ := List.mem_map.mp (show s ∈ (first :: rest).map (·.shape) from hs.mem)
    let values := (List.range t.shape.count).map (totalAt (first :: rest) .zero)
    have hvolume : values.length = volume t.shape.dims := by
      rw [List.length_map, List.length_range, (hinputs t ht).count_eq]
    have hbytes := (hinputs t ht).volume_mul_four_lt (h.numbers t ht)
    obtain ⟨hanswer, hwell, -⟩ := Tensor.answerFloats_eq_ofNumbers t.shape hvolume hbytes
    refine ⟨_, (invoke_eq_answer hnumbers hs).trans hanswer, hwell, rfl, hs, fun i hi => ?_⟩
    have hi : i < t.shape.count := hi
    refine ⟨(first :: rest).map fun t => t.column.getD (t.repeated i) .zero, ?_, ?_⟩
    · rw [List.forall₂_map_right_iff, List.forall₂_same]
      exact fun t ht => (hnumbers t ht).number?_eq ((hs.fills ht).repeated_lt hi)
    · rw [Tensor.number?_ofNumbers hvolume hbytes, List.getElem?_map, List.getElem?_range hi]
      rfl

/-- Whether operands are accepted does not depend on their order. -/
theorem Accepted.perm {inputs' : List Tensor} (h : Accepted inputs) (hperm : inputs.Perm inputs') :
    Accepted inputs' where
  nonempty hnil := h.nonempty (List.perm_nil.mp (hnil ▸ hperm))
  numbers t ht := h.numbers t (hperm.mem_iff.mpr ht)
  agree t ht t' ht' := h.agree t (hperm.mem_iff.mpr ht) t' (hperm.mem_iff.mpr ht')

/-- A configured sum accepts exactly what it should and answers the total of its operands at every
position. In another order the operands are accepted as well, and their sum has the same shape,
unless all are single elements. -/
theorem invoke_totals {k : Sum} (hk : k.ready = true) (hinputs : ∀ t ∈ inputs, t.WellFormed) :
    let sum := Kernel.invoke (.sum k : ReferenceKernel)
    ((∃ outputs, sum inputs = .ok outputs) ↔ Accepted inputs) ∧
      (∀ outputs, sum inputs = .ok outputs → ∃ s, outputs = [s] ∧ IsTotal inputs s) ∧
      ∀ inputs', inputs.Perm inputs' →
        ((∃ outputs, sum inputs' = .ok outputs) ↔ ∃ outputs, sum inputs = .ok outputs) ∧
        ∀ s s', sum inputs = .ok [s] → sum inputs' = .ok [s'] → (∃ t ∈ inputs, t.count ≠ 1) →
          s'.shape = s.shape := by
  intro sum
  obtain rfl : k = ⟨true⟩ := congrArg Sum.mk hk
  have haccepts {operands : List Tensor} (hoperands : ∀ t ∈ operands, t.WellFormed) :
      (∃ outputs, sum operands = .ok outputs) ↔ Accepted operands := by
    refine ⟨fun ⟨outputs, h⟩ => accepted_of_invoke_eq_ok h, fun h => ?_⟩
    obtain ⟨s, hs, -⟩ := h.exists_invoke_eq_ok hoperands
    exact ⟨[s], hs⟩
  have htotal {operands outputs : List Tensor} (hoperands : ∀ t ∈ operands, t.WellFormed)
      (h : sum operands = .ok outputs) : ∃ s, outputs = [s] ∧ IsTotal operands s := by
    obtain ⟨s, hs, htotal⟩ := (accepted_of_invoke_eq_ok h).exists_invoke_eq_ok hoperands
    exact ⟨s, Except.ok.inj (h.symm.trans hs), htotal⟩
  refine ⟨haccepts hinputs, fun outputs => htotal hinputs, fun inputs' hperm => ?_⟩
  have hinputs' : ∀ t ∈ inputs', t.WellFormed := fun t ht => hinputs t (hperm.mem_iff.mpr ht)
  refine ⟨?_, fun s s' hs hs' ⟨t, ht, hone⟩ => ?_⟩
  · rw [haccepts hinputs, haccepts hinputs']
    exact ⟨fun h => h.perm hperm.symm, fun h => h.perm hperm⟩
  · obtain ⟨_, ⟨⟩, hsum⟩ := htotal hinputs hs
    obtain ⟨_, ⟨⟩, hsum'⟩ := htotal hinputs' hs'
    have hshape := hsum.shape.many t.shape (List.mem_map_of_mem ht) hone
    have hshape' := hsum'.shape.many t.shape (List.mem_map_of_mem (hperm.mem_iff.mp ht)) hone
    exact hshape'.symm.trans hshape

/-- A single one beside one and two, in either order: the shape is that of the latter, and the sums
are two and three. -/
theorem invoke_totals_single :
    let a : Tensor := ⟨.f32, ⟨[1, 1]⟩, [0, 0, 0x80, 0x3f]⟩
    let b : Tensor := ⟨.f32, ⟨[2]⟩, [0, 0, 0x80, 0x3f, 0, 0, 0, 0x40]⟩
    let s : Tensor := ⟨.f32, ⟨[2]⟩, [0, 0, 0, 0x40, 0, 0, 0x40, 0x40]⟩
    let sum := Kernel.invoke (.sum ⟨true⟩ : ReferenceKernel)
    (∀ t ∈ [a, b], t.WellFormed) ∧ sum [a, b] = .ok [s] ∧ IsTotal [a, b] s ∧
      ∃ s', sum [b, a] = .ok [s'] ∧ s'.shape = ⟨[2]⟩ := by
  intro a b s sum
  have hinputs : ∀ t ∈ [a, b], t.WellFormed :=
    List.forall_mem_cons.mpr ⟨⟨rfl, by decide⟩, List.forall_mem_singleton.mpr ⟨rfl, by decide⟩⟩
  have hs : sum [a, b] = .ok [s] := by
    unfold sum a b s
    rfl
  have hs' : sum [b, a] = .ok [s] := by
    unfold sum a b s
    rfl
  obtain ⟨-, htotal, hperm⟩ := invoke_totals (k := ⟨true⟩) rfl hinputs
  obtain ⟨_, ⟨⟩, hsum⟩ := htotal [s] hs
  exact ⟨hinputs, hs, hsum, s, hs', (hperm [b, a] (.swap b a [])).2 s s hs hs'
    ⟨b, List.mem_cons_of_mem _ List.mem_cons_self, by decide⟩⟩

end Reference.Sum

end KernelDispatch
