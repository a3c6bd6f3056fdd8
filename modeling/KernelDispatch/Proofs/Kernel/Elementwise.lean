import KernelDispatch.Proofs.Agreement.Kernels
import KernelDispatch.Proofs.Safety.Outcome
import KernelDispatch.Proofs.Tensor.Numbers
import Mathlib.Data.List.Forall2

/-!
# Elementwise operations

Elementwise kernels accept operands of one shape, and single elements beside them, which are
repeated. For two operands this is one rule for numbers and for truth values, and for the reference
kernels and the parallel ones.
-/

namespace KernelDispatch

variable {α β : Type} {a b t : Tensor} {inputs outputs : List Tensor} {n i : Nat}

/-! ### Operands that are repeated -/

namespace Tensor

/-- The position that is read of an operand: that of its only element if there is no other. -/
def repeated (t : Tensor) (i : Nat) : Nat := if t.count = 1 then 0 else i

/-- An operand is read at every position that it has. -/
theorem repeated_of_lt (h : i < t.count) : t.repeated i = i := by
  rw [repeated]
  split <;> omega

/-- Whether an operand has an element for each of `n` positions, or one for all. -/
def Fills (n : Nat) (t : Tensor) : Prop := t.count = 1 ∨ t.count = n

/-- An operand that fills the positions has the one that is read for any of them. -/
theorem Fills.repeated_lt (h : t.Fills n) (hi : i < n) : t.repeated i < t.count := by
  rw [repeated]
  split
  · next hone => exact hone ▸ Nat.one_pos
  · next hone => exact (h.resolve_left hone).symm ▸ hi

/-- Reading an operand cyclically reads the position that is repeated. -/
theorem Fills.readCyclic_eq_read {xs : Array α} (h : t.Fills n) (hsize : xs.size = t.count)
    (hi : i < n) : readCyclic xs i = read xs (t.repeated i) := by
  have hlt := h.repeated_lt hi
  rw [readCyclic, if_neg (by omega), hsize]
  by_cases hone : t.count = 1
  · rw [repeated, if_pos hone, hone, Nat.mod_one]
  · rw [repeated, if_neg hone, h.resolve_left hone, Nat.mod_eq_of_lt hi]

end Tensor

/-! ### Operations on two operands -/

/-- An operation on two elements of one format. -/
structure ElementOperation where
  Element : Type
  format : ElementFormat Element
  apply : Element → Element → Element

namespace ElementOperation

/-- Which inputs an invocation accepts that applies the operation, and what it answers: there are
two operands of the type of the operation, of one shape or one of them a single element. -/
structure Rule (o : ElementOperation)
    (invoke : List Tensor → Except InvokeError (List Tensor)) : Prop where
  accepts_iff : ∀ inputs, (∀ t ∈ inputs, t.WellFormed) → ((∃ outputs, invoke inputs = .ok outputs) ↔
    ∃ a b, inputs = [a, b] ∧ (a.shape = b.shape ∨ a.count = 1 ∨ b.count = 1) ∧
      a.elementType = o.format.elementType ∧ b.elementType = o.format.elementType)
  answers : ∀ a b outputs, a.WellFormed → b.WellFormed → invoke [a, b] = .ok outputs →
    ∃ c, outputs = [c] ∧ c.WellFormed ∧ c.elementType = o.format.elementType ∧
      c.shape = (if a.shape = b.shape ∨ b.count = 1 then a.shape else b.shape) ∧
      ∀ i < c.count, ∃ x y, a.element? o.format (a.repeated i) = some x ∧
        b.element? o.format (b.repeated i) = some y ∧
        c.element? o.format i = some (o.apply x y)

variable {o : ElementOperation} {s : Shape}

end ElementOperation

/-- Invocations that succeed alike follow the same rules. -/
theorem ElementOperation.Rule.congr {o : ElementOperation}
    {invoke invoke' : List Tensor → Except InvokeError (List Tensor)} (h : o.Rule invoke)
    (hinvoke : ∀ inputs outputs, invoke' inputs = .ok outputs ↔ invoke inputs = .ok outputs) :
    o.Rule invoke' where
  accepts_iff inputs hinputs := by
    simp only [hinvoke]
    exact h.accepts_iff inputs hinputs
  answers a b outputs ha hb houtputs := h.answers a b outputs ha hb ((hinvoke _ _).mp houtputs)

/-- Which shapes are combined, and in which shape. -/
theorem pairShape_eq_ok_iff {op : String} {u v s : Shape} :
    pairShape op u v = .ok s ↔ (u = v ∨ u.count = 1 ∨ v.count = 1) ∧
      s = if u = v ∨ v.count = 1 then u else v := by
  rw [pairShape]
  by_cases heq : u = v
  · simp [heq, eq_comm]
  by_cases hv : v.count = 1
  · simp [heq, hv, eq_comm]
  by_cases hu : u.count = 1
  · simp [heq, hv, hu, eq_comm]
  · simp [heq, hv, hu]

namespace Reference

/-- The elements that an operation works on, and what it makes of two of them: the pattern of a sum,
difference, product or quotient of values, a number or if it is negative the pattern of its product
with the slope, or the truth of a condition. -/
def BinaryOp.operation : BinaryOp → ElementOperation
  | .arithmetic op => ⟨Binary32, .floats, fun x y => .ofValue (op.onValues x.value y.value)⟩
  | .prelu => ⟨Binary32, .floats, fun x slope =>
      if x.value < 0 then .ofValue (x.value * slope.value) else x⟩
  | .logical op => ⟨Bool, .bools, fun x y => decide (op.Holds x y)⟩

end Reference

end KernelDispatch
