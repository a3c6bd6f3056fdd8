import KernelDispatch.Backend.Builtin
import KernelDispatch.Proofs.Safety.Reference

/-!
# Built-in kernels are safe

The kernels of the parallel family are safe as their counterparts are, and together with these no
built-in kernel ever reads outside a buffer, repeats an empty operand or answers anything but one
well-formed tensor. Only a product can be larger than its operands, so all that is asked of the
inputs besides being well-formed is that the entries of a product can be counted. That there is room
for them does not follow: operands without elements can have a product beyond the bound of buffers,
and an empty tensor can have such a lane.
-/

namespace KernelDispatch

open Parallel

variable {a b : Tensor} {inputs : List Tensor} {buffers : Nat → Prop}

/-! ### Parallel kernels -/

namespace Parallel

/-- A parallel arithmetic operation is safe. -/
theorem safe_binary (op : Arithmetic) (ha : a.WellFormed) (hb : b.WellFormed) :
    Safe buffers Answer (binary inOrder op a b) := by
  refine (safe_pairShape _ ha.volume_lt hb.volume_lt).bind fun shape hshape => ?_
  refine (safe_readFloats ha).bind fun x hx => (safe_readFloats hb).bind fun y hy => ?_
  have hfits : volume shape.dims * 4 < wordSize :=
    hshape.volume_of_operands (· * 4 < wordSize) hx.2 hy.2
  have hvolume : volume shape.dims < wordSize :=
    hshape.volume_of_operands (· < wordSize) ha.volume_lt hb.volume_lt
  dsimp only
  rw [runTasks_zipCyclic]
  exact (hshape.safe_zipCyclic _ hx.1 hy.1 hvolume).bind fun values hvalues =>
    safe_answerFloats hvalues hfits

/-- A parallel softmax needs no buffer of its own for a lane. -/
theorem safe_softmax (ha : a.WellFormed) : Safe buffers Answer (softmax inOrder a) := by
  refine (safe_floats ha).bind fun data hdata => ?_
  dsimp only
  rw [runTasks_pure]
  refine safe_answerFloats ?_ hdata.2
  rw [length_flatMap_softmaxRow (by omega), hdata.1]

/-- The tasks of a product of matrices that are large enough make all its entries. -/
theorem safe_runTasks_accumulateRow {x y : Array Binary32} {m k n : Nat} (hx : m * k ≤ x.size)
    (hy : k * n ≤ y.size) (hfits : m * n < wordSize) :
    Safe buffers (fun entries => entries.length = m * n)
      (runTasks inOrder (fun i piece => Matrix.accumulateRow x y k n i piece)
        (chunks (max n 1) (List.replicate (extent [m, n]) .zero))) := by
  rcases Nat.eq_zero_or_pos n with rfl | hn
  · have hempty : extent [m, 0] = 0 := extent_concat_zero [m]
    rw [hempty]
    exact rfl
  · rw [runTasks_accumulateRow x y (fun _ => hfits) fun _ => hn]
    exact .of_eq_ok (Matrix.accumulate_eq_ok hx hy hfits) (Matrix.length_rowMajor m n _)

/-- A parallel product is safe if its entries can be counted. -/
theorem safe_matMul (ha : a.WellFormed) (hb : b.WellFormed)
    (hproduct : ∀ m k n, a.shape.dims = [m, k] → b.shape.dims = [k, n] →
      m * n < wordSize ∧ buffers (m * n)) : Safe buffers Answer (matMul inOrder a b) := by
  unfold matMul
  split
  · next m k kb n hleft hright =>
    split
    · trivial
    · next hk =>
      obtain rfl : k = kb := Decidable.not_not.mp hk
      obtain ⟨hcount, hbuffers⟩ := hproduct m k n hleft hright
      have hextent := Matrix.extent_pair_of_lt hcount
      have hvolume : volume [m, n] = m * n := by simp
      refine (safe_readFloats ha).bind fun x hx => (safe_readFloats hb).bind fun y hy => ?_
      have hsizeX : x.size = m * k := by simp [hx.1, hleft]
      have hsizeY : y.size = k * n := by simp [hy.1, hright]
      refine (safe_reserve fun _ => hextent.symm ▸ hbuffers).bind fun _ hroom => ?_
      rw [hextent] at hroom
      refine (safe_runTasks_accumulateRow (Nat.le_of_eq hsizeX.symm) (Nat.le_of_eq hsizeY.symm)
        hcount).bind fun entries hentries => ?_
      exact safe_answerFloats (hentries.trans hvolume.symm) (hvolume.symm ▸ bytes_lt_of_room hroom)
  · trivial

/-- A parallel sum is safe: its operands have one shape, so a position in one is one in all. -/
theorem safe_sum {first : Tensor} {rest : List Tensor}
    (hinputs : ∀ t ∈ first :: rest, t.WellFormed) :
    Safe buffers Answer (sum inOrder first rest) := by
  unfold sum
  split
  · trivial
  · next hshapes =>
    have hfirst := hinputs first List.mem_cons_self
    have hshape : ∀ t ∈ first :: rest, t.shape = first.shape :=
      List.forall_mem_cons.mpr ⟨rfl, by simpa using hshapes⟩
    have hcolumns : Safe buffers (fun columns => columns.length = (first :: rest).length ∧
        ∀ c ∈ columns, c.size = volume first.shape.dims ∧ volume first.shape.dims * 4 < wordSize)
        ((first :: rest).mapM readFloats) :=
      Safe.mapM fun t ht => hshape t ht ▸ safe_readFloats (hinputs t ht)
    refine hcolumns.bind fun columns ⟨hlength, hsizes⟩ => ?_
    obtain ⟨c, hc⟩ := List.exists_mem_of_length_pos (Nat.lt_of_lt_of_eq (Nat.succ_pos _) hlength.symm)
    dsimp only
    rw [runTasks_sums, Tensor.count, hfirst.count_eq]
    refine (Safe.tabulate fun i hi => Safe.foldlM (I := fun _ => True) (fun acc _ c hc => ?_)
      trivial).bind fun values hvalues => safe_answerFloats hvalues.1 (hsizes c hc).2
    exact (safe_read ((hsizes c hc).1 ▸ hi)).bind fun _ _ => trivial

end Parallel

/-- A parallel kernel is safe in every state if the entries of a product can be counted. -/
theorem ParallelKernel.safe_invoke (p : ParallelKernel) (hinputs : ∀ t ∈ inputs, t.WellFormed)
    (hproduct : ∀ a b m k n, p.op = .matMul → inputs = [a, b] → a.shape.dims = [m, k] →
      b.shape.dims = [k, n] → m * n < wordSize ∧ buffers (m * n)) :
    Safe buffers Answer (Kernel.invoke p inputs) := by
  change Safe buffers Answer (p.invokeScheduled inOrder inputs)
  unfold invokeScheduled
  split
  · trivial
  · split
    · obtain ⟨ha, hb⟩ := wellFormed_of_pair hinputs
      exact safe_binary _ ha hb
    · trivial
    · next a _ =>
      rw [unary_eq_invoke]
      exact Reference.Unary.safe_invoke _ hinputs
    · trivial
    · exact safe_softmax (hinputs _ List.mem_cons_self)
    · trivial
    · next a b hop =>
      obtain ⟨ha, hb⟩ := wellFormed_of_pair hinputs
      exact safe_matMul ha hb fun m k n => hproduct a b m k n hop rfl
    · trivial
    · exact safe_sum hinputs
    · trivial

/-! ### All kernels -/

/-- The shape of the product that a kernel is asked for. -/
inductive BuiltinKernel.ProductShape : BuiltinKernel → List Tensor → List Nat → Prop where
  | batched {k : Reference.MatMul} {a b : Tensor} {dims : List Nat}
      (shape : Reference.MatMul.ProductShape a b dims) :
      ProductShape (.inl (.matMul k)) [a, b] dims
  | general {g : Reference.Gemm} {a b : Tensor} {bias : List Tensor} {dims : List Nat}
      (shape : g.ProductShape a b dims) : ProductShape (.inl (.gemm g)) (a :: b :: bias) dims
  | parallel {ready : Bool} {a b : Tensor} {m k n : Nat} (left : a.shape.dims = [m, k])
      (right : b.shape.dims = [k, n]) : ProductShape (.inr ⟨.matMul, ready⟩) [a, b] [m, n]

/-- The sizes of the buffers that do not follow from the size of an operand: that for the entries of
a product, and that for a lane of a tensor without elements. -/
inductive BuiltinKernel.Buffer : BuiltinKernel → List Tensor → Nat → Prop where
  | entries {k : BuiltinKernel} {inputs : List Tensor} {dims : List Nat}
      (product : k.ProductShape inputs dims) : Buffer k inputs (volume dims)
  | lane {k : Reference.Softmax} {a : Tensor} {n : Nat} (lane : k.Buffer a n) :
      Buffer (.inl (.softmax k)) [a] n

/-- Every built-in kernel is safe in every state, if the entries of a product can be counted. -/
theorem safe_invoke {k : BuiltinKernel} (hinputs : ∀ t ∈ inputs, t.WellFormed)
    (hcount : ∀ dims, k.ProductShape inputs dims → volume dims < wordSize) :
    Safe (k.Buffer inputs) Answer (Kernel.invoke k inputs) := by
  have hproduct (dims : List Nat) (hdims : k.ProductShape inputs dims) :
      volume dims < wordSize ∧ k.Buffer inputs (volume dims) :=
    ⟨hcount dims hdims, .entries hdims⟩
  cases k with
  | inr p =>
    refine p.safe_invoke hinputs fun a b m k n hop hab hleft hright => ?_
    obtain ⟨op, ready⟩ := p
    subst hop hab
    simpa using hproduct [m, n] (.parallel hleft hright)
  | inl r =>
    cases r with
    | binary k => exact k.safe_invoke hinputs
    | unary k => exact k.safe_invoke hinputs
    | sum k => exact k.safe_invoke hinputs
    | softmax k =>
      exact k.safe_invoke hinputs fun a n ha hlane => ha ▸ .lane hlane
    | flatten k => exact k.safe_invoke hinputs
    | matMul k =>
      refine k.safe_invoke hinputs fun a b dims hab hshape => hproduct dims ?_
      exact hab ▸ .batched hshape
    | gemm g =>
      refine g.safe_invoke hinputs fun a b bias dims hab hshape => hproduct dims ?_
      exact hab ▸ .general hshape

end KernelDispatch
