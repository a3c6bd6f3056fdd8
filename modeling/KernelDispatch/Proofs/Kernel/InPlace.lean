import KernelDispatch.Proofs.Kernel.Lanes
import Mathlib.Data.List.Induction

/-!
# Normalizing in place

The loop that normalizes a buffer along a dimension without a second buffer: lane by lane it gathers
the numbers into a lane buffer, which all lanes share, normalizes them there and scatters them back.
After every pass the lanes it has come to are normalized and the others are as they were, so the
buffer that is left is the normalized one. It needs no shortcut for contiguous lanes.
-/

namespace KernelDispatch.Reference.Softmax

variable {n inner outer stride base : Nat} {data lane buffer : List Binary32}
  {xs : Array Binary32}

/-- Overwrite a lane buffer with the numbers of a lane. -/
def gather (xs : Array Binary32) (stride base : Nat) (buffer : List Binary32) :
    Except InvokeError (List Binary32) :=
  buffer.zipIdx.mapM fun c => read xs (base + c.2 * stride)

/-- Write a lane back to its positions. -/
def scatter (xs : Array Binary32) (stride base : Nat) (lane : List Binary32) :
    Except InvokeError (Array Binary32) :=
  lane.zipIdx.foldlM (fun xs c => update xs (base + c.2 * stride) fun _ => .ok c.1) xs

/-- Normalize one lane in place, through a lane buffer that keeps what it last held. -/
def normalizeLane (n stride base : Nat) (state : Array Binary32 × List Binary32) :
    Except InvokeError (Array Binary32 × List Binary32) := do
  let gathered ← gather state.1 stride base state.2
  let lane := softmaxRows n gathered
  return (← scatter state.1 stride base lane, lane)

/-- Gathering gives the lane, whatever the lane buffer held. -/
theorem gather_eq_ok (h : IsLane xs.toList n stride base lane) (hbuffer : buffer.length = n) :
    gather xs stride base buffer = .ok lane := by
  have hread : ∀ c ∈ buffer.zipIdx, read xs (base + c.2 * stride) = .ok (lane.getD c.2 .zero) := by
    intro c hc
    have hlt : c.2 < n := hbuffer ▸ List.snd_lt_of_mem_zipIdx hc
    have hcell := h.getElem?_eq c.2 hlt
    rw [Array.getElem?_toList] at hcell
    rw [read_eq_ok_iff, hcell]
    simp [h.length_eq, hlt]
  rw [gather, mapM_eq_ok_map hread]
  refine congrArg Except.ok (List.ext_getElem (by simp [hbuffer, h.length_eq]) fun j hj hj' => ?_)
  simp [hj']

/-- Scattering writes every number to its position and nothing anywhere else. -/
theorem exists_scatter_eq_ok (lane : List Binary32) (hstride : 0 < stride)
    (hinside : ∀ j < lane.length, base + j * stride < xs.size) :
    ∃ ys, scatter xs stride base lane = .ok ys ∧ ys.size = xs.size ∧
      (∀ j < lane.length, ys[base + j * stride]? = lane[j]?) ∧
      ∀ x, (∀ j < lane.length, x ≠ base + j * stride) → ys[x]? = xs[x]? := by
  induction lane using List.reverseRecOn with
  | nil => exact ⟨xs, rfl, rfl, nofun, fun _ _ => rfl⟩
  | append_singleton lane v ih =>
    rw [List.length_append, List.length_singleton] at hinside ⊢
    obtain ⟨ys, hys, hsize, hwritten, hkept⟩ := ih fun j hj => hinside j (Nat.lt_succ_of_lt hj)
    have hlast : base + lane.length * stride < ys.size :=
      hsize ▸ hinside lane.length (Nat.lt_succ_self _)
    refine ⟨ys.setIfInBounds (base + lane.length * stride) v, ?_, ?_, fun j hj => ?_,
      fun x hx => ?_⟩
    · rw [scatter, List.zipIdx_append, List.foldlM_append]
      refine bind_eq_ok_iff.mpr ⟨ys, hys, ?_⟩
      rw [List.zipIdx_singleton, List.foldlM_cons, Nat.zero_add]
      exact bind_eq_ok_iff.mpr ⟨_, update_eq_ok hlast v, rfl⟩
    · rw [Array.size_setIfInBounds, hsize]
    · rcases Nat.lt_succ_iff_lt_or_eq.mp hj with hbefore | rfl
      · -- the last write is behind the earlier ones
        have hless : j * stride < lane.length * stride :=
          Nat.mul_lt_mul_of_pos_right hbefore hstride
        rw [Array.getElem?_setIfInBounds_ne (by omega), List.getElem?_append_left hbefore]
        exact hwritten j hbefore
      · rw [Array.getElem?_setIfInBounds_self_of_lt hlast, List.getElem?_concat_length]
    · rw [Array.getElem?_setIfInBounds_ne (hx lane.length (Nat.lt_succ_self _)).symm]
      exact hkept x fun j hj => hx j (Nat.lt_succ_of_lt hj)

/-- A lane is a row of its own. -/
theorem softmaxRows_eq_softmaxRow (hlane : lane.length = n) :
    softmaxRows n lane = softmaxRow lane := by
  rw [softmaxRows]
  split
  · next hn =>
    obtain rfl : lane = [] := List.eq_nil_of_length_eq_zero (hlane.trans hn)
    rfl
  · next hn =>
    have hone : chunks n lane = [lane] := by
      conv => lhs; rw [← List.append_nil lane]
      exact chunks_append (Nat.pos_of_ne_zero hn) hlane []
    rw [hone, List.flatMap_singleton]

/-- Normalizing a lane in place replaces it by its softmax and leaves all other positions alone. -/
theorem exists_normalizeLane_eq_ok (hstride : 0 < stride)
    (h : IsLane xs.toList n stride base lane) (hbuffer : buffer.length = n) :
    ∃ ys, normalizeLane n stride base (xs, buffer) = .ok (ys, softmaxRow lane) ∧
      ys.size = xs.size ∧ IsLane ys.toList n stride base (softmaxRow lane) ∧
      ∀ x, (∀ j < n, x ≠ base + j * stride) → ys[x]? = xs[x]? := by
  have hlength : (softmaxRow lane).length = n := (length_softmaxRow lane).trans h.length_eq
  obtain ⟨ys, hys, hsize, hwritten, hkept⟩ :=
    exists_scatter_eq_ok (softmaxRow lane) hstride fun j hj => h.lt_length (hlength ▸ hj)
  rw [hlength] at hwritten hkept
  refine ⟨ys, ?_, hsize, ⟨hlength, fun j hj => ?_⟩, hkept⟩
  · simp only [normalizeLane, gather_eq_ok h hbuffer, softmaxRows_eq_softmaxRow h.length_eq, hys,
      ok_bind]
    rfl
  · rw [Array.getElem?_toList]
    exact hwritten j hj

/-! ### All lanes -/

/-- What a buffer and the lane buffer beside it are when some lanes have been normalized: these
lanes are the softmax of the original ones, and all others are the original ones. -/
structure Progress (outer n inner : Nat) (data : List Binary32) (visited : Nat → Nat → Prop)
    (state : Array Binary32 × List Binary32) : Prop where
  size_eq : state.1.size = data.length
  length_eq : state.2.length = n
  normalized : ∀ o < outer, ∀ i < inner, ∀ lane, IsLane data n inner (o * n * inner + i) lane →
    visited o i → IsLane state.1.toList n inner (o * n * inner + i) (softmaxRow lane)
  original : ∀ o < outer, ∀ i < inner, ∀ lane, IsLane data n inner (o * n * inner + i) lane →
    ¬ visited o i → IsLane state.1.toList n inner (o * n * inner + i) lane

namespace Progress

variable {visited visited' : Nat → Nat → Prop} {state : Array Binary32 × List Binary32} {o i : Nat}

/-- Before the first pass every lane is the original one. -/
theorem start (outer n inner : Nat) (data : List Binary32) :
    Progress outer n inner data (fun _ _ => False) (data.toArray, List.replicate n .zero) where
  size_eq := rfl
  length_eq := List.length_replicate
  normalized _ _ _ _ _ _ h := h.elim
  original _ _ _ _ _ h _ := h

/-- Which lanes have been normalized may be said in another way. -/
theorem congr (h : Progress outer n inner data visited state)
    (hvisited : ∀ o i, i < inner → (visited' o i ↔ visited o i)) :
    Progress outer n inner data visited' state where
  size_eq := h.size_eq
  length_eq := h.length_eq
  normalized o ho i hi lane hlane hv := h.normalized o ho i hi lane hlane ((hvisited o i hi).mp hv)
  original o ho i hi lane hlane hv :=
    h.original o ho i hi lane hlane fun hv' => hv ((hvisited o i hi).mpr hv')

/-- A pass normalizes one more lane. -/
theorem step (hlength : data.length = outer * n * inner)
    (h : Progress outer n inner data visited state) (ho : o < outer) (hi : i < inner)
    (hnew : ¬ visited o i) :
    ∃ state', normalizeLane n inner (o * n * inner + i) state = .ok state' ∧
      Progress outer n inner data (fun o' i' => visited o' i' ∨ o' = o ∧ i' = i) state' := by
  obtain ⟨lane, hlane⟩ := exists_isLane_of_length hlength ho hi
  have hpresent := h.original o ho i hi lane hlane hnew
  obtain ⟨ys, hys, hsize, hdone, hkept⟩ :=
    exists_normalizeLane_eq_ok (Nat.zero_lt_of_lt hi) hpresent h.length_eq
  -- the other lanes have no position in common with this one
  have hothers {o' i' : Nat} (hi' : i' < inner) (hne : ¬ (o' = o ∧ i' = i)) {lane' : List Binary32}
      (hlane' : IsLane state.1.toList n inner (o' * n * inner + i') lane') :
      IsLane ys.toList n inner (o' * n * inner + i') lane' := by
    refine hlane'.congr fun j hj => ?_
    rw [Array.getElem?_toList, Array.getElem?_toList]
    exact hkept _ fun j' hj' heq => hne (lane_position_inj hi' hi hj hj' heq)
  refine ⟨_, hys, hsize.trans h.size_eq, (length_softmaxRow lane).trans hlane.length_eq, ?_, ?_⟩
  · intro o' ho' i' hi' lane' hlane' hv
    by_cases hsame : o' = o ∧ i' = i
    · obtain ⟨rfl, rfl⟩ := hsame
      rwa [hlane'.unique hlane]
    · exact hothers hi' hsame
        (h.normalized o' ho' i' hi' lane' hlane' (hv.resolve_right hsame))
  · intro o' ho' i' hi' lane' hlane' hv
    rw [not_or] at hv
    exact hothers hi' hv.2 (h.original o' ho' i' hi' lane' hlane' hv.1)

/-- The inner loop normalizes the lanes of one block. -/
theorem block (hlength : data.length = outer * n * inner) (ho : o < outer)
    (h : Progress outer n inner data (fun o' _ => o' < o) state) :
    ∃ state', (List.range inner).foldlM (fun state i =>
        normalizeLane n inner (o * n * inner + i) state) state = .ok state' ∧
      Progress outer n inner data (fun o' _ => o' < o + 1) state' := by
  obtain ⟨state', hstate', h'⟩ := exists_foldlM_range_eq_ok
    (P := fun i => Progress outer n inner data fun o' i' => o' < o ∨ o' = o ∧ i' < i)
    (fun i hi state h => by
      obtain ⟨state', hstep, h'⟩ := h.step hlength ho hi (by omega)
      exact ⟨state', hstep, h'.congr fun o' i' _ => by omega⟩)
    (h.congr fun o' i' _ => by omega)
  exact ⟨state', hstate', h'.congr fun o' i' hi' => by omega⟩

end Progress

end KernelDispatch.Reference.Softmax
