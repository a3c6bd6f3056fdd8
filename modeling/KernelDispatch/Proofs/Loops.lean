import KernelDispatch.Parallel.Task
import Mathlib.Data.List.Forall2

/-!
# Loops over buffers

A loop that visits the cells of a buffer in order, and makes of each cell something that depends on
its number and its content alone, leaves what mapping over the numbered cells gives, and fails where
mapping fails. The cells need not be the elements of the buffer: a view says which buffer a list of
cells stands for, and an invariant of the cells may be assumed on the way.

Tasks that run one after another are such a loop over their pieces, and replacing elements of a flat
buffer in order is one over a segment of it.
-/

namespace KernelDispatch

variable {ε α β γ σ : Type}

/-- Two steps succeed if the first does and the second does on its result. -/
theorem bind_eq_ok_iff {x : Except ε α} {f : α → Except ε β} {b : β} :
    (x >>= f) = .ok b ↔ ∃ a, x = .ok a ∧ f a = .ok b := by
  cases x with
  | error e => simp [bind, Except.bind]
  | ok a => simp [bind, Except.bind]

/-- Two steps fail if the first does, or the second does on its result. -/
theorem bind_eq_error_iff {x : Except ε α} {f : α → Except ε β} {e : ε} :
    (x >>= f) = .error e ↔ x = .error e ∨ ∃ a, x = .ok a ∧ f a = .error e := by
  cases x with
  | error e => simp [bind, Except.bind]
  | ok a => simp [bind, Except.bind]

/-- A step behind a result is taken on it. -/
@[simp] theorem ok_bind (a : α) (f : α → Except ε β) : (Except.ok a >>= f) = f a := rfl

/-- A changed result is that of a success. -/
theorem map_eq_ok_iff {x : Except ε α} {f : α → β} {b : β} :
    x.map f = .ok b ↔ ∃ a, x = .ok a ∧ f a = b := by
  cases x <;> simp [Except.map]

/-- Changing the result changes no failure. -/
theorem map_eq_error_iff {x : Except ε α} {f : α → β} {e : ε} :
    x.map f = .error e ↔ x = .error e := by
  cases x <;> simp [Except.map]

/-- Changing the error changes no success. -/
theorem mapError_eq_ok_iff {δ : Type} {x : Except ε α} {f : ε → δ} {a : α} :
    x.mapError f = .ok a ↔ x = .ok a := by
  cases x with
  | ok a' =>
    have hok : (Except.ok a' : Except ε α).mapError f = .ok a' := rfl
    rw [hok, Except.ok.injEq, Except.ok.injEq]
  | error e => exact iff_of_false nofun nofun

/-- Changing a result is a step that succeeds. -/
theorem map_eq_bind (x : Except ε α) (f : α → β) : x.map f = x >>= fun a => .ok (f a) := by
  cases x <;> rfl

/-- Lists that are related element by element end at the same place. -/
theorem getElem?_eq_none_of_forall₂ {R : α → β → Prop} {xs : List α} {ys : List β}
    (h : List.Forall₂ R xs ys) {i : Nat} (hi : xs[i]? = none) : ys[i]? = none := by
  rw [List.getElem?_eq_none_iff] at hi ⊢
  exact h.length_eq ▸ hi

/-- The elements at one place of such lists are related. -/
theorem exists_getElem?_of_forall₂ {R : α → β → Prop} {xs : List α} {ys : List β}
    (h : List.Forall₂ R xs ys) {i : Nat} {x : α} (hi : xs[i]? = some x) :
    ∃ y, ys[i]? = some y ∧ R x y := by
  obtain ⟨hlt, rfl⟩ := List.getElem?_eq_some_iff.mp hi
  have hlt' : i < ys.length := h.length_eq ▸ hlt
  exact ⟨ys[i], List.getElem?_eq_getElem hlt', h.get hlt hlt'⟩

/-- Each element of one of such lists is related to one of the other. -/
theorem exists_mem_of_forall₂ {R : α → β → Prop} {xs : List α} {ys : List β}
    (h : List.Forall₂ R xs ys) {x : α} (hx : x ∈ xs) : ∃ y ∈ ys, R x y := by
  obtain ⟨i, hi⟩ := List.mem_iff_getElem?.mp hx
  obtain ⟨y, hy, hR⟩ := exists_getElem?_of_forall₂ h hi
  exact ⟨y, List.mem_of_getElem? hy, hR⟩

/-- Mapping succeeds if it succeeds on every element, with the values in order. -/
theorem mapM_eq_ok_iff {f : α → Except ε β} {xs : List α} {ys : List β} :
    xs.mapM f = .ok ys ↔ List.Forall₂ (fun x y => f x = .ok y) xs ys := by
  induction xs generalizing ys with
  | nil =>
    rw [List.forall₂_nil_left_iff]
    exact ⟨fun h => (Except.ok.inj h).symm, fun h => h ▸ rfl⟩
  | cons x xs ih =>
    simp only [List.mapM_cons, bind_eq_ok_iff, ih, List.forall₂_cons_left_iff]
    constructor
    · rintro ⟨y, hy, rest, hrest, h⟩
      exact ⟨y, rest, hy, hrest, (Except.ok.inj h).symm⟩
    · rintro ⟨y, rest, hy, hrest, rfl⟩
      exact ⟨y, hy, rest, hrest, rfl⟩

/-- Mapping that succeeds has succeeded on every element, whose value is among the results. -/
theorem exists_mem_of_mapM_eq_ok {f : α → Except ε β} {xs : List α} {ys : List β}
    (h : xs.mapM f = .ok ys) : ∀ x ∈ xs, ∃ y ∈ ys, f x = .ok y :=
  fun _ hx => exists_mem_of_forall₂ (mapM_eq_ok_iff.mp h) hx

/-- Each result of a mapping that succeeds is that of an element. -/
theorem exists_origin_of_mapM_eq_ok {f : α → Except ε β} {xs : List α} {ys : List β}
    (h : xs.mapM f = .ok ys) : ∀ y ∈ ys, ∃ x ∈ xs, f x = .ok y :=
  fun _ hy => exists_mem_of_forall₂ (mapM_eq_ok_iff.mp h).flip hy

/-- Mapping that succeeds has succeeded at every position. -/
theorem exists_getElem?_of_mapM_eq_ok {f : α → Except ε β} {xs : List α} {ys : List β}
    (h : xs.mapM f = .ok ys) {i : Nat} {x : α} (hx : xs[i]? = some x) :
    ∃ y, f x = .ok y ∧ ys[i]? = some y := by
  obtain ⟨y, hy, hfx⟩ := exists_getElem?_of_forall₂ (mapM_eq_ok_iff.mp h) hx
  exact ⟨y, hfx, hy⟩

/-- Mapping succeeds if it succeeds on every element. -/
theorem exists_mapM_eq_ok {f : α → Except ε β} {xs : List α} (h : ∀ x ∈ xs, ∃ y, f x = .ok y) :
    ∃ ys, xs.mapM f = .ok ys := by
  induction xs with
  | nil => exact ⟨[], rfl⟩
  | cons x xs ih =>
    rw [List.forall_mem_cons] at h
    obtain ⟨y, hy⟩ := h.1
    obtain ⟨ys, hys⟩ := ih h.2
    exact ⟨y :: ys, by rw [List.mapM_cons, hy, hys]; rfl⟩

/-- Mapping by steps that all succeed is mapping by what they give. -/
theorem mapM_eq_ok_map {f : α → Except ε β} {g : α → β} {xs : List α}
    (h : ∀ x ∈ xs, f x = .ok (g x)) : xs.mapM f = .ok (xs.map g) :=
  mapM_eq_ok_iff.mpr (List.forall₂_map_right_iff.mpr (List.forall₂_same.mpr h))

/-- Mapping keeps the number of elements. -/
theorem length_of_mapM_eq_ok {f : α → Except ε β} {xs : List α} {ys : List β}
    (h : xs.mapM f = .ok ys) : ys.length = xs.length :=
  (mapM_eq_ok_iff.mp h).length_eq.symm

/-- Mapping to lists of one element and joining them is mapping to the elements. -/
theorem mapM_singleton_flatten (f : α → Except ε β) (xs : List α) :
    (xs.mapM fun x => (f x).map ([·])).map List.flatten = xs.mapM f := by
  induction xs with
  | nil => rfl
  | cons x xs ih =>
    rw [List.mapM_cons, List.mapM_cons, ← ih]
    cases f x with
    | error e => rfl
    | ok y => cases xs.mapM fun x => (f x).map ([·]) <;> rfl

/-- Pieces of one length join to a multiple of it. -/
theorem length_flatten_of_forall {n : Nat} {pieces : List (List α)}
    (h : ∀ piece ∈ pieces, piece.length = n) : pieces.flatten.length = pieces.length * n := by
  rw [List.length_flatten, List.map_eq_replicate_iff.mpr h, List.sum_replicate_nat]

/-- In pieces of one length every position is one of a piece. -/
theorem getElem?_flatten_of_forall {n : Nat} {pieces : List (List α)}
    (h : ∀ piece ∈ pieces, piece.length = n) {i j : Nat} {piece : List α}
    (hpiece : pieces[i]? = some piece) (hj : j < n) :
    pieces.flatten[i * n + j]? = piece[j]? := by
  induction pieces generalizing i with
  | nil => cases hpiece
  | cons first rest ih =>
    obtain ⟨hfirst, hrest⟩ := List.forall_mem_cons.mp h
    rw [List.flatten_cons]
    cases i with
    | zero =>
      obtain rfl : first = piece := Option.some.inj hpiece
      rw [Nat.zero_mul, Nat.zero_add, List.getElem?_append_left (hfirst ▸ hj)]
    | succ i =>
      have hskip : (i + 1) * n + j = first.length + (i * n + j) := by
        rw [hfirst, Nat.succ_mul]
        omega
      rw [hskip, List.getElem?_append_right (Nat.le_add_right _ _), Nat.add_sub_cancel_left]
      exact ih hrest hpiece

/-- Mapping over equal cells with their numbers is mapping over the numbers. -/
theorem mapM_zipIdx_replicate (f : Nat → α → Except ε β) (n : Nat) (x : α) :
    ((List.replicate n x).zipIdx.mapM fun c => f c.2 c.1) = (List.range n).mapM fun i => f i x := by
  rw [List.range_eq_range']
  generalize 0 = start
  induction n generalizing start with
  | zero => rfl
  | succ n ih =>
    rw [List.replicate_succ, List.zipIdx_cons, List.range'_succ, List.mapM_cons, List.mapM_cons, ih]

/-- Mapping over the numbered values of a function is mapping over the numbers. -/
theorem mapM_zipIdx_map_range {g : α × Nat → Except ε β} {f : Nat → α} {z : Nat → β} {n : Nat}
    (h : ∀ i < n, g (f i, i) = .ok (z i)) :
    ((List.range n).map f).zipIdx.mapM g = .ok ((List.range n).map z) := by
  have hcells : ((List.range n).map f).zipIdx = (List.range n).map fun i => (f i, i) :=
    List.ext_getElem (by simp) (by simp)
  rw [hcells, List.mapM_map]
  exact mapM_eq_ok_map fun i hi => h i (List.mem_range.mp hi)

/-- Loops whose steps agree on the elements of a list agree on the list. -/
theorem foldlM_congr {f g : σ → α → Except ε σ} {xs : List α} (h : ∀ s, ∀ x ∈ xs, f s x = g s x)
    (s : σ) : xs.foldlM f s = xs.foldlM g s := by
  induction xs generalizing s with
  | nil => rfl
  | cons x xs ih =>
    rw [List.foldlM_cons, List.foldlM_cons, h s x List.mem_cons_self]
    have hrest : ∀ s, ∀ y ∈ xs, f s y = g s y := fun s y hy => h s y (List.mem_cons_of_mem _ hy)
    exact congrArg (g s x >>= ·) (funext (ih hrest))

/-- A loop whose passes all leave the state as it is leaves it as it is. -/
theorem foldlM_eq_ok_of_fixed {step : σ → α → Except ε σ} {s : σ} {xs : List α}
    (h : ∀ x ∈ xs, step s x = .ok s) : xs.foldlM step s = .ok s := by
  induction xs with
  | nil => rfl
  | cons x xs ih =>
    rw [List.forall_mem_cons] at h
    rw [List.foldlM_cons, h.1]
    exact ih h.2

/-- A loop that keeps an invariant and succeeds from every state with the invariant succeeds. -/
theorem exists_foldlM_eq_ok {P : σ → Prop} {step : σ → α → Except ε σ} {xs : List α}
    (h : ∀ s, P s → ∀ x ∈ xs, ∃ t, step s x = .ok t ∧ P t) {s : σ} (hs : P s) :
    ∃ t, xs.foldlM step s = .ok t ∧ P t := by
  induction xs generalizing s with
  | nil => exact ⟨s, rfl, hs⟩
  | cons x xs ih =>
    obtain ⟨t, hstep, ht⟩ := h s hs x List.mem_cons_self
    obtain ⟨u, hrest, hu⟩ := ih (fun s hs x hx => h s hs x (List.mem_cons_of_mem _ hx)) ht
    exact ⟨u, by rw [List.foldlM_cons, hstep]; exact hrest, hu⟩

/-- In a loop that succeeds and keeps an invariant, every pass succeeds from a state with the
invariant. -/
theorem exists_step_of_foldlM_eq_ok {P : σ → Prop} {step : σ → α → Except ε σ} {xs : List α}
    (hkeep : ∀ s x t, P s → step s x = .ok t → P t) {s t : σ} (hs : P s)
    (h : xs.foldlM step s = .ok t) : P t ∧ ∀ x ∈ xs, ∃ u v, P u ∧ step u x = .ok v := by
  induction xs generalizing s with
  | nil =>
    obtain rfl : s = t := Except.ok.inj h
    exact ⟨hs, by simp⟩
  | cons x xs ih =>
    rw [List.foldlM_cons, bind_eq_ok_iff] at h
    obtain ⟨u, hstep, hrest⟩ := h
    obtain ⟨ht, hpasses⟩ := ih (hkeep s x u hs hstep) hrest
    exact ⟨ht, List.forall_mem_cons.mpr ⟨⟨s, u, hs, hstep⟩, hpasses⟩⟩

/-- A loop over numbers whose passes each advance an invariant by one ends with the invariant of
the last pass. -/
theorem exists_foldlM_range_eq_ok {P : Nat → σ → Prop} {step : σ → Nat → Except ε σ} {n : Nat}
    (h : ∀ i < n, ∀ s, P i s → ∃ t, step s i = .ok t ∧ P (i + 1) t) {s : σ} (hs : P 0 s) :
    ∃ t, (List.range n).foldlM step s = .ok t ∧ P n t := by
  induction n with
  | zero => exact ⟨s, rfl, hs⟩
  | succ n ih =>
    obtain ⟨t, ht, hP⟩ := ih fun i hi => h i (Nat.lt_succ_of_lt hi)
    obtain ⟨u, hu, hP'⟩ := h n (Nat.lt_succ_self n) t hP
    exact ⟨u, by rw [List.range_succ, List.foldlM_append, ht, ok_bind, List.foldlM_cons, hu]; rfl,
      hP'⟩

/-- A loop whose passes commute where they succeed gives the same in any order of them. -/
theorem foldlM_eq_ok_iff_of_perm {step : σ → α → Except ε σ}
    (hcomm : ∀ s x y u, (step s x >>= fun t => step t y) = .ok u →
      (step s y >>= fun t => step t x) = .ok u)
    {xs ys : List α} (h : xs.Perm ys) {s u : σ} :
    xs.foldlM step s = .ok u ↔ ys.foldlM step s = .ok u := by
  induction h generalizing s with
  | nil => rfl
  | cons x _ ih => simp only [List.foldlM_cons, bind_eq_ok_iff, ih]
  | swap x y rest =>
    simp only [List.foldlM_cons, ← bind_assoc]
    rw [bind_eq_ok_iff, bind_eq_ok_iff]
    exact exists_congr fun t => and_congr_left fun _ => ⟨hcomm s y x t, hcomm s x y t⟩
  | trans _ _ ih ih' => exact ih.trans ih'

/-- A loop over buffers that does in view what a loop over cells does gives the view of its
outcome. -/
theorem foldlM_view {P : β → Prop} (view : β → σ) {step : σ → α → Except ε σ}
    {cellStep : β → α → Except ε β} (hkeep : ∀ b x b', P b → cellStep b x = .ok b' → P b')
    (hstep : ∀ b x, P b → step (view b) x = (cellStep b x).map view) (xs : List α) {b : β}
    (hb : P b) : xs.foldlM step (view b) = (xs.foldlM cellStep b).map view := by
  induction xs generalizing b with
  | nil => rfl
  | cons x xs ih =>
    rw [List.foldlM_cons, List.foldlM_cons, hstep b x hb]
    cases hcell : cellStep b x with
    | error e => rfl
    | ok b' => exact ih (hkeep b x b' hb hcell)

/-- A loop that rewrites the cells of a buffer in order maps over its numbered cells. -/
theorem foldlM_range_eq_mapM_zipIdx {P : β → Prop} (view : List β → σ)
    {step : σ → Nat → Except ε σ} {f : Nat → β → Except ε β}
    (hkeep : ∀ i x y, P x → f i x = .ok y → P y)
    (hstep : ∀ done x rest, (∀ y ∈ done, P y) → P x →
      step (view (done ++ x :: rest)) done.length =
        (f done.length x).map fun y => view (done ++ y :: rest))
    {cells : List β} (hcells : ∀ x ∈ cells, P x) :
    (List.range cells.length).foldlM step (view cells) =
      (cells.zipIdx.mapM fun c => f c.2 c.1).map view := by
  -- the cells already rewritten go through the induction as a list of their own
  suffices h : ∀ todo done : List β, (∀ y ∈ done, P y) → (∀ x ∈ todo, P x) →
      (List.range' done.length todo.length).foldlM step (view (done ++ todo)) =
        ((todo.zipIdx done.length).mapM fun c => f c.2 c.1).map fun rest => view (done ++ rest) by
    simpa only [List.range_eq_range', List.length_nil, List.nil_append] using
      h cells [] (by simp) hcells
  intro todo
  induction todo with
  | nil => intro done _ _; rfl
  | cons x rest ih =>
    intro done hdone htodo
    rw [List.forall_mem_cons] at htodo
    rw [List.length_cons, List.range'_succ, List.foldlM_cons, hstep done x rest hdone htodo.1,
      List.zipIdx_cons, List.mapM_cons]
    cases hf : f done.length x with
    | error e => rfl
    | ok y =>
      have hdone' : ∀ z ∈ done ++ [y], P z := by
        simpa [or_imp, forall_and] using ⟨hdone, hkeep _ _ _ htodo.1 hf⟩
      have hrest := ih (done ++ [y]) hdone' htodo.2
      simp only [List.length_append, List.length_singleton, List.append_assoc,
        List.singleton_append] at hrest
      refine hrest.trans ?_
      cases (rest.zipIdx (done.length + 1)).mapM fun c => f c.2 c.1 <;> rfl

/-- Behind the elements done stands the first of the rest. -/
theorem read_append_length (done rest : List α) (x : α) :
    read (done ++ x :: rest).toArray done.length = .ok x := by
  simp [read]

/-- Replacing the element behind those done leaves the others. -/
theorem setIfInBounds_append_length (done rest : List α) (x y : α) :
    (done ++ x :: rest).toArray.setIfInBounds done.length y = (done ++ y :: rest).toArray := by
  simp

/-- A read succeeds with the element at the position. -/
theorem read_eq_ok_iff {xs : Array α} {i : Nat} {x : α} : read xs i = .ok x ↔ xs[i]? = some x := by
  cases h : xs[i]? <;> simp [read, h]

/-- A read inside a buffer succeeds. -/
theorem exists_read_eq_ok {xs : Array α} {i : Nat} (h : i < xs.size) : ∃ x, read xs i = .ok x :=
  ⟨xs[i], read_eq_ok_iff.mpr (Array.getElem?_eq_getElem h)⟩

/-- A read inside a buffer of numbers gives the number there. -/
theorem read_of_lt {xs : Array Binary32} {i : Nat} (h : i < xs.size) :
    read xs i = .ok (xs.getD i .zero) := by
  rw [read_eq_ok_iff]
  simp [h]

/-- A cyclic read of a buffer that is not empty succeeds. -/
theorem exists_readCyclic_eq_ok {xs : Array α} (h : 0 < xs.size) (i : Nat) :
    ∃ x, readCyclic xs i = .ok x := by
  rw [readCyclic, if_neg (Nat.ne_of_gt h)]
  exact exists_read_eq_ok (Nat.mod_lt i h)

/-- There is room for a buffer exactly if its bytes are fewer than the bound. -/
theorem reserve_eq_ok_iff {n : Nat} {u : Unit} : reserve n = .ok u ↔ n * 4 < bufferBound := by
  unfold reserve ElementType.size
  split <;> simp_all

/-- Room that there is, is there whenever it is asked for. -/
theorem reserve_of_lt {n : Nat} (h : n * 4 < bufferBound) : reserve n = .ok () :=
  reserve_eq_ok_iff.mpr h

/-- The bytes of numbers for which there is room can be counted. -/
theorem bytes_lt_of_room {n : Nat} (h : n * 4 < bufferBound) : n * 4 < wordSize :=
  Nat.lt_of_lt_of_le h (Nat.div_le_self _ _)

/-- Numbers for which there is room can be counted. -/
theorem lt_wordSize_of_room {n : Nat} (h : n * 4 < bufferBound) : n < wordSize :=
  Nat.lt_of_le_of_lt (Nat.le_mul_of_pos_right n (by decide)) (bytes_lt_of_room h)

/-- Beyond the bound there is no room. -/
theorem reserve_of_le {n : Nat} (h : bufferBound ≤ n * 4) : reserve n = .error (.capacity n) :=
  if_neg (Nat.not_lt_of_le h)

/-- A computation that fails for lack of room, and only then, succeeds exactly if there is room. -/
theorem exists_eq_ok_iff_room {x : Except InvokeError α} {n : Nat}
    (hroom : n * 4 < bufferBound → ∃ a, x = .ok a)
    (hfull : bufferBound ≤ n * 4 → x = .error (.capacity n)) :
    (∃ a, x = .ok a) ↔ n * 4 < bufferBound := by
  refine ⟨fun ⟨a, ha⟩ => Nat.lt_of_not_le fun hle => ?_, hroom⟩
  cases ha.symm.trans (hfull hle)

/-- A read that succeeds is inside the buffer. -/
theorem lt_size_of_read_eq_ok {xs : Array α} {i : Nat} {x : α} (h : read xs i = .ok x) :
    i < xs.size :=
  (Array.getElem?_eq_some_iff.mp (read_eq_ok_iff.mp h)).1

/-- An element can be replaced only inside the buffer, which keeps its size. -/
theorem bounds_of_update_eq_ok {xs ys : Array α} {i : Nat} {f : α → Except InvokeError α}
    (h : update xs i f = .ok ys) : i < xs.size ∧ ys.size = xs.size := by
  rw [update, bind_eq_ok_iff] at h
  obtain ⟨x, hread, h⟩ := h
  obtain ⟨y, -, h⟩ := bind_eq_ok_iff.mp h
  obtain rfl : xs.setIfInBounds i y = ys := Except.ok.inj h
  exact ⟨lt_size_of_read_eq_ok hread, Array.size_setIfInBounds⟩

/-- Inside the buffer an element is replaced where it stands. -/
theorem update_eq_ok {xs : Array α} {i : Nat} (h : i < xs.size) (y : α) :
    update xs i (fun _ => .ok y) = .ok (xs.setIfInBounds i y) := by
  obtain ⟨x, hx⟩ := exists_read_eq_ok h
  rw [update, hx]
  rfl

/-- Replacing the element behind a front part replaces it there. -/
theorem update_append_length (done rest : List α) (x : α) (f : α → Except InvokeError α) :
    update (done ++ x :: rest).toArray done.length f =
      (f x).map fun y => (done ++ y :: rest).toArray := by
  rw [update, read_append_length, map_eq_bind]
  simp only [setIfInBounds_append_length]
  rfl

namespace Parallel

/-- Tasks that run from the first to the last each make of their own piece what they would make of
it alone, and the pieces are joined in order. -/
theorem runTasks_inOrder (task : Task) (pieces : List (List Binary32)) :
    runTasks inOrder task pieces =
      (pieces.zipIdx.mapM fun c => task c.2 c.1).map List.flatten := by
  have hstep : ∀ (done : List (List Binary32)) (x : List Binary32) (rest : List (List Binary32)),
      (∀ y ∈ done, True) → True →
        runTask task (done ++ x :: rest).toArray done.length =
          (task done.length x).map fun y => (done ++ y :: rest).toArray := by
    intro done x rest _ _
    have hpiece : (done ++ x :: rest).toArray[done.length]? = some x := by simp
    simp only [runTask, hpiece]
    exact congrArg (Except.map · _) (funext (setIfInBounds_append_length done rest x))
  have hloop : (List.range pieces.length).foldlM (runTask task) pieces.toArray =
      (pieces.zipIdx.mapM fun c => task c.2 c.1).map List.toArray :=
    foldlM_range_eq_mapM_zipIdx List.toArray (fun _ _ _ _ _ => trivial) hstep fun _ _ => trivial
  rw [runTasks, inOrder, hloop]
  cases pieces.zipIdx.mapM fun c => task c.2 c.1 <;> rfl

end Parallel

end KernelDispatch
