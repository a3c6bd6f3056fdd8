/-!
# Cutting a list into chunks

A list is cut from the front into pieces of one size; only the last piece may be shorter. Joining
the pieces gives the list back.
-/

namespace KernelDispatch

/-- Cut off at most `fuel` pieces of size `n`. -/
def chunksUpTo {α : Type} (n : Nat) : Nat → List α → List (List α)
  | 0, _ => []
  | _ + 1, [] => []
  | fuel + 1, x :: xs => (x :: xs).take n :: chunksUpTo n fuel ((x :: xs).drop n)

/-- The pieces of size `n` of a list, the last one possibly shorter. Each piece takes at least one
element when `n` is positive, so there are never more pieces than elements. -/
def chunks {α : Type} (n : Nat) (xs : List α) : List (List α) := chunksUpTo n xs.length xs

/-- Pieces cut with enough fuel put together give the list back. -/
theorem flatten_chunksUpTo {α : Type} {n : Nat} (hn : 0 < n) :
    ∀ (fuel : Nat) (xs : List α), xs.length ≤ fuel → (chunksUpTo n fuel xs).flatten = xs
  | 0, [], _ => rfl
  | 0, x :: xs, h => by simp at h
  | _ + 1, [], _ => rfl
  | fuel + 1, x :: xs, h => by
    have hlen : ((x :: xs).drop n).length ≤ fuel := by
      simp only [List.length_drop, List.length_cons] at h ⊢
      omega
    simp only [chunksUpTo, List.flatten_cons, flatten_chunksUpTo hn fuel _ hlen,
      List.take_append_drop]

/-- Steps beyond the length of the list cut nothing more. -/
theorem chunksUpTo_eq_of_length_le {α : Type} {n : Nat} (hn : 0 < n) :
    ∀ (fuel fuel' : Nat) (xs : List α), xs.length ≤ fuel → xs.length ≤ fuel' →
      chunksUpTo n fuel xs = chunksUpTo n fuel' xs
  | 0, 0, _, _, _ => rfl
  | 0, _ + 1, [], _, _ => rfl
  | _ + 1, 0, [], _, _ => rfl
  | _ + 1, _ + 1, [], _, _ => rfl
  | fuel + 1, fuel' + 1, x :: xs, h, h' => by
    have hlen : ((x :: xs).drop n).length ≤ xs.length := by
      simp only [List.length_drop, List.length_cons]
      omega
    simp only [List.length_cons] at h h'
    simp only [chunksUpTo]
    rw [chunksUpTo_eq_of_length_le hn fuel fuel' _ (by omega) (by omega)]

/-- A front part of the size of a piece is the first piece. -/
theorem chunks_append {α : Type} {n : Nat} (hn : 0 < n) {piece : List α} (hpiece : piece.length = n)
    (xs : List α) : chunks n (piece ++ xs) = piece :: chunks n xs := by
  cases piece with
  | nil => simp at hpiece; omega
  | cons x rest =>
    have hlen : xs.length ≤ (rest ++ xs).length := by simp
    rw [chunks, chunks, List.cons_append, List.length_cons, chunksUpTo, ← List.cons_append,
      List.take_left' hpiece, List.drop_left' hpiece,
      chunksUpTo_eq_of_length_le hn _ _ xs hlen (Nat.le_refl _)]

/-- The pieces of equal elements that come out even. -/
theorem chunks_replicate {α : Type} {n : Nat} (hn : 0 < n) (m : Nat) (x : α) :
    chunks n (List.replicate (m * n) x) = List.replicate m (List.replicate n x) := by
  induction m with
  | zero => rw [Nat.zero_mul]; rfl
  | succ m ih =>
    rw [Nat.succ_mul, Nat.add_comm, ← List.replicate_append_replicate,
      chunks_append hn List.length_replicate, ih, List.replicate_succ]

/-- Where pieces come out even, all of them have the full size. -/
theorem length_of_mem_chunks {α : Type} {n : Nat} (hn : 0 < n) {xs : List α}
    (hdvd : n ∣ xs.length) : ∀ piece ∈ chunks n xs, piece.length = n := by
  obtain ⟨m, hm⟩ := hdvd
  induction m generalizing xs with
  | zero =>
    obtain rfl : xs = [] := List.eq_nil_of_length_eq_zero hm
    exact List.forall_mem_nil _
  | succ m ih =>
    rw [Nat.mul_succ] at hm
    have htake : (xs.take n).length = n := by rw [List.length_take]; omega
    have hdrop : (xs.drop n).length = n * m := by rw [List.length_drop]; omega
    rw [← List.take_append_drop n xs, chunks_append hn htake, List.forall_mem_cons]
    exact ⟨htake, ih hdrop⟩

/-- Joining the pieces gives the list back. -/
theorem flatten_chunks {α : Type} {n : Nat} (hn : 0 < n) (xs : List α) :
    (chunks n xs).flatten = xs :=
  flatten_chunksUpTo hn _ _ (Nat.le_refl _)

/-- The first piece takes up to `n` elements, and the others are the pieces of what is left. -/
theorem chunks_of_ne_nil {α : Type} {n : Nat} (hn : 0 < n) {xs : List α} (hxs : xs ≠ []) :
    chunks n xs = xs.take n :: chunks n (xs.drop n) := by
  cases xs with
  | nil => exact absurd rfl hxs
  | cons x rest =>
    have hlen : ((x :: rest).drop n).length ≤ rest.length := by
      simp only [List.length_drop, List.length_cons]
      omega
    rw [chunks, List.length_cons, chunksUpTo, chunks,
      chunksUpTo_eq_of_length_le hn _ _ _ hlen (Nat.le_refl _)]

/-- Piece `t` is the segment that starts at `t * n`. -/
theorem getElem?_chunks {α : Type} {n : Nat} (hn : 0 < n) (xs : List α) (t : Nat) :
    (chunks n xs)[t]? = if t * n < xs.length then some ((xs.drop (t * n)).take n) else none := by
  induction t generalizing xs with
  | zero =>
    cases xs with
    | nil => rfl
    | cons x rest =>
      rw [chunks_of_ne_nil hn (List.cons_ne_nil _ _), Nat.zero_mul]
      rfl
  | succ t ih =>
    cases xs with
    | nil => rfl
    | cons x rest =>
      have hin : t * n < ((x :: rest).drop n).length ↔ (t + 1) * n < (x :: rest).length := by
        rw [List.length_drop, Nat.succ_mul]
        omega
      rw [chunks_of_ne_nil hn (List.cons_ne_nil _ _), List.getElem?_cons_succ, ih]
      simp only [hin, List.drop_drop, Nat.succ_mul, Nat.add_comm n]

/-- Exchanging a segment for one of the same size exchanges a piece. -/
theorem chunks_exchange {α : Type} {n : Nat} (hn : 0 < n) {xs piece : List α} {t : Nat}
    (ht : t * n < xs.length) (hpiece : piece.length = ((xs.drop (t * n)).take n).length) :
    chunks n (xs.take (t * n) ++ (piece ++ xs.drop ((t + 1) * n))) =
      (chunks n xs).set t piece := by
  have hne : xs ≠ [] := List.ne_nil_of_length_pos (Nat.zero_lt_of_lt ht)
  induction t generalizing xs with
  | zero =>
    rw [Nat.zero_mul, List.drop_zero, List.length_take] at hpiece
    have hne' : piece ++ xs.drop n ≠ [] :=
      List.ne_nil_of_length_pos (by rw [List.length_append]; omega)
    have htake : (piece ++ xs.drop n).take n = piece ∧ (piece ++ xs.drop n).drop n = xs.drop n := by
      by_cases hshort : xs.length ≤ n
      · rw [List.drop_eq_nil_of_le hshort, List.append_nil, List.take_of_length_le (by omega),
          List.drop_eq_nil_of_le (by omega)]
        exact ⟨rfl, rfl⟩
      · have hfull : piece.length = n := by omega
        exact ⟨List.take_left' hfull, List.drop_left' hfull⟩
    rw [Nat.zero_mul, List.take_zero, List.nil_append, Nat.zero_add, Nat.one_mul,
      chunks_of_ne_nil hn hne', htake.1, htake.2, chunks_of_ne_nil hn hne]
    rfl
  | succ t ih =>
    have hsucc : (t + 1) * n = n + t * n := by rw [Nat.succ_mul, Nat.add_comm]
    have hfirst : (xs.take n).length = n := by rw [List.length_take]; omega
    have hrest : t * n < (xs.drop n).length := by rw [List.length_drop]; omega
    have hsplit : xs.take ((t + 1) * n) = xs.take n ++ (xs.drop n).take (t * n) := by
      rw [hsucc, List.take_add]
    rw [hsucc, ← List.drop_drop] at hpiece
    have hback : xs.drop ((t + 1 + 1) * n) = (xs.drop n).drop ((t + 1) * n) := by
      rw [List.drop_drop, Nat.succ_mul (t + 1), Nat.add_comm n]
    have hne' : xs.drop n ≠ [] := List.ne_nil_of_length_pos (Nat.zero_lt_of_lt hrest)
    rw [hsplit, List.append_assoc, chunks_append hn hfirst, hback, ih hrest hpiece hne',
      chunks_of_ne_nil hn hne, List.set_cons_succ]

end KernelDispatch
