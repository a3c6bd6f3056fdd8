import KernelDispatch.Chunks

/-!
# Little-endian words

A word of `k` bytes is written least significant byte first. Reading and writing are positional
notation in base 256, so they undo each other up to the size of the word.
-/

namespace KernelDispatch.Bytes

/-- The `k` low bytes of a number, least significant first. -/
def encode : Nat → Nat → List UInt8
  | 0, _ => []
  | k + 1, n => UInt8.ofNat n :: encode k (n / 256)

/-- The number that a list of bytes denotes, least significant first. -/
def decode : List UInt8 → Nat
  | [] => 0
  | b :: bs => b.toNat + 256 * decode bs

/-- How many numbers a word of `k` bytes can hold. -/
def capacity : Nat → Nat
  | 0 => 1
  | k + 1 => 256 * capacity k

/-- The words of `k` bytes in a buffer; a short rest is dropped. -/
def words (k : Nat) (bytes : List UInt8) : List Nat :=
  (chunks k bytes).filterMap fun c => if c.length = k then some (decode c) else none

/-- A number is written with as many bytes as asked for. -/
theorem length_encode (k n : Nat) : (encode k n).length = k := by
  induction k generalizing n with
  | zero => rfl
  | succ k ih => simp [encode, ih]

/-- Writing and reading a word keeps a number up to the capacity of the word. -/
theorem decode_encode (k n : Nat) : decode (encode k n) = n % capacity k := by
  induction k generalizing n with
  | zero => simp [encode, decode, capacity, Nat.mod_one]
  | succ k ih =>
    simp only [encode, decode, capacity, ih, UInt8.toNat_ofNat']
    exact Nat.mod_mul.symm

/-- Reading and writing a buffer as one word gives the buffer back. -/
theorem encode_decode (bytes : List UInt8) : encode bytes.length (decode bytes) = bytes := by
  induction bytes with
  | nil => rfl
  | cons b rest ih =>
    have hb : b.toNat < 256 := b.toNat_lt
    have hlow : UInt8.ofNat (b.toNat + 256 * decode rest) = b := by
      rw [← UInt8.toNat_inj, UInt8.toNat_ofNat']
      omega
    have hhigh : (b.toNat + 256 * decode rest) / 256 = decode rest := by omega
    rw [List.length_cons, decode, encode, hlow, hhigh, ih]

/-- A word denotes a number below its capacity. -/
theorem decode_lt_capacity (bytes : List UInt8) : decode bytes < capacity bytes.length := by
  induction bytes with
  | nil => exact Nat.one_pos
  | cons b rest ih =>
    have hb : b.toNat < 256 := b.toNat_lt
    rw [List.length_cons, decode, capacity]
    omega

/-- What is read from `k` bytes fits into them. -/
theorem lt_capacity_of_mem_words {k n : Nat} {bytes : List UInt8} (h : n ∈ words k bytes) :
    n < capacity k := by
  obtain ⟨word, -, hword⟩ := List.mem_filterMap.mp h
  split at hword
  · next hlength =>
    obtain rfl := Option.some.inj hword
    exact hlength ▸ decode_lt_capacity word
  · cases hword

/-- A list is written with `k` bytes for each element. -/
theorem length_flatMap_encode {α : Type} (k : Nat) (f : α → Nat) (xs : List α) :
    (xs.flatMap fun x => encode k (f x)).length = xs.length * k := by
  induction xs with
  | nil => rw [List.flatMap_nil, List.length_nil, List.length_nil, Nat.zero_mul]
  | cons x xs ih =>
    rw [List.flatMap_cons, List.length_append, length_encode, ih, List.length_cons, Nat.succ_mul,
      Nat.add_comm]

/-- A front part of the size of a word is the first word. -/
theorem words_append {k : Nat} (hk : 0 < k) {word : List UInt8} (hword : word.length = k)
    (bytes : List UInt8) : words k (word ++ bytes) = decode word :: words k bytes := by
  rw [words, chunks_append hk hword,
    List.filterMap_cons_some (b := decode word) (by rw [if_pos hword])]
  rfl

/-- Words that are written one after another are read as the numbers they hold. -/
theorem words_flatMap_encode {α : Type} {k : Nat} (hk : 0 < k) (f : α → Nat) (xs : List α) :
    words k (xs.flatMap fun x => encode k (f x)) = xs.map fun x => f x % capacity k := by
  induction xs with
  | nil => rfl
  | cons x xs ih =>
    rw [List.flatMap_cons, words_append hk (length_encode k _), decode_encode, ih, List.map_cons]

/-- A buffer of full words is what its words are written as. -/
theorem flatMap_encode_words {k : Nat} (hk : 0 < k) (n : Nat) {bytes : List UInt8}
    (hbytes : bytes.length = n * k) : (words k bytes).flatMap (encode k) = bytes := by
  induction n generalizing bytes with
  | zero =>
    obtain rfl : bytes = [] := List.eq_nil_of_length_eq_zero (by omega)
    rfl
  | succ n ih =>
    rw [Nat.succ_mul] at hbytes
    have htake : (bytes.take k).length = k := by rw [List.length_take]; omega
    have hdrop : (bytes.drop k).length = n * k := by rw [List.length_drop]; omega
    have hword : encode k (decode (bytes.take k)) = bytes.take k := by
      conv => rhs; rw [← encode_decode (bytes.take k), htake]
    conv => lhs; rw [← List.take_append_drop k bytes, words_append hk htake]
    rw [List.flatMap_cons, hword, ih hdrop, List.take_append_drop]

/-- A buffer of full words holds one number per word. -/
theorem length_words {k : Nat} (hk : 0 < k) (n : Nat) {bytes : List UInt8}
    (hbytes : bytes.length = n * k) : (words k bytes).length = n := by
  have hlength : (words k bytes).length * k = n * k := by
    rw [← length_flatMap_encode k id, ← hbytes]
    exact congrArg List.length (flatMap_encode_words hk n hbytes)
  exact Nat.eq_of_mul_eq_mul_right hk hlength

end KernelDispatch.Bytes
