import KernelDispatch.Proofs.Tensor.Volume
import Mathlib.Data.List.Basic

/-!
# Writing and reading the elements of tensors

An element format says how the elements of one type are written one after another, and as which
elements a buffer is read. For each of the three formats it is shown that what was written is read
again, and that reading and writing a buffer of whole elements gives it back: as it was for numbers,
and with a one for every byte that is not zero for truth values. What building a tensor and viewing
it do to each other follows from these two laws alone. Reshaping keeps the buffer, so every view
outlasts a chain of reshapes.
-/

namespace KernelDispatch

/-- How the elements of one type are laid out in a buffer. -/
structure ElementFormat (α : Type) where
  elementType : ElementType
  encode : List α → List UInt8
  decode : List UInt8 → List α
  /-- What a buffer becomes when its elements are read and written again. -/
  canonical : List UInt8 → List UInt8
  length_encode : ∀ xs, (encode xs).length = xs.length * elementType.size
  decode_encode : ∀ xs, decode (encode xs) = xs
  length_canonical : ∀ bytes, (canonical bytes).length = bytes.length
  encode_decode : ∀ (n : Nat) (bytes : List UInt8), bytes.length = n * elementType.size →
    encode (decode bytes) = canonical bytes

namespace ElementFormat

variable {α : Type}

/-! ### The three formats -/

/-- Elements that are written as one word each. -/
def ofWords (e : ElementType) (toWord : α → Nat) (ofWord : Nat → α)
    (hread : ∀ x, ofWord (toWord x % Bytes.capacity e.size) = x)
    (hwrite : ∀ n, n < Bytes.capacity e.size → toWord (ofWord n) = n) : ElementFormat α where
  elementType := e
  encode xs := xs.flatMap fun x => Bytes.encode e.size (toWord x)
  decode bytes := (Bytes.words e.size bytes).map ofWord
  canonical := id
  length_encode := Bytes.length_flatMap_encode e.size toWord
  decode_encode xs := by
    rw [Bytes.words_flatMap_encode e.size_pos, List.map_map]
    exact (List.map_congr_left fun x _ => hread x).trans (List.map_id xs)
  length_canonical _ := rfl
  encode_decode n bytes hbytes := by
    have hwords : ∀ w ∈ Bytes.words e.size bytes,
        Bytes.encode e.size (toWord (ofWord w)) = Bytes.encode e.size w := by
      intro w hw
      rw [hwrite w (Bytes.lt_capacity_of_mem_words hw)]
    rw [List.flatMap_map, List.flatMap_congr hwords, Bytes.flatMap_encode_words e.size_pos n hbytes]
    rfl

/-- Binary32 numbers by their bits, so that every pattern of NaN is kept. -/
def floats : ElementFormat Binary32 :=
  ofWords .f32 (fun x => x.bits.toNat) (fun n => ⟨UInt32.ofNat n⟩)
    (fun x => by
      have hbits : x.bits.toNat < Bytes.capacity 4 := x.bits.toNat_lt
      rw [ElementType.size, Nat.mod_eq_of_lt hbits, UInt32.ofNat_toNat])
    (fun _ hn => UInt32.toNat_ofNat_of_lt' hn)

/-- Integers in two's complement. -/
def ints : ElementFormat Int64 :=
  ofWords .i64 (fun n => n.toUInt64.toNat) (fun n => (UInt64.ofNat n).toInt64)
    (fun x => by
      have hbits : x.toUInt64.toNat < Bytes.capacity 8 := x.toUInt64.toNat_lt
      rw [ElementType.size, Nat.mod_eq_of_lt hbits, UInt64.ofNat_toNat, Int64.toInt64_toUInt64])
    (fun n hn => by
      rw [UInt64.toUInt64_toInt64]
      exact UInt64.toNat_ofNat_of_lt' hn)

/-- A byte with one for every value but zero. -/
def truthByte (b : UInt8) : UInt8 := if b = 0 then 0 else 1

/-- Truth values as one byte each, of which any but zero is read as true. -/
def bools : ElementFormat Bool where
  elementType := .bool
  encode := List.map Bool.toUInt8
  decode := List.map (· != 0)
  canonical := List.map truthByte
  length_encode xs := by rw [List.length_map, ElementType.size, Nat.mul_one]
  decode_encode xs := by
    have hread (b : Bool) : (b.toUInt8 != 0) = b := by cases b <;> rfl
    rw [List.map_map]
    exact (List.map_congr_left fun b _ => hread b).trans (List.map_id xs)
  length_canonical _ := List.length_map _
  encode_decode _ bytes _ := by
    have hwrite (b : UInt8) : (b != 0).toUInt8 = truthByte b := by
      by_cases hb : b = 0
      · rw [hb]
        rfl
      · rw [truthByte, if_neg hb, bne_iff_ne.mpr hb]
        rfl
    rw [List.map_map]
    exact List.map_congr_left fun b _ => hwrite b

end ElementFormat

namespace Tensor

variable {α : Type} {e : ElementType} {t t' : Tensor}

/-- Whether the view of an element type answers. -/
def HasView (t : Tensor) : ElementType → Prop
  | .f32 => ∃ xs, t.floats = .ok xs
  | .i64 => ∃ ns, t.ints = .ok ns
  | .bool => ∃ bs, t.bools = .ok bs

/-- How building tensors of one element type and viewing them undo each other. -/
structure RoundTrips (e : ElementType) (build : Shape → List α → Except TensorError Tensor)
    (view : Tensor → Except TensorError (List α)) (canonical : List UInt8 → List UInt8) : Prop where
  /-- Elements make a tensor exactly if they are as many as the shape has. -/
  build_iff : ∀ shape xs, volume shape.dims * e.size < wordSize →
    ((∃ t, build shape xs = .ok t) ↔ xs.length = volume shape.dims)
  /-- The elements of a tensor are those it was built of, and no other view of it answers. -/
  view_build : ∀ shape xs t, build shape xs = .ok t →
    view t = .ok xs ∧ ∀ e', t.HasView e' ↔ e' = e
  /-- A tensor can be built again of its elements. -/
  build_view : ∀ t, t.WellFormed → t.elementType = e →
    ∃ xs, view t = .ok xs ∧ build t.shape xs = .ok { t with bytes := canonical t.bytes }

/-- The buffer can be taken as one of its own type. -/
theorem bytesOf_self (t : Tensor) : t.bytesOf t.elementType = .ok t.bytes := if_pos rfl

/-- A tensor can be viewed as one of its own type only. -/
theorem exists_view_iff {decode : List UInt8 → List α} :
    (∃ xs, (t.bytesOf e).map decode = .ok xs) ↔ e = t.elementType := by
  rw [bytesOf]
  by_cases he : t.elementType = e
  · rw [if_pos he]
    exact iff_of_true ⟨_, rfl⟩ he.symm
  · rw [if_neg he]
    refine iff_of_false ?_ (Ne.symm he)
    rintro ⟨xs, hxs⟩
    cases hxs

/-- The view of an element type answers exactly for tensors of that type. -/
theorem hasView_iff : t.HasView e ↔ e = t.elementType := by
  cases e with
  | f32 => exact exists_view_iff
  | i64 => exact exists_view_iff
  | bool => exact exists_view_iff

/-- A buffer makes a tensor if it has the size of the shape, and is kept as it is. -/
theorem ofBytes_eq_ok_iff {shape : Shape} {bytes : List UInt8} :
    ofBytes e shape bytes = .ok t ↔ bytes.length = byteSize e shape ∧ t = ⟨e, shape, bytes⟩ := by
  rw [ofBytes]
  split
  · next hsize => rw [Except.ok.injEq, eq_comm, and_iff_right hsize]
  · next hsize =>
    refine iff_of_false (fun h => ?_) fun h => hsize h.1
    cases h

/-- Below the word size the size that a shape asks for is its volume by the size of an element. -/
theorem byteSize_eq_of_lt {shape : Shape} (h : volume shape.dims * e.size < wordSize) :
    byteSize e shape = volume shape.dims * e.size := by
  have hcount : shape.count * e.size = volume shape.dims * e.size := extent_mul_of_lt h
  rw [byteSize, hcount, Nat.mod_eq_of_lt h]

/-- Whatever the format, tensors that are built and viewed by it round-trip. -/
theorem roundTrips_of_format (f : ElementFormat α) :
    RoundTrips f.elementType (fun shape xs => ofBytes f.elementType shape (f.encode xs))
      (fun t => (t.bytesOf f.elementType).map f.decode) f.canonical where
  build_iff shape xs hfits := by
    simp only [ofBytes_eq_ok_iff, f.length_encode, byteSize_eq_of_lt hfits, exists_and_left,
      exists_eq, and_true]
    exact ⟨Nat.eq_of_mul_eq_mul_right f.elementType.size_pos, fun hlength => by rw [hlength]⟩
  view_build shape xs t hbuild := by
    obtain ⟨-, rfl⟩ := ofBytes_eq_ok_iff.mp hbuild
    refine ⟨?_, fun e' => hasView_iff⟩
    rw [bytesOf, if_pos rfl]
    exact congrArg Except.ok (f.decode_encode xs)
  build_view t ht he := by
    have hlength := ht.length_bytes
    rw [he] at hlength
    have hfits : volume t.shape.dims * f.elementType.size < wordSize := hlength ▸ ht.2
    refine ⟨f.decode t.bytes, ?_, ofBytes_eq_ok_iff.mpr ⟨?_, ?_⟩⟩
    · rw [← he, bytesOf_self]
      rfl
    · rw [f.encode_decode _ _ hlength, f.length_canonical, hlength, byteSize_eq_of_lt hfits]
    · rw [f.encode_decode _ _ hlength, ← he]

/-- Numbers come back as they were written. -/
theorem roundTrips_floats : RoundTrips .f32 ofFloats floats id := roundTrips_of_format .floats

/-- The element of a tensor at a position, in a format. -/
def element? (f : ElementFormat α) (t : Tensor) (i : Nat) : Option α :=
  ((t.bytesOf f.elementType).map f.decode).toOption.bind (·[i]?)

/-- The elements of a tensor are those of its view. -/
theorem element?_of_view_eq_ok {f : ElementFormat α} {xs : List α}
    (h : (t.bytesOf f.elementType).map f.decode = .ok xs) (i : Nat) : t.element? f i = xs[i]? := by
  rw [element?, h]
  rfl

end Tensor

namespace ElementFormat

variable {α : Type} {f : ElementFormat α} {t : Tensor}

/-- The elements of a tensor as a random-access buffer. -/
def read (f : ElementFormat α) (t : Tensor) : Except InvokeError (Array α) :=
  (liftTensor ((t.bytesOf f.elementType).map f.decode)).map List.toArray

/-- The tensor of given elements. -/
def tensor (f : ElementFormat α) (shape : Shape) (values : List α) : Tensor :=
  ⟨f.elementType, shape, f.encode values⟩

/-- The one-tensor answer with the given elements. -/
def answer (f : ElementFormat α) (shape : Shape) (values : List α) :
    Except InvokeError (List Tensor) :=
  (liftTensor (Tensor.ofBytes f.elementType shape (f.encode values))).map ([·])

/-- A well-formed tensor of the type of a format has as many elements as its shape. -/
theorem exists_read_eq_ok (ht : t.WellFormed) (he : t.elementType = f.elementType) :
    ∃ xs, f.read t = .ok xs ∧ xs.size = t.count ∧ ∀ i, t.element? f i = xs[i]? := by
  have hview : (t.bytesOf f.elementType).map f.decode = .ok (f.decode t.bytes) := by
    rw [← he, Tensor.bytesOf_self]
    rfl
  have hbytes := ht.length_bytes
  rw [he] at hbytes
  refine ⟨(f.decode t.bytes).toArray, by rw [read, hview]; rfl, ?_, fun i => ?_⟩
  · have hlength := congrArg List.length (f.encode_decode _ _ hbytes)
    rw [f.length_encode, f.length_canonical, hbytes] at hlength
    rw [List.size_toArray, Nat.eq_of_mul_eq_mul_right f.elementType.size_pos hlength]
    exact ht.count_eq.symm
  · rw [Tensor.element?_of_view_eq_ok hview, List.getElem?_toArray]

/-- As many elements as a shape has are answered as the tensor of these elements. -/
theorem answer_eq_ok {shape : Shape} {values : List α} (hlength : values.length = volume shape.dims)
    (hfits : volume shape.dims * f.elementType.size < wordSize) :
    f.answer shape values = .ok [f.tensor shape values] ∧ (f.tensor shape values).WellFormed ∧
      ((f.tensor shape values).bytesOf f.elementType).map f.decode = .ok values := by
  have hbytes : (f.tensor shape values).bytes.length =
      volume shape.dims * f.elementType.size := by
    rw [tensor, f.length_encode, hlength]
  have hbuild : Tensor.ofBytes f.elementType shape (f.encode values) =
      .ok (f.tensor shape values) :=
    Tensor.ofBytes_eq_ok_iff.mpr ⟨hbytes.trans (Tensor.byteSize_eq_of_lt hfits).symm, rfl⟩
  exact ⟨by rw [answer, hbuild]; rfl, ⟨hbytes, hbytes ▸ hfits⟩,
    ((Tensor.roundTrips_of_format f).view_build _ _ _ hbuild).1⟩

end ElementFormat

namespace Tensor

variable {t t' : Tensor}

/-- The tensor of given numbers. -/
def ofNumbers (shape : Shape) (values : List Binary32) : Tensor :=
  ⟨.f32, shape, ElementFormat.floats.encode values⟩

/-- As many numbers as a shape has are answered as the tensor of these numbers. -/
theorem answerFloats_eq_ofNumbers (shape : Shape) {values : List Binary32}
    (hlength : values.length = volume shape.dims) (hfits : volume shape.dims * 4 < wordSize) :
    answerFloats shape values = .ok [ofNumbers shape values] ∧
      (ofNumbers shape values).WellFormed ∧ (ofNumbers shape values).floats = .ok values :=
  ElementFormat.floats.answer_eq_ok hlength hfits

/-- A well-formed tensor of numbers has as many as its shape says, and their bytes can be
counted. -/
theorem WellFormed.exists_floats_eq_ok (ht : t.WellFormed) (hf32 : t.elementType = .f32) :
    ∃ values, t.floats = .ok values ∧ values.length = volume t.shape.dims ∧
      volume t.shape.dims * 4 < wordSize := by
  have hbytes := ht.length_bytes
  rw [hf32] at hbytes
  refine ⟨_, liftTensor_eq_ok_iff.mp (liftTensor_floats_eq_ok_iff.mpr ⟨hf32, rfl⟩), ?_, ?_⟩
  · rw [List.length_map]
    exact Bytes.length_words (by decide) _ hbytes
  · have hword := ht.2
    rw [hbytes] at hword
    exact hword

/-- One reshape changes the shape alone. -/
theorem reshape_eq_ok {shape : Shape} (h : t.reshape shape = .ok t') : t' = { t with shape } := by
  rw [reshape] at h
  split at h
  · exact (Except.ok.inj h).symm
  · cases h

/-- A chain of reshapes changes the shape alone. -/
theorem foldlM_reshape_eq_ok {shapes : List Shape} (h : shapes.foldlM reshape t = .ok t') :
    t' = { t with shape := t'.shape } := by
  induction shapes generalizing t with
  | nil =>
    obtain rfl := Except.ok.inj h
    rfl
  | cons shape rest ih =>
    rw [List.foldlM_cons, bind_eq_ok_iff] at h
    obtain ⟨u, hfirst, hrest⟩ := h
    rw [ih hrest, reshape_eq_ok hfirst]

/-- Encoding and decoding undo each other for numbers, integers and truth values, up to the spelling
of truth in a buffer that was not built of truth values; and reshaping touches neither. -/
theorem encoding_inverse :
    RoundTrips .f32 ofFloats floats id ∧ RoundTrips .i64 ofInts ints id ∧
      RoundTrips .bool ofBools bools (List.map fun b => if b = 0 then 0 else 1) ∧
      ∀ (t t' : Tensor) (shapes : List Shape), shapes.foldlM reshape t = .ok t' →
        t'.elementType = t.elementType ∧ t'.bytes = t.bytes ∧ t'.floats = t.floats ∧
          t'.ints = t.ints ∧ t'.bools = t.bools := by
  refine ⟨roundTrips_floats, roundTrips_of_format .ints, roundTrips_of_format .bools,
    fun t t' shapes hshapes => ?_⟩
  rw [foldlM_reshape_eq_ok hshapes]
  exact ⟨rfl, rfl, rfl, rfl, rfl⟩

/-- The least integer and minus one, written, reshaped twice and read. -/
theorem encoding_inverse_ints :
    let t : Tensor := ⟨.i64, ⟨[2]⟩, [0, 0, 0, 0, 0, 0, 0, 0x80] ++ List.replicate 8 0xff⟩
    let t' : Tensor := { t with shape := ⟨[2, 1]⟩ }
    ofInts ⟨[2]⟩ [Int64.minValue, -1] = .ok t ∧
      [(⟨[1, 2]⟩ : Shape), ⟨[2, 1]⟩].foldlM reshape t = .ok t' ∧
      t'.ints = .ok [Int64.minValue, -1] ∧ ¬ t.HasView .f32 ∧ t'.bytes = t.bytes := by
  intro t t'
  have hbuild : ofInts ⟨[2]⟩ [Int64.minValue, -1] = .ok t := rfl
  have hshapes : [(⟨[1, 2]⟩ : Shape), ⟨[2, 1]⟩].foldlM reshape t = .ok t' := rfl
  obtain ⟨-, hints, -, hreshape⟩ := encoding_inverse
  obtain ⟨hview, hothers⟩ := hints.view_build _ _ _ hbuild
  obtain ⟨-, hbytes, -, hkept, -⟩ := hreshape t t' _ hshapes
  have hfloats : ¬ t.HasView .f32 := fun h => nomatch (hothers .f32).mp h
  exact ⟨hbuild, hshapes, hkept.trans hview, hfloats, hbytes⟩

end Tensor

end KernelDispatch
