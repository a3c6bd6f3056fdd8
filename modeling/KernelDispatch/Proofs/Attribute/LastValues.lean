import KernelDispatch.Backend.Builtin
import KernelDispatch.Proofs.Attribute.Insertion
import KernelDispatch.Proofs.Keys
import KernelDispatch.Proofs.Text.ByteOrder
import KernelDispatch.Session.Basic

/-!
# Which insertions count

Of the insertions under one name the last one counts, and in which order different names were
inserted does not. A map is kept in the order of its names, so it is determined by what is found
under each name: two lists of insertions that end with the same values make one map. Whatever reads
the map, kernels and sessions among them, cannot tell the lists apart, and where several attributes
are at fault it is the order of the names, or that of the reader, that decides which one is reported.
-/

namespace KernelDispatch

/-- In an increasing list the first element with a property is the least one. -/
theorem find?_eq_some_iff_least {α : Type} [LinearOrder α] {xs : List α} {p : α → Bool} {x : α}
    (h : xs.Pairwise (· < ·)) :
    xs.find? p = some x ↔ x ∈ xs ∧ p x = true ∧ ∀ y ∈ xs, p y = true → x ≤ y := by
  induction xs with
  | nil => simp
  | cons z xs ih =>
    obtain ⟨hz, hxs⟩ := List.pairwise_cons.mp h
    by_cases hpz : p z = true
    · rw [List.find?_cons_of_pos hpz, Option.some.injEq]
      constructor
      · rintro rfl
        refine ⟨List.mem_cons_self, hpz, fun y hy _ => ?_⟩
        rcases List.mem_cons.mp hy with rfl | hy
        · exact le_refl _
        · exact le_of_lt (hz y hy)
      · rintro ⟨hx, -, hleast⟩
        rcases List.mem_cons.mp hx with rfl | hx
        · rfl
        · exact absurd (hz x hx) (not_lt.mpr (hleast z List.mem_cons_self hpz))
    · rw [List.find?_cons_of_neg hpz, ih hxs]
      constructor
      · rintro ⟨hx, hpx, hleast⟩
        exact ⟨List.mem_cons_of_mem z hx, hpx,
          List.forall_mem_cons.mpr ⟨fun h => absurd h hpz, hleast⟩⟩
      · rintro ⟨hx, hpx, hleast⟩
        have hne : x ≠ z := fun heq => hpz (heq ▸ hpx)
        exact ⟨(List.mem_cons.mp hx).resolve_left hne, hpx, (List.forall_mem_cons.mp hleast).2⟩

namespace Attributes

variable {attrs attrs' : Attributes} {entries entries' : List (String × AttrValue)} {name : String}
  {v : AttrValue} {allowed : List String}

/-! ### Maps by their values -/

/-- Under every name the last insertion is found. -/
theorem get?_ofList : (ofList entries).get? name = lastValue entries name :=
  get?_insertAll_eq.trans Option.or_none

/-- Names stand in strictly increasing order. -/
theorem pairwise_names (attrs : Attributes) : attrs.names.Pairwise (· < ·) :=
  List.pairwise_map.mpr attrs.ordered

/-- A name stands in a map once. -/
theorem nodup_names (attrs : Attributes) : attrs.names.Nodup :=
  (pairwise_names attrs).imp fun h => ne_of_lt h

/-- The entries of a map are what is found in it. -/
theorem mem_items_iff : (name, v) ∈ attrs.items ↔ attrs.get? name = some v := by
  rw [get?, Option.map_eq_some_iff]
  simp only [find?_eq_some_iff_of_nodup (nodup_names attrs)]
  constructor
  · intro h
    exact ⟨(name, v), ⟨h, rfl⟩, rfl⟩
  · rintro ⟨⟨_, _⟩, ⟨h, rfl⟩, rfl⟩
    exact h

/-- The names of a map are those under which something is found. -/
theorem mem_names_iff : name ∈ attrs.names ↔ ∃ v, attrs.get? name = some v := by
  simp only [← mem_items_iff, names, List.mem_map]
  constructor
  · rintro ⟨⟨_, v⟩, h, rfl⟩
    exact ⟨v, h⟩
  · rintro ⟨v, h⟩
    exact ⟨(name, v), h, rfl⟩

/-- A map is determined by what is found under each name. -/
theorem ext_get? (h : ∀ name, attrs.get? name = attrs'.get? name) : attrs = attrs' := by
  have hmem : ∀ e, e ∈ attrs.items ↔ e ∈ attrs'.items := by
    rintro ⟨name, v⟩
    rw [mem_items_iff, mem_items_iff, h]
  have hperm : attrs.items.Perm attrs'.items :=
    (List.perm_ext_iff_of_nodup (nodup_names attrs).of_map (nodup_names attrs').of_map).mpr hmem
  have hitems : attrs.items = attrs'.items :=
    hperm.eq_of_pairwise (fun _ _ _ _ hlt hgt => absurd hgt (lt_asymm hlt)) attrs.ordered
      attrs'.ordered
  obtain ⟨items, ordered⟩ := attrs
  obtain rfl := hitems
  rfl

/-! ### Unknown names -/

/-- A check for unknown names succeeds if all names are allowed. -/
theorem rejectUnknown_eq_ok_iff :
    attrs.rejectUnknown allowed = .ok () ↔ ∀ name ∈ attrs.names, name ∈ allowed := by
  rw [rejectUnknown]
  cases hfind : attrs.names.find? fun name => !allowed.contains name with
  | some name =>
    refine iff_of_false nofun fun h => ?_
    have hunknown := List.find?_some hfind
    simp [h name (List.mem_of_find?_eq_some hfind)] at hunknown
  | none => simpa using List.find?_eq_none.mp hfind

/-- Of several unknown names the least is reported. -/
theorem rejectUnknown_eq_error_iff {e : AttributeError} :
    attrs.rejectUnknown allowed = .error e ↔ ∃ name, e = .invalid name .unsupported ∧
      name ∈ attrs.names ∧ name ∉ allowed ∧ ∀ other ∈ attrs.names, other ∉ allowed → name ≤ other := by
  have hleast (name : String) : (attrs.names.find? fun name => !allowed.contains name) = some name ↔
      name ∈ attrs.names ∧ name ∉ allowed ∧
        ∀ other ∈ attrs.names, other ∉ allowed → name ≤ other := by
    rw [find?_eq_some_iff_least (pairwise_names attrs)]
    simp
  simp only [← hleast]
  rw [rejectUnknown]
  cases attrs.names.find? fun name => !allowed.contains name with
  | some name => simp [eq_comm]
  | none => simp

/-! ### Insertions that end with the same values -/

/-- Insertions that end with the same value under every name make the same map. Its names are those
inserted, in increasing order of their bytes, and look-up and iteration give the value inserted last
under each name. So every kernel of both backends is configured alike, with the same error if there is
one, and every session resolves a node with either map alike. Unknown names are refused exactly if
one was inserted, and the least of them by its bytes is reported. -/
theorem ofList_eq_of_lastValue {κ : Type} [Kernel κ]
    (hlast : ∀ name, lastValue entries name = lastValue entries' name) :
    let attrs := ofList entries
    attrs = ofList entries' ∧
      (attrs.names.Pairwise fun name other => Text.bytes name < Text.bytes other) ∧
      (∀ name, name ∈ attrs.names ↔ name ∈ entries.map (·.1)) ∧
      (∀ name, attrs.get? name = lastValue entries name) ∧
      (∀ name v, (name, v) ∈ attrs.items ↔ lastValue entries name = some v) ∧
      (∀ k : BuiltinKernel, Kernel.configure k attrs = Kernel.configure k (ofList entries')) ∧
      (∀ (s : Session κ) (node : Node),
        s.resolve { node with attributes := attrs } =
          s.resolve { node with attributes := ofList entries' }) ∧
      ∀ allowed : List String,
        (attrs.rejectUnknown allowed = .ok () ↔ ∀ name ∈ entries.map (·.1), name ∈ allowed) ∧
        ∀ e, attrs.rejectUnknown allowed = .error e ↔ ∃ name, e = .invalid name .unsupported ∧
          name ∈ entries.map (·.1) ∧ name ∉ allowed ∧
          ∀ other ∈ entries.map (·.1), other ∉ allowed →
            other = name ∨ Text.bytes name < Text.bytes other := by
  intro attrs
  have hsame : attrs = ofList entries' := by
    apply ext_get?
    intro name
    rw [get?_ofList, get?_ofList, hlast]
  have hnames (name : String) : name ∈ attrs.names ↔ name ∈ entries.map (·.1) := by
    rw [mem_names_iff, ← exists_lastValue_iff, get?_ofList]
  have hle (name other : String) :
      name ≤ other ↔ other = name ∨ Text.bytes name < Text.bytes other := by
    rw [le_iff_eq_or_lt, Text.bytes_lt_iff, eq_comm]
  refine ⟨hsame, (pairwise_names attrs).imp Text.bytes_lt, hnames, fun name => get?_ofList,
    fun name v => ?_, fun k => ?_, fun s node => ?_, fun allowed => ⟨?_, fun e => ?_⟩⟩
  · rw [mem_items_iff, get?_ofList]
  · rw [hsame]
  · rw [hsame]
  · simp only [rejectUnknown_eq_ok_iff, hnames]
  · simp only [rejectUnknown_eq_error_iff, hnames, hle]

/-- With both factors of a general product at fault, the first one that is read is reported, whichever
was inserted first; and of two unknown names it is the lesser. -/
theorem ofList_eq_of_lastValue_factors :
    let entries : List (String × AttrValue) :=
      [("beta", .int 1), ("alpha", .string "a"), ("beta", .string "b")]
    let entries' : List (String × AttrValue) := [("beta", .string "b"), ("alpha", .string "a")]
    let k : BuiltinKernel := .inl (.gemm .fresh)
    (∀ name, lastValue entries name = lastValue entries' name) ∧
      ofList entries = ofList entries' ∧
      Kernel.configure k (ofList entries) = (.error (.wrongKind "alpha" .float .string), k) ∧
      Kernel.configure k (ofList entries') = (.error (.wrongKind "alpha" .float .string), k) ∧
      (ofList entries).rejectUnknown ["axis"] = .error (.invalid "alpha" .unsupported) := by
  intro entries entries' k
  have hlast (name : String) : lastValue entries name = lastValue entries' name := by
    by_cases hbeta : "beta" = name
    · obtain rfl := hbeta
      rfl
    · simp [entries, entries', lastValue_cons, hbeta]
  obtain ⟨hsame, -, -, -, -, hconfigure, -, hunknown⟩ :=
    ofList_eq_of_lastValue (κ := BuiltinKernel) hlast
  have hrefused : Kernel.configure k (ofList entries') =
      (.error (.wrongKind "alpha" .float .string), k) := rfl
  refine ⟨hlast, hsame, (hconfigure k).trans hrefused, hrefused, ((hunknown ["axis"]).2 _).mpr ?_⟩
  exact ⟨"alpha", rfl, by decide, by decide, by decide⟩

end Attributes

end KernelDispatch
