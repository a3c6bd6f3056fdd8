import KernelDispatch.Proofs.Agreement.Backends
import KernelDispatch.Proofs.Session.NodeLists

/-!
# The parallel backend in front of the reference backend

A session on the parallel backend with the reference backend as its fallback is compared with one on
the reference backend alone. An identity that the parallel backend serves is served by the
counterpart in the other session, and both kernels accept the same attributes, but for an axis of
softmax other than `-1`: the parallel kernel refuses it, and the fallback is not tried. All other
identities end with the reference backend in both sessions. So this axis is the only reason why one
of the sessions resolves a list of nodes and the other does not.
-/

namespace KernelDispatch

open Parallel

variable {attrs : Attributes}

/-! ### Identities and the kernels that serve them -/

/-- Wrapping the values of a catalog set wraps those of the catalog of a domain. -/
theorem CatalogSet.get?_map {α β : Type} (f : α → β) (s : CatalogSet α) (domain : String) :
    (s.map f).get? domain = (s.get? domain).map (·.map f) := by
  simp only [get?, CatalogSet.map, List.find?_map]
  rfl

/-- Wrapping the values of a catalog wraps the value that a look-up finds. -/
theorem Catalog.lookup_map {α β : Type} (f : α → β) (c : Catalog α) (op domain : String)
    (version : UInt32) :
    (c.map f).lookup op domain version = (c.lookup op domain version).map f := by
  by_cases hdomain : Domain.normalize domain = c.domain
  · simp only [lookup, find?, Catalog.map, hdomain, if_true, List.find?_map, Option.map_map]
    rfl
  · simp [lookup, find?, Catalog.map, hdomain]

/-- A backend whose kernels are taken as others serves the same identities. -/
theorem Backend.find?_map {κ μ : Type} (f : κ → μ) (b : Backend κ) (id : Identity) :
    (b.map f).find? id = (b.find? id).map f := by
  simp only [find?, catalogFor, Backend.map, CatalogSet.get?_map, Option.bind_map, Option.map_bind,
    Function.comp_def, Catalog.lookup_map]

/-- A backend with wrapped kernels finds the wrapped ones of those that it found before. -/
theorem Backend.find?_map_eq_some_iff {κ μ : Type} {f : κ → μ} {b : Backend κ} {id : Identity}
    {k : μ} : (b.map f).find? id = some k ↔ ∃ k', b.find? id = some k' ∧ f k' = k := by
  rw [find?_map, Option.map_eq_some_iff]

/-- Wrapping its kernels does not change which identities a backend misses. -/
theorem Backend.find?_map_eq_none_iff {κ μ : Type} {f : κ → μ} {b : Backend κ} {id : Identity} :
    (b.map f).find? id = none ↔ b.find? id = none := by
  rw [find?_map, Option.map_eq_none_iff]

/-- The entries of the parallel family for softmax. -/
theorem Parallel.softmax_entries : ∀ e ∈ standardEntries, e.op = "Softmax" →
    e.value = ⟨.softmax, false⟩ ∧ e.range = .since 13 := by
  decide +kernel

/-- The parallel backend serves softmax from version 13 on. -/
theorem Parallel.find?_eq_softmax_iff {id : Identity} :
    Parallel.backend.find? id = some ⟨.softmax, false⟩ ↔
      id.op = "Softmax" ∧ Domain.normalize id.domain = Domain.standard ∧ 13 ≤ id.version := by
  constructor
  · intro h
    obtain ⟨hdomain, e, he, hserves, hvalue⟩ := exists_entry_of_find? h
    obtain ⟨hop, hversion, -⟩ := Registration.serves_iff.mp hserves
    have hname : e.op = "Softmax" := by rw [(entry_value e he).2, hvalue]; rfl
    rw [(softmax_entries e he hname).2] at hversion
    exact ⟨hop.symm.trans hname, hdomain.symm, hversion⟩
  · rintro ⟨hop, hdomain, hversion⟩
    have hcovers : (entry 13 .softmax).serves id.op id.version = true :=
      Registration.serves_iff.mpr ⟨hop.symm, hversion, nofun⟩
    have hentry : entry 13 .softmax ∈ standardEntries := by simp [standardEntries]
    refine Backend.find?_eq_some rfl rfl hdomain.symm hentry hcovers fun e he hserves => ?_
    exact (softmax_entries e he ((Registration.serves_iff.mp hserves).1.trans hop)).1

/-! ### Accepted attributes -/

/-- An integer attribute is absent or there. -/
theorem Attributes.intOr_eq_ok_iff {name : String} {default n : Int64} :
    attrs.intOr name default = .ok n ↔
      attrs.get? name = none ∧ default = n ∨ attrs.get? name = some (.int n) := by
  rw [intOr, contains]
  cases hget : attrs.get? name with
  | none => simp
  | some v => cases v <;> simp [int, typed, hget]

/-- Whether there is an integer axis other than `-1`. -/
def Attributes.HasOtherAxis (attrs : Attributes) : Prop :=
  ∃ axis, attrs.get? "axis" = some (.int axis) ∧ axis ≠ -1

/-- Softmax of the reference family accepts any integer axis, the parallel one only `-1`. -/
theorem ParallelOp.softmax_configure_iff :
    (Kernel.configure (⟨.softmax, false⟩ : ParallelKernel) attrs).1 = .ok () ↔
      (Kernel.configure (reference false .softmax) attrs).1 = .ok () ∧ ¬ attrs.HasOtherAxis := by
  have hparallel : (Kernel.configure (⟨.softmax, false⟩ : ParallelKernel) attrs).1 = .ok () ↔
      attrs.rejectUnknown ["axis"] = .ok () ∧ attrs.intOr "axis" (-1) = .ok (-1) := by
    refine whenAccepted_fst_eq_ok_iff_unit.trans ?_
    simp only [checkAttributes, bind_eq_ok_iff]
    constructor
    · rintro ⟨_, hknown, axis, haxis, hlast⟩
      split at hlast
      · next heq => exact ⟨hknown, heq ▸ haxis⟩
      · cases hlast
    · rintro ⟨hknown, haxis⟩
      exact ⟨(), hknown, -1, haxis, rfl⟩
  have hreference : (Kernel.configure (reference false .softmax) attrs).1 = .ok () ↔
      attrs.rejectUnknown ["axis"] = .ok () ∧ ∃ axis, attrs.intOr "axis" (-1) = .ok axis := by
    change (Kernel.configure (⟨.lane, none⟩ : Reference.Softmax) attrs).1 = _ ↔ _
    refine whenAccepted_fst_eq_ok_iff.trans ⟨?_, ?_⟩
    · rintro ⟨axis, h⟩
      obtain ⟨_, hknown, haxis⟩ := bind_eq_ok_iff.mp h
      exact ⟨hknown, axis, haxis⟩
    · rintro ⟨hknown, axis, haxis⟩
      exact ⟨axis, bind_eq_ok_iff.mpr ⟨(), hknown, haxis⟩⟩
  rw [hparallel, hreference, and_assoc, and_congr_right_iff]
  intro _
  simp only [Attributes.intOr_eq_ok_iff, Attributes.HasOtherAxis]
  cases hget : attrs.get? "axis" with
  | none => simp
  | some v => cases v <;> simp

/-- Any other parallel kernel accepts no attributes, and neither does its counterpart. -/
theorem ParallelOp.configure_iff {op : ParallelOp} (hop : op ≠ .softmax) :
    (Kernel.configure (⟨op, false⟩ : ParallelKernel) attrs).1 = .ok () ↔
      (Kernel.configure (op.reference false) attrs).1 = .ok () := by
  have hparallel : (Kernel.configure (⟨op, false⟩ : ParallelKernel) attrs).1 = .ok () ↔
      attrs.rejectUnknown [] = .ok () := by
    refine whenAccepted_fst_eq_ok_iff_unit.trans ?_
    cases op with
    | softmax => exact absurd rfl hop
    | _ => rfl
  have hreference : (Kernel.configure (op.reference false) attrs).1 = .ok () ↔
      attrs.rejectUnknown [] = .ok () := by
    cases op with
    | softmax => exact absurd rfl hop
    | binary op =>
      change (Kernel.configure (⟨.arithmetic op, false⟩ : Reference.Binary) attrs).1 = _ ↔ _
      refine whenAccepted_fst_eq_ok_iff_unit.trans ⟨fun h => ?_, fun h => ?_⟩
      · rw [Reference.Binary.checkAttributes] at h
        split at h
        · cases h
        · exact h
      · obtain rfl := Attributes.eq_empty_of_rejectUnknown h
        rfl
    | unary op =>
      have hplain (slope : Binary32) : op.reference ≠ .leakyRelu slope := by cases op <;> nofun
      change (Kernel.configure (⟨op.reference, false⟩ : Reference.Unary) attrs).1 = _ ↔ _
      rw [Reference.Unary.configure_eq_whenAccepted hplain]
      exact whenAccepted_fst_eq_ok_iff_unit
    | matMul =>
      change (Kernel.configure (⟨false⟩ : Reference.MatMul) attrs).1 = _ ↔ _
      exact whenAccepted_fst_eq_ok_iff_unit
    | sum =>
      change (Kernel.configure (⟨false⟩ : Reference.Sum) attrs).1 = _ ↔ _
      exact whenAccepted_fst_eq_ok_iff_unit
  exact hparallel.trans hreference.symm

/-! ### Nodes -/

/-- Whether the kernel that serves an identity accepts attributes. -/
def Context.Accepts {κ : Type} [Kernel κ] (c : Context κ) (id : Identity) (attrs : Attributes) :
    Prop :=
  ∃ o b k, c.Serves id o b k ∧ (Kernel.configure k attrs).1 = .ok ()

namespace Context

variable {κ : Type} {c : Context κ} {node : Node} {id : Identity}

/-- A node is bound if it has an identity and the serving kernel accepts its attributes. -/
theorem exists_dispatches_ok_iff [Kernel κ] :
    (∃ b asked, c.Dispatches node (.ok b) asked) ↔
      ∃ id, c.Identifies node id ∧ c.Accepts id node.attributes := by
  constructor
  · rintro ⟨_, _, hrule⟩
    cases hrule with
    | bound identified served accepted => exact ⟨_, identified, _, _, _, served, by rw [accepted]⟩
  · rintro ⟨id, identified, o, b, k, served, accepted⟩
    exact ⟨_, _, .bound identified served (Prod.ext accepted rfl)⟩

end Context

/-! ### The two sessions -/

/-- The parallel backend in front of the reference backend. -/
def Builtin.paired (opsets : OpsetImports) : Context BuiltinKernel :=
  ⟨Builtin.par, some Builtin.cpu, ⟨opsets, true⟩⟩

/-- The reference backend alone; whether a fallback were allowed does not matter. -/
def Builtin.alone (opsets : OpsetImports) (enabled : Bool) : Context BuiltinKernel :=
  ⟨Builtin.cpu, none, ⟨opsets, enabled⟩⟩

namespace Builtin

variable {opsets : OpsetImports} {enabled : Bool} {id : Identity}

/-- Alone, the reference backend accepts what its kernel can be configured for. -/
theorem alone_accepts_iff :
    (alone opsets enabled).Accepts id attrs ↔
      ∃ r, Reference.backend.find? id = some r ∧ (Kernel.configure r attrs).1 = .ok () := by
  constructor
  · rintro ⟨o, b, k, hserves, haccepts⟩
    cases hserves with
    | primary hit =>
      obtain ⟨r, hr, rfl⟩ := Backend.find?_map_eq_some_iff.mp hit
      exact ⟨r, hr, haccepts⟩
    | fallback _ configured => cases configured
  · rintro ⟨r, hr, haccepts⟩
    have hit : cpu.find? id = some (.inl r) :=
      Backend.find?_map_eq_some_iff.mpr ⟨r, hr, rfl⟩
    exact ⟨.primary, cpu, .inl r, .primary hit, haccepts⟩

/-- The pair accepts what the parallel kernel can be configured for and, of the identities that the
parallel backend misses, what the reference kernel can be. -/
theorem paired_accepts_iff :
    (paired opsets).Accepts id attrs ↔
      (∃ p, Parallel.backend.find? id = some p ∧ (Kernel.configure p attrs).1 = .ok ()) ∨
        Parallel.backend.find? id = none ∧
          ∃ r, Reference.backend.find? id = some r ∧ (Kernel.configure r attrs).1 = .ok () := by
  constructor
  · rintro ⟨o, b, k, hserves, haccepts⟩
    cases hserves with
    | primary hit =>
      obtain ⟨p, hp, rfl⟩ := Backend.find?_map_eq_some_iff.mp hit
      exact .inl ⟨p, hp, haccepts⟩
    | fallback miss configured _ hit =>
      obtain rfl := Option.some.inj configured
      obtain ⟨r, hr, rfl⟩ := Backend.find?_map_eq_some_iff.mp hit
      exact .inr ⟨Backend.find?_map_eq_none_iff.mp miss, r, hr, haccepts⟩
  · rintro (⟨p, hp, haccepts⟩ | ⟨hnone, r, hr, haccepts⟩)
    · have hit : par.find? id = some (.inr p) :=
        Backend.find?_map_eq_some_iff.mpr ⟨p, hp, rfl⟩
      exact ⟨.primary, par, .inr p, .primary hit, haccepts⟩
    · have miss : par.find? id = none := Backend.find?_map_eq_none_iff.mpr hnone
      have hit : cpu.find? id = some (.inl r) :=
        Backend.find?_map_eq_some_iff.mpr ⟨r, hr, rfl⟩
      exact ⟨.fallback, cpu, .inl r, .fallback miss rfl rfl hit, haccepts⟩

/-- Whether an identity is that of a softmax whose axis the parallel backend refuses. -/
def RefusesAxis (id : Identity) (attrs : Attributes) : Prop :=
  id.op = "Softmax" ∧ id.domain = "ai.onnx" ∧ 13 ≤ id.version ∧ attrs.HasOtherAxis

/-- An identity is accepted by the pair exactly if it is by the reference backend alone and is not
that of a softmax whose axis the parallel backend refuses. -/
theorem paired_accepts_iff_alone (hdomain : Domain.normalize id.domain = id.domain) :
    (paired opsets).Accepts id attrs ↔
      (alone opsets enabled).Accepts id attrs ∧ ¬ RefusesAxis id attrs := by
  have hrefuses : RefusesAxis id attrs ↔
      Parallel.backend.find? id = some ⟨.softmax, false⟩ ∧ attrs.HasOtherAxis := by
    rw [find?_eq_softmax_iff, hdomain, and_assoc, and_assoc]
    rfl
  rw [paired_accepts_iff, alone_accepts_iff, hrefuses]
  cases hp : Parallel.backend.find? id with
  | none => simp
  | some p =>
    obtain ⟨hfresh, -, hr⟩ := reference_find? hp
    obtain ⟨op, ready⟩ := p
    obtain rfl : ready = false := hfresh
    by_cases hop : op = .softmax
    · subst hop
      simp [hr, ParallelOp.softmax_configure_iff]
    · simp [hr, ParallelOp.configure_iff hop, hop]

/-- A node is bound by the pair exactly if it is by the reference backend alone and is not a softmax
whose axis the parallel backend refuses. -/
theorem paired_dispatches_iff {node : Node} :
    (∃ b asked, (paired opsets).Dispatches node (.ok b) asked) ↔
      (∃ b asked, (alone opsets enabled).Dispatches node (.ok b) asked) ∧
        ∀ id, (paired opsets).identityOf node = .ok id → ¬ RefusesAxis id node.attributes := by
  rw [Context.exists_dispatches_ok_iff, Context.exists_dispatches_ok_iff]
  -- both contexts have the same imports, so a node has the same identity in them
  have hsame (id : Identity) :
      (alone opsets enabled).Identifies node id ↔ (paired opsets).Identifies node id :=
    (Context.identifies_iff (c := alone opsets enabled)).trans
      (Context.identifies_iff (c := paired opsets)).symm
  constructor
  · rintro ⟨id, hid, haccepts⟩
    obtain ⟨haccepts, hother⟩ := (paired_accepts_iff_alone hid.normalize_domain).mp haccepts
    refine ⟨⟨id, (hsame id).mpr hid, haccepts⟩, fun id' hid' => ?_⟩
    obtain rfl := Except.ok.inj (hid.identityOf_eq.symm.trans hid')
    exact hother
  · rintro ⟨⟨id, hid, haccepts⟩, hother⟩
    have hid := (hsame id).mp hid
    exact ⟨id, hid, (paired_accepts_iff_alone hid.normalize_domain).mpr
      ⟨haccepts, hother id hid.identityOf_eq⟩⟩

end Builtin

namespace Session

/-- Sessions whose contexts import the same opsets give the same ids to a list that both resolve,
and bind the same names and identities in the same order. -/
theorem resolveGraph_names_eq {κ μ : Type} [Kernel κ] [Kernel μ] {c : Context κ} {c' : Context μ}
    {nodes : List Node} {ids ids' : List KernelId}
    (h : ((ofContext c).resolveGraph nodes).1 = .ok ids)
    (h' : ((ofContext c').resolveGraph nodes).1 = .ok ids')
    (hopsets : c.config.opsets = c'.config.opsets) :
    ids = ids' ∧
      ((ofContext c).resolveGraph nodes).2.kernels.map (fun b => (b.node, b.identity)) =
        ((ofContext c').resolveGraph nodes).2.kernels.map fun b => (b.node, b.identity) := by
  obtain ⟨bound, asked, hlist⟩ := (resolveGraph_ok_iff rfl).mp ⟨ids, h⟩
  obtain ⟨bound', asked', hlist'⟩ := (resolveGraph_ok_iff rfl).mp ⟨ids', h'⟩
  have hrun := resolveGraph_of_dispatchesList (s := ofContext c) hlist rfl rfl
  have hrun' := resolveGraph_of_dispatchesList (s := ofContext c') hlist' rfl rfl
  rw [hrun] at h ⊢
  rw [hrun'] at h' ⊢
  constructor
  · rw [hlist.length_eq] at h
    rw [hlist'.length_eq] at h'
    exact Except.ok.inj (h.symm.trans h')
  · have hidentity : c.identityOf = c'.identityOf := by
      funext node
      simp only [Context.identityOf, hopsets]
    have hnames : bound.map (fun b => (b.node, Except.ok b.identity)) =
        nodes.map fun node => (node.name, c.identityOf node) := hlist.names_eq
    rw [hidentity] at hnames
    have hpairs := hnames.trans hlist'.names_eq.symm
    have hok : Function.Injective
        (Prod.map id Except.ok : String × Identity → String × Except ResolveError Identity) :=
      Function.injective_id.prodMap fun _ _ heq => Except.ok.inj heq
    refine List.map_injective_iff.mpr hok ?_
    rw [List.map_map, List.map_map]
    exact hpairs

/-- With the parallel backend in front of it, the reference backend resolves the same lists of nodes
as alone, but for those with a softmax whose axis the parallel backend refuses. Where both resolve a
list, they bind the same names and identities in the same order. -/
theorem resolveGraph_paired_iff (opsets : OpsetImports) (enabled : Bool) (nodes : List Node) :
    let paired := (ofContext (Builtin.paired opsets)).resolveGraph nodes
    let alone := (ofContext (Builtin.alone opsets enabled)).resolveGraph nodes
    ((∃ ids, paired.1 = .ok ids) ↔
      (∃ ids, alone.1 = .ok ids) ∧
        ∀ node ∈ nodes, ∀ id, (Builtin.paired opsets).identityOf node = .ok id →
          ¬ Builtin.RefusesAxis id node.attributes) ∧
      ∀ ids ids', paired.1 = .ok ids → alone.1 = .ok ids' →
        ids = ids' ∧ paired.2.kernels.map (fun b => (b.node, b.identity)) =
          alone.2.kernels.map (fun b => (b.node, b.identity)) := by
  intro paired alone
  constructor
  · rw [resolveGraph_ok_iff rfl, resolveGraph_ok_iff rfl, Context.exists_dispatchesList_none_iff,
      Context.exists_dispatchesList_none_iff, ← forall₂_and]
    exact forall₂_congr fun node _ => Builtin.paired_dispatches_iff
  · intro ids ids' h h'
    exact resolveGraph_names_eq h h' rfl

/-- A softmax over the second axis is resolved by the reference backend alone, but not with the
parallel backend in front of it. -/
theorem resolveGraph_paired_softmax :
    let softmax := { Node.ofOp "Softmax" with attributes := .ofList [("axis", .int 1)] }
    let nodes : List Node := [.ofOp "Relu", softmax, .ofOp "Tanh"]
    let opsets := OpsetImports.empty.insert (.of "" 13)
    ((ofContext (Builtin.alone opsets true)).resolveGraph nodes).1 = .ok [⟨0⟩, ⟨1⟩, ⟨2⟩] ∧
      (Builtin.paired opsets).identityOf softmax = .ok ⟨"Softmax", "ai.onnx", 13⟩ ∧
      ¬ ∃ ids, ((ofContext (Builtin.paired opsets)).resolveGraph nodes).1 = .ok ids := by
  intro softmax nodes opsets
  refine ⟨rfl, rfl, fun hpaired => ?_⟩
  have hrefused := ((resolveGraph_paired_iff opsets true nodes).1.mp hpaired).2 softmax
    (by simp [nodes]) ⟨"Softmax", "ai.onnx", 13⟩ rfl
  exact hrefused ⟨rfl, rfl, by decide, 1, rfl, by decide⟩

end Session

end KernelDispatch
