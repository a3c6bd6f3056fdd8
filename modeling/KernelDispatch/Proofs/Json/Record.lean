import KernelDispatch.Json.Typed
import KernelDispatch.Proofs.Loops

/-!
# One member of a record

A record with an open place can be filled with one tree or another. If it reads with one of them,
then what it reads as with any other depends only on the reading of that tree: every step that takes
another member does the same whatever the open place holds. The same is shown of an open place in a
list. Likewise, what every step keeps true of the draft is true of it in the end.
-/

namespace KernelDispatch.Json

variable {α σ : Type}

/-! ### Steps of a kind -/

/-- A kind of steps that includes doing nothing, failing, and one step of the kind after another. -/
structure Composable (C : (σ → Except Fault σ) → Prop) : Prop where
  pure : C .ok
  fail : ∀ e, C fun _ => .error e
  bind : ∀ {f g : σ → Except Fault σ}, C f → C g → C fun s => f s >>= g

namespace Composable

variable {β : Type} {C : (σ → Except Fault σ) → Prop} (hC : Composable C)
include hC

/-- A check that leaves the state as it is. -/
theorem check (outcome : Except Fault Unit) : C fun s => outcome >>= fun _ => .ok s := by
  cases outcome with
  | error e => exact hC.fail e
  | ok u => exact hC.pure

/-- A loop of steps. -/
theorem foldlM {step : σ → β → Except Fault σ} {xs : List β} (h : ∀ x, C fun s => step s x) :
    C fun s => xs.foldlM step s := by
  induction xs with
  | nil => exact hC.pure
  | cons x xs ih => simpa only [List.foldlM_cons] using hC.bind (h x) ih

/-- The fields of an array. -/
theorem readFields {fields : List (σ → Tree → Except Fault σ)} {items : List Tree} {tail : Tail}
    (h : ∀ field ∈ fields, ∀ tree, C fun s => field s tree) :
    C fun s => readFields s fields items tail := by
  induction fields generalizing items with
  | nil =>
    cases items with
    | nil => exact hC.check tail.read
    | cons item items => exact hC.fail .malformed
  | cons field fields ih =>
    rw [List.forall_mem_cons] at h
    cases items with
    | nil => exact hC.check tail.read
    | cons item items => exact hC.bind (h.1 item) (ih h.2)

/-- The members of an object. -/
theorem foldMembers {step : σ → String → Tree → Except Fault σ}
    (h : ∀ key value, C fun s => step s key value) (tree : Tree) :
    C fun s => tree.foldMembers step s := by
  cases tree with
  | object members tail =>
    refine hC.bind (hC.foldlM fun m => ?_) (hC.check tail.read)
    cases m.1 with
    | none => exact hC.fail .malformed
    | some key => exact h key m.2
  | _ => exact hC.fail _

/-- A record is read in steps of a kind if each of its members is. -/
theorem readRecord {names : List String} {step : σ → String → Tree → Except Fault σ}
    (h : ∀ key value, C fun s => step s key value) (tree : Tree) :
    C fun s => readRecord names step s tree := by
  have hmembers := hC.foldMembers h tree
  cases tree with
  | array items tail =>
    refine hC.readFields fun field hfield tree => ?_
    obtain ⟨key, -, rfl⟩ := List.mem_map.mp hfield
    exact h key tree
  | _ => exact hmembers

end Composable

/-! ### Steps that pass over a part of the state -/

/-- Whether a step does the same whatever has been put into a part of the state, and leaves it
there. -/
def Indifferent (put : α → σ → σ) (f : σ → Except Fault σ) : Prop :=
  ∀ s, ∃ r : Except Fault σ, ∀ a, f (put a s) = r.map (put a)

namespace Indifferent

variable {β : Type} {put : α → σ → σ}

/-- Indifferent steps one after another are indifferent. -/
theorem composable : Composable (Indifferent put) where
  pure s := ⟨.ok s, fun _ => rfl⟩
  fail e _ := ⟨.error e, fun _ => rfl⟩
  bind {f g} hf hg s := by
    obtain ⟨r, hr⟩ := hf s
    cases r with
    | error e => exact ⟨.error e, fun a => congrArg (· >>= g) (hr a)⟩
    | ok t =>
      obtain ⟨r', hr'⟩ := hg t
      exact ⟨r', fun a => (congrArg (· >>= g) (hr a)).trans (hr' a)⟩

/-- A member that must not have been seen before, stored beside the part. -/
theorem once {seen : σ → Option β} {read : Except Fault β} {store : β → σ → σ}
    (hseen : ∀ a s, seen (put a s) = seen s)
    (hstore : ∀ a b s, store b (put a s) = put a (store b s)) :
    Indifferent put fun s => once (seen s) read fun b => store b s := by
  intro s
  refine ⟨Json.once (seen s) read fun b => store b s, fun a => ?_⟩
  simp only [Json.once, hseen, hstore]
  split
  · rfl
  · cases read <;> rfl

/-- A member that has been seen already. -/
theorem once_seen {seen : σ → Option β} {read : Except Fault β} {store : β → σ → σ}
    (hseen : ∀ a s, (seen (put a s)).isSome) :
    Indifferent put fun s => Json.once (seen s) read fun b => store b s :=
  fun _ => ⟨.error .mistyped, fun a => if_pos (hseen a _)⟩

end Indifferent

/-! ### Steps that keep a property of the state -/

/-- Whether a step that succeeds keeps a property of the state. -/
def Keeps (P : σ → Prop) (f : σ → Except Fault σ) : Prop := ∀ s t, P s → f s = .ok t → P t

namespace Keeps

variable {β : Type} {P : σ → Prop}

/-- Steps that keep a property keep it one after another. -/
theorem composable : Composable (Keeps P) where
  pure _ _ hs h := Except.ok.inj h ▸ hs
  fail _ _ _ _ := nofun
  bind hf hg s t hs h := by
    obtain ⟨u, hfirst, hsecond⟩ := bind_eq_ok_iff.mp h
    exact hg u t (hf s u hs hfirst) hsecond

/-- A member that must not have been seen before. -/
theorem once {seen : σ → Option β} {read : Except Fault β} {store : β → σ → σ}
    (h : ∀ b s, read = .ok b → P s → P (store b s)) :
    Keeps P fun s => once (seen s) read fun b => store b s := by
  intro s t hs hstep
  simp only [Json.once] at hstep
  split at hstep
  · cases hstep
  · obtain ⟨b, hread, rfl⟩ := map_eq_ok_iff.mp hstep
    exact h b s hread hs

end Keeps

/-! ### Reading a split list or object -/

section Split

/-- Members are folded from the front, the first ones as if the object ended behind them. -/
theorem foldMembers_append {step : σ → String → Tree → Except Fault σ} {s : σ}
    {before after : List (Option String × Tree)} {tail : Tail} :
    Tree.foldMembers step s (.object (before ++ after) tail) =
      Tree.foldMembers step s (.object before .closed) >>= fun s =>
        Tree.foldMembers step s (.object after tail) := by
  simp only [Tree.foldMembers, List.foldlM_append, bind_assoc, Tail.read, ok_bind, pure_bind]

/-- The first member is taken before the others. -/
theorem foldMembers_cons {step : σ → String → Tree → Except Fault σ} {s : σ} {key : String}
    {value : Tree} {rest : List (Option String × Tree)} {tail : Tail} :
    Tree.foldMembers step s (.object ((some key, value) :: rest) tail) =
      step s key value >>= fun s => Tree.foldMembers step s (.object rest tail) := by
  simp only [Tree.foldMembers, List.foldlM_cons, bind_assoc]

/-- Fields of an array before and behind a place. -/
theorem readFields_append {fields : List (σ → Tree → Except Fault σ)} {s : σ}
    {field : σ → Tree → Except Fault σ} {before after : List Tree} {tree : Tree} {tail : Tail}
    (place : fields[before.length]? = some field) :
    readFields s fields (before ++ tree :: after) tail =
      readFields s fields before .closed >>= fun s => field s tree >>= fun s =>
        readFields s (fields.drop (before.length + 1)) after tail := by
  induction before generalizing fields s with
  | nil =>
    cases fields with
    | nil => cases place
    | cons first fields =>
      obtain rfl : first = field := Option.some.inj place
      rfl
  | cons item before ih =>
    cases fields with
    | nil => cases place
    | cons first fields =>
      simp only [List.cons_append, readFields, bind_assoc]
      exact bind_congr fun s => ih place

end Split

/-! ### Records with an open place -/

/-- A record but for its member of a name: an object or, where the fields stand in order, an
array. -/
inductive RecordSite (names : List String) (name : String) where
  | member (before after : List (Option String × Tree))
  | item (before after : List Tree) (place : names[before.length]? = some name)

namespace RecordSite

variable {names : List String} {name : String} {step : σ → String → Tree → Except Fault σ}
  {blank : σ}

/-- The record with a tree for the member. -/
def fill : RecordSite names name → Tree → Tree
  | member before after, tree => .object (before ++ (some name, tree) :: after) .closed
  | item before after _, tree => .array (before ++ tree :: after) .closed

/-- The record up to the open place. -/
def front : RecordSite names name → Tree
  | member before _ => .object before .closed
  | item before _ _ => .array before .closed

/-- Take the members behind the open place. -/
def readBack (step : σ → String → Tree → Except Fault σ) (s : σ) :
    RecordSite names name → Except Fault σ
  | member _ after => Tree.foldMembers step s (.object after .closed)
  | item before after _ =>
    readFields s ((names.drop (before.length + 1)).map fun name s item => step s name item) after
      .closed

/-- A record with a filled place is read up to the place, at it, and behind it. -/
theorem readRecord_fill (site : RecordSite names name) (tree : Tree) :
    readRecord names step blank (site.fill tree) =
      readRecord names step blank site.front >>= fun s =>
        step s name tree >>= fun s => site.readBack step s := by
  cases site with
  | member before after =>
    simp only [fill, front, readBack, readRecord, foldMembers_append, foldMembers_cons]
  | item before after place =>
    have hfield : (names.map fun name s item => step s name item)[before.length]? =
        some fun s item => step s name item := by
      rw [List.getElem?_map, place, Option.map_some]
    simp only [fill, front, readBack, readRecord, readFields_append hfield, List.map_drop]

/-- If no member depends on a part, what is read behind a place does not. -/
theorem indifferent_readBack {put : α → σ → σ} (site : RecordSite names name)
    (h : ∀ key tree, Indifferent put fun s => step s key tree) :
    Indifferent put fun s => site.readBack step s := by
  cases site with
  | member before after =>
    simp only [readBack]
    exact Indifferent.composable.foldMembers h _
  | item before after place =>
    simp only [readBack]
    refine Indifferent.composable.readFields fun field hfield tree => ?_
    obtain ⟨key, -, rfl⟩ := List.mem_map.mp hfield
    exact h key tree

/-- A record that reads with one tree in its open place reads with every other as that tree's own
reading, put into the same draft. -/
theorem exists_readRecord_fill {put : α → σ → σ} {seen : σ → Option α}
    {read : Tree → Except Fault α} {filler : Tree} {u : σ} (site : RecordSite names name)
    (hstep : ∀ s tree, step s name tree = once (seen s) (read tree) fun a => put a s)
    (hindifferent : ∀ key tree, Indifferent put fun s => step s key tree)
    (h : readRecord names step blank (site.fill filler) = .ok u) :
    ∃ base, ∀ tree, readRecord names step blank (site.fill tree) =
      (read tree).map fun a => put a base := by
  rw [readRecord_fill] at h
  obtain ⟨s, hfront, h⟩ := bind_eq_ok_iff.mp h
  obtain ⟨t, ht, hback⟩ := bind_eq_ok_iff.mp h
  have hunseen : ¬ (seen s).isSome := by
    intro hseen
    rw [hstep, once, if_pos hseen] at ht
    cases ht
  have hput : ∀ tree, step s name tree = (read tree).map fun a => put a s := fun tree => by
    rw [hstep, once, if_neg hunseen]
  obtain ⟨a, -, rfl⟩ := map_eq_ok_iff.mp ((hput filler).symm.trans ht)
  -- what the other members make of the state does not depend on what has been put there
  obtain ⟨r, hr⟩ := site.indifferent_readBack hindifferent s
  obtain ⟨base, rfl, -⟩ := map_eq_ok_iff.mp ((hr a).symm.trans hback)
  refine ⟨base, fun tree => ?_⟩
  rw [readRecord_fill, hfront, ok_bind, hput]
  cases read tree with
  | error e => rfl
  | ok b => exact hr b

end RecordSite

/-- A list that reads with one tree in a place reads with every other as that tree's own reading
among the same values. -/
theorem exists_listOf_append {read : Tree → Except Fault α} {before after : List Tree}
    {filler : Tree} {values : List α}
    (h : Tree.listOf read (.array (before ++ filler :: after) .closed) = .ok values) :
    ∃ front back : List α, front.length = before.length ∧
      ∀ tree, Tree.listOf read (.array (before ++ tree :: after) .closed) =
        (read tree).map fun a => front ++ a :: back := by
  have hsplit : ∀ tree, Tree.listOf read (.array (before ++ tree :: after) .closed) =
      before.mapM read >>= fun front => read tree >>= fun a => after.mapM read >>= fun back =>
        pure (front ++ a :: back) := by
    intro tree
    simp only [Tree.listOf, List.mapM_append, List.mapM_cons, bind_assoc, pure_bind, Tail.read,
      ok_bind]
  rw [hsplit] at h
  obtain ⟨front, hfront, h⟩ := bind_eq_ok_iff.mp h
  obtain ⟨_, -, h⟩ := bind_eq_ok_iff.mp h
  obtain ⟨back, hback, -⟩ := bind_eq_ok_iff.mp h
  refine ⟨front, back, length_of_mapM_eq_ok hfront, fun tree => ?_⟩
  rw [hsplit, hfront, hback]
  cases read tree <;> rfl

end KernelDispatch.Json
