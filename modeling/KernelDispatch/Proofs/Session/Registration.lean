import KernelDispatch.Proofs.Keys
import KernelDispatch.Proofs.Loops
import KernelDispatch.Proofs.Ordered
import KernelDispatch.Session.Resolution
import Mathlib.Data.String.Basic

/-!
# Sessions on registered backends

Registering backends in order succeeds exactly if their names differ, and otherwise fails at the
first backend whose name an earlier one has. So in a registry a name stands for one backend: names
that differ are those of backends that differ. The session compares backends and its callers compare
names, and it is this one-to-one correspondence that makes the two comparisons agree.

What opening a session by names comes to is given as rules over the list of registered backends. A
resolution drops a fallback that names the primary backend, so the rule that refuses such a fallback
never applies to it.
-/

namespace KernelDispatch

variable {κ : Type} {backends : List (Backend κ)} {r : Registry κ}

namespace Registry

/-! ### Registering -/

/-- A registry contains the names of its backends. -/
theorem contains_iff {name : String} :
    r.contains name = true ↔ name ∈ r.backends.map (·.name) := by
  simp [contains, get?, List.find?_isSome]

/-- A backend is registered behind the others if its name is new. -/
theorem register_eq_ok_iff {b : Backend κ} {r' : Registry κ} :
    r.register b = .ok r' ↔ b.name ∉ r.backends.map (·.name) ∧ r' = ⟨r.backends ++ [b]⟩ := by
  rw [← contains_iff, register]
  split
  · next htaken => exact iff_of_false nofun fun h => h.1 htaken
  · next hnew => rw [and_iff_right hnew, Except.ok.injEq, eq_comm]

/-- A backend whose name is taken is refused by that name. -/
theorem register_eq_error_iff {b : Backend κ} {e : RegistryError} :
    r.register b = .error e ↔ b.name ∈ r.backends.map (·.name) ∧ e = .duplicateBackend b.name := by
  rw [← contains_iff, register]
  split
  · next htaken => rw [and_iff_right htaken, Except.error.injEq, eq_comm]
  · next hnew => exact iff_of_false nofun fun h => hnew h.1

/-- The last backend of a list is registered last. -/
theorem ofList_concat (backends : List (Backend κ)) (b : Backend κ) :
    ofList (backends ++ [b]) = ofList backends >>= (·.register b) := by
  simp [ofList, List.foldlM_append]

/-- Backends of different names are registered as they are. -/
theorem ofList_eq_ok_iff :
    ofList backends = .ok r ↔ (backends.map (·.name)).Nodup ∧ r = ⟨backends⟩ := by
  induction backends using List.reverseRecOn generalizing r with
  | nil => simp [ofList, empty, pure, Except.pure, eq_comm]
  | append_singleton backends b ih =>
    rw [ofList_concat, bind_eq_ok_iff, List.map_append, List.map_singleton,
      ← List.concat_eq_append, List.nodup_concat]
    simp only [ih, register_eq_ok_iff]
    constructor
    · rintro ⟨_, ⟨hnodup, rfl⟩, hnew, rfl⟩
      exact ⟨⟨hnew, hnodup⟩, rfl⟩
    · rintro ⟨⟨hnew, hnodup⟩, rfl⟩
      exact ⟨_, ⟨hnodup, rfl⟩, hnew, rfl⟩

/-- Otherwise the error names the first backend whose name is taken. -/
theorem ofList_eq_error_iff {e : RegistryError} :
    ofList backends = .error e ↔
      ∃ b, FirstRepeated (·.name) backends b ∧ e = .duplicateBackend b.name := by
  induction backends using List.reverseRecOn generalizing e with
  | nil => simp [ofList, not_firstRepeated_nil, pure, Except.pure]
  | append_singleton backends b ih =>
    rw [ofList_concat, bind_eq_error_iff]
    simp only [ih, ofList_eq_ok_iff, register_eq_error_iff, firstRepeated_concat]
    constructor
    · rintro (⟨c, hc, rfl⟩ | ⟨_, ⟨hnodup, rfl⟩, htaken, rfl⟩)
      · exact ⟨c, .inl hc, rfl⟩
      · exact ⟨b, .inr ⟨hnodup, htaken, rfl⟩, rfl⟩
    · rintro ⟨c, hc | ⟨hnodup, htaken, rfl⟩, rfl⟩
      · exact .inl ⟨c, hc, rfl⟩
      · exact .inr ⟨_, ⟨hnodup, rfl⟩, htaken, rfl⟩

/-! ### Looking up -/

/-- The names of a registry are listed once each and in order. -/
theorem pairwise_names (hnodup : (r.backends.map (·.name)).Nodup) : r.names.Pairwise (· < ·) := by
  have hperm : r.names.Perm (r.backends.map (·.name)) := perm_sortStably _ _
  have hsorted : r.names.Pairwise (· ≤ ·) := by
    have h := List.pairwise_insertionSort (fun a b : String => decide (a ≤ b) = true)
      (r.backends.map (·.name))
    rw [← sortStably_eq_insertionSort] at h
    exact h.imp of_decide_eq_true
  have hdistinct : r.names.Pairwise (· ≠ ·) := hperm.nodup_iff.mpr hnodup
  exact hsorted.imp₂ (fun _ _ => lt_of_le_of_ne) hdistinct

/-- The listed names are those of the backends. -/
theorem mem_names {name : String} : name ∈ r.names ↔ name ∈ r.backends.map (·.name) :=
  (perm_sortStably _ _).mem_iff

/-- A registered name finds its backend. -/
theorem get?_eq_some_iff (hnodup : (r.backends.map (·.name)).Nodup) {name : String}
    {b : Backend κ} : r.get? name = some b ↔ b ∈ r.backends ∧ b.name = name :=
  find?_eq_some_iff_of_nodup hnodup

/-- Only a name that no backend has is not found. -/
theorem get?_eq_none_iff {name : String} :
    r.get? name = none ↔ name ∉ r.backends.map (·.name) := by
  simp [get?, List.find?_eq_none]

end Registry

/-! ### Opening sessions -/

/-- What opening a session on registered backends by their names comes to. -/
inductive Opens (backends : List (Backend κ)) (config : SessionConfig) (primary : String) :
    Option String → Except SessionError (Session κ) → Prop where
  | unknownPrimary {fallback : Option String} (unknown : primary ∉ backends.map (·.name)) :
      Opens backends config primary fallback (.error (.unknownBackend primary))
  | unknownFallback {fallback : String} (known : primary ∈ backends.map (·.name))
      (unknown : fallback ∉ backends.map (·.name)) :
      Opens backends config primary (some fallback) (.error (.unknownBackend fallback))
  | same (known : primary ∈ backends.map (·.name)) :
      Opens backends config primary (some primary) (.error (.fallbackIsPrimary primary))
  | alone {b : Backend κ} (found : b ∈ backends) (named : b.name = primary) :
      Opens backends config primary none
        (.ok ⟨⟨b, none, config⟩, .active, [], ⟨none, none⟩, ⟨.none, .none⟩⟩)
  | paired {b c : Backend κ} (found : b ∈ backends) (named : b.name = primary)
      (found' : c ∈ backends) (differs : c.name ≠ primary) :
      Opens backends config primary (some c.name)
        (.ok ⟨⟨b, some c, config⟩, .active, [], ⟨none, none⟩, ⟨.none, .none⟩⟩)

variable {config : SessionConfig} {primary : String} {fallback : Option String}
  {result : Except SessionError (Session κ)}

/-- Whatever the names, one of the rules applies. -/
theorem exists_opens (backends : List (Backend κ)) (config : SessionConfig) (primary : String)
    (fallback : Option String) : ∃ result, Opens backends config primary fallback result := by
  by_cases hprimary : primary ∈ backends.map (·.name)
  · obtain ⟨b, hb, hname⟩ := List.mem_map.mp hprimary
    cases fallback with
    | none => exact ⟨_, .alone hb hname⟩
    | some name =>
      by_cases hfallback : name ∈ backends.map (·.name)
      · obtain ⟨c, hc, rfl⟩ := List.mem_map.mp hfallback
        by_cases hsame : c.name = primary
        · rw [hsame]
          exact ⟨_, .same hprimary⟩
        · exact ⟨_, .paired hb hname hc hsame⟩
      · exact ⟨_, .unknownFallback hprimary hfallback⟩
  · exact ⟨_, .unknownPrimary hprimary⟩

namespace Session

/-- A backend is found by its name if names are distinct. -/
theorem findBackend_of_mem (hnodup : (r.backends.map (·.name)).Nodup) {b : Backend κ}
    (hb : b ∈ r.backends) : findBackend r b.name = .ok b := by
  rw [findBackend, (Registry.get?_eq_some_iff hnodup).mpr ⟨hb, rfl⟩]

/-- A name that no backend has is unknown. -/
theorem findBackend_of_not_mem {name : String} (hname : name ∉ r.backends.map (·.name)) :
    findBackend r name = .error (.unknownBackend name) := by
  rw [findBackend, Registry.get?_eq_none_iff.mpr hname]

/-- Opening a session by names follows the rules. -/
theorem ofRegistry_of_opens (hnodup : (r.backends.map (·.name)).Nodup)
    (h : Opens r.backends config primary fallback result) :
    ofRegistry r primary fallback config = result := by
  cases h with
  | unknownPrimary unknown =>
    rw [ofRegistry, findBackend_of_not_mem unknown]
    rfl
  | unknownFallback known unknown =>
    obtain ⟨b, hb, rfl⟩ := List.mem_map.mp known
    rw [ofRegistry, findBackend_of_mem hnodup hb, ok_bind, Option.mapM_some,
      findBackend_of_not_mem unknown]
    rfl
  | same known =>
    obtain ⟨b, hb, rfl⟩ := List.mem_map.mp known
    rw [ofRegistry, findBackend_of_mem hnodup hb, ok_bind, Option.mapM_some,
      findBackend_of_mem hnodup hb]
    simp [of, Context.of, Backend.same, Except.map, Option.filter]
  | alone found named =>
    subst named
    rw [ofRegistry, findBackend_of_mem hnodup found]
    rfl
  | paired found named found' differs =>
    subst named
    rw [ofRegistry, findBackend_of_mem hnodup found, ok_bind, Option.mapM_some,
      findBackend_of_mem hnodup found']
    simp [of, Context.of, Backend.same, Except.map, Option.filter, Ne.symm differs, ofContext]

/-- A session is opened from a registry, or refused, exactly as the rules say. -/
theorem ofRegistry_eq_iff_opens (hnodup : (r.backends.map (·.name)).Nodup) :
    ofRegistry r primary fallback config = result ↔
      Opens r.backends config primary fallback result := by
  constructor
  · rintro rfl
    obtain ⟨result, hresult⟩ := exists_opens r.backends config primary fallback
    rwa [ofRegistry_of_opens hnodup hresult]
  · exact ofRegistry_of_opens hnodup

end Session

/-- The fallback that a resolution uses is not named like the primary backend. -/
theorem BackendChoice.ne_primary_of_mem_fallback? {choice : BackendChoice} {name : String}
    (h : choice.fallback? = some name) : name ≠ choice.primary := by
  rw [fallback?] at h
  split at h
  · cases h
  · next hused =>
    obtain rfl := Option.some.inj h
    exact fun hsame => hused (by simp [hsame])

variable [Kernel κ]

/-- No resolution on registered backends fails because the fallback is the primary backend. -/
theorem resolveLines_ne_fallbackIsPrimary (hnodup : (r.backends.map (·.name)).Nodup)
    (choice : BackendChoice) (config : SessionConfig) (nodes : List Node) (name : String) :
    resolveLines r choice config nodes ≠ .error (.session (.fallbackIsPrimary name)) := by
  intro h
  rw [resolveLines] at h
  split at h
  · next e hopen =>
    injection h with h
    injection h with h
    subst h
    rw [Session.ofRegistry_eq_iff_opens hnodup] at hopen
    generalize hfallback : choice.fallback? = fallback at hopen
    cases hopen with
    | same known => exact BackendChoice.ne_primary_of_mem_fallback? hfallback rfl
  · split at h
    · cases h
    · cases h

/-- Registering backends in order fails exactly if two of them share a name, at the first one whose
name is taken. Otherwise the names are those of the backends in increasing order, each name finds
its backend, a session opens by names as the rules say, and no resolution finds its fallback to be
its primary backend. -/
theorem Registry.ofList_answers (backends : List (Backend κ)) :
    ((∃ e, ofList backends = .error e) ↔ ¬ (backends.map (·.name)).Nodup) ∧
      (∀ e, ofList backends = .error e ↔
        ∃ b, FirstRepeated (·.name) backends b ∧ e = .duplicateBackend b.name) ∧
      ∀ r, ofList backends = .ok r →
        (r.names.Pairwise (· < ·) ∧ ∀ name, name ∈ r.names ↔ name ∈ backends.map (·.name)) ∧
          (∀ name b, r.get? name = some b ↔ b ∈ backends ∧ b.name = name) ∧
          (∀ config primary fallback result,
            Session.ofRegistry r primary fallback config = result ↔
              Opens backends config primary fallback result) ∧
          ∀ choice config nodes name,
            resolveLines r choice config nodes ≠ .error (.session (.fallbackIsPrimary name)) := by
  refine ⟨?_, fun e => ofList_eq_error_iff, fun r hr => ?_⟩
  · simp only [ofList_eq_error_iff, ← exists_firstRepeated_iff]
    constructor
    · rintro ⟨e, b, hb, -⟩
      exact ⟨b, hb⟩
    · rintro ⟨b, hb⟩
      exact ⟨_, b, hb, rfl⟩
  · obtain ⟨hnodup, rfl⟩ := ofList_eq_ok_iff.mp hr
    exact ⟨⟨pairwise_names hnodup, fun name => mem_names⟩,
      fun name b => get?_eq_some_iff hnodup,
      fun config primary fallback result => Session.ofRegistry_eq_iff_opens hnodup,
      resolveLines_ne_fallbackIsPrimary hnodup⟩

/-- The built-in backends can be registered once each. The reference backend cannot be its own
fallback, but a resolution may name it twice. -/
theorem Registry.ofList_answers_builtin :
    let config := SessionConfig.ofOpset (.of Domain.standard 13)
    ofList [Builtin.par, Builtin.cpu, Builtin.cpu, Builtin.par] = .error (.duplicateBackend "cpu") ∧
      ofList [Builtin.par, Builtin.cpu] = .ok Builtin.registry ∧
      Builtin.registry.names.Pairwise (· < ·) ∧ "cpu" ∈ Builtin.registry.names ∧
      Session.ofRegistry Builtin.registry "cpu" (some "cpu") config =
        .error (.fallbackIsPrimary "cpu") ∧
      resolveLines Builtin.registry ⟨"cpu", "cpu", false⟩ config [] ≠
        .error (.session (.fallbackIsPrimary "cpu")) := by
  intro config
  have hregistered : ofList [Builtin.par, Builtin.cpu] = .ok Builtin.registry := rfl
  have hrepeated : FirstRepeated (·.name)
      [Builtin.par, Builtin.cpu, Builtin.cpu, Builtin.par] Builtin.cpu :=
    ⟨[Builtin.par, Builtin.cpu], [Builtin.par], rfl, by decide, by decide⟩
  have hcpu : "cpu" ∈ [Builtin.par, Builtin.cpu].map (·.name) := by decide
  obtain ⟨-, hrefused, -⟩ :=
    Registry.ofList_answers [Builtin.par, Builtin.cpu, Builtin.cpu, Builtin.par]
  obtain ⟨-, -, hanswers⟩ := Registry.ofList_answers [Builtin.par, Builtin.cpu]
  obtain ⟨⟨hsorted, hnames⟩, -, hopens, hresolves⟩ := hanswers _ hregistered
  exact ⟨(hrefused _).mpr ⟨_, hrepeated, rfl⟩, hregistered, hsorted, (hnames _).mpr hcpu,
    (hopens _ _ _ _).mpr (.same hcpu), hresolves _ _ _ _⟩

end KernelDispatch
