import KernelDispatch.CommandLine.Arguments
import KernelDispatch.Proofs.Loops

/-!
# Options that may be repeated

An option that may be given again does not stand in the way of any other, so such options can be put
in front of all arguments of a command: as much is read of these as without them, and the command gets
the values in front of those that it got before. So are the imports of `resolve`.
-/

namespace KernelDispatch.CommandLine

variable {specs : List OptionSpec} {spec : OptionSpec} {top : Bool} {extra given : Given}
  {args : List String}

/-! ### More options in front -/

/-- Options of a kind that may be given again. -/
def MayRepeat (specs : List OptionSpec) (extra : Given) : Prop :=
  ∀ spec ∈ specs, spec.repeatable = false → ∀ p ∈ extra, p.1 ≠ spec.name

/-- What is read of arguments, behind more options. -/
def readBehind (extra : Given) (read : Given × List String) : Given × List String :=
  (extra ++ read.1, read.2)

/-- Giving a value is not disturbed by repeatable options in front. -/
theorem give_append (hspec : spec ∈ specs) (hextra : MayRepeat specs extra) (value : String)
    (given : Given) : give spec value (extra ++ given) = (give spec value given).map (extra ++ ·) := by
  have hrepeated : (!spec.repeatable && (extra ++ given).any (·.1 = spec.name)) =
      (!spec.repeatable && given.any (·.1 = spec.name)) := by
    cases hrepeatable : spec.repeatable with
    | true => rfl
    | false =>
      have hnone : extra.any (·.1 = spec.name) = false := by
        simpa using hextra spec hspec hrepeatable
      rw [List.any_append, hnone, Bool.false_or]
  rw [give, give, hrepeated]
  split
  · rfl
  · exact congrArg Except.ok (List.append_assoc _ _ _)

/-- Giving a value that has to be accepted is not disturbed by repeatable options in front. -/
theorem giveValue_append (hspec : spec ∈ specs) (hextra : MayRepeat specs extra) (value : String)
    (given : Given) :
    giveValue spec value (extra ++ given) = (giveValue spec value given).map (extra ++ ·) := by
  rw [giveValue, giveValue, give_append hspec hextra]
  split
  · rfl
  · rfl

/-- Taking an option and reading on. -/
theorem bind_readBehind {take : Given → Except Stop Given}
    {next : Given → Except Stop (Given × List String)}
    (htake : ∀ given, take (extra ++ given) = (take given).map (extra ++ ·))
    (hnext : ∀ given, next (extra ++ given) = (next given).map (readBehind extra)) (given : Given) :
    (take (extra ++ given) >>= next) = (take given >>= next).map (readBehind extra) := by
  rw [htake]
  cases take given with
  | error e => rfl
  | ok given => exact hnext given

/-- Behind options that may be given again, arguments are read as without them. -/
theorem readOptions_append (hextra : MayRepeat specs extra) :
    readOptions specs top (extra ++ given) args =
      (readOptions specs top given args).map (readBehind extra) := by
  -- only an option that is taken leaves more to read; all other cases end at once
  fun_induction readOptions specs top given args with
  | case12 given arg name hname spec hfind rest hkind htoken ih =>
    have hspec := List.mem_of_find?_eq_some hfind
    rw [readOptions.eq_def]
    simp only [htoken, hname, hfind, hkind]
    exact bind_readBehind (give_append hspec hextra "") ih given
  | case13 given arg name hname spec hfind value rest hkind htoken ih =>
    have hspec := List.mem_of_find?_eq_some hfind
    rw [readOptions.eq_def]
    simp only [htoken, hname, hfind]
    exact bind_readBehind (giveValue_append hspec hextra value) ih given
  | case15 given arg name hname spec hfind value rest hplain hkind htoken ih =>
    have hspec := List.mem_of_find?_eq_some hfind
    rw [readOptions.eq_def]
    simp only [htoken, hname, hfind, hplain]
    exact bind_readBehind (giveValue_append hspec hextra value) ih given
  | _ =>
    rw [readOptions.eq_def]
    simp [*, Except.map, readBehind]

/-! ### Values attached to an option -/

/-- A text is split at its first equals sign. -/
theorem splitAtEquals_append {before : List Char} (h : '=' ∉ before) (after : List Char) :
    splitAtEquals (before ++ '=' :: after) = (before, some after) := by
  induction before with
  | nil => rfl
  | cons c before ih =>
    rw [List.mem_cons, not_or] at h
    rw [List.cons_append, splitAtEquals, if_neg (Ne.symm h.1), ih h.2]

/-- An option with an attached value, which may be any text. -/
theorem token_attached {name : String} (hname : '=' ∉ name.toList) (value : String) :
    Token.of s!"--{name}={value}" = .long name (some value) := by
  have htext : s!"--{name}={value}".toList =
      '-' :: '-' :: (name.toList ++ '=' :: value.toList) := by
    simp [String.toList_append, toString]
  have hsplit := splitAtEquals_append hname value.toList
  rw [Token.of, htext]
  generalize hrest : name.toList ++ '=' :: value.toList = rest at hsplit ⊢
  cases rest with
  | nil => simp at hrest
  | cons c rest => simp [hsplit]

/-- Values of an option that takes any text and may be given again are read one after another. -/
theorem readOptions_values (hfind : specs.find? (·.name = spec.name) = some spec)
    (hkind : spec.kind = .text) (hrepeatable : spec.repeatable = true)
    (hname : '=' ∉ spec.name.toList)
    (hcommon : (spec.name = "help" || (top && spec.name = "version")) = false)
    (values args : List String) (given : Given) :
    readOptions specs top given (values.map (fun value => s!"--{spec.name}={value}") ++ args) =
      readOptions specs top (given ++ values.map fun value => (spec.name, value)) args := by
  induction values generalizing given with
  | nil => rw [List.map_nil, List.map_nil, List.nil_append, List.append_nil]
  | cons value values ih =>
    have hgive : giveValue spec value given = .ok (given ++ [(spec.name, value)]) := by
      simp [giveValue, give, hkind, hrepeatable, ValueKind.accepts]
    rw [List.map_cons, List.cons_append, readOptions.eq_def]
    simp only [token_attached hname, hcommon, hfind, hkind, hgive, ok_bind, Bool.false_eq_true,
      if_false]
    rw [ih, List.append_assoc, List.singleton_append, List.map_cons]

/-! ### The imports of `resolve` -/

/-- Imports as arguments. -/
def opsetArguments (flags : List String) : List String := flags.map ("--opset=" ++ ·)

/-- Imports as options. -/
def opsetsGiven (flags : List String) : Given := flags.map fun flag => ("opset", flag)

/-- Opset flags give no other option. -/
theorem ne_of_mem_opsetsGiven {flags : List String} {p : String × String} {name : String}
    (hp : p ∈ opsetsGiven flags) (hname : "opset" ≠ name) : p.1 ≠ name := by
  obtain ⟨flag, -, rfl⟩ := List.mem_map.mp hp
  exact hname

/-- The options of a command are read together with the global ones, and without operands. -/
theorem readCommandOptions_eq_ok_iff :
    readCommandOptions specs args = .ok given ↔
      readOptions (specs ++ globalOptions) false [] args = .ok (given, []) := by
  rw [readCommandOptions]
  cases readOptions (specs ++ globalOptions) false [] args with
  | error e => exact iff_of_false nofun nofun
  | ok read =>
    obtain ⟨given', _ | ⟨arg, rest⟩⟩ := read
    · simp [pure, Except.pure]
    · simp [throw, throwThe, MonadExceptOf.throw]

/-- Behind its name the arguments of the resolve command are options. -/
theorem readArguments_resolve (args : List String) :
    readArguments ("resolve" :: args) = readCommandOptions resolveOptions args >>= resolveCommand := by
  rfl

/-- The value of an option is not disturbed by other options in front. -/
theorem value?_append {name : String} (h : ∀ p ∈ extra, p.1 ≠ name) :
    value? (extra ++ given) name = value? given name := by
  have hnone : extra.find? (·.1 = name) = none := by simpa using h
  rw [value?, List.find?_append, hnone, Option.none_or, value?]

/-- Opset flags in front come ahead of the opsets of the command and change nothing else. -/
theorem resolveCommand_opsetsGiven {path : String} {choice : BackendChoice} {opsets : List String}
    (h : resolveCommand given = .ok (.resolve path choice opsets)) (flags : List String) :
    resolveCommand (opsetsGiven flags ++ given) = .ok (.resolve path choice (flags ++ opsets)) := by
  have hvalue {name : String} (hname : "opset" ≠ name) :
      value? (opsetsGiven flags ++ given) name = value? given name :=
    value?_append fun p hp => ne_of_mem_opsetsGiven hp hname
  have hopsets : ((opsetsGiven flags ++ given).filter (·.1 = "opset")).map (·.2) =
      flags ++ (given.filter (·.1 = "opset")).map (·.2) := by
    simp [opsetsGiven, List.filter_append, List.filter_map, Function.comp_def]
  have hbackend := hvalue (show "opset" ≠ "backend" by decide)
  have hfallback := hvalue (show "opset" ≠ "fallback" by decide)
  have hnoFallback := hvalue (show "opset" ≠ "no-fallback" by decide)
  rw [resolveCommand] at h ⊢
  rw [hvalue (by decide), hopsets]
  split at h
  · cases h
  · next graph hgraph =>
    obtain ⟨rfl, rfl, rfl⟩ := Command.resolve.inj (Except.ok.inj h)
    simp only [valueOr, hbackend, hfallback, hnoFallback]

/-- Imports in front of the arguments of `resolve` come in front of those that are given there. -/
theorem readArguments_opsets {path : String} {choice : BackendChoice} {opsets : List String}
    (h : readArguments ("resolve" :: args) = .ok (.resolve path choice opsets))
    (flags : List String) :
    readArguments ("resolve" :: (opsetArguments flags ++ args)) =
      .ok (.resolve path choice (flags ++ opsets)) := by
  rw [readArguments_resolve] at h ⊢
  obtain ⟨given, hgiven, hcommand⟩ := bind_eq_ok_iff.mp h
  have hothers : ∀ spec ∈ resolveOptions ++ globalOptions, spec.repeatable = false →
      "opset" ≠ spec.name := by decide
  have hrepeat : MayRepeat (resolveOptions ++ globalOptions) (opsetsGiven flags) :=
    fun spec hspec honce p hp => ne_of_mem_opsetsGiven hp (hothers spec hspec honce)
  have hflags : readOptions (resolveOptions ++ globalOptions) false [] (opsetArguments flags ++ args) =
      readOptions (resolveOptions ++ globalOptions) false (opsetsGiven flags ++ []) args := by
    let opset : OptionSpec := ⟨"opset", .text, true⟩
    have hfind : (resolveOptions ++ globalOptions).find? (·.name = opset.name) = some opset := rfl
    rw [List.append_nil]
    exact readOptions_values hfind rfl rfl (by decide) rfl flags args []
  have hread : readCommandOptions resolveOptions (opsetArguments flags ++ args) =
      .ok (opsetsGiven flags ++ given) := by
    rw [readCommandOptions_eq_ok_iff] at hgiven ⊢
    rw [hflags, readOptions_append hrepeat, hgiven]
    rfl
  rw [hread, ok_bind]
  exact resolveCommand_opsetsGiven hcommand flags

end KernelDispatch.CommandLine
