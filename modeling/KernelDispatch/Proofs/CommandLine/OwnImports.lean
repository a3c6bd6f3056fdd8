import KernelDispatch.Proofs.CommandLine.Lines
import KernelDispatch.Proofs.CommandLine.Options
import KernelDispatch.Proofs.Json.Record
import KernelDispatch.Proofs.Operator.OpsetText

/-!
# The imports of a file as options

The imports of a resolution are those of the graph file or, as soon as any are given as options, these
alone. An import that is written as an option is read again as it was, so a file resolves with its own
imports as options as it does without options. Either way one list of imports makes the configuration,
and it is refused only for want of the standard domain.
-/

namespace KernelDispatch

/-! ### The imports of a graph file -/

namespace GraphFile

/-- An import is read in its normalized spelling. -/
theorem of_domain_of_readOpset {tree : Json.Tree} {o : Opset} (h : readOpset tree = .ok o) :
    Opset.of o.domain o.version = o := by
  obtain ⟨d, -, hfinish⟩ := bind_eq_ok_iff.mp h
  rw [OpsetDraft.finish] at hfinish
  split at hfinish
  · obtain rfl := Except.ok.inj hfinish
    simp [Opset.of]
  · cases hfinish

/-- The imports read so far are in their normalized spelling. -/
def Draft.Normalized (d : Draft) : Prop := ∀ o ∈ d.opsets.getD [], Opset.of o.domain o.version = o

/-- A member of a graph file keeps the imports normalized. -/
theorem Draft.keeps_normalized (key : String) (tree : Json.Tree) :
    Json.Keeps Draft.Normalized fun d => Draft.field d key tree := by
  unfold Draft.field
  split
  · refine .once fun os d hread _ o ho => ?_
    cases tree with
    | array items tail =>
      obtain ⟨os', hitems, hread⟩ := bind_eq_ok_iff.mp hread
      obtain ⟨_, -, hread⟩ := bind_eq_ok_iff.mp hread
      obtain rfl : os' = os := Except.ok.inj hread
      obtain ⟨item, -, hitem⟩ := exists_origin_of_mapM_eq_ok hitems o ho
      exact of_domain_of_readOpset hitem
    | _ => cases hread
  · exact .once fun _ _ _ hd => hd
  · exact Json.Keeps.composable.check tree.skip

/-- The imports of a graph file are domains with versions. -/
theorem exists_opsets_eq_map {text : String} {file : GraphFile} (h : parse text = .ok file) :
    ∃ written : List (String × UInt32), file.opsets = written.map fun w => Opset.of w.1 w.2 := by
  obtain ⟨d, hdraft, hfinish⟩ := exists_draft_of_parse h
  have hblank : Draft.Normalized ⟨none, none⟩ := List.forall_mem_nil _
  have hnormalized : d.Normalized :=
    Json.Keeps.composable.readRecord Draft.keeps_normalized _ _ _ hblank hdraft
  have hopsets : file.opsets = d.opsets.getD [] := by
    rw [Draft.finish] at hfinish
    split at hfinish
    · obtain rfl := Except.ok.inj hfinish
      rfl
    · cases hfinish
  refine ⟨file.opsets.map fun o => (o.domain, o.version), ?_⟩
  rw [List.map_map, hopsets]
  exact (List.map_id' _).symm.trans (List.map_congr_left fun o ho => (hnormalized o ho).symm)

end GraphFile

namespace CommandLine

variable {files : Files} {path text : String} {choice : BackendChoice} {flags : List String}
  {file : GraphFile} {os : List Opset}

/-! ### The configuration of a resolution -/

/-- The session configuration with which a graph file is resolved. -/
def sessionConfig (choice : BackendChoice) (flags : List String) (file : GraphFile) :
    Except Diagnostic SessionConfig := do
  let imports ← (importsFor flags file).mapError OpsetTextError.diagnostic
  (resolutionConfig choice imports).mapError ResolutionError.diagnostic

/-- A graph file is resolved under its configuration, on which alone the options have an influence. -/
theorem resolveFile_eq (files : Files) (path : String) (choice : BackendChoice)
    (flags : List String) :
    resolveFile files path choice flags = (do
      let file ← loadGraph files path
      let config ← sessionConfig choice flags file
      (resolveLines Builtin.registry choice config file.nodes).mapError fun e =>
        e.diagnostic.under s!"failed to resolve {path}") := by
  simp only [resolveFile, sessionConfig, bind_assoc]

/-- What configuration a list of imports makes: one that imports the list and allows the fallback that
the backends leave, or none if the standard domain is not among the imports. -/
inductive Configured (choice : BackendChoice) (os : List Opset) :
    Except Diagnostic SessionConfig → Prop where
  | accepted {config : SessionConfig} (standard : ∃ o ∈ os, o.domain = Domain.standard)
      (imports : config.ImportsOf os)
      (enabled : config.fallbackEnabled = choice.fallback?.isSome) :
      Configured choice os (.ok config)
  | refused (nonstandard : ∀ o ∈ os, o.domain ≠ Domain.standard) :
      Configured choice os (.error ResolutionError.noStandardImport.diagnostic)

/-- The imports in force configure the session. -/
theorem configured_of_importsFor (h : importsFor flags file = .ok (.ofList os)) :
    Configured choice os (sessionConfig choice flags file) := by
  have hstandard : (∃ config, SessionConfig.ofImports? (.ofList os) = some config) ↔
      ∃ o ∈ os, o.domain = Domain.standard := by
    rw [SessionConfig.exists_ofImports?_iff, OpsetImports.versionFor_ofList, isSome_lastVersion_iff]
    rfl
  rw [sessionConfig, h]
  change Configured choice os ((resolutionConfig choice _).mapError _)
  rw [resolutionConfig]
  split
  · next base hbase =>
    obtain ⟨versions, domains, distinct⟩ := SessionConfig.importsOf_of_ofImports? hbase
    exact .accepted (hstandard.mp ⟨base, hbase⟩) ⟨versions, domains, distinct⟩ rfl
  · next hnone =>
    refine .refused fun o ho hdomain => ?_
    obtain ⟨base, hbase⟩ := hstandard.mpr ⟨o, ho, hdomain⟩
    cases hnone.symm.trans hbase

/-! ### Options instead of the imports of the file -/

/-- Flags replace the imports of the file. -/
theorem importsFor_of_ne_nil (h : flags ≠ []) (file : GraphFile) :
    importsFor flags file = (flags.mapM Opset.parse).map .ofList := by
  rw [importsFor, if_neg (by simpa using h)]

/-- Imports that are written as options are the same imports. -/
theorem importsFor_written {written : List (String × UInt32)}
    (h : file.opsets = written.map fun w => Opset.of w.1 w.2) :
    importsFor (written.map fun w => s!"{w.1}:{w.2}") file = importsFor [] file := by
  cases written with
  | nil => rfl
  | cons w written =>
    have hparse : ((w :: written).map fun w => s!"{w.1}:{w.2}").mapM Opset.parse =
        .ok file.opsets := by
      rw [List.mapM_map, h]
      exact mapM_eq_ok_map fun w _ => Opset.parse_eq_ok_iff.mpr (Opset.writes_of w.1 w.2)
    rw [importsFor_of_ne_nil (by simp), hparse]
    rfl

/-- Options that make the same configuration make the same lines or the same error. -/
theorem run_resolve_congr {flags' : List String} (hfile : files path = some text)
    (hparse : GraphFile.parse text = .ok file)
    (h : sessionConfig choice flags file = sessionConfig choice flags' file) :
    (Command.resolve path choice flags).run files =
      (Command.resolve path choice flags').run files := by
  have hload : loadGraph files path = .ok file := by
    rw [loadGraph, hfile]
    exact mapError_eq_ok_iff.mpr hparse
  simp only [Command.run, resolveFile_eq, hload, ok_bind, h]

/-- A graph file resolves with its own imports as options as it does without options: the imports are
domains with versions, and written one by one as a domain, a colon and a version they make the same
configuration, so that the same lines are printed or the same error. The configuration imports what the
file imports, and there is none exactly if this does not include the standard domain. Whatever options
are given otherwise, they alone make the configuration, in the same way. -/
theorem resolve_by_own_imports (hfile : files path = some text)
    (hparse : GraphFile.parse text = .ok file) (choice : BackendChoice) :
    (∃ written : List (String × UInt32), file.opsets = written.map fun w => Opset.of w.1 w.2) ∧
      (∀ written : List (String × UInt32),
        file.opsets = written.map (fun w => Opset.of w.1 w.2) →
        let flags := written.map fun w => s!"{w.1}:{w.2}"
        sessionConfig choice flags file = sessionConfig choice [] file ∧
          (Command.resolve path choice flags).run files =
            (Command.resolve path choice []).run files ∧
          ∀ args, readArguments ("resolve" :: args) = .ok (.resolve path choice []) →
            run files ("resolve" :: (opsetArguments flags ++ args)) =
              run files ("resolve" :: args)) ∧
      Configured choice file.opsets (sessionConfig choice [] file) ∧
      ∀ flags, flags ≠ [] →
        (∀ file', sessionConfig choice flags file' = sessionConfig choice flags file) ∧
          ∀ os, flags.mapM Opset.parse = .ok os →
            Configured choice os (sessionConfig choice flags file) := by
  refine ⟨GraphFile.exists_opsets_eq_map hparse, fun written hwritten => ?_,
    configured_of_importsFor rfl, fun flags hflags => ⟨fun file' => ?_, fun os hos => ?_⟩⟩
  · intro flags
    have hconfig : sessionConfig choice flags file = sessionConfig choice [] file := by
      rw [sessionConfig, sessionConfig, importsFor_written hwritten]
    have hrun := run_resolve_congr hfile hparse hconfig
    refine ⟨hconfig, hrun, fun args hargs => ?_⟩
    rw [run, run, readArguments_opsets hargs, hargs, List.append_nil]
    exact hrun
  · rw [sessionConfig, sessionConfig, importsFor_of_ne_nil hflags, importsFor_of_ne_nil hflags]
  · apply configured_of_importsFor
    rw [importsFor_of_ne_nil hflags, hos]
    rfl

/-- A file that imports the standard domain under both of its spellings, and another domain in between:
the last version counts, and the standard domain is listed once. -/
theorem resolve_by_own_imports_spelled :
    let text := "\x7b\"opset_import\": [\x7b\"domain\": \"com.microsoft\", \"version\": 1\x7d, " ++
      "\x7b\"version\": 7\x7d, \x7b\"domain\": \"ai.onnx\", \"version\": 13\x7d], " ++
      "\"nodes\": [\x7b\"op_type\": \"Relu\"\x7d]\x7d"
    let files : Files := fun path => if path = "graph.json" then some text else none
    let file : GraphFile := ⟨[.of "com.microsoft" 1, .of "" 7, .of "ai.onnx" 13],
      [Node.mk "Relu_0" "Relu" none none .empty [] []]⟩
    let choice : BackendChoice := ⟨"par", "cpu", false⟩
    let flags := ["com.microsoft:1", ":7", "ai.onnx:13"]
    files "graph.json" = some text ∧ GraphFile.parse text = .ok file ∧
      sessionConfig choice flags file =
        .ok ⟨⟨[⟨"ai.onnx", 13⟩, ⟨"com.microsoft", 1⟩]⟩, true⟩ ∧
      run files ["resolve", "--opset=com.microsoft:1", "--opset=:7", "--opset=ai.onnx:13",
        "--graph=graph.json"] = run files ["resolve", "--graph=graph.json"] := by
  intro text files file choice flags
  have hfile : files "graph.json" = some text := if_pos rfl
  have hparse : GraphFile.parse text = .ok file := by
    unfold text file
    decide +kernel
  obtain ⟨-, hflags, -⟩ := resolve_by_own_imports hfile hparse choice
  obtain ⟨hconfig, -, hrun⟩ := hflags [("com.microsoft", 1), ("", 7), ("ai.onnx", 13)] rfl
  have hwritten : [("com.microsoft", (1 : UInt32)), ("", 7), ("ai.onnx", 13)].map
      (fun w => s!"{w.1}:{w.2}") = flags := by decide +kernel
  have hfirst : sessionConfig choice [] file =
      .ok ⟨⟨[⟨"ai.onnx", 13⟩, ⟨"com.microsoft", 1⟩]⟩, true⟩ := by rfl
  have hargs : readArguments ["resolve", "--graph=graph.json"] =
      .ok (.resolve "graph.json" choice []) := by decide +kernel
  have hall : opsetArguments flags ++ ["--graph=graph.json"] =
      ["--opset=com.microsoft:1", "--opset=:7", "--opset=ai.onnx:13", "--graph=graph.json"] := by
    decide +kernel
  have hagain := hrun ["--graph=graph.json"] hargs
  rw [hwritten] at hconfig hagain
  rw [hall] at hagain
  exact ⟨hfile, hparse, hconfig.trans hfirst, hagain⟩

end CommandLine

end KernelDispatch
