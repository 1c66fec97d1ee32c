import Scaffold.CommandLine.Run
import Scaffold.Proofs.Descriptor.RoundTrip
import Scaffold.Proofs.Output.Step
import Scaffold.Proofs.Project.Loaded

/-! What `init` writes is loaded again: the descriptor of its arguments, with any module root. -/

namespace Scaffold

/-! ### Reading what was written -/

theorem Disk.read_of_write {disk disk' : Disk} {path : String} {bytes : ByteArray} (h : disk.write path bytes = .ok disk') :
    disk'.read path = .ok bytes := by
  obtain ⟨hholds, hfree, hbecomes⟩ := write_ok h
  have hkeeps := hbecomes.keeps hfree
  refine Output.read_of_holds (hholds.keep hkeeps) (f := ⟨bytes, modeOf (disk.get? (disk.locate path))⟩) ?_
  rw [locate_of_current hbecomes.current, hbecomes.get?_self]

namespace CommandLine

/-- Where a run of `init` ends well, it has written a valid descriptor at last. -/
theorem runInit_of_ok {dir : String} {d : Descriptor} {disk : Disk} {text : String}
    (h : ((runInit dir d : StateM Disk Finished) disk).1.result = .ok text) : d.validate = .ok () ∧ ∃ disk₁ : Disk,
      disk₁.write (Path.join dir "pilot.yaml") (Text.encode d.toYaml) = .ok ((runInit dir d : StateM Disk Finished) disk).2 := by
  unfold runInit at h ⊢
  -- every other way out of the run ends with a failure
  cases hvalid : d.validate with
  | error e =>
    rw [hvalid] at h
    cases h
  | ok _ =>
    rw [hvalid] at h
    refine ⟨rfl, ?_⟩
    simp only [bind_run] at h ⊢
    generalize (Disk.isThere (Path.join dir "pilot.yaml") : StateM Disk Bool) disk = there at h ⊢
    obtain ⟨there, disk⟩ := there
    cases there with
    | true => cases h
    | false =>
      simp only [bind_run, Bool.false_eq_true, if_false] at h ⊢
      generalize (Disk.makeDirs dir : StateM Disk (Except Disk.Failure Unit)) disk = made at h ⊢
      obtain ⟨made, disk₁⟩ := made
      cases made with
      | error e => cases h
      | ok _ =>
        refine ⟨disk₁, ?_⟩
        obtain ⟨path, hpath⟩ : ∃ path, path = Path.join dir "pilot.yaml" := ⟨_, rfl⟩
        simp only [bind_run, ← hpath] at h ⊢
        have hrun := Disk.change_run (fun disk => disk.write path (Text.encode d.toYaml)) disk₁
        cases hwrite : disk₁.write path (Text.encode d.toYaml) with
        | error e =>
          rw [hwrite] at hrun
          simp only [Disk.Access.write, hrun] at h
          cases h
        | ok disk₂ =>
          rw [hwrite] at hrun
          simp only [Disk.Access.write, hrun]
          rfl

theorem run_of_init {args : List String} {env : Environment} {now : Instant} {dir : String} {d : Descriptor} {disk : Disk}
    (hparse : parse args env.templates = .ok (.init dir d)) (hcode : ((run args env now : StateM Disk Report) disk).1.code = 0) :
    (∃ text, ((runInit dir d : StateM Disk Finished) disk).1.result = .ok text) ∧
      ((run args env now : StateM Disk Report) disk).2 = ((runInit dir d : StateM Disk Finished) disk).2 := by
  rw [run, hparse] at hcode ⊢
  simp only [bind_run, Command.run] at hcode ⊢
  cases hresult : ((runInit dir d : StateM Disk Finished) disk).1.result with
  | error e =>
    rw [hresult] at hcode
    cases hcode
  | ok text => exact ⟨⟨text, rfl⟩, rfl⟩

end CommandLine

/-- What `init` writes is read back. Every descriptor is what is read from the text that is written for it; after a run of
    `init` that ends well, the file that it has written is loaded, with any module root, as the project of the descriptor
    that the arguments say. -/
theorem Project.init_reads_back :
    (∀ d : Descriptor, Descriptor.parse (Text.encode d.toYaml) = .ok d) ∧
      ∀ (args : List String) (env : CommandLine.Environment) (now : Instant) (disk : Disk) (dir : String) (d : Descriptor),
        CommandLine.parse args env.templates = .ok (.init dir d) →
          ((CommandLine.run args env now : StateM Disk CommandLine.Report) disk).1.code = 0 →
            ∀ root : String, ((loadFile (Path.join dir "pilot.yaml") (pure (.ok root)) : StateM Disk (Except LoadError Project))
              ((CommandLine.run args env now : StateM Disk CommandLine.Report) disk).2).1 = derive d root := by
  refine ⟨Descriptor.parse_toYaml, ?_⟩
  intro args env now disk dir d hparse hcode root
  obtain ⟨⟨text, hresult⟩, hdisk⟩ := CommandLine.run_of_init hparse hcode
  obtain ⟨hvalid, disk₁, hwrite⟩ := CommandLine.runInit_of_ok hresult
  have hread : Disk.read _ (Path.join dir "pilot.yaml") = .ok (Text.encode d.toYaml) := Disk.read_of_write hwrite
  have hload : load (Text.encode d.toYaml) (.ok root) = derive d root := by
    rw [load, Descriptor.parse_toYaml]
    show (d.validate.mapError .malformed >>= fun _ => derive d root) = _
    rw [hvalid]
    rfl
  rw [hdisk, loadFile]
  simp only [bind_run, Disk.Access.read, Disk.ask, hread]
  exact hload

/-- A call of `init` for an operator that is called like a missing value. -/
def CommandLine.sampleArgs : List String :=
  ["init", "p", "--api-version", "a/v1", "--kind", "K", "--operator-name", "null"]

/-- On an empty disk this call ends well, and the name of the operator is read back as a text. -/
theorem Project.init_reads_back_sample :
    CommandLine.parse CommandLine.sampleArgs none = .ok (.init "p" ⟨"a/v1", "K", some "null", []⟩) ∧
    ((CommandLine.run CommandLine.sampleArgs ⟨none, none, none⟩ .epoch : StateM Disk CommandLine.Report) .empty).1 =
      ⟨0, "✓ Wrote p/pilot.yaml\n  K a/v1 with 0 phase(s)\n", ""⟩ ∧
    ((loadFile (Path.join "p" "pilot.yaml") (pure (.ok "m")) : StateM Disk (Except LoadError Project))
      ((CommandLine.run CommandLine.sampleArgs ⟨none, none, none⟩ .epoch : StateM Disk CommandLine.Report)
        .empty).2).1.toOption =
      some { sample with descriptor := ⟨"a/v1", "K", some "null", []⟩, operatorName := "null" } := by
  have hparse : CommandLine.parse CommandLine.sampleArgs none = .ok (.init "p" ⟨"a/v1", "K", some "null", []⟩) :=
    eq_ok_of_toOption (by decide +kernel)
  have hreport : ((CommandLine.run CommandLine.sampleArgs ⟨none, none, none⟩ .epoch : StateM Disk CommandLine.Report)
      .empty).1 = ⟨0, "✓ Wrote p/pilot.yaml\n  K a/v1 with 0 phase(s)\n", ""⟩ := by decide +kernel
  have hread := init_reads_back.2 _ ⟨none, none, none⟩ .epoch .empty "p" _ hparse (by rw [hreport]) "m"
  refine ⟨hparse, hreport, ?_⟩
  rw [hread]
  decide +kernel

end Scaffold
