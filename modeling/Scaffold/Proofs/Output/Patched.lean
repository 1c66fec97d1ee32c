import Scaffold.Proofs.Diff.Unified
import Scaffold.Proofs.Output.Compare

/-! A comparison's answer as patches. Each reported text is read as a patch of the file that is there, an empty one for a
    file that is missing, and applied to it gives the generated text, if the headers are consistent. -/

namespace Scaffold.Output
open Disk

variable {d d' : Disk} {t : Target} {root moduleRoot : String}

theorem compareTarget_eq_ok {diff? : Option FileDiff} (h : (compareTarget t : StateM Disk _) d = (.ok diff?, d')) :
    d' = d ∧ ∀ diff ∈ diff?, ∃ f?, Present d t.path f? ∧ (f?.map textOf).getD "" ≠ t.text ∧
      diff = diffOf t ((f?.map textOf).getD "") := by
  by_cases hkept : Kept d t
  · rw [compareTarget_of_kept hkept] at h
    cases h
    exact ⟨rfl, nofun⟩
  obtain ⟨r, hread, hcase⟩ := existingText_run t.path d
  rcases hcase with ⟨f?, hpresent, -⟩ | ⟨⟨e, rfl⟩, -⟩
  · rw [compareTarget_of_present hkept hpresent] at h
    cases h
    refine ⟨rfl, fun diff hdiff => ⟨f?, hpresent, ?_⟩⟩
    split at hdiff
    · cases hdiff
    · next hne => exact ⟨hne, (Option.some.inj hdiff).symm⟩
  · obtain ⟨b, hrun, hb⟩ := isKept_run t d
    obtain rfl : b = false := by rwa [← Bool.not_eq_true, hb]
    unfold compareTarget at h
    simp only [bind_run, hrun, Bool.false_eq_true, ↓reduceIte, hread, pure_run] at h
    cases h

theorem compare_cons_eq_ok {file : GeneratedFile} {files : List GeneratedFile} {diffs : List FileDiff}
    (h : (compare root moduleRoot (file :: files) : StateM Disk _) d = (.ok diffs, d')) :
    ∃ diff? later, (compareTarget (targetOf root moduleRoot file) : StateM Disk _) d = (.ok diff?, d) ∧
      (compare root moduleRoot files : StateM Disk _) d = (.ok later, d') ∧ diffs = diff?.toList ++ later := by
  unfold compare at h
  cases htarget : target root moduleRoot file with
  | error e =>
    rw [htarget] at h
    cases h
  | ok t =>
    obtain ⟨rfl, -⟩ := target_eq_ok htarget
    rw [htarget] at h
    dsimp only at h
    rw [bind_run] at h
    obtain ⟨r, d₁, hfirst⟩ :
      ∃ r d₁, (compareTarget (targetOf root moduleRoot file) : StateM Disk _) d = (r, d₁) := ⟨_, _, rfl⟩
    rw [hfirst] at h
    cases r with
    | error e => cases h
    | ok diff? =>
      obtain ⟨rfl, -⟩ := compareTarget_eq_ok hfirst
      dsimp only at h
      rw [bind_run] at h
      obtain ⟨r, d₂, hlater⟩ : ∃ r d₂, (compare root moduleRoot files : StateM Disk _) d₁ = (r, d₂) := ⟨_, _, rfl⟩
      rw [hlater] at h
      cases r with
      | error e => cases h
      | ok later =>
        cases h
        exact ⟨diff?, later, hfirst, hlater, rfl⟩

/-- Each entry of a comparison that succeeds is that of a file which differs from what is there. -/
theorem mem_of_compare : ∀ {files : List GeneratedFile} {diffs : List FileDiff},
    (compare root moduleRoot files : StateM Disk _) d = (.ok diffs, d') → ∀ diff ∈ diffs, ∃ file ∈ files, ∃ f?,
      Present d (targetOf root moduleRoot file).path f? ∧ (f?.map textOf).getD "" ≠ uniform file.content ∧
        diff = diffOf (targetOf root moduleRoot file) ((f?.map textOf).getD "")
  | [], _, h, diff, hdiff => by
    cases h
    cases hdiff
  | file :: files, diffs, h, diff, hdiff => by
    obtain ⟨diff?, later, hfirst, hlater, rfl⟩ := compare_cons_eq_ok h
    rcases List.mem_append.mp hdiff with hdiff | hdiff
    · obtain ⟨f?, hpresent, hne, rfl⟩ := (compareTarget_eq_ok hfirst).2 diff (Option.mem_toList.mp hdiff)
      exact ⟨file, List.mem_cons_self, f?, hpresent, hne, rfl⟩
    · obtain ⟨other, hother, hentry⟩ := mem_of_compare hlater diff hdiff
      exact ⟨other, List.mem_cons_of_mem _ hother, hentry⟩

/-- **A reported diff is a patch of what it says**: each entry of a comparison that succeeds is that of one of the files,
    and its text names both sides and is read as at least one hunk. The hunks are applied to the text that stands on the
    disk, or to an empty one if the file is missing, exactly if they are consistent, and then give the generated text.
    Their lines are always right, and so are their headers, but for that of the first hunk where it does not begin with a
    kept line and that of the last one where it does not end with one; where one of the texts is empty the hunks are
    consistent. -/
theorem diffs_are_patches {files : List GeneratedFile} {diffs : List FileDiff}
    (h : (compare root moduleRoot files : StateM Disk _) d = (.ok diffs, d')) :
    ∀ diff ∈ diffs, ∃ file ∈ files, ∃ f? hunks,
      Present d (targetOf root moduleRoot file).path f? ∧ diff.path = (targetOf root moduleRoot file).path ∧
      Diff.readPatch? ("a/" ++ file.relativePath moduleRoot) ("b/" ++ file.relativePath moduleRoot) diff.unified =
        some hunks ∧
      Diff.PatchFor ((f?.map textOf).getD "") (uniform file.content) hunks := by
  intro diff hdiff
  obtain ⟨file, hfile, f?, hpresent, hne, hentry⟩ := mem_of_compare h diff hdiff
  obtain ⟨hunks, hread, hpatch⟩ := Diff.exists_patch ("a/" ++ file.relativePath moduleRoot)
    ("b/" ++ file.relativePath moduleRoot) hne
  have hpath : diff.path = (targetOf root moduleRoot file).path := congrArg FileDiff.path hentry
  have hunified : diff.unified = Diff.unified ("a/" ++ file.relativePath moduleRoot)
      ("b/" ++ file.relativePath moduleRoot) ((f?.map textOf).getD "") (uniform file.content) := by
    simp only [hentry, diffOf, targetOf, Target.text]
  exact ⟨file, hfile, f?, hunks, hpresent, hpath, hunified ▸ hread, hpatch⟩

/-- A file whose lines are found in another order on the disk. -/
def swappedFile : GeneratedFile := ⟨⟨"main.go", "t", false, false, .project⟩, "a\na\n"⟩

/-- The disk with its old text. -/
def swappedDisk : Disk := diskOf [("main.go", "b\na\n", false)]

/-- What a comparison says of it. The insertion was moved past the deletion, which still notes the second line of the new
    text as its place. So the hunk says that it begins there, although nothing is inserted before it. -/
def swappedDiff : FileDiff := ⟨"main.go", "--- a/main.go\n+++ b/main.go\n@@ -1 +2 @@\n-b\n a\n+a\n"⟩

/-- Its hunk is not consistent, so it is not applied. -/
theorem diffs_are_patches_swapped : ∃ hunks d',
    (compare "" "m" [swappedFile] : StateM Disk _) swappedDisk = (.ok [swappedDiff], d') ∧
    Diff.readPatch? "a/main.go" "b/main.go" swappedDiff.unified = some hunks ∧ Diff.PatchFor "b\na\n" "a\na\n" hunks ∧
    ¬Diff.Consistent hunks ∧ Diff.applied? hunks "b\na\n" = none := by
  have hanswer : ((compare "" "m" [swappedFile] : StateM Disk _) swappedDisk).1.toOption = some [swappedDiff] := by
    decide +kernel
  have hcompare := Prod.ext (eq_ok_of_toOption hanswer) rfl
  obtain ⟨file, hfile, f?, hunks, hpresent, -, hread, hpatch⟩ := diffs_are_patches hcompare _ List.mem_cons_self
  obtain rfl := List.mem_singleton.mp hfile
  have hpath : pathFor "" "m" swappedFile = "main.go" := by decide +kernel
  have hnames : "a/" ++ swappedFile.relativePath "m" = "a/main.go" ∧
      "b/" ++ swappedFile.relativePath "m" = "b/main.go" := by decide +kernel
  have hthere : Present swappedDisk "main.go" (some ⟨Text.encode "b\na\n", 0o644⟩) :=
    present_of_entry (by decide +kernel)
  have htexts : textOf ⟨Text.encode "b\na\n", 0o644⟩ = "b\na\n" ∧ uniform swappedFile.content = "a\na\n" := by
    decide +kernel
  rw [targetOf, hpath] at hpresent
  obtain rfl := hthere.eq hpresent
  rw [hnames.1, hnames.2] at hread
  rw [Option.map_some, Option.getD_some, htexts.1, htexts.2] at hpatch
  have hinconsistent : ∀ hunks ∈ Diff.readPatch? "a/main.go" "b/main.go" swappedDiff.unified, ¬Diff.Consistent hunks := by
    decide +kernel
  refine ⟨hunks, _, hcompare, hread, hpatch, hinconsistent _ hread, ?_⟩
  rw [hpatch.applied, if_neg (hinconsistent _ hread)]

end Scaffold.Output
