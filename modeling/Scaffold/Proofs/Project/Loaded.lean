import Scaffold.Project.Basic
import Scaffold.Proofs.Monad

/-! What loading makes sure of (`Project.Loaded`): the import paths lie under the module root, and the phases have
    worker packages that are identifiers, each its own. -/

namespace Scaffold
open Text

/-! ### Phases -/

/-- The package of each phase is an identifier that no other phase has. -/
structure Descriptor.Packaged (phases : List Phase) : Prop where
  identifiers : ∀ phase ∈ phases, isIdentifier phase.workerPackage.toList = true
  distinct : phases.Pairwise fun a b => a.workerPackage ≠ b.workerPackage

theorem Descriptor.packaged_of_checkPhases : ∀ {phases : List Phase} {index : Nat} {claimed : List (String × String)},
    checkPhases index claimed phases = .ok () →
      Packaged phases ∧ ∀ phase ∈ phases, claimed.lookup phase.workerPackage = none
  | [], _, _, _ => ⟨⟨by simp, .nil⟩, by simp⟩
  | phase :: rest, index, claimed, h => by
    unfold checkPhases at h
    split at h
    · cases h
    split at h
    · cases h
    rename_i hidentifier
    split at h
    · split at h <;> cases h
    rename_i hfree
    obtain ⟨hpackaged, hlater⟩ := packaged_of_checkPhases h
    -- what the rest may not claim is what was claimed before, and the package of this phase
    have hother : ∀ other ∈ rest, claimed.lookup other.workerPackage = none ∧
        phase.workerPackage ≠ other.workerPackage := fun other hmem => by
      have hnone := hlater other hmem
      rw [List.lookup_append, Option.or_eq_none_iff] at hnone
      refine ⟨hnone.1, fun heq => ?_⟩
      rw [Pairs.lookup_cons, if_pos heq.symm] at hnone
      exact Option.some_ne_none _ hnone.2
    refine ⟨⟨?_, List.pairwise_cons.mpr ⟨fun other hmem => (hother other hmem).2, hpackaged.distinct⟩⟩, ?_⟩
    · intro other hmem
      rcases List.mem_cons.mp hmem with rfl | hmem
      · simpa using hidentifier
      · exact hpackaged.identifiers other hmem
    · intro other hmem
      rcases List.mem_cons.mp hmem with rfl | hmem
      · exact hfree
      · exact (hother other hmem).1

/-- A phase is told by its package. -/
theorem Descriptor.Packaged.eq_of_package {phases : List Phase} (h : Packaged phases) {a b : Phase} (ha : a ∈ phases)
    (hb : b ∈ phases) (heq : a.workerPackage = b.workerPackage) : a = b := by
  have hdistinct := h.distinct
  clear h
  induction hdistinct with
  | nil => cases ha
  | cons hfirst _ ih =>
    rcases List.mem_cons.mp ha with rfl | ha' <;> rcases List.mem_cons.mp hb with rfl | hb'
    · rfl
    · exact absurd heq (hfirst b hb')
    · exact absurd heq.symm (hfirst a ha')
    · exact ih ha' hb'

/-- An identifier is a name: not empty, without slashes, and no dots. -/
theorem ne_of_isIdentifier {s : List Char} (h : isIdentifier s = true) : s ≠ [] ∧ '/' ∉ s ∧ '.' ∉ s := by
  cases s with
  | nil => cases h
  | cons c rest =>
    simp only [isIdentifier, Bool.and_eq_true, List.all_eq_true] at h
    have hletters : ∀ x ∈ c :: rest, x.isAlphanum = true := by
      intro x hx
      rcases List.mem_cons.mp hx with rfl | hx
      · simp [Char.isAlphanum, h.1]
      · exact h.2 x hx
    exact ⟨by simp, fun hmem => absurd (hletters _ hmem) (by decide), fun hmem => absurd (hletters _ hmem) (by decide)⟩

/-! ### Projects -/

/-- What a project has of the descriptor that it is derived from. -/
structure Project.Derived (d : Descriptor) (p : Project) : Prop where
  descriptor : p.descriptor = d
  parts : splitApiVersion? d.apiVersion = some (p.group, p.version)
  types : p.typesImportPath =
    p.moduleRoot ++ "/pkg/apis/" ++ String.ofList (lowercase (Naming.pluralize d.kind).toList) ++ "/" ++ p.version
  scheduler : p.schedulerImportPath = p.moduleRoot ++ "/pkg/scheduler"
  config : p.configImportPath = p.moduleRoot ++ "/pkg/config"
  kindLowerCamel : p.kindLowerCamel = Naming.lowerCamel d.kind

theorem Project.derived_of_derive {d : Descriptor} {root : String} {p : Project} (h : derive d root = .ok p) :
    p.Derived d := by
  unfold derive at h
  split at h
  · cases h
  rename_i group version hparts
  split at h
  · cases h
  cases h
  exact ⟨rfl, hparts, rfl, rfl, rfl, rfl⟩

/-- What holds of every project that was loaded. -/
structure Project.Loaded (p : Project) : Prop where
  scheduler : p.schedulerImportPath = p.moduleRoot ++ "/pkg/scheduler"
  config : p.configImportPath = p.moduleRoot ++ "/pkg/config"
  types : ∃ inner, p.typesImportPath = p.moduleRoot ++ "/pkg/apis/" ++ inner
  packaged : Descriptor.Packaged p.descriptor.phases

theorem Project.loaded_of_derive {d : Descriptor} {root : String} {p : Project} (h : derive d root = .ok p)
    (hpackaged : Descriptor.Packaged d.phases) : p.Loaded := by
  have hderived := derived_of_derive h
  have htypes := hderived.types
  rw [String.append_assoc, String.append_assoc] at htypes
  exact ⟨hderived.scheduler, hderived.config, ⟨_, htypes⟩, hderived.descriptor ▸ hpackaged⟩

theorem Descriptor.packaged_of_validate {d : Descriptor} (h : d.validate = .ok ()) : Packaged d.phases := by
  unfold validate at h
  split at h
  · cases h
  split at h
  · cases h
  split at h
  · cases h
  exact (packaged_of_checkPhases h).1

theorem Project.derived_of_load {bytes : ByteArray} {root : Except RootError String} {p : Project}
    (h : load bytes root = .ok p) : ∃ (d : Descriptor) (moduleRoot : String), d.validate = .ok () ∧
      derive d moduleRoot = .ok p := by
  obtain ⟨d, -, h⟩ := bind_eq_ok.mp h
  obtain ⟨_, hvalidate, h⟩ := bind_eq_ok.mp h
  obtain ⟨moduleRoot, -, h⟩ := bind_eq_ok.mp h
  exact ⟨d, moduleRoot, mapError_eq_ok.mp hvalidate, h⟩

theorem Project.loaded_of_load {bytes : ByteArray} {root : Except RootError String} {p : Project}
    (h : load bytes root = .ok p) : p.Loaded := by
  obtain ⟨d, moduleRoot, hvalidate, hderive⟩ := derived_of_load h
  exact loaded_of_derive hderive (Descriptor.packaged_of_validate hvalidate)

/-- A project of one kind and no phases. -/
def Project.sample : Project where
  descriptor := ⟨"a/v1", "K", none, []⟩
  moduleRoot := "m"
  group := "a"
  version := "v1"
  typesImportPath := "m/pkg/apis/ks/v1"
  schedulerImportPath := "m/pkg/scheduler"
  configImportPath := "m/pkg/config"
  kindLowerCamel := "k"
  operatorName := "m"

theorem Project.load_sample : load (Text.encode "apiVersion: a/v1\nkind: K\n") (.ok "m") = .ok sample :=
  eq_ok_of_toOption (by decide +kernel)

end Scaffold
