import Scaffold.Proofs.Project.Loaded
import Scaffold.Proofs.Text.Split

/-! What the check of a descriptor decides. `Descriptor.Violation d e` says that `e` describes the first violation
    of `d`, in terms of texts and of the phases before a phase; the check reports `e` exactly then
    (`Descriptor.validate_exact`).

    The packages that were claimed while the phases are walked are those of the phases already passed, which are
    packaged (`Descriptor.Packaged`) as long as none of them was refused: that is why a package has one owner at
    most. -/

namespace Scaffold
open Text

/-! ### Texts -/

/-- Group and version with the only slash between them, neither of them empty. -/
def TwoParts (apiVersion : String) : Prop :=
  ∃ group version, apiVersion.toList = group ++ '/' :: version ∧ group ≠ [] ∧ version ≠ [] ∧
    '/' ∉ group ∧ '/' ∉ version

def AsciiLetter (c : Char) : Prop := ('A' ≤ c ∧ c ≤ 'Z') ∨ ('a' ≤ c ∧ c ≤ 'z')

def AsciiDigit (c : Char) : Prop := '0' ≤ c ∧ c ≤ '9'

/-- A letter followed by letters or digits, all of them ASCII. -/
def Identifier (s : String) : Prop :=
  ∃ c rest, s.toList = c :: rest ∧ AsciiLetter c ∧ ∀ x ∈ rest, AsciiLetter x ∨ AsciiDigit x

/-- Nothing but white space. -/
def Blank (s : String) : Prop := ∀ c ∈ s.toList, isBlank c = true

theorem isAlpha_iff {c : Char} : c.isAlpha = true ↔ AsciiLetter c := by
  have hranges : c.isAlpha = (decide ('A'.val ≤ c.val ∧ c.val ≤ 'Z'.val) || ('a'.val ≤ c.val && c.val ≤ 'z'.val)) := rfl
  simp [hranges, AsciiLetter, Char.le_def]

theorem isAlphanum_iff {c : Char} : c.isAlphanum = true ↔ AsciiLetter c ∨ AsciiDigit c := by
  simp only [Char.isAlphanum, Bool.or_eq_true, isAlpha_iff]
  simp [Char.isDigit, AsciiDigit, Char.le_def]

theorem isIdentifier_iff {s : String} : isIdentifier s.toList = true ↔ Identifier s := by
  unfold Identifier isIdentifier
  split
  · simp_all
  · next c rest heq =>
    simp only [heq, Bool.and_eq_true, List.all_eq_true, isAlpha_iff, isAlphanum_iff]
    constructor
    · rintro ⟨hc, hrest⟩
      exact ⟨c, rest, rfl, hc, hrest⟩
    · rintro ⟨_, _, ⟨⟩, hc, hrest⟩
      exact ⟨hc, hrest⟩

theorem allBlank_iff {s : String} : allBlank s.toList = true ↔ Blank s := List.all_eq_true

theorem splitApiVersion?_eq_some {apiVersion group version : String}
    (h : splitApiVersion? apiVersion = some (group, version)) : apiVersion.toList = group.toList ++ '/' :: version.toList ∧
      group.toList ≠ [] ∧ version.toList ≠ [] ∧ '/' ∉ group.toList ∧ '/' ∉ version.toList := by
  unfold splitApiVersion? at h
  split at h
  · next first second hsplit =>
    have hjoin := joinWith_splitOn '/' apiVersion.toList
    have hfree : ∀ piece ∈ splitOn '/' apiVersion.toList, '/' ∉ piece := fun _ => notMem_of_mem_splitOn
    rw [hsplit] at hjoin hfree
    split at h
    · cases h
    · next hfull =>
      cases h
      simp only [Bool.or_eq_true, List.isEmpty_iff, not_or] at hfull
      simp only [String.toList_ofList]
      exact ⟨by simpa [joinWith] using hjoin.symm, hfull.1, hfull.2, hfree _ (by simp), hfree _ (by simp)⟩
  · cases h

theorem splitApiVersion?_isSome_iff {apiVersion : String} :
    (splitApiVersion? apiVersion).isSome = true ↔ TwoParts apiVersion := by
  constructor
  · intro h
    obtain ⟨⟨group, version⟩, hparts⟩ := Option.isSome_iff_exists.mp h
    exact ⟨group.toList, version.toList, splitApiVersion?_eq_some hparts⟩
  · rintro ⟨group, version, heq, hgroup, hversion, hfirst, hsecond⟩
    have hsplit : splitOn '/' apiVersion.toList = [group, version] := by
      rw [heq, splitOn_append_cons, splitOn_of_notMem hfirst, splitOn_of_notMem hsecond, List.singleton_append]
    simp [splitApiVersion?, hsplit, hgroup, hversion]

theorem not_isAlphanumeric_of_isBlank {c : Char} (h : isBlank c = true) : isAlphanumeric c = false := by
  have hcode : c.toNat ∈ [9, 10, 11, 12, 13, 32, 133, 160, 5760, 8192, 8193, 8194, 8195, 8196, 8197, 8198, 8199, 8200,
      8201, 8202, 8232, 8233, 8239, 8287, 12288] := by
    simp only [isBlank, Bool.or_eq_true, Bool.and_eq_true, decide_eq_true_eq] at h
    simp only [List.mem_cons, List.not_mem_nil]
    omega
  have htable : ∀ n ∈ [9, 10, 11, 12, 13, 32, 133, 160, 5760, 8192, 8193, 8194, 8195, 8196, 8197, 8198, 8199, 8200,
      8201, 8202, 8232, 8233, 8239, 8287, 12288], isAlphanumeric (Char.ofNat n) = false := by decide +kernel
  rw [← Char.ofNat_toNat c]
  exact htable _ hcode

theorem wordsOf_of_blank : ∀ {s : List Char}, (∀ c ∈ s, isBlank c = true) → Naming.wordsOf s = []
  | [], _ => rfl
  | c :: rest, h => by
    obtain ⟨hc, hrest⟩ := List.forall_mem_cons.mp h
    simp only [Naming.wordsOf, not_isAlphanumeric_of_isBlank hc, Bool.false_eq_true, ite_false,
      wordsOf_of_blank hrest]

theorem not_identifier_of_blank {phase : Phase} (h : Blank phase.name) : ¬ Identifier phase.workerPackage := by
  rintro ⟨c, rest, heq, -⟩
  simp [Phase.workerPackage, Naming.packageName, Naming.upperCamelChars, wordsOf_of_blank h, lowercase, lowerAfter]
    at heq

theorem not_blank_of_identifier {s : String} (h : Identifier s) : ¬ Blank s := by
  obtain ⟨c, rest, heq, hc, -⟩ := h
  intro hblank
  have hcode : isBlank c = true := hblank c (heq ▸ List.mem_cons_self ..)
  have hc' : (65 ≤ c.toNat ∧ c.toNat ≤ 90) ∨ (97 ≤ c.toNat ∧ c.toNat ≤ 122) := hc
  simp only [isBlank, Bool.or_eq_true, Bool.and_eq_true, decide_eq_true_eq] at hcode
  omega

/-! ### Violations -/

/-- Among the phases `earlier`, `first` and no other has the package. -/
def SoleOwner (earlier : List Phase) (package : String) (first : Phase) : Prop :=
  ∃ before after, earlier = before ++ first :: after ∧ first.workerPackage = package ∧
    ∀ other ∈ before ++ after, other.workerPackage ≠ package

/-- How a phase that comes after the phases `earlier` is malformed. -/
inductive Phase.Violation (earlier : List Phase) (phase : Phase) : Malformed → Prop
  | emptyName : Blank phase.name → Violation earlier phase (.emptyPhaseName earlier.length)
  | invalidName : ¬ Blank phase.name → ¬ Identifier phase.workerPackage →
      Violation earlier phase (.invalidPhaseName phase.name)
  | duplicate {first : Phase} : ¬ Blank phase.name → Identifier phase.workerPackage →
      SoleOwner earlier phase.workerPackage first → first.name = phase.name →
      Violation earlier phase (.duplicatePhase phase.name)
  | collision {first : Phase} : ¬ Blank phase.name → Identifier phase.workerPackage →
      SoleOwner earlier phase.workerPackage first → first.name ≠ phase.name →
      Violation earlier phase (.packageCollision first.name phase.name phase.workerPackage)

/-- The first violation of a descriptor: a phase is only looked at when no phase before it violates anything. -/
inductive Descriptor.Violation (d : Descriptor) : Malformed → Prop
  | apiVersion : ¬ TwoParts d.apiVersion → Violation d (.apiVersion d.apiVersion)
  | emptyKind : TwoParts d.apiVersion → Blank d.kind → Violation d .emptyKind
  | invalidKind : TwoParts d.apiVersion → ¬ Blank d.kind → ¬ Identifier d.kind → Violation d (.invalidKind d.kind)
  | phase {before after : List Phase} {phase : Phase} {e : Malformed} : TwoParts d.apiVersion → Identifier d.kind →
      d.phases = before ++ phase :: after →
      (∀ front other back, before = front ++ other :: back → ∀ e, ¬ other.Violation front e) →
      phase.Violation before e → Violation d e

namespace Descriptor

theorem packaged_nil : Packaged [] := ⟨by simp, .nil⟩

theorem Packaged.sublist {front phases : List Phase} (h : Packaged phases) (hfront : front.Sublist phases) :
    Packaged front :=
  ⟨fun phase hmem => h.identifiers phase (hfront.subset hmem), h.distinct.sublist hfront⟩

theorem packaged_concat {phases : List Phase} {phase : Phase} :
    Packaged (phases ++ [phase]) ↔ Packaged phases ∧ Identifier phase.workerPackage ∧
      ∀ other ∈ phases, other.workerPackage ≠ phase.workerPackage := by
  constructor
  · rintro ⟨hidentifiers, hdistinct⟩
    obtain ⟨hbefore, -, hnew⟩ := List.pairwise_append.mp hdistinct
    exact ⟨⟨fun other hmem => hidentifiers other (List.mem_append_left _ hmem), hbefore⟩,
      isIdentifier_iff.mp (hidentifiers phase (by simp)), fun other hmem => hnew other hmem phase (by simp)⟩
  · rintro ⟨⟨hidentifiers, hdistinct⟩, hidentifier, hnew⟩
    refine ⟨fun other hmem => ?_, List.pairwise_append.mpr ⟨hdistinct, List.pairwise_singleton .., by simpa using hnew⟩⟩
    rcases List.mem_append.mp hmem with hmem | hmem
    · exact hidentifiers other hmem
    · rw [List.mem_singleton.mp hmem]
      exact isIdentifier_iff.mpr hidentifier

/-- The packages of the phases with their names, in order. -/
def claims (phases : List Phase) : List (String × String) := phases.map fun phase => (phase.workerPackage, phase.name)

theorem claims_lookup_eq_none {package : String} : ∀ {phases : List Phase},
    (∀ other ∈ phases, other.workerPackage ≠ package) → (claims phases).lookup package = none
  | [], _ => rfl
  | phase :: rest, h => by
    obtain ⟨hphase, hrest⟩ := List.forall_mem_cons.mp h
    simp only [claims, List.map_cons, Pairs.lookup_cons, if_neg hphase.symm]
    exact claims_lookup_eq_none hrest

theorem claims_lookup_owner {earlier : List Phase} {package : String} {first : Phase}
    (h : SoleOwner earlier package first) : (claims earlier).lookup package = some first.name := by
  obtain ⟨before, after, rfl, hfirst, hothers⟩ := h
  have hbefore : (claims before).lookup package = none :=
    claims_lookup_eq_none fun other hmem => hothers other (List.mem_append_left _ hmem)
  simp only [claims, List.map_append, List.map_cons, List.lookup_append] at hbefore ⊢
  rw [hbefore, Pairs.lookup_cons, if_pos hfirst.symm, Option.none_or]

theorem Packaged.soleOwner {earlier : List Phase} {first : Phase} (h : Packaged earlier) (hmem : first ∈ earlier) :
    SoleOwner earlier first.workerPackage first := by
  obtain ⟨before, after, rfl⟩ := List.append_of_mem hmem
  obtain ⟨-, hrest, hacross⟩ := List.pairwise_append.mp h.distinct
  refine ⟨before, after, rfl, rfl, fun other hmem => ?_⟩
  rcases List.mem_append.mp hmem with hmem | hmem
  · exact hacross other hmem first (List.mem_cons_self ..)
  · exact ((List.pairwise_cons.mp hrest).1 other hmem).symm

/-! ### One phase -/

section Phase
variable {earlier : List Phase} {phase first : Phase} {e e' : Malformed}

theorem soleOwner_unique {package : String} {other : Phase} (h : SoleOwner earlier package first)
    (h' : SoleOwner earlier package other) : other = first := by
  obtain ⟨before, after, rfl, -, hothers⟩ := h
  obtain ⟨before', after', heq, hpackage, -⟩ := h'
  have hmem : other ∈ before ++ first :: after := heq ▸ by simp
  rcases List.mem_append.mp hmem with hmem | hmem
  · exact absurd hpackage (hothers other (List.mem_append_left _ hmem))
  · rcases List.mem_cons.mp hmem with hsame | hmem
    · exact hsame
    · exact absurd hpackage (hothers other (List.mem_append_right _ hmem))

/-- What violates something is no phase that a packaged list could go on with. -/
theorem not_packaged_of_violation (h : phase.Violation earlier e) : ¬ Packaged (earlier ++ [phase]) := by
  rw [packaged_concat]
  rintro ⟨-, hidentifier, hnew⟩
  cases h with
  | emptyName hblank => exact not_identifier_of_blank hblank hidentifier
  | invalidName _ hnot => exact hnot hidentifier
  | duplicate _ _ hfirst _ | collision _ _ hfirst _ =>
    obtain ⟨before, after, rfl, hpackage, -⟩ := hfirst
    exact hnew _ (by simp) hpackage

theorem violation_unique (h : phase.Violation earlier e) (h' : phase.Violation earlier e') : e = e' := by
  cases h with
  | emptyName hblank => cases h' <;> first | rfl | contradiction
  | invalidName hblank hnot => cases h' <;> first | rfl | contradiction
  | duplicate _ _ howner hname =>
    cases h' with
    | duplicate => rfl
    | collision _ _ howner' hname' => exact absurd (soleOwner_unique howner howner' ▸ hname) hname'
    | _ => contradiction
  | collision _ _ howner hname =>
    cases h' with
    | duplicate _ _ howner' hname' => exact absurd (soleOwner_unique howner' howner ▸ hname') hname
    | collision _ _ howner' _ => rw [soleOwner_unique howner howner']
    | _ => contradiction

/-- One step of the walk over the phases: a phase that violates something is refused for that, and any other one
    adds its claim. -/
theorem checkPhases_cons (hearlier : Packaged earlier) (phase : Phase) (rest : List Phase) :
    (Packaged (earlier ++ [phase]) ∧ checkPhases earlier.length (claims earlier) (phase :: rest) =
        checkPhases (earlier ++ [phase]).length (claims (earlier ++ [phase])) rest) ∨
      ∃ e, phase.Violation earlier e ∧ checkPhases earlier.length (claims earlier) (phase :: rest) = .error e := by
  rw [checkPhases]
  by_cases hblank : Blank phase.name
  · exact .inr ⟨_, .emptyName hblank, if_pos (allBlank_iff.mpr hblank)⟩
  rw [if_neg (fun h => hblank (allBlank_iff.mp h))]
  by_cases hidentifier : Identifier phase.workerPackage
  · simp only [isIdentifier_iff.mpr hidentifier, Bool.not_true, Bool.false_eq_true, ite_false]
    by_cases hclaimed : ∃ first ∈ earlier, first.workerPackage = phase.workerPackage
    · obtain ⟨first, hmem, hfirst⟩ := hclaimed
      have howner := hfirst ▸ hearlier.soleOwner hmem
      rw [claims_lookup_owner howner]
      by_cases hname : first.name = phase.name
      · exact .inr ⟨_, .duplicate hblank hidentifier howner hname, if_pos hname⟩
      · exact .inr ⟨_, .collision hblank hidentifier howner hname, if_neg hname⟩
    · have hfree : ∀ other ∈ earlier, other.workerPackage ≠ phase.workerPackage := fun other hmem heq =>
        hclaimed ⟨other, hmem, heq⟩
      refine .inl ⟨packaged_concat.mpr ⟨hearlier, hidentifier, hfree⟩, ?_⟩
      rw [claims_lookup_eq_none hfree]
      simp [claims]
  · have hnot : (!isIdentifier phase.workerPackage.toList) = true := by
      simpa using fun h => hidentifier (isIdentifier_iff.mp h)
    exact .inr ⟨_, .invalidName hblank hidentifier, if_pos hnot⟩

end Phase

/-! ### All phases -/

theorem checkPhases_spec (phases : List Phase) : ∀ {earlier : List Phase}, Packaged earlier →
    (Packaged (earlier ++ phases) ∧ checkPhases earlier.length (claims earlier) phases = .ok ()) ∨
      ∃ before phase after e, phases = before ++ phase :: after ∧ Packaged (earlier ++ before) ∧
        phase.Violation (earlier ++ before) e ∧ checkPhases earlier.length (claims earlier) phases = .error e := by
  induction phases with
  | nil => exact fun h => .inl ⟨by simpa using h, rfl⟩
  | cons phase rest ih =>
    intro earlier h
    rcases checkPhases_cons h phase rest with ⟨hnext, heq⟩ | ⟨e, hviolation, heq⟩
    · rw [heq]
      rcases ih hnext with ⟨hall, hok⟩ | ⟨before, bad, after, e, rfl, hbefore, hviolation, herror⟩
      · exact .inl ⟨by simpa using hall, hok⟩
      · exact .inr ⟨phase :: before, bad, after, e, rfl, by simpa using hbefore, by simpa using hviolation, herror⟩
    · exact .inr ⟨[], phase, rest, e, rfl, by simpa using h, by simpa using hviolation, heq⟩

/-- A list of phases is packaged when none of them violates anything against the phases before it. -/
theorem packaged_iff_no_violation {phases : List Phase} :
    Packaged phases ↔ ∀ before phase after, phases = before ++ phase :: after → ∀ e, ¬ phase.Violation before e := by
  constructor
  · rintro h before phase after rfl e hviolation
    have hfront : (before ++ [phase]).Sublist (before ++ phase :: after) := by simp
    exact not_packaged_of_violation hviolation (h.sublist hfront)
  · intro h
    rcases checkPhases_spec phases packaged_nil with ⟨hall, -⟩ | ⟨before, phase, after, e, heq, -, hbad, -⟩
    · exact hall
    · exact absurd hbad (h before phase after heq e)

/-- What comes before a phase that is the first bad one has no bad phase in it. -/
theorem length_le_of_first_violation {before after before' after' : List Phase} {bad bad' : Phase} {e : Malformed}
    (heq : before ++ bad :: after = before' ++ bad' :: after') (hbad : bad.Violation before e)
    (hfirst : ∀ front other back, before' = front ++ other :: back → ∀ e, ¬ other.Violation front e) :
    before'.length ≤ before.length := by
  -- a longer front would have the other bad phase in it, and no bad phase is before the first
  rcases List.append_eq_append_iff.mp heq with ⟨between, rfl, hbetween⟩ | ⟨between, rfl, -⟩
  · cases between with
    | nil => simp
    | cons other between =>
      obtain ⟨rfl, -⟩ := List.cons.inj hbetween
      exact absurd hbad (hfirst before bad between rfl e)
  · simp

theorem Violation.unique {d : Descriptor} {e e' : Malformed} (h : d.Violation e) (h' : d.Violation e') : e = e' := by
  cases h with
  | apiVersion => cases h' <;> first | rfl | contradiction
  | emptyKind _ hblank =>
    cases h' with
    | emptyKind => rfl
    | phase _ hkind => exact absurd hblank (not_blank_of_identifier hkind)
    | _ => contradiction
  | invalidKind => cases h' <;> first | rfl | contradiction
  | @phase before after bad e _ hkind hphases hbefore hbad =>
    cases h' with
    | emptyKind _ hblank => exact absurd hblank (not_blank_of_identifier hkind)
    | @phase before' after' bad' e' _ _ hphases' hbefore' hbad' =>
      have hboth := hphases.symm.trans hphases'
      have hlength : before.length = before'.length :=
        Nat.le_antisymm (length_le_of_first_violation hboth.symm hbad' hbefore)
          (length_le_of_first_violation hboth hbad hbefore')
      obtain ⟨rfl, hrest⟩ := List.append_inj hboth hlength
      obtain ⟨rfl, -⟩ := List.cons.inj hrest
      exact violation_unique hbad hbad'
    | _ => contradiction

/-- The check accepts what has two parts, an identifier as its kind and packaged phases, and of anything else it
    reports the first violation. -/
theorem validate_spec (d : Descriptor) :
    (TwoParts d.apiVersion ∧ Identifier d.kind ∧ Packaged d.phases ∧ d.validate = .ok ()) ∨
      ∃ e, d.Violation e ∧ d.validate = .error e := by
  unfold validate
  by_cases hparts : TwoParts d.apiVersion
  · obtain ⟨parts, hparts'⟩ := Option.isSome_iff_exists.mp (splitApiVersion?_isSome_iff.mpr hparts)
    simp only [hparts']
    by_cases hblank : Blank d.kind
    · exact .inr ⟨_, .emptyKind hparts hblank, if_pos (allBlank_iff.mpr hblank)⟩
    rw [if_neg (fun h => hblank (allBlank_iff.mp h))]
    by_cases hkind : Identifier d.kind
    · simp only [isIdentifier_iff.mpr hkind, Bool.not_true, Bool.false_eq_true, ite_false]
      rcases checkPhases_spec d.phases packaged_nil with ⟨hall, hok⟩ |
        ⟨before, bad, after, e, hphases, hbefore, hbad, herror⟩
      · exact .inl ⟨hparts, hkind, hall, hok⟩
      · exact .inr ⟨e, .phase hparts hkind hphases (packaged_iff_no_violation.mp hbefore) hbad, herror⟩
    · have hnot : (!isIdentifier d.kind.toList) = true := by
        simpa using fun h => hkind (isIdentifier_iff.mp h)
      exact .inr ⟨_, .invalidKind hparts hblank hkind, if_pos hnot⟩
  · have hnone : splitApiVersion? d.apiVersion = none := by
      simpa using fun h => hparts (splitApiVersion?_isSome_iff.mp h)
    exact .inr ⟨_, .apiVersion hparts, by rw [hnone]⟩

theorem identifier_of_validate {d : Descriptor} (h : d.validate = .ok ()) : Identifier d.kind := by
  rcases d.validate_spec with ⟨-, hkind, -⟩ | ⟨e, -, herror⟩
  · exact hkind
  · rw [h] at herror
    cases herror

theorem not_violation {d : Descriptor} (hparts : TwoParts d.apiVersion) (hkind : Identifier d.kind)
    (hphases : Packaged d.phases) (e : Malformed) : ¬ d.Violation e := by
  intro h
  cases h with
  | apiVersion hnot => exact hnot hparts
  | emptyKind _ hblank => exact not_blank_of_identifier hkind hblank
  | invalidKind _ _ hnot => exact hnot hkind
  | phase _ _ heq _ hbad => exact packaged_iff_no_violation.mp hphases _ _ _ heq _ hbad

/-- **The check is exact.** It accepts a descriptor exactly when its `apiVersion` has two parts, its kind is an
    identifier, and the worker packages of its phases are identifiers and pairwise distinct; otherwise it reports
    the first violation, of which there is one. -/
theorem validate_exact (d : Descriptor) :
    (d.validate = .ok () ↔ TwoParts d.apiVersion ∧ Identifier d.kind ∧
        (∀ phase ∈ d.phases, Identifier phase.workerPackage) ∧
        d.phases.Pairwise fun a b => a.workerPackage ≠ b.workerPackage) ∧
      ∀ e, d.validate = .error e ↔ d.Violation e := by
  have hpackaged : Packaged d.phases ↔ (∀ phase ∈ d.phases, Identifier phase.workerPackage) ∧
      d.phases.Pairwise fun a b => a.workerPackage ≠ b.workerPackage :=
    ⟨fun h => ⟨fun phase hmem => isIdentifier_iff.mp (h.identifiers phase hmem), h.distinct⟩,
      fun h => ⟨fun phase hmem => isIdentifier_iff.mpr (h.1 phase hmem), h.2⟩⟩
  rw [← hpackaged]
  rcases validate_spec d with ⟨hparts, hkind, hphases, hok⟩ | ⟨e, hviolation, herror⟩
  · rw [hok]
    have hnone := not_violation hparts hkind hphases
    refine ⟨by simp [hparts, hkind, hphases], fun e => ?_⟩
    simp [hnone e]
  · rw [herror]
    refine ⟨?_, fun e' => ?_⟩
    · simp only [reduceCtorEq, false_iff]
      rintro ⟨hparts, hkind, hphases⟩
      exact not_violation hparts hkind hphases e hviolation
    · rw [Except.error.injEq]
      exact ⟨fun h => h ▸ hviolation, fun h => hviolation.unique h⟩

end Descriptor

end Scaffold
