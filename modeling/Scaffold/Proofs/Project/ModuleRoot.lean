import Scaffold.Proofs.Descriptor.Violation
import Scaffold.Proofs.Text.Trim

/-! The module root of a project (`Project.derive_root`). Blanks around the given text are dropped, and then the slashes
    at its end, each of them once. What is left has no blank in front and no slash behind (`RootText`). But a blank that
    stood in front of the slashes is left, and then the root is not settled: given as a module root once more, it makes
    another project or none. -/

namespace Scaffold
open Text

/-! ### Texts of roots -/

/-- Nothing but blanks. -/
def Blanks (s : List Char) : Prop := ∀ c ∈ s, isBlank c = true

/-- Nothing but slashes. -/
def Slashes (s : List Char) : Prop := ∀ c ∈ s, c = '/'

/-- Slashes between blanks, of which no root is left. -/
def Rootless (s : List Char) : Prop :=
  ∃ before slashes after, s = before ++ slashes ++ after ∧ Blanks before ∧ Slashes slashes ∧ Blanks after

/-- A blank, behind something else, in front of the slashes at the end; blanks may follow these. -/
def Gapped (s : List Char) : Prop :=
  ∃ front b slashes after, s = front ++ b :: (slashes ++ after) ∧ ¬Blanks front ∧ isBlank b = true ∧ slashes ≠ [] ∧
    Slashes slashes ∧ Blanks after

/-- The root `left` is what stands in a text between blanks in front, and slashes and then blanks behind. -/
structure RootText (s left : List Char) : Prop where
  nonempty : left ≠ []
  first : ∀ c ∈ left.head?, isBlank c = false
  last : left.getLast? ≠ some '/'
  /-- only in front of slashes the root may end in a blank -/
  within : ∃ before slashes after, s = before ++ (left ++ slashes) ++ after ∧ Blanks before ∧ Slashes slashes ∧
    Blanks after ∧ (slashes = [] → ∀ c ∈ left.getLast?, isBlank c = false)

/-- What is left of a text for the module root. -/
def rootText (s : List Char) : List Char := dropEndWhile (· = '/') (trim s)

theorem Slashes.bare {slashes : List Char} (h : Slashes slashes) : Bare slashes where
  first c hc := h c (List.mem_of_mem_head? hc) ▸ by decide
  last c hc := h c (List.mem_of_mem_getLast? hc) ▸ by decide

section
variable {s left : List Char}

theorem rootText_eq_nil_iff : rootText s = [] ↔ Rootless s := by
  rw [rootText, dropEndWhile_eq_nil_iff]
  constructor
  · intro h
    obtain ⟨before, after, hs, hbefore, hafter⟩ := exists_margins s
    exact ⟨before, trim s, after, hs, hbefore, fun c hc => of_decide_eq_true (h c hc), hafter⟩
  · rintro ⟨before, slashes, after, rfl, hbefore, hslashes, hafter⟩ c hc
    by_cases hne : slashes = []
    · rw [hne, trim_of_blank] at hc
      · cases hc
      · simpa using List.forall_mem_append.mpr ⟨hbefore, hafter⟩
    · rw [trim_margins hslashes.bare hne hbefore hafter] at hc
      exact decide_eq_true (hslashes c hc)

theorem rootText_of_not_rootless (h : ¬Rootless s) : RootText s (rootText s) := by
  have hne : rootText s ≠ [] := fun heq => h (rootText_eq_nil_iff.mp heq)
  obtain ⟨before, after, hs, hbefore, hafter⟩ := exists_margins s
  obtain ⟨slashes, htrim, hslashes⟩ := exists_ending (· = '/') (trim s)
  rw [← rootText] at htrim
  have hbare := htrim ▸ bare_trim s
  refine ⟨hne, fun c hc => hbare.first c ?_, fun hlast => by simpa using last_dropEndWhile _ hlast, before, slashes,
    after, htrim ▸ hs, hbefore, fun c hc => of_decide_eq_true (hslashes c hc), hafter, ?_⟩
  · rwa [List.head?_append_of_ne_nil _ hne]
  · rintro rfl
    simpa using hbare.last

theorem RootText.eq (h : RootText s left) : rootText s = left := by
  obtain ⟨before, slashes, after, rfl, hbefore, hslashes, hafter, hblank⟩ := h.within
  have hbare : Bare (left ++ slashes) := by
    refine ⟨fun c hc => h.first c ?_, fun c hc => ?_⟩
    · rwa [List.head?_append_of_ne_nil _ h.nonempty] at hc
    · by_cases hne : slashes = []
      · rw [hne, List.append_nil] at hc
        exact hblank hne c hc
      · rw [List.getLast?_append_of_ne_nil _ hne] at hc
        exact hslashes.bare.last c hc
  rw [rootText, trim_margins hbare (by simp [h.nonempty]) hbefore hafter]
  exact dropEndWhile_append (fun c hc => decide_eq_false fun heq => h.last (heq ▸ hc)) fun c hc =>
    decide_eq_true (hslashes c hc)

/-- A root is left as it is exactly if it does not end in a blank. -/
theorem RootText.rootText_eq_self_iff (h : RootText s left) :
    rootText left = left ↔ ∀ c ∈ left.getLast?, isBlank c = false := by
  constructor
  · intro heq
    have hroot : ¬Rootless left := fun hnone => h.nonempty (heq ▸ rootText_eq_nil_iff.mpr hnone)
    obtain ⟨before, slashes, after, hleft, -, -, -, hblank⟩ := (heq ▸ rootText_of_not_rootless hroot).within
    have hlength := congrArg List.length hleft
    simp only [List.length_append] at hlength
    exact hblank (List.eq_nil_of_length_eq_zero (by omega))
  · exact fun hlast => RootText.eq ⟨h.nonempty, h.first, h.last, [], [], [], by simp, nofun, nofun, nofun, fun _ => hlast⟩

theorem RootText.gapped_iff (h : RootText s left) : Gapped s ↔ ∃ b ∈ left.getLast?, isBlank b = true := by
  constructor
  · rintro ⟨front, b, slashes, after, hs, hfront, hb, hne, hslashes, hafter⟩
    -- the root begins behind the blanks in front, and ends with `b`
    have hsolid : ¬∀ c ∈ front, isBlank c = true := hfront
    rw [← List.dropWhile_eq_nil_iff] at hsolid
    have hroot : RootText s (front.dropWhile isBlank ++ [b]) := by
      refine ⟨by simp, fun c hc => ?_, ?_, front.takeWhile isBlank, slashes, after, ?_, fun c hc =>
        List.mem_takeWhile_imp hc, hslashes, hafter, fun hnil => absurd hnil hne⟩
      · rw [List.head?_append_of_ne_nil _ hsolid] at hc
        have hfirst := List.head?_dropWhile_not isBlank front
        rwa [hc] at hfirst
      · rw [List.getLast?_concat]
        rintro ⟨⟩
        revert hb
        decide
      · rw [hs, ← List.append_assoc _ _ slashes, ← List.append_assoc, List.takeWhile_append_dropWhile]
        simp
    rw [← h.eq, hroot.eq]
    exact ⟨b, by simp, hb⟩
  · rintro ⟨b, hlast, hb⟩
    obtain ⟨inner, rfl⟩ := List.getLast?_eq_some_iff.mp hlast
    obtain ⟨before, slashes, after, hs, -, hslashes, hafter, hblank⟩ := h.within
    refine ⟨before ++ inner, b, slashes, after, by simp [hs], fun hblanks => ?_, hb, ?_, hslashes, hafter⟩
    · -- the first character of the root is no blank, so it stands in front of `b`
      cases inner with
      | nil => exact absurd hb (by simp [h.first b rfl])
      | cons c rest => exact absurd (hblanks c (by simp)) (by simp [h.first c rfl])
    · rintro rfl
      exact absurd hb (by simp [hblank rfl b hlast])

end

/-! ### Deriving a project -/

namespace Project

/-- What there is to know of the module root of a project that is derived at `root`. -/
structure RootFits (d : Descriptor) (root : String) (p : Project) : Prop where
  text : RootText root.toList p.moduleRoot.toList
  blankEnd : (∃ b ∈ p.moduleRoot.toList.getLast?, isBlank b = true) ↔ Gapped root.toList
  again : derive d p.moduleRoot = .ok p ↔ ¬Gapped root.toList

section
variable {d : Descriptor} {root : String} {p : Project}

theorem derive_of_rootless (hparts : TwoParts d.apiVersion) (h : Rootless root.toList) :
    derive d root = .error (.root (.empty root)) := by
  obtain ⟨⟨group, version⟩, hsplit⟩ := Option.isSome_iff_exists.mp (splitApiVersion?_isSome_iff.mpr hparts)
  have hroot : dropEndWhile (· = '/') (trim root.toList) = [] := rootText_eq_nil_iff.mpr h
  simp only [derive, hsplit, hroot]

theorem derive_of_rootText (hparts : TwoParts d.apiVersion) {left : List Char} (h : RootText root.toList left) :
    ∃ p, derive d root = .ok p ∧ p.moduleRoot = String.ofList left := by
  obtain ⟨⟨group, version⟩, hsplit⟩ := Option.isSome_iff_exists.mp (splitApiVersion?_isSome_iff.mpr hparts)
  obtain ⟨c, rest, rfl⟩ := List.exists_cons_of_ne_nil h.nonempty
  have hroot : dropEndWhile (· = '/') (trim root.toList) = c :: rest := h.eq
  simp only [derive, hsplit, hroot]
  exact ⟨_, rfl, rfl⟩

theorem derive_congr {other : String} (hne : rootText root.toList ≠ [])
    (h : rootText root.toList = rootText other.toList) : derive d root = derive d other := by
  obtain ⟨c, rest, hroot⟩ := List.exists_cons_of_ne_nil hne
  have hother : dropEndWhile (· = '/') (trim other.toList) = c :: rest := h.symm.trans hroot
  rw [rootText] at hroot
  simp only [derive, hroot, hother]

/-- Deriving again from a root that does not end in a blank, and from no other, gives the same project. -/
theorem derive_again_iff (h : RootText root.toList p.moduleRoot.toList) (hp : derive d root = .ok p)
    (hparts : TwoParts d.apiVersion) :
    derive d p.moduleRoot = .ok p ↔ ∀ c ∈ p.moduleRoot.toList.getLast?, isBlank c = false := by
  rw [← h.rootText_eq_self_iff]
  constructor
  · intro hagain
    by_cases hnone : Rootless p.moduleRoot.toList
    · rw [derive_of_rootless hparts hnone] at hagain
      cases hagain
    · obtain ⟨q, hq, hroot⟩ := derive_of_rootText hparts (rootText_of_not_rootless hnone)
      rw [hagain] at hq
      cases hq
      rw [← String.toList_inj, String.toList_ofList] at hroot
      exact hroot.symm
  · intro hself
    rw [← hp]
    exact (derive_congr (h.eq ▸ h.nonempty) (h.eq.trans hself.symm)).symm

end

/-- **The module root**: a descriptor whose version has two parts is refused at a root exactly if this has nothing but
    slashes between blanks. Any other one gives a project whose root has no blank at its start and no slash at its end.
    It ends in a blank exactly if the given one has a blank in front of the slashes at its end, and otherwise, but not
    then, deriving again from it gives the same project. -/
theorem derive_root {d : Descriptor} (hparts : TwoParts d.apiVersion) (root : String) :
    (Rootless root.toList ∧ derive d root = .error (.root (.empty root))) ∨
      (¬Rootless root.toList ∧ ∃ p, derive d root = .ok p ∧ RootFits d root p) := by
  by_cases hnone : Rootless root.toList
  · exact .inl ⟨hnone, derive_of_rootless hparts hnone⟩
  · have htext := rootText_of_not_rootless hnone
    obtain ⟨p, hp, hroot⟩ := derive_of_rootText hparts htext
    have hleft : p.moduleRoot.toList = rootText root.toList := by rw [hroot, String.toList_ofList]
    rw [← hleft] at htext
    have hgapped := htext.gapped_iff
    refine .inr ⟨hnone, p, hp, htext, hgapped.symm, ?_⟩
    rw [derive_again_iff htext hp hparts, hgapped]
    simp

/-- The project of one kind at a root that ends in a blank. -/
def gapped : Project where
  descriptor := ⟨"a/v1", "K", none, []⟩
  moduleRoot := "m "
  group := "a"
  version := "v1"
  typesImportPath := "m /pkg/apis/ks/v1"
  schedulerImportPath := "m /pkg/scheduler"
  configImportPath := "m /pkg/config"
  kindLowerCamel := "k"
  operatorName := "m "

/-- From `m /` the root `m ` is left, which is not settled; from `/ /` a root is left of which none is left. -/
theorem derive_root_gapped : TwoParts gapped.descriptor.apiVersion ∧ Gapped "m /".toList ∧
    derive gapped.descriptor "m /" = .ok gapped ∧ RootFits gapped.descriptor "m /" gapped ∧
    derive gapped.descriptor gapped.moduleRoot ≠ .ok gapped ∧
    ∃ p, derive gapped.descriptor "/ /" = .ok p ∧ p.moduleRoot = "/ " ∧
      derive gapped.descriptor p.moduleRoot = .error (.root (.empty "/ ")) := by
  have hparts : TwoParts gapped.descriptor.apiVersion := ⟨['a'], ['v', '1'], rfl, by decide, by decide, by decide, by decide⟩
  have hgapped : Gapped "m /".toList :=
    ⟨['m'], ' ', ['/'], [], rfl, fun h => absurd (h 'm' (by simp)) (by decide), rfl, by simp, by simp [Slashes], nofun⟩
  have hderive : derive gapped.descriptor "m /" = .ok gapped := eq_ok_of_toOption (by decide +kernel)
  rcases derive_root hparts "m /" with ⟨-, herror⟩ | ⟨-, p, hp, hfits⟩
  · rw [hderive] at herror
    cases herror
  · rw [hderive] at hp
    cases hp
    refine ⟨hparts, hgapped, hderive, hfits, fun hagain => hfits.again.mp hagain hgapped, ?_⟩
    have hslash : RootText "/ /".toList ['/', ' '] :=
      ⟨by simp, by rintro c ⟨⟩; decide, by decide, [], ['/'], [], rfl, nofun, by simp [Slashes], nofun, nofun⟩
    obtain ⟨q, hq, hroot⟩ := derive_of_rootText hparts hslash
    refine ⟨q, hq, hroot, ?_⟩
    rw [hroot]
    exact derive_of_rootless hparts ⟨[], ['/'], [' '], rfl, nofun, by simp [Slashes], by simp [Blanks]; decide⟩

end Project

end Scaffold
