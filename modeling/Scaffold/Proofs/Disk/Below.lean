import Scaffold.Proofs.Disk.Named

/-! What can be seen below a directory. Two disks that agree below two directories lead a path that goes on from there
    without climbing to the same place below them (`enterAll_same`), or fail to at the same part for the same reason. So
    such a path is read alike on both (`read_below`), whatever stands elsewhere. -/

namespace Scaffold.Disk
open Scaffold.Path

section
variable {d d' : Disk} {l l' : Location}

/-- The same stands below these locations. -/
def Agree (d d' : Disk) (l l' : Location) : Prop := ∀ names : Location, d.get? (names ++ l) = d'.get? (names ++ l')

/-- Both ways lead to directories at the same place below these locations, or fail alike. -/
inductive Same (l l' : Location) : Except Failure d.Directory → Except Failure d'.Directory → Prop
  | failed (e : Failure) : Same l l' (.error e) (.error e)
  | arrived {dir : d.Directory} {dir' : d'.Directory} (names : Location) (h : dir.1 = names ++ l)
      (h' : dir'.1 = names ++ l') : Same l l' (.ok dir) (.ok dir')

theorem enter_of_file {dir : d.Directory} {p : List Char} (hfits : Fits p) {f : File}
    (h : d.get? (follow dir.1 p) = some (.file f)) : d.enter dir p = .error .notDirectory := by
  obtain ⟨loc, hloc⟩ := dir
  cases henter : d.enter ⟨loc, hloc⟩ p with
  | ok next =>
    rw [(enter_eq_ok.mp henter).1.2] at h
    cases h
  | error e =>
    unfold enter at henter
    split at henter
    · cases henter
    split at henter
    · cases henter
    dsimp only at henter
    split at henter
    · next hlong => exact absurd hfits (Nat.not_le.mpr hlong)
    split at henter
    · cases henter
    · exact congrArg _ (Except.error.inj henter).symm
    · next hhere hup _ hnone =>
      simp only [Bool.or_eq_true, decide_eq_true_eq, not_or] at hhere
      rw [follow_of_name hhere.1 (not_or.mpr ⟨hhere.2, hup⟩), hnone] at h
      cases h

theorem enter_same (hagree : Agree d d' l l') {dir : d.Directory} {dir' : d'.Directory} {names : Location}
    (h : dir.1 = names ++ l) (h' : dir'.1 = names ++ l') {p : List Char} (hup : p ≠ ['.', '.']) :
    Same l l' (d.enter dir p) (d'.enter dir' p) := by
  by_cases hstay : p = [] ∨ p = ['.']
  · have hcond : (decide (p = []) || decide (p = ['.'])) = true := by simpa using hstay
    simp only [enter, hcond, ↓reduceIte]
    exact .arrived names h h'
  obtain ⟨hne, hhere⟩ := not_or.mp hstay
  have hdots : ¬IsDots p := not_or.mpr ⟨hhere, hup⟩
  by_cases hfits : Fits p
  · have hfollow : follow dir.1 p = String.ofList p :: names ++ l := by rw [follow_of_name hne hdots, h]; rfl
    have hfollow' : follow dir'.1 p = String.ofList p :: names ++ l' := by rw [follow_of_name hne hdots, h']; rfl
    have hsame : d'.get? (follow dir'.1 p) = d.get? (follow dir.1 p) := by
      rw [hfollow, hfollow', hagree]
    cases hthere : d.get? (follow dir.1 p) with
    | none =>
      rw [enter_eq_notFound.mpr ⟨hfits, hthere⟩, enter_eq_notFound.mpr ⟨hfits, hsame.trans hthere⟩]
      exact .failed _
    | some e =>
      cases e with
      | file f =>
        rw [enter_of_file hfits hthere, enter_of_file hfits (hsame.trans hthere)]
        exact .failed _
      | directory =>
        have henter : d.enter dir p = .ok ⟨_, hthere⟩ := enter_eq_ok.mpr ⟨⟨hfits, hthere⟩, rfl⟩
        have henter' : d'.enter dir' p = .ok ⟨_, hsame.trans hthere⟩ :=
          enter_eq_ok.mpr ⟨⟨hfits, hsame.trans hthere⟩, rfl⟩
        rw [henter, henter']
        exact .arrived (String.ofList p :: names) hfollow hfollow'
  · have hlong : maxNameSize < (String.ofList p).utf8ByteSize := Nat.not_le.mp hfits
    simp only [enter, hne, hhere, hup, hlong, decide_false, Bool.or_self, Bool.false_eq_true, ↓reduceIte]
    exact .failed _

theorem enterAll_same (hagree : Agree d d' l l') : ∀ {ps : List (List Char)} {dir : d.Directory} {dir' : d'.Directory}
    {names : Location}, dir.1 = names ++ l → dir'.1 = names ++ l' → ['.', '.'] ∉ ps →
      Same l l' (d.enterAll dir ps) (d'.enterAll dir' ps)
  | [], _, _, names, h, h', _ => .arrived names h h'
  | p :: ps, dir, dir', _, h, h', hup => by
    obtain ⟨hp, hps⟩ := not_or.mp fun hmem => hup (List.mem_cons.mpr hmem)
    have hfirst := enter_same hagree h h' fun heq => hp heq.symm
    simp only [enterAll, bind, Except.bind]
    revert hfirst
    cases d.enter dir p <;> cases d'.enter dir' p <;> intro hfirst
    · cases hfirst
      exact .failed _
    · cases hfirst
    · cases hfirst
    · cases hfirst with
      | arrived names h h' => exact enterAll_same hagree h h' hps

/-! ### Reading -/

theorem read_of_places {path : String} {p : Place d} {p' : Place d'} (h : d.place path = .ok p)
    (h' : d'.place path = .ok p') (hname : p.name = p'.name) (hslash : p.slash = p'.slash)
    (hsame : d.get? p.location = d'.get? p'.location) : d.read path = d'.read path := by
  rcases find_of_place h with ⟨hnone, hfind⟩ | ⟨e, here, hfind⟩ <;>
    rcases find_of_place h' with ⟨hnone', hfind'⟩ | ⟨e', here', hfind'⟩
  · rw [read_of_error hfind, read_of_error hfind']
  · rw [hnone, here'] at hsame
    cases hsame
  · rw [here, hnone'] at hsame
    cases hsame
  · obtain rfl : e = e' := Option.some.inj (here.symm.trans (hsame.trans here'))
    rw [← hname, ← hslash] at hfind'
    split at hfind
    · next hcond =>
      rw [if_pos hcond] at hfind'
      rw [read_of_error hfind, read_of_error hfind']
    · next hcond =>
      rw [if_neg hcond] at hfind'
      cases e with
      | file f => rw [read_of_file hfind rfl, read_of_file hfind' rfl]
      | directory => rw [read_of_directory hfind rfl, read_of_directory hfind' rfl]

theorem place_error_of_not_taken {path : String} (h : ¬Taken path) : ∃ e, ∀ d : Disk, d.place path = .error e := by
  unfold place
  dsimp only
  split
  · exact ⟨_, fun _ => rfl⟩
  rename_i hnul
  split
  · exact ⟨_, fun _ => rfl⟩
  rename_i hempty
  split
  · exact ⟨_, fun _ => rfl⟩
  rename_i hlong
  exact absurd ⟨by simpa using hnul, hempty, Nat.not_le.mp hlong⟩ h

theorem aim_of_append {path : String} {ps qs : List (List Char)} (h : parts path.toList = ps ++ qs) (hne : qs ≠ [])
    (hup : ['.', '.'] ∉ qs) : ∃ inner, (aim path).1 = ps ++ inner ∧ ['.', '.'] ∉ inner := by
  obtain ⟨front, last, rfl⟩ := (List.eq_nil_or_concat qs).resolve_left hne
  rw [List.concat_eq_append] at h hup
  rw [← List.append_assoc] at h
  by_cases hdots : IsDots last
  · exact ⟨front ++ [last], by rw [aim_of_dots h hdots, List.append_assoc], hup⟩
  · exact ⟨front, by rw [aim_of_name h hdots], fun hmem => hup (List.mem_append_left _ hmem)⟩

theorem place_of_isDirectoryAt {root path : String} (hroot : d.IsDirectoryAt root) (habs : IsAbsolute path ↔ IsAbsolute root)
    (htaken : Taken path) {inner : List (List Char)} (hinner : (aim path).1 = parts root.toList ++ inner) :
    d.place path = (d.enterAll ⟨d.locate root, hroot.2⟩ inner).bind fun dir =>
      if endsTooLong path then .error .nameTooLong else .ok ⟨dir, (aim path).2.1, (aim path).2.2⟩ := by
  obtain ⟨-, hstarted, hpasses⟩ := isDirectoryAt_iff.mp hroot
  rw [← start_of_isAbsolute_iff habs] at hstarted hpasses
  have hstart : d.startOf (path.toList.head? = some '/') = .ok ⟨_, hstarted⟩ := startOf_eq_ok.mpr ⟨hstarted, rfl⟩
  have henter : d.enterAll ⟨_, hstarted⟩ (parts root.toList) = .ok ⟨d.locate root, hroot.2⟩ := by
    refine enterAll_eq_ok.mpr ⟨hpasses, ?_⟩
    change d.locate root = walk (d.start path) (parts root.toList)
    rw [locate, start_of_isAbsolute_iff habs]
  rw [place_of_taken htaken, hstart, hinner]
  simp only [Except.bind, enterAll_append, henter]

/-- What a path that goes on from a directory without climbing reads is decided below that directory. -/
theorem read_below {root path : String} (hroot : d.IsDirectoryAt root) (hroot' : d'.IsDirectoryAt root)
    (hagree : Agree d d' (d.locate root) (d'.locate root)) (habs : IsAbsolute path ↔ IsAbsolute root)
    {ps : List (List Char)} (hparts : parts path.toList = parts root.toList ++ ps) (hup : ['.', '.'] ∉ ps) :
    d.read path = d'.read path := by
  by_cases htaken : Taken path
  case neg =>
    obtain ⟨e, herror⟩ := place_error_of_not_taken htaken
    rw [read_of_error (find_of_place_error (herror d)), read_of_error (find_of_place_error (herror d'))]
  by_cases hps : ps = []
  · -- the path leads to the directory itself
    have hitself : ∀ {m : Disk}, m.IsDirectoryAt root → m.IsDirectoryAt path := fun hm => by
      obtain ⟨-, hstarted, hpasses⟩ := isDirectoryAt_iff.mp hm
      rw [hps, List.append_nil] at hparts
      rw [← start_of_isAbsolute_iff habs] at hstarted hpasses
      exact isDirectoryAt_iff.mpr ⟨htaken, hstarted, hparts ▸ hpasses⟩
    rw [read_of_directory (find_of_isDirectoryAt (hitself hroot)) rfl,
      read_of_directory (find_of_isDirectoryAt (hitself hroot')) rfl]
  obtain ⟨inner, hinner, hup'⟩ := aim_of_append hparts hps hup
  have hplace := place_of_isDirectoryAt hroot habs htaken hinner
  have hplace' := place_of_isDirectoryAt hroot' habs htaken hinner
  have hsame := @enterAll_same d d' _ _ hagree inner ⟨_, hroot.2⟩ ⟨_, hroot'.2⟩ [] rfl rfl hup'
  -- from the directory on both disks have the same answers
  generalize d.enterAll ⟨_, hroot.2⟩ inner = x at hsame hplace
  generalize d'.enterAll ⟨_, hroot'.2⟩ inner = y at hsame hplace'
  cases hsame with
  | failed e => rw [read_of_error (find_of_place_error hplace), read_of_error (find_of_place_error hplace')]
  | arrived names h h' =>
    simp only [Except.bind] at hplace hplace'
    split at hplace
    · next hlong =>
      rw [if_pos hlong] at hplace'
      rw [read_of_error (find_of_place_error hplace), read_of_error (find_of_place_error hplace')]
    · next hlong =>
      rw [if_neg hlong] at hplace'
      refine read_of_places hplace hplace' rfl rfl ?_
      dsimp only [Place.location]
      rw [h, h', ← List.append_assoc, ← List.append_assoc]
      exact hagree _

end

end Scaffold.Disk
