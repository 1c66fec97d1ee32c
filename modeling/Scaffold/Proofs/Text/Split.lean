import Mathlib.Data.List.TakeDrop
import Mathlib.Data.List.TakeWhile
import Scaffold.Text.Split

/-! Cutting a text at a separator is undone by joining, and cutting two texts that are put together is
    cutting each of them: what stands on the two sides of a separator does not mix. So only the pieces and their separator
    are in what is joined, and cutting a few times leaves the rest in one piece. Lines that keep their ends are the text
    when they are put together, and a line that is ended does not mix with what follows. -/

namespace Scaffold.Text

variable {sep : Char}

theorem splitOn_ne_nil (sep : Char) (s : List Char) : splitOn sep s ≠ [] := by
  cases s with
  | nil => simp [splitOn]
  | cons c rest =>
    simp only [splitOn]
    split
    · simp
    · split <;> simp

theorem splitOn_cons_of_ne {c : Char} {s : List Char} (hc : c ≠ sep) {first : List Char} {others : List (List Char)}
    (h : splitOn sep s = first :: others) : splitOn sep (c :: s) = (c :: first) :: others := by
  simp only [splitOn, hc, ite_false, h]

theorem splitOn_of_notMem : ∀ {s : List Char}, sep ∉ s → splitOn sep s = [s]
  | [], _ => rfl
  | c :: rest, h => by
    obtain ⟨hc, hrest⟩ := not_or.mp (fun hmem => h (List.mem_cons.mpr hmem))
    exact splitOn_cons_of_ne (fun heq => hc heq.symm) (splitOn_of_notMem hrest)

theorem splitOn_append_cons (sep : Char) (t : List Char) :
    ∀ s : List Char, splitOn sep (s ++ sep :: t) = splitOn sep s ++ splitOn sep t
  | [] => by simp [splitOn]
  | c :: rest => by
    have ih := splitOn_append_cons sep t rest
    by_cases hc : c = sep
    · simp [splitOn, hc, ih]
    · obtain ⟨first, others, hrest⟩ := List.exists_cons_of_ne_nil (splitOn_ne_nil sep rest)
      rw [hrest, List.cons_append] at ih
      rw [List.cons_append, splitOn_cons_of_ne hc ih, splitOn_cons_of_ne hc hrest, List.cons_append]

theorem notMem_of_mem_splitOn : ∀ {s piece : List Char}, piece ∈ splitOn sep s → sep ∉ piece
  | [], piece, h => by
    obtain rfl : piece = [] := by simpa [splitOn] using h
    simp
  | c :: rest, piece, h => by
    by_cases hc : c = sep
    · have hcut : splitOn sep (c :: rest) = [] :: splitOn sep rest := by simp [splitOn, hc]
      rw [hcut] at h
      rcases List.mem_cons.mp h with rfl | h
      · simp
      · exact notMem_of_mem_splitOn h
    · obtain ⟨first, others, hrest⟩ := List.exists_cons_of_ne_nil (splitOn_ne_nil sep rest)
      rw [splitOn_cons_of_ne hc hrest] at h
      have hfree : ∀ q ∈ first :: others, sep ∉ q := fun q hq => notMem_of_mem_splitOn (hrest ▸ hq)
      rcases List.mem_cons.mp h with rfl | h
      · intro hmem
        rcases List.mem_cons.mp hmem with heq | hmem
        · exact hc heq.symm
        · exact hfree first (List.mem_cons_self ..) hmem
      · exact hfree piece (List.mem_cons_of_mem _ h)

theorem exists_mem_splitOn_iff {c : Char} (hc : c ≠ sep) : ∀ {s : List Char},
    (∃ piece ∈ splitOn sep s, c ∈ piece) ↔ c ∈ s
  | [] => by simp [splitOn]
  | d :: rest => by
    have ih := exists_mem_splitOn_iff hc (s := rest)
    by_cases hd : d = sep
    · have hcut : splitOn sep (d :: rest) = [] :: splitOn sep rest := by simp [splitOn, hd]
      have hne : c ≠ d := hd ▸ hc
      simpa [hcut, hne] using ih
    · obtain ⟨first, others, hrest⟩ := List.exists_cons_of_ne_nil (splitOn_ne_nil sep rest)
      rw [hrest] at ih
      rw [splitOn_cons_of_ne hd hrest, List.mem_cons, ← ih]
      simp [or_assoc]

theorem joinWith_cons (sep piece : List Char) : ∀ pieces : List (List Char),
    joinWith sep (piece :: pieces) = piece ++ pieces.flatMap (sep ++ ·)
  | [] => (List.append_nil piece).symm
  | next :: pieces => by
    rw [joinWith, joinWith_cons sep next pieces, List.flatMap_cons, List.append_assoc, List.append_assoc]
    simp

theorem splitOn_joinWith : ∀ {pieces : List (List Char)}, pieces ≠ [] → (∀ p ∈ pieces, sep ∉ p) →
    splitOn sep (joinWith [sep] pieces) = pieces
  | [], h, _ => absurd rfl h
  | [p], _, hp => splitOn_of_notMem (hp p (List.mem_singleton_self p))
  | p :: q :: rest, _, hp => by
    have hfirst := splitOn_of_notMem (hp p (List.mem_cons_self ..))
    have ih : splitOn sep (joinWith [sep] (q :: rest)) = q :: rest :=
      splitOn_joinWith (by simp) fun r hr => hp r (List.mem_cons_of_mem _ hr)
    simp only [joinWith, List.append_assoc, List.singleton_append]
    rw [splitOn_append_cons, hfirst, ih, List.singleton_append]

theorem mem_joinWith {c : Char} : ∀ {pieces : List (List Char)}, c ∈ joinWith [sep] pieces →
    c = sep ∨ ∃ piece ∈ pieces, c ∈ piece
  | piece :: pieces, h => by
    rw [joinWith_cons, List.mem_append, List.mem_flatMap] at h
    rcases h with h | ⟨next, hnext, h⟩
    · exact .inr ⟨piece, List.mem_cons_self, h⟩
    · rcases List.mem_cons.mp h with rfl | h
      · exact .inl rfl
      · exact .inr ⟨next, List.mem_cons_of_mem _ hnext, h⟩

theorem mem_joinWith_of_mem {sep piece : List Char} {pieces : List (List Char)} (hpiece : piece ∈ pieces) {c : Char}
    (hc : c ∈ piece) : c ∈ joinWith sep pieces := by
  obtain ⟨first, others, rfl⟩ := List.exists_cons_of_ne_nil (List.ne_nil_of_mem hpiece)
  rw [joinWith_cons]
  rcases List.mem_cons.mp hpiece with rfl | hpiece
  · exact List.mem_append_left _ hc
  · exact List.mem_append_right _ (List.mem_flatMap.mpr ⟨piece, hpiece, List.mem_append_right _ hc⟩)

theorem intercalate_eq_joinWith (sep : List Char) : ∀ pieces : List (List Char), sep.intercalate pieces = joinWith sep pieces
  | [] => rfl
  | [piece] => by simp [joinWith]
  | piece :: next :: pieces => by
    rw [List.intercalate_cons_cons, intercalate_eq_joinWith sep (next :: pieces)]
    rfl

theorem splitAtMost_of_notMem {s : List Char} (h : sep ∉ s) (n : Nat) : splitAtMost sep n s = [s] := by
  have hfree : ∀ c ∈ s, decide (c ≠ sep) = true := fun c hc =>
    decide_eq_true (ne_of_mem_of_not_mem hc h)
  cases n with
  | zero => rfl
  | succ n =>
    rw [splitAtMost, List.span_eq_takeWhile_dropWhile, List.takeWhile_eq_self_iff.mpr hfree,
      List.dropWhile_eq_nil_iff.mpr hfree]

theorem splitAtMost_append {piece : List Char} (h : sep ∉ piece) (n : Nat) (rest : List Char) :
    splitAtMost sep (n + 1) (piece ++ sep :: rest) = piece :: splitAtMost sep n rest := by
  have hfree : ∀ c ∈ piece, decide (c ≠ sep) = true := fun c hc =>
    decide_eq_true (ne_of_mem_of_not_mem hc h)
  rw [splitAtMost, List.span_eq_takeWhile_dropWhile, List.takeWhile_append_of_pos hfree, List.dropWhile_append_of_pos hfree]
  simp

theorem joinWith_splitOn (sep : Char) : ∀ s : List Char, joinWith [sep] (splitOn sep s) = s
  | [] => rfl
  | c :: rest => by
    have ih := joinWith_splitOn sep rest
    obtain ⟨first, others, hrest⟩ := List.exists_cons_of_ne_nil (splitOn_ne_nil sep rest)
    rw [hrest] at ih
    by_cases hc : c = sep
    · simp [splitOn, hc, hrest, joinWith, ih]
    · rw [splitOn_cons_of_ne hc hrest]
      cases others <;> simp_all [joinWith]

theorem dropStart?_eq_some {α : Type} [DecidableEq α] :
    ∀ {front s rest : List α}, dropStart? front s = some rest → s = front ++ rest
  | [], s, rest, h => by simpa [dropStart?] using h
  | _ :: _, [], _, h => by simp [dropStart?] at h
  | p :: ps, c :: cs, rest, h => by
    simp only [dropStart?] at h
    split at h
    · rename_i heq
      rw [dropStart?_eq_some h, heq, List.cons_append]
    · simp at h

theorem dropStart?_append {α : Type} [DecidableEq α] :
    ∀ front rest : List α, dropStart? front (front ++ rest) = some rest
  | [], _ => rfl
  | p :: ps, rest => by simp [dropStart?, dropStart?_append ps rest]

/-! ### Lines with their ends -/

/-- The ends that a line can have. -/
def lineEnds : List (List Char) := [['\n'], ['\r'], ['\r', '\n']]

/-- No line ends in the text. -/
def Unbroken (s : List Char) : Prop := ∀ c ∈ s, c ≠ '\n' ∧ c ≠ '\r'

instance (s : List Char) : Decidable (Unbroken s) := List.decidableBAll _ s

theorem Unbroken.append {s t : List Char} (hs : Unbroken s) (ht : Unbroken t) : Unbroken (s ++ t) :=
  List.forall_mem_append.mpr ⟨hs, ht⟩

/-- One line, with its end or, as the last one of a text may be, without. -/
inductive IsLine : List Char → Prop
  | ended {s mark : List Char} (h : Unbroken s) (hmark : mark ∈ lineEnds) : IsLine (s ++ mark)
  | last {s : List Char} (h : Unbroken s) (hne : s ≠ []) : IsLine s

theorem isLine_of_mem_lineEnds {mark : List Char} (h : mark ∈ lineEnds) : IsLine mark :=
  List.nil_append mark ▸ .ended (fun _ hc => nomatch hc) h

theorem IsLine.cons {c : Char} {line : List Char} (hc : c ≠ '\n' ∧ c ≠ '\r') (h : IsLine line) : IsLine (c :: line) := by
  cases h with
  | ended h hmark => exact .ended (List.forall_mem_cons.mpr ⟨hc, h⟩) hmark
  | last h _ => exact .last (List.forall_mem_cons.mpr ⟨hc, h⟩) (List.cons_ne_nil _ _)

theorem linesWithEnds_cons {c : Char} (hc : ¬(decide (c = '\n') || decide (c = '\r')) = true) {s line : List Char}
    {lines : List (List Char)} (h : linesWithEnds s = line :: lines) : linesWithEnds (c :: s) = (c :: line) :: lines := by
  rw [linesWithEnds, if_neg hc, h]
  rintro _ rfl
  exact absurd rfl hc

theorem linesWithEnds_mark {mark : List Char} (hmark : mark ∈ lineEnds) {rest : List Char}
    (hrest : rest.head? ≠ some '\n') : linesWithEnds (mark ++ rest) = mark :: linesWithEnds rest := by
  simp only [lineEnds, List.mem_cons, List.not_mem_nil, or_false] at hmark
  rcases hmark with rfl | rfl | rfl
  · rfl
  · rw [List.singleton_append, linesWithEnds]
    · rfl
    · rintro tail - rfl
      exact hrest rfl
  · rfl

theorem linesWithEnds_append {s mark rest : List Char} (h : Unbroken s) (hmark : mark ∈ lineEnds)
    (hrest : rest.head? ≠ some '\n') : linesWithEnds (s ++ mark ++ rest) = (s ++ mark) :: linesWithEnds rest := by
  induction s with
  | nil => exact linesWithEnds_mark hmark hrest
  | cons c s ih =>
    obtain ⟨hc, hs⟩ := List.forall_mem_cons.mp h
    exact linesWithEnds_cons (by simpa using hc) (ih hs)

theorem flatten_linesWithEnds (s : List Char) : (linesWithEnds s).flatten = s := by
  induction s using linesWithEnds.induct with
  | case1 => rfl
  | case2 rest ih => exact congrArg (['\r', '\n'] ++ ·) ih
  | case3 c rest hend hc ih =>
    rw [linesWithEnds.eq_3 c rest hend, if_pos hc]
    exact congrArg (c :: ·) ih
  | case4 c rest hend hc hrest ih =>
    rw [linesWithEnds.eq_3 c rest hend, if_neg hc, hrest]
    exact congrArg (c :: ·) (hrest ▸ ih)
  | case5 c rest hend hc line lines hrest ih =>
    rw [hrest] at ih
    rw [linesWithEnds_cons hc hrest]
    exact congrArg (c :: ·) ih

theorem isLine_of_mem {s : List Char} : ∀ line ∈ linesWithEnds s, IsLine line := by
  induction s using linesWithEnds.induct with
  | case1 => exact nofun
  | case2 rest ih => exact List.forall_mem_cons.mpr ⟨isLine_of_mem_lineEnds (by decide), ih⟩
  | case3 c rest hend hc ih =>
    have hmark : [c] ∈ lineEnds := by simpa [lineEnds] using hc
    rw [linesWithEnds.eq_3 c rest hend, if_pos hc]
    exact List.forall_mem_cons.mpr ⟨isLine_of_mem_lineEnds hmark, ih⟩
  | case4 c rest hend hc hrest ih =>
    have hfree : Unbroken [c] := List.forall_mem_singleton.mpr (by simpa using hc)
    rw [linesWithEnds.eq_3 c rest hend, if_neg hc, hrest]
    exact List.forall_mem_singleton.mpr (.last hfree (List.cons_ne_nil _ _))
  | case5 c rest hend hc line lines hrest ih =>
    rw [hrest] at ih
    obtain ⟨hline, hlines⟩ := List.forall_mem_cons.mp ih
    rw [linesWithEnds_cons hc hrest]
    exact List.forall_mem_cons.mpr ⟨hline.cons (by simpa using hc), hlines⟩

end Scaffold.Text
