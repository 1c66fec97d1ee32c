import Scaffold.Diff.Unified
import Scaffold.Proofs.Text.Digits
import Scaffold.Proofs.Text.Split

/-! Patches, as a reader takes them. A hunk says in its header where its lines stand in both texts and how many they are;
    after it come the lines, each behind a sign, and a mark behind one that is not ended. The hunks are applied to the
    lines of a text one after another and only if everything in them is right. -/

namespace Scaffold.Diff

/-- The texts that a line of a hunk belongs to. -/
inductive Sign where
  | both
  | old
  | new
  deriving DecidableEq, Repr

/-- How a sign is written. -/
def Sign.toChar : Sign → Char
  | both => ' '
  | old => '-'
  | new => '+'

/-- A sign from how it is written. -/
def Sign.ofChar? : Char → Option Sign
  | ' ' => some both
  | '-' => some old
  | '+' => some new
  | _ => none

/-- Lines next to each other: how many stand before them, and how many they are. -/
@[ext]
structure Range where
  first : Nat
  size : Nat
  deriving DecidableEq, Repr

/-- The lines of a patch that stand next to each other, with the places that its header gives. -/
@[ext]
structure Hunk where
  old : Range
  new : Range
  lines : List (Sign × List Char)
  deriving DecidableEq, Repr

/-- The lines that belong to the old text. -/
def oldSide (lines : List (Sign × List Char)) : List (List Char) := (lines.filter (·.1 ≠ .new)).map Prod.snd

/-- The lines that belong to the new text. -/
def newSide (lines : List (Sign × List Char)) : List (List Char) := (lines.filter (·.1 ≠ .old)).map Prod.snd

/-! ### Reading -/

/-- A number in front. -/
def number? (s : List Char) : Option (Nat × List Char) :=
  match s.span Char.isDigit with
  | ([], _) => none
  | (digits, rest) => some (Text.digitsValue digits, rest)

/-- A range in front: the first line, counted from 1, and the number of lines unless it is 1. Where there are no lines the
    line before stands for the first one. -/
def range? (s : List Char) : Option (Range × List Char) :=
  (number? s).bind fun (start, rest) =>
    let size? := match rest with
      | ',' :: rest => number? rest
      | _ => some (1, rest)
    size?.bind fun (size, rest) =>
      if size = 0 then some (⟨start, 0⟩, rest)
      else if start = 0 then none
      else some (⟨start - 1, size⟩, rest)

/-- The ranges in the header of a hunk. -/
def header? (line : List Char) : Option (Range × Range) :=
  (Text.dropStart? ['@', '@', ' ', '-'] line).bind fun rest =>
    (range? rest).bind fun (old, rest) =>
      (Text.dropStart? [' ', '+'] rest).bind fun rest =>
        (range? rest).bind fun (new, rest) =>
          if rest = [' ', '@', '@', '\n'] then some (old, new) else none

/-- What has been read of a patch, from its end: whether a mark stands there, lines without their header, and hunks. -/
structure Reading where
  marked : Bool
  lines : List (Sign × List Char)
  hunks : List Hunk
  deriving DecidableEq, Repr

/-- Reads the line before. A mark says that the line before it is not ended. -/
def readLine (line : List Char) (r : Reading) : Option Reading :=
  match line with
  | [] => none
  | '@' :: _ =>
    if r.marked then none
    else (header? line).map fun (old, new) => ⟨false, [], ⟨old, new, r.lines⟩ :: r.hunks⟩
  | '\\' :: _ =>
    if r.marked || '\n' :: line ≠ noNewlineMark then none else some { r with marked := true }
  | c :: line =>
    (Sign.ofChar? c).map fun sign => ⟨false, (sign, if r.marked then line.dropLast else line) :: r.lines, r.hunks⟩

/-- Reads lines, the last one first. -/
def readLines : List (List Char) → Option Reading
  | [] => some ⟨false, [], []⟩
  | line :: rest => (readLines rest).bind (readLine line)

/-- The hunks of a patch. -/
def readHunks? (s : List Char) : Option (List Hunk) :=
  (readLines (Text.linesWithEnds s)).bind fun r => if r.marked || r.lines ≠ [] then none else some r.hunks

/-- The hunks of a patch of a file, which begins with the names of both texts. -/
def readPatch? (oldName newName patch : String) : Option (List Hunk) :=
  (Text.dropStart? ("--- " ++ oldName ++ "\n+++ " ++ newName ++ "\n").toList patch.toList).bind readHunks?

/-! ### Applying -/

/-- The header counts the lines. -/
def Hunk.Counts (h : Hunk) : Prop := h.old.size = (oldSide h.lines).length ∧ h.new.size = (newSide h.lines).length

instance (h : Hunk) : Decidable h.Counts := inferInstanceAs (Decidable (_ ∧ _))

/-- Applies hunks to the lines of a text from `i` on, which become those of the new text from `j` on. A hunk must say
    where it is in both texts and count its lines, and its old lines must stand there. -/
def applyFrom (i j : Nat) : List Hunk → List (List Char) → Option (List (List Char))
  | [], lines => some lines
  | h :: hunks, lines =>
    let n := h.old.first - i
    if i ≤ h.old.first ∧ n ≤ lines.length ∧ h.new.first = j + n ∧ h.Counts then
      (Text.dropStart? (oldSide h.lines) (lines.drop n)).bind fun rest =>
        (applyFrom (h.old.first + h.old.size) (h.new.first + h.new.size) hunks rest).map
          (lines.take n ++ newSide h.lines ++ ·)
    else none

/-- Applies hunks to the lines of a text. -/
def applyHunks? (hunks : List Hunk) (lines : List (List Char)) : Option (List (List Char)) := applyFrom 0 0 hunks lines

/-- Applies hunks to a text. -/
def applied? (hunks : List Hunk) (text : String) : Option String :=
  (applyHunks? hunks (Text.linesWithEnds text.toList)).map fun lines => String.ofList lines.flatten

/-- What can be seen from hunks alone: each header counts the lines, and as no lines are added or dropped before the first
    hunk, it is at one place in both texts. -/
def Consistent (hunks : List Hunk) : Prop :=
  (∀ h ∈ hunks, h.Counts) ∧ ∀ h ∈ hunks.head?, h.old.first = h.new.first

instance (hunks : List Hunk) : Decidable (Consistent hunks) := inferInstanceAs (Decidable (_ ∧ _))

/-! ### What is written is read -/

section
variable {r : Range} {c : Char} {rest : List Char}

theorem number?_toDigits (n : Nat) (hc : c.isDigit = false) :
    number? (Nat.toDigits 10 n ++ c :: rest) = some (n, c :: rest) := by
  have hdigits : ∀ d ∈ Nat.toDigits 10 n, d.isDigit = true := fun d => Nat.isDigit_of_mem_toDigits (by decide) (by decide)
  have hvalue : Text.digitsValue (Nat.toDigits 10 n) = n := by
    rw [Text.digitsValue_eq_ofDigitChars, Nat.ofDigitChars_toDigits (by decide) (by decide)]
  rw [number?, Text.span_digits hdigits hc]
  split
  · next heq => exact absurd (congrArg Prod.fst heq) Nat.toDigits_ne_nil
  · next heq =>
    cases heq
    rw [hvalue]

/-- How a range is written. -/
def Range.chars (r : Range) : List Char := rangeChars r.first (r.first + r.size)

theorem rangeChars_eq (first last : Nat) : rangeChars first last = Range.chars ⟨first, last - first⟩ := by
  rw [Range.chars, rangeChars, rangeChars, Nat.add_sub_cancel_left]

theorem range?_chars (hc : c.isDigit = false) (hcomma : c ≠ ',') :
    range? (r.chars ++ c :: rest) = some (r, c :: rest) := by
  obtain ⟨first, size⟩ := r
  have hsize : first + size - first = size := Nat.add_sub_cancel_left ..
  rw [range?, Range.chars, rangeChars, hsize]
  by_cases hone : size = 1
  · subst hone
    rw [if_pos rfl, number?_toDigits _ hc]
    simp [hcomma]
  · rw [if_neg hone, List.append_assoc, List.cons_append, number?_toDigits _ (by decide)]
    simp only [Option.bind_some, number?_toDigits _ hc]
    by_cases hzero : size = 0 <;> simp [hzero]

/-- How a header is written, up to its end. -/
def headerFront (old new : Range) : List Char :=
  ['@', '@', ' ', '-'] ++ old.chars ++ [' ', '+'] ++ new.chars ++ [' ', '@', '@']

/-- How a header is written. -/
def headerOf (old new : Range) : List Char := headerFront old new ++ ['\n']

theorem header?_headerOf (old new : Range) : header? (headerOf old new) = some (old, new) := by
  rw [header?, headerOf, headerFront]
  simp only [List.append_assoc, Text.dropStart?_append, Option.bind_some]
  rw [List.cons_append, range?_chars (by decide) (by decide)]
  simp only [Option.bind_some, ← List.cons_append, Text.dropStart?_append]
  rw [List.cons_append, range?_chars (by decide) (by decide)]
  simp

theorem Range.unbroken_chars (r : Range) : Text.Unbroken r.chars := by
  have hdigits : ∀ n, Text.Unbroken (Nat.toDigits 10 n) := fun n c hc => by
    have hdigit := Nat.isDigit_of_mem_toDigits (by decide) (by decide) hc
    constructor <;> rintro rfl <;> cases hdigit
  rw [chars, rangeChars]
  split
  · exact hdigits _
  · exact (hdigits _).append (List.forall_mem_cons.mpr ⟨by decide, hdigits _⟩)

theorem unbroken_headerFront (old new : Range) : Text.Unbroken (headerFront old new) := by
  have hold : Text.Unbroken (['@', '@', ' ', '-'] ++ old.chars) := .append (by decide) old.unbroken_chars
  have hnew : Text.Unbroken ([' ', '+'] ++ new.chars) := .append (by decide) new.unbroken_chars
  rw [headerFront, List.append_assoc _ [' ', '+']]
  exact (hold.append hnew).append (by decide)

/-- How a hunk is written. -/
def Hunk.chars (h : Hunk) : List Char :=
  headerOf h.old h.new ++ h.lines.flatMap fun (sign, line) => signedLine sign.toChar line

/-- The text is read from its first line on. -/
def Reads (s : List Char) (r : Reading) : Prop := s.head? ≠ some '\n' ∧ readLines (Text.linesWithEnds s) = some r

variable {lines : List (Sign × List Char)} {hunks : List Hunk}

theorem reads_line {s mark : List Char} {r r' : Reading} (h : Text.Unbroken s) (hmark : mark ∈ Text.lineEnds)
    (hne : s ≠ []) (hrest : Reads rest r) (hline : readLine (s ++ mark) r = some r') : Reads (s ++ mark ++ rest) r' := by
  obtain ⟨c, s, rfl⟩ := List.exists_cons_of_ne_nil hne
  have hc := (h c List.mem_cons_self).1
  refine ⟨fun hfirst => hc (Option.some.inj hfirst), ?_⟩
  rw [Text.linesWithEnds_append h hmark hrest.1, readLines, hrest.2]
  exact hline

theorem readLine_sign (sign : Sign) (line : List Char) (r : Reading) : readLine (sign.toChar :: line) r =
    some ⟨false, (sign, if r.marked then line.dropLast else line) :: r.lines, r.hunks⟩ := by
  cases sign <;> rfl

theorem unbroken_sign (sign : Sign) {s : List Char} (h : Text.Unbroken s) : Text.Unbroken (sign.toChar :: s) :=
  List.forall_mem_cons.mpr ⟨by cases sign <;> decide, h⟩

theorem reads_signedLine (sign : Sign) {line : List Char} (hline : Text.IsLine line)
    (hrest : Reads rest ⟨false, lines, hunks⟩) :
    Reads (signedLine sign.toChar line ++ rest) ⟨false, (sign, line) :: lines, hunks⟩ := by
  cases hline with
  | @ended s mark h hmark =>
    have hsigned : signedLine sign.toChar (s ++ mark) = sign.toChar :: s ++ mark := by
      simp only [Text.lineEnds, List.mem_cons, List.not_mem_nil, or_false] at hmark
      rcases hmark with rfl | rfl | rfl <;> simp [signedLine]
    rw [hsigned]
    exact reads_line (unbroken_sign sign h) hmark (List.cons_ne_nil _ _) hrest (readLine_sign sign _ _)
  | last h hne =>
    have hmark : noNewlineMark = ['\n'] ++ ("\\ No newline at end of file".toList ++ ['\n']) := by decide
    have hsigned : signedLine sign.toChar line = sign.toChar :: line ++ noNewlineMark := by
      obtain ⟨c, hc⟩ := Option.ne_none_iff_exists'.mp (mt List.getLast?_eq_none_iff.mp hne)
      have hbreak := h c (List.mem_of_getLast? hc)
      rw [signedLine, hc]
      split
      · next heq => exact absurd (Option.some.inj heq) hbreak.1
      · next heq => exact absurd (Option.some.inj heq) hbreak.2
      · rfl
    -- the mark is a line of its own, and read before the line that it is about
    have hmarked : Reads ("\\ No newline at end of file".toList ++ ['\n'] ++ rest) ⟨true, lines, hunks⟩ :=
      reads_line (by decide) (by decide) (by decide) hrest (by rfl)
    rw [hsigned, hmark, ← List.append_assoc, List.append_assoc _ _ rest]
    refine reads_line (unbroken_sign sign h) (by decide) (List.cons_ne_nil _ _) hmarked ?_
    rw [List.cons_append, readLine_sign]
    simp

theorem reads_lines (hlines : ∀ x ∈ lines, Text.IsLine x.2) (hrest : Reads rest ⟨false, [], hunks⟩) :
    Reads (lines.flatMap (fun (sign, line) => signedLine sign.toChar line) ++ rest) ⟨false, lines, hunks⟩ := by
  induction lines with
  | nil => exact hrest
  | cons x lines ih =>
    obtain ⟨hx, hlater⟩ := List.forall_mem_cons.mp hlines
    rw [List.flatMap_cons, List.append_assoc]
    exact reads_signedLine x.1 hx (ih hlater)

theorem reads_hunks (hlines : ∀ h ∈ hunks, ∀ x ∈ h.lines, Text.IsLine x.2) :
    Reads (hunks.flatMap Hunk.chars) ⟨false, [], hunks⟩ := by
  induction hunks with
  | nil => exact ⟨nofun, rfl⟩
  | cons h hunks ih =>
    obtain ⟨hfirst, hlater⟩ := List.forall_mem_cons.mp hlines
    have hbody := reads_lines hfirst (ih hlater)
    have hread : readLine (headerOf h.old h.new) ⟨false, h.lines, hunks⟩ = some ⟨false, [], h :: hunks⟩ := by
      change (header? (headerOf h.old h.new)).map _ = _
      rw [header?_headerOf]
      rfl
    rw [List.flatMap_cons, Hunk.chars, List.append_assoc]
    exact reads_line (unbroken_headerFront _ _) (by decide) (List.cons_ne_nil _ _) hbody hread

theorem readHunks?_chars (hlines : ∀ h ∈ hunks, ∀ x ∈ h.lines, Text.IsLine x.2) :
    readHunks? (hunks.flatMap Hunk.chars) = some hunks := by
  rw [readHunks?, (reads_hunks hlines).2]
  rfl

end

/-! ### What is applied -/

section
variable {i j n : Nat} {h : Hunk} {hunks : List Hunk} {lines result before after : List (List Char)}

theorem applyFrom_cons (hold : h.old.first = i + before.length) (hnew : h.new.first = j + before.length)
    (hcounts : h.Counts) : applyFrom i j (h :: hunks) (before ++ (oldSide h.lines ++ after)) =
      (applyFrom (h.old.first + h.old.size) (h.new.first + h.new.size) hunks after).map
        (before ++ newSide h.lines ++ ·) := by
  have hgap : h.old.first - i = before.length := by omega
  rw [applyFrom, hgap, if_pos ⟨by omega, by simp, hnew, hcounts⟩, List.drop_left, List.take_left,
    Text.dropStart?_append]
  rfl

/-- What a hunk that is applied has been checked for. -/
theorem applyFrom_cons_eq_some (happly : applyFrom i j (h :: hunks) lines = some result) :
    h.Counts ∧ h.old.first + j = h.new.first + i ∧
      ∃ rest later, applyFrom (h.old.first + h.old.size) (h.new.first + h.new.size) hunks rest = some later := by
  rw [applyFrom] at happly
  split at happly
  · next hright =>
    obtain ⟨hle, -, hnew, hcounts⟩ := hright
    obtain ⟨rest, -, happly⟩ := Option.bind_eq_some_iff.mp happly
    obtain ⟨later, hlater, -⟩ := Option.map_eq_some_iff.mp happly
    exact ⟨hcounts, by omega, rest, later, hlater⟩
  · cases happly

theorem counts_of_applyFrom (happly : applyFrom i j hunks lines = some result) : ∀ h ∈ hunks, h.Counts := by
  induction hunks generalizing i j lines result with
  | nil => exact nofun
  | cons h hunks ih =>
    obtain ⟨hcounts, -, rest, later, hrest⟩ := applyFrom_cons_eq_some happly
    exact List.forall_mem_cons.mpr ⟨hcounts, ih hrest⟩

theorem consistent_of_applyHunks? (happly : applyHunks? hunks lines = some result) : Consistent hunks := by
  refine ⟨counts_of_applyFrom happly, fun h hfirst => ?_⟩
  obtain ⟨later, rfl⟩ := List.head?_eq_some_iff.mp hfirst
  exact (applyFrom_cons_eq_some happly).2.1

end

end Scaffold.Diff
