import Scaffold.Output.Target

/-! Line ends. Making them uniform once is not always enough: where two carriage returns stand before a line
    feed, one of them is left and stands before the line feed now. These are the only texts that change when
    their line ends are made uniform again (`unifyNewlines_twice`). -/

namespace Scaffold.Text

/-- Two carriage returns and a line feed, which become another line end. -/
def doubledReturn : List Char := ['\r', '\r', '\n']

theorem unifyNewlines_cons {c : Char} {rest : List Char} (h : ¬(c = '\r' ∧ rest.head? = some '\n')) :
    unifyNewlines (c :: rest) = c :: unifyNewlines rest :=
  unifyNewlines.eq_3 c rest fun tail hc htail => h ⟨hc, by rw [htail, List.head?_cons]⟩

/-- A text begins with a line feed once its line ends are uniform if it began with a line end. -/
theorem head?_unifyNewlines {s : List Char} : (unifyNewlines s).head? = some '\n' ↔
    s.head? = some '\n' ∨ ['\r', '\n'] <+: s := by
  unfold unifyNewlines
  split
  · simp
  · simp
  · rename_i c rest hend
    refine ⟨fun h => Or.inl h, fun h => h.elim id fun hstart => ?_⟩
    obtain ⟨tail, htail⟩ := hstart
    cases htail
    exact absurd rfl (hend _ rfl)

/-- Making line ends uniform again changes the texts in which two carriage returns stand before a line feed. -/
theorem unifyNewlines_twice (s : List Char) :
    unifyNewlines (unifyNewlines s) = unifyNewlines s ↔ ¬doubledReturn <:+: s := by
  induction s using unifyNewlines.induct with
  | case1 => simp [unifyNewlines, doubledReturn]
  | case2 rest ih =>
    have hhere : doubledReturn <:+: '\r' :: '\n' :: rest ↔ doubledReturn <:+: rest := by
      simp [doubledReturn, List.infix_cons_iff]
    rw [unifyNewlines, unifyNewlines_cons (by simp), List.cons.injEq, hhere, ← ih]
    simp
  | case3 c rest hend ih =>
    have hhead : ¬(c = '\r' ∧ rest.head? = some '\n') := fun ⟨hc, hrest⟩ => by
      obtain ⟨tail, rfl⟩ := List.head?_eq_some_iff.mp hrest
      exact hend tail hc rfl
    rw [unifyNewlines_cons hhead, List.infix_cons_iff, not_or, ← ih]
    by_cases hnew : c = '\r' ∧ (unifyNewlines rest).head? = some '\n'
    · -- the carriage return that is left stands before a line feed now
      obtain ⟨rfl, hrest⟩ := hnew
      have hstart := (head?_unifyNewlines.mp hrest).resolve_left fun h => hhead ⟨rfl, h⟩
      obtain ⟨tail, htail⟩ := List.head?_eq_some_iff.mp hrest
      refine iff_of_false ?_ fun h => h.1 (List.cons_prefix_cons.mpr ⟨rfl, hstart⟩)
      rw [htail, unifyNewlines]
      simp
    · rw [unifyNewlines_cons hnew, List.cons.injEq]
      refine ⟨fun h => ⟨fun hstart => hnew ?_, h.2⟩, fun h => ⟨rfl, h.2⟩⟩
      obtain ⟨hc, hrest⟩ := List.cons_prefix_cons.mp hstart
      exact ⟨hc.symm, head?_unifyNewlines.mpr (Or.inr hrest)⟩

/-! ### Bytes -/

theorem decode?_encode (s : String) : decode? (encode s) = some s := by
  unfold decode? encode String.fromUTF8?
  rw [String.toUTF8_eq_toByteArray, dif_pos s.isValidUTF8]
  rfl

theorem decodeRepaired_encode (s : String) : decodeRepaired (encode s) = s := by
  rw [decodeRepaired, decode?_encode]

end Scaffold.Text

namespace Scaffold.Output

/-- What is written of a text stays as it is when its line ends are made uniform again, but for the one exception. -/
theorem uniform_uniform (text : String) :
    uniform (uniform text) = uniform text ↔ ¬Text.doubledReturn <:+: text.toList := by
  rw [← Text.unifyNewlines_twice, uniform, uniform, String.toList_ofList, String.ofList_inj]

end Scaffold.Output
