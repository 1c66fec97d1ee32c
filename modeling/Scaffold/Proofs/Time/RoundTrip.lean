import Scaffold.Proofs.Monad
import Scaffold.Proofs.Text.Digits
import Scaffold.Proofs.Time.Calendar
import Scaffold.Time.Instant

/-! The text of an instant is read back as the instant (`parse?_toText`): each part of it is followed by a mark that
    is no digit, so it is taken as a whole, and the parts give the seconds and nanoseconds again, those of leap seconds
    too. -/

namespace Scaffold.Instant
open Text

/-! ### The parts of the text -/

theorem not_isBlank_of_isDigit {c : Char} (h : c.isDigit = true) : isBlank c = false := by
  have hrange : 48 ≤ c.toNat ∧ c.toNat ≤ 57 := by
    simpa [Char.isDigit, UInt32.le_iff_toNat_le] using h
  unfold isBlank
  simp only [Bool.or_eq_false_iff, Bool.and_eq_false_iff, decide_eq_false_iff_not]
  omega

theorem trimStart_cons {c : Char} (h : isBlank c = false) (rest : List Char) : trimStart (c :: rest) = c :: rest :=
  List.dropWhile_cons_of_neg (by simp [h])

theorem trimStart_digits {ds : List Char} (hdigits : ∀ c ∈ ds, c.isDigit = true) (hne : ds ≠ []) (rest : List Char) :
    trimStart (ds ++ rest) = ds ++ rest := by
  obtain ⟨d, tail, rfl⟩ := List.exists_cons_of_ne_nil hne
  exact trimStart_cons (not_isBlank_of_isDigit (hdigits d (List.mem_cons_self ..))) _

theorem number?_append {most : Nat} {ds : List Char} (hdigits : ∀ c ∈ ds, c.isDigit = true) (hne : ds ≠ [])
    (hlen : ds.length ≤ most) {c : Char} (hc : c.isDigit = false) (rest : List Char) :
    number? most (ds ++ c :: rest) = some (digitsValue ds, c :: rest) := by
  unfold number?
  dsimp only
  rw [trimStart_digits hdigits hne, takeWhile_digits hdigits hc, List.take_of_length_le hlen,
    if_neg (by simpa using hne), List.drop_left]

theorem number?_paddedNumber {width n : Nat} (hwidth : 0 < width) (h : n < 10 ^ width) {c : Char}
    (hc : c.isDigit = false) (rest : List Char) :
    number? width (paddedNumber width n ++ c :: rest) = some (n, c :: rest) := by
  rw [number?_append (fun d hd => isDigit_of_mem_paddedNumber hd) (paddedNumber_ne_nil _ _)
    (Nat.le_of_eq (length_paddedNumber hwidth h)) hc, digitsValue_paddedNumber]

theorem mark?_cons {c : Char} (h : isBlank c = false) (rest : List Char) : mark? c (c :: rest) = some rest := by
  rw [mark?, trimStart_cons h]
  exact if_pos rfl

theorem signed_paddedNumber (width n : Nat) {c : Char} (hc : c.isDigit = false) (rest : List Char) :
    year?.signed (paddedNumber width n ++ c :: rest) = some (n, c :: rest) := by
  have hne := paddedNumber_ne_nil width n
  unfold year?.signed
  rw [span_digits (fun d hd => isDigit_of_mem_paddedNumber hd) hc]
  split
  · rename_i heq
    exact absurd (Prod.mk.inj heq).1 hne
  · rename_i heq
    obtain ⟨rfl, rfl⟩ := Prod.mk.inj heq
    rw [digitsValue_paddedNumber]

theorem year?_yearChars (year : Int) {c : Char} (hc : c.isDigit = false) (rest : List Char) :
    year? (yearChars year ++ c :: rest) = some (year, c :: rest) := by
  unfold yearChars
  split
  · rename_i hrange
    rw [Bool.and_eq_true, decide_eq_true_eq, decide_eq_true_eq] at hrange
    have hdigits : ∀ d ∈ paddedNumber 4 year.toNat, d.isDigit = true := fun d hd => isDigit_of_mem_paddedNumber hd
    have hsmall : year.toNat < 10 ^ 4 := by omega
    have hnumber := number?_paddedNumber (by decide) hsmall hc rest
    unfold year?
    rw [trimStart_digits hdigits (paddedNumber_ne_nil _ _)]
    obtain ⟨d, tail, hlist⟩ := List.exists_cons_of_ne_nil (paddedNumber_ne_nil 4 year.toNat)
    have hd : d.isDigit = true := hdigits d (by simp [hlist])
    rw [hlist] at hnumber ⊢
    split
    · rename_i heq
      obtain ⟨rfl, -⟩ := List.cons.inj heq
      cases hd
    · rename_i heq
      obtain ⟨rfl, -⟩ := List.cons.inj heq
      cases hd
    · rw [hnumber]
      simp only [Option.map_some, Int.toNat_of_nonneg hrange.1]
  · rename_i hrange
    have hread := signed_paddedNumber 4 year.natAbs hc rest
    split
    · rw [List.cons_append, year?, trimStart_cons (by decide)]
      simp only [hread, Option.map_some]
      exact congrArg some (Prod.ext (by dsimp only; omega) rfl)
    · rw [List.cons_append, year?, trimStart_cons (by decide)]
      simp only [hread, Option.map_some]
      exact congrArg some (Prod.ext (by dsimp only; omega) rfl)

theorem fraction?_paddedNumber {width n : Nat} (hpos : 0 < width) (hwidth : width ≤ 9) (h : n < 10 ^ width) {c : Char}
    (hc : c.isDigit = false) (rest : List Char) :
    fraction? ('.' :: paddedNumber width n ++ c :: rest) = some (n * 10 ^ (9 - width), c :: rest) := by
  have hne := paddedNumber_ne_nil width n
  have hlen := length_paddedNumber hpos h
  rw [List.cons_append, fraction?, span_digits (fun d hd => isDigit_of_mem_paddedNumber hd) hc]
  split
  · rename_i heq
    exact absurd (Prod.mk.inj heq).1 hne
  · rename_i heq
    obtain ⟨rfl, rfl⟩ := Prod.mk.inj heq
    dsimp only
    rw [List.take_of_length_le (by omega), hlen, digitsValue_append_zeros, digitsValue_paddedNumber]

theorem fraction?_fractionChars {nanos : Nat} (h : nanos < nanosInSecond) :
    fraction? (fractionChars nanos ++ ['Z']) = some (nanos, ['Z']) := by
  have hlt : nanos < 1000000000 := h
  unfold fractionChars
  split
  · subst nanos
    rfl
  split
  · rw [fraction?_paddedNumber (by decide) (by decide) (by omega) (by decide), show 10 ^ (9 - 3) = 1000000 from rfl,
      Nat.div_mul_cancel (Nat.dvd_of_mod_eq_zero ‹_›)]
  split
  · rw [fraction?_paddedNumber (by decide) (by decide) (by omega) (by decide), show 10 ^ (9 - 6) = 1000 from rfl,
      Nat.div_mul_cancel (Nat.dvd_of_mod_eq_zero ‹_›)]
  · rw [fraction?_paddedNumber (by decide) (by decide) (by omega) (by decide), Nat.pow_zero, Nat.mul_one]

theorem number?_two {n : Nat} (h : n < 100) {c : Char} (hc : c.isDigit = false) (rest : List Char) :
    number? 2 (paddedNumber 2 n ++ c :: rest) = some (n, c :: rest) :=
  number?_paddedNumber (by decide) h hc rest

/-! ### The whole -/

theorem fractionChars_append (nanos : Nat) : ∃ c rest, c.isDigit = false ∧ fractionChars nanos ++ ['Z'] = c :: rest := by
  unfold fractionChars
  split
  · exact ⟨'Z', [], rfl, rfl⟩
  split
  · exact ⟨'.', _, rfl, rfl⟩
  split
  · exact ⟨'.', _, rfl, rfl⟩
  · exact ⟨'.', _, rfl, rfl⟩

theorem day_lt_hundred {date : Day} (h : date.isValid = true) : date.month < 100 ∧ date.day < 100 := by
  have hlength : daysInMonth date.year date.month ≤ 31 := by
    unfold daysInMonth
    split
    · split <;> omega
    · split <;> omega
  simp only [Day.isValid, Bool.and_eq_true, decide_eq_true_eq] at h
  omega

theorem parse?_parts {text : String} {date : Day} {hour minute second nanos : Nat} (hhour : hour < 24)
    (hminute : minute < 60) (hsecond : second ≤ 60) (hnanos : nanos < nanosInSecond) (hvalid : date.isValid = true)
    (hrange : inRange date.year = true)
    (htext : text.toList = yearChars date.year ++ '-' :: (paddedNumber 2 date.month ++ '-' :: (paddedNumber 2 date.day ++
      'T' :: (paddedNumber 2 hour ++ ':' :: (paddedNumber 2 minute ++ ':' :: (paddedNumber 2 second ++
        (fractionChars nanos ++ ['Z']))))))) :
    parse? text = ofParts? (date.number * secondsInDay + hour * 3600 + minute * 60 + (min second 59 : Nat))
      (if second = 60 then nanosInSecond + nanos else nanos) := by
  obtain ⟨hmonth, hday⟩ := day_lt_hundred hvalid
  obtain ⟨c, rest, hc, hend⟩ := fractionChars_append nanos
  have hfraction : fraction? (c :: rest) = some (nanos, ['Z']) := hend ▸ fraction?_fractionChars hnanos
  have hzulu : offset? (trimStart ['Z']) = some (0, []) := rfl
  have hoffset : (0 : Int).natAbs < secondsInDay := by decide
  unfold parse?
  rw [htext, hend]
  refine (bind_of_some (year?_yearChars date.year (by decide) _)).trans ?_
  refine (bind_of_some (mark?_cons (by decide) _)).trans ?_
  refine (bind_of_some (number?_two hmonth (by decide) _)).trans ?_
  refine (bind_of_some (mark?_cons (by decide) _)).trans ?_
  refine (bind_of_some (number?_two hday (by decide) _)).trans ?_
  refine (bind_of_some rfl).trans ?_
  refine (bind_of_some (number?_two (by omega) (by decide) _)).trans ?_
  refine (bind_of_some (mark?_cons (by decide) _)).trans ?_
  refine (bind_of_some (number?_two (by omega) (by decide) _)).trans ?_
  refine (bind_of_some (mark?_cons (by decide) _)).trans ?_
  refine (bind_of_some (number?_two (by omega) hc _)).trans ?_
  refine (bind_of_some hfraction).trans ?_
  refine (bind_of_some hzulu).trans ?_
  simp only [hvalid, hrange, hhour, hminute, hsecond, hoffset, trimStart, List.dropWhile_nil, List.isEmpty_nil,
    decide_true, Bool.and_self, reduceIte, Int.sub_zero]

theorem parse?_toText (t : Instant) : parse? t.toText = some t := by
  obtain ⟨date, hdate⟩ : ∃ date, Day.ofNumber (t.seconds / secondsInDay) = date := ⟨_, rfl⟩
  obtain ⟨ofDay, hofDay⟩ : ∃ ofDay, (t.seconds % secondsInDay).toNat = ofDay := ⟨_, rfl⟩
  obtain ⟨second, hsecond⟩ : ∃ second, ofDay % 60 + t.nanos / nanosInSecond = second := ⟨_, rfl⟩
  have hvalid : date.isValid = true := hdate ▸ Day.isValid_ofNumber _
  have hnumber : date.number = t.seconds / secondsInDay := hdate ▸ Day.number_ofNumber _
  have hrange : inRange date.year = true := hdate ▸ t.yearInRange
  have hdays : t.seconds = t.seconds / secondsInDay * secondsInDay + ofDay ∧ ofDay < 86400 := by
    unfold secondsInDay at *
    omega
  -- a leap second is written as the one after the last of its minute
  have hleap : (second ≤ 59 ∧ second = ofDay % 60 ∧ t.nanos < nanosInSecond) ∨
      (second = 60 ∧ ofDay % 60 = 59 ∧ nanosInSecond ≤ t.nanos ∧ t.nanos < 2 * nanosInSecond) := by
    have hwithin := t.withinSecond
    unfold secondsInDay nanosInSecond at *
    omega
  have hseconds : date.number * secondsInDay + (ofDay / 3600 : Nat) * 3600 + (ofDay / 60 % 60 : Nat) * 60 +
      (min second 59 : Nat) = t.seconds := by
    rw [hnumber]
    omega
  have hnanos : (if second = 60 then nanosInSecond + t.nanos % nanosInSecond else t.nanos % nanosInSecond) = t.nanos := by
    unfold nanosInSecond at *
    split <;> omega
  have htext : t.toText.toList = yearChars date.year ++ '-' :: (paddedNumber 2 date.month ++ '-' ::
      (paddedNumber 2 date.day ++ 'T' :: (paddedNumber 2 (ofDay / 3600) ++ ':' :: (paddedNumber 2 (ofDay / 60 % 60) ++
        ':' :: (paddedNumber 2 second ++ (fractionChars (t.nanos % nanosInSecond) ++ ['Z'])))))) := by
    rw [← hsecond, ← hofDay, ← hdate, toText, String.toList_ofList]
    simp only [List.append_assoc, List.cons_append]
  rw [parse?_parts (by omega) (by omega) (by omega) (Nat.mod_lt _ (by decide)) hvalid hrange htext, hseconds, hnanos]
  exact dif_pos ⟨t.yearInRange, t.withinSecond⟩

end Scaffold.Instant
