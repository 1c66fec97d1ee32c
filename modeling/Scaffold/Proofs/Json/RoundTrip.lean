import Scaffold.Json.Reader
import Scaffold.Json.Writer
import Scaffold.Proofs.Text.Split

/-! What is written as JSON is read back. A reader that has come to a value takes the text of it and goes on with
    what follows (`feed_pretty`). This is about documents of texts and objects (`OfTexts`), which ledgers are. -/

namespace Scaffold.Json

/-- A document of texts and objects alone. -/
inductive OfTexts : Json → Prop where
  | str (s : String) : OfTexts (.str s)
  | obj {fields : List (String × Json)} (h : ∀ f ∈ fields, OfTexts f.2) : OfTexts (.obj fields)

/-! ### Reading on -/

/-- What has been assembled once a text is read to its end. -/
def feed (r : Reading) (s : List Char) (a : Assembly) : Option Assembly :=
  (tokensFrom r s).bind fun tokens => tokens.foldlM Assembly.accept a

theorem feed_cons {r q : Reading} {c : Char} {tokens : List Token} {a b : Assembly} (rest : List Char)
    (hstep : step r c = some (q, tokens)) (haccept : tokens.foldlM Assembly.accept a = some b) :
    feed r (c :: rest) a = feed q rest b := by
  unfold feed
  rw [tokensFrom, hstep]
  cases htokens : tokensFrom q rest with
  | none => simp [htokens]
  | some more => simp [htokens, List.foldlM_append, haccept]

theorem feed_silent {r q : Reading} {c : Char} (rest : List Char) (a : Assembly) (hstep : step r c = some (q, [])) :
    feed r (c :: rest) a = feed q rest a := feed_cons rest hstep rfl

theorem feed_mark {c : Char} {t : Token} {a b : Assembly} (rest : List Char)
    (hstep : step .between c = some (.between, [t])) (haccept : a.accept t = some b) :
    feed .between (c :: rest) a = feed .between rest b := by
  refine feed_cons rest hstep ?_
  simp only [List.foldlM_cons, List.foldlM_nil, haccept]
  rfl

theorem feed_blanks (n : Nat) (rest : List Char) (a : Assembly) :
    feed .between (List.replicate n ' ' ++ rest) a = feed .between rest a := by
  induction n with
  | zero => rfl
  | succ n ih => rw [List.replicate_succ, List.cons_append, feed_silent _ a rfl, ih]

theorem feed_newline (level : Nat) (rest : List Char) (a : Assembly) :
    feed .between (newline level ++ rest) a = feed .between rest a := by
  rw [newline, List.cons_append, feed_silent _ a rfl, feed_blanks]

/-! ### Texts in quotes -/

/-- The digits of a control character, of which the last two have its value. -/
theorem hexDigits_control (n : Nat) (hn : n < 32) : ∃ x y : Char, Text.hexDigits 'a' 4 n = ['0', '0', x, y] ∧
    Text.hexValue? x = some (n / 16) ∧ Text.hexValue? y = some (n % 16) := by
  have hall : ∀ n < 32, (Text.hexDigits 'a' 4 n).take 2 = ['0', '0'] ∧
      ((Text.hexDigits 'a' 4 n).drop 2).map Text.hexValue? = [some (n / 16), some (n % 16)] := by decide
  obtain ⟨hzeros, hvalues⟩ := hall n hn
  obtain ⟨x, tail, hdrop, hx, htail⟩ := List.map_eq_cons_iff.mp hvalues
  obtain ⟨y, more, rfl, hy, hmore⟩ := List.map_eq_cons_iff.mp htail
  rw [List.map_eq_nil_iff] at hmore
  refine ⟨x, y, ?_, hx, hy⟩
  rw [← List.take_append_drop 2 (Text.hexDigits 'a' 4 n), hzeros, hdrop, hmore]
  rfl

theorem feed_control {c : Char} (hc : c < ' ') (text rest : List Char) (a : Assembly) :
    feed (.string text) ('\\' :: 'u' :: Text.hexDigits 'a' 4 c.toNat ++ rest) a = feed (.string (c :: text)) rest a := by
  have hlow : c.toNat < 32 := hc
  obtain ⟨x, y, hdigits, hx, hy⟩ := hexDigits_control c.toNat hlow
  have hvalue : (c.toNat / 16) * 16 + c.toNat % 16 = c.toNat := Nat.div_add_mod' ..
  have hwhole : afterHex text none c.toNat = some (.string (c :: text)) := by
    have hsmall : ¬0xDC00 ≤ c.toNat ∧ ¬0xD800 ≤ c.toNat := ⟨by omega, by omega⟩
    simp [afterHex, hsmall, Char.ofNat_toNat]
  rw [hdigits]
  simp only [List.cons_append, List.nil_append]
  rw [feed_silent _ a (q := .escape text) rfl, feed_silent _ a (q := .hex text none 0 4) rfl,
    feed_silent _ a (q := .hex text none 0 3) rfl, feed_silent _ a (q := .hex text none 0 2) rfl,
    feed_silent _ a (q := .hex text none (c.toNat / 16) 1) (by simp [step, hx]),
    feed_silent _ a (q := .string (c :: text)) (by simp [step, hy, hvalue, hwhole])]

theorem feed_escapeChar (c : Char) (text rest : List Char) (a : Assembly) :
    feed (.string text) (escapeChar c ++ rest) a = feed (.string (c :: text)) rest a := by
  have hescaped : ∀ e : Char, e ≠ 'u' → unescaped? e = some c →
      feed (.string text) ('\\' :: e :: rest) a = feed (.string (c :: text)) rest a := fun e hu he => by
    rw [feed_silent _ a (q := .escape text) rfl,
      feed_silent _ a (q := .string (c :: text)) (by simp [step, hu, he])]
  unfold escapeChar
  split
  · exact hescaped _ (by decide) (by simp [unescaped?, *])
  split
  · exact hescaped _ (by decide) (by simp [unescaped?, *])
  split
  · exact hescaped _ (by decide) (by simp [unescaped?, *])
  split
  · exact hescaped _ (by decide) (by simp [unescaped?, *])
  split
  · exact hescaped _ (by decide) (by simp [unescaped?, *])
  split
  · exact hescaped _ (by decide) (by simp [unescaped?, *])
  split
  · exact hescaped _ (by decide) (by simp [unescaped?, *])
  split
  · exact feed_control ‹_› text rest a
  · exact feed_silent _ a (by simp [step, *])

theorem feed_escaped (a : Assembly) (rest : List Char) : ∀ (cs text : List Char),
    feed (.string text) (cs.flatMap escapeChar ++ rest) a = feed (.string (cs.reverse ++ text)) rest a
  | [], _ => rfl
  | c :: cs, text => by
    rw [List.flatMap_cons, List.append_assoc, feed_escapeChar, feed_escaped a rest cs, List.reverse_cons,
      List.append_assoc]
    rfl

theorem feed_quote {s : String} {a b : Assembly} (rest : List Char) (haccept : a.accept (.atom (.str s)) = some b) :
    feed .between (quote s ++ rest) a = feed .between rest b := by
  have hend : step (.string s.toList.reverse) '"' = some (.between, [.atom (.str s)]) := by
    simp [step]
  rw [quote, List.cons_append, List.cons_append, List.append_assoc, feed_silent _ a (q := .string []) rfl, feed_escaped,
    List.append_nil]
  refine feed_cons rest hend ?_
  simp only [List.foldlM_cons, List.foldlM_nil, haccept]
  rfl

/-! ### Objects -/

/-- The document is read back wherever a value may come, at every level of indentation. -/
def ReadsBack (v : Json) : Prop := ∀ (level : Nat) (rest : List Char) (frames : List Frame),
  feed .between (prettyChars level v ++ rest) ⟨frames, .value⟩ = feed .between rest (deliver v frames)

theorem bracketed_cons (openChar closeChar : Char) (level : Nat) (text : List Char) (texts : List (List Char))
    (rest : List Char) : bracketed openChar closeChar level (text :: texts) ++ rest =
      openChar :: (newline (level + 1) ++ (text ++ (texts.flatMap (',' :: newline (level + 1) ++ ·) ++
        (newline level ++ closeChar :: rest)))) := by
  rw [bracketed, if_neg (by simp), Text.joinWith_cons]
  simp

/-- The text of a field. -/
def fieldChars (level : Nat) (f : String × Json) : List Char := quote f.1 ++ [':', ' '] ++ prettyChars level f.2

theorem prettyFields_eq_map (level : Nat) : ∀ fields : List (String × Json),
    prettyFields level fields = fields.map (fieldChars level)
  | [] => rfl
  | (name, v) :: rest => by rw [prettyFields, prettyFields_eq_map level rest]; rfl

theorem feed_field {frames : List Frame} {e : Expecting} {done : List (String × Json)} {f : String × Json}
    (hname : Assembly.accept ⟨frames, e⟩ (.atom (.str f.1)) = some ⟨frames, .colon done f.1⟩) (hvalue : ReadsBack f.2)
    (level : Nat) (rest : List Char) : feed .between (fieldChars level f ++ rest) ⟨frames, e⟩ =
      feed .between rest ⟨.obj (f :: done) f.1 :: frames, .separator⟩ := by
  rw [fieldChars, List.append_assoc, List.append_assoc, feed_quote _ hname, List.cons_append,
    feed_mark (t := .colon) _ rfl rfl, List.cons_append, feed_silent _ _ rfl, List.nil_append, hvalue level rest]
  rfl

theorem feed_fields (level : Nat) (frames : List Frame) (tail rest : List Char)
    (htail : ∀ a, feed .between tail a = feed .between ('\x7d' :: rest) a) :
    ∀ (fields done : List (String × Json)) (name : String), (∀ f ∈ fields, ReadsBack f.2) →
      feed .between ((fields.map (fieldChars level)).flatMap (',' :: newline level ++ ·) ++ tail)
          ⟨.obj done name :: frames, .separator⟩ =
        feed .between rest (deliver (.obj (done.reverse ++ fields)) frames)
  | [], done, name, _ => by
    rw [List.map_nil, List.flatMap_nil, List.nil_append, htail, feed_mark (t := .closeObject) _ rfl rfl, List.append_nil]
  | f :: fields, done, name, h => by
    obtain ⟨hfirst, hrest⟩ := List.forall_mem_cons.mp h
    rw [List.map_cons, List.flatMap_cons, List.append_assoc, List.append_assoc, List.cons_append,
      feed_mark (t := .comma) (b := ⟨frames, .nextName done⟩) _ rfl rfl, feed_newline, feed_field rfl hfirst,
      feed_fields level frames tail rest htail fields (f :: done) f.1 hrest, List.reverse_cons, List.append_assoc]
    rfl

theorem readsBack_obj {fields : List (String × Json)} (h : ∀ f ∈ fields, ReadsBack f.2) : ReadsBack (.obj fields) := by
  intro level rest frames
  rw [prettyChars, prettyFields_eq_map]
  cases fields with
  | nil =>
    have hempty : bracketed '\x7b' '\x7d' level [] ++ rest = '\x7b' :: '\x7d' :: rest := rfl
    rw [List.map_nil, hempty, feed_mark (t := .openObject) _ rfl rfl, feed_mark (t := .closeObject) _ rfl rfl]
    rfl
  | cons f fields =>
    obtain ⟨hfirst, hrest⟩ := List.forall_mem_cons.mp h
    rw [List.map_cons, bracketed_cons, feed_mark (t := .openObject) _ rfl rfl, feed_newline, feed_field rfl hfirst,
      feed_fields (level + 1) frames _ rest (fun a => feed_newline level _ a) fields [f] f.1 hrest]
    rfl

theorem OfTexts.readsBack {v : Json} (h : OfTexts v) : ReadsBack v := by
  induction h with
  | str s => exact fun level rest frames => feed_quote rest rfl
  | obj _ ih => exact readsBack_obj ih

/-- What is written is read back. -/
theorem OfTexts.parse?_pretty {v : Json} (h : OfTexts v) : parse? v.pretty = some v := by
  have hread : feed .between v.pretty.toList ⟨[], .value⟩ = some ⟨[], .nothing v⟩ := by
    rw [pretty, String.toList_ofList, ← List.append_nil (prettyChars 0 v), h.readsBack 0 [] []]
    rfl
  obtain ⟨tokens, htokens, hfold⟩ := Option.bind_eq_some_iff.mp hread
  unfold parse? ofTokens?
  simp [htokens, hfold]

end Scaffold.Json
