import Scaffold.Proofs.Plan.Packages
import Scaffold.Yaml.Plain

/-! The texts that stand in quotes in generated code (`Project.literals_fit`). The templates put names, the group and the
    version between double quotes as they are, and nothing that loading asks of them concerns quotes. So the literal
    denotes its text exactly if there is no quote, no backslash and no line break in it: an escape stands for fewer
    bytes than it takes, so a literal with an escape is never the one of its own text. -/

namespace Scaffold
open Template Form

/-! ### Literals -/

namespace GoString

/-- The escapes of one letter with the byte each stands for. -/
def namedEscapes : List (Char × UInt8) :=
  [('a', 0x07), ('b', 0x08), ('f', 0x0c), ('n', 0x0a), ('r', 0x0d), ('t', 0x09), ('v', 0x0b), ('\\', 0x5c), ('"', 0x22)]

/-- A character that stands for itself. -/
def IsBare (c : Char) : Prop := c ≠ '"' ∧ c ≠ '\\' ∧ c ≠ '\n'

instance (c : Char) : Decidable (IsBare c) := inferInstanceAs (Decidable (_ ∧ _ ∧ _))

/-- Characters that all stand for themselves. -/
def AllBare (s : List Char) : Prop := ∀ c ∈ s, IsBare c

instance (s : List Char) : Decidable (AllBare s) := List.decidableBAll _ s

/-- The parts of a literal between its quotes, with the bytes each stands for: a character for its bytes in UTF-8, an
    escape for a byte or for those of a character. -/
inductive Part : List Char → List UInt8 → Prop where
  | bare {c : Char} (h : IsBare c) : Part [c] (String.utf8EncodeChar c)
  | named {c : Char} {b : UInt8} (h : (c, b) ∈ namedEscapes) : Part ['\\', c] [b]
  | octal {ds : List Char} {n : Nat} (hwidth : ds.length = 3) (hvalue : Yaml.Plain.digits? 8 ds = some n) (hbyte : n < 256) :
      Part ('\\' :: ds) [UInt8.ofNat n]
  | hex {ds : List Char} {n : Nat} (hwidth : ds.length = 2) (hvalue : Yaml.Plain.digits? 16 ds = some n) :
      Part ('\\' :: 'x' :: ds) [UInt8.ofNat n]
  | unicode {letter : Char} {ds : List Char} {n : Nat} (hwidth : (letter, ds.length) ∈ [('u', 4), ('U', 8)])
      (hvalue : Yaml.Plain.digits? 16 ds = some n) (hvalid : n.isValidChar) :
      Part ('\\' :: letter :: ds) (String.utf8EncodeChar (Char.ofNat n))

/-- What stands between the quotes, with the bytes it stands for. -/
inductive Content : List Char → List UInt8 → Prop where
  | nil : Content [] []
  | cons {part rest : List Char} {value values : List UInt8} (hpart : Part part value) (hrest : Content rest values) :
      Content (part ++ rest) (value ++ values)

/-- An interpreted string literal with the bytes it denotes. -/
def Denotes (literal : String) (bytes : ByteArray) : Prop :=
  ∃ content, literal.toList = '"' :: (content ++ ['"']) ∧ Content content bytes.data.toList

/-- A text between double quotes, as it is. -/
def quoted (s : String) : String := "\"" ++ s ++ "\""

/-- Whether a text in quotes is a literal for this text and no other. -/
def IsQuotable (s : String) : Prop := ∀ bytes, Denotes (quoted s) bytes ↔ bytes = Text.encode s

/-! ### Which texts can be quoted -/

/-- The bytes of characters in UTF-8. -/
def utf8 (s : List Char) : List UInt8 := s.flatMap String.utf8EncodeChar

theorem utf8_append (s t : List Char) : utf8 (s ++ t) = utf8 s ++ utf8 t := List.flatMap_append

theorem data_encode (s : String) : (Text.encode s).data.toList = utf8 s.toList := by
  rw [Text.encode, String.toUTF8_eq_toByteArray, ← String.utf8Encode_toList, List.utf8Encode, utf8]
  simp

theorem length_le_utf8 (s : List Char) : s.length ≤ (utf8 s).length := by
  induction s with
  | nil => exact Nat.le_refl 0
  | cons c s ih =>
    have hc := c.utf8Size_pos
    rw [utf8, List.flatMap_cons, List.length_append, List.length_cons, String.length_utf8EncodeChar, ← utf8]
    omega

/-- A part is a character that stands for itself, or an escape, which takes more bytes than it stands for. -/
theorem Part.bare_or_escape {part : List Char} {value : List UInt8} (h : Part part value) :
    (∃ c, IsBare c ∧ part = [c] ∧ value = utf8 part) ∨
      (∃ rest, part = '\\' :: rest) ∧ value.length < (utf8 part).length := by
  cases h with
  | @bare c h => exact .inl ⟨c, h, rfl, by simp [utf8]⟩
  | @named c b h =>
    refine .inr ⟨⟨_, rfl⟩, Nat.lt_of_lt_of_le ?_ (length_le_utf8 _)⟩
    simp
  | octal hwidth =>
    refine .inr ⟨⟨_, rfl⟩, Nat.lt_of_lt_of_le ?_ (length_le_utf8 _)⟩
    simp [hwidth]
  | hex hwidth =>
    refine .inr ⟨⟨_, rfl⟩, Nat.lt_of_lt_of_le ?_ (length_le_utf8 _)⟩
    simp [hwidth]
  | @unicode letter ds n hwidth =>
    refine .inr ⟨⟨_, rfl⟩, Nat.lt_of_lt_of_le ?_ (length_le_utf8 _)⟩
    have hsize := (Char.ofNat n).utf8Size_le_four
    have hdigits : 4 ≤ ds.length := by
      simp only [List.mem_cons, Prod.mk.injEq, List.not_mem_nil, or_false] at hwidth
      omega
    rw [String.length_utf8EncodeChar, List.length_cons, List.length_cons]
    omega

/-- A content stands for at most as many bytes as it takes, and for as many only if all characters stand for
    themselves. -/
theorem Content.length_le {content : List Char} {value : List UInt8} (h : Content content value) :
    value.length ≤ (utf8 content).length ∧ (value.length = (utf8 content).length → AllBare content) := by
  induction h with
  | nil => exact ⟨Nat.le_refl 0, fun _ => List.forall_mem_nil _⟩
  | cons hpart _ ih =>
    obtain ⟨hle, hbare⟩ := ih
    rw [utf8_append, List.length_append, List.length_append]
    rcases hpart.bare_or_escape with ⟨c, hc, rfl, rfl⟩ | ⟨-, hlt⟩
    · exact ⟨by omega, fun heq => List.forall_mem_cons.mpr ⟨hc, hbare (by omega)⟩⟩
    · exact ⟨by omega, fun heq => by omega⟩

theorem content_of_bare : ∀ {s : List Char}, AllBare s → Content s (utf8 s)
  | [], _ => .nil
  | _ :: _, h => .cons (.bare (List.forall_mem_cons.mp h).1) (content_of_bare (List.forall_mem_cons.mp h).2)

theorem Content.eq_utf8 {content : List Char} {value : List UInt8} (h : Content content value)
    (hbare : AllBare content) : value = utf8 content := by
  induction h with
  | nil => rfl
  | cons hpart _ ih =>
    obtain ⟨hfirst, hrest⟩ := List.forall_mem_append.mp hbare
    rcases hpart.bare_or_escape with ⟨c, -, -, hvalue⟩ | ⟨⟨rest, rfl⟩, -⟩
    · rw [ih hrest, hvalue, utf8_append]
    · exact absurd rfl (hfirst '\\' (.head _)).2.1

theorem denotes_quoted (s : String) (bytes : ByteArray) :
    Denotes (quoted s) bytes ↔ Content s.toList bytes.data.toList := by
  have hquoted : (quoted s).toList = '"' :: (s.toList ++ ['"']) := by simp [quoted]
  constructor
  · rintro ⟨content, hliteral, hcontent⟩
    rw [hquoted, List.cons.injEq, List.append_left_inj] at hliteral
    rwa [hliteral.2]
  · exact fun hcontent => ⟨s.toList, hquoted, hcontent⟩

theorem isQuotable_iff (s : String) : IsQuotable s ↔ AllBare s.toList := by
  constructor
  · intro h
    have hcontent := (denotes_quoted s _).mp ((h _).mpr rfl)
    rw [data_encode] at hcontent
    -- the content stands for as many bytes as it takes, so there is no escape in it
    exact hcontent.length_le.2 rfl
  · intro hbare bytes
    rw [denotes_quoted]
    constructor
    · intro hcontent
      have hdata : bytes.data.toList = (Text.encode s).data.toList := by
        rw [hcontent.eq_utf8 hbare, data_encode]
      exact ByteArray.ext (Array.toList_inj.mp hdata)
    · rintro rfl
      rw [data_encode]
      exact content_of_bare hbare

end GoString

/-! ### Generated literals -/

/-- The literals of generated code that texts of the descriptor are put into. -/
structure Project.LiteralsFit (p : Project) (files : List GeneratedFile) : Prop where
  constants : ∃ f ∈ files, f.outputPath = p.typesImportPath ++ "/phases.go" ∧
    f.content = "\n".intercalate p.phasesLines
  /-- the constant of a phase is the name of the phase in quotes -/
  declared : linesBetween "const (" ")" p.phasesLines = p.descriptor.phases.map fun phase =>
    "\t" ++ p.phaseConstant phase ++ " " ++ p.descriptor.kind ++ "Phase = " ++ GoString.quoted phase.name
  /-- the group version is made of the group and the version in quotes -/
  registered : ∃ f ∈ files, f.outputPath = p.typesImportPath ++ "/register.go" ∧
    f.content = "\n".intercalate (p.linesOf f.toPlannedFile) ∧ "var SchemeGroupVersion = schema.GroupVersion\x7bGroup: " ++
      GoString.quoted p.group ++ ", Version: " ++ GoString.quoted p.version ++ "\x7d" ∈ p.linesOf f.toPlannedFile
  /-- such a literal denotes its text if no character has another meaning in quotes, and only then -/
  denoted : ∀ s ∈ p.group :: p.version :: p.descriptor.phases.map (·.name),
    GoString.IsQuotable s ↔ GoString.AllBare s.toList

section
variable (p : Project)

theorem constantLine_eq_quoted (phase : Phase) : p.constantLine phase =
    "\t" ++ p.phaseConstant phase ++ " " ++ p.descriptor.kind ++ "Phase = " ++ GoString.quoted phase.name := by
  rw [Project.constantLine, GoString.quoted, ← String.toList_inj]
  simp

theorem registrationFile_mem : ∃ f ∈ p.laidOut p.plan, f.outputPath = p.typesImportPath ++ "/register.go" ∧
    f.content = "\n".intercalate (p.linesOf f.toPlannedFile) ∧ "var SchemeGroupVersion = schema.GroupVersion\x7bGroup: " ++
      GoString.quoted p.group ++ ", Version: " ++ GoString.quoted p.version ++ "\x7d" ∈ p.linesOf f.toPlannedFile := by
  have hplanned : ⟨p.typesImportPath ++ "/register.go", "code/register.go.tera", false, false, .project⟩ ∈ p.plan :=
    List.mem_append_left _ (.tail _ (.tail _ (.tail _ (.tail _ (.tail _ (.head _))))))
  have hline : "var SchemeGroupVersion = schema.GroupVersion\x7bGroup: \"" ++ p.group ++ "\", Version: \"" ++ p.version ++
      "\"\x7d" = "var SchemeGroupVersion = schema.GroupVersion\x7bGroup: " ++ GoString.quoted p.group ++ ", Version: " ++
        GoString.quoted p.version ++ "\x7d" := by
    rw [GoString.quoted, GoString.quoted, ← String.toList_inj]
    simp
  have hmem := (registration_mem p).1
  rw [hline] at hmem
  have hfile := List.mem_map_of_mem (f := fun f => (⟨f, "\n".intercalate (p.linesOf f)⟩ : GeneratedFile)) hplanned
  exact ⟨_, hfile, rfl, content_of_mem_laidOut _ hfile, hmem⟩

end

/-- **Quoted texts of the descriptor**: for every loaded project, the constant of each phase is a literal made of the name
    of the phase, and the group version one of the group and one of the version. Such a literal denotes its text exactly
    if this has no quote, no backslash and no line break. -/
theorem Project.literals_fit {bytes : ByteArray} {root : Except RootError String} {p : Project}
    (h : load bytes root = .ok p) : ∃ files, (∀ (m : Type → Type) [Monad m] [LawfulMonad m],
      p.generate (Store.shipped : Store m) = pure (.ok files)) ∧ p.LiteralsFit files := by
  refine ⟨_, generate_eq_lines h, phasesFile_mem p, ?_, registrationFile_mem p, fun s _ => GoString.isQuotable_iff s⟩
  rw [declared_eq]
  exact List.map_congr_left fun phase _ => constantLine_eq_quoted p phase

/-- A project whose group and one of whose phases cannot be quoted as they are. -/
def Project.unquotable : Project where
  descriptor := ⟨"g\\/v1", "K", none, [⟨"a\"b", none, [], []⟩, ⟨"idle", none, [], []⟩]⟩
  moduleRoot := "m"
  group := "g\\"
  version := "v1"
  typesImportPath := "m/pkg/apis/ks/v1"
  schedulerImportPath := "m/pkg/scheduler"
  configImportPath := "m/pkg/config"
  kindLowerCamel := "k"
  operatorName := "m"

/-- The constant of a phase called `a"b` does not denote this name, though a literal with an escape would. -/
theorem Project.literals_fit_unquotable :
    load (Text.encode "apiVersion: g\\/v1\nkind: K\nphases:\n- name: a\"b\n- name: idle\n") (.ok "m") = .ok unquotable ∧
    (∃ files, unquotable.LiteralsFit files) ∧
    linesBetween "const (" ")" unquotable.phasesLines =
      ["\tKPhaseAB KPhase = \"a\"b\"", "\tKPhaseIdle KPhase = \"idle\""] ∧
    ¬GoString.IsQuotable "a\"b" ∧ ¬GoString.IsQuotable "g\\" ∧ GoString.IsQuotable "idle" ∧ GoString.IsQuotable "v1" ∧
    GoString.Denotes "\"a\\\"b\"" (Text.encode "a\"b") := by
  have hload : load (Text.encode "apiVersion: g\\/v1\nkind: K\nphases:\n- name: a\"b\n- name: idle\n") (.ok "m") =
      .ok unquotable := eq_ok_of_toOption (by decide +kernel)
  obtain ⟨files, -, hfits⟩ := literals_fit hload
  refine ⟨hload, ⟨files, hfits⟩, ?_, mt (hfits.denoted _ (by decide)).mp (by decide),
    mt (hfits.denoted _ (by decide)).mp (by decide), (hfits.denoted _ (by decide)).mpr (by decide),
    (hfits.denoted _ (by decide)).mpr (by decide), ['a', '\\', '"', 'b'], rfl, ?_⟩
  · rw [hfits.declared]
    decide +kernel
  · rw [GoString.data_encode]
    exact .cons (.bare (by decide)) (.cons (.named (by decide)) (.cons (.bare (by decide)) .nil))

end Scaffold
