import Scaffold.Manifest.Reader
import Scaffold.Manifest.Writer
import Scaffold.Proofs.Text.Digits
import Scaffold.Proofs.Yaml.Decode

/-! A deployment is read back from the text that is written for it, whatever its texts, labels and numbers are. -/

namespace Scaffold

/-! ### Numbers -/

namespace Yaml
open Written Plain

section
variable {c : Char} {ds : List Char} {n : Nat}

theorem mem_of_isDigit (h : c.isDigit = true) : c ∈ "0123456789".toList := by
  have hbound := Char.isDigit_iff_toNat.mp h
  have hall : ∀ n ≤ '9'.toNat, '0'.toNat ≤ n → Char.ofNat n ∈ "0123456789".toList := by decide
  exact Char.ofNat_toNat c ▸ hall c.toNat hbound.2 hbound.1

theorem isDigit_imp {p : Char → Bool} (h : "0123456789".toList.all p = true) (hc : c.isDigit = true) : p c = true :=
  List.all_eq_true.mp h c (mem_of_isDigit hc)

theorem hasInnerIndicator_of_digits : ∀ {ds : List Char} (c : Char), (∀ d ∈ ds, d.isDigit = true) →
    hasInnerIndicator (c :: ds) = false
  | [], _, _ => rfl
  | d :: ds, c, h => by
    obtain ⟨hd, hds⟩ := List.forall_mem_cons.mp h
    have hsign : d ≠ ':' ∧ d ≠ '#' := by
      simpa using isDigit_imp (p := fun d => decide (d ≠ ':') && decide (d ≠ '#')) (by decide) hd
    rw [hasInnerIndicator, hasInnerIndicator_of_digits d hds]
    simp [hsign]

/-- A character that stands for itself wherever it is in a word. -/
def isOrdinary (c : Char) : Bool := isPrintable c && !breaksLine c && c ≠ ' ' && c ≠ '.'

theorem isOrdinary_of_isDigit (h : c.isDigit = true) : isOrdinary c = true := isDigit_imp (by decide) h

/-- Digits, and a minus sign in front of them, need no quotes. -/
theorem isWord_of_digits (hc : c.isDigit = true ∨ c = '-' ∧ ds ≠ []) (hds : ∀ d ∈ ds, d.isDigit = true) :
    Data.IsWord (String.ofList (c :: ds)) := by
  have hordinary : ∀ d ∈ c :: ds, isOrdinary d = true := by
    refine List.forall_mem_cons.mpr ⟨?_, fun d hd => isOrdinary_of_isDigit (hds d hd)⟩
    rcases hc with hc | ⟨rfl, -⟩
    · exact isOrdinary_of_isDigit hc
    · decide
  simp only [isOrdinary, Bool.and_eq_true, Bool.not_eq_true', decide_eq_true_eq] at hordinary
  have hnext : ∀ d rest, ds = d :: rest → d ≠ '-' ∧ isGapEnd (some d) = false := by
    rintro d rest rfl
    simpa using isDigit_imp (p := fun d => decide (d ≠ '-') && !isGapEnd (some d)) (by decide) (hds d List.mem_cons_self)
  have hdocument : startsDocument (c :: ds) = false := by
    have hdot : c ≠ '.' := (hordinary c List.mem_cons_self).2
    cases ds with
    | nil => simp [startsDocument, List.isPrefixOf]
    | cons d ds => simp [startsDocument, List.isPrefixOf, hdot.symm, (hnext d ds rfl).1.symm]
  have hindicator : startsAsIndicator (c :: ds) = false := by
    rcases hc with hc | ⟨rfl, hne⟩
    · have hsign := isDigit_imp (p := fun c => c ∉ startIndicators && c ≠ '?' && c ≠ ':' && c ≠ '-') (by decide) hc
      simp only [Bool.and_eq_true, decide_eq_true_eq] at hsign
      simp [startsAsIndicator, hsign]
    · obtain ⟨d, rest, rfl⟩ := List.exists_cons_of_ne_nil hne
      rw [startsAsIndicator, List.head?_cons, (hnext d rest rfl).2]
      rfl
  refine ⟨by simp, ?_⟩
  have hlast : (c :: ds).getLast? ≠ some ' ' := fun h => (hordinary ' ' (List.mem_of_getLast? h)).1.2 rfl
  have hinner := hasInnerIndicator_of_digits c hds
  rw [String.toList_ofList, plainAllowed, hdocument, hindicator, hinner]
  simp only [Bool.and_eq_true, List.all_eq_true, Bool.not_eq_true', List.any_eq_false, decide_eq_true_eq, Bool.not_false,
    and_true]
  exact ⟨⟨⟨fun d hd => (hordinary d hd).1.1.1, fun d hd => by simp [(hordinary d hd).1.1.2]⟩,
    fun h => (hordinary c List.mem_cons_self).1.2 (Option.some.inj h)⟩, hlast⟩

theorem digitsFrom_of_digits : ∀ {ds : List Char} (n : Nat), (∀ d ∈ ds, d.isDigit = true) →
    digitsFrom 10 n ds = some (Nat.ofDigitChars 10 ds n)
  | [], _, _ => rfl
  | d :: ds, n, h => by
    obtain ⟨hd, hds⟩ := List.forall_mem_cons.mp h
    have hbound := Char.isDigit_iff_toNat.mp hd
    have hvalue : d.toNat - 48 < 10 := by
      have hmost : d.toNat ≤ 57 := hbound.2
      omega
    have hdigit : digit? 10 d = some (d.toNat - 48) := by
      rw [digit?, Text.hexValue?, if_pos hd, Option.bind_some, if_pos hvalue]
    rw [digitsFrom, hdigit, Option.bind_some, digitsFrom_of_digits _ hds, Nat.ofDigitChars_cons, Nat.mul_comm]
    rfl

theorem head?_toDigits (h : 0 < n) : (Nat.toDigits 10 n).head? ≠ some '0' := by
  induction n using Nat.strongRecOn with
  | _ n ih =>
    by_cases hn : n < 10
    · have hall : ∀ n < 10, 0 < n → [Nat.digitChar n].head? ≠ some '0' := by decide
      rw [Nat.toDigits_of_lt_base hn]
      exact hall n hn h
    · have hfirst := ih (n / 10) (by omega) (by omega)
      obtain ⟨d, ds, hds⟩ := List.exists_cons_of_ne_nil (Nat.toDigits_ne_nil (n := n / 10) (b := 10))
      rw [Nat.toDigits_of_base_le (by decide) (by omega), hds]
      rwa [hds] at hfirst

/-- Digits without a zero in front are the number they are written for, and so they are behind a minus sign. -/
theorem int?_of_digits (hds : ∀ d ∈ ds, d.isDigit = true) (hne : ds ≠ []) (hfirst : ds.head? = some '0' → ds = ['0']) :
    int? ds = some (Nat.ofDigitChars 10 ds 0 : Int) ∧ int? ('-' :: ds) = some (-(Nat.ofDigitChars 10 ds 0 : Int)) := by
  obtain ⟨c, rest, rfl⟩ := List.exists_cons_of_ne_nil hne
  obtain ⟨hc, hrest⟩ := List.forall_mem_cons.mp hds
  have hdigits : digits? 10 (c :: rest) = some (Nat.ofDigitChars 10 (c :: rest) 0) := digitsFrom_of_digits 0 hds
  have hsign : c ≠ '-' ∧ c ≠ '+' := by
    simpa using isDigit_imp (p := fun c => decide (c ≠ '-') && decide (c ≠ '+')) (by decide) hc
  by_cases hzero : c = '0'
  · obtain ⟨rfl, rfl⟩ : c = '0' ∧ rest = [] := by simpa [hzero] using hfirst (by simp [hzero])
    exact ⟨rfl, rfl⟩
  · have hpadded : isZeroPadded (c :: rest) = false := by
      simp [isZeroPadded, hzero, hsign]
    have hpadded' : isZeroPadded ('-' :: c :: rest) = false := by
      simp [isZeroPadded, hzero]
    constructor
    · simp [int?, hzero, hsign, hpadded, hdigits]
    · simp [int?, hzero, hpadded', hdigits]

theorem int?_toDigits (n : Nat) : int? (Nat.toDigits 10 n) = some (n : Int) ∧ int? ('-' :: Nat.toDigits 10 n) = some (-(n : Int)) := by
  have hdigits : ∀ d ∈ Nat.toDigits 10 n, d.isDigit = true := fun d hd =>
    Nat.isDigit_of_mem_toDigits (by decide) (by decide) hd
  have hvalue : Nat.ofDigitChars 10 (Nat.toDigits 10 n) 0 = n := Nat.ofDigitChars_toDigits (by decide) (by decide)
  have hread := int?_of_digits hdigits Nat.toDigits_ne_nil fun hfirst => by
    rcases Nat.eq_zero_or_pos n with rfl | hpos
    · rfl
    · exact absurd hfirst (head?_toDigits hpos)
  rwa [hvalue] at hread

theorem toList_toString (k : Int) : (toString k).toList =
    if 0 ≤ k then Nat.toDigits 10 k.toNat else '-' :: Nat.toDigits 10 (-k).toNat := by
  rw [Int.toString_eq_repr, Int.repr_eq_if]
  split
  · rw [Nat.repr_eq_ofList_toDigits, String.toList_ofList]
  · rw [Nat.repr_eq_ofList_toDigits]
    simp

theorem int?_toString (k : Int) : int? (toString k).toList = some k := by
  rw [toList_toString]
  split
  · next h => rw [(int?_toDigits _).1, Int.toNat_of_nonneg h]
  · next h => rw [(int?_toDigits _).2, Int.toNat_of_nonneg (by omega), Int.neg_neg]

theorem isWord_toString (k : Int) : Data.IsWord (toString k) := by
  have hdigits : ∀ n, ∀ d ∈ Nat.toDigits 10 n, d.isDigit = true := fun n d hd =>
    Nat.isDigit_of_mem_toDigits (by decide) (by decide) hd
  rw [← String.ofList_toList (s := toString k), toList_toString]
  split
  · obtain ⟨d, ds, hds⟩ := List.exists_cons_of_ne_nil (Nat.toDigits_ne_nil (n := k.toNat) (b := 10))
    obtain ⟨hd, hrest⟩ := List.forall_mem_cons.mp (hds ▸ hdigits k.toNat)
    rw [hds]
    exact isWord_of_digits (.inl hd) hrest
  · exact isWord_of_digits (.inr ⟨rfl, Nat.toDigits_ne_nil⟩) (hdigits _)

end
end Yaml

namespace Keyed

theorem eq_empty_of_isEmpty {α : Type} {k : Keyed α} (h : k.isEmpty = true) : k = .empty := by
  obtain ⟨entries, ordered⟩ := k
  obtain rfl : entries = [] := List.isEmpty_iff.mp h
  rfl

end Keyed

namespace Manifest
open Yaml Data Decode

/-! ### What is written -/

theorem readsBack_labelData (labels : Keyed String) : ReadsBack (labelData labels) := by
  rw [labelData, ReadsBack, fieldsReadBack_iff]
  exact List.forall_mem_map.mpr fun _ _ => trivial

theorem Metadata.readsBack_toData (m : Metadata) : ReadsBack m.toData := by
  rw [toData, ReadsBack, fieldsReadBack_iff]
  refine List.forall_mem_append.mpr ⟨List.forall_mem_singleton.mpr trivial, ?_⟩
  split
  · exact List.forall_mem_nil _
  · exact List.forall_mem_singleton.mpr (readsBack_labelData m.labels)

theorem EnvVar.readsBack_toData (e : EnvVar) : ReadsBack e.toData := by
  obtain ⟨name, value, fieldPath⟩ := e
  rw [toData, ReadsBack, fieldsReadBack_iff]
  refine List.forall_mem_append.mpr ⟨List.forall_mem_append.mpr ⟨List.forall_mem_singleton.mpr trivial, ?_⟩, ?_⟩
  · cases value with
    | none => exact List.forall_mem_nil _
    | some s => exact List.forall_mem_singleton.mpr trivial
  · cases fieldPath with
    | none => exact List.forall_mem_nil _
    | some s => exact List.forall_mem_singleton.mpr ⟨⟨trivial, trivial⟩, trivial⟩

theorem PullPolicy.isWord_name (p : PullPolicy) : IsWord p.name := by
  cases p <;> decide

theorem Container.readsBack_toData (c : Container) : ReadsBack c.toData := by
  rw [toData, ReadsBack, fieldsReadBack_iff]
  refine List.forall_mem_append.mpr ⟨?_, ?_⟩
  · exact fieldsReadBack_iff.mp ⟨trivial, trivial, readsBack_texts c.command, c.imagePullPolicy.isWord_name, trivial⟩
  · split
    · exact List.forall_mem_nil _
    · exact List.forall_mem_singleton.mpr (itemsReadBack_iff.mpr (List.forall_mem_map.mpr fun e _ =>
        ⟨trivial, e.readsBack_toData⟩))

theorem PodTemplate.readsBack_toData (t : PodTemplate) : ReadsBack t.toData := by
  have hcontainers : ItemsReadBack (t.spec.containers.map Container.toData) :=
    itemsReadBack_iff.mpr (List.forall_mem_map.mpr fun c _ => ⟨trivial, c.readsBack_toData⟩)
  exact ⟨t.metadata.readsBack_toData, ⟨trivial, hcontainers, trivial⟩, trivial⟩

theorem DeploymentSpec.readsBack_toData (s : DeploymentSpec) : ReadsBack s.toData :=
  ⟨isWord_toString s.replicas.toInt, ⟨readsBack_labelData s.matchLabels, trivial⟩, s.template.readsBack_toData, trivial⟩

/-! ### What is read -/

section
variable {path : Path} {n : Node}

theorem gives_labels {labels : Keyed String} (h : Denotes (labelData labels) n) : Gives (mapOf text path n) labels :=
  gives_mapOf (fun _ _ _ _ h => gives_textAs h _) h

theorem Metadata.gives_decoder (m : Metadata) (h : Denotes m.toData n) : Gives (Metadata.decoder path n) m := by
  obtain ⟨name, labels⟩ := m
  refine gives_record (.read rfl (fun _ _ h => gives_textAs h _)
    (.unless labels.isEmpty (.read rfl (fun _ _ h => gives_labels h) (.nil _)))) ?_ ?_ h _
  · split <;> simp
  · cases hempty : labels.isEmpty with
    | false => rfl
    | true =>
      rw [Keyed.eq_empty_of_isEmpty hempty]
      rfl

theorem gives_single {α : Type} {a : α} {d : Data} {field expected : String} {decoder : Decoder α}
    (hd : ∀ path n, Denotes d n → Gives (decoder path n) a) (h : Denotes (.record [(field, d)]) n) :
    Gives (single expected field decoder path n) a := by
  have hsets : Sets (fun name => if name = field then reads decoder fun _ a => some a else none) [(field, d)] none (some a) :=
    .read (if_pos rfl) hd (.nil _)
  have hgiven : required field (some a) = .ok a := rfl
  exact gives_record hsets (by simp) hgiven h expected

theorem EnvVar.gives_decoder (e : EnvVar) (h : Denotes e.toData n) : Gives (EnvVar.decoder path n) e := by
  obtain ⟨name, value, fieldPath⟩ := e
  have hsource : ∀ s path n, Denotes (.record [("fieldRef", .record [("fieldPath", .text s)])]) n → Gives
      (optional (single "struct EnvVarSource" "fieldRef" (single "struct ObjectFieldSelector" "fieldPath" text)) path n)
        (some s) := fun s _ _ h =>
    gives_optional_record h (gives_single (fun _ _ h => gives_single (fun _ _ h => gives_textAs h _) h) h)
  refine gives_record (((Sets.nil _).read rfl fun _ _ h => gives_textAs h _).append
    (.field? value _ rfl fun _ _ _ h => gives_optional_text h) |>.append (.field? fieldPath _ rfl hsource)) ?_ ?_ h _
  · cases value <;> cases fieldPath <;> simp [field?]
  · cases value <;> cases fieldPath <;> rfl

theorem PullPolicy.gives_decoder (p : PullPolicy) (h : Denotes (.word p.name) n) : Gives (PullPolicy.decoder path n) p := by
  refine gives_variant h ?_
  cases p <;> decide

theorem Container.gives_decoder (c : Container) (h : Denotes c.toData n) : Gives (Container.decoder path n) c := by
  obtain ⟨name, image, command, imagePullPolicy, env⟩ := c
  have henv : ∀ path n, Denotes (.list (env.map EnvVar.toData)) n → Gives (list EnvVar.decoder path n) env := fun _ _ h =>
    gives_list (fun e _ _ _ h => e.gives_decoder h) h
  refine gives_record (.append (.read rfl (fun _ _ h => gives_textAs h _) (.read rfl (fun _ _ h => gives_textAs h _)
    (.read rfl (fun _ _ h => gives_texts h) (.read rfl (fun _ _ h => imagePullPolicy.gives_decoder h) (.nil _)))))
    (.unless env.isEmpty (.read rfl henv (.nil _)))) ?_ ?_ h _
  · split <;> simp
  · cases hempty : env.isEmpty with
    | false => rfl
    | true =>
      rw [List.isEmpty_iff.mp hempty]
      rfl

theorem PodSpec.gives_decoder (p : PodSpec) (h : Denotes (.record [("serviceAccountName", .text p.serviceAccountName),
    ("containers", .list (p.containers.map Container.toData))]) n) : Gives (PodSpec.decoder path n) p := by
  obtain ⟨serviceAccountName, containers⟩ := p
  refine gives_record (.read rfl (fun _ _ h => gives_textAs h _)
    (.read rfl (fun _ _ h => gives_list (fun c _ _ _ h => c.gives_decoder h) h) (.nil _))) (by simp) ?_ h _
  rfl

theorem PodTemplate.gives_decoder (t : PodTemplate) (h : Denotes t.toData n) : Gives (PodTemplate.decoder path n) t := by
  obtain ⟨metadata, spec⟩ := t
  refine gives_record (.read rfl (fun _ _ h => metadata.gives_decoder h)
    (.read rfl (fun _ _ h => spec.gives_decoder h) (.nil _))) (by simp) ?_ h _
  rfl

theorem DeploymentSpec.gives_decoder (s : DeploymentSpec) (h : Denotes s.toData n) :
    Gives (DeploymentSpec.decoder path n) s := by
  obtain ⟨replicas, matchLabels, template⟩ := s
  have hlow := replicas.le_toInt
  have hhigh := replicas.toInt_lt
  have hnarrow : (Nat.pow 2 31 : Int) = 2 ^ 31 := rfl
  have hwide : (Nat.pow 2 63 : Int) = 2 ^ 63 := rfl
  have hreplicas : ∀ path n, Denotes (.word (toString replicas.toInt)) n →
      Gives (intBetween (-(Nat.pow 2 31)) (Nat.pow 2 31 - 1) "i32" path n) replicas.toInt := fun _ _ h =>
    gives_intBetween h (int?_toString _) (by omega) (by omega) (by omega) _
  have hselector : ∀ path n, Denotes (.record [("matchLabels", labelData matchLabels)]) n →
      Gives (single "struct LabelSelector" "matchLabels" (mapOf text) path n) matchLabels := fun _ _ h =>
    gives_single (fun _ _ h => gives_labels h) h
  refine gives_record (.read rfl hreplicas (.read rfl hselector (.read rfl (fun _ _ h => template.gives_decoder h) (.nil _))))
    (by simp) ?_ h _
  show Except.ok (⟨Int32.ofInt replicas.toInt, matchLabels, template⟩ : DeploymentSpec) = _
  rw [Int32.ofInt_toInt]

/-- **Deployments survive a round trip**: what is written for a deployment is read as the same deployment, and so is that
    of every operator. -/
theorem deployment_reads_back (d : Deployment) : Deployment.parse d.toYaml = .ok d := by
  obtain ⟨apiVersion, kind, metadata, spec⟩ := d
  have hwritten : FieldsReadBack [("apiVersion", .text apiVersion), ("kind", .text kind), ("metadata", metadata.toData),
      ("spec", spec.toData)] := ⟨trivial, trivial, metadata.readsBack_toData, spec.readsBack_toData, trivial⟩
  refine decodeText_document (List.cons_ne_nil _ _) hwritten fun n h => ?_
  refine gives_record (.read rfl (fun _ _ h => gives_textAs h _) (.read rfl (fun _ _ h => gives_textAs h _)
    (.read rfl (fun _ _ h => metadata.gives_decoder h) (.read rfl (fun _ _ h => spec.gives_decoder h) (.nil _)))))
    (by simp) ?_ h _
  rfl

end
end Manifest
end Scaffold
