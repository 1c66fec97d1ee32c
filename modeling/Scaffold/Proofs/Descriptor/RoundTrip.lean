import Scaffold.Descriptor.Reader
import Scaffold.Descriptor.Writer
import Scaffold.Proofs.Text.Newlines
import Scaffold.Proofs.Yaml.Decode

/-! A descriptor is read back from the text that is written for it, whatever its texts are. -/

namespace Scaffold
open Yaml Data Decode

section
variable {p : Phase} {d : Descriptor} {path : Path} {n : Node}

/-! ### What is written -/

theorem Phase.readsBack_toData (p : Phase) : ReadsBack p.toData := by
  obtain ⟨name, description, inputs, outputs⟩ := p
  have hlists : FieldsReadBack [("inputs", texts inputs), ("outputs", texts outputs)] :=
    ⟨readsBack_texts inputs, readsBack_texts outputs, trivial⟩
  cases description with
  | none => exact ⟨trivial, hlists⟩
  | some text => exact ⟨trivial, trivial, hlists⟩

theorem Descriptor.fieldsReadBack_toFields (d : Descriptor) : FieldsReadBack d.toFields := by
  obtain ⟨apiVersion, kind, operatorName, phases⟩ := d
  have hphases : ItemsReadBack (phases.map Phase.toData) :=
    itemsReadBack_iff.mpr (List.forall_mem_map.mpr fun p _ => ⟨trivial, p.readsBack_toData⟩)
  cases operatorName with
  | none => exact ⟨trivial, trivial, hphases, trivial⟩
  | some text => exact ⟨trivial, trivial, trivial, hphases, trivial⟩

/-! ### What is read -/

theorem Phase.gives_decoder (p : Phase) (path : Path) (n : Node) (h : Denotes p.toData n) : Gives (Phase.decoder path n) p := by
  obtain ⟨name, description, inputs, outputs⟩ := p
  have hlists : ∀ f : PhaseFields, Sets PhaseFields.field [("inputs", texts inputs), ("outputs", texts outputs)] f
      { f with inputs := some inputs, outputs := some outputs } := fun f =>
    .read rfl (fun _ _ h => gives_texts h) (.read rfl (fun _ _ h => gives_texts h) (.nil _))
  cases description with
  | none =>
    have hsets : Sets PhaseFields.field [("name", .text name), ("inputs", texts inputs), ("outputs", texts outputs)] .empty
        ⟨some name, none, some inputs, some outputs⟩ :=
      .read rfl (fun _ _ h => gives_textAs h _) (hlists _)
    exact gives_record hsets (by simp) (by rfl) h _
  | some s =>
    have hsets : Sets PhaseFields.field [("name", .text name), ("description", .text s), ("inputs", texts inputs),
        ("outputs", texts outputs)] .empty ⟨some name, some (some s), some inputs, some outputs⟩ :=
      .read rfl (fun _ _ h => gives_textAs h _) (.read rfl (fun _ _ h => gives_optional_text h) (hlists _))
    exact gives_record hsets (by simp) (by rfl) h _

theorem Descriptor.gives_decoder (d : Descriptor) (path : Path) (n : Node) (h : Denotes (.record d.toFields) n) :
    Gives (Descriptor.decoder path n) d := by
  obtain ⟨apiVersion, kind, operatorName, phases⟩ := d
  have hphases : ∀ f : DescriptorFields, Sets DescriptorFields.field [("phases", .list (phases.map Phase.toData))] f
      { f with phases := some phases } := fun f =>
    .read rfl (fun _ _ h => gives_list (fun p _ path n hn => p.gives_decoder path n hn) h) (.nil _)
  have hstart : ∀ {fields : List (String × Data)} {f : DescriptorFields},
      Sets DescriptorFields.field fields ⟨some apiVersion, some kind, none, none⟩ f →
        Sets DescriptorFields.field (("apiVersion", .text apiVersion) :: ("kind", .text kind) :: fields) .empty f := fun hrest =>
    .read rfl (fun _ _ h => gives_textAs h _) (.read rfl (fun _ _ h => gives_textAs h _) hrest)
  cases operatorName with
  | none => exact gives_record (hstart (hphases _)) (by simp) (by rfl) h _
  | some s =>
    exact gives_record (hstart (.read rfl (fun _ _ h => gives_optional_text h) (hphases _))) (by simp) (by rfl) h _

/-- What is written for a descriptor is read as the descriptor. -/
theorem Descriptor.parse_toYaml (d : Descriptor) : Descriptor.parse (Text.encode d.toYaml) = .ok d := by
  have hne : d.toFields ≠ [] := List.cons_ne_nil _ _
  have hread := decodeText_document hne d.fieldsReadBack_toFields fun n hn => d.gives_decoder [] n hn
  have hbytes : decodeBytes decoder (Text.encode d.toYaml) = .ok d := by
    rw [decodeBytes, Text.decode?_encode]
    exact hread
  rw [parse, hbytes]

end

end Scaffold
