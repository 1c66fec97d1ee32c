/-! Programs that may fail, and programs that run on a state: what their steps one after another come to. -/

namespace Scaffold

theorem mapError_eq_ok {ε ε' α : Type} {x : Except ε α} {f : ε → ε'} {a : α} : x.mapError f = .ok a ↔ x = .ok a := by
  cases x with
  | error e => exact ⟨nofun, nofun⟩
  | ok b => exact ⟨fun h => congrArg _ (Except.ok.inj h), fun h => congrArg _ (Except.ok.inj h)⟩

theorem bind_eq_ok {ε α β : Type} {x : Except ε α} {f : α → Except ε β} {b : β} :
    (x >>= f) = .ok b ↔ ∃ a, x = .ok a ∧ f a = .ok b := by
  cases x <;> simp [bind, Except.bind]

theorem bind_of_some {α β : Type} {o : Option α} {a : α} {f : α → Option β} (h : o = some a) : o >>= f = f a := by
  rw [h, Option.bind_eq_bind, Option.bind_some]

section State
variable {σ α β : Type}

@[simp] theorem bind_run (x : StateM σ α) (f : α → StateM σ β) (s : σ) : (x >>= f) s = f (x s).1 (x s).2 := rfl

@[simp] theorem pure_run (a : α) (s : σ) : (pure a : StateM σ α) s = (a, s) := rfl

end State

theorem eq_ok_of_toOption {ε α : Type} {x : Except ε α} {a : α} (h : x.toOption = some a) : x = .ok a := by
  cases x with
  | error e => cases h
  | ok b => rw [Option.some.inj h]

end Scaffold
