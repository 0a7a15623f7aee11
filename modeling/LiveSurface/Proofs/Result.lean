/-!
# Mapped results

A change of what a result holds, or of what it fails with, neither makes nor hides a failure.
-/
namespace LiveSurface.Result

variable {ε ε' α β : Type} {result : Except ε α}

theorem map_eq_ok_iff {f : α → β} {b : β} :
    result.map f = .ok b ↔ ∃ a, result = .ok a ∧ f a = b := by
  cases result <;> simp [Except.map]

theorem map_eq_error_iff {f : α → β} {e : ε} : result.map f = .error e ↔ result = .error e := by
  cases result <;> simp [Except.map]

theorem mapError_eq_ok_iff {f : ε → ε'} {a : α} :
    result.mapError f = .ok a ↔ result = .ok a := by
  cases result with
  | error own => exact ⟨nofun, nofun⟩
  | ok b =>
    show Except.ok b = Except.ok a ↔ _
    rw [Except.ok.injEq, Except.ok.injEq]

theorem mapError_eq_error_iff {f : ε → ε'} {e : ε'} :
    result.mapError f = .error e ↔ ∃ own, result = .error own ∧ f own = e := by
  cases result with
  | error own =>
    constructor
    · intro same
      exact ⟨own, rfl, Except.error.inj same⟩
    · rintro ⟨_, ⟨⟩, rfl⟩
      rfl
  | ok a =>
    constructor
    · intro same
      cases same
    · rintro ⟨_, ⟨⟩, _⟩

end LiveSurface.Result
