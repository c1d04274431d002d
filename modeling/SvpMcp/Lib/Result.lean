import Mathlib.Init

/-!
# Results that can fail

What a successful result says about the steps it was put together from.
-/

namespace SvpMcp

variable {ε ε' α β : Type}

/-- Return an error if a condition holds. -/
def refuseIf (condition : Prop) [Decidable condition] (e : ε) : Except ε Unit :=
  if condition then .error e else .ok ()

/-- An error is no value. -/
theorem error_ne_ok {e : ε} {value : α} : (.error e : Except ε α) ≠ .ok value := by
  intro same
  cases same

variable {result : Except ε α}

/-- What is `isOk` has a value. -/
theorem exists_of_isOk (isOk : result.isOk = true) : ∃ value, result = .ok value := by
  cases result with
  | ok value => exact ⟨value, rfl⟩
  | error e => cases isOk

/-- A refusal is passed when its condition fails. -/
@[simp]
theorem refuseIf_eq_ok {condition : Prop} [Decidable condition] {e : ε} {value : Unit} :
    refuseIf condition e = .ok value ↔ ¬ condition := by
  simp [refuseIf]

/-- Returning a value succeeds with it. -/
@[simp]
theorem pure_eq_ok {value value' : α} : (pure value : Except ε α) = .ok value' ↔ value = value' :=
  Except.ok.injEq value value' ▸ Iff.rfl

/-- A sequence succeeds when both steps do. -/
@[simp]
theorem bind_eq_ok {first : Except ε α} {next : α → Except ε β} {result : β} :
    first >>= next = .ok result ↔ ∃ value, first = .ok value ∧ next value = .ok result := by
  cases first with
  | error e => simp [bind, Except.bind]
  | ok value => simp [bind, Except.bind]

/-- A function of a result succeeds when the result does. -/
@[simp]
theorem map_eq_ok {f : α → β} {value : β} :
    f <$> result = .ok value ↔ ∃ found, result = .ok found ∧ f found = value := by
  cases result with
  | error e => simp [Functor.map, Except.map]
  | ok found => simp [Functor.map, Except.map]

/-- Returning a value is no error. -/
theorem pure_eq_error {value : α} {e : ε} : (pure value : Except ε α) = .error e ↔ False := by
  constructor
  · intro same
    cases same
  · intro impossible
    cases impossible

/-- A sequence fails in its first step, or in the rest behind it. -/
theorem bind_eq_error {first : Except ε α} {next : α → Except ε β} {e : ε} :
    first >>= next = .error e ↔
      first = .error e ∨ ∃ value, first = .ok value ∧ next value = .error e := by
  cases first with
  | error e' =>
    constructor
    · intro fails
      cases fails
      exact Or.inl rfl
    · rintro (fails | ⟨_, isOk, _⟩)
      · cases fails
        rfl
      · cases isOk
  | ok value =>
    constructor
    · intro fails
      exact Or.inr ⟨value, rfl, fails⟩
    · rintro (fails | ⟨_, isOk, fails⟩)
      · cases fails
      · cases isOk
        exact fails

/-- Another error does not change a success. -/
@[simp]
theorem mapError_eq_ok {f : ε → ε'} {value : α} :
    result.mapError f = .ok value ↔ result = .ok value := by
  cases result with
  | ok found =>
    change (Except.ok found : Except ε' α) = .ok value ↔ _
    rw [Except.ok.injEq, Except.ok.injEq]
  | error e => exact iff_of_false error_ne_ok error_ne_ok

end SvpMcp
