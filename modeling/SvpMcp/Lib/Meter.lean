import Mathlib.Data.List.GetD
import Mathlib.Logic.Relation
import Mathlib.Tactic.Linarith
import Mathlib.Tactic.Ring

/-!
# A metered budget with checks before and records after

A party checks that its amount fits, acts, and only then records what it spent. The overrun is
bounded by the checks that are outstanding at once.
-/

namespace SvpMcp

/-- The recorded total and the outstanding amount of every party. -/
structure MeterState where
  used : Int
  /-- For each party, the amount it has checked and not yet recorded. -/
  slots : List (Option Int)

namespace MeterState

/-- The outstanding amounts together. -/
def outstanding : List (Option Int) → Int
  | [] => 0
  | slot :: rest => slot.getD 0 + outstanding rest

/-- The number of parties with an outstanding amount. -/
def inFlight : List (Option Int) → Nat
  | [] => 0
  | slot :: rest => (if slot.isSome then 1 else 0) + inFlight rest

/-- One step of a meter with the given budget. -/
inductive Step (budget : Int) : MeterState → MeterState → Prop where
  /-- A party with nothing outstanding checks an amount that still fits. -/
  | check (used : Int) (slots : List (Option Int)) (party : Nat) (amount : Int)
      (free : slots[party]? = some none) (positive : 0 < amount)
      (fits : used + amount ≤ budget) :
      Step budget ⟨used, slots⟩ ⟨used, slots.set party (some amount)⟩
  /-- A party records its outstanding amount; the total may saturate. -/
  | record (used used' : Int) (slots : List (Option Int)) (party : Nat) (amount : Int)
      (held : slots[party]? = some (some amount)) (lower : used ≤ used')
      (upper : used' ≤ used + amount) :
      Step budget ⟨used, slots⟩ ⟨used', slots.set party none⟩
  /-- A party gives up its outstanding amount. -/
  | release (used : Int) (slots : List (Option Int)) (party : Nat) :
      Step budget ⟨used, slots⟩ ⟨used, slots.set party none⟩
  /-- A step of something else. -/
  | idle (s : MeterState) : Step budget s s

/-- Runs in which at most `k` amounts are outstanding after every step. -/
abbrev Reaches (budget : Int) (k : Nat) : MeterState → MeterState → Prop :=
  Relation.ReflTransGen fun s t => Step budget s t ∧ inFlight t.slots ≤ k

/-- Replacing one slot changes the outstanding sum by the difference. -/
theorem outstanding_set (slots : List (Option Int)) (party : Nat) (old new : Option Int)
    (found : slots[party]? = some old) :
    outstanding (slots.set party new) = outstanding slots - old.getD 0 + new.getD 0 := by
  induction slots generalizing party with
  | nil => simp at found
  | cons slot rest ih =>
    cases party with
    | zero =>
      simp only [List.getElem?_cons_zero, Option.some.injEq] at found
      rw [List.set_cons_zero, outstanding, outstanding, found]
      omega
    | succ party =>
      rw [List.getElem?_cons_succ] at found
      rw [List.set_cons_succ, outstanding, outstanding, ih party found]
      omega

/-- Filling a free slot adds one outstanding amount. -/
theorem inFlight_set_some (slots : List (Option Int)) (party : Nat) (amount : Int)
    (free : slots[party]? = some none) :
    inFlight (slots.set party (some amount)) = inFlight slots + 1 := by
  induction slots generalizing party with
  | nil => simp at free
  | cons slot rest ih =>
    cases party with
    | zero =>
      simp only [List.getElem?_cons_zero, Option.some.injEq] at free
      rw [List.set_cons_zero, inFlight, inFlight, free]
      simp
      omega
    | succ party =>
      rw [List.getElem?_cons_succ] at free
      rw [List.set_cons_succ, inFlight, inFlight, ih party free]
      omega

/-- Amounts of at most `most` each sum to at most that for every one outstanding. -/
theorem outstanding_le (slots : List (Option Int)) (most : Int)
    (bounded : ∀ amount, some amount ∈ slots → amount ≤ most) :
    outstanding slots ≤ inFlight slots * most := by
  induction slots with
  | nil => simp [outstanding, inFlight]
  | cons slot rest ih =>
    have tail := ih fun amount member => bounded amount (List.mem_cons_of_mem _ member)
    cases slot with
    | none => simpa [outstanding, inFlight] using tail
    | some amount =>
      have head : amount ≤ most := bounded amount List.mem_cons_self
      simp only [outstanding, inFlight, Option.getD_some, Option.isSome_some, if_true]
      push_cast
      linarith

/-- Positive amounts have a non-negative sum. -/
theorem outstanding_nonneg (slots : List (Option Int))
    (positive : ∀ amount, some amount ∈ slots → 0 < amount) : 0 ≤ outstanding slots := by
  induction slots with
  | nil => simp [outstanding]
  | cons slot rest ih =>
    have tail := ih fun amount member => positive amount (List.mem_cons_of_mem _ member)
    cases slot with
    | none => simpa [outstanding] using tail
    | some amount =>
      have head : 0 < amount := positive amount List.mem_cons_self
      simp only [outstanding, Option.getD_some]
      omega

/-- The invariant of a run from total `start`: outstanding amounts are positive and within the
headroom at the start, and the total together with them stays within the overrun bound. -/
structure Bounded (budget start : Int) (k : Nat) (s : MeterState) : Prop where
  /-- The total never falls below the start. -/
  above : start ≤ s.used
  /-- Outstanding amounts are positive. -/
  positive : ∀ amount, some amount ∈ s.slots → 0 < amount
  /-- Outstanding amounts fit the headroom at the start. -/
  fits : ∀ amount, some amount ∈ s.slots → amount ≤ budget - start
  potential : s.used + outstanding s.slots ≤ budget + (k - 1 : Nat) * (budget - start)

/-- What holds of every amount of a list holds after an update by such an amount or by none. -/
theorem forall_set {P : Int → Prop} {slots : List (Option Int)} {party : Nat} {new : Option Int}
    (isNew : ∀ a, new = some a → P a) (old : ∀ a, some a ∈ slots → P a) :
    ∀ a, some a ∈ slots.set party new → P a := by
  intro a member
  rcases List.mem_or_eq_of_mem_set member with kept | equal
  · exact old a kept
  · exact isNew a equal.symm

/-- Every step with at most `k` amounts outstanding afterwards keeps the invariant. -/
theorem bounded_step {budget start : Int} {k : Nat} {s t : MeterState}
    (room : start ≤ budget) (bounded : Bounded budget start k s) (step : Step budget s t)
    (few : inFlight t.slots ≤ k) : Bounded budget start k t := by
  obtain ⟨above, positive, fits, potential⟩ := bounded
  cases step with
  | check used slots party amount free amountPositive amountFits =>
    have headroom : amount ≤ budget - start := by
      simp only at above
      omega
    have sum := outstanding_set slots party none (some amount) free
    have count := inFlight_set_some slots party amount free
    have others := outstanding_le slots (budget - start) fits
    -- The others number at most `k - 1`, each within the headroom at the start.
    have rest : (inFlight slots : Int) * (budget - start) ≤ (k - 1 : Nat) * (budget - start) := by
      have fewer : inFlight slots ≤ k - 1 := by
        simp only at few
        omega
      exact mul_le_mul_of_nonneg_right (by exact_mod_cast fewer) (by omega)
    refine ⟨above, ?_, ?_, ?_⟩
    · exact forall_set (fun _ isNew => by cases isNew; exact amountPositive) positive
    · exact forall_set (fun _ isNew => by cases isNew; exact headroom) fits
    · simp only [Option.getD_none, Option.getD_some] at sum
      simp only
      omega
  | record used used' slots party amount held lower upper =>
    have sum := outstanding_set slots party (some amount) none held
    simp only [Option.getD_none, Option.getD_some] at sum
    simp only at above potential
    refine ⟨?_, ?_, ?_, ?_⟩
    · simp only
      omega
    · exact forall_set (fun _ isNew => nomatch isNew) positive
    · exact forall_set (fun _ isNew => nomatch isNew) fits
    · simp only
      omega
  | release used slots party =>
    refine ⟨above, ?_, ?_, ?_⟩
    · exact forall_set (fun _ isNew => nomatch isNew) positive
    · exact forall_set (fun _ isNew => nomatch isNew) fits
    · cases found : slots[party]? with
      | none =>
        have unchanged : slots.set party none = slots :=
          List.set_eq_of_length_le (List.getElem?_eq_none_iff.mp found)
        simp only [unchanged]
        exact potential
      | some slot =>
        have sum := outstanding_set slots party slot none found
        have dropped : 0 ≤ slot.getD 0 := by
          cases slot with
          | none => exact le_refl 0
          | some amount =>
            exact le_of_lt (positive amount (List.mem_of_getElem? found))
        simp only [Option.getD_none] at sum
        simp only at potential ⊢
        omega
  | idle => exact ⟨above, positive, fits, potential⟩

/-- From a total within the budget and nothing outstanding, a run with at most `k` amounts
outstanding at a time records at most the budget plus `k - 1` times the headroom at the start. -/
theorem used_le_of_reaches {budget : Int} {k : Nat} {s t : MeterState} (room : s.used ≤ budget)
    (idle : ∀ slot ∈ s.slots, slot = none) (reaches : Reaches budget k s t) :
    t.used ≤ budget + (k - 1 : Nat) * (budget - s.used) := by
  have noAmount : ∀ amount, some amount ∉ s.slots := by
    intro amount member
    cases idle _ member
  have nothing : outstanding s.slots = 0 := by
    have upper := outstanding_le s.slots 0 fun amount member => absurd member (noAmount amount)
    have lower := outstanding_nonneg s.slots fun amount member => absurd member (noAmount amount)
    simp only [mul_zero] at upper
    omega
  have extra : 0 ≤ ((k - 1 : Nat) : Int) * (budget - s.used) :=
    mul_nonneg (by positivity) (by omega)
  have initial : Bounded budget s.used k s :=
    ⟨le_refl _, fun amount member => absurd member (noAmount amount),
      fun amount member => absurd member (noAmount amount), by omega⟩
  have final : Bounded budget s.used k t := by
    induction reaches with
    | refl => exact initial
    | tail _ step ih => exact bounded_step room ih step.1 step.2
  have lower := outstanding_nonneg t.slots final.positive
  have potential := final.potential
  omega

end MeterState

end SvpMcp
