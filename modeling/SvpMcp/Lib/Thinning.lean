import SvpMcp.Lib.Table

/-!
# Tables without their dead entries

A table that may lack dead entries, against the full one: a store that sweeps can be compared
with one that never does.
-/

namespace SvpMcp

variable {κ ν : Type} [DecidableEq κ]

/-- The second table is the first without some of its dead entries. -/
def Thinned (dead : ν → Prop) (full thin : Table κ ν) : Prop :=
  ∀ key, thin.get key = full.get key ∨
    thin.get key = none ∧ ∃ value, full.get key = some value ∧ dead value

namespace Thinned

variable {dead dead' : ν → Prop} {full thin : Table κ ν}

/-- Nothing need be dropped. -/
theorem refl (dead : ν → Prop) (table : Table κ ν) : Thinned dead table table :=
  fun _ => .inl rfl

/-- What counts as dead may grow. -/
theorem mono (thinned : Thinned dead full thin)
    (weaker : ∀ key value, full.get key = some value → dead value → dead' value) :
    Thinned dead' full thin := by
  intro key
  rcases thinned key with same | ⟨absent, value, present, isDead⟩
  · exact .inl same
  · exact .inr ⟨absent, value, present, weaker key value present isDead⟩

/-- What the thinner table has is in the full one. -/
theorem sub (thinned : Thinned dead full thin) {key : κ} {value : ν}
    (found : thin.get key = some value) : full.get key = some value := by
  rcases thinned key with same | ⟨absent, _⟩
  · rw [← same]
    exact found
  · rw [absent] at found
    cases found

/-- Both tables may be written. -/
theorem set (thinned : Thinned dead full thin) (key : κ) (value : ν) :
    Thinned dead (full.set key value) (thin.set key value) := by
  intro other
  rw [Table.get_set, Table.get_set]
  by_cases same : other = key
  · rw [if_pos same, if_pos same]
    exact .inl rfl
  · rw [if_neg same, if_neg same]
    exact thinned other

/-- Both tables may lose a key. -/
theorem delete (thinned : Thinned dead full thin) (key : κ) :
    Thinned dead (full.delete key) (thin.delete key) := by
  intro other
  rw [Table.get_delete, Table.get_delete]
  by_cases same : other = key
  · rw [if_pos same, if_pos same]
    exact .inl rfl
  · rw [if_neg same, if_neg same]
    exact thinned other

/-- Removing a dead entry. -/
theorem drop (thinned : Thinned dead full thin) {key : κ}
    (isDead : ∀ value, full.get key = some value → dead value) :
    Thinned dead full (thin.delete key) := by
  intro other
  rw [Table.get_delete]
  by_cases same : other = key
  · rw [if_pos same, same]
    cases present : full.get key with
    | none => exact .inl rfl
    | some value => exact .inr ⟨rfl, value, rfl, isDead value present⟩
  · rw [if_neg same]
    exact thinned other

/-- Dropping entries that are all dead. -/
theorem filter (thinned : Thinned dead full thin) {keep : ν → Prop} [DecidablePred keep]
    (dropped : ∀ value, ¬ keep value → dead value) :
    Thinned dead full (thin.filterMap fun _ value => if keep value then some value else none) := by
  intro key
  rw [Table.get_filterMap]
  cases found : thin.get key with
  | none =>
    rcases thinned key with same | ⟨_, present⟩
    · exact .inl (by rw [← same, found]; rfl)
    · exact .inr ⟨rfl, present⟩
  | some value =>
    have present := thinned.sub found
    rw [Option.bind_some]
    by_cases kept : keep value
    · rw [if_pos kept]
      exact .inl present.symm
    · rw [if_neg kept]
      exact .inr ⟨rfl, value, present, dropped value kept⟩

/-- What is alive is still there. -/
theorem alive (thinned : Thinned dead full thin) {key : κ} {value : ν}
    (found : full.get key = some value) (isAlive : ¬ dead value) : thin.get key = some value := by
  rcases thinned key with same | ⟨_, other, present, isDead⟩
  · rw [same, found]
  · cases found.symm.trans present
    exact absurd isDead isAlive

end Thinned

end SvpMcp
