import SvpMcp.Lib.Table

/-!
# Keys held for a while

A table keeps a key for its holder until a deadline. `Leases` relates it to the grants, so two
grants of one key are a full term apart in whatever order the holders came.
-/

namespace SvpMcp

/-- What the holders were granted, and from which instant, against the table of deadlines. -/
structure Leases {ι κ : Type} [DecidableEq κ] (ttl : Int) (table : Table κ Int)
    (granted : ι → Option (κ × Int)) : Prop where
  /-- The table keeps a grant for its term. -/
  kept : ∀ i key start, granted i = some (key, start) →
    ∃ deadline, table.get key = some deadline ∧ start + ttl ≤ deadline
  /-- The terms of two grants of a key do not overlap. -/
  apart : ∀ i j key start start', i ≠ j → granted i = some (key, start) →
    granted j = some (key, start') → start + ttl ≤ start' ∨ start' + ttl ≤ start

namespace Leases

variable {ι κ : Type} [DecidableEq κ] {ttl : Int} {table : Table κ Int}
  {granted granted' : ι → Option (κ × Int)}

/-- Before the first grant. -/
theorem start (ttl : Int) (table : Table κ Int) :
    Leases ttl table (fun _ : ι => none) where
  kept _ _ _ impossible := nomatch impossible
  apart _ _ _ _ _ _ impossible := nomatch impossible

/-- Fewer grants are covered too. -/
theorem mono (leases : Leases ttl table granted)
    (fewer : ∀ i grant, granted' i = some grant → granted i = some grant) :
    Leases ttl table granted' where
  kept i key start found := leases.kept i key start (fewer i _ found)
  apart i j key start start' distinct found found' :=
    leases.apart i j key start start' distinct (fewer i _ found) (fewer j _ found')

/-- A key whose deadline has passed is granted anew: the other grants keep their cover, and the
new one is a term away from them. -/
theorem grant (positive : 0 ≤ ttl) (leases : Leases ttl table granted) {key : κ} {now : Int}
    (free : ∀ deadline, table.get key = some deadline → deadline ≤ now) {i : ι}
    (new : granted' i = some (key, now)) (others : ∀ j, j ≠ i → granted' j = granted j) :
    Leases ttl (table.set key (now + ttl)) granted' := by
  -- An earlier grant of the key has ended.
  have ended : ∀ j start, j ≠ i → granted' j = some (key, start) → start + ttl ≤ now := by
    intro j start other found
    rw [others j other] at found
    obtain ⟨deadline, present, covered⟩ := leases.kept j key start found
    have passed := free deadline present
    omega
  constructor
  · intro j other start found
    rw [Table.get_set]
    by_cases same : other = key
    · rw [if_pos same]
      refine ⟨_, rfl, ?_⟩
      by_cases mine : j = i
      · rw [mine, new] at found
        cases found
        exact Int.le_refl _
      · rw [same] at found
        have before := ended j start mine found
        omega
    · rw [if_neg same]
      have notMine : j ≠ i := by
        intro mine
        rw [mine, new] at found
        cases found
        exact same rfl
      rw [others j notMine] at found
      exact leases.kept j other start found
  · intro j k other start start' distinct found found'
    by_cases mine : j = i
    · have notMine : k ≠ i := fun also => distinct (mine.trans also.symm)
      rw [mine, new] at found
      cases found
      exact .inr (ended k start' notMine found')
    · by_cases also : k = i
      · rw [also, new] at found'
        cases found'
        exact .inl (ended j start mine found)
      · rw [others j mine] at found
        rw [others k also] at found'
        exact leases.apart j k other start start' distinct found found'

/-- Any two instants are a negative term apart. -/
theorem apart_of_negative (negative : ttl < 0) (start start' : Int) :
    start + ttl ≤ start' ∨ start' + ttl ≤ start := by
  omega

end Leases

/-- Two lists with the separator after a part without it have the same parts. -/
theorem append_separator_inj {α : Type} {separator : α} {name name' text text' : List α}
    (plain : separator ∉ name) (plain' : separator ∉ name')
    (same : name ++ separator :: text = name' ++ separator :: text') :
    name = name' ∧ text = text' := by
  induction name generalizing name' with
  | nil =>
    cases name' with
    | nil => exact ⟨rfl, (List.cons.inj same).2⟩
    | cons c rest =>
      have head := (List.cons.inj same).1
      exact absurd (head ▸ List.mem_cons_self) plain'
  | cons c rest ih =>
    cases name' with
    | nil =>
      have head := (List.cons.inj same).1
      exact absurd (head ▸ List.mem_cons_self) plain
    | cons c' rest' =>
      have parts := List.cons.inj same
      have tails := ih (fun member => plain (List.mem_cons_of_mem _ member))
        (fun member => plain' (List.mem_cons_of_mem _ member)) parts.2
      rw [parts.1, tails.1]
      exact ⟨rfl, tails.2⟩

end SvpMcp
