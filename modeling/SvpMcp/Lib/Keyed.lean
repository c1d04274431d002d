import Mathlib.Data.List.Nodup

/-!
# Lists whose entries have distinct keys

A list that is read as an index by a key: no two places have the same key, so an entry
is the only one a search by its key can find.
-/

namespace SvpMcp

variable {α κ : Type} {key : α → κ} {entries : List α} {entry : α}

/-- No two places of a list have the same key. -/
def Keyed (key : α → κ) (entries : List α) : Prop := (entries.map key).Nodup

namespace Keyed

/-- Entries made from the numbers below a bound, each with a key of its own. -/
theorem range {make : Nat → α} {bound : Nat}
    (apart : ∀ i < bound, ∀ j < bound, key (make i) = key (make j) → i = j) :
    Keyed key ((List.range bound).map make) := by
  rw [Keyed, List.map_map]
  refine List.Nodup.map_on ?_ List.nodup_range
  intro i member j member' same
  exact apart i (List.mem_range.mp member) j (List.mem_range.mp member') same

/-- The key gives the entry. -/
theorem eq_of_key (keyed : Keyed key entries) {other : α} (member : entry ∈ entries)
    (member' : other ∈ entries) (same : key entry = key other) : entry = other :=
  List.inj_on_of_nodup_map keyed member member' same

/-- An entry is the only one with its key. -/
theorem filter_eq [DecidableEq κ] (keyed : Keyed key entries) (member : entry ∈ entries) :
    entries.filter (fun other => key other = key entry) = [entry] := by
  induction entries with
  | nil => cases member
  | cons first rest ih =>
    have distinct := List.nodup_cons.mp keyed
    rcases List.mem_cons.mp member with here | later
    · have none : rest.filter (fun other => key other = key entry) = [] := by
        rw [List.filter_eq_nil_iff]
        intro other isOther same
        refine distinct.1 ?_
        rw [← here, ← of_decide_eq_true same]
        exact List.mem_map_of_mem isOther
      rw [List.filter_cons_of_pos (by rw [here]; exact decide_eq_true rfl), none, here]
    · have differs : key first ≠ key entry := by
        intro same
        refine distinct.1 ?_
        rw [same]
        exact List.mem_map_of_mem later
      rw [List.filter_cons_of_neg (by simpa using differs)]
      exact ih distinct.2 later

end Keyed

end SvpMcp
