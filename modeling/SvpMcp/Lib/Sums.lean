import Mathlib.Data.List.DropRight
import Mathlib.Data.List.Nodup
import Mathlib.Data.List.Perm.Lattice

/-!
# Sums over lists of keys

A sum of integers over a list, with the rules that compare sums over different lists:
lists without repetition that differ only where the summand is zero have one sum.
-/

namespace SvpMcp

variable {α : Type}

/-- The sum of a function over a list. -/
def sumOver (total : α → Int) : List α → Int
  | [] => 0
  | id :: rest => total id + sumOver total rest

/-- The sum over two lists. -/
theorem sumOver_append (total : α → Int) (first second : List α) :
    sumOver total (first ++ second) = sumOver total first + sumOver total second := by
  induction first with
  | nil => simp [sumOver]
  | cons id rest ih =>
    rw [List.cons_append, sumOver, sumOver, ih]
    omega

/-- The sum over the last elements that satisfy a predicate, with one more element. -/
theorem sumOver_rtakeWhile (total : α → Int) (p : α → Bool) (ids : List α) (id : α) :
    sumOver total ((ids ++ [id]).rtakeWhile p) =
      if p id then sumOver total (ids.rtakeWhile p) + total id else 0 := by
  rw [List.rtakeWhile_concat]
  split
  · rw [sumOver_append, sumOver, sumOver, Int.add_zero]
  · rfl

variable {total : α → Int} {ids : List α}

/-- A sum of such is not negative. -/
theorem sumOver_nonneg (nonneg : ∀ id, 0 ≤ total id) (ids : List α) : 0 ≤ sumOver total ids := by
  induction ids with
  | nil => exact Int.le_refl 0
  | cons id rest ih =>
    have here := nonneg id
    rw [sumOver]
    omega

/-- A bound of the terms bounds the sum. -/
theorem sumOver_le {cap : Nat} (bounded : ∀ id, total id ≤ cap) (ids : List α) :
    sumOver total ids ≤ (ids.length * cap : Nat) := by
  induction ids with
  | nil => simp [sumOver]
  | cons id rest ih =>
    have here := bounded id
    rw [sumOver, List.length_cons, Nat.succ_mul]
    omega

/-- A sum grows with its terms. -/
theorem sumOver_mono {total' : α → Int} (grows : ∀ id, total id ≤ total' id) (ids : List α) :
    sumOver total ids ≤ sumOver total' ids := by
  induction ids with
  | nil => exact Int.le_refl 0
  | cons id rest ih =>
    have here := grows id
    rw [sumOver, sumOver]
    omega

/-- An amount added at one of the keys shows in the sum. -/
theorem sumOver_add {total' : α → Int} {id : α} {q : Nat}
    (grows : ∀ other, total other ≤ total' other) (added : total' id = total id + q)
    (member : id ∈ ids) : sumOver total ids + q ≤ sumOver total' ids := by
  induction ids with
  | nil => exact absurd member List.not_mem_nil
  | cons other rest ih =>
    have here := grows other
    rw [sumOver, sumOver]
    rcases List.mem_cons.mp member with rfl | inRest
    · have tail := sumOver_mono grows rest
      omega
    · have tail := ih inRest
      omega

/-- Equal terms have equal sums. -/
theorem sumOver_congr {total' : α → Int} (same : ∀ id ∈ ids, total id = total' id) :
    sumOver total ids = sumOver total' ids := by
  induction ids with
  | nil => rfl
  | cons id rest ih =>
    rw [sumOver, sumOver, same id List.mem_cons_self,
      ih fun other member => same other (List.mem_cons_of_mem id member)]

/-- The sum of the differences. -/
theorem sumOver_sub (total total' : α → Int) (ids : List α) :
    sumOver (fun id => total id - total' id) ids = sumOver total ids - sumOver total' ids := by
  induction ids with
  | nil => rfl
  | cons id rest ih =>
    rw [sumOver, sumOver, sumOver, ih]
    omega

/-- A sum that changes at one key only, which the list has once. -/
theorem sumOver_update {total' : α → Int} {id : α} (nodup : ids.Nodup) (member : id ∈ ids)
    (same : ∀ other, other ≠ id → total' other = total other) :
    sumOver total' ids = sumOver total ids + (total' id - total id) := by
  induction ids with
  | nil => exact absurd member List.not_mem_nil
  | cons first rest ih =>
    obtain ⟨fresh, nodupRest⟩ := List.nodup_cons.mp nodup
    rw [sumOver, sumOver]
    rcases List.mem_cons.mp member with rfl | inRest
    · have tail : sumOver total' rest = sumOver total rest :=
        sumOver_congr fun other inTail => same other fun eq => fresh (eq ▸ inTail)
      omega
    · have tail := ih nodupRest inRest
      have here := same first fun eq => fresh (eq ▸ inRest)
      omega

/-- The order does not count. -/
theorem sumOver_perm {ids' : List α} (perm : ids.Perm ids') :
    sumOver total ids = sumOver total ids' := by
  induction perm with
  | nil => rfl
  | cons id _ ih => rw [sumOver, sumOver, ih]
  | swap first second rest =>
    rw [sumOver, sumOver, sumOver, sumOver]
    omega
  | trans _ _ ih₁ ih₂ => exact ih₁.trans ih₂

/-- The sum over a list that has a key once, with that key apart. -/
theorem sumOver_others [DecidableEq α] {id : α} (nodup : ids.Nodup) (member : id ∈ ids) :
    sumOver total ids = total id + sumOver total (ids.filter (· ≠ id)) := by
  have others : ids.erase id = ids.filter (· ≠ id) := by
    rw [nodup.erase_eq_filter]
    apply List.filter_congr
    intro other _
    simp [bne, Bool.beq_eq_decide_eq]
  rw [sumOver_perm (List.perm_cons_erase member), sumOver, others]

/-- A sum is the sum over the keys that satisfy a predicate and over those that do not. -/
theorem sumOver_filter (total : α → Int) (p : α → Bool) (ids : List α) :
    sumOver total ids =
      sumOver total (ids.filter p) + sumOver total (ids.filter fun id => !p id) := by
  induction ids with
  | nil => rfl
  | cons id rest ih =>
    cases holds : p id with
    | true =>
      rw [List.filter_cons_of_pos holds, List.filter_cons_of_neg (by simp [holds]), sumOver,
        sumOver, ih]
      omega
    | false =>
      rw [List.filter_cons_of_neg (by simp [holds]), List.filter_cons_of_pos (by simp [holds]),
        sumOver, sumOver, ih]
      omega

/-- Zeros sum to zero. -/
theorem sumOver_eq_zero (zero : ∀ id ∈ ids, total id = 0) : sumOver total ids = 0 := by
  induction ids with
  | nil => rfl
  | cons id rest ih =>
    rw [sumOver, zero id List.mem_cons_self,
      ih fun other member => zero other (List.mem_cons_of_mem id member)]
    rfl

/-- A sum of non-negative values is zero only if each of them is. -/
theorem sumOver_eq_zero_iff (nonneg : ∀ id, 0 ≤ total id) :
    sumOver total ids = 0 ↔ ∀ id ∈ ids, total id = 0 := by
  refine ⟨fun isZero => ?_, sumOver_eq_zero⟩
  induction ids with
  | nil =>
    intro id member
    exact absurd member List.not_mem_nil
  | cons first rest ih =>
    rw [sumOver] at isZero
    have here := nonneg first
    have tail := sumOver_nonneg nonneg rest
    intro id member
    rcases List.mem_cons.mp member with rfl | inRest
    · omega
    · exact ih (by omega) id inRest

/-- The sum over a list whose keys outside another list count nothing: it lacks exactly the keys of
the other list that it does not have. -/
theorem sumOver_restrict [DecidableEq α] {full : List α} (nodup : ids.Nodup)
    (nodupFull : full.Nodup) (outside : ∀ id ∈ ids, id ∉ full → total id = 0) :
    sumOver total full = sumOver total ids + sumOver total (full.filter fun id => id ∉ ids) := by
  have common : (ids.filter fun id => id ∈ full).Perm (full.filter fun id => id ∈ ids) := by
    apply (List.perm_ext_iff_of_nodup (nodup.filter _) (nodupFull.filter _)).mpr
    intro id
    simp only [List.mem_filter, decide_eq_true_eq]
    exact And.comm
  have rest : sumOver total (ids.filter fun id => !decide (id ∈ full)) = 0 := by
    apply sumOver_eq_zero
    intro id member
    obtain ⟨inIds, notFull⟩ := List.mem_filter.mp member
    exact outside id inIds (by simpa using notFull)
  have splitIds := sumOver_filter total (fun id => id ∈ full) ids
  have splitFull := sumOver_filter total (fun id => id ∈ ids) full
  have missing : (full.filter fun id => !decide (id ∈ ids)) = full.filter fun id => id ∉ ids := by
    apply List.filter_congr
    intro id _
    simp
  rw [splitFull, splitIds, rest, missing, sumOver_perm common]
  omega

section Loop

variable {β ε κ : Type} {f : β → α → Except ε β} {fine : α → Prop} {fault : ε}
  {total : β → κ → Int} {weight : κ → α → Int}

/-- A loop whose turn fails on the elements that are not fine, and adds the weight of the others,
fails if one of its elements is not fine, and adds the weights of all of them otherwise. -/
theorem foldlM_adds
    (turn : ∀ b a, (fine a ∧ ∃ b', f b a = .ok b' ∧ ∀ k, total b' k = total b k + weight k a) ∨
      (¬ fine a ∧ f b a = .error fault)) (elements : List α) (b : β) :
    ((∀ a ∈ elements, fine a) ∧ ∃ b', elements.foldlM f b = .ok b' ∧
        ∀ k, total b' k = total b k + sumOver (weight k) elements) ∨
      ((∃ a ∈ elements, ¬ fine a) ∧ elements.foldlM f b = .error fault) := by
  induction elements generalizing b with
  | nil => exact .inl ⟨by simp, b, rfl, fun k => (Int.add_zero _).symm⟩
  | cons a rest ih =>
    rw [List.foldlM_cons]
    rcases turn b a with ⟨isFine, next, added, here⟩ | ⟨notFine, failed⟩
    · rw [added]
      rcases ih next with ⟨allFine, last, folded, totals⟩ | ⟨⟨bad, member, notFine⟩, failed⟩
      · refine .inl ⟨List.forall_mem_cons.mpr ⟨isFine, allFine⟩, last, folded, ?_⟩
        intro k
        rw [totals, here, sumOver, Int.add_assoc]
      · exact .inr ⟨⟨bad, List.mem_cons_of_mem _ member, notFine⟩, failed⟩
    · rw [failed]
      exact .inr ⟨⟨a, List.mem_cons_self, notFine⟩, rfl⟩

end Loop

end SvpMcp
