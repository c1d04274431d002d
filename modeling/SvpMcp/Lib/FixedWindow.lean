import Mathlib.Data.List.Basic

/-!
# One fixed-window counter

Windows start at the calls that open them, so an interval of a window's length meets at most
two of them.
-/

namespace SvpMcp.FixedWindow

/-- The open window of a counter. -/
structure Counter where
  count : Int
  start : Int
deriving DecidableEq, Repr

/-- What became of one call. -/
structure Verdict where
  /-- When it was made. -/
  time : Int
  /-- Whether it was within the limit. -/
  granted : Bool
  /-- Whether it started a window. -/
  opened : Bool
deriving DecidableEq, Repr

/-- Whether a call starts a window. -/
def opens (window : Int) (state : Option Counter) (now : Int) : Bool :=
  match state with
  | none => true
  | some c => decide (window ≤ now - c.start)

/-- The window after a call. -/
def next (window : Int) (state : Option Counter) (now : Int) : Counter :=
  match state with
  | none => ⟨1, now⟩
  | some c => if window ≤ now - c.start then ⟨1, now⟩ else ⟨c.count + 1, c.start⟩

/-- What becomes of a call. -/
def verdict (limit window : Int) (state : Option Counter) (now : Int) : Verdict :=
  ⟨now, opens window state now || decide ((next window state now).count ≤ limit),
    opens window state now⟩

/-- What becomes of the calls made at given times. -/
def verdicts (limit window : Int) (state : Option Counter) : List Int → List Verdict
  | [] => []
  | now :: rest =>
    verdict limit window state now :: verdicts limit window (some (next window state now)) rest

section Calls

variable {limit window now : Int} {c : Counter} {state : Option Counter}

/-- The first call of a window is allowed. -/
theorem verdict_open (limit : Int) (isOpen : opens window state now = true) :
    verdict limit window state now = ⟨now, true, true⟩ ∧ next window state now = ⟨1, now⟩ := by
  cases state with
  | none => exact ⟨rfl, rfl⟩
  | some c =>
    have elapsed : window ≤ now - c.start := of_decide_eq_true isOpen
    simp only [verdict, opens, next, if_pos elapsed, decide_eq_true elapsed, Bool.true_or,
      and_self]

/-- A later call is counted. -/
theorem verdict_running (limit : Int) (running : ¬ window ≤ now - c.start) :
    verdict limit window (some c) now = ⟨now, decide (c.count + 1 ≤ limit), false⟩ ∧
      next window (some c) now = ⟨c.count + 1, c.start⟩ := by
  simp only [verdict, opens, next, if_neg running, decide_eq_false running, Bool.false_or,
    and_self]

/-- A window that has elapsed counts as none. -/
theorem verdict_elapsed (limit : Int) (elapsed : window ≤ now - c.start) :
    verdict limit window (some c) now = verdict limit window none now ∧
      next window (some c) now = next window none now := by
  have isOpen : opens window (some c) now = true := decide_eq_true elapsed
  rw [(verdict_open limit isOpen).1, (verdict_open limit isOpen).2]
  exact ⟨rfl, rfl⟩

/-- A verdict is about a call made. -/
theorem time_of_mem_verdicts {times : List Int} {v : Verdict}
    (member : v ∈ verdicts limit window state times) : v.time ∈ times := by
  induction times generalizing state with
  | nil => exact absurd member List.not_mem_nil
  | cons now rest ih =>
    rcases List.mem_cons.mp member with isFirst | later
    · rw [isFirst]
      exact List.mem_cons_self
    · exact List.mem_cons_of_mem _ (ih later)

end Calls

section Window

variable {limit window : Int} {times : List Int}

/-- A tail of the verdicts is the verdicts of the counter reached there. -/
theorem verdicts_tail {state : Option Counter} {before after : List Verdict}
    (split : verdicts limit window state times = before ++ after) :
    ∃ reached later, after = verdicts limit window reached later := by
  induction before generalizing state times with
  | nil => exact ⟨state, times, split.symm⟩
  | cons v before ih =>
    cases times with
    | nil => exact absurd split (List.cons_ne_nil v _).symm
    | cons now rest => exact ih (List.cons.inj split).2

/-- The calls behind the start of a window are granted as long as the counter is within the
limit. -/
theorem granted_running {c : Counter} {calls after : List Verdict}
    (split : verdicts limit window (some c) times = calls ++ after)
    (running : ∀ v ∈ calls, v.opened = false) :
    calls.map (·.granted) =
      (List.range calls.length).map fun i => decide (c.count + (i + 1 : Nat) ≤ limit) := by
  induction calls generalizing c times with
  | nil => rfl
  | cons v calls ih =>
    cases times with
    | nil => exact absurd split (List.cons_ne_nil v _).symm
    | cons now rest =>
      obtain ⟨isFirst, isRest⟩ := List.cons.inj split
      have closed : v.opened = false := running v List.mem_cons_self
      have early : ¬ window ≤ now - c.start := by
        intro elapsed
        rw [← isFirst] at closed
        exact absurd (decide_eq_true elapsed) (by rw [show decide _ = false from closed]; decide)
      obtain ⟨granted, counter⟩ := verdict_running limit early
      rw [counter] at isRest
      have tails := ih isRest fun w member => running w (List.mem_cons_of_mem _ member)
      rw [List.map_cons, List.length_cons, List.range_succ_eq_map, List.map_cons, List.map_map,
        tails, ← isFirst, granted]
      congr 1
      apply List.map_congr_left
      intro i _
      simp only [Function.comp_apply, Nat.succ_eq_add_one]
      congr 1
      push_cast
      rw [eq_iff_iff]
      constructor <;> intro <;> omega

/-- From the start of a window to the start of the next exactly the first calls are granted, as
many as the limit. -/
theorem granted_window {state : Option Counter} {before calls after : List Verdict} {v : Verdict}
    (positive : 1 ≤ limit)
    (split : verdicts limit window state times = before ++ (v :: calls ++ after))
    (opened : v.opened = true) (running : ∀ w ∈ calls, w.opened = false) :
    (v :: calls).map (·.granted) =
      (List.range (calls.length + 1)).map fun (i : Nat) => decide ((i : Int) < limit) := by
  obtain ⟨reached, later, tail⟩ := verdicts_tail split
  cases later with
  | nil => exact absurd tail (List.cons_ne_nil v _)
  | cons now rest =>
    obtain ⟨isFirst, isRest⟩ := List.cons.inj tail
    have isOpen : opens window reached now = true := by
      rw [← opened, isFirst]
      rfl
    obtain ⟨granted, counter⟩ := verdict_open limit isOpen
    rw [counter] at isRest
    have tails := granted_running isRest.symm running
    rw [List.map_cons, List.range_succ_eq_map, List.map_cons, List.map_map, tails, isFirst, granted]
    congr 1
    · exact (decide_eq_true (show ((0 : Nat) : Int) < limit by omega)).symm
    · apply List.map_congr_left
      intro i _
      simp only [Function.comp_apply, Nat.succ_eq_add_one]
      congr 1
      push_cast
      rw [eq_iff_iff]
      constructor <;> intro <;> omega

end Window

/-- A granted call of the interval of a given length from an instant on. -/
def within (first length : Int) (v : Verdict) : Bool :=
  decide (v.granted = true ∧ first ≤ v.time ∧ v.time < first + length)

section Interval

variable {limit window first : Int} {times : List Int}

/-- Calls behind an interval are not in it. -/
theorem countP_late {length : Int} {state : Option Counter}
    (late : ∀ time ∈ times, first + length ≤ time) :
    (verdicts limit window state times).countP (within first length) = 0 := by
  rw [List.countP_eq_zero]
  intro v member inside
  have bound := late v.time (time_of_mem_verdicts member)
  have early := (of_decide_eq_true inside).2.2
  omega

/-- One call more counts at most one. -/
theorem countP_cons_le (first window : Int) (v : Verdict) (rest : List Verdict) :
    (v :: rest).countP (within first window) ≤ rest.countP (within first window) + 1 := by
  rw [List.countP_cons]
  split <;> omega

/-- A call of a running window adds one as long as the counter is within the limit. -/
theorem countP_step (limit first : Int) (rest : List Int) {c : Counter} {now : Int}
    (running : ¬ window ≤ now - c.start) :
    (verdicts limit window (some c) (now :: rest)).countP (within first window) ≤
      (verdicts limit window (some ⟨c.count + 1, c.start⟩) rest).countP (within first window) +
        if c.count + 1 ≤ limit then 1 else 0 := by
  obtain ⟨granted, counter⟩ := verdict_running limit running
  rw [verdicts, counter, granted]
  by_cases room : c.count + 1 ≤ limit
  · rw [if_pos room]
    exact countP_cons_le first window _ _
  · have refused : within first window ⟨now, decide (c.count + 1 ≤ limit), false⟩ = false := by
      simp [within, room]
    rw [if_neg room, List.countP_cons_of_neg (by rw [refused]; decide)]
    exact Nat.le_refl _

/-- Of a window that starts in an interval, the rest is all the interval sees. -/
theorem countP_started (limit window : Int) {c : Counter} (sorted : times.Pairwise (· ≤ ·))
    (started : first ≤ c.start) :
    (verdicts limit window (some c) times).countP (within first window) ≤
      (limit - c.count).toNat := by
  induction times generalizing c with
  | nil => exact Nat.zero_le _
  | cons now rest ih =>
    obtain ⟨bound, ordered⟩ := List.pairwise_cons.mp sorted
    by_cases elapsed : window ≤ now - c.start
    · have late : ∀ time ∈ now :: rest, first + window ≤ time := by
        intro time member
        have isLater : now ≤ time := by
          rcases List.mem_cons.mp member with isNow | later
          · omega
          · exact bound time later
        omega
      rw [countP_late late]
      exact Nat.zero_le _
    · have tail := ih (c := ⟨c.count + 1, c.start⟩) ordered started
      have step := countP_step limit first rest elapsed
      simp only at tail
      split at step <;> omega

/-- An interval sees at most the rest of the window it starts in and one whole window. -/
theorem countP_running (window : Int) {c : Counter} (sorted : times.Pairwise (· ≤ ·))
    (inside : ∀ time ∈ times, first ≤ time) (positive : 1 ≤ limit) :
    (verdicts limit window (some c) times).countP (within first window) ≤
      (limit - c.count).toNat + limit.toNat := by
  induction times generalizing c with
  | nil => exact Nat.zero_le _
  | cons now rest ih =>
    obtain ⟨_, ordered⟩ := List.pairwise_cons.mp sorted
    by_cases elapsed : window ≤ now - c.start
    · have isOpen : opens window (some c) now = true := decide_eq_true elapsed
      have tail := countP_started limit window (c := ⟨1, now⟩) ordered
        (inside now List.mem_cons_self)
      have head := countP_cons_le first window (verdict limit window (some c) now)
        (verdicts limit window (some ⟨1, now⟩) rest)
      rw [verdicts, (verdict_open limit isOpen).2]
      simp only at tail
      omega
    · have tail := ih (c := ⟨c.count + 1, c.start⟩) ordered
        fun time member => inside time (List.mem_cons_of_mem _ member)
      have step := countP_step limit first rest elapsed
      simp only at tail
      split at step <;> omega

/-- The counter of an open window has counted a call. -/
def Counted (state : Option Counter) : Prop := ∀ c, state = some c → 1 ≤ c.count

/-- No window has started. -/
theorem counted_none : Counted none := fun _ isSome => absurd isSome (Option.some_ne_none _).symm

/-- A window counts its first call. -/
theorem counted_next {state : Option Counter} {now : Int} (counted : Counted state) :
    Counted (some (next window state now)) := by
  intro c isNext
  rw [← Option.some.inj isNext]
  cases state with
  | none => exact Int.le_refl 1
  | some c =>
    have positive := counted c rfl
    unfold next
    simp only
    split
    · exact Int.le_refl 1
    · exact Int.le_trans positive (Int.le_add_of_nonneg_right (by decide))

/-- No interval of a window's length sees more than twice the limit. -/
theorem countP_interval (window : Int) {state : Option Counter} (sorted : times.Pairwise (· ≤ ·))
    (positive : 1 ≤ limit) (counted : Counted state) (first : Int) :
    (verdicts limit window state times).countP (within first window) ≤ 2 * limit.toNat := by
  induction times generalizing state with
  | nil => exact Nat.zero_le _
  | cons now rest ih =>
    obtain ⟨bound, ordered⟩ := List.pairwise_cons.mp sorted
    by_cases early : now < first
    · -- A call before the interval only moves the counter.
      have outside : within first window (verdict limit window state now) = false := by
        apply decide_eq_false
        intro inside
        exact absurd inside.2.1 (Int.not_le.mpr early)
      rw [verdicts, List.countP_cons_of_neg (by rw [outside]; decide)]
      exact ih ordered (counted_next counted)
    · have inside : ∀ time ∈ now :: rest, first ≤ time := by
        intro time member
        rcases List.mem_cons.mp member with isNow | later
        · omega
        · have := bound time later
          omega
      cases state with
      | some c =>
        have whole := countP_running window (c := c) sorted inside
          positive
        have := counted c rfl
        omega
      | none =>
        have tail := countP_started limit window (c := ⟨1, now⟩) ordered
          (inside now List.mem_cons_self)
        have head := countP_cons_le first window (verdict limit window none now)
          (verdicts limit window (some ⟨1, now⟩) rest)
        rw [verdicts]
        simp only [next] at tail ⊢
        omega

end Interval

end SvpMcp.FixedWindow
