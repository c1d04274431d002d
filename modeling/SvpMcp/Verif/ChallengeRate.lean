import SvpMcp.Lib.FixedWindow
import SvpMcp.Verif.Sweeping

/-!
# How often an address is allowed a challenge

Calls of other addresses do not touch an address's counter, and a sweep removes it only when its
window has elapsed: the bounds are those of one counter.
-/

namespace SvpMcp

open Calendar FixedWindow

/-- The calls of the limiter. -/
inductive LimiterCall where
  | allow (ip : String)
  | sweep
deriving DecidableEq, Repr

/-- A call and what the clock showed to it. -/
structure LimiterEvent where
  now : Time
  call : LimiterCall
deriving DecidableEq, Repr

/-- Whether a call of an address starts a window. -/
def IPRateLimiter.opensWindow (l : IPRateLimiter) (now : Time) (ip : String) : Bool :=
  match l.entries.get ip with
  | none => true
  | some e => decide (now - e.windowStart ≥ l.window)

/-- What the calls of one address return, in a run with calls of any address and sweeps. -/
def verdictsOf (ip : String) (l : IPRateLimiter) : List LimiterEvent → List Verdict
  | [] => []
  | ⟨now, .allow caller⟩ :: rest =>
    if caller = ip then
      ⟨now, (l.allow now ip).1, l.opensWindow now ip⟩ :: verdictsOf ip (l.allow now ip).2 rest
    else verdictsOf ip (l.allow now caller).2 rest
  | ⟨now, .sweep⟩ :: rest => verdictsOf ip (l.sweep now) rest

/-- When one address calls. -/
def callTimes (ip : String) : List LimiterEvent → List Time
  | [] => []
  | ⟨now, .allow caller⟩ :: rest =>
    if caller = ip then now :: callTimes ip rest else callTimes ip rest
  | ⟨_, .sweep⟩ :: rest => callTimes ip rest

/-- The clock does not run backwards. -/
def ClockOrdered (events : List LimiterEvent) : Prop :=
  events.Pairwise fun earlier later => earlier.now ≤ later.now

/-- The counter of an address. -/
def IPRateLimiter.counter (l : IPRateLimiter) (ip : String) : Option Counter :=
  (l.entries.get ip).map fun e => ⟨e.count, e.windowStart⟩

section Counters

variable {l : IPRateLimiter} {ip : String}

/-- A call counts in its window. -/
theorem allow_counter (named : ip ≠ "") (now : Time) :
    (⟨now, (l.allow now ip).1, l.opensWindow now ip⟩ : Verdict) =
        verdict l.max l.window (l.counter ip) now ∧
      (l.allow now ip).2.counter ip = some (next l.window (l.counter ip) now) := by
  unfold IPRateLimiter.allow IPRateLimiter.opensWindow IPRateLimiter.counter
  rw [if_neg named]
  cases found : l.entries.get ip with
  | none =>
    simp only [Table.get_set_self]
    exact ⟨rfl, rfl⟩
  | some e =>
    by_cases elapsed : l.window ≤ now - e.windowStart
    · simp only [ge_iff_le, if_pos elapsed, Table.get_set_self, Option.map_some, verdict, opens,
        next, decide_eq_true elapsed, Bool.true_or, and_self]
    · simp only [ge_iff_le, if_neg elapsed, Table.get_set_self, Option.map_some, verdict, opens,
        next, decide_eq_false elapsed, Bool.false_or, and_self]

/-- A call of another address leaves the counter alone. -/
theorem allow_counter_other {caller : String} (other : caller ≠ ip) (now : Time) :
    (l.allow now caller).2.counter ip = l.counter ip := by
  have untouched (e : IpEntry) : (l.entries.set caller e).get ip = l.entries.get ip := by
    rw [Table.get_set, if_neg (Ne.symm other)]
  unfold IPRateLimiter.allow IPRateLimiter.counter
  split
  · rfl
  · cases l.entries.get caller with
    | none => rw [untouched]
    | some e =>
      simp only
      split <;> rw [untouched]

/-- A sweep removes a counter only when its window has elapsed. -/
theorem sweep_counter (l : IPRateLimiter) (ip : String) (now : Time) :
    (l.sweep now).counter ip = l.counter ip ∨
      (l.sweep now).counter ip = none ∧
        ∃ c, l.counter ip = some c ∧ l.window ≤ now - c.start := by
  unfold IPRateLimiter.sweep IPRateLimiter.counter
  rw [Table.get_filterMap]
  cases l.entries.get ip with
  | none => exact .inl rfl
  | some e =>
    by_cases elapsed : l.window ≤ now - e.windowStart
    · right
      constructor
      · simp only [Option.bind_some, ge_iff_le, if_pos elapsed, Option.map_none]
      · exact ⟨⟨e.count, e.windowStart⟩, rfl, elapsed⟩
    · left
      simp only [Option.bind_some, ge_iff_le, if_neg elapsed]

end Counters

/-- The limiter's counter stands for an abstract one in the calls to come: it is the same, or it
was removed and the window has elapsed by then. -/
def StandsFor (window : Int) (events : List LimiterEvent) (kept full : Option Counter) : Prop :=
  kept = full ∨
    kept = none ∧ ∃ c, full = some c ∧ ∀ event ∈ events, window ≤ event.now - c.start

section Runs

variable {window : Int} {event : LimiterEvent} {rest : List LimiterEvent}
  {kept full : Option Counter}

/-- It does so later on. -/
theorem StandsFor.tail (stands : StandsFor window (event :: rest) kept full) :
    StandsFor window rest kept full := by
  rcases stands with same | ⟨absent, c, isFull, elapsed⟩
  · exact .inl same
  · exact .inr ⟨absent, c, isFull, fun later member =>
      elapsed later (List.mem_cons_of_mem _ member)⟩

/-- Both give one verdict. -/
theorem StandsFor.verdict (limit : Int) (stands : StandsFor window (event :: rest) kept full) :
    verdict limit window kept event.now = verdict limit window full event.now ∧
      next window kept event.now = next window full event.now := by
  rcases stands with same | ⟨absent, c, isFull, elapsed⟩
  · rw [same]
    exact ⟨rfl, rfl⟩
  · have atEvent := verdict_elapsed limit (elapsed event List.mem_cons_self)
    rw [absent, isFull]
    exact ⟨atEvent.1.symm, atEvent.2.symm⟩

/-- What an address is told is what one counter tells it at the times of its own calls. -/
theorem verdictsOf_eq {ip : String} (named : ip ≠ "") {events : List LimiterEvent}
    (ordered : ClockOrdered events) {l : IPRateLimiter}
    (stands : StandsFor l.window events (l.counter ip) full) :
    verdictsOf ip l events = verdicts l.max l.window full (callTimes ip events) := by
  induction events generalizing l full with
  | nil => rfl
  | cons event rest ih =>
    obtain ⟨bound, sorted⟩ := List.pairwise_cons.mp ordered
    obtain ⟨now, call⟩ := event
    cases call with
    | allow caller =>
      obtain ⟨sameMax, sameWindow⟩ := allow_config l now caller
      by_cases own : caller = ip
      · subst own
        obtain ⟨isVerdict, isNext⟩ := allow_counter (l := l) named now
        obtain ⟨agree, agreeNext⟩ := stands.verdict l.max
        have later := ih sorted (l := (l.allow now caller).2)
          (.inl (isNext.trans (congrArg some agreeNext)))
        rw [verdictsOf, if_pos rfl, callTimes, if_pos rfl, verdicts, isVerdict, later, sameMax,
          sameWindow]
        rw [agree]
      · have stays : StandsFor (l.allow now caller).2.window rest
            ((l.allow now caller).2.counter ip) full := by
          rw [sameWindow, allow_counter_other own now]
          exact stands.tail
        have later := ih sorted stays
        rw [verdictsOf, if_neg own, callTimes, if_neg own, later, sameMax, sameWindow]
    | sweep =>
      have kept : StandsFor l.window rest ((l.sweep now).counter ip) full := by
        rcases sweep_counter l ip now with same | ⟨absent, c, present, elapsed⟩
        · rw [same]
          exact stands.tail
        · rcases stands with same | ⟨missing, _⟩
          · refine .inr ⟨absent, c, same ▸ present, fun later member => ?_⟩
            exact Int.le_trans elapsed (Int.sub_le_sub_right (bound later member) _)
          · exact absurd (missing.symm.trans present) (by simp)
      exact ih sorted (l := l.sweep now) kept

/-- A call time is an event's. -/
theorem mem_callTimes {ip : String} {time : Time} {events : List LimiterEvent}
    (member : time ∈ callTimes ip events) : ∃ event ∈ events, event.now = time := by
  induction events with
  | nil => exact absurd member List.not_mem_nil
  | cons event rest ih =>
    have older : time ∈ callTimes ip rest → ∃ e ∈ event :: rest, e.now = time := by
      intro later
      obtain ⟨e, inRest, isTime⟩ := ih later
      exact ⟨e, List.mem_cons_of_mem _ inRest, isTime⟩
    obtain ⟨now, call⟩ := event
    cases call with
    | sweep => exact older member
    | allow caller =>
      unfold callTimes at member
      split at member
      · rcases List.mem_cons.mp member with isNow | later
        · exact ⟨_, List.mem_cons_self, isNow.symm⟩
        · exact older later
      · exact older member

/-- The call times are in order. -/
theorem callTimes_sorted (ip : String) {events : List LimiterEvent}
    (ordered : ClockOrdered events) : (callTimes ip events).Pairwise (· ≤ ·) := by
  induction events with
  | nil => exact List.Pairwise.nil
  | cons event rest ih =>
    obtain ⟨bound, sorted⟩ := List.pairwise_cons.mp ordered
    obtain ⟨now, call⟩ := event
    cases call with
    | sweep => exact ih sorted
    | allow caller =>
      unfold callTimes
      split
      · refine List.pairwise_cons.mpr ⟨fun time member => ?_, ih sorted⟩
        obtain ⟨later, inRest, isTime⟩ := mem_callTimes member
        exact isTime ▸ bound later inRest
      · exact ih sorted

end Runs

section Bounds

variable {max window : Int} {ip : String} {events : List LimiterEvent}

/-- A new limiter has no window. -/
theorem verdictsOf_new (named : ip ≠ "") (ordered : ClockOrdered events) :
    verdictsOf ip (newIPRateLimiter max window) events =
      verdicts max window none (callTimes ip events) :=
  verdictsOf_eq named ordered (l := newIPRateLimiter max window) (.inl rfl)

end Bounds

/-- In a run of a limiter, with any addresses, sweeps at any points and a clock that does not run
backwards: an interval of the window's length has at most twice the maximum of granted calls of an
address, the first call of an address starts a window, from the start of a window to the start of
the next exactly the first calls up to the maximum are granted, and a run with the same calls of
this address, whatever else is in it, gives the same results. -/
theorem challenge_rate_bound (max window : Int) (positive : 1 ≤ max) (ip : String)
    (named : ip ≠ "") (events : List LimiterEvent) (ordered : ClockOrdered events) :
    (∀ first : Time, ((verdictsOf ip (newIPRateLimiter max window) events).countP fun v =>
      decide (v.granted = true ∧ first ≤ v.time ∧ v.time < first + window)) ≤ 2 * max) ∧
    (∀ v ∈ (verdictsOf ip (newIPRateLimiter max window) events).head?, v.opened = true) ∧
    (∀ before v calls after,
      verdictsOf ip (newIPRateLimiter max window) events = before ++ (v :: calls ++ after) →
      v.opened = true → (∀ w ∈ calls, w.opened = false) →
      (v :: calls).map (·.granted) =
        (List.range (calls.length + 1)).map fun (i : Nat) => decide ((i : Int) < max)) ∧
    ∀ events', ClockOrdered events' → callTimes ip events' = callTimes ip events →
      verdictsOf ip (newIPRateLimiter max window) events' =
        verdictsOf ip (newIPRateLimiter max window) events := by
  rw [verdictsOf_new named ordered]
  refine ⟨fun first => ?_, ?_, fun before v calls after split opened running =>
    granted_window positive split opened running, fun events' ordered' same => ?_⟩
  · have bound := countP_interval window (callTimes_sorted ip ordered) positive counted_none first
    change ((List.countP (within first window) _ : Nat) : Int) ≤ 2 * max
    omega
  · cases callTimes ip events with
    | nil => intro v isHead; exact absurd isHead (by simp [verdicts])
    | cons now rest => intro v isHead; rw [← Option.some.inj isHead]; rfl
  · rw [verdictsOf_new named ordered', same]

/-- Two calls of one address in one window and one in the next, with a sweep and a call of another
address between them. -/
def busyRun : List LimiterEvent :=
  [⟨0, .allow "ip"⟩, ⟨3, .allow "ip"⟩, ⟨4, .allow "other"⟩, ⟨12, .sweep⟩, ⟨12, .allow "ip"⟩]

/-- Its clock does not go back. -/
theorem busyRun_ordered : ClockOrdered busyRun := by
  unfold ClockOrdered busyRun
  decide

/-- A limiter of two calls in ten instants, over a run with a sweep between two windows. -/
theorem challenge_rate_bound_busy :
    (verdictsOf "ip" (newIPRateLimiter 2 10) busyRun).map (·.granted) = [true, true, true] ∧
      ((verdictsOf "ip" (newIPRateLimiter 2 10) busyRun).countP fun v =>
        decide (v.granted = true ∧ 3 ≤ v.time ∧ v.time < 3 + 10)) ≤ (2 * 2 : Int) :=
  ⟨by decide, (challenge_rate_bound 2 10 (by decide) "ip" (by decide) busyRun
    busyRun_ordered).1 3⟩

end SvpMcp
