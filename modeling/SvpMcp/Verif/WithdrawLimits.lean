import SvpMcp.Lib.Sums
import SvpMcp.Verif.DayUsage

/-!
# The withdraw limits over unbounded integers

The checks compute in 64-bit words. Over every history under a clock that does not run backwards
they decide what unbounded integers would.
-/

namespace SvpMcp

open Calendar

/-- A call of the ledger at an instant. -/
inductive LedgerCall where
  | record (now : Time) (tenantID : String) (quantums : UInt64)
  | remaining (now : Time) (tenantID : String)

namespace LedgerCall

/-- The instant of a call. -/
def now : LedgerCall → Time
  | record now _ _ => now
  | remaining now _ => now

/-- The ledger after a call. -/
def apply (l : MemoryLedger) : LedgerCall → MemoryLedger
  | record now tenantID quantums => l.record now tenantID quantums
  | remaining now tenantID => (l.remaining now tenantID).2

/-- What a call records for a tenant on the UTC day of an instant. -/
def recordedOn (today : Time) (tenantID : String) : LedgerCall → Int
  | record now id quantums =>
    if id = tenantID ∧ utcDay now = utcDay today then quantums.toNat else 0
  | remaining _ _ => 0

end LedgerCall

/-- The ledger after a history, oldest call first. -/
def MemoryLedger.replay (l : MemoryLedger) (history : List LedgerCall) : MemoryLedger :=
  history.foldl LedgerCall.apply l

/-- The quantums recorded for a tenant on the UTC day of an instant, as an unbounded sum. -/
def recordedToday (history : List LedgerCall) (today : Time) (tenantID : String) : Int :=
  sumOver (LedgerCall.recordedOn today tenantID) history

/-- Calls under a clock that does not run backwards, all before an instant. -/
def Chronological (history : List LedgerCall) (now : Time) : Prop :=
  history.Pairwise (fun earlier later => earlier.now ≤ later.now) ∧
    ∀ call ∈ history, call.now ≤ now

variable {history : List LedgerCall}

/-- The last call is the latest. -/
theorem chronological_append {call : LedgerCall} {now : Time}
    (ordered : Chronological (history ++ [call]) now) :
    Chronological history call.now ∧ call.now ≤ now := by
  obtain ⟨pairwise, bounded⟩ := ordered
  have parts := List.pairwise_append.mp pairwise
  refine ⟨⟨parts.1, fun earlier member => ?_⟩, ?_⟩
  · exact parts.2.2 earlier member call List.mem_cons_self
  · exact bounded call (List.mem_append_right _ List.mem_cons_self)

/-- A history stays in order. -/
theorem Chronological.mono {now later : Time} (ordered : Chronological history now)
    (bound : now ≤ later) : Chronological history later :=
  ⟨ordered.1, fun call member => Int.le_trans (ordered.2 call member) bound⟩

/-- What is recorded is not negative. -/
theorem recordedToday_nonneg (history : List LedgerCall) (today : Time) (tenantID : String) :
    0 ≤ recordedToday history today tenantID := by
  apply sumOver_nonneg
  intro call
  cases call with
  | record now id quantums =>
    simp only [LedgerCall.recordedOn]
    split <;> omega
  | remaining now id => exact Int.le_refl 0

/-- Nothing was recorded yet on a day that a history has not reached. -/
theorem recordedToday_newDay {now today : Time} {tenantID : String}
    (ordered : Chronological history now) (later : now ≤ today)
    (newDay : utcDay now ≠ utcDay today) :
    recordedToday history today tenantID = 0 := by
  apply sumOver_eq_zero
  intro call member
  cases call with
  | record instant id quantums =>
    have before : instant ≤ now := ordered.2 _ member
    have days := utcDay_mono before
    have daysLater := utcDay_mono later
    simp only [LedgerCall.recordedOn]
    rw [if_neg]
    intro both
    omega
  | remaining instant id => rfl

namespace MemoryLedger

/-- A call is of its day. -/
theorem apply_day (l : MemoryLedger) (call : LedgerCall) :
    (call.apply l).day = formatDay call.now := by
  cases call with
  | record now id quantums => exact l.record_day now id quantums
  | remaining now id => exact l.rollover_day now

/-- A ledger on another day has no usage today. -/
theorem usedOn_newDay {l : MemoryLedger} {now today : Time} (onDay : l.day = formatDay now)
    (newDay : utcDay now ≠ utcDay today) (tenantID : String) : l.usedOn today tenantID = 0 := by
  have other : l.day ≠ formatDay today := by
    rw [onDay]
    exact fun same => newDay ((formatDay_eq_iff _ _).mp same)
  rw [usedOn, rollover, if_neg other]
  rfl

/-- `Record` adds without a bound, up to the largest word. -/
theorem record_usedOn_toNat (l : MemoryLedger) {now today : Time}
    (same : formatDay now = formatDay today) (tenantID other : String) (q : UInt64) :
    ((l.record now tenantID q).usedOn today other).toNat =
      if other = tenantID then min ((l.usedOn today tenantID).toNat + q.toNat) (2 ^ 64 - 1)
      else (l.usedOn today other).toNat := by
  rw [l.record_usedOn same]
  by_cases mine : other = tenantID
  · rw [if_pos mine, if_pos mine]
    have sum := UInt64.toNat_add (l.usedOn today tenantID) q
    have left := (l.usedOn today tenantID).toNat_lt
    have right := q.toNat_lt
    have largest : maxUint64.toNat = 2 ^ 64 - 1 := rfl
    by_cases wraps : l.usedOn today tenantID + q < l.usedOn today tenantID
    · rw [if_pos wraps, largest]
      rw [UInt64.lt_iff_toNat_lt] at wraps
      omega
    · rw [if_neg wraps]
      rw [UInt64.lt_iff_toNat_lt] at wraps
      omega
  · rw [if_neg mine, if_neg mine]

/-- The last call is replayed last. -/
theorem replay_append (l : MemoryLedger) (history : List LedgerCall) (call : LedgerCall) :
    l.replay (history ++ [call]) = call.apply (l.replay history) := by
  simp [replay]

/-- Calls leave the cap. -/
theorem replay_capQuantums (l : MemoryLedger) (history : List LedgerCall) :
    (l.replay history).capQuantums = l.capQuantums := by
  induction history using List.reverseRecOn with
  | nil => rfl
  | append_singleton history call ih =>
    rw [replay_append, ← ih]
    cases call with
    | record now id quantums => exact rollover_capQuantums _ now
    | remaining now id => exact rollover_capQuantums _ now

/-- The ledger holds the sum of the day, clamped at the largest word. -/
theorem replay_usedOn (cap : UInt64) (history : List LedgerCall) (today : Time)
    (ordered : Chronological history today) (tenantID : String) :
    ((((MemoryLedger.new cap).replay history).usedOn today tenantID).toNat : Int) =
      min (recordedToday history today tenantID) (2 ^ 64 - 1) := by
  -- The induction is on the last call; the instant that is asked about stays the same.
  induction history using List.reverseRecOn generalizing tenantID with
  | nil =>
    have empty : (MemoryLedger.new cap).usedOn today tenantID = 0 := by
      unfold usedOn rollover usedBy
      split <;> rfl
    rw [replay, List.foldl_nil, empty]
    rfl
  | append_singleton history call ih =>
    obtain ⟨earlier, before⟩ := chronological_append ordered
    have split : recordedToday (history ++ [call]) today tenantID =
        recordedToday history today tenantID + call.recordedOn today tenantID := by
      rw [recordedToday, sumOver_append]
      simp [sumOver, recordedToday]
    have held := ih (earlier.mono before) tenantID
    have nonneg := recordedToday_nonneg history today tenantID
    rw [replay_append, split]
    by_cases sameDay : utcDay call.now = utcDay today
    · have same := (formatDay_eq_iff _ _).mpr sameDay
      cases call with
      | record now id q =>
        change utcDay now = utcDay today at sameDay
        change formatDay now = formatDay today at same
        rw [LedgerCall.apply, record_usedOn_toNat _ same]
        by_cases mine : tenantID = id
        · rw [if_pos mine, LedgerCall.recordedOn, if_pos ⟨mine.symm, sameDay⟩, ← mine]
          omega
        · rw [if_neg mine, LedgerCall.recordedOn, if_neg fun both => mine both.1.symm, held,
            Int.add_zero]
      | remaining now id =>
        change formatDay now = formatDay today at same
        have kept : (((MemoryLedger.new cap).replay history).rollover now).usedOn today tenantID =
            ((MemoryLedger.new cap).replay history).usedOn today tenantID := by
          rw [usedOn, rollover_rollover _ same]
          rfl
        rw [LedgerCall.recordedOn, Int.add_zero, ← held, ← kept]
        rfl
    · have fresh : recordedToday history today tenantID = 0 :=
        recordedToday_newDay earlier before sameDay
      have none : call.recordedOn today tenantID = 0 := by
        cases call with
        | record now id q => exact if_neg fun both => sameDay both.2
        | remaining now id => rfl
      rw [usedOn_newDay (apply_day _ call) sameDay, fresh, none]
      rfl

end MemoryLedger

/-- A cap in quantums: absent when it is zero or its product does not fit, else the product. -/
theorem capQuantums_cases (cap : UInt64) :
    (capQuantums cap = none ∧ (cap = 0 ∨ 2 ^ 64 ≤ cap.toNat * 1000000)) ∨
      ∃ c, capQuantums cap = some c ∧ c.toNat = cap.toNat * 1000000 ∧ 0 < cap ∧
        cap.toNat * 1000000 < 2 ^ 64 := by
  by_cases zero : cap = 0
  · exact .inl ⟨if_pos zero, .inl zero⟩
  · have positive : 0 < cap := UInt64.pos_iff_ne_zero.mpr zero
    by_cases fits : cap.toNat * 1000000 < 2 ^ 64
    · obtain ⟨enabled, exactly⟩ := capQuantums_eq_some positive fits
      exact .inr ⟨_, enabled, exactly, positive, fits⟩
    · have large : cap > maxUint64 / quantumsPerUSDC := by
        have bound : (maxUint64 / quantumsPerUSDC).toNat = 18446744073709 := rfl
        rw [gt_iff_lt, UInt64.lt_iff_toNat_lt, bound]
        omega
      refine .inl ⟨?_, .inr (by omega)⟩
      rw [capQuantums, if_neg zero, if_pos large]

/-- The per-transaction check over unbounded integers. -/
theorem checkPerTx_withdraw_iff (cfg : Config) (q : UInt64) :
    checkPerTx cfg .withdraw q = .ok () ↔
      cfg.withdrawMaxUSDC = 0 ∨ 2 ^ 64 ≤ cfg.withdrawMaxUSDC.toNat * 1000000 ∨
        q.toNat ≤ cfg.withdrawMaxUSDC.toNat * 1000000 := by
  rw [checkPerTx, perToolCapQuantums]
  rcases capQuantums_cases cfg.withdrawMaxUSDC with
    ⟨disabled, why⟩ | ⟨c, enabled, isCap, positive, fits⟩
  · rw [disabled]
    exact ⟨fun _ => why.imp_right .inl, fun _ => rfl⟩
  · have nonzero : cfg.withdrawMaxUSDC ≠ 0 := UInt64.pos_iff_ne_zero.mp positive
    simp only [enabled]
    by_cases exceeds : q > c
    · have above := UInt64.lt_iff_toNat_lt.mp exceeds
      simp only [if_pos exceeds, reduceCtorEq, false_iff, not_or]
      exact ⟨nonzero, by omega, by omega⟩
    · have below := UInt64.le_iff_toNat_le.mp (UInt64.not_lt.mp exceeds)
      simp only [if_neg exceeds, true_iff]
      omega

/-- The headroom is an exact difference, or zero. -/
theorem remaining_toNat (l : MemoryLedger) (now : Time) (tenantID : String) :
    (l.remaining now tenantID).1.toNat = l.capQuantums.toNat - (l.usedOn now tenantID).toNat := by
  change (if (l.rollover now).usedBy tenantID ≥ (l.rollover now).capQuantums then 0
    else (l.rollover now).capQuantums - (l.rollover now).usedBy tenantID).toNat = _
  rw [MemoryLedger.rollover_capQuantums, MemoryLedger.usedOn]
  by_cases full : (l.rollover now).usedBy tenantID ≥ l.capQuantums
  · have above := UInt64.le_iff_toNat_le.mp full
    rw [if_pos full, UInt64.toNat_zero]
    omega
  · have room := UInt64.le_of_lt (UInt64.not_le.mp full)
    rw [if_neg full, UInt64.toNat_sub_of_le _ _ room]

/-- `Enforce` of a withdrawal, from its two checks. -/
theorem enforce_withdraw_ok_iff (cfg : Config) (l : MemoryLedger) (now : Time) (tenantID : String)
    (q : UInt64) :
    (enforce cfg (some l) now tenantID .withdraw q).1 = .ok () ↔
      checkPerTx cfg .withdraw q = .ok () ∧
        (dailyCapQuantums cfg = none ∨ q ≤ (l.remaining now tenantID).1) := by
  unfold enforce
  cases perTx : checkPerTx cfg .withdraw q with
  | error e => simp
  | ok _ =>
    cases daily : dailyCapQuantums cfg with
    | none => simp
    | some capQ =>
      by_cases exceeds : q > (l.remaining now tenantID).1
      · simp [exceeds]
      · simp [exceeds, UInt64.not_lt.mp exceeds]

/-- The ledger's copy of the daily cap is the configuration's. -/
theorem new_capQuantums_toNat {cap c : UInt64} (enabled : capQuantums cap = some c) :
    (MemoryLedger.new cap).capQuantums.toNat = cap.toNat * 1000000 := by
  rcases capQuantums_cases cap with ⟨disabled, _⟩ | ⟨_, _, _, positive, fits⟩
  · rw [disabled] at enabled
    cases enabled
  · rw [MemoryLedger.new_capQuantums positive fits]
    exact (capQuantums_eq_some positive fits).2

/-- The daily check over unbounded integers. -/
theorem daily_iff (cfg : Config) {now : Time} (ordered : Chronological history now)
    (tenantID : String) {q : UInt64} (positive : 1 ≤ q) :
    dailyCapQuantums cfg = none ∨
        q ≤ (((MemoryLedger.new cfg.dailyWithdrawCapUSDC).replay history).remaining now
          tenantID).1 ↔
      cfg.dailyWithdrawCapUSDC = 0 ∨ 2 ^ 64 ≤ cfg.dailyWithdrawCapUSDC.toNat * 1000000 ∨
        q.toNat + recordedToday history now tenantID ≤
          (cfg.dailyWithdrawCapUSDC.toNat * 1000000 : Nat) := by
  rw [dailyCapQuantums]
  rcases capQuantums_cases cfg.dailyWithdrawCapUSDC with
    ⟨disabled, why⟩ | ⟨c, enabled, isCap, capped, fits⟩
  · exact ⟨fun _ => why.imp_right .inl, fun _ => .inl disabled⟩
  · have nonzero : cfg.dailyWithdrawCapUSDC ≠ 0 := UInt64.pos_iff_ne_zero.mp capped
    have atLeastOne : 1 ≤ q.toNat := UInt64.le_iff_toNat_le.mp positive
    have held := MemoryLedger.replay_usedOn cfg.dailyWithdrawCapUSDC history now ordered tenantID
    have nonneg := recordedToday_nonneg history now tenantID
    have within : q ≤ (((MemoryLedger.new cfg.dailyWithdrawCapUSDC).replay history).remaining now
        tenantID).1 ↔ q.toNat + recordedToday history now tenantID ≤
          (cfg.dailyWithdrawCapUSDC.toNat * 1000000 : Nat) := by
      rw [UInt64.le_iff_toNat_le, remaining_toNat, MemoryLedger.replay_capQuantums,
        new_capQuantums_toNat enabled]
      omega
    rw [enabled, within]
    constructor
    · intro either
      exact .inr (.inr (either.resolve_left (Option.some_ne_none c)))
    · intro either
      refine .inr ?_
      rcases either with zero | large | small
      · exact absurd zero nonzero
      · omega
      · exact small

/-- The words the checks compute, against unbounded integers. Only the sum of `Record` may exceed
a word, and it is clamped. -/
structure NoWrap (cfg : Config) (l : MemoryLedger) (now : Time) (tenantID : String) : Prop where
  scaled : ∀ cap c, capQuantums cap = some c → c.toNat = cap.toNat * 1000000
  built : ∀ c, dailyCapQuantums cfg = some c → l.capQuantums = c
  headroom : (l.remaining now tenantID).1.toNat =
    l.capQuantums.toNat - (l.usedOn now tenantID).toNat
  reported : ∀ c, dailyCapQuantums cfg = some c →
    (l.remaining now tenantID).1 ≤ c ∧
      (c - (l.remaining now tenantID).1).toNat = c.toNat - (l.remaining now tenantID).1.toNat
  recorded : ∀ q, ((l.record now tenantID q).usedOn now tenantID).toNat =
    min ((l.usedOn now tenantID).toNat + q.toNat) (2 ^ 64 - 1)

/-- The usage of a day does not wrap. -/
theorem noWrap_replay (cfg : Config) (history : List LedgerCall) (now : Time) (tenantID : String) :
    NoWrap cfg ((MemoryLedger.new cfg.dailyWithdrawCapUSDC).replay history) now tenantID := by
  have scaled : ∀ cap c, capQuantums cap = some c → c.toNat = cap.toNat * 1000000 := by
    intro cap c enabled
    rcases capQuantums_cases cap with ⟨disabled, _⟩ | ⟨c', enabled', isCap, _⟩
    · rw [disabled] at enabled
      cases enabled
    · rw [enabled'] at enabled
      rw [← Option.some.inj enabled]
      exact isCap
  have built : ∀ c, dailyCapQuantums cfg = some c →
      ((MemoryLedger.new cfg.dailyWithdrawCapUSDC).replay history).capQuantums = c := by
    intro c enabled
    apply UInt64.toNat_inj.mp
    rw [MemoryLedger.replay_capQuantums, new_capQuantums_toNat enabled, scaled _ _ enabled]
  refine ⟨scaled, built, remaining_toNat _ now tenantID, ?_, ?_⟩
  · intro c enabled
    have below : (((MemoryLedger.new cfg.dailyWithdrawCapUSDC).replay history).remaining now
        tenantID).1 ≤ c := by
      rw [UInt64.le_iff_toNat_le, remaining_toNat, built c enabled]
      omega
    exact ⟨below, UInt64.toNat_sub_of_le _ _ below⟩
  · intro q
    rw [MemoryLedger.record_usedOn_toNat _ rfl, if_pos rfl]

/-- `Enforce` decides a withdrawal as unbounded integers would. -/
theorem enforce_withdraw_exact (cfg : Config) (history : List LedgerCall) (now : Time)
    (ordered : Chronological history now) (tenantID : String) (q : UInt64) (positive : 1 ≤ q) :
    ((enforce cfg (some ((MemoryLedger.new cfg.dailyWithdrawCapUSDC).replay history)) now tenantID
        .withdraw q).1 = .ok () ↔
      (cfg.withdrawMaxUSDC = 0 ∨ 2 ^ 64 ≤ cfg.withdrawMaxUSDC.toNat * 1000000 ∨
        q.toNat ≤ cfg.withdrawMaxUSDC.toNat * 1000000) ∧
      (cfg.dailyWithdrawCapUSDC = 0 ∨ 2 ^ 64 ≤ cfg.dailyWithdrawCapUSDC.toNat * 1000000 ∨
        q.toNat + recordedToday history now tenantID ≤
          (cfg.dailyWithdrawCapUSDC.toNat * 1000000 : Nat))) ∧
    NoWrap cfg ((MemoryLedger.new cfg.dailyWithdrawCapUSDC).replay history) now tenantID := by
  refine ⟨?_, noWrap_replay cfg history now tenantID⟩
  rw [enforce_withdraw_ok_iff, checkPerTx_withdraw_iff, daily_iff cfg ordered tenantID positive]

/-- A history of two tenants over midnight. -/
def twoDays : List LedgerCall :=
  [.record 0 "a" 900000, .record 86400000000000 "a" 400000, .remaining 86400000000001 "b",
   .record 86400000000002 "b" 1000000]

/-- After 0.4 USDC today and 0.9 yesterday, 0.6 more fit below a cap of 1. -/
theorem enforce_withdraw_exact_twoDays :
    Chronological twoDays 86400000000003 ∧
      (enforce ⟨0, 1, 0, 1⟩ (some ((MemoryLedger.new 1).replay twoDays)) 86400000000003 "a"
        .withdraw 600000).1 = .ok () := by
  have ordered : Chronological twoDays 86400000000003 := by
    refine ⟨?_, ?_⟩ <;> simp [twoDays, LedgerCall.now]
  refine ⟨ordered, ?_⟩
  exact (enforce_withdraw_exact ⟨0, 1, 0, 1⟩ twoDays 86400000000003 ordered "a" 600000
    (by decide)).1.mpr ⟨by decide, by decide⟩

end SvpMcp
