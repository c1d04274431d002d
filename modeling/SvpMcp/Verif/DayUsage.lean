import SvpMcp.Model.Server

/-!
# Usage within one day

Both stores forget their usage when a call first sees a new date. Within one UTC day the usage a
store would report changes only by its records.
-/

namespace SvpMcp

open Calendar

variable {now today : Time}

namespace MemoryTransferOutStore

variable (s : MemoryTransferOutStore) (disk : Disk)

/-- The usage of an owner and symbol on the day of an instant. -/
def usedOn (now : Time) (owner symbol : String) : Int :=
  if s.day = formatDay now then s.usedOf owner symbol else 0

/-- A rollover leaves the ledger on the day of the call. -/
theorem rollover_day (now : Time) : (s.rollover disk now).1.day = formatDay now := by
  unfold rollover
  split
  · assumption
  · rfl

/-- After a rollover the store holds the usage of the day. -/
theorem rollover_usedOf (now : Time) (owner symbol : String) :
    (s.rollover disk now).1.usedOf owner symbol = s.usedOn now owner symbol := by
  unfold rollover usedOn
  split
  · rfl
  · simp [usedOf]

/-- `Used` reports the usage of the day. -/
theorem usedToday_fst (now : Time) (owner symbol : String) :
    (s.usedToday disk now owner symbol).1 = s.usedOn now owner symbol :=
  s.rollover_usedOf disk now owner symbol

/-- A rollover on the same day keeps the usage of the day. -/
theorem rollover_usedOn (same : formatDay now = formatDay today) (owner symbol : String) :
    (s.rollover disk now).1.usedOn today owner symbol = s.usedOn today owner symbol := by
  have onDay : (s.rollover disk now).1.day = formatDay today := by
    rw [rollover_day, same]
  have sameDay : s.usedOn now owner symbol = s.usedOn today owner symbol := by
    rw [usedOn, usedOn, same]
  rw [usedOn, if_pos onDay, rollover_usedOf, sameDay]

/-- A rollover keeps the caps. -/
theorem rollover_cap (now : Time) (owner symbol : String) :
    (s.rollover disk now).1.cap owner symbol = s.cap owner symbol := by
  unfold rollover
  split <;> rfl

/-- `Check` keeps the caps. -/
theorem check_cap (now : Time) (owner symbol : String) (amt : Option Int) (o sym : String) :
    (s.check disk now owner symbol amt).2.1.cap o sym = s.cap o sym := by
  cases amt with
  | none => rfl
  | some a =>
    by_cases nonpositive : a ≤ 0
    · simp only [check, if_pos nonpositive]
    · simp only [check, if_neg nonpositive]
      exact s.rollover_cap disk now o sym

/-- `Check` keeps the usage of the day. -/
theorem check_usedOn (same : formatDay now = formatDay today) (owner symbol : String)
    (amt : Option Int) (o sym : String) :
    (s.check disk now owner symbol amt).2.1.usedOn today o sym = s.usedOn today o sym := by
  cases amt with
  | none => rfl
  | some a =>
    by_cases nonpositive : a ≤ 0
    · simp only [check, if_pos nonpositive]
    · simp only [check, if_neg nonpositive]
      exact s.rollover_usedOn disk same o sym

/-- A passed `Check` of a positive amount fits below the cap. -/
theorem check_fits (same : formatDay now = formatDay today) {owner symbol : String}
    {entry : SymbolCap} {c a : Int} (capped : s.cap owner symbol = some entry)
    (finite : entry.capBase = some c) (positive : 0 < a)
    (passed : (s.check disk now owner symbol (some a)).1 = .ok ()) :
    s.usedOn today owner symbol + a ≤ c := by
  have usage : s.usedOn now owner symbol = s.usedOn today owner symbol := by
    rw [usedOn, usedOn, same]
  simp only [check, if_neg (show ¬ a ≤ 0 by omega), rollover_cap, rollover_usedOf, capped,
    checkAgainst, finite, usage] at passed
  split at passed
  · cases passed
  · omega

/-- `Record` keeps the caps. -/
theorem record_cap (now : Time) (owner symbol : String) (amt : Option Int) (o sym : String) :
    (s.record disk now owner symbol amt).1.cap o sym = s.cap o sym := by
  cases amt with
  | none => rfl
  | some a =>
    by_cases nonpositive : a ≤ 0
    · simp only [record, if_pos nonpositive]
    · simp only [record, if_neg nonpositive]
      exact s.rollover_cap disk now o sym

/-- `Record` of a positive amount adds it to its own usage of the day, and to no other. -/
theorem record_usedOn (same : formatDay now = formatDay today) {owner symbol : String} {a : Int}
    (positive : 0 < a) (o sym : String) :
    (s.record disk now owner symbol (some a)).1.usedOn today o sym =
      s.usedOn today o sym + if o = owner ∧ sym = symbol then a else 0 := by
  have onDay : (s.rollover disk now).1.day = formatDay today := by
    rw [rollover_day, same]
  have kept := s.rollover_usedOn disk same o sym
  rw [usedOn, if_pos onDay] at kept
  simp only [record, if_neg (show ¬ a ≤ 0 by omega), usedOn, onDay, if_true]
  rw [← show s.usedOn today o sym = if s.day = formatDay today then s.usedOf o sym else 0 from rfl,
    ← kept]
  by_cases mine : o = owner ∧ sym = symbol
  · rw [if_pos mine, mine.1, mine.2]
    simp [usedOf, Table.get2_set2]
  · rw [if_neg mine, add_zero]
    simp only [usedOf, Table.get2_set2, if_neg mine]

/-- `Record` of an amount that is not positive changes nothing. -/
theorem record_nonpositive (now : Time) (owner symbol : String) {a : Int} (nonpositive : a ≤ 0) :
    s.record disk now owner symbol (some a) = (s, disk) := by
  simp [record, nonpositive]

end MemoryTransferOutStore

namespace MemoryLedger

variable (l : MemoryLedger)

/-- A rollover leaves the ledger on the day of the call. -/
theorem rollover_day (now : Time) : (l.rollover now).day = formatDay now := by
  unfold rollover
  split
  · assumption
  · rfl

/-- A record is made today. -/
theorem record_day (now : Time) (tenantID : String) (quantums : UInt64) :
    (l.record now tenantID quantums).day = formatDay now := by
  unfold record
  exact l.rollover_day now

/-- A tenant's quantums of the day of an instant. -/
def usedOn (now : Time) (tenantID : String) : UInt64 :=
  (l.rollover now).usedBy tenantID

/-- Instants of one day roll over alike. -/
theorem rollover_congr (same : formatDay now = formatDay today) :
    l.rollover now = l.rollover today := by
  rw [rollover, rollover, same]

/-- A second rollover on the same day changes nothing. -/
theorem rollover_rollover (same : formatDay now = formatDay today) :
    (l.rollover now).rollover today = l.rollover today := by
  have onDay : (l.rollover now).day = formatDay today := by
    rw [← same]
    unfold rollover
    split
    · assumption
    · rfl
  rw [rollover, if_pos onDay, l.rollover_congr same]

/-- A new day keeps the cap. -/
@[simp] theorem rollover_capQuantums (now : Time) :
    (l.rollover now).capQuantums = l.capQuantums := by
  unfold rollover
  split <;> rfl

/-- `Record` adds to the tenant's total of the day, clamped at the largest value, and to no
other tenant's. -/
theorem record_usedOn (same : formatDay now = formatDay today) (tenantID other : String)
    (q : UInt64) :
    (l.record now tenantID q).usedOn today other =
      if other = tenantID then
        (if l.usedOn today tenantID + q < l.usedOn today tenantID then maxUint64
          else l.usedOn today tenantID + q)
      else l.usedOn today other := by
  have onDay : (l.record today tenantID q).day = formatDay today := by
    unfold record rollover
    split <;> first | assumption | rfl
  have sameRecord : l.record now tenantID q = l.record today tenantID q := by
    rw [record, record, l.rollover_congr same]
  rw [sameRecord, usedOn, rollover, if_pos onDay, usedBy, record]
  simp only [Table.get_set]
  by_cases mine : other = tenantID
  · rw [if_pos mine, if_pos mine]
    rfl
  · rw [if_neg mine, if_neg mine]
    rfl

/-- What `Record` adds is at most the amount. -/
theorem record_usedOn_bounds (same : formatDay now = formatDay today) (tenantID : String)
    (q : UInt64) :
    (l.usedOn today tenantID).toNat ≤ ((l.record now tenantID q).usedOn today tenantID).toNat ∧
      ((l.record now tenantID q).usedOn today tenantID).toNat ≤
        (l.usedOn today tenantID).toNat + q.toNat := by
  rw [l.record_usedOn same, if_pos rfl]
  have sum := UInt64.toNat_add (l.usedOn today tenantID) q
  have left := (l.usedOn today tenantID).toNat_lt
  have right := q.toNat_lt
  have largest : maxUint64.toNat = 2 ^ 64 - 1 := rfl
  by_cases wraps : l.usedOn today tenantID + q < l.usedOn today tenantID
  · rw [if_pos wraps, largest]
    rw [UInt64.lt_iff_toNat_lt] at wraps
    omega
  · rw [if_neg wraps]
    rw [UInt64.lt_iff_toNat_lt] at wraps
    omega

end MemoryLedger

/-- A cap is enabled when it is positive and its quantums fit 64 bits. -/
theorem capQuantums_eq_some {cap : UInt64} (positive : 0 < cap)
    (fits : cap.toNat * 1000000 < 2 ^ 64) :
    capQuantums cap = some (cap * quantumsPerUSDC) ∧
      (cap * quantumsPerUSDC).toNat = cap.toNat * 1000000 := by
  have nonzero : cap ≠ 0 := by
    intro zero
    rw [zero] at positive
    exact UInt64.lt_irrefl 0 positive
  have small : ¬ cap > maxUint64 / quantumsPerUSDC := by
    have bound : (maxUint64 / quantumsPerUSDC).toNat = 18446744073709 := rfl
    rw [gt_iff_lt, UInt64.lt_iff_toNat_lt, bound]
    omega
  refine ⟨?_, ?_⟩
  · rw [capQuantums, if_neg nonzero, if_neg small]
  · have scale : quantumsPerUSDC.toNat = 1000000 := rfl
    rw [UInt64.toNat_mul, scale]
    exact Nat.mod_eq_of_lt fits

/-- The ledger of an enabled daily cap enforces that cap. -/
theorem MemoryLedger.new_capQuantums {cap : UInt64} (positive : 0 < cap)
    (fits : cap.toNat * 1000000 < 2 ^ 64) :
    (MemoryLedger.new cap).capQuantums = cap * quantumsPerUSDC := by
  have small : cap ≤ maxUint64 / quantumsPerUSDC := by
    have bound : (maxUint64 / quantumsPerUSDC).toNat = 18446744073709 := rfl
    rw [UInt64.le_iff_toNat_le, bound]
    omega
  exact if_pos ⟨positive, small⟩

/-- `Enforce` leaves the ledger or rolls it over. -/
theorem enforce_ledger (cfg : Config) (ledger : Option MemoryLedger) (now : Time)
    (tenantID : String) (tool : Tool) (q : UInt64) :
    (enforce cfg ledger now tenantID tool q).2 = ledger ∨
      (enforce cfg ledger now tenantID tool q).2 = ledger.map (·.rollover now) := by
  unfold enforce
  cases checkPerTx cfg tool q with
  | error e => exact .inl rfl
  | ok _ =>
    cases ledger with
    | none => exact .inl rfl
    | some l =>
      simp only
      split
      · exact .inl rfl
      · cases dailyCapQuantums cfg with
        | none => exact .inl rfl
        | some cap =>
          right
          simp only
          split <;> rfl

/-- A passed `Enforce` of a withdrawal fits below the daily cap. -/
theorem enforce_fits {cfg : Config} {l : MemoryLedger} {tenantID : String} {q capQ : UInt64}
    (same : formatDay now = formatDay today) (enabled : dailyCapQuantums cfg = some capQ)
    (matching : l.capQuantums = capQ) (positive : 0 < q)
    (passed : (enforce cfg (some l) now tenantID .withdraw q).1 = .ok ()) :
    (l.usedOn today tenantID).toNat + q.toNat ≤ capQ.toNat := by
  have fits : q ≤ (l.remaining now tenantID).1 := by
    unfold enforce at passed
    cases perTx : checkPerTx cfg .withdraw q with
    | error e =>
      rw [perTx] at passed
      cases passed
    | ok _ =>
      simp only [perTx, ne_eq, not_true_eq_false, if_false, enabled] at passed
      split at passed
      · cases passed
      · rename_i within
        exact UInt64.not_lt.mp within
  rw [MemoryLedger.remaining] at fits
  simp only [l.rollover_congr same, MemoryLedger.rollover_capQuantums, matching] at fits
  rw [MemoryLedger.usedOn]
  rw [UInt64.lt_iff_toNat_lt, UInt64.toNat_zero] at positive
  by_cases full : (l.rollover today).usedBy tenantID ≥ capQ
  · rw [if_pos full, UInt64.le_iff_toNat_le, UInt64.toNat_zero] at fits
    omega
  · rw [if_neg full] at fits
    have room := UInt64.not_le.mp full
    rw [UInt64.le_iff_toNat_le, UInt64.toNat_sub_of_le _ _ (UInt64.le_of_lt room)] at fits
    rw [UInt64.lt_iff_toNat_lt] at room
    omega

/-- The quantums the ledger holds for the tenant on the day of an instant. -/
def withdrawnOn (tenantID : String) (today : Time) (w : World) : Int :=
  match w.ledger with
  | none => 0
  | some l => (l.usedOn today tenantID).toNat

/-- Rolling the ledger over on the same day keeps the quantums of the day. -/
theorem withdrawnOn_rollover (tenantID : String) (same : formatDay now = formatDay today)
    {w w' : World} (rolled : w'.ledger = w.ledger ∨ w'.ledger = w.ledger.map (·.rollover now)) :
    withdrawnOn tenantID today w' = withdrawnOn tenantID today w := by
  unfold withdrawnOn
  rcases rolled with kept | rolled
  · rw [kept]
  · rw [rolled]
    cases w.ledger with
    | none => rfl
    | some l =>
      change (((l.rollover now).usedOn today tenantID).toNat : Int) = _
      rw [MemoryLedger.usedOn, l.rollover_rollover same]
      rfl

/-- The ledger is there and enforces the cap. -/
def LedgerCap (capQ : UInt64) (w : World) : Prop :=
  ∃ l, w.ledger = some l ∧ l.capQuantums = capQ

/-- No operation takes the ledger away or changes its cap. -/
theorem perform_ledgerCap (deps : Deps) {capQ : UInt64} {w : World} (env : Env) (op : ServerOp)
    (capped : LedgerCap capQ w) : LedgerCap capQ (perform deps w env op).2 := by
  obtain ⟨l, present, matching⟩ := capped
  cases op with
  | enforce id tool q =>
    rcases enforce_ledger deps.limits w.ledger env.now id tool q with kept | rolled
    · exact ⟨l, kept.trans present, matching⟩
    · refine ⟨l.rollover env.now, rolled.trans ?_, (l.rollover_capQuantums _).trans matching⟩
      rw [present]
      rfl
  | recordWithdraw id q =>
    have recorded : (perform deps w env (.recordWithdraw id q)).2.ledger =
        some (l.record env.now id q) := by
      simp only [perform, present, Option.map_some]
    exact ⟨_, recorded, (l.rollover_capQuantums _).trans matching⟩
  | _ => exact ⟨l, present, matching⟩

end SvpMcp
