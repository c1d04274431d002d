import SvpMcp.Lib.Calendar
import SvpMcp.Lib.Strings
import SvpMcp.Lib.Table

/-!
# Per-tool caps and the daily withdraw ledger

The `limits` package. Amounts are 64-bit quantums, so sums wrap and the code's own overflow guards
are part of the model. The instant of a call is an argument.
-/

namespace SvpMcp

open Calendar

/-- The quantums of one USDC. -/
def quantumsPerUSDC : UInt64 := 1000000

/-- `^uint64(0)`. -/
def maxUint64 : UInt64 := 18446744073709551615

/-- `limits.HumanToQuantums` — a decimal USDC amount with at most six fraction digits. -/
def humanToQuantums (human : String) : Except Errorf UInt64 :=
  let s := Strings.trimSpace human.toList
  if s = [] then .error ⟨"usdc amount is empty", []⟩
  else if s.head? = some '-' then .error ⟨"usdc amount must be non-negative: %s", [human]⟩
  else
    let (intPart, fracPart, hasFrac) := Strings.cut '.' s
    if intPart = [] ∧ hasFrac = false then .error ⟨"invalid usdc amount: %s", [human]⟩
    else
      let intPart := if intPart = [] then ['0'] else intPart
      if hasFrac ∧ Strings.byteLength fracPart > 6 then
        .error ⟨"usdc amount has more than 6 decimal places: %s", [human]⟩
      else
        let fracPart := fracPart ++ List.replicate (6 - Strings.byteLength fracPart) '0'
        match Decimal.read (intPart ++ fracPart) with
        | none => .error ⟨"invalid usdc amount: %s", [human]⟩
        | some n =>
          if 0 ≤ n ∧ n < 2 ^ 64 then .ok (UInt64.ofNat n.toNat)
          else .error ⟨"usdc amount overflows uint64: %s", [human]⟩

/-- `limits.QuantumsToHuman` — always six fraction digits. -/
def quantumsToHuman (q : UInt64) : String :=
  String.ofList (Decimal.digits (q / quantumsPerUSDC).toNat ++
    '.' :: Decimal.padded 6 (q % quantumsPerUSDC).toNat)

/-- `limits.Config` — the operator's caps in whole USDC; zero disables a cap. -/
structure Config where
  depositMaxUSDC : UInt64
  withdrawMaxUSDC : UInt64
  transferMaxUSDC : UInt64
  /-- Cap of a tenant's withdrawals in one UTC day. -/
  dailyWithdrawCapUSDC : UInt64
deriving DecidableEq, Repr

/-- The tool names `CheckPerTx` and `Enforce` recognise. -/
inductive Tool where
  | deposit
  | withdraw
  | transfer
deriving DecidableEq, Repr

/-- Which cap rejected an operation. -/
inductive CapKind where
  | perTx
  | daily
deriving DecidableEq, Repr

/-- A cap that is exceeded. -/
structure ErrCapExceeded where
  kind : CapKind
  tool : Tool
  limit : String
  requested : String
  /-- The amount already spent today; only for the daily cap. -/
  used : String
deriving DecidableEq, Repr

/-- A cap in quantums; `none` when it is zero or its product overflows. -/
def capQuantums (capUSDC : UInt64) : Option UInt64 :=
  if capUSDC = 0 then none
  else if capUSDC > maxUint64 / quantumsPerUSDC then none
  else some (capUSDC * quantumsPerUSDC)

/-- The cap of a tool on one transaction. -/
def perToolCapQuantums (cfg : Config) (tool : Tool) : Option UInt64 :=
  capQuantums <| match tool with
    | .deposit => cfg.depositMaxUSDC
    | .withdraw => cfg.withdrawMaxUSDC
    | .transfer => cfg.transferMaxUSDC

/-- The cap on the withdrawals of a day. -/
def dailyCapQuantums (cfg : Config) : Option UInt64 :=
  capQuantums cfg.dailyWithdrawCapUSDC

/-- Check one transaction against its cap. -/
def checkPerTx (cfg : Config) (tool : Tool) (quantums : UInt64) : Except ErrCapExceeded Unit :=
  match perToolCapQuantums cfg tool with
  | none => .ok ()
  | some capQ =>
    if quantums > capQ then
      .error
        { kind := .perTx, tool, limit := quantumsToHuman capQ,
          requested := quantumsToHuman quantums, used := "" }
    else .ok ()

/-- What each tenant has withdrawn on its day. -/
structure MemoryLedger where
  /-- The daily cap in quantums, captured at construction. -/
  capQuantums : UInt64
  /-- UTC date `used` is valid for; empty before the first call. -/
  day : String
  /-- Quantums spent today, by tenant id. -/
  used : Table String UInt64

namespace MemoryLedger

/-- `NewMemoryLedger`. -/
def new (dailyCapUSDC : UInt64) : MemoryLedger where
  capQuantums :=
    if dailyCapUSDC > 0 ∧ dailyCapUSDC ≤ maxUint64 / quantumsPerUSDC then
      dailyCapUSDC * quantumsPerUSDC
    else 0
  day := ""
  used := ∅

/-- `rolloverLocked` — forget all usage when the date has changed. -/
def rollover (l : MemoryLedger) (now : Time) : MemoryLedger :=
  if l.day = formatDay now then l else { l with day := formatDay now, used := ∅ }

/-- The quantums recorded for a tenant; zero when the tenant has no entry. -/
def usedBy (l : MemoryLedger) (tenantID : String) : UInt64 :=
  (l.used.get tenantID).getD 0

/-- `Remaining` — the headroom after the rollover, and the ledger it leaves. -/
def remaining (l : MemoryLedger) (now : Time) (tenantID : String) : UInt64 × MemoryLedger :=
  let l := l.rollover now
  let used := l.usedBy tenantID
  (if used ≥ l.capQuantums then 0 else l.capQuantums - used, l)

/-- `Record` — add to the tenant's total, clamped at the largest `uint64`. -/
def record (l : MemoryLedger) (now : Time) (tenantID : String) (quantums : UInt64) :
    MemoryLedger :=
  let l := l.rollover now
  let cur := l.usedBy tenantID
  let sum := cur + quantums
  { l with used := l.used.set tenantID (if sum < cur then maxUint64 else sum) }

end MemoryLedger

/-- `limits.Enforce` — the per-transaction check and, for withdrawals with a ledger and an
enabled daily cap, the daily check. The ledger is returned because the daily check rolls it
over. -/
def enforce (cfg : Config) (ledger : Option MemoryLedger) (now : Time) (tenantID : String)
    (tool : Tool) (quantums : UInt64) : Except ErrCapExceeded Unit × Option MemoryLedger :=
  match checkPerTx cfg tool quantums with
  | .error e => (.error e, ledger)
  | .ok () =>
    match ledger with
    | none => (.ok (), none)
    | some l =>
      if tool ≠ .withdraw then (.ok (), some l)
      else
        match dailyCapQuantums cfg with
        | none => (.ok (), some l)
        | some dailyCapQ =>
          let (remaining, l) := l.remaining now tenantID
          if quantums > remaining then
            (.error
              { kind := .daily, tool, limit := quantumsToHuman dailyCapQ,
                requested := quantumsToHuman quantums,
                used := quantumsToHuman (dailyCapQ - remaining) }, some l)
          else (.ok (), some l)

end SvpMcp
