import SvpMcp.Verif.Authentication
import SvpMcp.Verif.Inspection
import SvpMcp.Verif.SignedBroadcast

/-!
# What one wallet can withdraw in a day

The ledger counts by tenant id and every login mints a new one, so a wallet is bounded by the cap
times the number of tenant ids it has.
-/

namespace SvpMcp

open Calendar Program

variable {events : Events}

/-- A completed call of the server. -/
inductive ServerStep where
  /-- A call of the handshake's system. -/
  | auth (e : AuthEvent)
  /-- A `BroadcastSignedTx` request and the operations it called. -/
  | broadcast (events : Events)

/-- Runs in which calls are processed one at a time; a broadcast acts for the tenant the
middleware attaches. -/
inductive ServerRun (authDeps : AuthDeps) (deps : Deps) (start : World) :
    List ServerStep → World → Prop where
  | start : ServerRun authDeps deps start [] start
  | auth {steps : List ServerStep} {w : World} (run : ServerRun authDeps deps start steps w)
      (env : AuthEnv) (op : AuthOp) :
      ServerRun authDeps deps start
        (steps ++ [.auth ⟨w.auth, env, op, (performAuth authDeps w.auth env op).1⟩])
        { w with auth := (performAuth authDeps w.auth env op).2 }
  | broadcast {steps : List ServerStep} {w w' : World} (run : ServerRun authDeps deps start steps w)
      (now : Time) (headers : RequestHeaders) (input : BroadcastSignedTxInput)
      (events : Events) (result : Except Fault BroadcastResult)
      (alone : Alone deps w
        (broadcastSignedTx deps (resolveTenant w.auth now headers) input) events w' result) :
      ServerRun authDeps deps start (steps ++ [.broadcast events]) w'

variable (codec : TxCodec) (owner : String)

/-- The USDC quantums withdrawn by a transaction the node accepts, if an owner signed it. -/
def withdrawnBy : Event World Env ServerOp Reply → Nat
  | ⟨_, _, .broadcastSync rawBytes, reply⟩ =>
    match accepts reply, signerAddressFromTxRaw codec rawBytes with
    | true, .ok signer => if signer = owner then usdcWithdrawn (txMsgs codec rawBytes) else 0
    | _, _ => 0
  | _ => 0

/-- The USDC quantums the accepted transactions of an owner withdraw in one request. -/
def withdrawnByAll (codec : TxCodec) (owner : String) :
    Events → Nat
  | [] => 0
  | e :: rest => withdrawnBy codec owner e + withdrawnByAll codec owner rest

/-- The USDC quantums the accepted transactions of an owner withdraw in a run. -/
def walletWithdrawn (codec : TxCodec) (owner : String) : List ServerStep → Nat
  | [] => 0
  | .auth _ :: rest => walletWithdrawn codec owner rest
  | .broadcast events :: rest =>
    withdrawnByAll codec owner events + walletWithdrawn codec owner rest

/-- The tenant ids the logins of an owner mint in a run. -/
def mintedFor (owner : String) : List ServerStep → List String
  | [] => []
  | .auth e :: rest =>
    match login e with
    | some l => if l.owner = owner then l.tenantID :: mintedFor owner rest else mintedFor owner rest
    | none => mintedFor owner rest
  | .broadcast _ :: rest => mintedFor owner rest

/-- Every broadcast of the run happens on one UTC day. -/
def OnDay (today : Time) (steps : List ServerStep) : Prop :=
  ∀ events, .broadcast events ∈ steps → ∀ e ∈ events, utcDay e.env.now = utcDay today

/-- Withdraws add up over the events. -/
theorem withdrawnByAll_append (first second : Events) :
    withdrawnByAll codec owner (first ++ second) =
      withdrawnByAll codec owner first + withdrawnByAll codec owner second := by
  induction first with
  | nil => simp [withdrawnByAll]
  | cons e rest ih =>
    rw [List.cons_append, withdrawnByAll, withdrawnByAll, ih]
    omega

/-- And over the steps. -/
theorem walletWithdrawn_append (first second : List ServerStep) :
    walletWithdrawn codec owner (first ++ second) =
      walletWithdrawn codec owner first + walletWithdrawn codec owner second := by
  induction first with
  | nil => simp [walletWithdrawn]
  | cons step rest ih =>
    cases step with
    | auth e => exact ih
    | broadcast events =>
      rw [List.cons_append, walletWithdrawn, walletWithdrawn, ih]
      omega

/-- So do the tenants minted. -/
theorem mintedFor_append (first second : List ServerStep) :
    mintedFor owner (first ++ second) = mintedFor owner first ++ mintedFor owner second := by
  induction first with
  | nil => rfl
  | cons step rest ih =>
    cases step with
    | auth e =>
      rw [List.cons_append, mintedFor, mintedFor, ih]
      cases login e with
      | none => rfl
      | some l =>
        simp only
        split <;> rfl
    | broadcast events => exact ih

/-- Operations that avoid the node withdraw nothing. -/
theorem withdrawnByAll_avoids {codec : TxCodec} (avoids : ∀ e ∈ events, AvoidsNode e.op)
    (owner : String) :
    withdrawnByAll codec owner events = 0 := by
  induction events with
  | nil => rfl
  | cons e rest ih =>
    rw [withdrawnByAll, ih fun e' member => avoids e' (List.mem_cons_of_mem _ member)]
    have here := avoids e List.mem_cons_self
    obtain ⟨before, env, op, reply⟩ := e
    cases op with
    | broadcastSync rawBytes => exact here.elim
    | _ => rfl

/-- A record without overflow adds to one tenant's total. -/
theorem withdrawnOn_record {w w' : World} {l : MemoryLedger} {now today : Time} {id : String}
    {q : UInt64} (same : formatDay now = formatDay today) (present : w.ledger = some l)
    (recorded : w'.ledger = some (l.record now id q))
    (fits : withdrawnOn id today w + q.toNat < 2 ^ 64) (tenantID : String) :
    withdrawnOn tenantID today w' =
      withdrawnOn tenantID today w + if tenantID = id then (q.toNat : Int) else 0 := by
  simp only [withdrawnOn, present, recorded] at fits ⊢
  rw [l.record_usedOn same]
  by_cases mine : tenantID = id
  · have sum := UInt64.toNat_add (l.usedOn today id) q
    have noWrap : ¬ l.usedOn today id + q < l.usedOn today id := by
      rw [UInt64.lt_iff_toNat_lt]
      omega
    rw [if_pos mine, if_pos mine, if_neg noWrap, mine]
    omega
  · rw [if_neg mine, if_neg mine, Int.add_zero]

section Vetted

variable {deps : Deps} {ctx : Context} {w mid : World} {envs : List Env}
  {tx : CheckedTx} {today : Time}

/-- The checks of a transaction keep all totals of the day. -/
theorem vetted_withdrawnOn (vetted : Vetted deps ctx w envs tx mid)
    (oneDay : ∀ env ∈ envs, formatDay env.now = formatDay today) (tenantID : String) :
    withdrawnOn tenantID today mid = withdrawnOn tenantID today w := by
  rcases vetted.enforced with ⟨_, kept⟩ | ⟨_, env, checked, passed⟩
  · rw [withdrawnOn, withdrawnOn, kept]
  · have after : mid.ledger = (enforce deps.limits w.ledger env.now tx.tp.tenantID .withdraw
        tx.withdrawQ).2 := by rw [passed]
    have rolled := enforce_ledger deps.limits w.ledger env.now tx.tp.tenantID .withdraw
      tx.withdrawQ
    rw [← after] at rolled
    exact withdrawnOn_rollover tenantID (oneDay env checked) rolled

/-- What a transaction withdraws fits below the cap. -/
theorem vetted_fits {capQ : UInt64} (vetted : Vetted deps ctx w envs tx mid)
    (oneDay : ∀ env ∈ envs, formatDay env.now = formatDay today)
    (enabled : dailyCapQuantums deps.limits = some capQ) (capped : LedgerCap capQ w)
    (positive : 0 < tx.withdrawQ) :
    withdrawnOn tx.tp.tenantID today w + tx.withdrawQ.toNat ≤ capQ.toNat := by
  obtain ⟨l, present, matching⟩ := capped
  rcases vetted.enforced with ⟨zero, _⟩ | ⟨_, env, checked, passed⟩
  · rw [zero] at positive
    exact (UInt64.lt_irrefl 0 positive).elim
  · rw [present] at passed
    have fits := enforce_fits (oneDay env checked) enabled matching positive
      (congrArg Prod.fst passed)
    simp only [withdrawnOn, present]
    omega

/-- The checks keep the ledger and its cap. -/
theorem vetted_ledgerCap {capQ : UInt64} (vetted : Vetted deps ctx w envs tx mid)
    (capped : LedgerCap capQ w) : LedgerCap capQ mid := by
  rcases vetted.enforced with ⟨_, kept⟩ | ⟨_, env, _, passed⟩
  · rw [LedgerCap, kept]
    exact capped
  · have enforced := perform_ledgerCap deps env (.enforce tx.tp.tenantID .withdraw tx.withdrawQ)
      capped
    have after : (perform deps w env (.enforce tx.tp.tenantID .withdraw tx.withdrawQ)).2.ledger =
        mid.ledger := congrArg Prod.snd passed
    rw [LedgerCap, after] at enforced
    exact enforced

end Vetted

/-- A broadcast withdraws nothing, or adds what its signer withdraws to the total of the signer's
tenant, which stays within the cap. -/
theorem broadcast_totals {deps : Deps} {w w' : World} {ctx : Context}
    {input : BroadcastSignedTxInput} {result : Except Fault BroadcastResult} {capQ : UInt64}
    {today : Time} (run : Alone deps w (broadcastSignedTx deps ctx input) events w' result)
    (enabled : dailyCapQuantums deps.limits = some capQ) (capped : LedgerCap capQ w)
    (oneDay : ∀ e ∈ events, utcDay e.env.now = utcDay today) :
    ((∀ owner, withdrawnByAll deps.codec owner events = 0) ∧
      ∀ tenantID, withdrawnOn tenantID today w' = withdrawnOn tenantID today w) ∨
    ∃ (id : String) (now : Time) (tp : TenantPolicy) (q : Nat),
      engineTenant deps.perTenant w.auth.tenants now id = .ok tp ∧
      (∀ owner, withdrawnByAll deps.codec owner events = if tp.owner = owner then q else 0) ∧
      (∀ tenantID, withdrawnOn tenantID today w' =
        withdrawnOn tenantID today w + if tenantID = tp.tenantID then (q : Int) else 0) ∧
      withdrawnOn tp.tenantID today w' ≤ capQ.toNat := by
  rcases broadcastSignedTx_run run with ⟨avoids, kept⟩ |
    ⟨tx, checks, mid, env, rest, split, before, after, vetted, settled⟩
  · exact .inl ⟨withdrawnByAll_avoids avoids, fun tenantID => kept tenantID today oneDay⟩
  · have single : ∀ owner, withdrawnByAll deps.codec owner events =
        match accepts env.broadcast, signerAddressFromTxRaw deps.codec tx.rawBytes with
        | true, .ok signer =>
          if signer = owner then usdcWithdrawn (txMsgs deps.codec tx.rawBytes) else 0
        | _, _ => 0 := by
      intro owner
      rw [split, withdrawnByAll_append, withdrawnByAll, withdrawnByAll_avoids before,
        withdrawnByAll_avoids after, Nat.zero_add, Nat.add_zero]
      rfl
    rw [vetted.signer, ← extractWithdrawQuantums_toNat vetted.withdraws] at single
    have sameDay : ∀ env' ∈ events.map Event.env, formatDay env'.now = formatDay today := by
      intro env' member
      obtain ⟨e, here, rfl⟩ := List.mem_map.mp member
      exact (formatDay_eq_iff _ _).mpr (oneDay e here)
    have checkDay : ∀ env' ∈ checks.map Event.env, formatDay env'.now = formatDay today := by
      intro env' member
      exact sameDay env' (by rw [split, List.map_append]; exact List.mem_append_left _ member)
    have midTotals := vetted_withdrawnOn vetted checkDay
    by_cases recorded : accepts env.broadcast = true ∧ 0 < tx.withdrawQ
    · rw [if_pos recorded] at settled
      obtain ⟨env', member, ledger⟩ := settled
      obtain ⟨l, present, _⟩ := vetted_ledgerCap vetted capped
      rw [present, Option.map_some] at ledger
      have recordDay : formatDay env'.now = formatDay today :=
        sameDay env' (by rw [split]; simp [member])
      have fits := vetted_fits vetted checkDay enabled capped recorded.2
      have small := capQ.toNat_lt
      have totals := withdrawnOn_record recordDay present ledger
        (by rw [midTotals tx.tp.tenantID]; omega)
      obtain ⟨tc, now, _, found⟩ := vetted.tenant
      refine .inr ⟨tc.tenantID, now, tx.tp, tx.withdrawQ.toNat, found, ?_, ?_, ?_⟩
      · intro owner
        rw [single owner, recorded.1]
      · intro tenantID
        rw [totals tenantID, midTotals tenantID]
      · rw [totals, midTotals, if_pos rfl]
        exact fits
    · rw [if_neg recorded] at settled
      refine .inl ⟨?_, ?_⟩
      · intro owner
        rw [single owner]
        cases accepted : accepts env.broadcast with
        | false => rfl
        | true =>
          have zero : tx.withdrawQ.toNat = 0 := by
            have none : ¬ 0 < tx.withdrawQ := fun positive => recorded ⟨accepted, positive⟩
            rw [UInt64.lt_iff_toNat_lt, UInt64.toNat_zero] at none
            omega
          simp only [zero, ite_self]
      · intro tenantID
        rw [← midTotals tenantID, withdrawnOn, withdrawnOn, settled]

section Wallet

variable {authDeps : AuthDeps} {deps : Deps} {start w w' : World} {steps : List ServerStep}
  {owner : String} {ids : List String} {today : Time} {capQ : UInt64}

/-- What a tenant has withdrawn since the start. -/
def gained (today : Time) (start w : World) (tenantID : String) : Int :=
  withdrawnOn tenantID today w - withdrawnOn tenantID today start

/-- The invariant of a run for one owner, whose tenant ids at the start are among some ids. -/
structure WalletBound (deps : Deps) (owner : String) (ids : List String) (today : Time)
    (capQ : UInt64) (start : World) (steps : List ServerStep) (w : World) : Prop where
  /-- The ledger enforces the cap. -/
  ledger : LedgerCap capQ w
  /-- The owner's tenants are those of the start and those minted since. -/
  owned : ∀ id record, w.auth.tenants.byTenant.get id = some record → record.owner = owner →
    record.tenantID ∈ ids ++ mintedFor owner steps
  /-- No tenant has withdrawn more than the cap since the start. -/
  bounded : ∀ id, 0 ≤ gained today start w id ∧ gained today start w id ≤ capQ.toNat
  /-- The owner's transactions are in the totals of the owner's tenants. -/
  covered : walletWithdrawn deps.codec owner steps ≤
    sumOver (gained today start w) (ids ++ mintedFor owner steps)

/-- A handshake call keeps the invariant. -/
theorem walletBound_auth (bound : WalletBound deps owner ids today capQ start steps w)
    (env : AuthEnv) (op : AuthOp) :
    WalletBound deps owner ids today capQ start
      (steps ++ [.auth ⟨w.auth, env, op, (performAuth authDeps w.auth env op).1⟩])
      { w with auth := (performAuth authDeps w.auth env op).2 } := by
  refine ⟨bound.ledger, ?_, bound.bounded, ?_⟩
  · intro id record found mine
    rw [mintedFor_append, ← List.append_assoc]
    have old : w.auth.tenants.byTenant.get id = some record → record.tenantID ∈
        ids ++ mintedFor owner steps ++ mintedFor owner
          [.auth ⟨w.auth, env, op, (performAuth authDeps w.auth env op).1⟩] :=
      fun known => List.mem_append_left _ (bound.owned id record known mine)
    cases performAuth_effect authDeps w.auth env op with
    | issued _ _ _ _ tenants _ =>
      simp only [tenants] at found
      exact old found
    | shrunk _ shrinks => exact old (shrinks.tenants id record found)
    | loggedIn l _ isLogin _ _ _ _ tenants _ =>
      simp only [tenants, Table.get_set] at found
      by_cases new : id = l.tenantID
      · rw [if_pos new] at found
        cases found
        refine List.mem_append_right _ ?_
        simp only [mintedFor, isLogin]
        rw [if_pos mine]
        exact List.mem_cons_self
      · rw [if_neg new] at found
        exact old found
  · rw [walletWithdrawn_append, mintedFor_append, ← List.append_assoc, sumOver_append]
    have more := sumOver_nonneg (fun id => (bound.bounded id).1) (mintedFor owner
      [.auth ⟨w.auth, env, op, (performAuth authDeps w.auth env op).1⟩])
    have before := bound.covered
    have none : walletWithdrawn deps.codec owner
      [.auth ⟨w.auth, env, op, (performAuth authDeps w.auth env op).1⟩] = 0 := rfl
    rw [none, Nat.add_zero]
    change _ ≤ sumOver (gained today start w) _ + sumOver (gained today start w) _
    omega

/-- The tenant of a request is one of the owner's, if its owner is. -/
theorem engineTenant_owned
    (static : ∀ id tp, deps.perTenant.get id = some tp → tp.owner = owner → tp.tenantID ∈ ids)
    (bound : WalletBound deps owner ids today capQ start steps w) {now : Time} {id : String}
    {tp : TenantPolicy} (found : engineTenant deps.perTenant w.auth.tenants now id = .ok tp)
    (mine : tp.owner = owner) : tp.tenantID ∈ ids ++ mintedFor owner steps := by
  unfold engineTenant at found
  cases listed : deps.perTenant.get id with
  | some known =>
    rw [listed] at found
    cases found
    exact List.mem_append_left _ (static id tp listed mine)
  | none =>
    simp only [listed, lookupTenantPolicy, DynamicTenantStore.lookupByTenantID] at found
    cases stored : w.auth.tenants.byTenant.get id with
    | none =>
      simp only [stored] at found
      cases found
    | some record =>
      simp only [stored] at found
      by_cases valid : now < record.expiresAt
      · simp only [if_pos valid] at found
        cases found
        exact bound.owned id record stored mine
      · simp only [if_neg valid] at found
        cases found

/-- A broadcast keeps the invariant. -/
theorem walletBound_broadcast
    (static : ∀ id tp, deps.perTenant.get id = some tp → tp.owner = owner → tp.tenantID ∈ ids)
    (enabled : dailyCapQuantums deps.limits = some capQ)
    (bound : WalletBound deps owner ids today capQ start steps w) {ctx : Context}
    {input : BroadcastSignedTxInput} {result : Except Fault BroadcastResult}
    (run : Alone deps w (broadcastSignedTx deps ctx input) events w' result)
    (oneDay : ∀ e ∈ events, utcDay e.env.now = utcDay today)
    (startUsed : ∀ id, 0 ≤ withdrawnOn id today start) :
    WalletBound deps owner ids today capQ start (steps ++ [.broadcast events]) w' := by
  have noneMinted : mintedFor owner (steps ++ [.broadcast events]) = mintedFor owner steps := by
    rw [mintedFor_append]
    exact List.append_nil _
  have owned : ∀ id record, w'.auth.tenants.byTenant.get id = some record →
      record.owner = owner → record.tenantID ∈ ids ++ mintedFor owner steps := by
    rw [alone_auth run]
    exact bound.owned
  have step : walletWithdrawn deps.codec owner (steps ++ [.broadcast events]) =
      walletWithdrawn deps.codec owner steps + withdrawnByAll deps.codec owner events := by
    rw [walletWithdrawn_append]
    rfl
  have before := bound.covered
  rcases broadcast_totals run enabled bound.ledger oneDay with
    ⟨nothing, kept⟩ | ⟨id, now, tp, q, found, withdrawn, totals, within⟩
  · have same : gained today start w' = gained today start w := by
      funext id
      rw [gained, gained, kept]
    refine ⟨alone_ledgerCap run bound.ledger, ?_, ?_, ?_⟩
    · rw [noneMinted]
      exact owned
    · rw [same]
      exact bound.bounded
    · rw [step, nothing, noneMinted, same]
      exact before
  · have added : ∀ other, gained today start w' other =
        gained today start w other + if other = tp.tenantID then (q : Int) else 0 := by
      intro other
      rw [gained, gained, totals]
      omega
    have grows : ∀ other, gained today start w other ≤ gained today start w' other := by
      intro other
      have new := added other
      split at new <;> omega
    refine ⟨alone_ledgerCap run bound.ledger, ?_, ?_, ?_⟩
    · rw [noneMinted]
      exact owned
    · intro other
      have old := bound.bounded other
      have new := added other
      by_cases mine : other = tp.tenantID
      · have used := startUsed other
        rw [if_pos mine] at new
        rw [mine] at new old used ⊢
        have total : gained today start w' tp.tenantID =
          withdrawnOn tp.tenantID today w' - withdrawnOn tp.tenantID today start := rfl
        omega
      · rw [if_neg mine] at new
        omega
    · rw [step, noneMinted, withdrawn]
      by_cases mine : tp.owner = owner
      · rw [if_pos mine]
        have here := added tp.tenantID
        rw [if_pos rfl] at here
        have covered := sumOver_add grows here (engineTenant_owned static bound found mine)
        omega
      · rw [if_neg mine]
        have covered := sumOver_mono grows (ids ++ mintedFor owner steps)
        omega

/-- Along every run of one day the owner's transactions are in the totals of the owner's
tenants. -/
theorem serverRun_walletBound
    (static : ∀ id tp, deps.perTenant.get id = some tp → tp.owner = owner → tp.tenantID ∈ ids)
    (dynamic : ∀ id record, start.auth.tenants.byTenant.get id = some record →
      record.owner = owner → record.tenantID ∈ ids)
    (enabled : dailyCapQuantums deps.limits = some capQ) (capped : LedgerCap capQ start)
    (run : ServerRun authDeps deps start steps w) (oneDay : OnDay today steps) :
    WalletBound deps owner ids today capQ start steps w := by
  have startUsed : ∀ id, 0 ≤ withdrawnOn id today start := by
    intro id
    unfold withdrawnOn
    split <;> omega
  induction run with
  | start =>
    have zero : gained today start start = fun _ => 0 := by
      funext id
      exact Int.sub_self _
    refine ⟨capped, ?_, ?_, ?_⟩
    · intro id record found mine
      rw [mintedFor, List.append_nil]
      exact dynamic id record found mine
    · intro id
      rw [zero]
      exact ⟨Int.le_refl 0, Int.natCast_nonneg _⟩
    · exact sumOver_nonneg (fun id => by rw [zero]) _
  | auth run env op ih =>
    exact walletBound_auth (ih fun events member => oneDay events (List.mem_append_left _ member))
      env op
  | broadcast run now headers input events result alone ih =>
    have bound := ih fun events member => oneDay events (List.mem_append_left _ member)
    have today := oneDay events (List.mem_append_right _ List.mem_cons_self)
    exact walletBound_broadcast static enabled bound alone today startUsed

end Wallet

/-- In every run of handshake calls and signed broadcasts processed one at a time on one UTC day,
the accepted transactions of an owner withdraw at most the daily cap for each tenant id of the
owner: those the owner has at the start, and one for each login. -/
theorem wallet_withdrawals_bounded_by_logins (authDeps : AuthDeps) (deps : Deps)
    (start w : World) (steps : List ServerStep) (run : ServerRun authDeps deps start steps w)
    (owner : String) (ids : List String) (today : Time)
    (static : ∀ id tp, deps.perTenant.get id = some tp → tp.owner = owner → tp.tenantID ∈ ids)
    (dynamic : ∀ id record, start.auth.tenants.byTenant.get id = some record →
      record.owner = owner → record.tenantID ∈ ids)
    (positive : 0 < deps.limits.dailyWithdrawCapUSDC)
    (fits : deps.limits.dailyWithdrawCapUSDC.toNat * 10 ^ 6 < 2 ^ 64) (l : MemoryLedger)
    (present : start.ledger = some l)
    (matching : l.capQuantums = (MemoryLedger.new deps.limits.dailyWithdrawCapUSDC).capQuantums)
    (oneDay : OnDay today steps) :
    walletWithdrawn deps.codec owner steps ≤
      (ids.length + (mintedFor owner steps).length) *
        (deps.limits.dailyWithdrawCapUSDC.toNat * 10 ^ 6) := by
  obtain ⟨enabled, capValue⟩ := capQuantums_eq_some positive fits
  rw [MemoryLedger.new_capQuantums positive fits] at matching
  have bound := serverRun_walletBound static dynamic enabled ⟨l, present, matching⟩ run oneDay
  have total := sumOver_le (fun id => (bound.bounded id).2) (ids ++ mintedFor owner steps)
  rw [capValue, List.length_append] at total
  exact Int.ofNat_le.mp (bound.covered.trans total)

/-- The daily withdraw cap is 1 USDC and every transaction withdraws 1 USDC. -/
def reloginDeps : Deps where
  __ := fixedDeps ⟨0, 0, 0, 1⟩ ⟨"", "svp1owner", [], false⟩
    [.withdrawFromSubaccount ⟨⟨"svp1owner", 0⟩, "svp1owner", 0, 1000000⟩]
  perTenant := ∅

/-- A server that has just started. -/
def reloginStart : World where
  __ := startWorld ⟨"", "", ∅, ∅⟩ (.new 1)
  auth := loginStart

/-- A call of the handshake, or a broadcast of a request with headers. -/
inductive ReloginCall where
  | auth (env : AuthEnv) (op : AuthOp)
  | broadcast (headers : RequestHeaders) (clientID : String)

/-- The next step of a run, with a node that accepts everything. -/
def reloginStep (before : List ServerStep × World) : ReloginCall → List ServerStep × World
  | .auth env op =>
    let (reply, auth) := performAuth loginDeps before.2.auth env op
    (before.1 ++ [.auth ⟨before.2.auth, env, op, reply⟩], { before.2 with auth })
  | .broadcast headers clientID =>
    let (events, after, _) := runAlone (server reloginDeps) (fun _ => acceptingEnv 4) 0 before.2
      (broadcastSignedTx reloginDeps (resolveTenant before.2.auth 4 headers) ⟨clientID, ""⟩)
    (before.1 ++ [.broadcast events], after)

/-- The steps of calls one after the other. -/
def relogin (calls : List ReloginCall) : List ServerStep × World :=
  calls.foldl reloginStep ([], reloginStart)

/-- The logins and broadcasts are a run. -/
theorem serverRun_relogin (calls : List ReloginCall) :
    ServerRun loginDeps reloginDeps reloginStart (relogin calls).1 (relogin calls).2 := by
  induction calls using List.reverseRecOn with
  | nil => exact .start
  | append_singleton calls call ih =>
    rw [relogin, List.foldl_append]
    cases call with
    | auth env op => exact .auth ih env op
    | broadcast headers clientID =>
      exact .broadcast ih 4 headers ⟨clientID, ""⟩ _ _ (exec_runAlone _ 0 _ _)

/-- The check of the day, decided. -/
theorem onDay_of_all {today : Time} {steps : List ServerStep}
    (all : (steps.all fun
      | .auth _ => true
      | .broadcast events => events.all fun e => utcDay e.env.now = utcDay today) = true) :
    OnDay today steps := by
  intro events member e here
  have inAll := List.all_eq_true.mp all _ member
  exact of_decide_eq_true (List.all_eq_true.mp inAll e here)

/-- The owner logs in, withdraws the cap, logs in again and withdraws the cap again. -/
def reloginCalls : List ReloginCall :=
  [.auth ⟨0, "n0", "", ""⟩ (.challenge "" "svp1owner"),
   .auth ⟨1, "", "b0", "t0"⟩ (.verify "n0" "" "session"),
   .broadcast ⟨"", "session"⟩ "first",
   .auth ⟨2, "n1", "", ""⟩ (.challenge "" "svp1owner"),
   .auth ⟨3, "", "b1", "t1"⟩ (.verify "n1" "" "session"),
   .broadcast ⟨"", "session"⟩ "second"]

/-- With a daily cap of 1 USDC, the accepted transactions of one owner withdraw 2 USDC in one
day. -/
theorem wallet_overruns_cap_by_login :
    ServerRun loginDeps reloginDeps reloginStart (relogin reloginCalls).1
        (relogin reloginCalls).2 ∧
      OnDay 0 (relogin reloginCalls).1 ∧
      reloginDeps.limits.dailyWithdrawCapUSDC = 1 ∧
      mintedFor "svp1owner" (relogin reloginCalls).1 = ["auto-t0", "auto-t1"] ∧
      walletWithdrawn reloginDeps.codec "svp1owner" (relogin reloginCalls).1 = 2 * 10 ^ 6 :=
  ⟨serverRun_relogin reloginCalls, onDay_of_all (by decide +kernel), rfl, by decide +kernel,
    by decide +kernel⟩

/-- The bound of the wallet that logs in twice. -/
theorem wallet_withdrawals_bounded_by_two_logins :
    walletWithdrawn reloginDeps.codec "svp1owner" (relogin reloginCalls).1 ≤
      (0 + (mintedFor "svp1owner" (relogin reloginCalls).1).length) * (1 * 10 ^ 6) :=
  wallet_withdrawals_bounded_by_logins loginDeps reloginDeps reloginStart _ _
    (serverRun_relogin reloginCalls) "svp1owner" [] 0 (fun _ _ found _ => nomatch found)
    (fun _ _ found _ => nomatch found) (by decide) (by decide) (.new 1) rfl rfl
    (onDay_of_all (by decide +kernel))

end SvpMcp
