import SvpMcp.Verif.DayUsage
import SvpMcp.Verif.Handlers

/-!
# A signed broadcast from start to end

What a run of `BroadcastSignedTx`, with no other request in between, has established when it calls
the node and what it has done to the ledger when it returns.
-/

namespace SvpMcp

open Calendar Handler Program

variable {ctx : Context} {input : BroadcastSignedTxInput} {tp : TenantPolicy}
  {condition : Bool} {tx : CheckedTx} {e : Err}

/-- Runs of the server's handlers with no other request in between. -/
abbrev Alone {α : Type} (deps : Deps) (w : World) (h : Handler α)
    (events : Events) (w' : World) (result : Except Fault α) :
    Prop :=
  Exec (server deps) w h events w' result

/-- A handler returns a value, with no other request in between, and something holds of each of
its calls. -/
abbrev Gives {α : Type} (deps : Deps) (holds : Event World Env ServerOp Reply → Prop) (w : World)
    (h : Handler α) (w' : World) (value : α) : Prop :=
  Completes (server deps) holds w h w' value

/-- The run with given contributions of the environment is one. -/
theorem alone_runAlone {α : Type} (deps : Deps) (envs : Nat → Env) (n : Nat) (w : World)
    (h : Handler α) :
    Alone deps w h (runAlone (server deps) envs n w h).1 (runAlone (server deps) envs n w h).2.1
      (runAlone (server deps) envs n w h).2.2 :=
  exec_runAlone envs n w h

/-- The operations that leave the ledger alone. -/
def KeepsLedger : ServerOp → Prop
  | .enforce _ _ _ => False
  | .recordWithdraw _ _ => False
  | _ => True

/-- The operations that record no withdrawal. -/
def KeepsUsage : ServerOp → Prop
  | .recordWithdraw _ _ => False
  | _ => True

/-- The operations that do not hand a signed transaction to the node. -/
def AvoidsNode : ServerOp → Prop
  | .broadcastSync _ => False
  | _ => True

variable {α : Type} {deps : Deps} {w w' : World} {events : Events}
  {result outcome : Except Fault α} {h : Handler α} {holds : Event World Env ServerOp Reply → Prop}

/-- A run that returns has made its own calls. -/
theorem alone_gives {value : α} (run : Alone deps w h events w' (.ok value)) :
    Gives deps (· ∈ events) w h w' value :=
  ⟨events, run, fun _ member => member⟩

/-- A result is returned when it is one. -/
@[simp]
theorem gives_ofResult {result : Except Err α} {value : α} :
    Gives deps holds w (ofResult result) w' value ↔ w = w' ∧ result = .ok value := by
  cases result with
  | ok found => simp [ofResult]
  | error e => simp [ofResult, fail]

/-- The result of a call is returned when it is one. -/
@[simp]
theorem gives_ofCall {result : Except Fault α} {value : α} :
    Gives deps holds w (ofCall result) w' value ↔ w = w' ∧ result = .ok value := by
  cases result with
  | ok found => simp [ofCall]
  | error fault => simp [ofCall]

/-- A requirement is passed when it is met. -/
@[simp]
theorem gives_require {value : Unit} :
    Gives deps holds w (require condition e) w' value ↔ w = w' ∧ condition = true := by
  cases condition with
  | true => simp [require]
  | false => simp [require, fail]

/-- An error returns no value. -/
@[simp]
theorem gives_fail {value : α} : Gives deps holds w (fail e) w' value ↔ False :=
  completes_throw

/-- A call returns what the server replies. -/
theorem gives_call {op : ServerOp} {reply : Reply op} :
    Gives deps holds w (call op) w' reply ↔
      ∃ env, holds ⟨w, env, op, reply⟩ ∧ perform deps w env op = (reply, w') :=
  completes_lift

/-- A lookup returns what the engine finds. -/
@[simp]
theorem gives_tenant {tenantID : String} {found : Except Err TenantPolicy} :
    Gives (α := no_index (Reply (.tenant tenantID))) deps holds w (call (.tenant tenantID)) w'
      found ↔ w = w' ∧ ∃ env, holds ⟨w, env, .tenant tenantID, found⟩ ∧
        engineTenant deps.perTenant w.auth.tenants env.now tenantID = found := by
  constructor
  · intro asked
    obtain ⟨env, here, performed⟩ := gives_call.mp asked
    exact ⟨congrArg Prod.snd performed, env, here, congrArg Prod.fst performed⟩
  · rintro ⟨rfl, env, here, answered⟩
    exact gives_call.mpr ⟨env, here, Prod.ext answered rfl⟩

/-- No handler changes the handshake's stores. -/
theorem alone_auth (run : Alone deps w h events w' result) : w'.auth = w.auth := by
  induction run with
  | done => rfl
  | call w env op next rest ih => exact ih.trans (perform_auth _ _ _ op)

/-- Operations that leave every store as it is. -/
def LeavesWorld (deps : Deps) (op : ServerOp) : Prop :=
  ∀ w env, ((server deps).perform w env op).2 = w

/-- A handler that leaves the stores leaves the world. -/
theorem alone_world (only : Only (LeavesWorld deps) h) (run : Alone deps w h events w' result) :
    w' = w := by
  induction run with
  | done => rfl
  | call w env op next rest ih => rw [ih (only.2 _), only.1]

/-- The authorization leaves every store as it is. -/
theorem authorize_world {tool : String} {result : Except Fault TenantPolicy}
    (run : Alone deps w (authorize ctx tool) events w' result) : w' = w :=
  alone_world (authorize_only (fun _ _ _ => rfl) (fun _ _ _ => rfl) _ _) run

/-- A request that is let in leaves every store as it is. -/
theorem authorize_gives {tool : String} (run : Gives deps holds w (authorize ctx tool) w' tp) :
    w' = w := by
  obtain ⟨_, run, _⟩ := run
  exact authorize_world run

/-- No handler takes the ledger away or changes its cap. -/
theorem alone_ledgerCap {capQ : UInt64} (run : Alone deps w h events w' result)
    (capped : LedgerCap capQ w) : LedgerCap capQ w' := by
  induction run with
  | done => exact capped
  | call w env op next rest ih => exact ih (perform_ledgerCap deps env op capped)

/-- A handler without ledger operations leaves the ledger. -/
theorem alone_ledger (only : Only KeepsLedger h) (run : Alone deps w h events w' result) :
    w'.ledger = w.ledger := by
  induction run with
  | done => rfl
  | call w env op next rest ih =>
    rw [ih (only.2 _)]
    cases op with
    | enforce => exact only.1.elim
    | recordWithdraw => exact only.1.elim
    | _ => rfl

/-- Within one day a handler that records no withdrawal keeps the tenants' totals. -/
theorem alone_withdrawnOn (only : Only KeepsUsage h) (run : Alone deps w h events w' result)
    {today : Time} (tenantID : String) (oneDay : ∀ e ∈ events, utcDay e.env.now = utcDay today) :
    withdrawnOn tenantID today w' = withdrawnOn tenantID today w := by
  induction run with
  | done => rfl
  | call w env op next rest ih =>
    rw [ih (only.2 _) fun e member => oneDay e (List.mem_cons_of_mem _ member)]
    have same := (formatDay_eq_iff env.now today).mpr (oneDay _ List.mem_cons_self)
    cases op with
    | enforce id tool q => exact withdrawnOn_rollover tenantID same (enforce_ledger _ _ _ _ _ _)
    | recordWithdraw => exact only.1.elim
    | _ => rfl

/-- A result runs without a call. -/
theorem alone_ofResult_eq {result : Except Err α}
    (run : Alone deps w (ofResult result) events w' outcome) :
    events = [] ∧ w' = w ∧ outcome = result.mapError .error := by
  cases result with
  | ok found =>
    cases run
    exact ⟨rfl, rfl, rfl⟩
  | error e =>
    cases run
    exact ⟨rfl, rfl, rfl⟩

/-- A step that calls nothing, and what follows it. -/
theorem alone_silent_bind {β : Type} {first : Handler β} {next : β → Handler α}
    (silent : Only (fun _ => False) first)
    (run : Alone deps w (first >>= next) events w' outcome) :
    ((∀ value, ¬ Gives deps (fun _ => True) w first w value) ∧ (∃ fault, outcome = .error fault) ∧
      events = [] ∧ w' = w) ∨
    ∃ value, Gives deps (fun _ => True) w first w value ∧
      Alone deps w (next value) events w' outcome := by
  match first, silent, run with
  | Program.done (.ok value), _, run => exact .inr ⟨value, ⟨[], .done _ _, by simp⟩, run⟩
  | Program.done (.error fault), _, run =>
    cases run
    refine .inl ⟨?_, ⟨fault, rfl⟩, rfl, rfl⟩
    rintro value ⟨_, run, _⟩
    cases run
  | Program.call _ _, silent, _ => exact silent.1.elim

/-- A result that is returned is one. -/
theorem alone_ofResult {result : Except Err α} {value : α}
    (run : Alone deps w (ofResult result) events w' (.ok value)) :
    result = .ok value ∧ events = [] ∧ w' = w := by
  obtain ⟨noEvents, sameWorld, outcome⟩ := alone_ofResult_eq run
  exact ⟨mapError_eq_ok.mp outcome.symm, noEvents, sameWorld⟩

/-- A request that is let in belongs to the tenant the engine finds. -/
theorem authorize_ok {tool : String} (run : Gives deps holds w (authorize ctx tool) w' tp) :
    ActsFor deps w ctx tp := by
  cases ctx with
  | none => simp [authorize] at run
  | some tc =>
    simp [authorize, checkTenant] at run
    obtain ⟨_, _, _, _, _, env, _, found, _⟩ := run
    exact ⟨tc, env.now, rfl, found⟩

/-- A decoded transaction is signed by the tenant's owner. -/
theorem decodeSignedTx_ok {rawBytes : Bytes} {signerAddr : String}
    (run : Gives deps holds w (decodeSignedTx deps tp input) w' (rawBytes, signerAddr)) :
    signerAddr = tp.owner ∧ signerAddressFromTxRaw deps.codec rawBytes = .ok tp.owner := by
  simp [decodeSignedTx] at run
  obtain ⟨_, signed, _, isOwner⟩ := run
  exact ⟨isOwner.symm, signed⟩

/-- The daily check passed for what the transaction withdraws. -/
theorem enforceWithdraw_ok {rawBytes : Bytes} {withdrawQ : UInt64}
    (run : Gives deps holds w (enforceWithdraw deps tp rawBytes) w' withdrawQ) :
    extractWithdrawQuantums deps.codec rawBytes = .ok withdrawQ ∧
      (withdrawQ = 0 ∧ w'.ledger = w.ledger ∨ 0 < withdrawQ ∧ ∃ e, holds e ∧
        enforce deps.limits w.ledger e.env.now tp.tenantID .withdraw withdrawQ =
          (.ok (), w'.ledger)) := by
  simp [enforceWithdraw] at run
  obtain ⟨q, total, run⟩ := run
  by_cases positive : 0 < q
  · simp [positive] at run
    obtain ⟨⟨_, asked⟩, rfl⟩ := run
    obtain ⟨env, here, enforced⟩ := gives_call.mp asked
    have accepted := congrArg Prod.fst enforced
    have after := congrArg (·.2.ledger) enforced
    exact ⟨total, .inr ⟨positive, _, here, Prod.ext accepted after⟩⟩
  · simp [positive] at run
    obtain ⟨rfl, rfl⟩ := run
    have zero : q = 0 := by
      have bound := UInt64.not_lt.mp positive
      rw [UInt64.le_iff_toNat_le, UInt64.toNat_zero] at bound
      exact UInt64.toNat_inj.mp (by rw [UInt64.toNat_zero]; omega)
    exact ⟨total, .inl ⟨zero, rfl⟩⟩

/-- A handler without ledger operations that returns leaves the ledger. -/
theorem gives_ledger {value : α} (only : Only KeepsLedger h) (run : Gives deps holds w h w' value) :
    w'.ledger = w.ledger := by
  obtain ⟨_, run, _⟩ := run
  exact alone_ledger only run

/-- The checks other than the daily one leave the ledger. -/
theorem enforceBankSends_keepsLedger (deps : Deps) (tp : TenantPolicy) (rawBytes : Bytes)
    (signerAddr : String) : Only KeepsLedger (enforceBankSends deps tp rawBytes signerAddr) :=
  enforceBankSends_only deps tp rawBytes signerAddr (fun _ => trivial) fun _ _ => trivial

/-- What is known of a transaction that has passed the checks. -/
structure Vetted (deps : Deps) (ctx : Context) (w : World) (envs : List Env)
    (tx : CheckedTx) (w' : World) : Prop where
  /-- The tenant is the one the engine finds for the request. -/
  tenant : ∃ tc now, ctx = some tc ∧
    engineTenant deps.perTenant w.auth.tenants now tc.tenantID = .ok tx.tp
  /-- The signer is the tenant's owner. -/
  signer : signerAddressFromTxRaw deps.codec tx.rawBytes = .ok tx.tp.owner
  /-- The withdrawals are those of the transaction. -/
  withdraws : extractWithdrawQuantums deps.codec tx.rawBytes = .ok tx.withdrawQ
  /-- The daily check passed, or there is nothing to withdraw. -/
  enforced : tx.withdrawQ = 0 ∧ w'.ledger = w.ledger ∨ 0 < tx.withdrawQ ∧ ∃ env ∈ envs,
    enforce deps.limits w.ledger env.now tx.tp.tenantID .withdraw tx.withdrawQ =
      (.ok (), w'.ledger)

/-- A transaction that passes the checks is vetted. -/
theorem checkSignedTx_ok (run : Alone deps w (checkSignedTx deps ctx input) events w' (.ok tx)) :
    Vetted deps ctx w (events.map Event.env) tx w' := by
  have given := alone_gives run
  simp [checkSignedTx] at given
  obtain ⟨w1, tp, authorized, w2, ⟨_, claimed⟩, w3, rawBytes, signerAddr, decoding, w4, withdrawQ,
    enforcing, bankOut, sending, rfl⟩ := given
  have before : w3.ledger = w.ledger := by
    rw [gives_ledger (decodeSignedTx_only deps tp input) decoding,
      gives_ledger (claimClientID_only trivial (fun _ _ _ => trivial) _ _) claimed,
      gives_ledger (authorize_only (fun _ => trivial) (fun _ => trivial) _ _) authorized]
  have after : w'.ledger = w4.ledger :=
    gives_ledger (enforceBankSends_keepsLedger deps tp rawBytes signerAddr) sending
  obtain ⟨total, passed⟩ := enforceWithdraw_ok enforcing
  refine ⟨authorize_ok authorized, (decodeSignedTx_ok decoding).2, total, ?_⟩
  rw [after, ← before]
  rcases passed with nothing | ⟨positive, e, member, passed⟩
  · exact .inl nothing
  · exact .inr ⟨positive, e.env, List.mem_map_of_mem member, passed⟩

variable {result : Except Fault BroadcastResult}

/-- What the part behind the node's answer does to the ledger. -/
theorem settleSignedTx_ledger {q : UInt64} {bankOut : Table String Int} {res : BroadcastResult}
    (run : Alone deps w (settleSignedTx tp q bankOut res) events w' result) :
    if res.code = 0 ∧ 0 < q then
      ∃ env ∈ events.map Event.env, w'.ledger = w.ledger.map fun l => l.record env.now tp.tenantID q
    else w'.ledger = w.ledger := by
  have recordOnly : Only KeepsLedger
      (recordTransferOut tp.owner bankOut >>= fun _ => pure res : Handler BroadcastResult) :=
    only_bind (recordTransferOut_only _ _ (fun _ => trivial) fun _ _ _ => trivial)
      fun _ => only_pure _
  unfold settleSignedTx at run
  by_cases rejected : res.code ≠ 0
  · rw [if_pos rejected] at run
    rw [if_neg fun both => rejected both.1]
    cases parsed : parseBroadcastError res with
    | none =>
      rw [parsed] at run
      cases run
      rfl
    | some e =>
      rw [parsed] at run
      cases run
      rfl
  · rw [if_neg rejected] at run
    have accepted : res.code = 0 := not_not.mp rejected
    by_cases positive : q > 0
    · rw [if_pos ⟨accepted, positive⟩]
      simp only [if_pos positive] at run
      rcases exec_bindExcept run with ⟨e, failed, _⟩ | ⟨first, mid, _, rest, split, record, run⟩
      · obtain ⟨_, _, _, impossible⟩ := exec_lift failed
        cases impossible
      · obtain ⟨env, here, after, _⟩ := exec_lift record
        refine ⟨env, by simp [split, here], ?_⟩
        rw [alone_ledger recordOnly run, after]
        rfl
    · rw [if_neg fun both => positive both.2]
      simp only [if_neg positive] at run
      exact alone_ledger recordOnly run

/-- The node took the transaction. -/
def accepts : Except String BroadcastResult → Bool
  | .ok r => r.code = 0
  | .error _ => false

/-- What the part behind the node's answer does to the ledger. -/
theorem concludeSignedTx_ledger {clientID : String} {res : Except String BroadcastResult}
    (run : Alone deps w (concludeSignedTx clientID tx res) events w' result) :
    if accepts res = true ∧ 0 < tx.withdrawQ then
      ∃ env ∈ events.map Event.env,
        w'.ledger = w.ledger.map fun l => l.record env.now tx.tp.tenantID tx.withdrawQ
    else w'.ledger = w.ledger := by
  rcases exec_bindExcept run with ⟨e, failed, _⟩ | ⟨first, mid, _, rest, split, audit, run⟩
  · obtain ⟨_, _, _, impossible⟩ := exec_lift failed
    cases impossible
  · obtain ⟨_, _, after, _⟩ := exec_lift audit
    have kept : mid.ledger = w.ledger := by
      rw [after]
      rfl
    cases res with
    | error text =>
      rw [if_neg fun both => absurd both.1 (by simp [accepts])]
      cases run
      exact kept
    | ok r =>
      rcases exec_bindExcept run with ⟨e, failed, _⟩ | ⟨none, mid', found, last, split', ok, run⟩
      · cases failed
      · cases ok
        have settled := settleSignedTx_ledger run
        simp only [accepts, decide_eq_true_eq]
        split at settled
        · rename_i recorded
          obtain ⟨env, member, ledger⟩ := settled
          rw [if_pos recorded]
          refine ⟨env, ?_, by rw [ledger, kept]⟩
          rw [split, split', List.map_append, List.mem_append]
          exact .inr member
        · rename_i unrecorded
          rw [if_neg unrecorded, settled, kept]

/-- A run behind the checks: it calls the node once and records when the node accepts. -/
theorem submitSignedTx_run {clientID : String}
    (run : Alone deps w (submitSignedTx clientID tx) events w' result) :
    ∃ env rest, events = ⟨w, env, .broadcastSync tx.rawBytes, env.broadcast⟩ :: rest ∧
      (∀ e ∈ rest, AvoidsNode e.op) ∧
      if accepts env.broadcast = true ∧ 0 < tx.withdrawQ then
        ∃ env' ∈ rest.map Event.env,
          w'.ledger = w.ledger.map fun l => l.record env'.now tx.tp.tenantID tx.withdrawQ
      else w'.ledger = w.ledger := by
  rcases exec_bindExcept run with ⟨e, failed, _⟩ | ⟨first, mid, res, rest, split, node, run⟩
  · obtain ⟨_, _, _, impossible⟩ := exec_lift failed
    cases impossible
  · obtain ⟨env, here, after, reply⟩ := exec_lift node
    have sameReply : res = env.broadcast := Except.ok.inj reply
    rw [sameReply, after] at run
    have avoids : Only AvoidsNode (concludeSignedTx clientID tx env.broadcast) :=
      concludeSignedTx_only _ _ _ (fun _ => trivial) trivial (fun _ => trivial)
        fun _ _ _ => trivial
    refine ⟨env, rest, ?_, exec_calls avoids run, concludeSignedTx_ledger run⟩
    rw [split, here]
    rfl

/-- A run of `BroadcastSignedTx` ends before the node is called and keeps all totals of the
day, or it hands one vetted transaction to the node and records it when it is accepted. -/
theorem broadcastSignedTx_run
    (run : Alone deps w (broadcastSignedTx deps ctx input) events w' result) :
    ((∀ e ∈ events, AvoidsNode e.op) ∧
      ∀ tenantID today, (∀ e ∈ events, utcDay e.env.now = utcDay today) →
        withdrawnOn tenantID today w' = withdrawnOn tenantID today w) ∨
    ∃ (tx : CheckedTx) (checks : Events) (mid : World) (env : Env)
      (rest : Events),
      events = checks ++ ⟨mid, env, .broadcastSync tx.rawBytes, env.broadcast⟩ :: rest ∧
      (∀ e ∈ checks, AvoidsNode e.op) ∧ (∀ e ∈ rest, AvoidsNode e.op) ∧
      Vetted deps ctx w (checks.map Event.env) tx mid ∧
      if accepts env.broadcast = true ∧ 0 < tx.withdrawQ then
        ∃ env' ∈ rest.map Event.env,
          w'.ledger = mid.ledger.map fun l => l.record env'.now tx.tp.tenantID tx.withdrawQ
      else w'.ledger = mid.ledger := by
  have allowsAvoiding : AllowsChecks AvoidsNode :=
    ⟨fun _ => trivial, fun _ => trivial, trivial, fun _ _ _ => trivial, fun _ => trivial,
      fun _ _ _ => trivial⟩
  have avoids : Only AvoidsNode (checkSignedTx deps ctx input) :=
    checkSignedTx_only allowsAvoiding (fun _ _ => trivial) deps ctx input
  have allowsKeeping : AllowsChecks KeepsUsage :=
    ⟨fun _ => trivial, fun _ => trivial, trivial, fun _ _ _ => trivial, fun _ => trivial,
      fun _ _ _ => trivial⟩
  have keeps : Only KeepsUsage (checkSignedTx deps ctx input) :=
    checkSignedTx_only allowsKeeping (fun _ _ => trivial) deps ctx input
  rcases exec_bindExcept run with ⟨e, failed, _⟩ | ⟨checks, mid, tx, rest, split, checked, run⟩
  · refine .inl ⟨exec_calls avoids failed, ?_⟩
    intro tenantID today oneDay
    exact alone_withdrawnOn keeps failed tenantID oneDay
  · obtain ⟨env, last, here, quiet, settled⟩ := submitSignedTx_run run
    rw [here] at split
    exact .inr ⟨tx, checks, mid, env, last, split, exec_calls avoids checked, quiet,
      checkSignedTx_ok checked, settled⟩

end SvpMcp
