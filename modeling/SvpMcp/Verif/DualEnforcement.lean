import SvpMcp.Verif.Inspection
import SvpMcp.Verif.SignedBroadcast

/-!
# Caps at broadcast

The withdraw caps hold of every transaction the broadcast handler passes on. The deposit and
transfer caps are not checked again.
-/

namespace SvpMcp

open Calendar Handler Program

namespace MemoryLedger

variable (l : MemoryLedger)

/-- The headroom is at most the cap. -/
theorem remaining_le (now : Time) (tenantID : String) :
    (l.remaining now tenantID).1.toNat ≤ l.capQuantums.toNat := by
  simp only [remaining, rollover_capQuantums]
  split
  · rw [UInt64.toNat_zero]
    omega
  · rename_i room
    rw [UInt64.toNat_sub_of_le _ _ (UInt64.le_of_lt (UInt64.not_le.mp room))]
    omega

/-- A rolled-over ledger has at least as much left at any instant as when it was rolled over:
the same on the same day, the whole cap on another. -/
theorem remaining_le_rollover (now other : Time) (tenantID : String) :
    (l.remaining now tenantID).1.toNat ≤ ((l.rollover now).remaining other tenantID).1.toNat := by
  by_cases same : formatDay now = formatDay other
  · rw [remaining, remaining, l.rollover_rollover same, l.rollover_congr same]
  · have onDay : (l.rollover now).day = formatDay now := l.rollover_day now
    have cleared : ((l.rollover now).rollover other).usedBy tenantID = 0 := by
      rw [rollover, if_neg (by rw [onDay]; exact same)]
      rfl
    have whole : ((l.rollover now).remaining other tenantID).1 = l.capQuantums := by
      simp only [remaining, cleared, rollover_capQuantums]
      split
      · rename_i none
        exact UInt64.toNat_inj.mp (by
          rw [ge_iff_le, UInt64.le_iff_toNat_le, UInt64.toNat_zero] at none
          rw [UInt64.toNat_zero]
          omega)
      · exact UInt64.sub_zero _
    rw [whole]
    exact l.remaining_le now tenantID

end MemoryLedger

/-- A passed `Enforce` of a withdrawal is within the cap of one transaction. -/
theorem enforce_perTx {cfg : Config} {ledger : Option MemoryLedger} {now : Time}
    {tenantID : String} {q : UInt64}
    (passed : (enforce cfg ledger now tenantID .withdraw q).1 = .ok ()) :
    WithinCap (perToolCapQuantums cfg .withdraw) q.toNat := by
  intro cap enabled
  have perTx : checkPerTx cfg .withdraw q = .ok () := by
    cases checked : checkPerTx cfg .withdraw q with
    | ok _ => rfl
    | error e =>
      unfold enforce at passed
      rw [checked] at passed
      cases passed
  unfold checkPerTx at perTx
  rw [enabled] at perTx
  by_cases exceeds : q > cap
  · simp only [if_pos exceeds] at perTx
    cases perTx
  · exact UInt64.le_iff_toNat_le.mp (UInt64.not_lt.mp exceeds)

/-- A passed `Enforce` of a withdrawal is within what the ledger it leaves has left, at any
instant. -/
theorem enforce_daily {cfg : Config} {ledger after : Option MemoryLedger} {now : Time}
    {tenantID : String} {q : UInt64}
    (passed : enforce cfg ledger now tenantID .withdraw q = (.ok (), after)) (later : Time) :
    WithinDailyCap cfg after later tenantID q.toNat := by
  intro l cap present enabled
  unfold enforce at passed
  cases checked : checkPerTx cfg .withdraw q with
  | error e =>
    rw [checked] at passed
    cases passed
  | ok _ =>
    simp only [checked] at passed
    cases ledger with
    | none =>
      cases passed
      cases present
    | some before =>
      simp only [ne_eq, not_true_eq_false, if_false, enabled] at passed
      by_cases exceeds : q > (before.remaining now tenantID).1
      · rw [if_pos exceeds] at passed
        cases passed
      · rw [if_neg exceeds] at passed
        cases passed
        cases present
        have fits := UInt64.le_iff_toNat_le.mp (UInt64.not_lt.mp exceeds)
        have grows := before.remaining_le_rollover now later tenantID
        exact Nat.le_trans fits grows

/-- What a vetted transaction withdraws is within both withdraw caps. -/
theorem vetted_withdraw_caps {deps : Deps} {ctx : Context} {w mid : World}
    {envs : List Env} {tx : CheckedTx} (vetted : Vetted deps ctx w envs tx mid) (now : Time) :
    WithinCap (perToolCapQuantums deps.limits .withdraw)
        (usdcWithdrawn (txMsgs deps.codec tx.rawBytes)) ∧
      WithinDailyCap deps.limits mid.ledger now tx.tp.tenantID
        (usdcWithdrawn (txMsgs deps.codec tx.rawBytes)) := by
  rw [← extractWithdrawQuantums_toNat vetted.withdraws]
  rcases vetted.enforced with ⟨zero, _⟩ | ⟨_, env, _, passed⟩
  · rw [zero, UInt64.toNat_zero]
    exact ⟨fun _ _ => Nat.zero_le _, fun _ _ _ _ => Nat.zero_le _⟩
  · exact ⟨enforce_perTx (congrArg Prod.fst passed), enforce_daily passed now⟩

/-- Every cap of the build tools holds of the messages a transaction passes to the chain, for
the tenant at that moment. -/
def CapsHold (deps : Deps) (node : Event World Env ServerOp Reply) (tenantID : String)
    (msgs : List Msg) : Prop :=
  DepositsWithin deps.limits msgs ∧ TransfersWithin deps.limits msgs ∧
    WithinCap (perToolCapQuantums deps.limits .withdraw) (usdcWithdrawn msgs) ∧
    WithinDailyCap deps.limits node.before.ledger node.env.now tenantID (usdcWithdrawn msgs)

/-- For every transaction that a run of `BroadcastSignedTx` passes to the chain, all caps of
the build tools hold exactly when its deposits and transfers keep theirs by themselves. -/
theorem broadcast_caps_hold_iff (deps : Deps) (w w' : World) (ctx : Context)
    (input : BroadcastSignedTxInput) (events : Events)
    (result : Except Fault BroadcastResult)
    (run : Alone deps w (broadcastSignedTx deps ctx input) events w' result)
    (node : Event World Env ServerOp Reply) (passed : node ∈ events) (rawBytes : Bytes)
    (isBroadcast : node.op = .broadcastSync rawBytes) :
    ∃ tc now tp, ctx = some tc ∧
      engineTenant deps.perTenant w.auth.tenants now tc.tenantID = .ok tp ∧
      (CapsHold deps node tp.tenantID (txMsgs deps.codec rawBytes) ↔
        DepositsWithin deps.limits (txMsgs deps.codec rawBytes) ∧
          TransfersWithin deps.limits (txMsgs deps.codec rawBytes)) := by
  rcases broadcastSignedTx_run run with ⟨avoids, _⟩ |
    ⟨tx, checks, mid, env, rest, split, before, after, vetted, _⟩
  · have impossible := avoids node passed
    rw [isBroadcast] at impossible
    exact impossible.elim
  · have here : node = ⟨mid, env, .broadcastSync tx.rawBytes, env.broadcast⟩ := by
      rw [split] at passed
      rcases List.mem_append.mp passed with early | late
      · have impossible := before node early
        rw [isBroadcast] at impossible
        exact impossible.elim
      · rcases List.mem_cons.mp late with here | late
        · exact here
        · have impossible := after node late
          rw [isBroadcast] at impossible
          exact impossible.elim
    have sameBytes : tx.rawBytes = rawBytes := by
      rw [here] at isBroadcast
      exact ServerOp.broadcastSync.inj isBroadcast
    obtain ⟨tc, now, requested, found⟩ := vetted.tenant
    have caps := vetted_withdraw_caps vetted env.now
    rw [sameBytes] at caps
    refine ⟨tc, now, tx.tp, requested, found, ?_⟩
    rw [here]
    constructor
    · intro all
      exact ⟨all.1, all.2.1⟩
    · intro both
      exact ⟨both.1, both.2, caps.1, caps.2⟩

/-- The deposit cap is 1 USDC and every transaction deposits 2. -/
def depositDeps : Deps :=
  fixedDeps ⟨1, 0, 0, 1⟩ ⟨"tenant", "svp1owner", [], false⟩
    [.depositToSubaccount ⟨"svp1owner", ⟨"svp1owner", 0⟩, 0, 2000000⟩]

/-- A server without transfer-out caps. -/
def depositWorld : World :=
  startWorld ⟨"", "", ∅, ∅⟩ (.new 1)

/-- The request that broadcasts the deposit. -/
def depositRequest : Handler BroadcastResult :=
  broadcastSignedTx depositDeps ownerContext ⟨"first", ""⟩

/-- What the request does when the node accepts it. -/
def depositRun : Events × World × Except Fault BroadcastResult :=
  runAlone (server depositDeps) (fun _ => acceptingEnv 0) 0 depositWorld depositRequest

/-- The run hands the transaction to the node. -/
theorem depositRun_reaches_node :
    ∃ node ∈ depositRun.1, node.op = .broadcastSync [] := by
  have found : (depositRun.1.any fun e => decide (e.op = .broadcastSync [])) = true := by
    decide +kernel
  obtain ⟨node, member, isBroadcast⟩ := List.any_eq_true.mp found
  exact ⟨node, member, of_decide_eq_true isBroadcast⟩

/-- The node is handed a deposit over the deposit cap. -/
theorem deposit_over_cap_reaches_node :
    Alone depositDeps depositWorld depositRequest depositRun.1 depositRun.2.1 depositRun.2.2 ∧
      ∃ node ∈ depositRun.1, node.op = .broadcastSync [] ∧
        ¬ CapsHold depositDeps node "tenant" (txMsgs depositDeps.codec []) := by
  refine ⟨exec_runAlone _ 0 depositWorld depositRequest, ?_⟩
  obtain ⟨node, member, isBroadcast⟩ := depositRun_reaches_node
  refine ⟨node, member, isBroadcast, ?_⟩
  intro caps
  have within := caps.1 ⟨"svp1owner", ⟨"svp1owner", 0⟩, 0, 2000000⟩ (.head _) rfl 1000000
    (by decide)
  exact absurd within (by decide)

/-- The equivalence at the over-cap deposit. -/
theorem broadcast_caps_hold_iff_deposit :
    ∃ node ∈ depositRun.1, ∃ (tc : TenantContext) (now : Time) (tp : TenantPolicy),
      some ⟨"tenant", "svp1owner"⟩ = some tc ∧
      engineTenant depositDeps.perTenant depositWorld.auth.tenants now tc.tenantID = .ok tp ∧
      (CapsHold depositDeps node tp.tenantID (txMsgs depositDeps.codec []) ↔
        DepositsWithin depositDeps.limits (txMsgs depositDeps.codec []) ∧
          TransfersWithin depositDeps.limits (txMsgs depositDeps.codec [])) := by
  obtain ⟨node, member, isBroadcast⟩ := depositRun_reaches_node
  refine ⟨node, member, ?_⟩
  exact broadcast_caps_hold_iff depositDeps depositWorld depositRun.2.1
    ownerContext ⟨"first", ""⟩ depositRun.1 depositRun.2.2
    (exec_runAlone _ 0 depositWorld depositRequest) node member [] isBroadcast

end SvpMcp
