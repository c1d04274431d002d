import SvpMcp.Verif.Clearance

/-!
# The audit trail

One row for every broadcast the node has answered. `AuditEntry` promises a row for every policy
denial as well, but no handler writes it. The node is called at most once.
-/

namespace SvpMcp

open Calendar Handler Program

variable {α : Type} {deps : Deps} {w w' : World} {events : Events}

/-- The outcome that the answer of a node is audited with. -/
def nodeOutcome : Event World Env ServerOp Reply → Option AuditOutcome
  | ⟨_, _, .broadcastSync _, res⟩ => some (if accepts res then .broadcast else .chainReject)
  | ⟨_, _, .sendTransaction _ _, .ok _⟩ => some .broadcast
  | ⟨_, _, .sendTransaction _ _, .error _⟩ => some .chainReject
  | _ => none

/-- What was decided about a call that passed authorization: the node's outcome, or a denial
when the node was not called. -/
def decision (events : Events) : AuditOutcome :=
  (events.findSome? nodeOutcome).getD .policyDenied

/-- A call has appended exactly one row, with the decision. -/
def AuditedOnce (w : World) (events : Events) (w' : World) : Prop :=
  ∃ now entry, w'.audit = w.audit ++ [(now, entry)] ∧ entry.outcome = decision events

/-- The operations that neither write a row nor call the node. -/
def Unaudited : ServerOp → Prop
  | .audit _ => False
  | .broadcastSync _ => False
  | .sendTransaction _ _ => False
  | _ => True

/-- A run of such operations writes nothing and calls no node. -/
theorem alone_audit {h : Handler α} {result : Except Fault α} (only : Only Unaudited h)
    (run : Alone deps w h events w' result) :
    w'.audit = w.audit ∧ ∀ e ∈ events, nodeOutcome e = none := by
  induction run with
  | done =>
    refine ⟨rfl, ?_⟩
    intro e member
    cases member
  | call w env op next rest ih =>
    obtain ⟨sameLog, quiet⟩ := ih (only.2 _)
    have allowed := only.1
    constructor
    · rw [sameLog]
      cases op with
      | audit entry => exact allowed.elim
      | _ => rfl
    · intro e member
      rcases List.mem_cons.mp member with here | later
      · rw [here]
        cases op with
        | broadcastSync _ => exact allowed.elim
        | sendTransaction _ _ => exact allowed.elim
        | _ => rfl
      · exact quiet e later

/-- The authorization is such a run. -/
theorem authorize_unaudited (ctx : Context) (tool : String) :
    Only Unaudited (authorize ctx tool) :=
  authorize_only (fun _ => trivial) (fun _ => trivial) _ _

/-- So are the checks. -/
theorem vet_unaudited (deps : Deps) (tp : TenantPolicy) (r : BroadcastRequest) :
    Only Unaudited (r.vet deps tp) :=
  vet_only trivial (fun _ _ _ => trivial) (fun _ _ => trivial) (fun _ => trivial)
    (fun _ _ _ => trivial) deps tp r

/-- A run calls the node first and writes one row with its outcome. -/
def AuditsNode (w : World) (events : Events) (w' : World) : Prop :=
  ∃ node rest now entry, events = node :: rest ∧ nodeOutcome node = some entry.outcome ∧
    w'.audit = w.audit ++ [(now, entry)]

/-- The submission of a signed transaction writes the row of the answer. -/
theorem submitSignedTx_audits {clientID : String} {tx : CheckedTx}
    {result : Except Fault BroadcastResult}
    (run : Alone deps w (submitSignedTx clientID tx) events w' result) :
    AuditsNode w events w' := by
  cases run with
  | call _ env _ _ run =>
    cases run with
    | call _ env' _ _ run =>
      have settles : Only Unaudited (ofResult (wrapExternal "Tx.Service/BroadcastTx: %w"
          env.broadcast) >>= settleSignedTx tx.tp tx.withdrawQ tx.bankOut) := by
        apply only_bind (only_ofResult _)
        intro res
        exact settleSignedTx_only _ _ _ _ trivial (fun _ => trivial) fun _ _ _ => trivial
      have sameLog := (alone_audit settles run).1
      refine ⟨_, _, env'.now, broadcastEntry tx.tp clientID env.broadcast, rfl, ?_, sameLog⟩
      change some (if accepts env.broadcast then AuditOutcome.broadcast else .chainReject) = _
      cases env.broadcast with
      | error text => rfl
      | ok res =>
        by_cases code : res.code = 0
        · simp [accepts, broadcastEntry, code]
        · simp [accepts, broadcastEntry, code]

/-- The submission of an EVM transaction writes the row of the answer. -/
theorem submitEVMTx_audits {clientID : String} {checked : CheckedEVMTx}
    {result : Except Fault String}
    (run : Alone deps w (submitEVMTx deps clientID checked) events w' result) :
    AuditsNode w events w' := by
  cases run with
  | call _ env _ _ run =>
    cases run with
    | call _ env' _ _ run =>
      have settles : Only Unaudited (ofResult (wrapExternal "broadcast evm tx: %w" env.sent) >>=
          fun txHash => recordTransferOut checked.tp.owner checked.transferOut >>=
            fun _ => pure txHash) := by
        apply only_bind (only_ofResult _)
        intro txHash
        apply only_bind (recordTransferOut_only _ _ (fun _ => trivial) fun _ _ _ => trivial)
        intro _
        exact only_pure _
      have sameLog := (alone_audit settles run).1
      refine ⟨_, _, env'.now, evmEntry deps checked.tp clientID checked.tx env.sent, rfl, ?_,
        sameLog⟩
      change nodeOutcome ⟨w, env, .sendTransaction _ _, env.sent⟩ = _
      cases env.sent with
      | error text => rfl
      | ok txHash => rfl

/-- A submission calls the node and writes one row with its outcome. -/
theorem submit_audits {r : BroadcastRequest} {checked : r.Checked} {result : Except Fault Unit}
    (run : Alone deps w (r.submit deps checked) events w' result) : AuditsNode w events w' := by
  cases r with
  | signedTx ctx input =>
    rcases exec_bindExcept run with ⟨fault, submitting, _⟩ |
      ⟨first, mid, _, none, split, submitting, run⟩
    · exact submitSignedTx_audits submitting
    · cases run
      rw [split, List.append_nil]
      exact submitSignedTx_audits submitting
  | evmTx ctx input =>
    rcases exec_bindExcept run with ⟨fault, submitting, _⟩ |
      ⟨first, mid, _, none, split, submitting, run⟩
    · exact submitEVMTx_audits submitting
    · cases run
      rw [split, List.append_nil]
      exact submitEVMTx_audits submitting

/-- Calls that reach no node do not matter to the first outcome. -/
theorem findSome?_none {first rest : Events}
    (quiet : ∀ e ∈ first, nodeOutcome e = none) :
    (first ++ rest).findSome? nodeOutcome = rest.findSome? nodeOutcome := by
  rw [List.findSome?_append, List.findSome?_eq_none_iff.mpr quiet, Option.none_or]

/-- A broadcast call that passes authorization leaves exactly one row with what was decided about
it exactly when the server lets it through to the node: its client id is free, its transaction
decodes and is signed by the owner, and it is within the caps. -/
theorem audited_once_iff (deps : Deps) (w w' : World) (r : BroadcastRequest) (tp : TenantPolicy)
    (events : Events) (result : Except Fault Unit)
    (run : Alone deps w (r.handler deps) events w' result)
    (authorized : Authorized deps w r events tp) :
    AuditedOnce w events w' ↔ Cleared deps tp w events r := by
  obtain ⟨first, rest, split, authorizing, outcome⟩ := authorized_run run authorized
  have before := alone_audit (authorize_unaudited _ _) authorizing
  rcases outcome with ⟨uncleared, fault, vetting, _⟩ |
    ⟨cleared, checks, mid, checked, submission, split2, vetting, submitting⟩
  · refine iff_of_false ?_ uncleared
    rintro ⟨now, entry, grown, _⟩
    have same := (alone_audit (vet_unaudited deps tp r) vetting).1
    rw [same] at grown
    have lengths := congrArg List.length grown
    rw [List.length_append, List.length_singleton] at lengths
    omega
  · refine iff_of_true ?_ cleared
    have checkedLog := alone_audit (vet_unaudited deps tp r) vetting
    obtain ⟨node, later, now, entry, isFirst, nodeSaid, appended⟩ := submit_audits submitting
    refine ⟨now, entry, ?_, ?_⟩
    · rw [appended, checkedLog.1]
    · rw [decision, split, split2, findSome?_none before.2, findSome?_none checkedLog.2, isFirst,
        List.findSome?_cons, nodeSaid]
      rfl

/-- A run that reads the clock has passed authorization. -/
theorem authorized_of_now {r : BroadcastRequest} {result : Except Fault Unit}
    (run : Alone deps w (r.handler deps) events w' result)
    (reads : (events.any fun e => e.op = .now) = true) : ∃ tp, Authorized deps w r events tp := by
  rcases handler_run run with ⟨fault, authorizing, _, _⟩ | ⟨tp, first, rest, split, authorizing, _⟩
  · obtain ⟨e, member, isNow⟩ := List.any_eq_true.mp reads
    have skipped := authorize_skips authorizing .claim e member
    rw [of_decide_eq_true isNow] at skipped
    exact absurd rfl skipped
  · exact ⟨tp, first, rest, split, authorizing⟩

/-- A request to broadcast a transaction. -/
def idRequest : BroadcastRequest :=
  .signedTx ownerContext ⟨"id", ""⟩

/-- A server on which another account than the tenant's owner has signed every transaction. -/
def foreignSigner : Deps :=
  { idleDeps with codec := fixedCodec "svp1other" [] }

/-- What a server does with the request, alone and with an accepting node. -/
def requestRun (deps : Deps) (w : World) :
    Events × World × Except Fault Unit :=
  runAlone (server deps) (fun _ => acceptingEnv 0) 0 w (idRequest.handler deps)

/-- The run is one of the handler alone. -/
theorem requestRun_alone (deps : Deps) (w : World) : Alone deps w (idRequest.handler deps)
    (requestRun deps w).1 (requestRun deps w).2.1 (requestRun deps w).2.2 :=
  exec_runAlone _ 0 w _

/-- A transaction of another signer is refused after the authorization, without a row. -/
theorem denial_not_audited : ∃ tp,
    Alone foreignSigner tenInstantWorld (idRequest.handler foreignSigner)
      (requestRun foreignSigner tenInstantWorld).1 (requestRun foreignSigner tenInstantWorld).2.1
      (requestRun foreignSigner tenInstantWorld).2.2 ∧
    Authorized foreignSigner tenInstantWorld idRequest
      (requestRun foreignSigner tenInstantWorld).1 tp ∧
    ¬ AuditedOnce tenInstantWorld (requestRun foreignSigner tenInstantWorld).1
      (requestRun foreignSigner tenInstantWorld).2.1 := by
  have reads : ((requestRun foreignSigner tenInstantWorld).1.any fun e => e.op = .now) = true := by
    decide +kernel
  have noRow : (requestRun foreignSigner tenInstantWorld).2.1.audit = [] := by decide +kernel
  have run := requestRun_alone foreignSigner tenInstantWorld
  obtain ⟨tp, authorized⟩ := authorized_of_now run reads
  refine ⟨tp, run, authorized, ?_⟩
  rintro ⟨now, entry, grown, _⟩
  rw [noRow] at grown
  cases grown

/-- A server whose transactions withdraw 0.6 USDC of at most 1 a day, and send 6 `asvp`. -/
def spendingDeps : Deps :=
  fixedDeps ⟨0, 0, 0, 1⟩ ⟨"tenant", "svp1owner", [], false⟩
    [.withdrawFromSubaccount ⟨⟨"svp1owner", 0⟩, "svp1owner", 0, 600000⟩,
     .send ⟨"svp1owner", "svp1other", [⟨"asvp", some 6⟩]⟩]

/-- The owner may send 10 base units of `svp` a day. -/
def cappedWorld : World :=
  startWorld ⟨"", "", Table.set2 ∅ "svp1owner" "svp" ⟨"svp", 18, some 10⟩, ∅⟩ (.new 1)

/-- The owner's transaction within both caps is audited once, and it is cleared. -/
theorem audited_once_iff_accepted : ∃ tp,
    Authorized spendingDeps cappedWorld idRequest (requestRun spendingDeps cappedWorld).1 tp ∧
      AuditedOnce cappedWorld (requestRun spendingDeps cappedWorld).1
        (requestRun spendingDeps cappedWorld).2.1 ∧
      Cleared spendingDeps tp cappedWorld (requestRun spendingDeps cappedWorld).1 idRequest := by
  have reads : ((requestRun spendingDeps cappedWorld).1.any fun e => e.op = .now) = true := by
    decide +kernel
  have row : (requestRun spendingDeps cappedWorld).2.1.audit = [(0, ⟨"tenant", "svp1owner",
      "broadcast_signed_tx", "id", "", 0, .broadcast, ""⟩)] := by decide +kernel
  have decided : decision (requestRun spendingDeps cappedWorld).1 = .broadcast := by
    decide +kernel
  have run := requestRun_alone spendingDeps cappedWorld
  obtain ⟨tp, authorized⟩ := authorized_of_now run reads
  have audited : AuditedOnce cappedWorld (requestRun spendingDeps cappedWorld).1
      (requestRun spendingDeps cappedWorld).2.1 := ⟨0, _, row, decided.symm⟩
  exact ⟨tp, authorized, audited, (audited_once_iff spendingDeps cappedWorld _ idRequest tp _ _ run
    authorized).mp audited⟩

/-- A part that calls no node counts for nothing. -/
theorem quiet_countP {h : Handler α} {result : Except Fault α}
    (quiet : Only (fun op => op.callsChain = false) h) (run : Alone deps w h events w' result) :
    events.countP (·.op.callsChain) = 0 :=
  List.countP_eq_zero.mpr fun e member => by simp [exec_calls quiet run e member]

/-- The submission calls one node, once. -/
theorem submit_countP {r : BroadcastRequest} {checked : r.Checked} {result : Except Fault Unit}
    (run : Alone deps w (r.submit deps checked) events w' result) :
    events.countP (·.op.callsChain) = 1 := by
  cases r with
  | signedTx ctx input =>
    cases run with
    | call _ env _ _ run =>
      have quiet : Only (fun op => op.callsChain = false)
          (concludeSignedTx input.clientID checked env.broadcast >>= fun _ => pure ()) :=
        only_bind (concludeSignedTx_only _ _ _ (fun _ => rfl) rfl (fun _ => rfl) fun _ _ _ => rfl)
          fun _ => only_pure _
      rw [List.countP_cons_of_pos rfl, quiet_countP quiet run]
  | evmTx ctx input =>
    cases run with
    | call _ env _ _ run =>
      cases run with
      | call _ _ _ _ run =>
        have quiet : Only (fun op => op.callsChain = false)
            ((ofResult (wrapExternal "broadcast evm tx: %w" env.sent) >>= fun txHash =>
              recordTransferOut checked.tp.owner checked.transferOut >>=
                fun _ => pure txHash) >>= fun _ => pure ()) := by
          refine only_bind (only_bind (only_ofResult _) fun _ => ?_) fun _ => only_pure _
          exact only_bind (recordTransferOut_only _ _ (fun _ => rfl) fun _ _ _ => rfl)
            fun _ => only_pure _
        rw [List.countP_cons_of_pos rfl, List.countP_cons_of_neg (by exact Bool.false_ne_true),
          quiet_countP quiet run]

/-- A broadcast call hands a transaction to a node at most once, and does so exactly when it
passes the authorization and is cleared by every check behind it. -/
theorem node_called_once_iff (deps : Deps) (w w' : World) (r : BroadcastRequest)
    (events : Events) (result : Except Fault Unit)
    (run : Alone deps w (r.handler deps) events w' result) :
    events.countP (·.op.callsChain) ≤ 1 ∧ (events.countP (·.op.callsChain) = 1 ↔
      ∃ tp, Authorized deps w r events tp ∧ Cleared deps tp w events r) := by
  have asking : Only (fun op => op.callsChain = false) (authorize r.ctx r.tool) :=
    authorize_only (fun _ => rfl) (fun _ => rfl) _ _
  have vetting : ∀ tp, Only (fun op => op.callsChain = false) (r.vet deps tp) := fun tp => by
    apply vet_only <;> intros <;> rfl
  have counted : ∀ tp, Authorized deps w r events tp →
      (Cleared deps tp w events r ∧ events.countP (·.op.callsChain) = 1) ∨
        (¬ Cleared deps tp w events r ∧ events.countP (·.op.callsChain) = 0) := by
    intro tp authorized
    obtain ⟨first, rest, rfl, authorizing, outcome⟩ := authorized_run run authorized
    have before := quiet_countP asking authorizing
    rcases outcome with ⟨uncleared, _, refused, _⟩ | ⟨cleared, _, _, _, _, rfl, passed, submitted⟩
    · exact .inr ⟨uncleared, by rw [List.countP_append, before, quiet_countP (vetting tp) refused]⟩
    · refine .inl ⟨cleared, ?_⟩
      rw [List.countP_append, List.countP_append, before, quiet_countP (vetting tp) passed,
        submit_countP submitted]
  have absent : events.countP (·.op.callsChain) = 0 →
      ¬ ∃ tp, Authorized deps w r events tp ∧ Cleared deps tp w events r := by
    rintro zero ⟨tp, authorized, cleared⟩
    rcases counted tp authorized with ⟨_, one⟩ | ⟨uncleared, _⟩
    · omega
    · exact uncleared cleared
  rcases handler_run run with ⟨_, authorizing, _, _⟩ | ⟨tp, first, rest, split, authorizing, _⟩
  · have zero := quiet_countP asking authorizing
    exact ⟨by omega, iff_of_false (by omega) (absent zero)⟩
  · have authorized : Authorized deps w r events tp := ⟨first, rest, split, authorizing⟩
    rcases counted tp authorized with ⟨cleared, one⟩ | ⟨_, zero⟩
    · exact ⟨by omega, iff_of_true one ⟨tp, authorized, cleared⟩⟩
    · exact ⟨by omega, iff_of_false (by omega) (absent zero)⟩

/-- The owner's transaction within both caps is handed over. -/
theorem node_called_once_iff_accepted : ∃ tp,
    Authorized spendingDeps cappedWorld idRequest (requestRun spendingDeps cappedWorld).1 tp ∧
      Cleared spendingDeps tp cappedWorld (requestRun spendingDeps cappedWorld).1 idRequest :=
  (node_called_once_iff spendingDeps cappedWorld _ idRequest _ _
    (requestRun_alone spendingDeps cappedWorld)).2.mp (by decide +kernel)

end SvpMcp
