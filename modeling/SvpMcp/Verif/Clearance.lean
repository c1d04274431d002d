import SvpMcp.Verif.AtMostOnce
import SvpMcp.Verif.SignedBroadcast

/-!
# When a broadcast is let through

A broadcast is let through exactly when its client id is free, its transaction decodes and is signed
by the tenant's owner, and the stores find it within every cap.
-/

namespace SvpMcp

open Calendar Handler Program

variable {result : Except Fault Unit} {first second : Events}
  {tp : TenantPolicy} {tenantID clientID signerAddr : String} {r : BroadcastRequest}
  {ctx : Context} {rawBytes : Bytes} {i : Idempotency}

namespace Idempotency

/-- A key is in use at an instant. -/
def heldAt (i : Idempotency) (key : String) (now : Time) : Bool :=
  match i.seen.get key with
  | some deadline => now < deadline
  | none => false

/-- A free id stays free. -/
theorem heldAt_mono {key : String} {now later : Time} (free : i.heldAt key now = false)
    (ordered : now ≤ later) : i.heldAt key later = false := by
  unfold heldAt at free ⊢
  cases found : i.seen.get key with
  | none => rfl
  | some deadline =>
    rw [found] at free
    have passed : ¬ now < deadline := of_decide_eq_false free
    exact decide_eq_false fun held => passed (Int.lt_of_le_of_lt ordered held)

/-- A claim holds its id. -/
theorem heldAt_set (i : Idempotency) (key other : String) (deadline now : Time) :
    { i with seen := i.seen.set key deadline }.heldAt other now =
      if other = key then decide (now < deadline) else i.heldAt other now := by
  simp only [heldAt, Table.get_set]
  by_cases same : other = key
  · simp only [if_pos same]
  · simp only [if_neg same]

/-- A free id is claimed. -/
theorem claim_of_free {now : Time} (free : i.heldAt (tenantID ++ "|" ++ clientID) now = false) :
    i.claim tenantID clientID now = (.ok (),
      { i with seen := i.seen.set (tenantID ++ "|" ++ clientID) (now + i.ttl) }) := by
  rcases i.claim_cases tenantID clientID now with ⟨_, claimed⟩ | ⟨⟨deadline, found, later⟩, _⟩
  · exact claimed
  · rw [heldAt, found] at free
    exact absurd later (of_decide_eq_false free)

/-- A held id is refused. -/
theorem claim_of_held {now : Time} (held : i.heldAt (tenantID ++ "|" ++ clientID) now = true) :
    i.claim tenantID clientID now = (.error (.errorf
      ⟨"duplicate broadcast: client_id %s already used for tenant %s", [clientID, tenantID]⟩),
      i) := by
  rcases i.claim_cases tenantID clientID now with ⟨free, _⟩ | ⟨_, refused⟩
  · unfold heldAt at held
    cases found : i.seen.get (tenantID ++ "|" ++ clientID) with
    | none =>
      rw [found] at held
      cases held
    | some deadline =>
      rw [found] at held
      exact absurd (free deadline found) (Int.not_le.mpr (of_decide_eq_true held))
  · exact refused

end Idempotency

variable {α : Type} {deps : Deps} {w w' : World} {events : Events}

/-- A run of `claimClientID`: it ends at once for want of an id, or it reads the clock and
claims. -/
theorem claimClientID_run (run : Alone deps w (claimClientID tenantID clientID) events w' result) :
    (clientID = "" ∧ events = [] ∧ w' = w ∧ ∃ fault, result = .error fault) ∨
    (clientID ≠ "" ∧ ∃ env env', events = [⟨w, env, .now, env.now⟩,
        ⟨w, env', .claim tenantID clientID env.now,
          (w.idempotency.claim tenantID clientID env.now).1⟩] ∧
      w' = { w with idempotency := (w.idempotency.claim tenantID clientID env.now).2 } ∧
      (result = .ok () ↔
        w.idempotency.heldAt (tenantID ++ "|" ++ clientID) env.now = false)) := by
  unfold claimClientID at run
  by_cases missing : clientID = ""
  · rw [if_pos missing] at run
    cases run
    exact .inl ⟨missing, rfl, rfl, _, rfl⟩
  · rw [if_neg missing] at run
    refine .inr ⟨missing, ?_⟩
    cases run with
    | call _ env _ _ run =>
      cases run with
      | call _ env' _ _ run =>
        change Alone deps { w with idempotency :=
          (w.idempotency.claim tenantID clientID env.now).2 }
          (ofResult (w.idempotency.claim tenantID clientID env.now).1) _ w' result at run
        obtain ⟨noMore, after, outcome⟩ := alone_ofResult_eq run
        refine ⟨env, env', by rw [noMore]; rfl, after, ?_⟩
        rw [outcome]
        cases held : w.idempotency.heldAt (tenantID ++ "|" ++ clientID) env.now with
        | false =>
          rw [Idempotency.claim_of_free held]
          exact iff_of_true rfl rfl
        | true =>
          rw [Idempotency.claim_of_held held]
          constructor
          · intro impossible
            cases impossible
          · intro impossible
            cases impossible

/-- The checks that can refuse a broadcast. -/
inductive Stage where
  | claim
  | withdraw
  | transferOut
deriving DecidableEq

/-- The check an operation belongs to. -/
def ServerOp.stage : ServerOp → Option Stage
  | .now => some .claim
  | .enforce _ _ _ => some .withdraw
  | .checkTransferOut _ _ _ => some .transferOut
  | _ => none

/-- The instants at which a check reads the clock, in the order of the run. -/
def readings (stage : Stage) (events : Events) : List Time :=
  (events.filter fun e => e.op.stage = some stage).map (·.env.now)

/-- The entries of a map in the order in which a run visits them with the transfer-out check. -/
def visits (events : Events) : List (String × Int) :=
  events.filterMap fun e => match e.op with
    | .checkTransferOut _ sym amt => some (sym, amt)
    | _ => none

/-- A run makes no operation of a check. -/
def Skips (stage : Stage) (events : Events) : Prop :=
  ∀ e ∈ events, e.op.stage ≠ some stage

/-- A handler makes no operation of a check. -/
abbrev Avoids (stage : Stage) (h : Handler α) : Prop :=
  Only (fun op => op.stage ≠ some stage) h

/-- What a handler does not call is not in its runs. -/
theorem skips_of_avoids {stage : Stage} {h : Handler α} {result : Except Fault α}
    (avoids : Avoids stage h) (run : Alone deps w h events w' result) : Skips stage events :=
  exec_calls avoids run

/-- Readings add up. -/
theorem readings_append (stage : Stage) :
    readings stage (first ++ second) = readings stage first ++ readings stage second := by
  simp [readings]

/-- A stage skipped reads no clock. -/
theorem readings_of_skips {stage : Stage} (skips : Skips stage events) :
    readings stage events = [] := by
  rw [readings, List.filter_eq_nil_iff.mpr fun e member => by simpa using skips e member,
    List.map_nil]

/-- Visits add up. -/
theorem visits_append : visits (first ++ second) = visits first ++ visits second := by
  simp [visits]

/-- Without checks there are none. -/
theorem visits_of_skips (skips : Skips .transferOut events) : visits events = [] := by
  refine List.filterMap_eq_nil_iff.mpr ?_
  intro e member
  have other := skips e member
  cases op : e.op with
  | checkTransferOut owner sym amt =>
    rw [op] at other
    exact absurd rfl other
  | _ => rfl

/-- A client id of a tenant is given, and not in use when the clock is read. -/
def Unclaimed (w : World) (tenantID clientID : String)
    (events : Events) : Prop :=
  clientID ≠ "" ∧ ∃ e ∈ events, e.op = .now ∧
    w.idempotency.heldAt (tenantID ++ "|" ++ clientID) e.env.now = false

/-- A withdrawal of a tenant is nothing, or within the caps of the ledger when the clock is read
for it. -/
def WithdrawsWithin (deps : Deps) (w : World) (tenantID : String) (q : UInt64)
    (events : Events) : Prop :=
  q = 0 ∨ ∃ now ∈ readings .withdraw events,
    (enforce deps.limits w.ledger now tenantID .withdraw q).1 = .ok ()

/-- Amounts of an owner at successive instants pass, each in the store the one before leaves. -/
def ChecksPass (owner : String) (s : MemoryTransferOutStore) (disk : Disk) :
    List (String × Int) → List Time → Prop
  | [], [] => True
  | (sym, amt) :: rest, now :: later =>
    let (result, s, disk) := s.check disk now owner sym (some amt)
    result = .ok () ∧ ChecksPass owner s disk rest later
  | _, _ => False

/-- The amounts an owner sends are each within their cap, in the order in which the map is visited
and at the instants at which the clock is read. -/
def SendsWithin (w : World) (owner : String) (amounts : Table String Int)
    (events : Events) : Prop :=
  (visits events).Perm amounts.pairs ∧
    ChecksPass owner w.transferOut w.disk (visits events) (readings .transferOut events)

/-- The transaction of a request is signed by the tenant's owner. -/
def SignedByOwner (deps : Deps) (tp : TenantPolicy) (input : BroadcastSignedTxInput)
    (rawBytes : Bytes) : Prop :=
  Base64.decode input.txRawBytesB64.toList = some rawBytes ∧
    signerAddressFromTxRaw deps.codec rawBytes = .ok tp.owner

/-- The EVM transaction of a request is signed by the account of the tenant's owner. -/
def SentByOwner (deps : Deps) (tp : TenantPolicy) (input : BroadcastEVMTxInput) (tx : EvmTx)
    (account : Address) : Prop :=
  ∃ rawBytes, Hexutil.decode input.rawTxHex.toList = .ok rawBytes ∧
    deps.evmCodec.unmarshalBinary rawBytes = .ok tx ∧
    AccountOf deps.codec tp.owner account ∧ deps.evmCodec.sender tx = .ok account

/-- What the checks behind the authorization ask of a request, the stores and the clock. -/
def Cleared (deps : Deps) (tp : TenantPolicy) (w : World)
    (events : Events) : BroadcastRequest → Prop
  | .signedTx _ input =>
    Unclaimed w tp.tenantID input.clientID events ∧
      ∃ rawBytes q bankOut, SignedByOwner deps tp input rawBytes ∧
        extractWithdrawQuantums deps.codec rawBytes = .ok q ∧
        extractBankSends deps.codec rawBytes tp.owner = .ok bankOut ∧
        WithdrawsWithin deps w tp.tenantID q events ∧ SendsWithin w tp.owner bankOut events
  | .evmTx _ input =>
    deps.evmEnabled = true ∧ Unclaimed w tp.tenantID input.clientID events ∧
      ∃ tx account, SentByOwner deps tp input tx account ∧
        SendsWithin w tp.owner (evmTransferOut deps tx account) events

/-- A failure is no result. -/
theorem noResult {fault : Fault} : ¬ ∃ value : α,
    (Except.error fault : Except Fault α) = .ok value := by
  rintro ⟨_, impossible⟩
  cases impossible

/-- A claim succeeds exactly when the id is given and free. -/
theorem claimClientID_iff (run : Alone deps w (claimClientID tenantID clientID) events w' result) :
    result = .ok () ↔ Unclaimed w tenantID clientID events := by
  rcases claimClientID_run run with ⟨missing, _, _, fault, failed⟩ |
    ⟨named, env, env', made, _, outcome⟩
  · rw [failed]
    constructor
    · intro impossible
      cases impossible
    · intro unclaimed
      exact absurd missing unclaimed.1
  · rw [outcome]
    constructor
    · intro free
      refine ⟨named, ⟨w, env, .now, env.now⟩, ?_, rfl, free⟩
      rw [made]
      exact List.mem_cons_self
    · intro unclaimed
      obtain ⟨e, member, isNow, free⟩ := unclaimed.2
      rw [made] at member
      rcases List.mem_cons.mp member with here | later
      · rw [here] at free
        exact free
      · rw [List.mem_singleton.mp later] at isNow
        cases isNow

/-- Nothing of the claim is decided by operations of other checks that follow. -/
theorem unclaimed_append (skips : Skips .claim second) :
    Unclaimed w tenantID clientID (first ++ second) ↔ Unclaimed w tenantID clientID first := by
  refine and_congr_right fun _ => ⟨?_, ?_⟩
  · rintro ⟨e, member, isNow, free⟩
    rcases List.mem_append.mp member with early | late
    · exact ⟨e, early, isNow, free⟩
    · exact absurd (congrArg ServerOp.stage isNow) (skips e late)
  · rintro ⟨e, member, kept⟩
    exact ⟨e, List.mem_append_left _ member, kept⟩

/-- Nothing of the claim is decided by operations of other checks that come first. -/
theorem unclaimed_of_skips (skips : Skips .claim first) :
    Unclaimed w tenantID clientID (first ++ second) ↔ Unclaimed w tenantID clientID second := by
  refine and_congr_right fun _ => ⟨?_, ?_⟩
  · rintro ⟨e, member, isNow, free⟩
    rcases List.mem_append.mp member with early | late
    · exact absurd (congrArg ServerOp.stage isNow) (skips e early)
    · exact ⟨e, late, isNow, free⟩
  · rintro ⟨e, member, kept⟩
    exact ⟨e, List.mem_append_right _ member, kept⟩

/-- The decoding returns the bytes that the owner has signed, and the owner. -/
theorem decodeSignedTx_gives {input : BroadcastSignedTxInput} :
    Gives deps holds w (decodeSignedTx deps tp input) w' (rawBytes, signerAddr) ↔
      w = w' ∧ SignedByOwner deps tp input rawBytes ∧ tp.owner = signerAddr := by
  cases found : Base64.decode input.txRawBytesB64.toList with
  | none => simp [decodeSignedTx, SignedByOwner, found]
  | some raw =>
    simp [decodeSignedTx, SignedByOwner, found]
    constructor
    · rintro ⟨signed, same, rfl, isOwner⟩
      exact ⟨same, ⟨rfl, signed⟩, isOwner⟩
    · rintro ⟨same, ⟨rfl, signed⟩, isOwner⟩
      exact ⟨signed, same, rfl, isOwner⟩

/-- The withdraw check passes exactly when the quantums can be read and are within the caps. -/
theorem enforceWithdraw_run {result : Except Fault UInt64}
    (run : Alone deps w (enforceWithdraw deps tp rawBytes) events w' result) :
    (∃ q, result = .ok q) ↔ ∃ q, extractWithdrawQuantums deps.codec rawBytes = .ok q ∧
      WithdrawsWithin deps w tp.tenantID q events := by
  rcases alone_silent_bind (only_ofResult _) run with
    ⟨unread, ⟨_, failed⟩, _⟩ | ⟨q, extracted, run⟩
  · simp at unread
    simp [failed, unread]
  have isRead : extractWithdrawQuantums deps.codec rawBytes = .ok q := by simpa using extracted
  by_cases positive : q > 0
  · rw [if_pos positive] at run
    cases run with
    | call _ env _ _ run =>
      rcases alone_silent_bind (only_ofResult _) run with
        ⟨refused, ⟨_, failed⟩, quiet, _⟩ | ⟨⟨⟩, passed, run⟩
      · rw [failed, quiet]
        refine iff_of_false noResult ?_
        rintro ⟨other, isOther, within⟩
        cases isRead.symm.trans isOther
        rcases within with zero | ⟨now, reading, fits⟩
        · rw [zero] at positive
          exact absurd positive (by decide)
        · cases List.mem_singleton.mp reading
          simp at refused
          exact refused () fits
      · cases run
        simp at passed
        exact iff_of_true ⟨q, rfl⟩ ⟨q, isRead, .inr ⟨env.now, List.mem_cons_self, passed⟩⟩
  · rw [if_neg positive] at run
    cases run
    have zero : q = 0 := by simpa using positive
    exact iff_of_true ⟨q, rfl⟩ ⟨q, isRead, .inl zero⟩

/-- A run of `checkAll` passes exactly when each amount it visits passes, one after the other, and
it has then visited all of them. -/
theorem checkAll_run {owner : String} {entries : List (String × Int)}
    (run : Alone deps w (checkAll owner entries) events w' result) :
    (result = .ok () ↔
      ChecksPass owner w.transferOut w.disk (visits events) (readings .transferOut events)) ∧
    (result = .ok () → visits events = entries) := by
  induction entries generalizing w events with
  | nil =>
    cases run
    exact ⟨iff_of_true rfl trivial, fun _ => rfl⟩
  | cons entry rest ih =>
    obtain ⟨sym, amt⟩ := entry
    cases run with
    | call _ env _ _ run =>
      rcases alone_silent_bind (only_ofResult _) run with
        ⟨refused, ⟨_, failed⟩, quiet, _⟩ | ⟨⟨⟩, passed, run⟩
      · have stopped : result ≠ .ok () := by
          rw [failed]
          intro impossible
          cases impossible
        rw [quiet]
        refine ⟨iff_of_false stopped ?_, fun passed => absurd passed stopped⟩
        rintro ⟨fits, _⟩
        simp at refused
        exact refused () fits
      · obtain ⟨outcome, all⟩ := ih run
        simp at passed
        refine ⟨outcome.trans ⟨fun pass => ⟨passed, pass⟩, And.right⟩, ?_⟩
        intro done
        exact congrArg ((sym, amt) :: ·) (all done)

/-- The transfer-out check passes exactly when every amount is within its cap. -/
theorem checkTransferOut_run {owner : String} {amounts : Table String Int}
    (run : Alone deps w (checkTransferOut owner amounts) events w' result) :
    result = .ok () ↔ SendsWithin w owner amounts events := by
  cases run with
  | call _ env _ _ run =>
    obtain ⟨outcome, all⟩ := checkAll_run run
    refine ⟨fun passed => ⟨?_, outcome.mp passed⟩, fun within => outcome.mpr within.2⟩
    exact (List.Perm.of_eq (all passed)).trans (env.order amounts.pairs).2

/-- The check of the sends passes exactly when they can be read and are within the caps. -/
theorem enforceBankSends_run {result : Except Fault (Table String Int)}
    (run : Alone deps w (enforceBankSends deps tp rawBytes signerAddr) events w' result) :
    (∃ bankOut, result = .ok bankOut) ↔
      ∃ bankOut, extractBankSends deps.codec rawBytes signerAddr = .ok bankOut ∧
        SendsWithin w tp.owner bankOut events := by
  rcases alone_silent_bind (only_ofCall _) run with
    ⟨unread, ⟨_, failed⟩, _⟩ | ⟨out, extracted, run⟩
  · simp at unread
    simp [failed, unread]
  have isRead : extractBankSends deps.codec rawBytes signerAddr = .ok out := by
    simpa using extracted
  rcases exec_bindExcept run with
    ⟨fault, checked, failed⟩ | ⟨first, mid, _, rest, split, checked, run⟩
  · rw [failed]
    refine iff_of_false noResult ?_
    rintro ⟨other, isOther, within⟩
    cases isRead.symm.trans isOther
    cases (checkTransferOut_run checked).mpr within
  · cases run
    rw [split, List.append_nil]
    exact iff_of_true ⟨out, rfl⟩ ⟨out, isRead, (checkTransferOut_run checked).mp rfl⟩

/-- The decoding returns the transaction that the owner's account has signed, and that account. -/
theorem decodeEVMTx_gives {input : BroadcastEVMTxInput} {tx : EvmTx} {account : Address} :
    Gives deps holds w (decodeEVMTx deps tp input) w' (tx, account) ↔
      w = w' ∧ SentByOwner deps tp input tx account := by
  simp [decodeEVMTx, SentByOwner, wrapExternal, ownerEthAddress_eq_ok]
  constructor
  · rintro ⟨raw, isRaw, isTx, isSender, isAccount, same⟩
    exact ⟨same, raw, isRaw, isTx, isAccount, isSender⟩
  · rintro ⟨same, raw, isRaw, isTx, isAccount, isSender⟩
    exact ⟨raw, isRaw, isTx, isSender, isAccount, same⟩

/-- One transaction is signed by the owner's account. -/
theorem sentByOwner_unique {input : BroadcastEVMTxInput} {tx tx' : EvmTx}
    {account account' : Address}
    (sent : SentByOwner deps tp input tx account) (sent' : SentByOwner deps tp input tx' account') :
    tx = tx' ∧ account = account' := by
  obtain ⟨raw, isRaw, isTx, _, isSender⟩ := sent
  obtain ⟨raw', isRaw', isTx', _, isSender'⟩ := sent'
  cases isRaw.symm.trans isRaw'
  cases isTx.symm.trans isTx'
  exact ⟨rfl, Except.ok.inj (isSender.symm.trans isSender')⟩

/-- `checkSignedTx` behind the authorization. -/
def vetSignedTx (deps : Deps) (tp : TenantPolicy) (input : BroadcastSignedTxInput) :
    Handler CheckedTx := do
  claimClientID tp.tenantID input.clientID
  let (rawBytes, signerAddr) ← decodeSignedTx deps tp input
  let withdrawQ ← enforceWithdraw deps tp rawBytes
  let bankOut ← enforceBankSends deps tp rawBytes signerAddr
  return ⟨tp, rawBytes, withdrawQ, bankOut⟩

/-- `checkEVMTx` behind the authorization. -/
def vetEVMTx (deps : Deps) (tp : TenantPolicy) (input : BroadcastEVMTxInput) :
    Handler CheckedEVMTx := do
  require deps.evmEnabled
    (.errorf ⟨"EVM is not enabled on this server (no evm_rpc_url configured)", []⟩)
  claimClientID tp.tenantID input.clientID
  let (tx, ownerEth) ← decodeEVMTx deps tp input
  let transferOut := evmTransferOut deps tx ownerEth
  checkTransferOut tp.owner transferOut
  return ⟨tp, tx, transferOut⟩

/-- The caps' part of `checkSignedTx`. -/
def checkCaps (deps : Deps) (tp : TenantPolicy) (rawBytes : Bytes) (signerAddr : String) :
    Handler CheckedTx := do
  let withdrawQ ← enforceWithdraw deps tp rawBytes
  let bankOut ← enforceBankSends deps tp rawBytes signerAddr
  return ⟨tp, rawBytes, withdrawQ, bankOut⟩

/-- Operations that leave the caps' stores as they are. -/
def KeepsSends : ServerOp → Prop
  | .checkTransferOut _ _ _ => False
  | .recordTransferOut _ _ _ => False
  | _ => True

/-- A run of such operations leaves the transfer-out store and the disk. -/
theorem alone_sends {h : Handler α} {result : Except Fault α} (only : Only KeepsSends h)
    (run : Alone deps w h events w' result) :
    w'.transferOut = w.transferOut ∧ w'.disk = w.disk := by
  induction run with
  | done => exact ⟨rfl, rfl⟩
  | call w env op next rest ih =>
    obtain ⟨sameStore, sameDisk⟩ := ih (only.2 _)
    have allowed := only.1
    cases op with
    | checkTransferOut _ _ _ => exact allowed.elim
    | recordTransferOut _ _ _ => exact allowed.elim
    | _ => exact ⟨sameStore, sameDisk⟩

/-- A part without the check, then the rest: only the rest matters to the sends. -/
theorem sendsWithin_behind {h : Handler α} {result : Except Fault α} {owner : String}
    {amounts : Table String Int} (only : Only KeepsSends h)
    (run : Alone deps w h first w' result) :
    SendsWithin w owner amounts (first ++ second) ↔ SendsWithin w' owner amounts second := by
  have skips : Skips .transferOut first := skips_of_avoids (Program.calls_mono (by
    intro op kept
    cases op with
    | checkTransferOut _ _ _ => exact kept.elim
    | _ => simp [ServerOp.stage]) only) run
  obtain ⟨sameStore, sameDisk⟩ := alone_sends only run
  rw [SendsWithin, SendsWithin, visits_append, readings_append, visits_of_skips skips,
    readings_of_skips skips, sameStore, sameDisk]
  rfl

/-- The caps pass exactly when both amounts can be read and are within them. -/
theorem checkCaps_iff {result : Except Fault CheckedTx}
    (run : Alone deps w (checkCaps deps tp rawBytes signerAddr) events w' result) :
    (∃ tx, result = .ok tx) ↔ ∃ q bankOut, extractWithdrawQuantums deps.codec rawBytes = .ok q ∧
      extractBankSends deps.codec rawBytes signerAddr = .ok bankOut ∧
      WithdrawsWithin deps w tp.tenantID q events ∧ SendsWithin w tp.owner bankOut events := by
  rcases exec_bindExcept run with ⟨fault, enforcing, failed⟩ |
    ⟨first, mid, q, rest, split, enforcing, run⟩
  · rw [failed]
    refine iff_of_false noResult ?_
    rintro ⟨q, _, isRead, _, within, _⟩
    exact noResult ((enforceWithdraw_run enforcing).mpr ⟨q, isRead, within⟩)
  obtain ⟨q', isRead, withdraws⟩ := (enforceWithdraw_run enforcing).mp ⟨q, rfl⟩
  have behind : ∀ bankOut, SendsWithin w tp.owner bankOut (first ++ rest) ↔
      SendsWithin mid tp.owner bankOut rest := fun bankOut =>
    sendsWithin_behind (enforceWithdraw_only _ _ _ fun _ => trivial) enforcing
  rw [split]
  rcases exec_bindExcept run with ⟨fault, sending, failed⟩ |
    ⟨second, last, bankOut, none, split2, sending, run⟩
  · rw [failed]
    refine iff_of_false noResult ?_
    rintro ⟨_, bankOut, _, isSent, _, within⟩
    exact noResult
      ((enforceBankSends_run sending).mpr ⟨bankOut, isSent, (behind bankOut).mp within⟩)
  · cases run
    rw [List.append_nil] at split2
    subst split2
    obtain ⟨sent, isSent, sends⟩ := (enforceBankSends_run sending).mp ⟨bankOut, rfl⟩
    have sendAvoids : Avoids .withdraw (enforceBankSends deps tp rawBytes signerAddr) :=
      enforceBankSends_only _ _ _ _ (fun _ => by simp [ServerOp.stage])
        fun _ _ => by simp [ServerOp.stage]
    refine iff_of_true ⟨_, rfl⟩ ⟨q', sent, isRead, isSent, ?_, (behind sent).mpr sends⟩
    rw [WithdrawsWithin, readings_append, readings_of_skips (skips_of_avoids sendAvoids sending),
      List.append_nil]
    exact withdraws

/-- The caps are checked without a claim. -/
theorem checkCaps_skips {result : Except Fault CheckedTx}
    (run : Alone deps w (checkCaps deps tp rawBytes signerAddr) events w' result) :
    Skips .claim events := by
  refine skips_of_avoids ?_ run
  apply only_bind (enforceWithdraw_only _ _ _ fun _ => by simp [ServerOp.stage])
  intro withdrawQ
  apply only_bind (enforceBankSends_only _ _ _ _ (fun _ => by simp [ServerOp.stage])
    fun _ _ => by simp [ServerOp.stage])
  intro bankOut
  exact only_pure _

/-- The checks of a signed transaction pass exactly when it is cleared. -/
theorem vetSignedTx_iff {input : BroadcastSignedTxInput} {result : Except Fault CheckedTx}
    (run : Alone deps w (vetSignedTx deps tp input) events w' result) :
    (∃ tx, result = .ok tx) ↔ Cleared deps tp w events (.signedTx ctx input) := by
  rcases exec_bindExcept run with ⟨fault, claiming, failed⟩ |
    ⟨claims, w1, _, rest, split, claiming, run⟩
  · rw [failed]
    refine iff_of_false noResult ?_
    intro cleared
    cases (claimClientID_iff claiming).mpr cleared.1
  have unclaimed := (claimClientID_iff claiming).mp rfl
  have sameLedger : w1.ledger = w.ledger :=
    alone_ledger (claimClientID_only trivial (fun _ _ _ => trivial) _ _) claiming
  have claimSkips : Skips .withdraw claims := skips_of_avoids
    (claimClientID_only (by decide) (fun _ _ _ => by simp [ServerOp.stage]) _ _) claiming
  rcases alone_silent_bind (decodeSignedTx_only _ _ _) run with
    ⟨unsigned, ⟨_, failed⟩, _⟩ | ⟨⟨rawBytes, _⟩, decoded, run⟩
  · rw [failed]
    refine iff_of_false noResult ?_
    rintro ⟨_, rawBytes, _, _, signed, _⟩
    exact unsigned (rawBytes, tp.owner) (decodeSignedTx_gives.mpr ⟨rfl, signed, rfl⟩)
  obtain ⟨_, signed, rfl⟩ := decodeSignedTx_gives.mp decoded
  change Alone deps w1 (checkCaps deps tp rawBytes tp.owner) rest w' result at run
  have onlyRaw : ∀ other, SignedByOwner deps tp input other → other = rawBytes :=
    fun other isOther => Option.some.inj (isOther.1.symm.trans signed.1)
  have withdraws : ∀ q, WithdrawsWithin deps w tp.tenantID q (claims ++ rest) ↔
      WithdrawsWithin deps w1 tp.tenantID q rest := by
    intro q
    rw [WithdrawsWithin, WithdrawsWithin, readings_append, readings_of_skips claimSkips, sameLedger,
      List.nil_append]
  have sends : ∀ bankOut, SendsWithin w tp.owner bankOut (claims ++ rest) ↔
      SendsWithin w1 tp.owner bankOut rest := fun bankOut =>
    sendsWithin_behind (claimClientID_only trivial (fun _ _ _ => trivial) _ _) claiming
  rw [split, checkCaps_iff run]
  simp only [Cleared, withdraws, sends, unclaimed_append (checkCaps_skips run)]
  constructor
  · rintro ⟨q, bankOut, within⟩
    exact ⟨unclaimed, rawBytes, q, bankOut, signed, within⟩
  · rintro ⟨_, other, q, bankOut, isOther, within⟩
    rw [onlyRaw other isOther] at within
    exact ⟨q, bankOut, within⟩

/-- The checks of an EVM transaction pass exactly when it is cleared. -/
theorem vetEVMTx_iff {input : BroadcastEVMTxInput} {result : Except Fault CheckedEVMTx}
    (run : Alone deps w (vetEVMTx deps tp input) events w' result) :
    (∃ checked, result = .ok checked) ↔ Cleared deps tp w events (.evmTx ctx input) := by
  rcases alone_silent_bind (only_require _ _) run with
    ⟨disabled, ⟨_, failed⟩, _⟩ | ⟨_, enabled, run⟩
  · rw [failed]
    refine iff_of_false noResult ?_
    intro cleared
    exact disabled () (gives_require.mpr ⟨rfl, cleared.1⟩)
  rcases exec_bindExcept run with ⟨fault, claiming, failed⟩ |
    ⟨claims, w1, _, rest, split, claiming, run⟩
  · rw [failed]
    refine iff_of_false noResult ?_
    intro cleared
    cases (claimClientID_iff claiming).mpr cleared.2.1
  have unclaimed := (claimClientID_iff claiming).mp rfl
  rcases alone_silent_bind (decodeEVMTx_only _ _ _) run with
    ⟨unsent, ⟨_, failed⟩, _⟩ | ⟨⟨tx, account⟩, decoded, run⟩
  · rw [failed]
    refine iff_of_false noResult ?_
    rintro ⟨_, _, tx, account, sent, _⟩
    exact unsent (tx, account) (decodeEVMTx_gives.mpr ⟨rfl, sent⟩)
  have sent := (decodeEVMTx_gives.mp decoded).2
  have sends : ∀ amounts, SendsWithin w tp.owner amounts (claims ++ rest) ↔
      SendsWithin w1 tp.owner amounts rest := fun amounts =>
    sendsWithin_behind (claimClientID_only trivial (fun _ _ _ => trivial) _ _) claiming
  rcases exec_bindExcept run with ⟨fault, checking, failed⟩ |
    ⟨checks, w3, _, none', split3, checking, run⟩
  · rw [failed, split]
    refine iff_of_false noResult ?_
    rintro ⟨_, _, tx', account', sent', within⟩
    obtain ⟨rfl, rfl⟩ := sentByOwner_unique sent sent'
    cases (checkTransferOut_run checking).mpr ((sends _).mp within)
  · cases run
    rw [List.append_nil] at split3
    subst split3
    have checkSkips : Skips .claim rest := skips_of_avoids
      (checkTransferOut_only _ _ (fun _ => by simp [ServerOp.stage])
        fun _ _ => by simp [ServerOp.stage]) checking
    rw [split]
    exact iff_of_true ⟨_, rfl⟩ ⟨(gives_require.mp enabled).2,
      (unclaimed_append checkSkips).mpr unclaimed, tx, account, sent,
      (sends _).mpr ((checkTransferOut_run checking).mp rfl)⟩

/-- A transaction that has passed the checks of a request. -/
def BroadcastRequest.Checked : BroadcastRequest → Type
  | .signedTx _ _ => CheckedTx
  | .evmTx _ _ => CheckedEVMTx

/-- The checks behind the authorization. -/
def BroadcastRequest.vet (deps : Deps) (tp : TenantPolicy) :
    (r : BroadcastRequest) → Handler r.Checked
  | .signedTx _ input => vetSignedTx deps tp input
  | .evmTx _ input => vetEVMTx deps tp input

/-- The call of the node and what follows it. -/
def BroadcastRequest.submit (deps : Deps) : (r : BroadcastRequest) → r.Checked → Handler Unit
  | .signedTx _ input, tx => do
    let _ ← submitSignedTx input.clientID tx
    return ()
  | .evmTx _ input, checked => do
    let _ ← submitEVMTx deps input.clientID checked
    return ()

/-- A run passes authorization as a tenant. -/
def Authorized (deps : Deps) (w : World) (r : BroadcastRequest)
    (events : Events) (tp : TenantPolicy) : Prop :=
  ∃ first rest, events = first ++ rest ∧ Alone deps w (authorize r.ctx r.tool) first w (.ok tp)

/-- A request is authorized, vetted and submitted. -/
theorem handler_eq (deps : Deps) (r : BroadcastRequest) :
    r.handler deps = authorize r.ctx r.tool >>= fun tp => r.vet deps tp >>= r.submit deps := by
  cases r with
  | signedTx ctx input =>
    show (((authorize ctx "broadcast_signed_tx" >>= fun tp => vetSignedTx deps tp input) >>=
      submitSignedTx input.clientID) >>= fun _ => pure ()) = _
    simp only [bind_assoc]
    rfl
  | evmTx ctx input =>
    show (((authorize ctx "broadcast_evm_tx" >>= fun tp => vetEVMTx deps tp input) >>=
      submitEVMTx deps input.clientID) >>= fun _ => pure ()) = _
    simp only [bind_assoc]
    rfl

/-- A run of a request: the authorization, then the checks, then the node. -/
theorem handler_run (run : Alone deps w (r.handler deps) events w' result) :
    (∃ fault, Alone deps w (authorize r.ctx r.tool) events w (.error fault) ∧ w' = w ∧
      result = .error fault) ∨
    ∃ tp first rest, events = first ++ rest ∧
      Alone deps w (authorize r.ctx r.tool) first w (.ok tp) ∧
      ((∃ fault, Alone deps w (r.vet deps tp) rest w' (.error fault) ∧ result = .error fault) ∨
        ∃ checks mid checked submission, rest = checks ++ submission ∧
          Alone deps w (r.vet deps tp) checks mid (.ok checked) ∧
          Alone deps mid (r.submit deps checked) submission w' result) := by
  rw [handler_eq] at run
  rcases exec_bindExcept run with ⟨fault, authorizing, failed⟩ |
    ⟨first, mid, tp, rest, split, authorizing, run⟩
  · have same := authorize_world authorizing
    rw [same] at authorizing
    exact .inl ⟨fault, authorizing, same, failed⟩
  · have same := authorize_world authorizing
    rw [same] at authorizing run
    refine .inr ⟨tp, first, rest, split, authorizing, ?_⟩
    rcases exec_bindExcept run with ⟨fault, vetting, failed⟩ |
      ⟨checks, mid', checked, submission, split', vetting, run⟩
    · exact .inl ⟨fault, vetting, failed⟩
    · exact .inr ⟨checks, mid', checked, submission, split', vetting, run⟩

/-- The checks of a request pass exactly when it is cleared. -/
theorem vet_iff {result : Except Fault r.Checked}
    (run : Alone deps w (r.vet deps tp) events w' result) :
    (∃ checked, result = .ok checked) ↔ Cleared deps tp w events r := by
  cases r with
  | signedTx ctx input => exact vetSignedTx_iff run
  | evmTx ctx input => exact vetEVMTx_iff run

/-- The checks of a request claim its id and consult the caps. -/
theorem vet_only {allowed : ServerOp → Prop} (clock : allowed .now)
    (claims : ∀ tenantID clientID now, allowed (.claim tenantID clientID now))
    (enforces : ∀ tenantID q, allowed (.enforce tenantID .withdraw q))
    (orders : ∀ entries, allowed (.rangeMap entries))
    (checks : ∀ owner sym amt, allowed (.checkTransferOut owner sym amt))
    (deps : Deps) (tp : TenantPolicy) (r : BroadcastRequest) : Only allowed (r.vet deps tp) := by
  cases r with
  | signedTx ctx input =>
    show Only allowed (vetSignedTx deps tp input)
    simp [vetSignedTx, claimClientID_only clock claims, decodeSignedTx_only,
      enforceWithdraw_only _ _ _ (enforces _), enforceBankSends_only _ _ _ _ orders (checks _)]
  | evmTx ctx input =>
    show Only allowed (vetEVMTx deps tp input)
    simp [vetEVMTx, claimClientID_only clock claims, decodeEVMTx_only,
      checkTransferOut_only _ _ orders (checks _)]

/-- Operations outside the checks do not matter to the clearance. -/
theorem cleared_of_skips {first checks last : Events}
    (before : ∀ stage, Skips stage first) (after : ∀ stage, Skips stage last) :
    Cleared deps tp w (first ++ (checks ++ last)) r ↔ Cleared deps tp w checks r := by
  have claim : ∀ clientID, Unclaimed w tp.tenantID clientID (first ++ (checks ++ last)) ↔
      Unclaimed w tp.tenantID clientID checks := fun clientID =>
    (unclaimed_of_skips (before .claim)).trans (unclaimed_append (after .claim))
  have sameReadings : ∀ stage, readings stage (first ++ (checks ++ last)) =
      readings stage checks := by
    intro stage
    rw [readings_append, readings_append, readings_of_skips (before stage),
      readings_of_skips (after stage), List.nil_append, List.append_nil]
  have sameVisits : visits (first ++ (checks ++ last)) = visits checks := by
    rw [visits_append, visits_append, visits_of_skips (before .transferOut),
      visits_of_skips (after .transferOut), List.nil_append, List.append_nil]
  cases r with
  | signedTx ctx input =>
    simp only [Cleared, claim, WithdrawsWithin, SendsWithin, sameReadings, sameVisits]
  | evmTx ctx input => simp only [Cleared, claim, SendsWithin, sameReadings, sameVisits]

/-- The authorization makes no operation of the checks. -/
theorem authorize_skips {tool : String} {result : Except Fault TenantPolicy}
    (run : Alone deps w (authorize ctx tool) events w' result) (stage : Stage) :
    Skips stage events :=
  skips_of_avoids (authorize_only (fun _ => by simp [ServerOp.stage])
    (fun _ => by simp [ServerOp.stage]) _ _) run

/-- Neither does the submission. -/
theorem submit_skips {checked : r.Checked}
    (run : Alone deps w (r.submit deps checked) events w' result) (stage : Stage) :
    Skips stage events := by
  refine skips_of_avoids ?_ run
  cases r with
  | signedTx ctx input =>
    refine only_bind (only_bind (only_call (by simp [ServerOp.stage])) fun res => ?_)
      fun _ => only_pure _
    exact concludeSignedTx_only _ _ _ (fun _ => by simp [ServerOp.stage])
      (by simp [ServerOp.stage]) (fun _ => by simp [ServerOp.stage])
      fun _ _ _ => by simp [ServerOp.stage]
  | evmTx ctx input =>
    refine only_bind ?_ fun _ => only_pure _
    exact submitEVMTx_only (fun _ _ => by simp [ServerOp.stage])
      (fun _ => by simp [ServerOp.stage]) (fun _ => by simp [ServerOp.stage])
      (fun _ _ _ => by simp [ServerOp.stage]) _ _

/-- The submission calls a node. -/
theorem submit_callsChain {checked : r.Checked}
    (run : Alone deps w (r.submit deps checked) events w' result) :
    ∃ e ∈ events, e.op.callsChain = true := by
  cases r with
  | signedTx ctx input =>
    cases run with
    | call _ env _ _ run => exact ⟨_, List.mem_cons_self, rfl⟩
  | evmTx ctx input =>
    cases run with
    | call _ env _ _ run => exact ⟨_, List.mem_cons_self, rfl⟩

/-- A run that passes authorization is refused by the checks, or cleared and submitted. -/
theorem authorized_run (run : Alone deps w (r.handler deps) events w' result)
    (authorized : Authorized deps w r events tp) :
    ∃ first rest, events = first ++ rest ∧
      Alone deps w (authorize r.ctx r.tool) first w (.ok tp) ∧
      ((¬ Cleared deps tp w events r ∧
          ∃ fault, Alone deps w (r.vet deps tp) rest w' (.error fault) ∧ result = .error fault) ∨
        (Cleared deps tp w events r ∧ ∃ checks mid checked submission, rest = checks ++ submission ∧
          Alone deps w (r.vet deps tp) checks mid (.ok checked) ∧
          Alone deps mid (r.submit deps checked) submission w' result)) := by
  obtain ⟨first', rest', split', authorizing'⟩ := authorized
  rcases handler_run run with ⟨fault, authorizing, _, _⟩ |
    ⟨tp', first, rest, split, authorizing, outcome⟩
  · have together : events ++ [] = first' ++ rest' := by
      rw [List.append_nil]
      exact split'
    cases (exec_unique authorizing authorizing' together).2.1
  · have same := exec_unique authorizing authorizing' (split.symm.trans split')
    cases same.2.1
    refine ⟨first, rest, split, authorizing, ?_⟩
    have before := authorize_skips authorizing
    rcases outcome with ⟨fault, vetting, failed⟩ |
      ⟨checks, mid, checked, submission, split2, vetting, submitting⟩
    · refine .inl ⟨?_, fault, vetting, failed⟩
      have nothing : ∀ stage, Skips stage ([] : Events) :=
        fun _ _ member => absurd member List.not_mem_nil
      rw [split, ← List.append_nil rest, cleared_of_skips before nothing, ← vet_iff vetting]
      exact noResult
    · refine .inr ⟨?_, checks, mid, checked, submission, split2, vetting, submitting⟩
      rw [split, split2, cleared_of_skips before (submit_skips submitting), ← vet_iff vetting]
      exact ⟨checked, rfl⟩

end SvpMcp
