import SvpMcp.Lib.Sums
import SvpMcp.Verif.AuditTrail
import SvpMcp.Verif.CapReport

/-!
# The cap report after any history

What the store holds as moved out is the sum of what the wallet's transactions moved. The report
renders that sum through 256 bits, and it has no bound where no cap is set.
-/

namespace SvpMcp

open Calendar Handler Program MemoryTransferOutStore

variable {α : Type} {deps : Deps} {w w' start : World}
  {events : Events} {owner symbol : String} {today : Time}
  {result : Except Fault (CapChange × SetTransferOutCapOutput)} {input : SetTransferOutCapInput}
  {tp : TenantPolicy} {ctx : Context} {assets : List AssetSymbol}
  {r : BroadcastRequest} {h : Handler α} {capBase : Int}
  {holds : Event World Env ServerOp Reply → Prop}

/-- The operations at which the store looks at the date. -/
def ServerOp.dates : ServerOp → Bool
  | .checkTransferOut _ _ amount => 0 < amount
  | .recordTransferOut _ _ amount => 0 < amount
  | _ => false

/-- What an operation adds to the usage of an owner's symbol. -/
def ServerOp.adds (owner symbol : String) : ServerOp → Int
  | .recordTransferOut o sym amount => if owner = o ∧ symbol = sym ∧ 0 < amount then amount else 0
  | _ => 0

/-- The operation does not show the store another day than a given one. -/
def staysOn (day : Int) (e : Event World Env ServerOp Reply) : Bool :=
  !e.op.dates || utcDay e.env.now = day

/-- On another day nothing is used. -/
theorem usedOn_other {s : MemoryTransferOutStore} {now : Time} (isDay : s.day = formatDay now)
    (other : utcDay now ≠ utcDay today) : s.usedOn today owner symbol = 0 := by
  have apart : s.day ≠ formatDay today := by
    rw [isDay]
    exact mt (formatDay_eq_iff now today).mp other
  exact if_neg apart

/-- An operation on another day leaves no usage of the day; any other adds its amount. -/
theorem perform_usedOn (deps : Deps) (w : World) (env : Env) (op : ServerOp) (today : Time)
    (owner symbol : String) :
    ((server deps).perform w env op).2.transferOut.usedOn today owner symbol =
      if staysOn (utcDay today) ⟨w, env, op, ((server deps).perform w env op).1⟩ then
        w.transferOut.usedOn today owner symbol + op.adds owner symbol
      else 0 := by
  rw [perform_transferOut]
  cases op with
  | checkTransferOut o sym a =>
    by_cases positive : 0 < a
    · by_cases same : utcDay env.now = utcDay today
      · have onDay := (formatDay_eq_iff env.now today).mpr same
        simp [staysOn, ServerOp.dates, ServerOp.adds, same,
          w.transferOut.check_usedOn w.disk onDay o sym (some a) owner symbol]
      · have rolled : (w.transferOut.check w.disk env.now o sym (some a)).2.1.day =
            formatDay env.now := by
          simp only [check, if_neg (show ¬ a ≤ 0 by omega)]
          exact w.transferOut.rollover_day w.disk env.now
        simp [staysOn, ServerOp.dates, same, positive, usedOn_other rolled same]
    · simp [staysOn, ServerOp.dates, ServerOp.adds, positive, check, show a ≤ 0 by omega]
  | recordTransferOut o sym a =>
    by_cases positive : 0 < a
    · by_cases same : utcDay env.now = utcDay today
      · have onDay := (formatDay_eq_iff env.now today).mpr same
        simp [staysOn, ServerOp.dates, ServerOp.adds, same, positive,
          w.transferOut.record_usedOn w.disk onDay positive owner symbol]
      · have rolled : (w.transferOut.record w.disk env.now o sym (some a)).1.day =
            formatDay env.now := by
          simp only [record, if_neg (show ¬ a ≤ 0 by omega)]
          exact w.transferOut.rollover_day w.disk env.now
        simp [staysOn, ServerOp.dates, same, positive, usedOn_other rolled same]
    · simp [staysOn, ServerOp.dates, ServerOp.adds, positive,
        w.transferOut.record_nonpositive _ _ _ _ (show a ≤ 0 by omega)]
  | _ => simp [staysOn, ServerOp.dates, ServerOp.adds]

/-- The amounts the transaction of a request moves out of an owner's wallet. -/
def BroadcastRequest.moves (deps : Deps) (owner : String) : BroadcastRequest → Table String Int
  | .signedTx _ input =>
    match Base64.decode input.txRawBytesB64.toList with
    | some rawBytes => (extractBankSends deps.codec rawBytes owner).toOption.getD ∅
    | none => ∅
  | .evmTx _ input =>
    match Hexutil.decode input.rawTxHex.toList with
    | .ok rawBytes =>
      match deps.evmCodec.unmarshalBinary rawBytes, ownerEthAddress deps.codec owner with
      | .ok tx, .ok ownerEth => evmTransferOut deps tx ownerEth
      | _, _ => ∅
    | .error _ => ∅

/-- A request that sets a cap or broadcasts a transaction. -/
inductive CapRequest where
  | setCap (ctx : Context) (input : SetTransferOutCapInput)
  | broadcast (r : BroadcastRequest)

/-- The amounts a request moves out of an owner's wallet. -/
def CapRequest.moves (deps : Deps) (owner : String) : CapRequest → Table String Int
  | .setCap _ _ => ∅
  | .broadcast r => r.moves deps owner

/-- The operations that record nothing but amounts of a request. -/
def RecordsMoves (deps : Deps) (request : CapRequest) : ServerOp → Prop
  | .recordTransferOut o sym amount => (request.moves deps o).get sym = some amount
  | _ => True

/-- A decoded transaction is the one of the input. -/
theorem decodeSignedTx_raw {input : BroadcastSignedTxInput} {rawBytes : Bytes}
    {signerAddr : String}
    (run : Gives deps holds w (decodeSignedTx deps tp input) w' (rawBytes, signerAddr)) :
    Base64.decode input.txRawBytesB64.toList = some rawBytes := by
  simp [decodeSignedTx] at run
  split at run
  · next found =>
    rw [found, Except.ok.inj run.1]
  · cases run.1

/-- A signed transaction that passes the checks moves out what its request does. -/
theorem vetSignedTx_moves (ctx : Context) {input : BroadcastSignedTxInput}
    {tx : CheckedTx} (run : Gives deps holds w (vetSignedTx deps tp input) w' tx) :
    tx.bankOut = (BroadcastRequest.signedTx ctx input).moves deps tx.tp.owner := by
  simp [vetSignedTx, enforceBankSends] at run
  obtain ⟨_, _, _, raw, signer, decoding, _, _, _, bankOut, sends, _, rfl⟩ := run
  rw [(decodeSignedTx_ok decoding).1] at sends
  simp only [BroadcastRequest.moves, decodeSignedTx_raw decoding, sends]
  rfl

/-- A decoded EVM transaction is the one of the input, for the owner's account. -/
theorem decodeEVMTx_ok {input : BroadcastEVMTxInput} {tx : EvmTx} {ownerEth : Address}
    (run : Gives deps holds w (decodeEVMTx deps tp input) w' (tx, ownerEth)) :
    ∃ rawBytes, Hexutil.decode input.rawTxHex.toList = .ok rawBytes ∧
      deps.evmCodec.unmarshalBinary rawBytes = .ok tx ∧
      ownerEthAddress deps.codec tp.owner = .ok ownerEth := by
  simp [decodeEVMTx, wrapExternal] at run
  obtain ⟨raw, isRaw, isTx, _, isOwner, _⟩ := run
  exact ⟨raw, isRaw, isTx, isOwner⟩

/-- An EVM transaction that passes the checks moves out what its request does. -/
theorem vetEVMTx_moves (ctx : Context) {input : BroadcastEVMTxInput}
    {checked : CheckedEVMTx} (run : Gives deps holds w (vetEVMTx deps tp input) w' checked) :
    checked.transferOut = (BroadcastRequest.evmTx ctx input).moves deps checked.tp.owner := by
  simp [vetEVMTx] at run
  obtain ⟨_, _, _, _, tx, ownerEth, decoding, _, rfl⟩ := run
  obtain ⟨rawBytes, isRaw, isTx, isOwner⟩ := decodeEVMTx_ok decoding
  simp only [BroadcastRequest.moves, isRaw, isTx, isOwner]

/-- A submission records the amounts of its request. -/
theorem submit_recordsMoves {checked : r.Checked}
    (vetted : Alone deps w (r.vet deps tp) events w' (.ok checked)) :
    Only (RecordsMoves deps (.broadcast r)) (r.submit deps checked) := by
  cases r with
  | signedTx ctx input =>
    have moves := vetSignedTx_moves ctx (alone_gives vetted)
    refine only_bind (only_bind (only_call trivial) fun res => ?_) fun _ => only_pure _
    refine concludeSignedTx_only _ _ _ (fun _ => trivial) trivial (fun _ => trivial) ?_
    intro sym amount found
    rw [moves] at found
    exact found
  | evmTx ctx input =>
    have moves := vetEVMTx_moves ctx (alone_gives vetted)
    refine only_bind ?_ fun _ => only_pure _
    refine submitEVMTx_only (fun _ _ => trivial) (fun _ => trivial) (fun _ => trivial) ?_ _ _
    intro sym amount found
    rw [moves] at found
    exact found

/-- A request records nothing but the amounts of its transaction. -/
theorem handler_recordsMoves {result : Except Fault Unit}
    (run : Alone deps w (r.handler deps) events w' result) :
    ∀ e ∈ events, RecordsMoves deps (.broadcast r) e.op := by
  have authorizes : Only (RecordsMoves deps (.broadcast r)) (authorize r.ctx r.tool) :=
    authorize_only (fun _ => trivial) (fun _ => trivial) _ _
  have vets : ∀ tp, Only (RecordsMoves deps (.broadcast r)) (r.vet deps tp) := fun tp =>
    vet_only trivial (fun _ _ _ => trivial) (fun _ _ => trivial) (fun _ => trivial)
      (fun _ _ _ => trivial) deps tp r
  rcases handler_run run with ⟨_, authorizing, _⟩ | ⟨tp, first, rest, split, authorizing, vetting⟩
  · exact exec_calls authorizes authorizing
  · rw [split]
    refine List.forall_mem_append.mpr ⟨exec_calls authorizes authorizing, ?_⟩
    rcases vetting with ⟨_, failed, _⟩ | ⟨checks, mid, checked, submission, split, passed, submits⟩
    · exact exec_calls (vets tp) failed
    · rw [split]
      exact List.forall_mem_append.mpr
        ⟨exec_calls (vets tp) passed, exec_calls (submit_recordsMoves passed) submits⟩

/-- The requests of a history, each with the operations it called. -/
abbrev CapRecord := List (CapRequest × Events)

/-- Requests that are processed one after the other, whatever comes of each. -/
inductive CapRun (deps : Deps) (start : World) : CapRecord → World → Prop where
  | start : CapRun deps start [] start
  | setCap {past : CapRecord} {w w' : World} (run : CapRun deps start past w)
      (ctx : Context) (input : SetTransferOutCapInput)
      (events : Events)
      (result : Except Fault (CapChange × SetTransferOutCapOutput))
      (alone : Alone deps w (setTransferOutCap ctx input) events w' result) :
      CapRun deps start (past ++ [(.setCap ctx input, events)]) (w'.changeCap result)
  | broadcast {past : CapRecord} {w w' : World} (run : CapRun deps start past w)
      (r : BroadcastRequest) (events : Events)
      (result : Except Fault Unit) (alone : Alone deps w (r.handler deps) events w' result) :
      CapRun deps start (past ++ [(.broadcast r, events)]) w'

/-- The operations of a history, each with its request. -/
def capCalls (past : CapRecord) : List (CapRequest × Event World Env ServerOp Reply) :=
  past.flatMap fun request => request.2.map (request.1, ·)

/-- What a call moves out of an owner's symbol: where it records, the amount of its transaction. -/
def movedBy (deps : Deps) (owner symbol : String)
    (call : CapRequest × Event World Env ServerOp Reply) : Int :=
  match call.2.op with
  | .recordTransferOut o sym _ =>
    match (call.1.moves deps o).get sym with
    | some amount => if owner = o ∧ symbol = sym ∧ 0 < amount then amount else 0
    | none => 0
  | _ => 0

/-- What a wallet has moved out of a symbol on a day, since the clock last showed another one. -/
def movedOn (deps : Deps) (past : CapRecord) (day : Int) (owner symbol : String) : Int :=
  sumOver (movedBy deps owner symbol) ((capCalls past).rtakeWhile fun call => staysOn day call.2)

/-- A call moves nothing back. -/
theorem movedBy_nonneg (call : CapRequest × Event World Env ServerOp Reply) :
    0 ≤ movedBy deps owner symbol call := by
  unfold movedBy
  repeat' split
  all_goals omega

/-- Nor does a day. -/
theorem movedOn_nonneg (past : CapRecord) (day : Int) :
    0 ≤ movedOn deps past day owner symbol :=
  sumOver_nonneg movedBy_nonneg _

/-- A recorded amount is the one of the request. -/
theorem movedBy_eq (owner symbol : String) {request : CapRequest}
    {e : Event World Env ServerOp Reply} (records : RecordsMoves deps request e.op) :
    movedBy deps owner symbol (request, e) = e.op.adds owner symbol := by
  unfold movedBy
  cases op : e.op with
  | recordTransferOut o sym amount =>
    rw [op] at records
    have found : (request.moves deps o).get sym = some amount := records
    simp only [found, ServerOp.adds]
  | _ => simp only [ServerOp.adds]

/-- The calls of a request keep the usage of a day and the sum over the history equal. -/
theorem alone_usedOn {result : Except Fault α} {request : CapRequest}
    (run : Alone deps w h events w' result)
    (records : ∀ e ∈ events, RecordsMoves deps request e.op)
    {before : List (CapRequest × Event World Env ServerOp Reply)}
    (usage : w.transferOut.usedOn today owner symbol = sumOver (movedBy deps owner symbol)
      (before.rtakeWhile fun call => staysOn (utcDay today) call.2)) :
    w'.transferOut.usedOn today owner symbol = sumOver (movedBy deps owner symbol)
      ((before ++ events.map (request, ·)).rtakeWhile fun call =>
        staysOn (utcDay today) call.2) := by
  -- The induction follows the calls; each of them joins the history before the next.
  induction run generalizing before with
  | done =>
    rw [List.map_nil, List.append_nil]
    exact usage
  | call w env op next rest ih =>
    have here := movedBy_eq owner symbol (records _ List.mem_cons_self)
    rw [List.map_cons, List.append_cons]
    apply ih fun e member => records e (List.mem_cons_of_mem _ member)
    rw [perform_usedOn, sumOver_rtakeWhile, usage, here]

/-- No operation changes a cap. -/
theorem alone_finiteCap {result : Except Fault α} (run : Alone deps w h events w' result) :
    w'.transferOut.finiteCap owner symbol = w.transferOut.finiteCap owner symbol := by
  induction run with
  | done => rfl
  | call w env op next rest ih =>
    rw [ih, finiteCap, finiteCap, perform_transferOut]
    cases op with
    | checkTransferOut o sym a => rw [check_cap]
    | recordTransferOut o sym a => rw [record_cap]
    | _ => rfl

/-- A new cap leaves the usage. -/
theorem changeCap_usedOn (w : World) (result : Except Fault (CapChange × SetTransferOutCapOutput)) :
    (w.changeCap result).transferOut.usedOn today owner symbol =
      w.transferOut.usedOn today owner symbol := by
  cases result with
  | error fault => rfl
  | ok changed =>
    obtain ⟨change, _⟩ := changed
    cases change with
    | setUnlimited o sym => rfl
    | setCap o c => rfl

/-- A cap that is set is a word above zero. -/
theorem capChange_bounds {o : String} {c : SymbolCap} {out : SetTransferOutCapOutput}
    (isOk : capChange owner input = .ok (.setCap o c, out)) (finite : c.capBase = some capBase) :
    0 < capBase ∧ capBase < 2 ^ 256 := by
  unfold capChange at isOk
  cases known : assetForSymbol input.symbol with
  | none =>
    rw [known] at isOk
    cases isOk
  | some a =>
    simp only [known] at isOk
    by_cases zero : Strings.trimSpace input.amount.toList = ['0']
    · rw [if_pos zero] at isOk
      cases isOk
    · rw [if_neg zero] at isOk
      simp at isOk
      obtain ⟨base, accepted, _, _, ⟨_, rfl⟩, _⟩ := isOk
      cases finite
      exact humanToBaseUnits_bounds accepted

/-- What a history leaves in the store. -/
structure Accounts (deps : Deps) (past : CapRecord) (w : World) : Prop where
  used : ∀ today owner symbol,
    w.transferOut.usedOn today owner symbol = movedOn deps past (utcDay today) owner symbol
  caps : ∀ owner symbol capBase, w.transferOut.finiteCap owner symbol = some capBase →
    0 < capBase ∧ capBase < 2 ^ 256

/-- The calls of one request more. -/
theorem capCalls_append (past : CapRecord) (request : CapRequest)
    (events : Events) :
    capCalls (past ++ [(request, events)]) = capCalls past ++ events.map (request, ·) := by
  simp [capCalls]

/-- A request that records its own amounts keeps the usage and the sums equal. -/
theorem movedOn_append {result : Except Fault α} {past : CapRecord} {request : CapRequest}
    (accounts : Accounts deps past w) (run : Alone deps w h events w' result)
    (records : ∀ e ∈ events, RecordsMoves deps request e.op) (today : Time)
    (owner symbol : String) :
    w'.transferOut.usedOn today owner symbol =
      movedOn deps (past ++ [(request, events)]) (utcDay today) owner symbol := by
  rw [movedOn, capCalls_append]
  exact alone_usedOn run records (accounts.used today owner symbol)

/-- A broadcast is accounted for. -/
theorem accounts_broadcast {past : CapRecord} {result : Except Fault Unit}
    (accounts : Accounts deps past w) (run : Alone deps w (r.handler deps) events w' result) :
    Accounts deps (past ++ [(.broadcast r, events)]) w' where
  used := movedOn_append accounts run (handler_recordsMoves run)
  caps owner symbol capBase finite := by
    rw [alone_finiteCap run] at finite
    exact accounts.caps owner symbol capBase finite

/-- The caps after a call of `SetTransferOutCap`. -/
theorem changeCap_finiteCap
    (finite : (w.changeCap result).transferOut.finiteCap owner symbol = some capBase) :
    w.transferOut.finiteCap owner symbol = some capBase ∨
      ∃ o c out, result = .ok (.setCap o c, out) ∧ c.capBase = some capBase := by
  cases result with
  | error fault => exact .inl finite
  | ok changed =>
    obtain ⟨change, out⟩ := changed
    cases change with
    | setUnlimited o sym =>
      change ((w.transferOut.caps.delete2 o sym).get2 owner symbol).bind (·.capBase) = _ at finite
      rw [Table.get2_delete2] at finite
      split at finite
      · cases finite
      · exact .inl finite
    | setCap o c =>
      change ((w.transferOut.caps.set2 o c.symbol c).get2 owner symbol).bind (·.capBase) = _
        at finite
      rw [Table.get2_set2] at finite
      split at finite
      · exact .inr ⟨o, c, out, rfl, finite⟩
      · exact .inl finite

/-- Setting a cap records no move. -/
theorem setTransferOutCap_records
    (run : Alone deps w (setTransferOutCap ctx input) events w' result) :
    ∀ e ∈ events, RecordsMoves deps (.setCap ctx input) e.op := by
  have authorizes : Only (RecordsMoves deps (.setCap ctx input))
      (authorize ctx "set_transfer_out_cap") :=
    authorize_only (fun _ => trivial) (fun _ => trivial) _ _
  have quiet : Only (RecordsMoves deps (.setCap ctx input)) (setTransferOutCap ctx input) := by
    unfold setTransferOutCap
    apply only_bind authorizes
    intro tp
    generalize capChange tp.owner input = changed
    exact only_ofCall changed
  exact exec_calls quiet run

/-- A finite cap is a positive word. -/
theorem setTransferOutCap_bounds {o : String} {c : SymbolCap} {out : SetTransferOutCapOutput}
    (run : Alone deps w (setTransferOutCap ctx input) events w' (.ok (.setCap o c, out)))
    (finite : c.capBase = some capBase) : 0 < capBase ∧ capBase < 2 ^ 256 := by
  have run := alone_gives run
  simp [setTransferOutCap] at run
  obtain ⟨_, _, changed⟩ := run
  exact capChange_bounds changed finite

/-- A new cap is accounted for. -/
theorem accounts_setCap {past : CapRecord} (accounts : Accounts deps past w)
    (run : Alone deps w (setTransferOutCap ctx input) events w' result) :
    Accounts deps (past ++ [(.setCap ctx input, events)]) (w'.changeCap result) := by
  constructor
  · intro today owner symbol
    rw [changeCap_usedOn]
    exact movedOn_append accounts run (setTransferOutCap_records run) today owner symbol
  · intro owner symbol capBase finite
    rcases changeCap_finiteCap finite with kept | ⟨o, c, out, isOk, isBase⟩
    · rw [alone_finiteCap run] at kept
      exact accounts.caps owner symbol capBase kept
    · rw [isOk] at run
      exact setTransferOutCap_bounds run isBase

/-- Every history keeps the accounts of a store that was new. -/
theorem capRun_accounts {past : CapRecord} {path : String} (fresh : start.transferOut = .new path)
    (run : CapRun deps start past w) : Accounts deps past w := by
  induction run with
  | start =>
    constructor
    · intro today owner symbol
      rw [fresh, usedOn]
      split <;> rfl
    · intro owner symbol capBase finite
      rw [fresh] at finite
      cases finite
  | setCap run ctx input events result alone ih => exact accounts_setCap ih alone
  | broadcast run r events result alone ih => exact accounts_broadcast ih alone

/-- An asset found is a capped one. -/
theorem assetForSymbol_mem {symbol : String} {a : AssetSymbol}
    (found : assetForSymbol symbol = some a) : a ∈ transferOutAssets := by
  unfold assetForSymbol at found
  exact List.mem_of_find?_eq_some found

/-- So are the assets asked for. -/
theorem askedAssets_mem {input : GetTransferOutCapInput} (isOk : askedAssets input = .ok assets) :
    ∀ a ∈ assets, a ∈ transferOutAssets := by
  unfold askedAssets at isOk
  by_cases all : Strings.trimSpace input.symbol.toList = []
  · simp only [if_pos all] at isOk
    cases isOk
    exact fun a member => member
  · simp only [if_neg all] at isOk
    cases found : assetForSymbol (String.ofList (Strings.trimSpace input.symbol.toList)) with
    | none =>
      rw [found] at isOk
      cases isOk
    | some a =>
      rw [found] at isOk
      cases isOk
      intro b member
      rw [List.mem_singleton.mp member]
      exact assetForSymbol_mem found

/-- A request for the report leaves the store as it is, and asks for registered assets. -/
theorem getTransferOutCap_ok {input : GetTransferOutCapInput}
    (run : Alone deps w (getTransferOutCap ctx input) events w' (.ok (owner, assets))) :
    w' = w ∧ ∀ a ∈ assets, a ∈ transferOutAssets := by
  have run := alone_gives run
  simp [getTransferOutCap] at run
  obtain ⟨_, authorized, isOk, _⟩ := run
  exact ⟨authorize_gives authorized, askedAssets_mem isOk⟩

/-- After any history of caps and broadcasts from a new store, the report returns with an entry for
each asset that is asked for if and only if what the wallet has moved out of each of them on the day
is below 2²⁵⁶. No cap bounds it where none is set. -/
theorem cap_report_returns_iff {deps : Deps} {path : String} {start w w' : World}
    {past : CapRecord} {ctx : Context} {input : GetTransferOutCapInput}
    {events : Events} {owner : String} {assets : List AssetSymbol}
    (fresh : start.transferOut = .new path) (history : CapRun deps start past w)
    (asked : Alone deps w (getTransferOutCap ctx input) events w' (.ok (owner, assets)))
    (now : Time) :
    (∃ caps, (transferOutCapView w'.transferOut w'.disk now owner assets).1 = .ok caps ∧
        caps.map (·.symbol) = assets.map (·.symbol)) ↔
      ∀ a ∈ assets, movedOn deps past (utcDay now) owner a.symbol < 2 ^ 256 := by
  have accounts := capRun_accounts fresh history
  obtain ⟨same, known⟩ := getTransferOutCap_ok asked
  have nonneg : ∀ symbol, 0 ≤ w.transferOut.usedOn now owner symbol := by
    intro symbol
    rw [accounts.used]
    exact movedOn_nonneg past (utcDay now)
  have rendered := foldl_addCapEntry_iff now owner known w.transferOut w.disk [] nonneg
    (accounts.caps owner)
  simp only [accounts.used] at rendered
  rw [same]
  exact rendered

/-- A transfer of 2²⁵⁶ - 1 units of USDC. -/
def wordTransfer : EvmTx :=
  ⟨1, some (knownSwapToken "usdc"), 0,
    selERC20Transfer ++ List.replicate 32 0 ++ List.replicate 32 255, 0, 60000, 1, 2, (0, 1, 1)⟩

/-- A server whose tenant sends that transaction. -/
def wordDeps : Deps where
  __ := fixedDeps ⟨0, 0, 0, 0⟩ ⟨"tenant", "svp1owner", [0], false⟩ []
  evmCodec := ⟨fun _ => .ok wordTransfer, fun _ => .ok (.ofBytes []), fun _ => ""⟩
  evmEnabled := true

/-- A server that has just started. -/
def wordWorld : World := startWorld (.new "") (.new 0)

/-- The broadcast of the transaction. -/
def wordRequest (clientID : String) : BroadcastRequest :=
  .evmTx ownerContext ⟨clientID, "0x00"⟩

/-- The run of the request in a world. -/
def wordRun (w : World) (clientID : String) :
    Events × World × Except Fault Unit :=
  runAlone (server wordDeps) (fun _ => acceptingEnv 0) 0 w ((wordRequest clientID).handler wordDeps)

/-- The requests of a history of such broadcasts, and the server after it. -/
def wordHistory : List String → CapRecord × World
  | [] => ([], wordWorld)
  | clientID :: before =>
    let (past, w) := wordHistory before
    (past ++ [(.broadcast (wordRequest clientID), (wordRun w clientID).1)],
      (wordRun w clientID).2.1)

/-- The history is a run. -/
theorem wordHistory_run (clientIDs : List String) :
    CapRun wordDeps wordWorld (wordHistory clientIDs).1 (wordHistory clientIDs).2 := by
  induction clientIDs with
  | nil => exact .start
  | cons clientID before ih =>
    exact .broadcast ih (wordRequest clientID) _ _
      (alone_runAlone wordDeps (fun _ => acceptingEnv 0) 0 _ _)

/-- The request for the report of all assets. -/
def reportRun (w : World) :
    Events × World × Except Fault (String × List AssetSymbol) :=
  runAlone (server wordDeps) (fun _ => acceptingEnv 0) 0 w
    (getTransferOutCap ownerContext ⟨""⟩)

/-- So is its report. -/
theorem reportRun_ok {w : World} {owner : String}
    (isOk : (reportRun w).2.2.toOption = some (owner, assets)) :
    Alone wordDeps w (getTransferOutCap ownerContext ⟨""⟩) (reportRun w).1
      (reportRun w).2.1 (.ok (owner, assets)) := by
  have run := alone_runAlone wordDeps (fun _ => acceptingEnv 0) 0 w
    (getTransferOutCap ownerContext ⟨""⟩)
  have returned : (reportRun w).2.2 = .ok (owner, assets) := by
    cases result : (reportRun w).2.2 with
    | error fault =>
      rw [result] at isOk
      cases isOk
    | ok asked =>
      rw [result] at isOk
      rw [Option.some.inj isOk]
  rw [← reportRun, returned] at run
  exact run

/-- After one such transfer the report returns. -/
theorem cap_report_returns_iff_once :
    ∃ caps, (transferOutCapView (reportRun (wordHistory ["first"]).2).2.1.transferOut
        (reportRun (wordHistory ["first"]).2).2.1.disk 0 "svp1owner" transferOutAssets).1 =
          .ok caps ∧ caps.map (·.symbol) = transferOutAssets.map (·.symbol) := by
  have fresh : wordWorld.transferOut = .new "" := rfl
  exact (cap_report_returns_iff fresh (wordHistory_run ["first"])
    (reportRun_ok (by decide +kernel)) 0).mpr (by decide +kernel)

/-- The report can crash: after two such transfers on one day, both accepted by the node, the sum is
longer than 256 bits. -/
theorem cap_report_panics :
    ¬ ∀ (deps : Deps) (path : String) (start w w' : World) (past : CapRecord)
      (ctx : Context) (input : GetTransferOutCapInput)
      (events : Events) (owner : String)
      (assets : List AssetSymbol) (now : Time), start.transferOut = .new path →
      CapRun deps start past w → (∀ request ∈ past, decision request.2 = .broadcast) →
      Alone deps w (getTransferOutCap ctx input) events w' (.ok (owner, assets)) →
      ∃ caps, (transferOutCapView w'.transferOut w'.disk now owner assets).1 = .ok caps := by
  intro all
  obtain ⟨caps, returned⟩ := all wordDeps "" wordWorld _ _ _ _ _ _ "svp1owner" transferOutAssets 0
    rfl (wordHistory_run ["second", "first"]) (by decide +kernel)
    (reportRun_ok (by decide +kernel))
  have crashes : (transferOutCapView (reportRun (wordHistory ["second", "first"]).2).2.1.transferOut
      (reportRun (wordHistory ["second", "first"]).2).2.1.disk 0 "svp1owner"
      transferOutAssets).1.isOk = false := by
    decide +kernel
  rw [returned] at crashes
  cases crashes

end SvpMcp
