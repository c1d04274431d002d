import Mathlib.Data.List.Infix
import SvpMcp.Lib.Metering
import SvpMcp.Verif.DayUsage
import SvpMcp.Verif.Handlers

/-!
# Daily caps under concurrency

Requests run interleaved, each check, answer of the node and record being a step of its own. The
totals stay within the cap plus the starting headroom for every further request in flight.
-/

namespace SvpMcp

open Calendar Handler Monitor

/-- The operations on the caps. -/
def ServerOp.Capped : ServerOp → Prop
  | .checkTransferOut _ _ _ => True
  | .recordTransferOut _ _ _ => True
  | .enforce _ _ _ => True
  | .recordWithdraw _ _ => True
  | _ => False

/-- `BroadcastSignedTx` follows a metering of the caps if its checks end with a hold that covers
what it records. -/
theorem broadcastSignedTx_metered {m : Metering ServerOp Reply}
    (quiet : ∀ {op : ServerOp}, ¬ op.Capped → m.monitor.Ignores op) (deps : Deps)
    (ctx : Context) (input : BroadcastSignedTxInput) (holds : Hold → CheckedTx → Prop)
    (checks : ∀ tp rawBytes signerAddr, m.monitor.Obeys
      (fun s result => ∀ tx, result = .ok tx → holds s tx) .fresh (do
        let withdrawQ ← enforceWithdraw deps tp rawBytes
        let bankOut ← enforceBankSends deps tp rawBytes signerAddr
        return ⟨tp, rawBytes, withdrawQ, bankOut⟩ : Handler CheckedTx))
    (records : ∀ s (tx : CheckedTx) (res : BroadcastResult), holds s tx →
      m.monitor.Obeys (fun _ _ => True) s (do
        if tx.withdrawQ > 0 then call (.recordWithdraw tx.tp.tenantID tx.withdrawQ)
        recordTransferOut tx.tp.owner tx.bankOut
        return res : Handler BroadcastResult)) :
    m.monitor.Obeys (fun _ _ => True) .fresh (broadcastSignedTx deps ctx input) := by
  have checked : m.monitor.Obeys (fun s result => ∀ tx, result = .ok tx → holds s tx) .fresh
      (checkSignedTx deps ctx input) := by
    apply obeys_quietBind (authorize_only (fun _ => quiet id) (fun _ => quiet id) _ _) (by simp)
    intro tp
    apply obeys_quietBind (claimClientID_only (quiet id) (fun _ _ _ => quiet id) _ _) (by simp)
    intro _
    apply obeys_quietBind (decodeSignedTx_only _ _ _) (by simp)
    intro decoded
    exact checks tp decoded.1 decoded.2
  apply obeys_bindExcept
  refine obeys_mono ?_ checked
  intro s result held
  cases result with
  | error e => exact trivial
  | ok tx =>
    apply obeys_quietBind (only_call (quiet id)) (fun _ => trivial)
    intro res
    apply obeys_quietBind (only_call (quiet id)) (fun _ => trivial)
    intro _
    apply obeys_quietBind (only_ofResult _) (fun _ => trivial)
    intro res
    unfold settleSignedTx
    split
    · cases parseBroadcastError res <;> exact trivial
    · exact records s tx res (held tx rfl)

section TransferOut

variable (owner symbol : String)

/-- The checks and records of one owner and symbol. -/
def transferOutMetering : Metering ServerOp Reply where
  checks
    | .checkTransferOut o sym amount =>
      if o = owner ∧ sym = symbol ∧ 0 < amount then some amount else none
    | _ => none
  passes
    | .checkTransferOut _ _ _, .ok _ => true
    | .checkTransferOut _ _ _, .error _ => false
    | _, _ => true
  records
    | .recordTransferOut o sym amount =>
      if o = owner ∧ sym = symbol ∧ 0 < amount then some amount else none
    | _ => none

variable (deps : Deps)

/-- Within one day the store governs the total of an owner and symbol with a finite cap. -/
theorem transferOut_governs {entry : SymbolCap} {c : Int} (finite : entry.capBase = some c)
    (today : Time) :
    (transferOutMetering owner symbol).Governs (server deps)
      (fun w => w.transferOut.cap owner symbol = some entry)
      (fun env => utcDay env.now = utcDay today)
      (fun w => (w.transferOut.usedToday w.disk today owner symbol).1) c := by
  constructor
  · intro w env op capped sameDay
    rw [perform_transferOut]
    cases op with
    | checkTransferOut o sym a => exact (w.transferOut.check_cap _ _ _ _ _ _ _).trans capped
    | recordTransferOut o sym a => exact (w.transferOut.record_cap _ _ _ _ _ _ _).trans capped
    | _ => exact capped
  · intro w env op amount capped sameDay checked
    have same := (formatDay_eq_iff env.now today).mpr sameDay
    cases op with
    | checkTransferOut o sym a =>
      simp only [transferOutMetering, Option.ite_none_right_eq_some, Option.some.injEq] at checked
      obtain ⟨⟨rfl, rfl, positive⟩, rfl⟩ := checked
      simp only [MemoryTransferOutStore.usedToday_fst, perform_transferOut]
      refine ⟨w.transferOut.check_usedOn w.disk same _ _ _ _ _, ?_⟩
      intro passed
      refine ⟨positive, w.transferOut.check_fits w.disk same capped finite positive ?_⟩
      rw [perform_checkTransferOut_fst] at passed
      cases result : (w.transferOut.check w.disk env.now o sym (some a)).1 with
      | ok _ => rfl
      | error e =>
        rw [result] at passed
        cases passed
    | _ => cases checked
  · intro w env op amount capped sameDay unchecked recorded
    have same := (formatDay_eq_iff env.now today).mpr sameDay
    cases op with
    | recordTransferOut o sym a =>
      simp only [transferOutMetering, Option.ite_none_right_eq_some, Option.some.injEq] at recorded
      obtain ⟨⟨rfl, rfl, positive⟩, rfl⟩ := recorded
      simp only [MemoryTransferOutStore.usedToday_fst, perform_transferOut,
        w.transferOut.record_usedOn w.disk same positive, and_self, if_true]
      omega
    | _ => cases recorded
  · intro w env op capped sameDay unchecked unrecorded
    have same := (formatDay_eq_iff env.now today).mpr sameDay
    simp only [MemoryTransferOutStore.usedToday_fst, perform_transferOut]
    cases op with
    | checkTransferOut o sym a => exact w.transferOut.check_usedOn w.disk same _ _ _ _ _
    | recordTransferOut o sym a =>
      simp only
      by_cases positive : 0 < a
      · rw [w.transferOut.record_usedOn w.disk same positive, if_neg, add_zero]
        intro mine
        simp [transferOutMetering, mine.1, mine.2, positive] at unrecorded
      · rw [w.transferOut.record_nonpositive _ _ _ _ (show a ≤ 0 by omega)]
    | _ => rfl

/-- An amount of the key that is held after the checks. -/
def HoldsAmount (s : Hold) (tpOwner : String) (entries : List (String × Int)) : Prop :=
  ∀ a, (symbol, a) ∈ entries → tpOwner = owner → 0 < a → s = .holding a

variable {owner symbol}

/-- Other operations are not metered. -/
theorem ignores_uncapped {op : ServerOp} (uncapped : ¬ op.Capped) :
    (transferOutMetering owner symbol).monitor.Ignores op := by
  cases op <;> first
    | exact absurd trivial uncapped
    | exact Metering.ignores_of_none rfl rfl

/-- The monitor does not react to a check of another key or of nothing. -/
theorem ignores_check {o sym : String} {a : Int}
    (unrelated : ¬ (o = owner ∧ sym = symbol ∧ 0 < a)) :
    (transferOutMetering owner symbol).monitor.Ignores (.checkTransferOut o sym a) :=
  Metering.ignores_of_none (if_neg unrelated) rfl

/-- The monitor does not react to a record of another key or of nothing. -/
theorem ignores_record {o sym : String} {a : Int}
    (unrelated : ¬ (o = owner ∧ sym = symbol ∧ 0 < a)) :
    (transferOutMetering owner symbol).monitor.Ignores (.recordTransferOut o sym a) :=
  Metering.ignores_of_none rfl (if_neg unrelated)

/-- An entry of the key at the head is the only one. -/
theorem absent_of_nodup {sym : String} {a : Int} {rest : List (String × Int)}
    (keys : (((sym, a) :: rest).map Prod.fst).Nodup) (b : Int) : (sym, b) ∉ rest := by
  intro member
  rw [List.map_cons, List.nodup_cons] at keys
  exact keys.1 (List.mem_map.mpr ⟨(sym, b), member, rfl⟩)

variable (tpOwner : String) (entries : List (String × Int))

/-- The checks of a map end with the amount of the key held. -/
theorem checkAll_obeys (keys : (entries.map Prod.fst).Nodup) :
    (transferOutMetering owner symbol).monitor.Obeys
      (fun s result => result = .ok () → HoldsAmount owner symbol s tpOwner entries)
      .fresh (checkAll tpOwner entries) := by
  induction entries with
  | nil =>
    intro _ a member
    cases member
  | cons entry rest ih =>
    obtain ⟨sym, amt⟩ := entry
    by_cases mine : tpOwner = owner ∧ sym = symbol ∧ 0 < amt
    · obtain ⟨rfl, rfl, positive⟩ := mine
      have absent := absent_of_nodup keys
      -- Past the entry of the key, the other entries are of other keys.
      have quiet : Only (transferOutMetering tpOwner sym).monitor.Ignores
          (checkAll tpOwner rest) := by
        apply checkAll_only
        intro other b member
        apply ignores_check
        intro related
        rw [related.2.1] at member
        exact absent b member
      have checked : (transferOutMetering tpOwner sym).checks (.checkTransferOut tpOwner sym amt) =
          some amt := if_pos ⟨rfl, rfl, positive⟩
      refine ⟨?_, ?_⟩
      · simp only [Metering.monitor, checked]
      · intro reply
        cases reply with
        | error e => intro impossible; cases impossible
        | ok _ =>
          apply obeys_of_ignored quiet
          intro result _ a member _ _
          rcases List.mem_cons.mp member with here | there
          · cases here
            simp only [Metering.monitor, checked]
            exact if_pos rfl
          · exact absurd there (absent a)
    · have tail := ih (List.nodup_cons.mp keys).2
      apply obeys_quietBind (only_call (ignores_check mine))
      · intro e impossible
        cases impossible
      · intro reply
        apply obeys_quietBind (only_ofResult _)
        · intro e impossible
          cases impossible
        · intro _
          refine obeys_mono ?_ tail
          intro s result held returned a member sameOwner positive
          rcases List.mem_cons.mp member with here | there
          · cases here
            exact absurd ⟨sameOwner, rfl, positive⟩ mine
          · exact held returned a there sameOwner positive

/-- The records of a map are of the amount held. -/
theorem recordAll_obeys (keys : (entries.map Prod.fst).Nodup) {s : Hold}
    (holds : HoldsAmount owner symbol s tpOwner entries) :
    (transferOutMetering owner symbol).monitor.Obeys (fun _ _ => True) s
      (recordAll tpOwner entries) := by
  induction entries generalizing s with
  | nil => exact trivial
  | cons entry rest ih =>
    obtain ⟨sym, amt⟩ := entry
    by_cases mine : tpOwner = owner ∧ sym = symbol ∧ 0 < amt
    · obtain ⟨rfl, rfl, positive⟩ := mine
      have absent := absent_of_nodup keys
      have held := holds amt List.mem_cons_self rfl positive
      have recorded : (transferOutMetering tpOwner sym).records
          (.recordTransferOut tpOwner sym amt) = some amt := if_pos ⟨rfl, rfl, positive⟩
      have unchecked : (transferOutMetering tpOwner sym).checks
          (.recordTransferOut tpOwner sym amt) = none := rfl
      refine ⟨?_, ?_⟩
      · simp only [Metering.monitor, unchecked, recorded]
        exact held
      · intro _
        apply ih (List.nodup_cons.mp keys).2
        intro a member
        exact absurd member (absent a)
    · apply obeys_quietBind (only_call (ignores_record mine)) (fun _ => trivial)
      intro _
      apply ih (List.nodup_cons.mp keys).2
      intro a member
      exact holds a (List.mem_cons_of_mem _ member)

/-- Checking a map of amounts ends with the amount of the key held. -/
theorem checkTransferOut_obeys (amounts : Table String Int) :
    (transferOutMetering owner symbol).monitor.Obeys
      (fun s result => result = .ok () → HoldsAmount owner symbol s tpOwner amounts.pairs)
      .fresh (checkTransferOut tpOwner amounts) := by
  apply obeys_quietBind (only_call (Metering.ignores_of_none rfl rfl))
  · intro e impossible
    cases impossible
  · intro order
    have keys : (order.1.map Prod.fst).Nodup :=
      (order.2.map Prod.fst).nodup_iff.mpr amounts.pairs_keys_nodup
    refine obeys_mono ?_ (checkAll_obeys tpOwner order.1 keys)
    intro s result held returned a member
    exact held returned a (order.2.mem_iff.mpr member)

/-- Recording a map of amounts records the amount held. -/
theorem recordTransferOut_obeys (amounts : Table String Int) {s : Hold}
    (holds : HoldsAmount owner symbol s tpOwner amounts.pairs) :
    (transferOutMetering owner symbol).monitor.Obeys (fun _ _ => True) s
      (recordTransferOut tpOwner amounts) := by
  apply obeys_quietBind (only_call (Metering.ignores_of_none rfl rfl)) (fun _ => trivial)
  intro order
  apply recordAll_obeys tpOwner order.1
  · exact (order.2.map Prod.fst).nodup_iff.mpr amounts.pairs_keys_nodup
  · intro a member
    exact holds a (order.2.mem_iff.mp member)

/-- The bank checks end with the amount of the key held. -/
theorem enforceBankSends_obeys (tp : TenantPolicy) (rawBytes : Bytes) (signerAddr : String) :
    (transferOutMetering owner symbol).monitor.Obeys
      (fun s result => ∀ bankOut, result = .ok bankOut →
        HoldsAmount owner symbol s tp.owner bankOut.pairs)
      .fresh (enforceBankSends deps tp rawBytes signerAddr) := by
  apply obeys_quietBind (only_ofCall _)
  · intro e bankOut impossible
    cases impossible
  · intro bankOut
    apply obeys_bindExcept
    refine obeys_mono ?_ (checkTransferOut_obeys tp.owner bankOut)
    intro s result held
    cases result with
    | error e =>
      intro other impossible
      cases impossible
    | ok _ =>
      intro other same
      cases same
      exact held rfl

/-- `BroadcastSignedTx` checks a key once and records what it checked. -/
theorem broadcastSignedTx_obeys (ctx : Context) (input : BroadcastSignedTxInput) :
    (transferOutMetering owner symbol).monitor.Obeys (fun _ _ => True) .fresh
      (broadcastSignedTx deps ctx input) := by
  refine broadcastSignedTx_metered ignores_uncapped deps ctx input
    (fun s tx => HoldsAmount owner symbol s tx.tp.owner tx.bankOut.pairs) ?_ ?_
  · intro tp rawBytes signerAddr
    have unchecked (q : UInt64) : (transferOutMetering owner symbol).monitor.Ignores
        (.enforce tp.tenantID .withdraw q) := Metering.ignores_of_none rfl rfl
    apply obeys_quietBind (enforceWithdraw_only _ _ _ unchecked) (by simp)
    intro withdrawQ
    apply obeys_bindExcept
    refine obeys_mono ?_ (enforceBankSends_obeys deps tp _ _)
    intro s result held
    cases result with
    | error e => simp
    | ok bankOut =>
      intro tx returned
      cases returned
      exact held bankOut rfl
  · intro s tx res holds
    have recording := obeys_thenPure (fun _ => res)
      (recordTransferOut_obeys tx.tp.owner tx.bankOut holds)
    split
    · apply obeys_quietBind (only_call (Metering.ignores_of_none rfl rfl)) (fun _ => trivial)
      intro _
      exact recording
    · exact recording

/-- `BroadcastEVMTx` checks a key once and records what it checked. -/
theorem broadcastEVMTx_obeys (ctx : Context) (input : BroadcastEVMTxInput) :
    (transferOutMetering owner symbol).monitor.Obeys (fun _ _ => True) .fresh
      (broadcastEVMTx deps ctx input) := by
  have checks : (transferOutMetering owner symbol).monitor.Obeys
      (fun s result => ∀ checked, result = .ok checked →
        HoldsAmount owner symbol s checked.tp.owner checked.transferOut.pairs)
      .fresh (checkEVMTx deps ctx input) := by
    apply obeys_quietBind (authorize_only (fun _ => ignores_uncapped id)
      (fun _ => ignores_uncapped id) _ _) (by simp)
    intro tp
    apply obeys_quietBind (only_require _ _) (by simp)
    intro _
    apply obeys_quietBind (claimClientID_only (ignores_uncapped id)
      (fun _ _ _ => ignores_uncapped id) _ _) (by simp)
    intro _
    apply obeys_quietBind (decodeEVMTx_only _ _ _) (by simp)
    intro decoded
    apply obeys_bindExcept
    refine obeys_mono ?_ (checkTransferOut_obeys tp.owner _)
    intro s result held
    cases result with
    | error e => simp
    | ok _ =>
      intro checked returned
      cases returned
      exact held rfl
  apply obeys_bindExcept
  refine obeys_mono ?_ checks
  intro s result held
  cases result with
  | error e => exact trivial
  | ok checked =>
    apply obeys_quietBind (only_call (ignores_uncapped id)) (fun _ => trivial)
    intro sent
    apply obeys_quietBind (only_call (ignores_uncapped id)) (fun _ => trivial)
    intro _
    apply obeys_quietBind (only_ofResult _) (fun _ => trivial)
    intro txHash
    exact obeys_thenPure _ (recordTransferOut_obeys _ _ (held checked rfl))

/-- Every broadcast request checks a key once and records what it checked. -/
theorem request_obeys_transferOut (request : BroadcastRequest) :
    (transferOutMetering owner symbol).monitor.Obeys (fun _ _ => True) .fresh
      (request.handler deps).run := by
  cases request with
  | signedTx ctx input => exact obeys_thenPure _ (broadcastSignedTx_obeys deps ctx input)
  | evmTx ctx input => exact obeys_thenPure _ (broadcastEVMTx_obeys deps ctx input)

end TransferOut

section Withdraw

variable (tenantID : String)

/-- The checks and records of one tenant's withdrawals. -/
def withdrawMetering : Metering ServerOp Reply where
  checks
    | .enforce id .withdraw q => if id = tenantID ∧ 0 < q then some (q.toNat : Int) else none
    | _ => none
  passes
    | .enforce _ _ _, .ok _ => true
    | .enforce _ _ _, .error _ => false
    | _, _ => true
  records
    | .recordWithdraw id q => if id = tenantID ∧ 0 < q then some (q.toNat : Int) else none
    | _ => none

/-- Within one day the ledger governs the tenant's total when the daily cap is enabled. -/
theorem withdraw_governs (deps : Deps) {capQ : UInt64}
    (enabled : dailyCapQuantums deps.limits = some capQ) (today : Time) :
    (withdrawMetering tenantID).Governs (server deps) (LedgerCap capQ)
      (fun env => utcDay env.now = utcDay today) (withdrawnOn tenantID today) capQ.toNat := by
  constructor
  · intro w env op capped sameDay
    exact perform_ledgerCap deps env op capped
  · intro w env op amount capped sameDay checked
    obtain ⟨l, present, matching⟩ := capped
    have same := (formatDay_eq_iff env.now today).mpr sameDay
    cases op with
    | enforce id tool q =>
      cases tool with
      | withdraw =>
        simp only [withdrawMetering, Option.ite_none_right_eq_some, Option.some.injEq] at checked
        obtain ⟨⟨rfl, positive⟩, rfl⟩ := checked
        refine ⟨withdrawnOn_rollover id same (enforce_ledger _ _ _ _ _ _), ?_⟩
        intro passed
        rw [perform_enforce_fst, present] at passed
        have accepted : (enforce deps.limits (some l) env.now id .withdraw q).1 = .ok () := by
          cases result : (enforce deps.limits (some l) env.now id .withdraw q).1 with
          | ok _ => rfl
          | error e =>
            rw [result] at passed
            cases passed
        have fits := enforce_fits same enabled matching positive accepted
        have some_quantums := UInt64.lt_iff_toNat_lt.mp positive
        rw [UInt64.toNat_zero] at some_quantums
        simp only [withdrawnOn, present]
        omega
      | deposit => cases checked
      | transfer => cases checked
    | _ => cases checked
  · intro w env op amount capped sameDay unchecked recorded
    obtain ⟨l, present, matching⟩ := capped
    have same := (formatDay_eq_iff env.now today).mpr sameDay
    cases op with
    | recordWithdraw id q =>
      simp only [withdrawMetering, Option.ite_none_right_eq_some, Option.some.injEq] at recorded
      obtain ⟨⟨rfl, positive⟩, rfl⟩ := recorded
      have bounds := l.record_usedOn_bounds same id q
      simp only [withdrawnOn, perform_ledger, present, Option.map_some]
      omega
    | _ => cases recorded
  · intro w env op capped sameDay unchecked unrecorded
    have same := (formatDay_eq_iff env.now today).mpr sameDay
    cases op with
    | enforce id tool q => exact withdrawnOn_rollover tenantID same (enforce_ledger _ _ _ _ _ _)
    | recordWithdraw id q =>
      obtain ⟨l, present, matching⟩ := capped
      simp only [withdrawnOn, perform_ledger, present, Option.map_some]
      rw [l.record_usedOn same]
      by_cases mine : tenantID = id
      · have zero : q = 0 := by
          have none_left : ¬ (id = tenantID ∧ 0 < q) := by
            simpa [withdrawMetering] using unrecorded
          have small : ¬ 0 < q := fun positive => none_left ⟨mine.symm, positive⟩
          rw [UInt64.lt_iff_toNat_lt, UInt64.toNat_zero] at small
          exact UInt64.toNat_inj.mp (by rw [UInt64.toNat_zero]; omega)
        rw [if_pos mine, zero, UInt64.add_zero, if_neg (UInt64.lt_irrefl _), mine]
      · rw [if_neg mine]
    | _ => rfl

variable {tenantID}

/-- Nor are they withdraws. -/
theorem withdraw_ignores_uncapped {op : ServerOp} (uncapped : ¬ op.Capped) :
    (withdrawMetering tenantID).monitor.Ignores op := by
  cases op <;> first
    | exact absurd trivial uncapped
    | exact Metering.ignores_of_none rfl rfl

/-- The daily check ends with the tenant's quantums held. -/
theorem enforceWithdraw_obeys (deps : Deps) (tp : TenantPolicy) (rawBytes : Bytes) :
    (withdrawMetering tenantID).monitor.Obeys
      (fun s result => ∀ q : UInt64, result = .ok q → tp.tenantID = tenantID → 0 < q →
        s = .holding q.toNat)
      .fresh (enforceWithdraw deps tp rawBytes) := by
  apply obeys_quietBind (only_ofResult _)
  · intro e q impossible
    cases impossible
  · intro withdrawQ
    split
    · rename_i positive
      by_cases mine : tp.tenantID = tenantID
      · have checked : (withdrawMetering tenantID).checks
            (.enforce tp.tenantID .withdraw withdrawQ) = some (withdrawQ.toNat : Int) :=
          if_pos ⟨mine, positive⟩
        refine ⟨?_, ?_⟩
        · simp only [Metering.monitor, checked]
        · intro reply
          cases reply with
          | error e =>
            intro q impossible
            cases impossible
          | ok _ =>
            intro q same _ _
            cases same
            simp only [Metering.monitor, checked]
            exact if_pos rfl
      · have ignored : (withdrawMetering tenantID).monitor.Ignores
            (.enforce tp.tenantID .withdraw withdrawQ) :=
          Metering.ignores_of_none (if_neg fun both => mine both.1) rfl
        apply obeys_quietBind (only_call ignored)
        · intro e q impossible
          cases impossible
        · intro reply
          apply obeys_of_ignored
          · exact only_bind (only_ofResult _) fun _ => only_pure _
          · intro result q _ sameTenant
            exact absurd sameTenant mine
    · rename_i zero
      intro q same _ positive
      cases same
      exact absurd positive zero

/-- `BroadcastSignedTx` enforces once and records what it enforced. -/
theorem broadcastSignedTx_obeys_withdraw (deps : Deps) (ctx : Context)
    (input : BroadcastSignedTxInput) :
    (withdrawMetering tenantID).monitor.Obeys (fun _ _ => True) .fresh
      (broadcastSignedTx deps ctx input) := by
  refine broadcastSignedTx_metered withdraw_ignores_uncapped deps ctx input
    (fun s tx => tx.tp.tenantID = tenantID → 0 < tx.withdrawQ → s = .holding tx.withdrawQ.toNat)
    ?_ ?_
  · intro tp rawBytes signerAddr
    apply obeys_bindExcept
    refine obeys_mono ?_ (enforceWithdraw_obeys deps tp _)
    intro s result held
    cases result with
    | error e => simp
    | ok withdrawQ =>
      apply obeys_quietBind (enforceBankSends_only _ _ _ _ (fun _ => withdraw_ignores_uncapped id)
        fun _ _ => Metering.ignores_of_none rfl rfl) (by simp)
      intro bankOut tx returned
      cases returned
      exact held withdrawQ rfl
  · intro s tx res held
    have recording (s : Hold) : (withdrawMetering tenantID).monitor.Obeys (fun _ _ => True) s
        (recordTransferOut tx.tp.owner tx.bankOut >>= fun _ => pure res : Handler _) := by
      apply obeys_thenPure
      apply obeys_of_ignored _ (fun _ => trivial)
      exact recordTransferOut_only _ _ (fun _ => withdraw_ignores_uncapped id)
        fun _ _ _ => Metering.ignores_of_none rfl rfl
    split
    · rename_i positive
      by_cases mine : tx.tp.tenantID = tenantID
      · have recorded : (withdrawMetering tenantID).records
            (.recordWithdraw tx.tp.tenantID tx.withdrawQ) = some (tx.withdrawQ.toNat : Int) :=
          if_pos ⟨mine, positive⟩
        have unchecked : (withdrawMetering tenantID).checks
            (.recordWithdraw tx.tp.tenantID tx.withdrawQ) = none := rfl
        refine ⟨?_, fun _ => recording _⟩
        simp only [Metering.monitor, unchecked, recorded]
        exact held mine positive
      · have ignored : (withdrawMetering tenantID).monitor.Ignores
            (.recordWithdraw tx.tp.tenantID tx.withdrawQ) :=
          Metering.ignores_of_none rfl (if_neg fun both => mine both.1)
        apply obeys_quietBind (only_call ignored) (fun _ => trivial)
        intro _
        exact recording _
    · exact recording _

/-- `BroadcastEVMTx` withdraws nothing. -/
theorem broadcastEVMTx_obeys_withdraw (deps : Deps) (ctx : Context)
    (input : BroadcastEVMTxInput) :
    (withdrawMetering tenantID).monitor.Obeys (fun _ _ => True) .fresh
      (broadcastEVMTx deps ctx input) := by
  have quiet : ∀ {op : ServerOp}, (withdrawMetering tenantID).checks op = none →
      (withdrawMetering tenantID).records op = none →
      (withdrawMetering tenantID).monitor.Ignores op := Metering.ignores_of_none
  apply obeys_of_ignored _ (fun _ => trivial)
  have checksAllowed : AllowsChecks (withdrawMetering tenantID).monitor.Ignores :=
    ⟨fun _ => quiet rfl rfl, fun _ => quiet rfl rfl, quiet rfl rfl, fun _ _ _ => quiet rfl rfl,
      fun _ => quiet rfl rfl, fun _ _ _ => quiet rfl rfl⟩
  apply only_bind (checkEVMTx_only checksAllowed deps ctx input)
  intro checked
  exact submitEVMTx_only (fun _ _ => quiet rfl rfl) (fun _ => quiet rfl rfl)
    (fun _ => quiet rfl rfl) (fun _ _ _ => quiet rfl rfl) _ _

/-- Every broadcast request enforces once and records what it enforced. -/
theorem request_obeys_withdraw (deps : Deps) (request : BroadcastRequest) :
    (withdrawMetering tenantID).monitor.Obeys (fun _ _ => True) .fresh
      (request.handler deps).run := by
  cases request with
  | signedTx ctx input =>
    exact obeys_thenPure _ (broadcastSignedTx_obeys_withdraw deps ctx input)
  | evmTx ctx input => exact obeys_thenPure _ (broadcastEVMTx_obeys_withdraw deps ctx input)

end Withdraw

/-- Within one UTC day and with at most `k` requests in flight for a key at a time, the total
recorded for an owner and symbol with cap `c` stays within `c` plus `k - 1` times the headroom
at the start, and likewise a tenant's withdrawals under an enabled daily cap. -/
theorem daily_totals_bounded_by_in_flight (deps : Deps) (w : World)
    (requests : List BroadcastRequest) (schedule : List (Nat × Env)) (today : Time)
    (oneDay : ∀ turn ∈ schedule, utcDay turn.2.now = utcDay today) (k : Nat) :
    (∀ owner symbol entry c, w.transferOut.cap owner symbol = some entry →
      entry.capBase = some c →
      (w.transferOut.usedToday w.disk today owner symbol).1 ≤ c →
      (∀ earlier, earlier <+: schedule →
        (transferOutMetering owner symbol).inFlight (serve deps w requests earlier) ≤ k) →
      ((serve deps w requests schedule).world.transferOut.usedToday
          (serve deps w requests schedule).world.disk today owner symbol).1 ≤
        c + (k - 1 : Nat) * (c - (w.transferOut.usedToday w.disk today owner symbol).1)) ∧
    (∀ tenantID ledger, w.ledger = some ledger →
      0 < deps.limits.dailyWithdrawCapUSDC →
      deps.limits.dailyWithdrawCapUSDC.toNat * 1000000 < 2 ^ 64 →
      ledger.capQuantums = (MemoryLedger.new deps.limits.dailyWithdrawCapUSDC).capQuantums →
      withdrawnOn tenantID today w ≤ (deps.limits.dailyWithdrawCapUSDC.toNat * 1000000 : Nat) →
      (∀ earlier, earlier <+: schedule →
        (withdrawMetering tenantID).inFlight (serve deps w requests earlier) ≤ k) →
      withdrawnOn tenantID today (serve deps w requests schedule).world ≤
        (deps.limits.dailyWithdrawCapUSDC.toNat * 1000000 : Nat) + (k - 1 : Nat) *
          ((deps.limits.dailyWithdrawCapUSDC.toNat * 1000000 : Nat) -
            withdrawnOn tenantID today w)) := by
  constructor
  · intro owner symbol entry c capped finite room few
    have obeys : ∀ p ∈ requests.map fun r => (r.handler deps).run,
        (transferOutMetering owner symbol).monitor.Obeys (fun _ _ => True) .fresh p := by
      intro p member
      obtain ⟨request, _, rfl⟩ := List.mem_map.mp member
      exact request_obeys_transferOut deps request
    exact Metering.used_le (transferOut_governs owner symbol deps finite today) capped room
      obeys schedule oneDay few
  · intro tenantID ledger present positive fits built room few
    have enabled := capQuantums_eq_some positive fits
    have matching : ledger.capQuantums =
        deps.limits.dailyWithdrawCapUSDC * quantumsPerUSDC := by
      rw [built, MemoryLedger.new_capQuantums positive fits]
    have governs := withdraw_governs tenantID deps enabled.1 today
    rw [enabled.2] at governs
    have obeys : ∀ p ∈ requests.map fun r => (r.handler deps).run,
        (withdrawMetering tenantID).monitor.Obeys (fun _ _ => True) .fresh p := by
      intro p member
      obtain ⟨request, _, rfl⟩ := List.mem_map.mp member
      exact request_obeys_withdraw deps request
    exact Metering.used_le governs ⟨ledger, present, matching⟩ room obeys schedule oneDay few

/-- The tenant of both requests. -/
def racingTenant : TenantPolicy := ⟨"tenant", "svp1owner", [], false⟩

/-- Every transaction withdraws 0.6 USDC and sends 6 `asvp`; the daily withdraw cap is 1 USDC. -/
def racingDeps : Deps :=
  fixedDeps ⟨0, 0, 0, 1⟩ racingTenant
    [.withdrawFromSubaccount ⟨⟨"svp1owner", 0⟩, "svp1owner", 0, 600000⟩,
     .send ⟨"svp1owner", "svp1other", [⟨"asvp", some 6⟩]⟩]

/-- The owner's cap for `svp` is 10 base units. -/
def racingWorld : World :=
  startWorld
    { path := "", day := "", caps := Table.set2 ∅ "svp1owner" "svp" ⟨"svp", 18, some 10⟩,
      used := ∅ }
    (.new 1)

/-- Two requests of the tenant with different client ids. -/
def racingRequests : List BroadcastRequest :=
  [.signedTx ownerContext ⟨"first", ""⟩,
   .signedTx ownerContext ⟨"second", ""⟩]

/-- Nine turns take a request past its checks and the node's answer, four more to its end: both
pass their checks before either records. -/
def racingSchedule : List (Nat × Env) :=
  (List.replicate 9 0 ++ List.replicate 9 1 ++ List.replicate 4 0 ++ List.replicate 4 1).map
    fun i => (i, acceptingEnv 0)

/-- Both totals overrun their caps when two requests check before either records. -/
theorem daily_caps_overrun_by_two_requests :
    (∀ turn ∈ racingSchedule, utcDay turn.2.now = utcDay 0) ∧
      racingWorld.transferOut.cap "svp1owner" "svp" = some ⟨"svp", 18, some 10⟩ ∧
      (racingWorld.transferOut.usedToday racingWorld.disk 0 "svp1owner" "svp").1 ≤ 10 ∧
      withdrawnOn "tenant" 0 racingWorld ≤ 1 * 10 ^ 6 ∧
      ¬ ((serve racingDeps racingWorld racingRequests racingSchedule).world.transferOut.usedToday
          (serve racingDeps racingWorld racingRequests racingSchedule).world.disk 0
          "svp1owner" "svp").1 ≤ 10 ∧
      ¬ withdrawnOn "tenant" 0
          (serve racingDeps racingWorld racingRequests racingSchedule).world ≤ 1 * 10 ^ 6 := by
  refine ⟨?_, ?_, ?_, ?_, ?_, ?_⟩
  · intro turn member
    simp only [racingSchedule, List.mem_map] at member
    obtain ⟨i, _, rfl⟩ := member
    rfl
  · decide +kernel
  · decide +kernel
  · decide +kernel
  · decide +kernel
  · decide +kernel

/-- The bound at the two racing requests: both keys have at most two requests in flight. -/
theorem daily_totals_bounded_for_racing_requests :
    ((serve racingDeps racingWorld racingRequests racingSchedule).world.transferOut.usedToday
        (serve racingDeps racingWorld racingRequests racingSchedule).world.disk 0
        "svp1owner" "svp").1 ≤ 10 + (2 - 1 : Nat) * (10 - 0) ∧
      withdrawnOn "tenant" 0 (serve racingDeps racingWorld racingRequests racingSchedule).world ≤
        (1 * 1000000 : Nat) + (2 - 1 : Nat) * ((1 * 1000000 : Nat) - 0) := by
  have oneDay : ∀ turn ∈ racingSchedule, utcDay turn.2.now = utcDay 0 := by
    intro turn member
    simp only [racingSchedule, List.mem_map] at member
    obtain ⟨i, _, rfl⟩ := member
    rfl
  have bounds := daily_totals_bounded_by_in_flight racingDeps racingWorld racingRequests
    racingSchedule 0 oneDay 2
  have fewTransfers : ∀ earlier ∈ racingSchedule.inits, (transferOutMetering "svp1owner"
      "svp").inFlight (serve racingDeps racingWorld racingRequests earlier) ≤ 2 := by
    decide +kernel
  have fewWithdrawals : ∀ earlier ∈ racingSchedule.inits, (withdrawMetering
      "tenant").inFlight (serve racingDeps racingWorld racingRequests earlier) ≤ 2 := by
    decide +kernel
  constructor
  · exact bounds.1 "svp1owner" "svp" ⟨"svp", 18, some 10⟩ 10 (by decide +kernel) rfl
      (by decide +kernel) fun earlier isPrefix =>
        fewTransfers earlier ((List.mem_inits _ _).mpr isPrefix)
  · exact bounds.2 "tenant" (.new 1) rfl (by decide) (by decide) rfl (by decide +kernel)
      fun earlier isPrefix => fewWithdrawals earlier ((List.mem_inits _ _).mpr isPrefix)

end SvpMcp
