import SvpMcp.Spec.TransferOut
import SvpMcp.Verif.Clearance

/-!
# What a refused broadcast leaves behind

A broadcast that fails before the node is called has at most rolled the daily stores over, and has
claimed its client id. It is without effect exactly when that claim does not last.
-/

namespace SvpMcp

open Calendar Handler Program

variable {r : BroadcastRequest}

/-- A stored date that is not of a later day than an instant. -/
def Past (day : String) (now : Time) : Prop :=
  ∀ later, now ≤ later → day = formatDay later → day = formatDay now

/-- A day has no gaps. -/
theorem formatDay_between {first middle last : Time} (lower : first ≤ middle)
    (upper : middle ≤ last) (same : formatDay first = formatDay last) :
    formatDay middle = formatDay last := by
  rw [formatDay_eq_iff] at same ⊢
  have below := utcDay_mono lower
  have above := utcDay_mono upper
  omega

/-- A new store's day is past. -/
theorem past_empty (now : Time) : Past "" now := by
  intro later _ same
  exact absurd same.symm (formatDay_ne_empty later)

variable {now : Time}

/-- So is an earlier day. -/
theorem past_formatDay {earlier : Time} (ordered : earlier ≤ now) :
    Past (formatDay earlier) now := by
  intro later after same
  exact same.trans (formatDay_between ordered after same).symm

/-- What is past stays past. -/
theorem Past.mono {day : String} {later : Time} (past : Past day now) (ordered : now ≤ later) :
    Past day later := by
  intro last after same
  have today := past last (Int.le_trans ordered after) same
  exact same.trans (formatDay_between ordered after (today.symm.trans same)).symm

/-- A date that has not come does not come between two instants of other days. -/
theorem Past.not_today {day : String} {start later : Time} (past : Past day start)
    (lower : start ≤ now) (upper : now ≤ later) (differs : formatDay now ≠ formatDay later) :
    day ≠ formatDay later := by
  intro today
  have started := past later (Int.le_trans lower upper) today
  exact differs (formatDay_between lower upper (started.symm.trans today))

namespace MemoryLedger

/-- A rollover in between is not seen by a later one. -/
theorem rollover_later {l base : MemoryLedger} {start now later : Time}
    (past : Past base.day start) (lower : start ≤ now) (upper : now ≤ later)
    (agree : l.rollover later = base.rollover later) :
    (l.rollover now).rollover later = base.rollover later := by
  by_cases same : formatDay now = formatDay later
  · rw [l.rollover_rollover same]
    exact agree
  · have notToday := past.not_today lower upper same
    have rolledDay : (l.rollover now).day = formatDay now := l.rollover_day now
    have caps : l.capQuantums = base.capQuantums := by
      have both := congrArg capQuantums agree
      rw [rollover_capQuantums, rollover_capQuantums] at both
      exact both
    rw [rollover, if_neg (by rw [rolledDay]; exact same), rollover.eq_def base later,
      if_neg notToday, l.rollover_capQuantums now, caps]

end MemoryLedger

namespace MemoryTransferOutStore

variable (s : MemoryTransferOutStore)

/-- The store after a rollover. -/
def rolled (now : Time) : MemoryTransferOutStore :=
  if s.day = formatDay now then s else { s with day := formatDay now, used := ∅ }

variable (disk : Disk)

/-- The store after a rollover. -/
theorem rollover_fst (now : Time) : (s.rollover disk now).1 = s.rolled now := by
  unfold rollover rolled
  split <;> rfl

/-- It is of today. -/
theorem rolled_day (now : Time) : (s.rolled now).day = formatDay now := by
  unfold rolled
  split
  · assumption
  · rfl

/-- It keeps the caps. -/
theorem rolled_caps (now : Time) : (s.rolled now).caps = s.caps := by
  unfold rolled
  split <;> rfl

/-- And any caps it is given. -/
theorem rolled_withCaps (caps : Table String (Table String SymbolCap)) (now : Time) :
    { s with caps }.rolled now = { s.rolled now with caps } := by
  unfold rolled
  split <;> rfl

/-- Usage is read from the store after the rollover. -/
theorem usedToday_rolled (now : Time) (owner symbol : String) :
    (s.usedToday disk now owner symbol).1 = (s.rolled now).usedOf owner symbol ∧
      (s.usedToday disk now owner symbol).2.1 = s.rolled now := by
  simp only [usedToday, ← rollover_fst s disk now, and_self]

/-- A positive amount is checked against the store after the rollover. -/
theorem check_rolled (now : Time) (owner symbol : String) {a : Int} (positive : ¬ a ≤ 0) :
    (s.check disk now owner symbol (some a)).1 =
        checkAgainst ((s.rolled now).cap owner symbol) ((s.rolled now).usedOf owner symbol) a ∧
      (s.check disk now owner symbol (some a)).2.1 = s.rolled now := by
  simp only [check, if_neg positive, ← rollover_fst s disk now, and_self]

/-- A positive amount is recorded in the store after the rollover. -/
theorem record_rolled (now : Time) (owner symbol : String) {a : Int} (positive : ¬ a ≤ 0) :
    (s.record disk now owner symbol (some a)).1 = { s.rolled now with
      used := (s.rolled now).used.set2 owner symbol ((s.rolled now).usedOf owner symbol + a) } := by
  simp only [record, if_neg positive, ← rollover_fst s disk now]

/-- A rollover in between is not seen by a later one. -/
theorem rolled_later {s base : MemoryTransferOutStore} {start now later : Time}
    (past : Past base.day start) (lower : start ≤ now) (upper : now ≤ later)
    (agree : s.rolled later = base.rolled later) :
    (s.rolled now).rolled later = base.rolled later := by
  have rolledDay : (s.rolled now).day = formatDay now := s.rolled_day now
  by_cases same : formatDay now = formatDay later
  · have settled : (s.rolled now).rolled later = s.rolled now := by
      rw [rolled, if_pos (by rw [rolledDay]; exact same)]
    rw [settled, ← agree, rolled, rolled, same]
  · have notToday := past.not_today lower upper same
    have kept : ∀ t, (s.rolled t).path = s.path ∧ (s.rolled t).caps = s.caps := by
      intro t
      unfold rolled
      split <;> exact ⟨rfl, rfl⟩
    have cleared : base.rolled later = { base with day := formatDay later, used := ∅ } := by
      rw [rolled, if_neg notToday]
    have path : s.path = base.path := by
      rw [← (kept later).1, agree, cleared]
    have caps : s.caps = base.caps := by
      rw [← (kept later).2, agree, cleared]
    rw [cleared, rolled, if_neg (by rw [rolledDay]; exact same), (kept now).1, (kept now).2, path,
      caps]

end MemoryTransferOutStore

/-- The calls of the idempotency table, the withdraw ledger and the transfer-out store. -/
inductive StoreQuery where
  /-- `Idempotency.Claim` with an id. -/
  | claim (tenantID clientID : String)
  | enforce (tenantID : String) (tool : Tool) (quantums : UInt64)
  | remaining (tenantID : String)
  | recordWithdraw (tenantID : String) (quantums : UInt64)
  | transferOut (call : TransferOutCall)

/-- What the stores answer. -/
inductive StoreAnswer where
  | claimed (result : Except Err Unit)
  | enforced (result : Except ErrCapExceeded Unit)
  | headroom (quantums : Option UInt64)
  | transferOut (result : Except Errorf TransferOutReply)
  | done

/-- A call of a store at an instant. -/
def StoreQuery.ask (deps : Deps) (w : World) (now : Time) : StoreQuery → StoreAnswer × World
  | .claim tenantID clientID =>
    let (result, idempotency) := w.idempotency.claim tenantID clientID now
    (.claimed result, { w with idempotency })
  | .enforce tenantID tool quantums =>
    let (result, ledger) := SvpMcp.enforce deps.limits w.ledger now tenantID tool quantums
    (.enforced result, { w with ledger })
  | .remaining tenantID =>
    (.headroom (w.ledger.map fun l => (l.remaining now tenantID).1),
      { w with ledger := w.ledger.map fun l => (l.remaining now tenantID).2 })
  | .recordWithdraw tenantID quantums =>
    (.done, { w with ledger := w.ledger.map fun l => l.record now tenantID quantums })
  | .transferOut request =>
    match DurableStore.step ⟨w.transferOut, w.disk⟩ now request with
    | .error e => (.transferOut (.error e), w)
    | .ok (reply, d) =>
      (.transferOut (.ok reply), { w with transferOut := d.store, disk := d.disk })

/-- The answers to a sequence of calls. -/
def answers (deps : Deps) (w : World) : List (Time × StoreQuery) → List StoreAnswer
  | [] => []
  | (now, query) :: rest => (query.ask deps w now).1 :: answers deps (query.ask deps w now).2 rest

/-- The stores answer every later call of the running server alike. -/
def Unaffected (deps : Deps) (done : Time) (w w' : World) : Prop :=
  ∀ calls : List (Time × StoreQuery),
    (∀ later ∈ calls, done ≤ later.1 ∧ later.2 ≠ .transferOut .restart) →
    answers deps w calls = answers deps w' calls

/-- The stores are the same to whoever looks from an instant on. -/
structure SameFrom (done : Time) (w w' : World) : Prop where
  ttl_eq : w.idempotency.ttl = w'.idempotency.ttl
  held : ∀ key now, done ≤ now → w.idempotency.heldAt key now = w'.idempotency.heldAt key now
  ledger : ∀ now, done ≤ now → w.ledger.map (·.rollover now) = w'.ledger.map (·.rollover now)
  transferOut : ∀ now, done ≤ now → w.transferOut.rolled now = w'.transferOut.rolled now

namespace SameFrom

variable {deps : Deps} {done now : Time} {w w' : World}

/-- A world is the same as itself. -/
theorem refl (done : Time) (w : World) : SameFrom done w w :=
  ⟨rfl, fun _ _ _ => rfl, fun _ _ => rfl, fun _ _ => rfl⟩

/-- Both worlds answer a claim alike. -/
theorem claim (same : SameFrom done w w') (later : done ≤ now) (tenantID clientID : String) :
    (w.idempotency.claim tenantID clientID now).1 = (w'.idempotency.claim tenantID clientID now).1 ∧
      SameFrom done { w with idempotency := (w.idempotency.claim tenantID clientID now).2 }
        { w' with idempotency := (w'.idempotency.claim tenantID clientID now).2 } := by
  have agree := same.held (tenantID ++ "|" ++ clientID) now later
  cases held : w.idempotency.heldAt (tenantID ++ "|" ++ clientID) now with
  | true =>
    rw [Idempotency.claim_of_held held, Idempotency.claim_of_held (agree.symm.trans held)]
    exact ⟨rfl, same⟩
  | false =>
    rw [Idempotency.claim_of_free held, Idempotency.claim_of_free (agree.symm.trans held)]
    refine ⟨rfl, same.ttl_eq, ?_, same.ledger, same.transferOut⟩
    intro key instant after
    rw [Idempotency.heldAt_set, Idempotency.heldAt_set, same.held key instant after, same.ttl_eq]

/-- What two ledgers that roll over alike do with a call. -/
theorem ledger_cases (same : SameFrom done w w') (later : done ≤ now) :
    (w.ledger = none ∧ w'.ledger = none) ∨ ∃ l l', w.ledger = some l ∧ w'.ledger = some l' ∧
      l.rollover now = l'.rollover now := by
  have agree := same.ledger now later
  cases found : w.ledger with
  | none =>
    rw [found] at agree
    exact .inl ⟨rfl, Option.map_eq_none_iff.mp agree.symm⟩
  | some l =>
    rw [found, Option.map_some] at agree
    obtain ⟨l', found', rolled⟩ := Option.map_eq_some_iff.mp agree.symm
    exact .inr ⟨l, l', rfl, found', rolled.symm⟩

/-- Worlds with other ledgers that roll over alike. -/
theorem withLedgers (same : SameFrom done w w') {ledger ledger' : Option MemoryLedger}
    (agree : ∀ now, done ≤ now → ledger.map (·.rollover now) = ledger'.map (·.rollover now)) :
    SameFrom done { w with ledger } { w' with ledger := ledger' } :=
  ⟨same.ttl_eq, same.held, agree, same.transferOut⟩

/-- Both ledgers check alike. -/
theorem enforce (same : SameFrom done w w') (later : done ≤ now) (cfg : Config)
    (tenantID : String) (tool : Tool) (q : UInt64) :
    (SvpMcp.enforce cfg w.ledger now tenantID tool q).1 =
        (SvpMcp.enforce cfg w'.ledger now tenantID tool q).1 ∧
      SameFrom done { w with ledger := (SvpMcp.enforce cfg w.ledger now tenantID tool q).2 }
        { w' with ledger := (SvpMcp.enforce cfg w'.ledger now tenantID tool q).2 } := by
  rcases same.ledger_cases later with ⟨absent, absent'⟩ | ⟨l, l', found, found', rolled⟩
  · rw [absent, absent']
    exact ⟨rfl, same.withLedgers fun _ _ => rfl⟩
  · -- Unless the daily cap is looked at, the ledger is handed back.
    have kept : SameFrom done { w with ledger := some l } { w' with ledger := some l' } := by
      apply same.withLedgers
      rw [← found, ← found']
      exact same.ledger
    rw [found, found']
    unfold SvpMcp.enforce
    cases checkPerTx cfg tool q with
    | error e => exact ⟨rfl, kept⟩
    | ok _ =>
      simp only
      by_cases other : tool ≠ .withdraw
      · simp only [if_pos other]
        exact ⟨trivial, kept⟩
      · simp only [if_neg other]
        cases dailyCapQuantums cfg with
        | none => exact ⟨rfl, kept⟩
        | some capQ =>
          -- Both look at the same ledger, whatever it is.
          have looks : l.remaining now tenantID = l'.remaining now tenantID := by
            rw [MemoryLedger.remaining, rolled, ← MemoryLedger.remaining]
          rw [looks]
          exact ⟨rfl, same.withLedgers fun _ _ => rfl⟩

/-- Both ledgers report alike. -/
theorem remaining (same : SameFrom done w w') (later : done ≤ now) (tenantID : String) :
    w.ledger.map (·.remaining now tenantID) = w'.ledger.map (·.remaining now tenantID) := by
  rcases same.ledger_cases later with ⟨absent, absent'⟩ | ⟨l, l', found, found', rolled⟩
  · rw [absent, absent']
  · simp only [found, found', Option.map_some, MemoryLedger.remaining, rolled]

/-- Both ledgers record alike. -/
theorem record (same : SameFrom done w w') (later : done ≤ now) (tenantID : String) (q : UInt64) :
    w.ledger.map (·.record now tenantID q) = w'.ledger.map (·.record now tenantID q) := by
  rcases same.ledger_cases later with ⟨absent, absent'⟩ | ⟨l, l', found, found', rolled⟩
  · rw [absent, absent']
  · simp only [found, found', Option.map_some, MemoryLedger.record, rolled]

/-- Worlds with other transfer-out stores that roll over alike. -/
theorem withStores (same : SameFrom done w w') {s s' : MemoryTransferOutStore} {disk disk' : Disk}
    (agree : ∀ now, done ≤ now → s.rolled now = s'.rolled now) :
    SameFrom done { w with transferOut := s, disk }
      { w' with transferOut := s', disk := disk' } :=
  ⟨same.ttl_eq, same.held, same.ledger, agree⟩

/-- Both have the same caps. -/
theorem caps_eq (same : SameFrom done w w') : w.transferOut.caps = w'.transferOut.caps := by
  have agree := congrArg MemoryTransferOutStore.caps (same.transferOut done (Int.le_refl _))
  rw [MemoryTransferOutStore.rolled_caps, MemoryTransferOutStore.rolled_caps] at agree
  exact agree

/-- What two stores that roll over alike do with a call. -/
theorem step (same : SameFrom done w w') (later : done ≤ now) {request : TransferOutCall}
    (running : request ≠ .restart) : ∃ reply d d',
    DurableStore.step ⟨w.transferOut, w.disk⟩ now request = .ok (reply, d) ∧
      DurableStore.step ⟨w'.transferOut, w'.disk⟩ now request = .ok (reply, d') ∧
      ∀ now, done ≤ now → d.store.rolled now = d'.store.rolled now := by
  have caps := same.caps_eq
  have rolled := same.transferOut now later
  cases request with
  | restart => exact absurd rfl running
  | cap owner symbol =>
    refine ⟨_, _, ⟨w'.transferOut, w'.disk⟩, rfl, ?_, same.transferOut⟩
    simp only [DurableStore.step, MemoryTransferOutStore.cap, caps]
  | setCap owner c =>
    refine ⟨_, _, _, rfl, rfl, ?_⟩
    intro instant after
    simp only [MemoryTransferOutStore.rolled_withCaps, caps, same.transferOut instant after]
  | setUnlimited owner symbol =>
    refine ⟨_, _, _, rfl, rfl, ?_⟩
    intro instant after
    simp only [MemoryTransferOutStore.rolled_withCaps, caps, same.transferOut instant after]
  | used owner symbol =>
    have first := w.transferOut.usedToday_rolled w.disk now owner symbol
    have second := w'.transferOut.usedToday_rolled w'.disk now owner symbol
    have answered := DurableStore.step_used ⟨w'.transferOut, w'.disk⟩ now owner symbol
    rw [second.1, ← rolled, ← first.1] at answered
    refine ⟨_, _, _, DurableStore.step_used _ _ _ _, answered, ?_⟩
    intro instant _
    simp only [first.2, second.2, rolled]
  | record owner symbol amt =>
    refine ⟨_, _, _, DurableStore.step_record _ _ _ _ _, DurableStore.step_record _ _ _ _ _, ?_⟩
    intro instant after
    cases amt with
    | none => exact same.transferOut instant after
    | some a =>
      by_cases nothing : a ≤ 0
      · rw [MemoryTransferOutStore.record_nonpositive _ _ _ _ _ nothing,
          MemoryTransferOutStore.record_nonpositive _ _ _ _ _ nothing]
        exact same.transferOut instant after
      · simp only [MemoryTransferOutStore.record_rolled _ _ _ _ _ nothing, rolled]
  | check owner symbol amt =>
    have outcome : (w.transferOut.check w.disk now owner symbol amt).1 =
          (w'.transferOut.check w'.disk now owner symbol amt).1 ∧
        ∀ instant, done ≤ instant →
          (w.transferOut.check w.disk now owner symbol amt).2.1.rolled instant =
            (w'.transferOut.check w'.disk now owner symbol amt).2.1.rolled instant := by
      cases amt with
      | none => exact ⟨rfl, same.transferOut⟩
      | some a =>
        by_cases nothing : a ≤ 0
        · simp only [MemoryTransferOutStore.check, if_pos nothing]
          exact ⟨trivial, same.transferOut⟩
        · have first := w.transferOut.check_rolled w.disk now owner symbol nothing
          have second := w'.transferOut.check_rolled w'.disk now owner symbol nothing
          rw [first.1, first.2, second.1, second.2, rolled]
          exact ⟨rfl, fun _ _ => rfl⟩
    have answered := DurableStore.step_check ⟨w'.transferOut, w'.disk⟩ now owner symbol amt
    rw [← outcome.1] at answered
    exact ⟨_, _, _, DurableStore.step_check _ _ _ _ _, answered, outcome.2⟩

/-- Stores that are the same from an instant on answer every later call alike, and stay so. -/
theorem ask (same : SameFrom done w w') (later : done ≤ now) {query : StoreQuery}
    (running : query ≠ .transferOut .restart) :
    (query.ask deps w now).1 = (query.ask deps w' now).1 ∧
      SameFrom done (query.ask deps w now).2 (query.ask deps w' now).2 := by
  cases query with
  | claim tenantID clientID =>
    have claimed := same.claim later tenantID clientID
    exact ⟨congrArg StoreAnswer.claimed claimed.1, claimed.2⟩
  | enforce tenantID tool q =>
    have enforced := same.enforce later deps.limits tenantID tool q
    exact ⟨congrArg StoreAnswer.enforced enforced.1, enforced.2⟩
  | remaining tenantID =>
    have agree := same.remaining later tenantID
    have first := congrArg (Option.map Prod.fst) agree
    have second := congrArg (Option.map Prod.snd) agree
    simp only [Option.map_map] at first second
    refine ⟨congrArg StoreAnswer.headroom first, same.withLedgers ?_⟩
    intro instant _
    exact congrArg (Option.map (·.rollover instant)) second
  | recordWithdraw tenantID q =>
    refine ⟨rfl, same.withLedgers ?_⟩
    intro instant _
    exact congrArg (Option.map (·.rollover instant)) (same.record later tenantID q)
  | transferOut request =>
    have stays : request ≠ .restart := fun restarts => running (by rw [restarts])
    obtain ⟨reply, d, d', first, second, agree⟩ := same.step later stays
    simp only [StoreQuery.ask, first, second]
    exact ⟨trivial, same.withStores agree⟩

/-- The same worlds answer every later call alike. -/
theorem answers_eq (same : SameFrom done w w') : Unaffected deps done w w' := by
  intro calls allLater
  induction calls generalizing w w' with
  | nil => rfl
  | cons first rest ih =>
    have now := allLater first List.mem_cons_self
    have answered : (first.2.ask deps w first.1).1 = (first.2.ask deps w' first.1).1 ∧
        SameFrom done (first.2.ask deps w first.1).2 (first.2.ask deps w' first.1).2 :=
      same.ask now.1 now.2
    rw [answers, answers, answered.1,
      ih answered.2 fun later member => allLater later (List.mem_cons_of_mem _ member)]

end SameFrom

/-- The operations that record nothing. -/
def RecordsNothing : ServerOp → Prop
  | .recordWithdraw _ _ => False
  | .recordTransferOut _ _ _ => False
  | _ => True

/-- The stored dates are not of a later day than an instant. -/
structure Timely (now : Time) (w : World) : Prop where
  ledger : ∀ l, w.ledger = some l → Past l.day now
  transferOut : Past w.transferOut.day now

/-- The daily stores of two worlds roll over alike from an instant on. -/
structure RollsAlike (done : Time) (w base : World) : Prop where
  ledger : ∀ now, done ≤ now → w.ledger.map (·.rollover now) = base.ledger.map (·.rollover now)
  transferOut : ∀ now, done ≤ now → w.transferOut.rolled now = base.transferOut.rolled now

variable {α : Type} {deps : Deps} {w w' base : World} {start done : Time}
  {events : Events} {result : Except Fault α}

/-- An operation that records nothing rolls over at most. -/
theorem rollsAlike_perform (timely : Timely start base) (alike : RollsAlike done w base) {env : Env}
    (lower : start ≤ env.now) (upper : env.now ≤ done) {op : ServerOp} (quiet : RecordsNothing op) :
    RollsAlike done ((server deps).perform w env op).2 base := by
  constructor
  · intro later after
    have before := alike.ledger later after
    rw [perform_ledger]
    cases op with
    | recordWithdraw _ _ => exact quiet.elim
    | enforce tenantID tool q =>
      show (enforce deps.limits w.ledger env.now tenantID tool q).2.map (·.rollover later) = _
      rcases enforce_ledger deps.limits w.ledger env.now tenantID tool q with kept | rolled
      · rw [kept]
        exact before
      · rw [rolled]
        cases found : w.ledger with
        | none =>
          rw [found] at before
          exact before
        | some l =>
          rw [found, Option.map_some] at before
          obtain ⟨l', found', rolls⟩ := Option.map_eq_some_iff.mp before.symm
          rw [found', Option.map_some, Option.map_some, Option.map_some,
            MemoryLedger.rollover_later (timely.ledger l' found') lower
              (Int.le_trans upper after) rolls.symm]
    | _ => exact before
  · intro later after
    have before := alike.transferOut later after
    rw [perform_transferOut]
    cases op with
    | recordTransferOut _ _ _ => exact quiet.elim
    | checkTransferOut owner symbol a =>
      by_cases nothing : a ≤ 0
      · simp only [MemoryTransferOutStore.check, if_pos nothing]
        exact before
      · simp only [(w.transferOut.check_rolled w.disk env.now owner symbol nothing).2]
        exact MemoryTransferOutStore.rolled_later timely.transferOut lower
          (Int.le_trans upper after) before
    | _ => exact before

/-- So does a run of such. -/
theorem rollsAlike_run (timely : Timely start base) {h : Handler α} (only : Only RecordsNothing h)
    (run : Alone deps w h events w' result)
    (within : ∀ e ∈ events, start ≤ e.env.now ∧ e.env.now ≤ done) (alike : RollsAlike done w base) :
    RollsAlike done w' base := by
  induction run with
  | done => exact alike
  | call w env op next rest ih =>
    have here := within _ List.mem_cons_self
    exact ih (only.2 _) (fun e member => within e (List.mem_cons_of_mem _ member))
      (rollsAlike_perform timely alike here.1 here.2 only.1)

/-- A part that does not claim leaves the table of claims. -/
theorem alone_idempotency {h : Handler α} (only : Only CalledHolding h)
    (run : Alone deps w h events w' result) : w'.idempotency = w.idempotency := by
  induction run with
  | done => rfl
  | call w env op next rest ih =>
    rw [ih (only.2 _), perform_idempotency]
    have allowed := only.1
    cases op with
    | claim _ _ _ => exact allowed.elim
    | _ => rfl

/-- A claim and what follows it: the id was not to be had and the table is as before, or it is
claimed from the instant read. -/
theorem claimed_run {tenantID clientID : String} {next : Unit → Handler α}
    (quiet : ∀ value, Only CalledHolding (next value))
    (run : Alone deps w (claimClientID tenantID clientID >>= next) events w' result) :
    (¬ Unclaimed w tenantID clientID events ∧ w'.idempotency = w.idempotency) ∨
    (Unclaimed w tenantID clientID events ∧ ∃ e ∈ events, e.op = .now ∧
      (∀ e' ∈ events, e'.op = .now → e' = e) ∧ w'.idempotency = { w.idempotency with
        seen := w.idempotency.seen.set (tenantID ++ "|" ++ clientID)
          (e.env.now + w.idempotency.ttl) }) := by
  rcases exec_bindExcept run with ⟨fault, claiming, _⟩ |
    ⟨first, mid, _, rest, split, claiming, run⟩
  · refine .inl ⟨?_, ?_⟩
    · intro unclaimed
      cases (claimClientID_iff claiming).mpr unclaimed
    · rcases claimClientID_run claiming with ⟨_, _, same, _⟩ | ⟨_, env, _, _, after, outcome⟩
      · rw [same]
      · cases held : w.idempotency.heldAt (tenantID ++ "|" ++ clientID) env.now with
        | false => cases outcome.mpr held
        | true => rw [after, Idempotency.claim_of_held held]
  · have unclaimed := (claimClientID_iff claiming).mp rfl
    have later : ∀ e ∈ rest, CalledHolding e.op := exec_calls (quiet _) run
    have skips : Skips .claim rest := by
      intro e member isClaim
      have allowed := later e member
      cases op : e.op with
      | now =>
        rw [op] at allowed
        exact allowed
      | _ =>
        rw [op] at isClaim
        cases isClaim
    have kept := alone_idempotency (quiet _) run
    rcases claimClientID_run claiming with ⟨_, _, _, _, impossible⟩ |
      ⟨_, env, env', made, after, outcome⟩
    · cases impossible
    · have free := outcome.mp rfl
      refine .inr ⟨?_, ⟨w, env, .now, env.now⟩, ?_, rfl, ?_, ?_⟩
      · rw [split]
        exact (unclaimed_append skips).mpr unclaimed
      · rw [split, made]
        exact List.mem_append_left _ List.mem_cons_self
      · intro e member isNow
        rw [split] at member
        rcases List.mem_append.mp member with early | late
        · rw [made] at early
          rcases List.mem_cons.mp early with here | claim
          · exact here
          · rw [List.mem_singleton.mp claim] at isNow
            cases isNow
        · exact absurd (congrArg ServerOp.stage isNow) (skips e late)
      · rw [kept, after, Idempotency.claim_of_free free]

/-- A request is on a rail the server has. -/
def BroadcastRequest.enabled (deps : Deps) : BroadcastRequest → Bool
  | .signedTx _ _ => true
  | .evmTx _ _ => deps.evmEnabled

/-- The checks of a request claim its id, or leave the table. -/
theorem vet_idempotency {tp : TenantPolicy} {result : Except Fault r.Checked}
    (run : Alone deps w (r.vet deps tp) events w' result) :
    (¬ (r.enabled deps = true ∧ Unclaimed w tp.tenantID r.clientID events) ∧
      w'.idempotency = w.idempotency) ∨
    ((r.enabled deps = true ∧ Unclaimed w tp.tenantID r.clientID events) ∧
      ∃ e ∈ events, e.op = .now ∧ (∀ e' ∈ events, e'.op = .now → e' = e) ∧
        w'.idempotency = { w.idempotency with
          seen := w.idempotency.seen.set (tp.tenantID ++ "|" ++ r.clientID)
            (e.env.now + w.idempotency.ttl) }) := by
  cases r with
  | signedTx ctx input =>
    have outcome := claimed_run (fun _ => ?_) run
    · rcases outcome with ⟨refused, kept⟩ | ⟨unclaimed, claimed⟩
      · exact .inl ⟨fun both => refused both.2, kept⟩
      · exact .inr ⟨⟨rfl, unclaimed⟩, claimed⟩
    · apply only_bind (decodeSignedTx_only _ _ _)
      intro decoded
      apply only_bind (enforceWithdraw_only _ _ _ fun _ => trivial)
      intro withdrawQ
      apply only_bind (enforceBankSends_only _ _ _ _ (fun _ => trivial) fun _ _ => trivial)
      intro bankOut
      exact only_pure _
  | evmTx ctx input =>
    rcases alone_silent_bind (only_require _ _) run with ⟨disabled, _, _, same⟩ | ⟨_, enabled, run⟩
    · refine .inl ⟨?_, by rw [same]⟩
      intro both
      exact disabled () (gives_require.mpr ⟨rfl, both.1⟩)
    · have outcome := claimed_run (fun _ => ?_) run
      · rcases outcome with ⟨refused, kept⟩ | ⟨unclaimed, claimed⟩
        · exact .inl ⟨fun both => refused both.2, kept⟩
        · exact .inr ⟨⟨(gives_require.mp enabled).2, unclaimed⟩, claimed⟩
      · apply only_bind (decodeEVMTx_only _ _ _)
        intro decoded
        apply only_bind (checkTransferOut_only _ _ (fun _ => trivial) fun _ _ => trivial)
        intro _
        exact only_pure _

/-- The states of a running server, each with the latest instant its stores have seen. -/
inductive Reached (deps : Deps) : Time → World → Prop where
  /-- The server starts with a new ledger and a transfer-out store that is new or was written
  earlier. -/
  | start (now : Time) (w : World) (ledger : ∀ l, w.ledger = some l → l.day = "")
      (transferOut : w.transferOut.day = "" ∨
        ∃ earlier, earlier ≤ now ∧ w.transferOut.day = formatDay earlier) : Reached deps now w
  /-- A handler performs an operation. -/
  | perform {now : Time} {w : World} (reached : Reached deps now w) (env : Env) (op : ServerOp)
      (later : now ≤ env.now) : Reached deps env.now ((server deps).perform w env op).2
  /-- Any other caller calls one of the stores. -/
  | ask {now : Time} {w : World} (reached : Reached deps now w) (query : StoreQuery)
      (instant : Time) (later : now ≤ instant) (running : query ≠ .transferOut .restart) :
      Reached deps instant (query.ask deps w instant).2
  /-- The handshake or the market cache changes. -/
  | other {now : Time} {w w' : World} (reached : Reached deps now w)
      (ledger : w'.ledger = w.ledger) (transferOut : w'.transferOut = w.transferOut) :
      Reached deps now w'

/-- A ledger that a call leaves is of the day before or of the day of the call. -/
def LedgerMoves (now : Time) (before after : Option MemoryLedger) : Prop :=
  ∀ l', after = some l' → l'.day = formatDay now ∨ ∃ l, before = some l ∧ l.day = l'.day

/-- A ledger that is touched is of today. -/
theorem ledgerMoves_map {before : Option MemoryLedger} {f : MemoryLedger → MemoryLedger}
    (moves : ∀ l, (f l).day = formatDay now) : LedgerMoves now before (before.map f) := by
  intro l' found
  obtain ⟨l, _, rfl⟩ := Option.map_eq_some_iff.mp found
  exact .inl (moves l)

/-- So is one that is checked. -/
theorem ledgerMoves_enforce (cfg : Config) (ledger : Option MemoryLedger) (now : Time)
    (tenantID : String) (tool : Tool) (q : UInt64) :
    LedgerMoves now ledger (enforce cfg ledger now tenantID tool q).2 := by
  rcases enforce_ledger cfg ledger now tenantID tool q with kept | rolled
  · rw [kept]
    exact fun l' found => .inr ⟨l', found, rfl⟩
  · rw [rolled]
    exact ledgerMoves_map fun l => l.rollover_day now

/-- A store that a call leaves is of the day before or of the day of the call. -/
theorem check_day (s : MemoryTransferOutStore) (disk : Disk) (now : Time) (owner symbol : String)
    (amt : Option Int) : (s.check disk now owner symbol amt).2.1.day = formatDay now ∨
      (s.check disk now owner symbol amt).2.1.day = s.day := by
  cases amt with
  | none => exact .inr rfl
  | some a =>
    by_cases nothing : a ≤ 0
    · simp only [MemoryTransferOutStore.check, if_pos nothing, or_true]
    · rw [(s.check_rolled disk now owner symbol nothing).2]
      exact .inl (s.rolled_day now)

/-- A record is of today or changes nothing. -/
theorem record_day (s : MemoryTransferOutStore) (disk : Disk) (now : Time) (owner symbol : String)
    (amt : Option Int) : (s.record disk now owner symbol amt).1.day = formatDay now ∨
      (s.record disk now owner symbol amt).1.day = s.day := by
  cases amt with
  | none => exact .inr rfl
  | some a =>
    by_cases nothing : a ≤ 0
    · rw [s.record_nonpositive _ _ _ _ nothing]
      exact .inr rfl
    · rw [s.record_rolled disk now owner symbol nothing]
      exact .inl (s.rolled_day now)

/-- Days move forward with the clock. -/
theorem Timely.moves {later : Time} {w w' : World} (timely : Timely now w) (ordered : now ≤ later)
    (ledger : LedgerMoves later w.ledger w'.ledger)
    (transferOut : w'.transferOut.day = formatDay later ∨ w'.transferOut.day = w.transferOut.day) :
    Timely later w' := by
  constructor
  · intro l' found
    rcases ledger l' found with moved | ⟨l, before, same⟩
    · rw [moved]
      exact past_formatDay (Int.le_refl _)
    · rw [← same]
      exact (timely.ledger l before).mono ordered
  · rcases transferOut with moved | same
    · rw [moved]
      exact past_formatDay (Int.le_refl _)
    · rw [same]
      exact timely.transferOut.mono ordered

/-- An operation keeps the days in the past. -/
theorem timely_perform (timely : Timely now w) (env : Env) (op : ServerOp) (later : now ≤ env.now) :
    Timely env.now ((server deps).perform w env op).2 := by
  refine timely.moves later ?_ ?_
  · rw [perform_ledger]
    cases op with
    | enforce tenantID tool q => exact ledgerMoves_enforce _ _ _ _ _ _
    | recordWithdraw tenantID q => exact ledgerMoves_map fun l => l.record_day env.now tenantID q
    | _ => exact fun l' found => .inr ⟨l', found, rfl⟩
  · rw [perform_transferOut]
    cases op with
    | checkTransferOut owner symbol a => exact check_day _ _ _ _ _ _
    | recordTransferOut owner symbol a => exact record_day _ _ _ _ _ _
    | _ => exact .inr rfl

/-- So does a call of another. -/
theorem timely_ask {instant : Time} (timely : Timely now w) (query : StoreQuery)
    (later : now ≤ instant) (running : query ≠ .transferOut .restart) :
    Timely instant (query.ask deps w instant).2 := by
  have keeps : LedgerMoves instant w.ledger w.ledger := fun l' found => .inr ⟨l', found, rfl⟩
  cases query with
  | claim tenantID clientID => exact timely.moves later keeps (.inr rfl)
  | enforce tenantID tool q =>
    exact timely.moves later (ledgerMoves_enforce _ _ _ _ _ _) (.inr rfl)
  | remaining tenantID =>
    exact timely.moves later (ledgerMoves_map fun l => l.rollover_day instant) (.inr rfl)
  | recordWithdraw tenantID q =>
    exact timely.moves later (ledgerMoves_map fun l => l.record_day instant tenantID q) (.inr rfl)
  | transferOut request =>
    refine timely.moves later ?_ ?_
    · cases request with
      | restart => exact absurd rfl running
      | _ => exact keeps
    · cases request with
      | restart => exact absurd rfl running
      | record owner symbol amt => exact record_day _ _ _ _ _ _
      | check owner symbol amt => exact check_day _ _ _ _ _ _
      | used owner symbol =>
        have rolled := (w.transferOut.usedToday_rolled w.disk instant owner symbol).2
        exact .inl ((congrArg MemoryTransferOutStore.day rolled).trans
          (w.transferOut.rolled_day instant))
      | _ => exact .inr rfl

/-- In a reachable state no store is of a day that has not come. -/
theorem reached_timely (reached : Reached deps now w) : Timely now w := by
  induction reached with
  | start now w ledger transferOut =>
    constructor
    · intro l found
      rw [ledger l found]
      exact past_empty now
    · rcases transferOut with fresh | ⟨earlier, ordered, written⟩
      · rw [fresh]
        exact past_empty now
      · rw [written]
        exact past_formatDay ordered
  | perform _ env op later ih => exact timely_perform ih env op later
  | ask _ query instant later running ih => exact timely_ask ih query later running
  | other _ ledger transferOut ih =>
    constructor
    · rw [ledger]
      exact ih.ledger
    · rw [transferOut]
      exact ih.transferOut

/-- The checks record nothing. -/
theorem vet_recordsNothing (deps : Deps) (tp : TenantPolicy) (r : BroadcastRequest) :
    Only RecordsNothing (r.vet deps tp) :=
  vet_only trivial (fun _ _ _ => trivial) (fun _ _ => trivial) (fun _ => trivial)
    (fun _ _ _ => trivial) deps tp r

/-- The call has claimed its client id, and the claim outlasts the call: the tenant is authorized
on a rail the server has, the id is given and free when the clock is read. -/
def Reserves (deps : Deps) (w : World) (r : BroadcastRequest)
    (events : Events) (done : Time) : Prop :=
  ∃ tp, Authorized deps w r events tp ∧ r.enabled deps = true ∧
    Unclaimed w tp.tenantID r.clientID events ∧
    ∀ e ∈ events, e.op = .now → done < e.env.now + w.idempotency.ttl

/-- A claim that has run out by an instant is not seen from then on. -/
theorem expired_claim {i : Idempotency} {key : String} (free : i.heldAt key now = false)
    (ended : now + i.ttl ≤ done) (before : now ≤ done) (other : String) {later : Time}
    (after : done ≤ later) :
    i.heldAt other later =
      { i with seen := i.seen.set key (now + i.ttl) }.heldAt other later := by
  rw [Idempotency.heldAt_set]
  by_cases same : other = key
  · rw [if_pos same, same, Idempotency.heldAt_mono free (Int.le_trans before after)]
    exact (decide_eq_false (Int.not_lt.mpr (Int.le_trans ended after))).symm
  · rw [if_neg same]

/-- A claim that outlasts the call refuses the same id at its end. -/
theorem lasting_claim {tenantID clientID : String}
    (free : w.idempotency.heldAt (tenantID ++ "|" ++ clientID) now = false) (before : now ≤ done)
    (lasts : done < now + w.idempotency.ttl) (claimed : w'.idempotency = { w.idempotency with
      seen := w.idempotency.seen.set (tenantID ++ "|" ++ clientID) (now + w.idempotency.ttl) }) :
    ¬ Unaffected deps done w w' := by
  intro unaffected
  have same := unaffected [(done, .claim tenantID clientID)] (by
    intro later member
    cases List.mem_singleton.mp member
    exact ⟨Int.le_refl _, by simp⟩)
  have taken : w'.idempotency.heldAt (tenantID ++ "|" ++ clientID) done = true := by
    rw [claimed, Idempotency.heldAt_set, if_pos rfl]
    exact decide_eq_true lasts
  simp only [answers, StoreQuery.ask, Idempotency.claim_of_held taken,
    Idempotency.claim_of_free (Idempotency.heldAt_mono free before)] at same
  cases same

/-- The stores after a refusal of the checks of an authorized request. -/
theorem refused_stores {tp : TenantPolicy} {fault : Fault} (timely : Timely start w)
    (run : Alone deps w (r.vet deps tp) events w' (.error fault))
    (within : ∀ e ∈ events, start ≤ e.env.now ∧ e.env.now ≤ done) :
    Unaffected deps done w w' ↔
      ¬ (r.enabled deps = true ∧ Unclaimed w tp.tenantID r.clientID events ∧
        ∀ e ∈ events, e.op = .now → done < e.env.now + w.idempotency.ttl) := by
  have alike := rollsAlike_run timely (vet_recordsNothing deps tp r) run within
    ⟨fun _ _ => rfl, fun _ _ => rfl⟩
  have ledger := fun now after => (alike.ledger now after).symm
  have transferOut := fun now after => (alike.transferOut now after).symm
  rcases vet_idempotency run with ⟨refused, kept⟩ |
    ⟨⟨enabled, unclaimed⟩, e, member, isNow, only, claimed⟩
  · have same : SameFrom done w w' :=
      ⟨by rw [kept], fun _ _ _ => by rw [kept], ledger, transferOut⟩
    exact iff_of_true same.answers_eq fun reserves => refused ⟨reserves.1, reserves.2.1⟩
  · have free : w.idempotency.heldAt (tp.tenantID ++ "|" ++ r.clientID) e.env.now = false := by
      obtain ⟨e', member', isNow', free⟩ := unclaimed.2
      rw [only e' member' isNow'] at free
      exact free
    have before := (within e member).2
    by_cases lasts : done < e.env.now + w.idempotency.ttl
    · refine iff_of_false (lasting_claim free before lasts claimed) ?_
      intro unreserved
      refine unreserved ⟨enabled, unclaimed, ?_⟩
      intro e' member' isNow'
      rw [only e' member' isNow']
      exact lasts
    · have same : SameFrom done w w' := by
        refine ⟨by rw [claimed], ?_, ledger, transferOut⟩
        intro key now after
        rw [claimed]
        exact expired_claim free (Int.not_lt.mp lasts) before key after
      exact iff_of_true same.answers_eq fun reserves => lasts (reserves.2.2 e member isNow)

/-- A broadcast that is refused before a node is called has no effect on what the stores answer
once it has returned, exactly when it does not leave its client id reserved. -/
theorem refusal_unaffected_iff (deps : Deps) (w w' : World) (r : BroadcastRequest) (fault : Fault)
    (events : Events) (start done : Time)
    (reached : Reached deps start w)
    (run : Alone deps w (r.handler deps) events w' (.error fault))
    (unsent : ∀ e ∈ events, e.op.callsChain = false)
    (within : ∀ e ∈ events, start ≤ e.env.now ∧ e.env.now ≤ done) :
    Unaffected deps done w w' ↔ ¬ Reserves deps w r events done := by
  have timely := reached_timely reached
  rcases handler_run run with ⟨_, authorizing, same, _⟩ |
    ⟨tp, first, rest, split, authorizing, outcome⟩
  · rw [same]
    refine iff_of_true (SameFrom.refl done w).answers_eq ?_
    rintro ⟨tp, ⟨first, rest, split, authorized⟩, _⟩
    have together : events ++ [] = first ++ rest := by
      rw [List.append_nil]
      exact split
    cases (exec_unique authorizing authorized together).2.1
  · rcases outcome with ⟨_, vetting, _⟩ | ⟨checks, mid, checked, submission, split2, _, submitting⟩
    · have skips := authorize_skips authorizing .claim
      have later : ∀ e ∈ rest, e ∈ events := fun e member =>
        split ▸ List.mem_append_right first member
      rw [refused_stores timely vetting fun e member => within e (later e member)]
      refine not_congr ⟨?_, ?_⟩
      · rintro ⟨enabled, unclaimed, lasts⟩
        refine ⟨tp, ⟨first, rest, split, authorizing⟩, enabled, ?_, ?_⟩
        · rw [split]
          exact (unclaimed_of_skips skips).mpr unclaimed
        · intro e member isNow
          rw [split] at member
          rcases List.mem_append.mp member with early | late
          · exact absurd (congrArg ServerOp.stage isNow) (skips e early)
          · exact lasts e late isNow
      · rintro ⟨tp', ⟨first', rest', split', authorized⟩, enabled, unclaimed, lasts⟩
        cases (exec_unique authorizing authorized (split.symm.trans split')).2.1
        refine ⟨enabled, ?_, fun e member => lasts e (later e member)⟩
        rw [split] at unclaimed
        exact (unclaimed_of_skips skips).mp unclaimed
    · obtain ⟨e, member, calls⟩ := submit_callsChain submitting
      have inRun : e ∈ events := by
        rw [split, split2]
        exact List.mem_append_right _ (List.mem_append_right _ member)
      rw [unsent e inRun] at calls
      cases calls

/-- What a server with one tenant does with a request, alone and with an accepting node. -/
def soloRun (w : World) (r : BroadcastRequest) :
    Events × World × Except Fault Unit :=
  runAlone (server idleDeps) (fun _ => acceptingEnv 0) 0 w (r.handler idleDeps)

/-- The run has no other request in between. -/
theorem soloRun_alone {w : World} {result : Except Fault Unit}
    (returns : (soloRun w r).2.2 = result) :
    Alone idleDeps w (r.handler idleDeps) (soloRun w r).1 (soloRun w r).2.1 result :=
  returns ▸ exec_runAlone _ 0 w _

/-- A new server at the start of the epoch. -/
theorem reached_tenInstantWorld : Reached idleDeps 0 tenInstantWorld := by
  refine .start 0 _ ?_ (.inl rfl)
  intro l found
  cases found
  rfl

/-- A request of the tenant. -/
def ownRequest (clientID txRawBytesB64 : String) : BroadcastRequest :=
  .signedTx ownerContext ⟨clientID, txRawBytesB64⟩

/-- The refusal of an id that is in use. -/
def duplicateID : Fault :=
  .error (.errorf
    ⟨"duplicate broadcast: client_id %s already used for tenant %s", ["id", "tenant"]⟩)

/-- Bytes that do not decode are refused before the node is called, and the corrected retry with
the same client id is a duplicate; without the first call it is broadcast. -/
theorem undecodable_reserves : ∃ fault,
    Reached idleDeps 0 tenInstantWorld ∧
    Alone idleDeps tenInstantWorld ((ownRequest "id" "!").handler idleDeps)
      (soloRun tenInstantWorld (ownRequest "id" "!")).1
      (soloRun tenInstantWorld (ownRequest "id" "!")).2.1 (.error fault) ∧
    (∀ e ∈ (soloRun tenInstantWorld (ownRequest "id" "!")).1, e.op.callsChain = false) ∧
    (soloRun (soloRun tenInstantWorld (ownRequest "id" "!")).2.1 (ownRequest "id" "")).2.2 =
      .error duplicateID ∧
    (soloRun tenInstantWorld (ownRequest "id" "")).2.2 = .ok () ∧
    ¬ Unaffected idleDeps 0 tenInstantWorld
      (soloRun tenInstantWorld (ownRequest "id" "!")).2.1 := by
  have refused : (soloRun tenInstantWorld (ownRequest "id" "!")).2.2 =
      .error (.error (.wrap "decode tx_raw_bytes_b64: %w" []
        (.external "illegal base64 data"))) := by decide +kernel
  have free : (tenInstantWorld.idempotency.claim "tenant" "id" 0).1 = .ok () := by decide +kernel
  have taken : ((soloRun tenInstantWorld (ownRequest "id" "!")).2.1.idempotency.claim
      "tenant" "id" 0).1 ≠ .ok () := by decide +kernel
  refine ⟨_, reached_tenInstantWorld, soloRun_alone refused, by decide +kernel, by decide +kernel,
    by decide +kernel, ?_⟩
  intro unaffected
  have same := unaffected [(0, .claim "tenant" "id")] (by
    intro later member
    cases List.mem_singleton.mp member
    exact ⟨Int.le_refl _, by simp⟩)
  have results := StoreAnswer.claimed.inj (List.cons.inj same).1
  exact taken (results.symm.trans free)

/-- A server on which the client id is still reserved. -/
def reservedWorld : World :=
  ((server idleDeps).perform tenInstantWorld (acceptingEnv 0) (.claim "tenant" "id" 0)).2

/-- A duplicate is refused by the table of claims, and no store answers differently afterwards. -/
theorem refusal_unaffected_iff_duplicate :
    (soloRun reservedWorld (ownRequest "id" "")).2.2 = .error duplicateID ∧
      Unaffected idleDeps 0 reservedWorld (soloRun reservedWorld (ownRequest "id" "")).2.1 := by
  have refused : (soloRun reservedWorld (ownRequest "id" "")).2.2 = .error duplicateID := by
    decide +kernel
  have unsent : ∀ e ∈ (soloRun reservedWorld (ownRequest "id" "")).1,
      e.op.callsChain = false := by decide +kernel
  have within : ∀ e ∈ (soloRun reservedWorld (ownRequest "id" "")).1,
      (0 : Int) ≤ e.env.now ∧ e.env.now ≤ (0 : Int) := by decide +kernel
  have reached : Reached idleDeps 0 reservedWorld :=
    .perform reached_tenInstantWorld (acceptingEnv 0) _ (Int.le_refl 0)
  refine ⟨refused, (refusal_unaffected_iff idleDeps reservedWorld _ (ownRequest "id" "") _ _ 0 0
    reached (soloRun_alone refused) unsent within).mpr ?_⟩
  rintro ⟨tp, ⟨_, _, _, authorizing⟩, _, ⟨_, e, member, _, free⟩, _⟩
  have acts : ActsFor idleDeps reservedWorld ownerContext
      ⟨"tenant", "svp1owner", [], false⟩ := ⟨_, 0, rfl, by decide +kernel⟩
  rw [actsFor_unique (authorize_ok (alone_gives authorizing)) acts,
    Int.le_antisymm (within e member).2 (within e member).1] at free
  revert free
  decide +kernel

end SvpMcp
