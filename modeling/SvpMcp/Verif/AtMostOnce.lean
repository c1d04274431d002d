import SvpMcp.Lib.Lease
import SvpMcp.Verif.Handlers

/-!
# At most one broadcast per client id

A broadcast claims its client id and calls the node only once it holds the id. Whatever runs in
between, the table keeps two holders of one id a full TTL apart.
-/

namespace SvpMcp

open Calendar Handler Monitor

namespace BroadcastRequest

/-- The tenant of a request. -/
def ctx : BroadcastRequest → Context
  | .signedTx ctx _ => ctx
  | .evmTx ctx _ => ctx

/-- The tool a request calls. -/
def tool : BroadcastRequest → String
  | .signedTx _ _ => "broadcast_signed_tx"
  | .evmTx _ _ => "broadcast_evm_tx"

/-- The client id of a request. -/
def clientID : BroadcastRequest → String
  | .signedTx _ input => input.clientID
  | .evmTx _ input => input.clientID

end BroadcastRequest

variable {pool : Pool World Env ServerOp Reply (Except Fault Unit)} {tenantID clientID : String}
  {now : Time}

/-- Where a request stands with its client id. -/
inductive ClaimState where
  /-- No tenant has been found for it. -/
  | unknown
  | found (tp : TenantPolicy)
  /-- The clock is read on behalf of the tenant. -/
  | read (tp : TenantPolicy) (now : Time)
  /-- The id is claimed from an instant on. -/
  | holds (tenantID clientID : String) (now : Time)
  /-- The id was in use. -/
  | refused

namespace ClaimState

/-- The request has not read the clock yet. -/
def Early (s : ClaimState) : Prop :=
  s = .unknown ∨ ∃ tp, s = .found tp

/-- The request holds an id. -/
def Holding (s : ClaimState) : Prop :=
  ∃ tenantID clientID now, s = .holds tenantID clientID now

/-- A reading of the clock counts once the tenant is found. -/
def readAt (now : Time) : ClaimState → ClaimState
  | .found tp => .read tp now
  | s => s

end ClaimState

/-- The operations that hand a transaction to a node. -/
def ServerOp.callsChain : ServerOp → Bool
  | .broadcastSync _ => true
  | .sendTransaction _ _ => true
  | _ => false

/-- The operations that claim a client id. -/
def ServerOp.claims : ServerOp → Bool
  | .claim _ _ _ => true
  | _ => false

/-- Where a request stands after a call. -/
def claimStep (s : ClaimState) (op : ServerOp) (reply : Reply op) : ClaimState :=
  match op, reply with
  | .tenant _, .ok tp => .found tp
  | .now, now => s.readAt now
  | .claim tenantID clientID now, .ok _ => .holds tenantID clientID now
  | .claim _ _ _, .error _ => .refused
  | _, _ => s

variable (deps : Deps) (ctx : Context)

/-- Find the tenant of the context, read the clock once, claim the client id once for that tenant
with that instant, and call the node with the id held. -/
def claimMonitor (clientID : String) : Monitor ServerOp Reply ClaimState where
  step := claimStep
  allows s op :=
    match op with
    | .tenant id => s.Early ∧ ∃ tc, ctx = some tc ∧ id = tc.tenantID
    | .now => ∃ tp, s = .found tp
    | .claim tenantID id now => ∃ tp, s = .read tp now ∧ tenantID = tp.tenantID ∧ id = clientID
    | .broadcastSync _ => s.Holding
    | .sendTransaction _ _ => s.Holding
    | _ => True

/-- What a request calls once it holds its id. -/
def CalledHolding : ServerOp → Prop
  | .tenant _ => False
  | .now => False
  | .claim _ _ _ => False
  | _ => True

/-- A result is returned with an id held. -/
def ReturnsHolding {α : Type} (s : ClaimState) : Except Fault α → Prop
  | .ok _ => s.Holding
  | .error _ => True

section Monitor

variable {α β : Type} {ctx : Context} {id : String} {s : ClaimState} {h : Handler α}

/-- A part that neither reads the clock nor claims keeps the id. -/
theorem obeys_holding (holding : s.Holding) (quiet : Only CalledHolding h) :
    (claimMonitor ctx id).Obeys ReturnsHolding s h := by
  refine obeys_of_quiet (Program.calls_mono ?_ quiet) ?_
  · intro op calm
    cases op with
    | tenant _ => exact absurd calm not_false
    | now => exact absurd calm not_false
    | claim _ _ _ => exact absurd calm not_false
    | broadcastSync _ => exact ⟨holding, fun _ => rfl⟩
    | sendTransaction _ _ => exact ⟨holding, fun _ => rfl⟩
    | _ => exact ⟨trivial, fun _ => rfl⟩
  · intro result
    cases result with
    | error e => exact trivial
    | ok value => exact holding

/-- What follows a part that returns with the id held. -/
theorem obeys_thenHolding {next : α → Handler β}
    (first : (claimMonitor ctx id).Obeys ReturnsHolding s h)
    (quiet : ∀ value, Only CalledHolding (next value)) :
    (claimMonitor ctx id).Obeys ReturnsHolding s (h >>= next : Handler β) := by
  apply obeys_bindExcept
  refine obeys_mono ?_ first
  intro s result held
  cases result with
  | error e => exact trivial
  | ok value => exact obeys_holding held (quiet value)

/-- A result is the policy found last. -/
def ReturnsFound (s : ClaimState) : Except Fault TenantPolicy → Prop
  | .ok tp => s = .found tp
  | .error _ => True

/-- A lookup of the context's tenant, and what follows with the policy found. -/
theorem lookup_finds {tc : TenantContext} {post : ClaimState → Except Fault β → Prop}
    {next : TenantPolicy → Handler β} (early : s.Early) (fails : ∀ s e, post s (.error e))
    (rest : ∀ tp, (claimMonitor (some tc) id).Obeys post (.found tp) (next tp)) :
    (claimMonitor (some tc) id).Obeys post s
      (call (.tenant tc.tenantID) >>= fun found => ofResult found >>= next : Handler β) := by
  refine ⟨⟨early, tc, rfl, rfl⟩, ?_⟩
  intro found
  cases found with
  | error e => exact fails _ _
  | ok tp => exact rest tp

/-- The authorization looks up the tenant of the context and returns the policy found last. -/
theorem authorize_finds (ctx : Context) (tool : String) :
    (claimMonitor ctx id).Obeys ReturnsFound .unknown (authorize ctx tool) := by
  cases ctx with
  | none => exact trivial
  | some tc =>
    apply obeys_bindExcept
    apply lookup_finds (.inl rfl) (fun _ _ => trivial)
    intro known
    apply obeys_of_quiet (only_require _ _)
    intro passed
    cases passed with
    | error e => exact trivial
    | ok _ =>
      apply lookup_finds (.inr ⟨known, rfl⟩) (fun _ _ => trivial)
      intro tp
      refine ⟨trivial, ?_⟩
      intro allowed
      cases allowed with
      | false => exact trivial
      | true => exact rfl

/-- What follows the authorization starts with the tenant found. -/
theorem obeys_thenFound {tool : String} {next : TenantPolicy → Handler β}
    (rest : ∀ tp, (claimMonitor ctx id).Obeys ReturnsHolding (.found tp) (next tp)) :
    (claimMonitor ctx id).Obeys ReturnsHolding .unknown
      (authorize ctx tool >>= next : Handler β) := by
  apply obeys_bindExcept
  refine obeys_mono ?_ (authorize_finds ctx tool)
  intro s result found
  cases result with
  | error e => exact trivial
  | ok tp =>
    cases found
    exact rest tp

/-- A claim is made for the tenant found with the instant read, and returns with the id held. -/
theorem claimClientID_claims (ctx : Context) (tp : TenantPolicy) :
    (claimMonitor ctx id).Obeys ReturnsHolding (.found tp) (claimClientID tp.tenantID id) := by
  unfold claimClientID
  split
  · exact trivial
  · refine ⟨⟨tp, rfl⟩, ?_⟩
    intro now
    refine ⟨⟨tp, rfl, rfl, rfl⟩, ?_⟩
    intro claimed
    cases claimed with
    | error e => exact trivial
    | ok _ => exact ⟨_, _, _, rfl⟩

end Monitor

/-- The checks of `BroadcastSignedTx` return with the id of their input held. -/
theorem checkSignedTx_claims (input : BroadcastSignedTxInput) :
    (claimMonitor ctx input.clientID).Obeys ReturnsHolding .unknown
      (checkSignedTx deps ctx input) := by
  apply obeys_thenFound
  intro tp
  apply obeys_thenHolding (claimClientID_claims _ _)
  intro _
  apply only_bind (decodeSignedTx_only _ _ _)
  intro decoded
  apply only_bind (enforceWithdraw_only _ _ _ fun _ => trivial)
  intro withdrawQ
  apply only_bind (enforceBankSends_only _ _ _ _ (fun _ => trivial) fun _ _ => trivial)
  intro bankOut
  exact only_pure _

/-- The checks of `BroadcastEVMTx` return with the id of their input held. -/
theorem checkEVMTx_claims (input : BroadcastEVMTxInput) :
    (claimMonitor ctx input.clientID).Obeys ReturnsHolding .unknown
      (checkEVMTx deps ctx input) := by
  apply obeys_thenFound
  intro tp
  apply obeys_quietBind (only_require _ _) (fun _ => trivial)
  intro _
  apply obeys_thenHolding (claimClientID_claims _ _)
  intro _
  apply only_bind (decodeEVMTx_only _ _ _)
  intro decoded
  apply only_bind (checkTransferOut_only _ _ (fun _ => trivial) fun _ _ => trivial)
  intro _
  exact only_pure _

/-- Every request finds its tenant, reads, claims its own id and calls the node in that order. -/
theorem request_claims (request : BroadcastRequest) :
    (claimMonitor request.ctx request.clientID).Obeys ReturnsHolding .unknown
      (request.handler deps) := by
  cases request with
  | signedTx ctx input =>
    refine obeys_thenHolding (obeys_thenHolding (checkSignedTx_claims deps ctx input) ?_) fun _ =>
      only_pure _
    intro tx
    apply only_bind (only_call trivial)
    intro res
    exact concludeSignedTx_only _ _ _ (fun _ => trivial) trivial (fun _ => trivial)
      fun _ _ _ => trivial
  | evmTx ctx input =>
    refine obeys_thenHolding (obeys_thenHolding (checkEVMTx_claims deps ctx input) ?_) fun _ =>
      only_pure _
    intro checked
    exact submitEVMTx_only (fun _ _ => trivial) (fun _ => trivial) (fun _ => trivial)
      (fun _ _ _ => trivial) _ _

/-- A broadcast request under way. -/
abbrev RequestThread := Thread World Env ServerOp Reply (Except Fault Unit)

/-- The request has called a node. -/
def ReachesChain (th : RequestThread) : Prop :=
  ∃ e ∈ th.history, e.op.callsChain = true

/-- Where a request under way stands with its id. -/
def claimState (th : RequestThread) : ClaimState :=
  th.history.foldl (fun s e => claimStep s e.op e.reply) .unknown

/-- One more call moves a request by one step. -/
theorem claimState_step (sys : System World Env ServerOp Reply) (world : World) (env : Env)
    (history : Events) (op : ServerOp)
    (next : Reply op → Program ServerOp Reply (Except Fault Unit)) :
    claimState (Thread.step sys world env ⟨history, .call op next⟩).1 =
      claimStep (claimState ⟨history, .call op next⟩) op (sys.perform world env op).1 := by
  simp [claimState, Thread.step]

/-- The key of a held id, and since when it is held. -/
def ClaimState.grant : ClaimState → Option (String × Time)
  | .holds tenantID clientID now => some (tenantID ++ "|" ++ clientID, now)
  | _ => none

/-- The calls claim one id of one tenant with an instant read from the clock, and nothing else. -/
structure Claims (history : Events) (tenantID clientID : String)
    (now : Time) : Prop where
  made : ∃ e ∈ history, e.op = .claim tenantID clientID now
  only : ∀ e ∈ history, e.op.claims = true → e.op = .claim tenantID clientID now
  read : ∃ e ∈ history, e.op = .now ∧ e.env.now = now

variable (w : World) (requests : List BroadcastRequest) (history : Events)

/-- The calls neither claim an id nor reach a node. -/
def BeforeClaim : Prop :=
  ∀ e ∈ history, e.op.claims = false ∧ e.op.callsChain = false

/-- What the calls of a request have been, by where it stands. -/
def Accounted (request : BroadcastRequest) (history : Events) : ClaimState → Prop
  | .unknown => BeforeClaim history
  | .found tp => ActsFor deps w request.ctx tp ∧ BeforeClaim history
  | .read tp now => ActsFor deps w request.ctx tp ∧
      (∃ e ∈ history, e.op = .now ∧ e.env.now = now) ∧ BeforeClaim history
  | .holds tenantID clientID now => ∃ tp, ActsFor deps w request.ctx tp ∧
      tenantID = tp.tenantID ∧ clientID = request.clientID ∧ Claims history tenantID clientID now
  | .refused => ∀ e ∈ history, e.op.callsChain = false

section Accounted

variable {deps : Deps} {w world : World} {env : Env} {request : BroadcastRequest} {s : ClaimState}
  {history : Events} {e : Event World Env ServerOp Reply}

/-- What some call satisfies, some call still satisfies after one more. -/
theorem exists_append {holds : Event World Env ServerOp Reply → Prop}
    (before : ∃ d ∈ history, holds d) : ∃ d ∈ history ++ [e], holds d := by
  obtain ⟨d, member, held⟩ := before
  exact ⟨d, List.mem_append_left _ member, held⟩

/-- What every call satisfies, with one more that satisfies it. -/
theorem forall_append {holds : Event World Env ServerOp Reply → Prop}
    (before : ∀ d ∈ history, holds d) (here : holds e) : ∀ d ∈ history ++ [e], holds d := by
  intro d member
  rcases List.mem_append.mp member with old | new
  · exact before d old
  · rw [List.mem_singleton.mp new]
    exact here

/-- A call that claims nothing, and reaches a node only with an id held, changes nothing. -/
theorem accounted_append (accounted : Accounted deps w request history s)
    (claimless : e.op.claims = false) (calm : e.op.callsChain = false ∨ s.Holding) :
    Accounted deps w request (history ++ [e]) s := by
  by_cases holding : s.Holding
  · obtain ⟨tenantID, clientID, now, rfl⟩ := holding
    obtain ⟨tp, acts, sameTenant, sameID, made, only, read⟩ := accounted
    refine ⟨tp, acts, sameTenant, sameID, exists_append made, forall_append only ?_,
      exists_append read⟩
    intro isClaim
    cases claimless.symm.trans isClaim
  · have quiet : e.op.callsChain = false := calm.resolve_right holding
    cases s with
    | unknown => exact forall_append accounted ⟨claimless, quiet⟩
    | found tp => exact ⟨accounted.1, forall_append accounted.2 ⟨claimless, quiet⟩⟩
    | read tp now =>
      exact ⟨accounted.1, exists_append accounted.2.1,
        forall_append accounted.2.2 ⟨claimless, quiet⟩⟩
    | holds tenantID clientID now => exact absurd ⟨tenantID, clientID, now, rfl⟩ holding
    | refused => exact forall_append accounted quiet

/-- Nothing is claimed before the clock is read. -/
theorem beforeClaim_of_early (accounted : Accounted deps w request history s) (early : s.Early) :
    BeforeClaim history := by
  rcases early with rfl | ⟨tp, rfl⟩
  · exact accounted
  · exact accounted.2

/-- A call that the monitor allows leaves the calls accounted for. -/
theorem accounted_step (op : ServerOp) (accounted : Accounted deps w request history s)
    (allowed : (claimMonitor request.ctx request.clientID).allows s op)
    (sameAuth : world.auth = w.auth) :
    Accounted deps w request
      (history ++ [⟨world, env, op, ((server deps).perform world env op).1⟩])
      (claimStep s op ((server deps).perform world env op).1) := by
  cases op with
  | tenant id =>
    obtain ⟨early, tc, isContext, rfl⟩ := allowed
    change Accounted deps w request _ (claimStep s (.tenant tc.tenantID)
      (engineTenant deps.perTenant world.auth.tenants env.now tc.tenantID))
    cases found : engineTenant deps.perTenant world.auth.tenants env.now tc.tenantID with
    | error e => exact accounted_append accounted rfl (.inl rfl)
    | ok tp =>
      rw [sameAuth] at found
      exact ⟨⟨tc, env.now, isContext, found⟩,
        forall_append (beforeClaim_of_early accounted early) ⟨rfl, rfl⟩⟩
  | now =>
    obtain ⟨tp, rfl⟩ := allowed
    exact ⟨accounted.1, ⟨_, List.mem_append_right _ List.mem_cons_self, rfl, rfl⟩,
      forall_append accounted.2 ⟨rfl, rfl⟩⟩
  | claim tenantID clientID now =>
    obtain ⟨tp, rfl, rfl, rfl⟩ := allowed
    obtain ⟨acts, read, before⟩ := accounted
    cases ((server deps).perform world env (.claim tp.tenantID request.clientID now)).1 with
    | error e => exact forall_append (fun d member => (before d member).2) rfl
    | ok _ =>
      refine ⟨tp, acts, rfl, rfl, ⟨_, List.mem_append_right _ List.mem_cons_self, rfl⟩,
        forall_append ?_ (fun _ => rfl), exists_append read⟩
      intro d member isClaim
      cases (before d member).1.symm.trans isClaim
  | broadcastSync _ => exact accounted_append accounted rfl (.inr allowed)
  | sendTransaction _ _ => exact accounted_append accounted rfl (.inr allowed)
  | _ => exact accounted_append accounted rfl (.inl rfl)

end Accounted

/-- A request under way keeps to its monitor, and its calls are accounted for. -/
structure Faithful (deps : Deps) (w : World) (request : BroadcastRequest) (th : RequestThread) :
    Prop where
  obedient : th.Obedient (claimMonitor request.ctx request.clientID) .unknown ReturnsHolding
  accounted : Accounted deps w request th.history (claimState th)

/-- A call in a world with the same tenants keeps a request faithful. -/
theorem faithful_step {deps : Deps} {w : World} {request : BroadcastRequest} {th : RequestThread}
    (faithful : Faithful deps w request th) {world : World} (sameAuth : world.auth = w.auth)
    (env : Env) : Faithful deps w request (Thread.step (server deps) world env th).1 := by
  obtain ⟨history, rest⟩ := th
  cases rest with
  | done result => exact faithful
  | call op next =>
    refine ⟨Thread.obedient_step faithful.obedient _ _ _, ?_⟩
    rw [claimState_step]
    exact accounted_step op faithful.accounted faithful.obedient.1 sameAuth

/-- Every request of a run is faithful to its place among the requests. -/
theorem serve_faithful (schedule : List (Nat × Env)) {i : Nat} {request : BroadcastRequest}
    {th : RequestThread} (isRequest : requests[i]? = some request)
    (found : (serve deps w requests schedule).threads[i]? = some th) :
    Faithful deps w request th := by
  have everywhere := Pool.run_invariant_at (server deps) (fun world => world.auth = w.auth)
    (fun i th => ∀ request, requests[i]? = some request → Faithful deps w request th)
    (fun world env op same => (perform_auth deps world env op).trans same)
    (fun i th world env same faithful request isRequest =>
      faithful_step (faithful request isRequest) same env)
    (.start w (requests.map fun r => (r.handler deps).run)) rfl ?_ schedule
  · exact everywhere.2 i th found request isRequest
  · intro i th started request isRequest
    rw [Pool.start, List.map_map, List.getElem?_map, isRequest] at started
    cases started
    exact ⟨request_claims deps request, fun e member => absurd member List.not_mem_nil⟩

variable (env : Env)

/-- The operations that change the table of claims. -/
theorem perform_idempotency (op : ServerOp) :
    ((server deps).perform w env op).2.idempotency = match op with
      | .claim tenantID clientID now => (w.idempotency.claim tenantID clientID now).2
      | _ => w.idempotency := by
  cases op <;> rfl

/-- A claim succeeds on a key that is free, and holds it for the TTL; or it changes nothing. -/
theorem Idempotency.claim_cases (i : Idempotency) (tenantID clientID : String) (now : Time) :
    ((∀ deadline, i.seen.get (tenantID ++ "|" ++ clientID) = some deadline → deadline ≤ now) ∧
      i.claim tenantID clientID now = (.ok (),
        { i with seen := i.seen.set (tenantID ++ "|" ++ clientID) (now + i.ttl) })) ∨
    ((∃ deadline, i.seen.get (tenantID ++ "|" ++ clientID) = some deadline ∧ now < deadline) ∧
      i.claim tenantID clientID now = (.error (.errorf
        ⟨"duplicate broadcast: client_id %s already used for tenant %s", [clientID, tenantID]⟩),
        i)) := by
  cases found : i.seen.get (tenantID ++ "|" ++ clientID) with
  | none =>
    refine .inl ⟨?_, ?_⟩
    · intro deadline impossible
      cases impossible
    · simp only [claim, found]
  | some deadline =>
    by_cases inUse : deadline > now
    · refine .inr ⟨⟨deadline, rfl, inUse⟩, ?_⟩
      simp only [claim, found, if_pos inUse]
    · refine .inl ⟨?_, ?_⟩
      · intro other same
        cases same
        exact Int.not_lt.mp inUse
      · simp only [claim, found, if_neg inUse]

/-- A call leaves the table and grants nothing new, or it is a claim of a free key. -/
theorem claimStep_cases (s : ClaimState) (op : ServerOp) :
    (((server deps).perform w env op).2.idempotency = w.idempotency ∧
      ∀ grant, (claimStep s op ((server deps).perform w env op).1).grant = some grant →
        s.grant = some grant) ∨
    ∃ key now, (∀ deadline, w.idempotency.seen.get key = some deadline → deadline ≤ now) ∧
      ((server deps).perform w env op).2.idempotency =
        { w.idempotency with seen := w.idempotency.seen.set key (now + w.idempotency.ttl) } ∧
      (claimStep s op ((server deps).perform w env op).1).grant = some (key, now) := by
  cases op with
  | claim tenantID clientID now =>
    change (_ ∧ ∀ grant, (claimStep s (.claim tenantID clientID now)
      (w.idempotency.claim tenantID clientID now).1).grant = some grant → _) ∨ ∃ key now', _ ∧ _ ∧
        (claimStep s (.claim tenantID clientID now)
          (w.idempotency.claim tenantID clientID now).1).grant = some (key, now')
    simp only [perform_idempotency]
    rcases w.idempotency.claim_cases tenantID clientID now with ⟨free, claimed⟩ | ⟨_, refused⟩
    · rw [claimed]
      exact .inr ⟨_, now, free, rfl, rfl⟩
    · rw [refused]
      refine .inl ⟨rfl, ?_⟩
      intro grant impossible
      cases impossible
  | tenant id =>
    refine .inl ⟨rfl, ?_⟩
    intro grant granted
    cases found : ((server deps).perform w env (.tenant id)).1 with
    | ok tp =>
      rw [found] at granted
      cases granted
    | error e =>
      rw [found] at granted
      exact granted
  | now =>
    refine .inl ⟨rfl, ?_⟩
    intro grant granted
    cases s with
    | found tp => cases granted
    | _ => exact granted
  | _ => exact .inl ⟨rfl, fun _ same => same⟩

/-- What each request of a pool holds. -/
def grants (pool : Pool World Env ServerOp Reply (Except Fault Unit)) (i : Nat) :
    Option (String × Time) :=
  pool.threads[i]?.bind fun th => (claimState th).grant

/-- The table of claims covers what the requests hold, and its TTL stays. -/
structure Covers (ttl : Int) (pool : Pool World Env ServerOp Reply (Except Fault Unit)) : Prop where
  ttl_eq : pool.world.idempotency.ttl = ttl
  leases : Leases ttl pool.world.idempotency.seen (grants pool)

/-- A turn keeps the claims covered. -/
theorem covers_step {ttl : Int} (positive : 0 ≤ ttl) (deps : Deps) (covers : Covers ttl pool)
    (turn : Nat × Env) : Covers ttl (pool.step (server deps) turn) := by
  rcases Pool.step_cases (server deps) pool turn with same | ⟨history, op, next, found, moved⟩
  · rw [same]
    exact covers
  · have before : grants pool turn.1 = (claimState ⟨history, .call op next⟩).grant := by
      rw [grants, found]
      rfl
    have others : ∀ j, j ≠ turn.1 → grants (pool.step (server deps) turn) j = grants pool j := by
      intro j other
      rw [moved, grants, grants, List.getElem?_set_ne other.symm]
    have here : grants (pool.step (server deps) turn) turn.1 =
        (claimStep (claimState ⟨history, .call op next⟩) op
          ((server deps).perform pool.world turn.2 op).1).grant := by
      have inside : turn.1 < pool.threads.length := (List.getElem?_eq_some_iff.mp found).1
      rw [moved, grants, List.getElem?_set_self inside, Option.bind_some, claimState_step]
    have world : (pool.step (server deps) turn).world =
        ((server deps).perform pool.world turn.2 op).2 := by rw [moved]
    rcases claimStep_cases deps pool.world turn.2 (claimState ⟨history, .call op next⟩) op with
      ⟨kept, fewer⟩ | ⟨key, now, free, stored, new⟩
    · rw [← world] at kept
      refine ⟨by rw [kept]; exact covers.ttl_eq, ?_⟩
      rw [kept]
      apply covers.leases.mono
      intro j grant isGranted
      by_cases mine : j = turn.1
      · rw [mine, here] at isGranted
        rw [mine, before]
        exact fewer grant isGranted
      · rw [others j mine] at isGranted
        exact isGranted
    · rw [← world, covers.ttl_eq] at stored
      refine ⟨by rw [stored]; exact covers.ttl_eq, ?_⟩
      rw [stored]
      exact covers.leases.grant positive free (here.trans new) others

/-- A schedule keeps the claims covered. -/
theorem covers_run {ttl : Int} (positive : 0 ≤ ttl) (deps : Deps) (covers : Covers ttl pool)
    (schedule : List (Nat × Env)) : Covers ttl (pool.run (server deps) schedule) := by
  induction schedule generalizing pool with
  | nil => exact covers
  | cons turn rest ih => exact ih (covers_step positive deps covers turn)

/-- The requests start without a claim. -/
theorem covers_start :
    Covers w.idempotency.ttl (.start w (requests.map fun r => (r.handler deps).run)) := by
  refine ⟨rfl, ?_⟩
  have nothing : grants (.start w (requests.map fun r => (r.handler deps).run)) =
      fun _ => none := by
    funext i
    simp only [grants, Pool.start, List.getElem?_map]
    cases requests[i]? with
    | none => rfl
    | some request => rfl
  rw [nothing]
  exact .start _ _

/-- A request that has called a node acts for a tenant, and has claimed its own client id for that
tenant and nothing else. -/
theorem claims_of_reached {deps : Deps} {w : World} {request : BroadcastRequest}
    {th : RequestThread} (faithful : Faithful deps w request th) (reaches : ReachesChain th) :
    ∃ tp now, ActsFor deps w request.ctx tp ∧
      Claims th.history tp.tenantID request.clientID now ∧
      claimState th = .holds tp.tenantID request.clientID now := by
  obtain ⟨e, member, calls⟩ := reaches
  have accounted := faithful.accounted
  have early : ¬ BeforeClaim th.history := fun before => by
    cases calls.symm.trans (before e member).2
  cases state : claimState th with
  | unknown =>
    rw [state] at accounted
    exact absurd accounted early
  | found tp =>
    rw [state] at accounted
    exact absurd accounted.2 early
  | read tp now =>
    rw [state] at accounted
    exact absurd accounted.2.2 early
  | refused =>
    rw [state] at accounted
    cases calls.symm.trans (accounted e member)
  | holds tenantID clientID now =>
    rw [state] at accounted
    obtain ⟨tp, acts, rfl, rfl, claims⟩ := accounted
    exact ⟨tp, now, acts, claims, rfl⟩

/-- What a request holds, at its position of the pool. -/
theorem grants_of_holds {th : RequestThread} {i : Nat} (found : pool.threads[i]? = some th)
    (holds : claimState th = .holds tenantID clientID now) :
    grants pool i = some (tenantID ++ "|" ++ clientID, now) := by
  rw [grants, found, Option.bind_some, holds]
  rfl

/-- Two requests of one tenant with one client id that both call a node have claimed that id with
readings a TTL apart. -/
theorem readings_apart (schedule : List (Nat × Env)) {i j : Nat}
    {request request' : BroadcastRequest} {first second : RequestThread} {tp tp' : TenantPolicy}
    (distinct : i ≠ j) (isRequest : requests[i]? = some request)
    (isRequest' : requests[j]? = some request')
    (isFirst : (serve deps w requests schedule).threads[i]? = some first)
    (isSecond : (serve deps w requests schedule).threads[j]? = some second)
    (acts : ActsFor deps w request.ctx tp) (acts' : ActsFor deps w request'.ctx tp')
    (sameTenant : tp.tenantID = tp'.tenantID) (sameID : request.clientID = request'.clientID)
    (reaches : ReachesChain first) (reaches' : ReachesChain second) :
    ∃ now now', Claims first.history tp.tenantID request.clientID now ∧
      Claims second.history tp.tenantID request.clientID now' ∧
      (now + w.idempotency.ttl ≤ now' ∨ now' + w.idempotency.ttl ≤ now) := by
  obtain ⟨found, now, foundActs, claims, holds⟩ :=
    claims_of_reached (serve_faithful deps w requests schedule isRequest isFirst) reaches
  obtain ⟨found', now', foundActs', claims', holds'⟩ :=
    claims_of_reached (serve_faithful deps w requests schedule isRequest' isSecond) reaches'
  rw [actsFor_unique foundActs acts] at claims holds
  rw [actsFor_unique foundActs' acts', ← sameTenant, ← sameID] at claims' holds'
  refine ⟨now, now', claims, claims', ?_⟩
  by_cases positive : 0 ≤ w.idempotency.ttl
  · have covers : Covers w.idempotency.ttl (serve deps w requests schedule) :=
      covers_run positive deps (covers_start deps w requests) schedule
    exact covers.leases.apart i j _ now now' distinct (grants_of_holds isFirst holds)
      (grants_of_holds isSecond holds')
  · exact Leases.apart_of_negative (Int.not_le.mp positive) now now'

/-- A call of `Claim` with the instant it reads. -/
structure ClaimCall where
  tenantID : String
  clientID : String
  now : Time
deriving DecidableEq, Repr

namespace Idempotency

/-- `Claim`. -/
def claimCall (i : Idempotency) (call : ClaimCall) : Except Err Unit × Idempotency :=
  if call.clientID = "" then (.error (.errorf ⟨"missing client_id", []⟩), i)
  else i.claim call.tenantID call.clientID call.now

/-- The outcomes of calls, in the order in which they take the lock. -/
def outcomes (i : Idempotency) : List ClaimCall → List (ClaimCall × Except Err Unit)
  | [] => []
  | call :: rest => (call, (i.claimCall call).1) :: outcomes (i.claimCall call).2 rest

/-- Two trackers give a tenant the same answers. -/
structure AgreesFor (tenantID : String) (i i' : Idempotency) : Prop where
  ttl_eq : i.ttl = i'.ttl
  same : ∀ clientID, i.seen.get (tenantID ++ "|" ++ clientID) =
    i'.seen.get (tenantID ++ "|" ++ clientID)

end Idempotency

/-- A tenant id without the separator tells the keys apart. -/
theorem key_inj {tenantID tenantID' clientID clientID' : String} (plain : '|' ∉ tenantID.toList)
    (plain' : '|' ∉ tenantID'.toList)
    (same : tenantID ++ "|" ++ clientID = tenantID' ++ "|" ++ clientID') :
    tenantID = tenantID' ∧ clientID = clientID' := by
  have lists := congrArg String.toList same
  simp only [String.toList_append] at lists
  have apart : tenantID.toList ++ '|' :: clientID.toList =
      tenantID'.toList ++ '|' :: clientID'.toList := by simpa using lists
  have parts := append_separator_inj plain plain' apart
  exact ⟨String.toList_injective parts.1, String.toList_injective parts.2⟩

namespace Idempotency

/-- A tenant's claim answers the same in both trackers, which go on answering the same. -/
theorem claim_agrees {tenantID : String} {i i' : Idempotency} (agrees : AgreesFor tenantID i i')
    (clientID : String) (now : Time) :
    (i.claim tenantID clientID now).1 = (i'.claim tenantID clientID now).1 ∧
      AgreesFor tenantID (i.claim tenantID clientID now).2 (i'.claim tenantID clientID now).2 := by
  have lookup := agrees.same clientID
  rcases i.claim_cases tenantID clientID now with ⟨free, claimed⟩ | ⟨held, refused⟩
  · rcases i'.claim_cases tenantID clientID now with ⟨_, claimed'⟩ | ⟨⟨deadline, found, later⟩, _⟩
    · rw [claimed, claimed']
      refine ⟨rfl, agrees.ttl_eq, ?_⟩
      intro other
      rw [Table.get_set, Table.get_set, agrees.ttl_eq, agrees.same other]
    · exact absurd (free deadline (lookup.trans found)) (Int.not_le.mpr later)
  · rcases i'.claim_cases tenantID clientID now with ⟨free', _⟩ | ⟨_, refused'⟩
    · obtain ⟨deadline, found, later⟩ := held
      exact absurd (free' deadline (lookup.symm.trans found)) (Int.not_le.mpr later)
    · rw [refused, refused']
      exact ⟨rfl, agrees⟩

/-- Another tenant's claim changes no answer. -/
theorem claim_foreign {tenantID other : String} {i i' : Idempotency}
    (agrees : AgreesFor tenantID i i') (plain : '|' ∉ tenantID.toList)
    (plainOther : '|' ∉ other.toList) (differs : other ≠ tenantID) (clientID : String)
    (now : Time) : AgreesFor tenantID (i.claim other clientID now).2 i' := by
  rcases i.claim_cases other clientID now with ⟨_, claimed⟩ | ⟨_, refused⟩
  · rw [claimed]
    refine ⟨agrees.ttl_eq, ?_⟩
    intro mine
    have distinct : tenantID ++ "|" ++ mine ≠ other ++ "|" ++ clientID := fun same =>
      differs (key_inj plain plainOther same).1.symm
    rw [Table.get_set, if_neg distinct]
    exact agrees.same mine
  · rw [refused]
    exact agrees

/-- The answers of a tenant among the calls of all tenants are those of its calls alone. -/
theorem outcomes_filter {tenantID : String} (plain : '|' ∉ tenantID.toList) :
    ∀ (calls : List ClaimCall) (i i' : Idempotency), AgreesFor tenantID i i' →
      (∀ call ∈ calls, '|' ∉ call.tenantID.toList) →
      (i.outcomes calls).filter (fun outcome => outcome.1.tenantID = tenantID) =
        i'.outcomes (calls.filter fun call => call.tenantID = tenantID) := by
  intro calls
  induction calls with
  | nil => intro i i' _ _; rfl
  | cons call rest ih =>
    intro i i' agrees plainCalls
    have plainRest : ∀ call ∈ rest, '|' ∉ call.tenantID.toList := fun later member =>
      plainCalls later (List.mem_cons_of_mem _ member)
    by_cases mine : call.tenantID = tenantID
    · have answers : (i.claimCall call).1 = (i'.claimCall call).1 ∧
          AgreesFor tenantID (i.claimCall call).2 (i'.claimCall call).2 := by
        unfold claimCall
        split
        · exact ⟨rfl, agrees⟩
        · rw [mine]
          exact claim_agrees agrees call.clientID call.now
      simp only [outcomes, List.filter_cons, mine, decide_true, if_true]
      rw [answers.1, ih _ _ answers.2 plainRest]
    · have still : AgreesFor tenantID (i.claimCall call).2 i' := by
        unfold claimCall
        split
        · exact agrees
        · exact claim_foreign agrees plain (plainCalls call List.mem_cons_self) mine _ _
      simp only [outcomes, List.filter_cons, mine, decide_false, Bool.false_eq_true, if_false]
      exact ih _ _ still plainRest

end Idempotency

/-- A minted tenant id does not contain the separator. -/
theorem mint_plain {store store' : DynamicTenantStore} {owner bearer : String} {random : Bytes}
    {record : TenantRecord}
    (minted : store.mint now owner bearer (String.ofList (Hex.encode random)) =
      .ok (record, store')) :
    '|' ∉ record.tenantID.toList := by
  unfold DynamicTenantStore.mint at minted
  split at minted
  · cases minted
  · cases minted
    intro member
    simp only [String.toList_append, String.toList_ofList, List.mem_append] at member
    rcases member with inPart | inHex
    · revert inPart
      decide
    · obtain ⟨n, digit, isBar⟩ := List.mem_map.mp inHex
      have small := Hex.nibbles_lt random n digit
      have known := (Hex.value_symbol n small).1
      rw [isBar] at known
      cases known

/-- Under every interleaving, a request that calls a node has claimed its own client id for the
tenant it acts for, and two such requests of one tenant with one client id read instants that are
the TTL apart. The outcomes of a tenant's claims are those of a tracker that sees no other
tenant's, for tenant ids without the separator, and minted ids are such. -/
theorem broadcast_at_most_once (deps : Deps) (w : World) (requests : List BroadcastRequest)
    (schedule : List (Nat × Env)) :
    (∀ (i : Nat) request th, requests[i]? = some request →
      (serve deps w requests schedule).threads[i]? = some th → ReachesChain th →
      ∃ tp now, ActsFor deps w request.ctx tp ∧
        Claims th.history tp.tenantID request.clientID now) ∧
    (∀ (i j : Nat) request request' first second tp tp', i ≠ j →
      requests[i]? = some request → requests[j]? = some request' →
      (serve deps w requests schedule).threads[i]? = some first →
      (serve deps w requests schedule).threads[j]? = some second →
      ActsFor deps w request.ctx tp → ActsFor deps w request'.ctx tp' →
      tp.tenantID = tp'.tenantID → request.clientID = request'.clientID →
      ReachesChain first → ReachesChain second →
      ∃ now now', Claims first.history tp.tenantID request.clientID now ∧
        Claims second.history tp.tenantID request.clientID now' ∧
        (now + w.idempotency.ttl ≤ now' ∨ now' + w.idempotency.ttl ≤ now)) ∧
    (∀ ttl calls tenantID, '|' ∉ tenantID.toList →
      (∀ call ∈ calls, '|' ∉ call.tenantID.toList) →
      ((Idempotency.new ttl).outcomes calls).filter
          (fun outcome => outcome.1.tenantID = tenantID) =
        (Idempotency.new ttl).outcomes (calls.filter fun call => call.tenantID = tenantID)) ∧
    ∀ (store : DynamicTenantStore) now owner bearer (random : Bytes) record store',
      store.mint now owner bearer (String.ofList (Hex.encode random)) = .ok (record, store') →
        '|' ∉ record.tenantID.toList := by
  refine ⟨?_, ?_, ?_, ?_⟩
  · intro i request th isRequest found reaches
    obtain ⟨tp, now, acts, claims, _⟩ :=
      claims_of_reached (serve_faithful deps w requests schedule isRequest found) reaches
    exact ⟨tp, now, acts, claims⟩
  · intro i j request request' first second tp tp' distinct isRequest isRequest' isFirst isSecond
      acts acts' sameTenant sameID reaches reaches'
    exact readings_apart deps w requests schedule distinct isRequest isRequest' isFirst isSecond
      acts acts' sameTenant sameID reaches reaches'
  · intro ttl calls tenantID plain plainCalls
    exact Idempotency.outcomes_filter plain calls _ _ ⟨rfl, fun _ => rfl⟩ plainCalls
  · intro store now owner bearer random record store' minted
    exact mint_plain minted

/-- A server whose transactions move nothing. -/
def idleDeps : Deps :=
  fixedDeps ⟨0, 0, 0, 0⟩ ⟨"tenant", "svp1owner", [], false⟩ []

/-- A new server that keeps a client id for ten instants. -/
def tenInstantWorld : World :=
  { startWorld ⟨"", "", ∅, ∅⟩ (.new 0) with idempotency := .new 10 }

/-- Two requests of one tenant with one client id. -/
def sameIdTwice : List BroadcastRequest :=
  [.signedTx ownerContext ⟨"id", ""⟩,
   .signedTx ownerContext ⟨"id", ""⟩]

/-- The second request reads the clock when the claim of the first one has just ended. -/
def tenInstantsLater : List (Nat × Env) :=
  List.replicate 10 (0, acceptingEnv 3) ++ List.replicate 10 (1, acceptingEnv 13)

/-- A request has claimed the id with an instant and called the node. -/
def claimedAndReached (now : Time) (th : RequestThread) : Bool :=
  th.history.any (fun e => e.op = .claim "tenant" "id" now) &&
    th.history.any fun e => e.op.callsChain

/-- Such a request, and the only instant it can have claimed with. -/
theorem exists_claimedAndReached (threads : List RequestThread) (i : Nat) (now : Time)
    (found : threads[i]?.any (claimedAndReached now) = true) :
    ∃ th, threads[i]? = some th ∧ ReachesChain th ∧
      ∀ {reading : Time}, Claims th.history "tenant" "id" reading → reading = now := by
  cases present : threads[i]? with
  | none =>
    rw [present] at found
    cases found
  | some th =>
    rw [present] at found
    have both : claimedAndReached now th = true := found
    simp only [claimedAndReached, Bool.and_eq_true, List.any_eq_true, decide_eq_true_eq] at both
    refine ⟨th, rfl, both.2, ?_⟩
    intro reading claims
    obtain ⟨e, member, isClaim⟩ := both.1
    have same := claims.only e member (by rw [isClaim]; rfl)
    rw [isClaim] at same
    cases same
    rfl

/-- Both requests reach the chain, and the second has read an instant ten after the first. -/
theorem broadcast_at_most_once_reuse : ∃ first second : RequestThread,
    (serve idleDeps tenInstantWorld sameIdTwice tenInstantsLater).threads[0]? = some first ∧
      (serve idleDeps tenInstantWorld sameIdTwice tenInstantsLater).threads[1]? = some second ∧
      ReachesChain first ∧ ReachesChain second ∧ Claims first.history "tenant" "id" 3 ∧
      Claims second.history "tenant" "id" 13 ∧ (3 : Time) + 10 ≤ 13 := by
  obtain ⟨first, isFirst, reaches, reading⟩ :=
    exists_claimedAndReached (serve idleDeps tenInstantWorld sameIdTwice tenInstantsLater).threads
      0 3 (by decide +kernel)
  obtain ⟨second, isSecond, reaches', reading'⟩ :=
    exists_claimedAndReached (serve idleDeps tenInstantWorld sameIdTwice tenInstantsLater).threads
      1 13 (by decide +kernel)
  have acts : ActsFor idleDeps tenInstantWorld ownerContext
      ⟨"tenant", "svp1owner", [], false⟩ := ⟨_, 0, rfl, by decide +kernel⟩
  obtain ⟨now, now', claims, claims', apart⟩ :=
    (broadcast_at_most_once idleDeps tenInstantWorld sameIdTwice tenInstantsLater).2.1 0 1 _ _
      first second _ _ (by decide) rfl rfl isFirst isSecond acts acts rfl rfl reaches reaches'
  cases reading claims
  cases reading' claims'
  refine ⟨first, second, isFirst, isSecond, reaches, reaches', claims, claims', ?_⟩
  rcases apart with before | after
  · exact before
  · exact absurd after (by decide)

end SvpMcp
