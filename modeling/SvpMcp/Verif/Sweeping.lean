import SvpMcp.Lib.Thinning
import SvpMcp.Model.Auth

/-!
# Sweeping is unobservable

The swept stores lack only entries that have expired, and an expired entry answers as a missing one
does. A tenant id that has been swept is never minted again.
-/

namespace SvpMcp

open Calendar

/-- The calls of the four stores, with the random texts they draw. -/
inductive StoreOp where
  | issue (owner nonceHex : String)
  | consume (nonceHex : String)
  | mint (owner bearer tenantHex : String)
  | lookupByBearer (bearer : String)
  | lookupByTenantID (tenantID : String)
  | bind (sessionID bearer : String)
  | lookup (sessionID : String)
  | allow (ip : String)
  | sweepNonces
  | sweepTenants
  | sweepSessions
  | sweepLimits
deriving DecidableEq, Repr

/-- What a caller sees of a call: whether it succeeded, and the value. -/
inductive Observation where
  | issued (expiresAt : Option Time)
  | consumed (entry : Option NonceEntry)
  | tenant (record : Option TenantRecord)
  | bearer (text : String)
  | allowed (yes : Bool)
  | nothing
deriving DecidableEq, Repr

/-- Whether a call is a sweep. -/
def StoreOp.isSweep : StoreOp → Bool
  | sweepNonces | sweepTenants | sweepSessions | sweepLimits => true
  | _ => false

/-- The stores after a call of `Issue`. -/
def AuthState.issued (s : AuthState) (now : Time) (owner nonceHex : String) : AuthState :=
  match s.nonces.issue now owner nonceHex with
  | .ok (_, nonces) => { s with nonces }
  | .error _ => s

/-- The stores after a call of `Mint`. -/
def AuthState.minted (s : AuthState) (now : Time) (owner bearer tenantHex : String) : AuthState :=
  match s.tenants.mint now owner bearer tenantHex with
  | .ok (_, tenants) => { s with tenants }
  | .error _ => s

/-- The stores after a call. -/
def StoreOp.apply (now : Time) (s : AuthState) : StoreOp → AuthState
  | issue owner nonceHex => s.issued now owner nonceHex
  | consume nonceHex => { s with nonces := (s.nonces.consume now nonceHex).2 }
  | mint owner bearer tenantHex => s.minted now owner bearer tenantHex
  | bind sessionID bearer => { s with sessions := s.sessions.bind now sessionID bearer }
  | allow ip => { s with ipLimit := (s.ipLimit.allow now ip).2 }
  | sweepNonces => { s with nonces := s.nonces.sweep now }
  | sweepTenants => { s with tenants := s.tenants.sweep now }
  | sweepSessions => { s with sessions := s.sessions.sweep now }
  | sweepLimits => { s with ipLimit := s.ipLimit.sweep now }
  | lookupByBearer _ | lookupByTenantID _ | lookup _ => s

/-- What the caller sees of a call. -/
def StoreOp.observe (now : Time) (s : AuthState) : StoreOp → Observation
  | issue owner nonceHex =>
    .issued ((s.nonces.issue now owner nonceHex).toOption.map (·.1))
  | consume nonceHex => .consumed (s.nonces.consume now nonceHex).1.toOption
  | mint owner bearer tenantHex =>
    .tenant ((s.tenants.mint now owner bearer tenantHex).toOption.map (·.1))
  | lookupByBearer bearer => .tenant (s.tenants.lookupByBearer now bearer).toOption
  | lookupByTenantID tenantID => .tenant (s.tenants.lookupByTenantID now tenantID).toOption
  | lookup sessionID => .bearer (s.sessions.lookup now sessionID)
  | allow ip => .allowed (s.ipLimit.allow now ip).1
  | bind _ _ | sweepNonces | sweepTenants | sweepSessions | sweepLimits => .nothing

/-- A call at an instant. -/
structure StoreCall where
  now : Time
  op : StoreOp
deriving DecidableEq, Repr

/-- What the callers of a run see, without its sweeps. -/
def observations (s : AuthState) : List StoreCall → List Observation
  | [] => []
  | call :: rest =>
    if call.op.isSweep then observations (call.op.apply call.now s) rest
    else call.op.observe call.now s :: observations (call.op.apply call.now s) rest

/-- Whether a call reads the clock behind its lock. `Issue` and `Mint` read it before. -/
def StoreOp.readsInside : StoreOp → Bool
  | issue _ _ | mint _ _ _ => false
  | _ => true

/-- Under a clock that does not run backwards, calls that read it behind their lock do so in the
order of the run. -/
def Ordered (calls : List StoreCall) : Prop :=
  calls.Pairwise fun earlier later =>
    earlier.op.readsInside = true → later.op.readsInside = true → earlier.now ≤ later.now

/-- The tenant id a call mints. -/
def StoreOp.mints : StoreOp → Option String
  | mint _ _ tenantHex => some ("auto-" ++ tenantHex)
  | _ => none

/-- Stores without entries. -/
def AuthState.Empty (s : AuthState) : Prop :=
  s.nonces.entries = ∅ ∧ s.tenants.byBearer = ∅ ∧ s.tenants.byTenant = ∅ ∧
    s.sessions.entries = ∅ ∧ s.ipLimit.entries = ∅

variable {minted : List String} {s : AuthState}

/-- A tenant id that no lookup finds from an instant on. -/
def Expired (tenants : DynamicTenantStore) (now : Time) (tenantID : String) : Prop :=
  ∀ record, tenants.byTenant.get tenantID = some record → record.expiresAt ≤ now

/-- The second store is the first without tenants that have expired, and without bearers that led
to such tenants. -/
structure TenantsSwept (now : Time) (full thin : DynamicTenantStore) : Prop where
  ttl : thin.ttl = full.ttl
  defaults : thin.defaultAllowedSubaccounts = full.defaultAllowedSubaccounts
  byTenant : Thinned (fun record => record.expiresAt ≤ now) full.byTenant thin.byTenant
  byBearer : Thinned (Expired full now) full.byBearer thin.byBearer

/-- The second state is the first after sweeps up to an instant. -/
structure Swept (now : Time) (full thin : AuthState) : Prop where
  nonceTTL : thin.nonces.ttl = full.nonces.ttl
  nonces : Thinned (fun entry => entry.expiresAt ≤ now) full.nonces.entries thin.nonces.entries
  tenants : TenantsSwept now full.tenants thin.tenants
  sessionTTL : thin.sessions.ttl = full.sessions.ttl
  sessions :
    Thinned (fun entry => entry.expiresAt ≤ now) full.sessions.entries thin.sessions.entries
  limitMax : thin.ipLimit.max = full.ipLimit.max
  limitWindow : thin.ipLimit.window = full.ipLimit.window
  limits : Thinned (fun e => now - e.windowStart ≥ full.ipLimit.window) full.ipLimit.entries
    thin.ipLimit.entries

/-- Nothing need be swept. -/
theorem Swept.refl (now : Time) (s : AuthState) : Swept now s s :=
  ⟨rfl, .refl _ _, ⟨rfl, rfl, .refl _ _, .refl _ _⟩, rfl, .refl _ _, rfl, rfl, .refl _ _⟩

/-- Later more may be swept of the tenants. -/
theorem TenantsSwept.mono {now later : Time} {full thin : DynamicTenantStore}
    (swept : TenantsSwept now full thin) (bound : now ≤ later) : TenantsSwept later full thin where
  ttl := swept.ttl
  defaults := swept.defaults
  byTenant := swept.byTenant.mono fun _ _ _ old => Int.le_trans old bound
  byBearer := swept.byBearer.mono fun _ _ _ old record present =>
    Int.le_trans (old record present) bound

/-- Later more may be swept. -/
theorem Swept.mono {now later : Time} {full thin : AuthState} (swept : Swept now full thin)
    (bound : now ≤ later) : Swept later full thin where
  nonceTTL := swept.nonceTTL
  nonces := swept.nonces.mono fun _ _ _ old => Int.le_trans old bound
  tenants := swept.tenants.mono bound
  sessionTTL := swept.sessionTTL
  sessions := swept.sessions.mono fun _ _ _ old => Int.le_trans old bound
  limitMax := swept.limitMax
  limitWindow := swept.limitWindow
  limits := swept.limits.mono fun _ _ _ old => Int.le_trans old (Int.sub_le_sub_right bound _)

section Answers

variable {now later : Time} {full thin : AuthState}

/-- A swept store consumes the same nonces. -/
theorem consume_swept (swept : Swept now full thin) (bound : now ≤ later) (nonceHex : String) :
    (thin.nonces.consume later nonceHex).1.toOption =
      (full.nonces.consume later nonceHex).1.toOption := by
  unfold NonceStore.consume
  rcases swept.nonces nonceHex with same | ⟨absent, entry, present, expired⟩
  · rw [same]
    cases full.nonces.entries.get nonceHex with
    | none => rfl
    | some entry =>
      simp only
      split <;> rfl
  · have late : ¬ later < entry.expiresAt := Int.not_lt.mpr (Int.le_trans expired bound)
    rw [absent, present]
    simp only [if_neg late]
    rfl

/-- It finds the same tenants. -/
theorem lookupByTenantID_swept {full thin : DynamicTenantStore} (swept : TenantsSwept now full thin)
    (bound : now ≤ later) (tenantID : String) :
    (thin.lookupByTenantID later tenantID).toOption =
      (full.lookupByTenantID later tenantID).toOption := by
  unfold DynamicTenantStore.lookupByTenantID
  rcases swept.byTenant tenantID with same | ⟨absent, record, present, expired⟩
  · rw [same]
  · have late : ¬ later < record.expiresAt := Int.not_lt.mpr (Int.le_trans expired bound)
    rw [absent, present]
    simp only [if_neg late]
    rfl

/-- An expired tenant is not found. -/
theorem lookupByTenantID_expired {tenants : DynamicTenantStore} {tenantID : String}
    (expired : Expired tenants now tenantID) (bound : now ≤ later) :
    (tenants.lookupByTenantID later tenantID).toOption = none := by
  unfold DynamicTenantStore.lookupByTenantID
  cases present : tenants.byTenant.get tenantID with
  | none => rfl
  | some record =>
    have late : ¬ later < record.expiresAt :=
      Int.not_lt.mpr (Int.le_trans (expired record present) bound)
    simp only [if_neg late]
    rfl

/-- It finds the same bearers. -/
theorem lookupByBearer_swept {full thin : DynamicTenantStore} (swept : TenantsSwept now full thin)
    (bound : now ≤ later) (bearer : String) :
    (thin.lookupByBearer later bearer).toOption = (full.lookupByBearer later bearer).toOption := by
  unfold DynamicTenantStore.lookupByBearer
  rcases swept.byBearer bearer with same | ⟨absent, tenantID, present, expired⟩
  · rw [same]
    cases full.byBearer.get bearer with
    | none => rfl
    | some tenantID => exact lookupByTenantID_swept swept bound tenantID
  · rw [absent, present]
    exact (lookupByTenantID_expired expired bound).symm

/-- It finds the same sessions. -/
theorem lookup_swept (swept : Swept now full thin) (bound : now ≤ later) (sessionID : String) :
    thin.sessions.lookup later sessionID = full.sessions.lookup later sessionID := by
  unfold SessionBearers.lookup
  by_cases empty : sessionID = ""
  · rw [if_pos empty, if_pos empty]
  · rw [if_neg empty, if_neg empty]
    rcases swept.sessions sessionID with same | ⟨absent, entry, present, expired⟩
    · rw [same]
    · have late : ¬ later < entry.expiresAt := Int.not_lt.mpr (Int.le_trans expired bound)
      rw [absent, present]
      simp only [if_neg late]

/-- A window that was dropped has elapsed, so both limiters start a new one. -/
theorem allow_swept (swept : Swept now full thin) (bound : now ≤ later) (ip : String) :
    (thin.ipLimit.allow later ip).1 = (full.ipLimit.allow later ip).1 ∧
      Thinned (fun e => now - e.windowStart ≥ full.ipLimit.window)
        (full.ipLimit.allow later ip).2.entries (thin.ipLimit.allow later ip).2.entries := by
  unfold IPRateLimiter.allow
  by_cases empty : ip = ""
  · rw [if_pos empty, if_pos empty]
    exact ⟨rfl, swept.limits⟩
  · rw [if_neg empty, if_neg empty, swept.limitMax, swept.limitWindow]
    rcases swept.limits ip with same | ⟨absent, e, present, elapsed⟩
    · rw [same]
      cases full.ipLimit.entries.get ip with
      | none => exact ⟨rfl, swept.limits.set ip _⟩
      | some e =>
        simp only
        split
        · exact ⟨rfl, swept.limits.set ip _⟩
        · exact ⟨rfl, swept.limits.set ip _⟩
    · have still : later - e.windowStart ≥ full.ipLimit.window :=
        Int.le_trans elapsed (Int.sub_le_sub_right bound _)
      rw [absent, present]
      simp only [if_pos still]
      exact ⟨trivial, swept.limits.set ip _⟩

end Answers

section Steps

variable {now later : Time} {full thin : AuthState}

/-- Callers see the same of swept stores. -/
theorem observe_swept {op : StoreOp} (swept : Swept now full thin)
    (bound : op.readsInside = true → now ≤ later) :
    op.observe later thin = op.observe later full := by
  cases op with
  | issue owner nonceHex =>
    simp only [StoreOp.observe, NonceStore.issue, swept.nonceTTL]
    split <;> rfl
  | consume nonceHex => simp only [StoreOp.observe, consume_swept swept (bound rfl)]
  | mint owner bearer tenantHex =>
    simp only [StoreOp.observe, DynamicTenantStore.mint, swept.tenants.ttl, swept.tenants.defaults]
    split <;> rfl
  | lookupByBearer bearer =>
    simp only [StoreOp.observe, lookupByBearer_swept swept.tenants (bound rfl)]
  | lookupByTenantID tenantID =>
    simp only [StoreOp.observe, lookupByTenantID_swept swept.tenants (bound rfl)]
  | lookup sessionID => simp only [StoreOp.observe, lookup_swept swept (bound rfl)]
  | allow ip => simp only [StoreOp.observe, (allow_swept swept (bound rfl) ip).1]
  | _ => rfl

/-- Issuing a nonce keeps the relation. -/
theorem issued_swept (swept : Swept now full thin) (owner nonceHex : String) :
    Swept now (full.issued later owner nonceHex) (thin.issued later owner nonceHex) := by
  unfold AuthState.issued NonceStore.issue
  by_cases empty : owner = ""
  · simp only [if_pos empty]
    exact swept
  · simp only [if_neg empty, swept.nonceTTL]
    exact { swept with nonceTTL := rfl, nonces := swept.nonces.set _ _ }

/-- So does consuming one. -/
theorem consumed_swept (swept : Swept now full thin) (nonceHex : String) :
    Swept now { full with nonces := (full.nonces.consume later nonceHex).2 }
      { thin with nonces := (thin.nonces.consume later nonceHex).2 } := by
  -- Both lose the nonce, whether or not it was there.
  have entries : ∀ s : NonceStore, ∀ other, (s.consume later nonceHex).2.entries.get other =
      (s.entries.delete nonceHex).get other := by
    intro s other
    unfold NonceStore.consume
    cases found : s.entries.get nonceHex with
    | none =>
      rw [Table.get_delete]
      by_cases same : other = nonceHex
      · rw [if_pos same, same]
        exact found
      · rw [if_neg same]
    | some entry =>
      simp only
      split <;> rfl
  have ttl : ∀ s : NonceStore, (s.consume later nonceHex).2.ttl = s.ttl := by
    intro s
    unfold NonceStore.consume
    cases s.entries.get nonceHex with
    | none => rfl
    | some entry =>
      simp only
      split <;> rfl
  have thinned : Thinned (fun entry => entry.expiresAt ≤ now)
      (full.nonces.consume later nonceHex).2.entries
      (thin.nonces.consume later nonceHex).2.entries := by
    intro other
    rw [entries, entries]
    exact swept.nonces.delete nonceHex other
  exact { swept with
    nonceTTL := by rw [ttl, ttl, swept.nonceTTL]
    nonces := thinned }

/-- The bearers of a store lead to tenant ids of a list. -/
def LeadsTo (tenants : DynamicTenantStore) (minted : List String) : Prop :=
  ∀ bearer tenantID, tenants.byBearer.get bearer = some tenantID → tenantID ∈ minted

/-- A new tenant id does not bring an expired one back. -/
theorem minted_swept (swept : Swept now full thin) (leads : LeadsTo full.tenants minted)
    {owner bearer tenantHex : String} (fresh : "auto-" ++ tenantHex ∉ minted) :
    Swept now (full.minted later owner bearer tenantHex)
      (thin.minted later owner bearer tenantHex) := by
  unfold AuthState.minted DynamicTenantStore.mint
  by_cases empty : owner = ""
  · simp only [if_pos empty]
    exact swept
  · simp only [if_neg empty, swept.tenants.ttl, swept.tenants.defaults]
    refine { swept with tenants := ⟨rfl, rfl, ?_, ?_⟩ }
    · exact swept.tenants.byTenant.set _ _
    · refine Thinned.set (swept.tenants.byBearer.mono ?_) _ _
      intro other tenantID present expired record found
      have isOld : tenantID ≠ "auto-" ++ tenantHex := by
        intro same
        exact fresh (same ▸ leads other tenantID present)
      simp only [Table.get_set, if_neg isOld] at found
      exact expired record found

/-- So does binding a session. -/
theorem bound_swept (swept : Swept now full thin) (sessionID bearer : String) :
    Swept now { full with sessions := full.sessions.bind later sessionID bearer }
      { thin with sessions := thin.sessions.bind later sessionID bearer } := by
  unfold SessionBearers.bind
  by_cases ignored : sessionID = "" ∨ bearer = ""
  · simp only [if_pos ignored]
    exact swept
  · simp only [if_neg ignored, swept.sessionTTL]
    exact { swept with sessionTTL := rfl, sessions := swept.sessions.set _ _ }

/-- A call leaves the limits. -/
theorem allow_config (l : IPRateLimiter) (instant : Time) (ip : String) :
    (l.allow instant ip).2.max = l.max ∧ (l.allow instant ip).2.window = l.window := by
  unfold IPRateLimiter.allow
  split
  · exact ⟨rfl, rfl⟩
  · cases l.entries.get ip with
    | none => exact ⟨rfl, rfl⟩
    | some e =>
      simp only
      split <;> exact ⟨rfl, rfl⟩

/-- A call of the limiter keeps the relation. -/
theorem allowed_swept (swept : Swept now full thin) (bound : now ≤ later) (ip : String) :
    Swept now { full with ipLimit := (full.ipLimit.allow later ip).2 }
      { thin with ipLimit := (thin.ipLimit.allow later ip).2 } := by
  have fullConfig := allow_config full.ipLimit later ip
  have thinConfig := allow_config thin.ipLimit later ip
  refine { swept with
    limitMax := thinConfig.1.trans (swept.limitMax.trans fullConfig.1.symm)
    limitWindow := thinConfig.2.trans (swept.limitWindow.trans fullConfig.2.symm)
    limits := ?_ }
  rw [fullConfig.2]
  exact (allow_swept swept bound ip).2

/-- A call that is no sweep, made on both. -/
theorem apply_swept {op : StoreOp} (swept : Swept now full thin)
    (bound : op.readsInside = true → now ≤ later) (notSweep : op.isSweep = false)
    (leads : LeadsTo full.tenants minted) (fresh : ∀ id, op.mints = some id → id ∉ minted) :
    Swept now (op.apply later full) (op.apply later thin) := by
  cases op with
  | issue owner nonceHex => exact issued_swept swept owner nonceHex
  | consume nonceHex => exact consumed_swept swept nonceHex
  | mint owner bearer tenantHex => exact minted_swept swept leads (fresh _ rfl)
  | lookupByBearer bearer => exact swept
  | lookupByTenantID tenantID => exact swept
  | bind sessionID bearer => exact bound_swept swept sessionID bearer
  | lookup sessionID => exact swept
  | allow ip => exact allowed_swept swept (bound rfl) ip
  | sweepNonces => cases notSweep
  | sweepTenants => cases notSweep
  | sweepSessions => cases notSweep
  | sweepLimits => cases notSweep

end Steps

/-- One iteration of the tenants' sweep, at an entry of the full store. -/
theorem sweepEntry_swept {now : Time} {full thin : DynamicTenantStore}
    (swept : TenantsSwept now full thin) {entry : String × String}
    (present : full.byBearer.get entry.1 = some entry.2) :
    TenantsSwept now full (thin.sweepEntry now entry) := by
  unfold DynamicTenantStore.sweepEntry
  cases found : thin.lookupByTenantID now entry.2 with
  | ok record => exact swept
  | error e =>
    have gone : Expired full now entry.2 := by
      intro record isRecord
      by_contra alive
      have lookup := lookupByTenantID_swept swept (Int.le_refl now) entry.2
      have live : full.lookupByTenantID now entry.2 = .ok record := by
        unfold DynamicTenantStore.lookupByTenantID
        rw [isRecord]
        exact if_pos (Int.not_le.mp alive)
      rw [found, live] at lookup
      cases lookup
    refine ⟨swept.ttl, swept.defaults, swept.byTenant.drop gone, swept.byBearer.drop ?_⟩
    intro tenantID isTenant
    rw [present] at isTenant
    exact Option.some.inj isTenant ▸ gone

/-- So does sweeping the tenants. -/
theorem sweepEntries_swept {now : Time} {full thin : DynamicTenantStore}
    (swept : TenantsSwept now full thin) {entries : List (String × String)}
    (present : ∀ entry ∈ entries, full.byBearer.get entry.1 = some entry.2) :
    TenantsSwept now full (entries.foldl (DynamicTenantStore.sweepEntry now) thin) := by
  induction entries generalizing thin with
  | nil => exact swept
  | cons entry rest ih =>
    rw [List.foldl_cons]
    refine ih (sweepEntry_swept swept (present entry List.mem_cons_self)) ?_
    exact fun other member => present other (List.mem_cons_of_mem _ member)

/-- A sweep of the second state. -/
theorem sweep_swept {now : Time} {full thin : AuthState} {op : StoreOp}
    (swept : Swept now full thin) (isSweep : op.isSweep = true) :
    Swept now full (op.apply now thin) := by
  cases op with
  | sweepNonces =>
    exact { swept with nonces := swept.nonces.filter fun _ late => Int.not_lt.mp late }
  | sweepTenants =>
    refine { swept with tenants := sweepEntries_swept swept.tenants ?_ }
    intro entry member
    exact swept.tenants.byBearer.sub ((Table.mem_pairs_iff _ _ _).mp member)
  | sweepSessions =>
    exact { swept with sessions := swept.sessions.filter fun _ late => Int.not_lt.mp late }
  | sweepLimits =>
    have kept : ∀ e : IpEntry, (if now - e.windowStart ≥ thin.ipLimit.window then none else some e)
        = if ¬ now - e.windowStart ≥ thin.ipLimit.window then some e else none :=
      fun e => (ite_not _ _ _).symm
    refine { swept with limits := ?_ }
    change Thinned _ _ (thin.ipLimit.entries.filterMap _)
    simp only [kept]
    exact swept.limits.filter fun e elapsed => swept.limitWindow ▸ not_not.mp elapsed
  | _ => cases isSweep

/-- A bearer leads to a tenant that was minted. -/
theorem mint_leads {tenants : DynamicTenantStore} (leads : LeadsTo tenants minted)
    (bearer tenantID : String) :
    ∀ other id, (tenants.byBearer.set bearer tenantID).get other = some id →
      id ∈ tenantID :: minted := by
  intro other id found
  rw [Table.get_set] at found
  by_cases same : other = bearer
  · rw [if_pos same] at found
    rw [← Option.some.inj found]
    exact List.mem_cons_self
  · rw [if_neg same] at found
    exact List.mem_cons_of_mem _ (leads other id found)

/-- The bearers of the full store lead to the tenant ids minted so far. -/
theorem apply_leads (leads : LeadsTo s.tenants minted) (now : Time) {op : StoreOp}
    (notSweep : op.isSweep = false) :
    LeadsTo (op.apply now s).tenants (op.mints.toList ++ minted) := by
  cases op with
  | mint owner bearer tenantHex =>
    by_cases empty : owner = ""
    · have same : StoreOp.apply now s (.mint owner bearer tenantHex) = s := by
        simp only [StoreOp.apply, AuthState.minted, DynamicTenantStore.mint, if_pos empty]
      rw [same]
      exact fun other id found => List.mem_append_right _ (leads other id found)
    · simp only [StoreOp.apply, AuthState.minted, DynamicTenantStore.mint, if_neg empty]
      exact mint_leads leads bearer _
  | issue owner nonceHex =>
    have same : (StoreOp.apply now s (.issue owner nonceHex)).tenants = s.tenants := by
      simp only [StoreOp.apply, AuthState.issued]
      split <;> rfl
    rw [same]
    exact leads
  | sweepTenants => cases notSweep
  | _ => exact leads

/-- A run with sweeps against the run without them. -/
theorem observations_unswept {full thin : AuthState} {now : Time} {calls : List StoreCall}
    (swept : Swept now full thin) (leads : LeadsTo full.tenants minted) (ordered : Ordered calls)
    (after : ∀ call ∈ calls, call.op.readsInside = true → now ≤ call.now)
    (fresh : (calls.filterMap (·.op.mints) ++ minted).Nodup) :
    observations thin calls = observations full (calls.filter fun call => !call.op.isSweep) := by
  -- The induction follows the run; the instant is that of the last sweep.
  induction calls generalizing full thin now minted with
  | nil => rfl
  | cons call rest ih =>
    obtain ⟨here, later⟩ := List.pairwise_cons.mp ordered
    have afterRest : ∀ other ∈ rest, other.op.readsInside = true → now ≤ other.now :=
      fun other member => after other (List.mem_cons_of_mem _ member)
    cases isSweep : call.op.isSweep with
    | true =>
      have inside : call.op.readsInside = true := by
        cases op : call.op <;> rw [op] at isSweep <;> first | rfl | cases isSweep
      have mintsNone : call.op.mints = none := by
        cases op : call.op <;> rw [op] at isSweep <;> first | rfl | cases isSweep
      have bound := after call List.mem_cons_self inside
      rw [observations, if_pos isSweep, List.filter_cons, isSweep]
      refine ih (sweep_swept (swept.mono bound) isSweep) leads later ?_ ?_
      · exact fun other member => here other member inside
      · rw [List.filterMap_cons, mintsNone] at fresh
        exact fresh
    | false =>
      have bound : call.op.readsInside = true → now ≤ call.now := after call List.mem_cons_self
      have unminted : ∀ id, call.op.mints = some id → id ∉ minted := by
        intro id mints member
        rw [List.filterMap_cons, mints] at fresh
        exact (List.nodup_cons.mp fresh).1 (List.mem_append_right _ member)
      have notSweep : ¬ call.op.isSweep = true := by
        rw [isSweep]
        decide
      rw [observations, if_neg notSweep, List.filter_cons, isSweep]
      change _ = observations full (call :: rest.filter _)
      rw [observations, if_neg notSweep, observe_swept swept bound]
      congr 1
      refine ih (apply_swept swept bound isSweep leads unminted)
        (apply_leads leads call.now isSweep) later afterRest ?_
      cases mints : call.op.mints with
      | none =>
        rw [List.filterMap_cons, mints] at fresh
        exact fresh
      | some id =>
        rw [List.filterMap_cons, mints] at fresh
        have moved : (rest.filterMap (·.op.mints) ++ id :: minted).Perm
            (id :: (rest.filterMap (·.op.mints) ++ minted)) := List.perm_middle
        exact moved.nodup_iff.mpr fresh

/-- In an empty store none leads anywhere. -/
theorem empty_leads (empty : s.Empty) : LeadsTo s.tenants [] := by
  intro bearer id found
  rw [empty.2.1] at found
  cases found

/-- Some instant is no later than any call of a run. -/
theorem exists_earliest (run : List StoreCall) : ∃ earliest : Time, ∀ call ∈ run,
    earliest ≤ call.now := by
  induction run with
  | nil => exact ⟨0, fun _ member => absurd member List.not_mem_nil⟩
  | cons call rest ih =>
    obtain ⟨earliest, before⟩ := ih
    refine ⟨min call.now earliest, fun other member => ?_⟩
    rcases List.mem_cons.mp member with first | later
    · rw [first]
      exact Int.min_le_left _ _
    · exact Int.le_trans (Int.min_le_right _ _) (before other later)

/-- Sweeps mint nothing. -/
theorem mints_filter (run : List StoreCall) : run.filterMap (·.op.mints) =
    (run.filter fun call => !call.op.isSweep).filterMap (·.op.mints) := by
  rw [List.filterMap_filter]
  congr 1
  funext call
  cases op : call.op <;> rfl

/-- From empty stores, a run looks as the run without its sweeps. -/
theorem empty_unswept (empty : s.Empty) {run : List StoreCall} (ordered : Ordered run)
    (once : (run.filterMap (·.op.mints)).Nodup) :
    observations s run = observations s (run.filter fun call => !call.op.isSweep) := by
  obtain ⟨earliest, before⟩ := exists_earliest run
  refine observations_unswept (.refl earliest s) (empty_leads empty) ordered
    (fun call member _ => before call member) ?_
  rw [List.append_nil]
  exact once

/-- Two runs that differ in their sweeps only look the same to every caller: the same calls
succeed, with the same values. Tenant ids do not repeat, and the clock does not run backwards. -/
theorem sweeps_unobservable (s : AuthState) (empty : s.Empty) (calls calls' : List StoreCall)
    (same : (calls.filter fun call => !call.op.isSweep) =
      calls'.filter fun call => !call.op.isSweep)
    (ordered : Ordered calls) (ordered' : Ordered calls')
    (once : (calls.filterMap (·.op.mints)).Nodup) :
    observations s calls = observations s calls' := by
  have once' : (calls'.filterMap (·.op.mints)).Nodup := by
    rw [mints_filter, ← same, ← mints_filter]
    exact once
  rw [empty_unswept empty ordered once, empty_unswept empty ordered' once', same]

/-- Stores that hold for ten instants and allow one call. -/
def tenInstants : AuthState :=
  ⟨⟨10, ∅⟩, ⟨10, [], ∅, ∅⟩, ⟨10, ∅⟩, ⟨1, 10, ∅⟩⟩

/-- A run without sweeps, over the boundary of the tenth instant. -/
def boundaryRun : List StoreCall :=
  [⟨0, .issue "a" "n"⟩, ⟨0, .mint "a" "b" "t"⟩, ⟨0, .bind "s" "b"⟩, ⟨0, .allow "ip"⟩,
   ⟨9, .lookupByBearer "b"⟩, ⟨10, .consume "n"⟩, ⟨10, .lookupByBearer "b"⟩, ⟨10, .lookup "s"⟩,
   ⟨10, .allow "ip"⟩]

/-- The run with sweeps of all stores at the boundary. -/
def sweptRun : List StoreCall :=
  boundaryRun.take 5 ++
    [⟨10, .sweepNonces⟩, ⟨10, .sweepTenants⟩, ⟨10, .sweepSessions⟩, ⟨10, .sweepLimits⟩] ++
    boundaryRun.drop 5

/-- The sweeps at the boundary are not seen. -/
theorem sweeps_unobservable_boundary :
    sweptRun ≠ boundaryRun ∧
      observations tenInstants sweptRun = observations tenInstants boundaryRun := by
  refine ⟨by decide, ?_⟩
  refine sweeps_unobservable tenInstants ⟨rfl, rfl, rfl, rfl, rfl⟩ sweptRun boundaryRun (by decide)
    ?_ ?_ (by decide)
  · simp [Ordered, sweptRun, boundaryRun, StoreOp.readsInside]
  · simp [Ordered, boundaryRun, StoreOp.readsInside]

end SvpMcp
