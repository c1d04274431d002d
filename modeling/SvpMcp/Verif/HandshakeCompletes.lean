import SvpMcp.Verif.Authentication
import SvpMcp.Verif.Sweeping

/-!
# The handshake completes

A nonce stands until it is consumed or expires, and a login until its bearer expires. So a client
that signs its challenge in time is logged in, and its requests act for it.
-/

namespace SvpMcp

open Calendar SvpMcp.System

variable {deps : AuthDeps} {s : AuthState} {env : AuthEnv} {op : AuthOp}

/-- The call comes before a nonce expires, and neither draws nor verifies it. -/
def SparesNonce (nonce : String) (expiresAt : Time) (e : AuthEvent) : Prop :=
  e.env.now < expiresAt ∧ e.env.nonceHex ≠ nonce ∧
    ∀ signature sessionID, e.op ≠ .verify nonce signature sessionID

/-- The call comes before a login expires, and draws neither its bearer nor its tenant id. -/
def SparesLogin (bearer tenantID : String) (expiresAt : Time) (e : AuthEvent) : Prop :=
  e.env.now < expiresAt ∧ e.env.bearer ≠ bearer ∧ "auto-" ++ e.env.tenantHex ≠ tenantID

/-- `AuthVerify` consumes its nonce; unless it succeeds it changes nothing else. -/
theorem authVerify_result (deps : AuthDeps) (s : AuthState) (now : Time)
    (nonce signature sessionID bearer tenantHex : String) :
    let result := s.authVerify deps now nonce signature sessionID bearer tenantHex
    result.2.nonces = (s.nonces.consume now nonce).2 ∧
      ((∃ out, result.1 = .ok out) ∨ result.2.tenants = s.tenants) := by
  unfold AuthState.authVerify
  simp only
  split
  · exact ⟨rfl, .inr rfl⟩
  · exact ⟨rfl, .inr rfl⟩
  · split
    · exact ⟨rfl, .inr rfl⟩
    · split
      · exact ⟨rfl, .inr rfl⟩
      · exact ⟨rfl, .inl ⟨_, rfl⟩⟩

/-- Another nonce is left. -/
theorem consume_other {store : NonceStore} {now : Time} {nonce other : String}
    (apart : other ≠ nonce) :
    (store.consume now nonce).2.entries.get other = store.entries.get other := by
  unfold NonceStore.consume
  cases store.entries.get nonce with
  | none => rfl
  | some entry =>
    have kept := store.entries.get_delete nonce other
    rw [if_neg apart] at kept
    dsimp only
    split <;> exact kept

/-- A step that spares a nonce keeps it. -/
theorem performAuth_keeps_nonce {nonce owner : String} {expiresAt : Time}
    (spares : SparesNonce nonce expiresAt ⟨s, env, op, (performAuth deps s env op).1⟩)
    (found : s.nonces.entries.get nonce = some ⟨owner, expiresAt⟩) :
    (performAuth deps s env op).2.nonces.entries.get nonce = some ⟨owner, expiresAt⟩ := by
  obtain ⟨alive, notDrawn, notVerified⟩ := spares
  cases op with
  | challenge ip owner =>
    obtain ⟨_, ⟨_, _, result⟩ | ⟨_, result⟩⟩ :=
      authChallenge_result deps s env.now ip owner env.nonceHex
    · rw [performAuth, result]
      exact (Table.get_set ..).trans ((if_neg notDrawn.symm).trans found)
    · rw [performAuth, result]
      exact found
  | verify other signature sessionID =>
    have apart : nonce ≠ other := fun same => notVerified signature sessionID (by rw [same])
    rw [performAuth, (authVerify_result ..).1, consume_other apart]
    exact found
  | sweepNonces =>
    change (s.nonces.entries.filterMap _).get nonce = _
    rw [Table.get_filterMap, found]
    exact if_pos alive
  | _ => exact found

/-- A bearer leads to a tenant. -/
def Stands (bearer : String) (record : TenantRecord) (s : AuthState) : Prop :=
  s.tenants.byBearer.get bearer = some record.tenantID ∧
    s.tenants.byTenant.get record.tenantID = some record

/-- A step that spares a login keeps it. -/
theorem performAuth_keeps_login {bearer : String} {record : TenantRecord}
    (stands : Stands bearer record s) (spares : SparesLogin bearer record.tenantID record.expiresAt
      ⟨s, env, op, (performAuth deps s env op).1⟩) :
    Stands bearer record (performAuth deps s env op).2 := by
  obtain ⟨alive, otherBearer, otherTenant⟩ := spares
  cases op with
  | challenge ip owner =>
    obtain ⟨_, ⟨_, _, result⟩ | ⟨_, result⟩⟩ :=
      authChallenge_result deps s env.now ip owner env.nonceHex <;>
    · rw [performAuth, result]
      exact stands
  | verify nonce signature sessionID =>
    rw [performAuth]
    rcases (authVerify_result deps s env.now nonce signature sessionID env.bearer
      env.tenantHex).2 with ⟨_, verified⟩ | kept
    · obtain ⟨_, _, _, _, _, _, _, _, result⟩ := authVerify_ok verified
      rw [result]
      exact ⟨(Table.get_set ..).trans ((if_neg otherBearer.symm).trans stands.1),
        (Table.get_set ..).trans ((if_neg otherTenant.symm).trans stands.2)⟩
    · rw [Stands, kept]
      exact stands
  | sweepTenants =>
    have swept : Swept env.now s _ := @sweep_swept _ s s .sweepTenants (.refl _ s) rfl
    have live : ¬ record.expiresAt ≤ env.now := Int.not_le.mpr alive
    exact ⟨swept.tenants.byBearer.alive stands.1 fun expired => live (expired record stands.2),
      swept.tenants.byTenant.alive stands.2 live⟩
  | _ => exact stands

/-- A challenge that was answered has issued its nonce to an owner. -/
theorem authChallenge_ok {now : Time} {ip owner nonceHex : String} {out : AuthChallengeOutput}
    (answered : (s.authChallenge deps now ip owner nonceHex).1 = .ok out) :
    owner ≠ "" ∧ out.challenge = buildChallenge deps.chainID out.nonce (now + s.nonces.ttl) ∧
      (s.authChallenge deps now ip owner nonceHex).2.nonces.entries.get out.nonce =
        some ⟨owner, now + s.nonces.ttl⟩ := by
  unfold AuthState.authChallenge NonceStore.issue at answered ⊢
  simp only at answered ⊢
  split at answered
  · cases answered
  · split at answered
    · cases answered
    · rename_i allowed named
      simp only [if_neg named, if_neg allowed] at answered ⊢
      cases answered
      exact ⟨named, rfl, Table.get_set_self ..⟩

/-- A verification in time, with a signature that recovers to the owner of the nonce. -/
theorem authVerify_succeeds {now : Time} {nonce signature : String} {owner : String}
    {expiresAt : Time} {sig : Bytes} (known : s.nonces.entries.get nonce = some ⟨owner, expiresAt⟩)
    (inTime : now < expiresAt) (decoded : Base64.decode signature.toList = some sig)
    (signed : deps.recoverOwner (buildChallenge deps.chainID nonce expiresAt) sig = .ok owner)
    (named : owner ≠ "") (sessionID bearer tenantHex : String) :
    (s.authVerify deps now nonce signature sessionID bearer tenantHex).1 =
      .ok ⟨bearer, owner, unixSeconds (now + s.tenants.ttl)⟩ := by
  simp only [AuthState.authVerify, NonceStore.consume, known, if_pos inTime,
    AuthState.verifySignature, decoded, signed, ne_eq, not_true, if_false,
    DynamicTenantStore.mint, if_neg named]

/-- A client that signs the challenge it was given, and returns it before it expires, is logged in,
whatever calls come between that spare its nonce. From then on, whatever calls spare its login,
every request that carries its bearer before it expires acts for the owner. -/
theorem handshake_completes (deps : AuthDeps) (start w w' s : AuthState)
    (before between after : List AuthEvent) (env env' : AuthEnv)
    (ip owner signature sessionID : String) (out : AuthChallengeOutput)
    (reply : AuthReply (.verify out.nonce signature sessionID)) (sig : Bytes)
    (run : Trace (handshake deps) start (before ++ ⟨w, env, .challenge ip owner, .ok out⟩ :: between
      ++ ⟨w', env', .verify out.nonce signature sessionID, reply⟩ :: after) s)
    (spared : ∀ e ∈ between, SparesNonce out.nonce (env.now + w.nonces.ttl) e)
    (inTime : env'.now < env.now + w.nonces.ttl)
    (decoded : Base64.decode signature.toList = some sig)
    (signed : deps.recoverOwner out.challenge sig = .ok owner) :
    let tenantID := "auto-" ++ env'.tenantHex
    let expiresAt := env'.now + w'.tenants.ttl
    reply = .ok ⟨env'.bearer, owner, unixSeconds expiresAt⟩ ∧
      ((∀ e ∈ after, SparesLogin env'.bearer tenantID expiresAt e) →
        ∀ now headers, now < expiresAt → bearerToken headers.authorization = some env'.bearer →
          resolveTenant s now headers = some ⟨tenantID, owner⟩) := by
  obtain ⟨runBefore, replied⟩ := trace_split run
  obtain ⟨named, text, issued⟩ := authChallenge_ok (trace_split runBefore).2.symm
  have known := trace_after
    (fun s => s.nonces.entries.get out.nonce = some ⟨owner, env.now + w.nonces.ttl⟩)
    (fun _ _ _ => performAuth_keeps_nonce) runBefore issued spared
  rw [text] at signed
  have verified := authVerify_succeeds known inTime decoded signed named sessionID env'.bearer
    env'.tenantHex
  refine ⟨replied.trans verified, ?_⟩
  intro spares now headers valid carried
  obtain ⟨_, _, stored, _, _, _, _, _, result⟩ := authVerify_ok verified
  cases stored.symm.trans known
  have minted : Stands env'.bearer ⟨"auto-" ++ env'.tenantHex, owner,
      w'.tenants.defaultAllowedSubaccounts, false, env'.now + w'.tenants.ttl⟩
      (performAuth deps w' env' (.verify out.nonce signature sessionID)).2 := by
    rw [performAuth, result]
    exact ⟨Table.get_set_self .., Table.get_set_self ..⟩
  have stands := trace_after (Stands _ _)
    (fun _ _ _ spared held => performAuth_keeps_login held spared) run minted spares
  simp only [resolveTenant, carried, Option.bind_some, lookupTenantByToken,
    DynamicTenantStore.lookupByBearer, stands.1, DynamicTenantStore.lookupByTenantID, stands.2,
    if_pos valid]

/-- After the login of the example run, a request with its bearer. -/
theorem handshake_completes_bearer :
    resolveTenant ((handshake loginDeps).play loginStart loginCalls).2 3 ⟨"Bearer b0", ""⟩ =
      some ⟨"auto-t0", "svp1owner"⟩ := by
  refine (handshake_completes loginDeps loginStart _ _ _ [] [] [_] ⟨0, "n0", "", ""⟩
    ⟨1, "", "b0", "t0"⟩ "" "svp1owner" "" "session" ⟨_, "n0", _⟩ _ []
    (trace_play _ loginStart loginCalls) nofun (by decide) rfl rfl).2 ?_ 3 _ (by decide) (by decide)
  simp only [List.mem_singleton, forall_eq]
  exact ⟨by decide, by decide, by decide⟩

end SvpMcp
