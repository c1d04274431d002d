import SvpMcp.Lib.Trace
import SvpMcp.Model.Auth

/-!
# Who a request acts for

What the stores hold is explained by the run's past. Since random values do not repeat, the
middleware's lookups through several stores lead back to one verification.
-/

namespace SvpMcp

open Calendar SvpMcp.System

variable {nonce signature sessionID bearer tenantHex : String} {now : Time} {tc : TenantContext}

/-- A call of the handshake's system. -/
abbrev AuthEvent := Event AuthState AuthEnv AuthOp AuthReply

/-- An issued nonce. -/
structure Issue where
  nonce : String
  owner : String
  expiresAt : Time
deriving DecidableEq, Repr

/-- The nonce an `AuthChallenge` call issued. -/
def issue : AuthEvent → Option Issue
  | ⟨s, env, .challenge _ owner, .ok out⟩ => some ⟨out.nonce, owner, env.now + s.nonces.ttl⟩
  | _ => none

/-- A successful verification. -/
structure Login where
  nonce : String
  signature : String
  sessionID : String
  owner : String
  bearer : String
  tenantID : String
  verifiedAt : Time
  expiresAt : Time
deriving DecidableEq, Repr

/-- The login an `AuthVerify` call completed. -/
def login : AuthEvent → Option Login
  | ⟨s, env, .verify nonce signature sessionID, .ok out⟩ =>
    some { nonce, signature, sessionID, owner := out.owner, bearer := out.bearerToken,
           tenantID := "auto-" ++ env.tenantHex, verifiedAt := env.now,
           expiresAt := env.now + s.tenants.ttl }
  | _ => none

/-- The signature of a login recovers to the owner on the challenge of an issued nonce that has
not expired. -/
def SignedFor (deps : AuthDeps) (l : Login) (i : Issue) : Prop :=
  i.nonce = l.nonce ∧ i.owner = l.owner ∧ l.verifiedAt < i.expiresAt ∧
    ∃ sig, Base64.decode l.signature.toList = some sig ∧
      deps.recoverOwner (buildChallenge deps.chainID i.nonce i.expiresAt) sig = .ok l.owner

/-- A login on a session replaces the session's bearer; empty ids and bearers are not bound. -/
def Rebinds (sessionID : String) (e : AuthEvent) : Prop :=
  sessionID ≠ "" ∧ ∃ l, login e = some l ∧ l.sessionID = sessionID ∧ l.bearer ≠ ""

/-- The stores of one state hold nothing that those of another do not. -/
structure Shrinks (s s' : AuthState) : Prop where
  nonces : ∀ nonce entry,
    s'.nonces.entries.get nonce = some entry → s.nonces.entries.get nonce = some entry
  bearers : ∀ bearer id,
    s'.tenants.byBearer.get bearer = some id → s.tenants.byBearer.get bearer = some id
  tenants : ∀ id record,
    s'.tenants.byTenant.get id = some record → s.tenants.byTenant.get id = some record
  sessions : ∀ session entry,
    s'.sessions.entries.get session = some entry → s.sessions.entries.get session = some entry

/-- The sweep of the tenants removes entries only. -/
theorem sweepTenants_shrinks (now : Time) (entries : List (String × String))
    (s : DynamicTenantStore) :
    (∀ bearer id, (entries.foldl (DynamicTenantStore.sweepEntry now) s).byBearer.get bearer =
        some id → s.byBearer.get bearer = some id) ∧
      ∀ id record, (entries.foldl (DynamicTenantStore.sweepEntry now) s).byTenant.get id =
        some record → s.byTenant.get id = some record := by
  induction entries generalizing s with
  | nil => exact ⟨fun _ _ => id, fun _ _ => id⟩
  | cons entry rest ih =>
    obtain ⟨bearers, tenants⟩ := ih (s.sweepEntry now entry)
    have step : (∀ bearer id, (s.sweepEntry now entry).byBearer.get bearer = some id →
          s.byBearer.get bearer = some id) ∧
        ∀ id record, (s.sweepEntry now entry).byTenant.get id = some record →
          s.byTenant.get id = some record := by
      unfold DynamicTenantStore.sweepEntry
      cases s.lookupByTenantID now entry.2 with
      | ok record => exact ⟨fun _ _ => id, fun _ _ => id⟩
      | error e =>
        simp only [Table.get_delete]
        constructor
        · intro bearer id found
          split at found
          · cases found
          · exact found
        · intro id record found
          split at found
          · cases found
          · exact found
    exact ⟨fun bearer id found => step.1 bearer id (bearers bearer id found),
      fun id record found => step.2 id record (tenants id record found)⟩

/-- A sweep that drops expired entries removes entries only. -/
theorem get_filterMap_ite {ν : Type} {table : Table String ν} {keep : ν → Prop} [DecidablePred keep]
    {key : String} {value : ν}
    (found : (table.filterMap fun _ v => if keep v then some v else none).get key = some value) :
    table.get key = some value := by
  rw [Table.get_filterMap] at found
  cases stored : table.get key with
  | none =>
    rw [stored] at found
    cases found
  | some v =>
    rw [stored, Option.bind_some] at found
    split at found
    · exact found
    · cases found

variable {deps : AuthDeps} {s : AuthState}

/-- What a successful `AuthVerify` has checked and done. -/
theorem authVerify_ok {out : AuthVerifyOutput}
    (verified : (s.authVerify deps now nonce signature sessionID bearer tenantHex).1 = .ok out) :
    ∃ entry sig, s.nonces.entries.get nonce = some entry ∧ now < entry.expiresAt ∧
      Base64.decode signature.toList = some sig ∧
      deps.recoverOwner (buildChallenge deps.chainID nonce entry.expiresAt) sig =
        .ok entry.owner ∧
      out.owner = entry.owner ∧ out.bearerToken = bearer ∧
      (s.authVerify deps now nonce signature sessionID bearer tenantHex).2 =
        { s with
          nonces := { s.nonces with entries := s.nonces.entries.delete nonce }
          tenants := { s.tenants with
            byBearer := s.tenants.byBearer.set bearer ("auto-" ++ tenantHex)
            byTenant := s.tenants.byTenant.set ("auto-" ++ tenantHex)
              ⟨"auto-" ++ tenantHex, entry.owner, s.tenants.defaultAllowedSubaccounts, false,
                now + s.tenants.ttl⟩ }
          sessions := s.sessions.bind now sessionID bearer } := by
  unfold AuthState.authVerify NonceStore.consume at verified ⊢
  cases stored : s.nonces.entries.get nonce with
  | none =>
    simp only [stored] at verified
    cases verified
  | some entry =>
    simp only [stored] at verified ⊢
    by_cases valid : now < entry.expiresAt
    · simp only [if_pos valid] at verified ⊢
      unfold AuthState.verifySignature at verified ⊢
      cases decoded : Base64.decode signature.toList with
      | none =>
        simp only [decoded] at verified
        cases verified
      | some sig =>
        simp only [decoded] at verified ⊢
        cases recovered : deps.recoverOwner (buildChallenge deps.chainID nonce entry.expiresAt)
            sig with
        | error e =>
          simp only [recovered] at verified
          cases verified
        | ok owner =>
          simp only [recovered] at verified ⊢
          by_cases mismatch : owner ≠ entry.owner
          · simp only [if_pos mismatch] at verified
            cases verified
          · have same : owner = entry.owner := not_not.mp mismatch
            simp only [if_neg mismatch] at verified ⊢
            unfold DynamicTenantStore.mint at verified ⊢
            by_cases empty : entry.owner = ""
            · simp only [if_pos empty] at verified
              cases verified
            · simp only [if_neg empty] at verified ⊢
              cases verified
              exact ⟨entry, sig, rfl, valid, rfl, by rw [recovered, same], rfl, rfl, rfl⟩
    · simp only [if_neg valid] at verified
      cases verified

/-- A failed `AuthVerify` removes at most the nonce. -/
theorem authVerify_error {e : Errorf}
    (failed : (s.authVerify deps now nonce signature sessionID bearer tenantHex).1 = .error e) :
    Shrinks s (s.authVerify deps now nonce signature sessionID bearer tenantHex).2 := by
  have consumed : ∀ key entry, (s.nonces.consume now nonce).2.entries.get key = some entry →
      s.nonces.entries.get key = some entry := by
    intro key entry found
    unfold NonceStore.consume at found
    cases stored : s.nonces.entries.get nonce with
    | none =>
      simp only [stored] at found
      exact found
    | some known =>
      simp only [stored] at found
      have deleted : (s.nonces.entries.delete nonce).get key = some entry := by
        split at found <;> exact found
      rw [Table.get_delete] at deleted
      split at deleted
      · cases deleted
      · exact deleted
  have kept : Shrinks s { s with nonces := (s.nonces.consume now nonce).2 } :=
    ⟨consumed, fun _ _ => id, fun _ _ => id, fun _ _ => id⟩
  unfold AuthState.authVerify at failed ⊢
  simp only at failed ⊢
  split at failed
  · exact kept
  · exact kept
  · split at failed
    · exact kept
    · split at failed
      · exact kept
      · cases failed

/-- `AuthChallenge` issues a nonce for the owner, or changes the counters only. -/
theorem authChallenge_result (deps : AuthDeps) (s : AuthState) (now : Time)
    (ip owner nonceHex : String) :
    ∃ ipLimit,
      (∃ out, out.nonce = nonceHex ∧ s.authChallenge deps now ip owner nonceHex =
        (.ok out, { s with
          ipLimit
          nonces := { s.nonces with
            entries := s.nonces.entries.set nonceHex ⟨owner, now + s.nonces.ttl⟩ } })) ∨
      ∃ e, s.authChallenge deps now ip owner nonceHex = (.error e, { s with ipLimit }) := by
  refine ⟨(s.ipLimit.allow now ip).2, ?_⟩
  unfold AuthState.authChallenge
  simp only
  by_cases refused : (s.ipLimit.allow now ip).1 = false
  · rw [if_pos refused]
    exact .inr ⟨_, rfl⟩
  · rw [if_neg refused]
    by_cases empty : owner = ""
    · rw [if_pos empty]
      exact .inr ⟨_, rfl⟩
    · have issued : s.nonces.issue now owner nonceHex = .ok (now + s.nonces.ttl, { s.nonces with
          entries := s.nonces.entries.set nonceHex ⟨owner, now + s.nonces.ttl⟩ }) := if_neg empty
      rw [if_neg empty, issued]
      exact .inl ⟨_, rfl, rfl⟩

/-- The three things a call can do: issue a nonce, complete a login, or at most remove
entries. -/
inductive Effect (deps : AuthDeps) (s : AuthState) (e : AuthEvent) (s' : AuthState) : Prop where
  | issued (i : Issue) (isIssue : issue e = some i) (noLogin : login e = none)
      (nonces : s'.nonces.entries = s.nonces.entries.set i.nonce ⟨i.owner, i.expiresAt⟩)
      (tenants : s'.tenants = s.tenants) (sessions : s'.sessions = s.sessions)
  | loggedIn (l : Login) (entry : NonceEntry) (isLogin : login e = some l)
      (known : s.nonces.entries.get l.nonce = some entry)
      (signed : SignedFor deps l ⟨l.nonce, entry.owner, entry.expiresAt⟩)
      (nonces : s'.nonces.entries = s.nonces.entries.delete l.nonce)
      (bearers : s'.tenants.byBearer = s.tenants.byBearer.set l.bearer l.tenantID)
      (tenants : s'.tenants.byTenant = s.tenants.byTenant.set l.tenantID
        ⟨l.tenantID, l.owner, s.tenants.defaultAllowedSubaccounts, false, l.expiresAt⟩)
      (sessions : s'.sessions = s.sessions.bind l.verifiedAt l.sessionID l.bearer)
  | shrunk (noLogin : login e = none) (shrinks : Shrinks s s')

/-- Every call does one of the three. -/
theorem performAuth_effect (deps : AuthDeps) (s : AuthState) (env : AuthEnv) (op : AuthOp) :
    Effect deps s ⟨s, env, op, (performAuth deps s env op).1⟩ (performAuth deps s env op).2 := by
  cases op with
  | challenge ip owner =>
    change Effect deps s ⟨s, env, .challenge ip owner,
      (s.authChallenge deps env.now ip owner env.nonceHex).1⟩
      (s.authChallenge deps env.now ip owner env.nonceHex).2
    obtain ⟨ipLimit, ⟨out, sameNonce, result⟩ | ⟨e, result⟩⟩ :=
      authChallenge_result deps s env.now ip owner env.nonceHex
    · rw [result]
      refine .issued ⟨out.nonce, owner, env.now + s.nonces.ttl⟩ rfl rfl ?_ rfl rfl
      rw [sameNonce]
    · rw [result]
      exact .shrunk rfl ⟨fun _ _ => id, fun _ _ => id, fun _ _ => id, fun _ _ => id⟩
  | verify nonce signature sessionID =>
    change Effect deps s ⟨s, env, .verify nonce signature sessionID, (s.authVerify deps env.now
      nonce signature sessionID env.bearer env.tenantHex).1⟩ (s.authVerify deps env.now
      nonce signature sessionID env.bearer env.tenantHex).2
    cases reply : (s.authVerify deps env.now nonce signature sessionID env.bearer
        env.tenantHex).1 with
    | error e => exact .shrunk rfl (authVerify_error reply)
    | ok out =>
      obtain ⟨entry, sig, known, valid, decoded, recovered, owner, bearer, after⟩ :=
        authVerify_ok reply
      rw [after]
      refine .loggedIn _ entry rfl known ⟨rfl, owner.symm, valid, sig, decoded, ?_⟩ rfl ?_ ?_ ?_
      · rw [recovered, owner]
      · rw [bearer]
      · rw [owner]
      · rw [bearer]
  | sweepNonces =>
    exact .shrunk rfl ⟨fun _ _ => get_filterMap_ite, fun _ _ => id, fun _ _ => id, fun _ _ => id⟩
  | sweepTenants =>
    obtain ⟨bearers, tenants⟩ := sweepTenants_shrinks env.now s.tenants.byBearer.pairs s.tenants
    exact .shrunk rfl ⟨fun _ _ => id, bearers, tenants, fun _ _ => id⟩
  | sweepSessions =>
    exact .shrunk rfl ⟨fun _ _ => id, fun _ _ => id, fun _ _ => id, fun _ _ => get_filterMap_ite⟩
  | sweepLimits =>
    exact .shrunk rfl ⟨fun _ _ => id, fun _ _ => id, fun _ _ => id, fun _ _ => id⟩
  | request headers =>
    exact .shrunk rfl ⟨fun _ _ => id, fun _ _ => id, fun _ _ => id, fun _ _ => id⟩

/-- What the stores hold comes from the run's past. -/
structure Explained (deps : AuthDeps) (events : List AuthEvent) (s : AuthState) : Prop where
  /-- A nonce was issued and no login has consumed it since. -/
  nonces : ∀ nonce entry, s.nonces.entries.get nonce = some entry →
    Since (fun _ e => issue e = some ⟨nonce, entry.owner, entry.expiresAt⟩)
      (fun e => ∀ l, login e = some l → l.nonce ≠ nonce) events
  /-- A bearer was minted for its tenant. -/
  bearers : ∀ bearer id, s.tenants.byBearer.get bearer = some id →
    Since (fun _ e => ∃ l, login e = some l ∧ l.bearer = bearer ∧ l.tenantID = id)
      (fun _ => True) events
  /-- A tenant was minted by a login signed for an issued nonce. -/
  tenants : ∀ id record, s.tenants.byTenant.get id = some record →
    Since (fun earlier e => ∃ l, login e = some l ∧ l.tenantID = id ∧ l.owner = record.owner ∧
        l.expiresAt = record.expiresAt ∧ ∃ c ∈ earlier, ∃ i, issue c = some i ∧
          SignedFor deps l i)
      (fun _ => True) events
  /-- A session was bound by a login and not rebound since. -/
  sessions : ∀ session entry, s.sessions.entries.get session = some entry →
    Since (fun _ e => ∃ l, login e = some l ∧ l.sessionID = session ∧ l.bearer = entry.bearer)
      (fun e => ¬ Rebinds session e) events

/-- The stores of a server that has just started. -/
structure AuthState.Fresh (s : AuthState) : Prop where
  nonces : s.nonces.entries = ∅
  bearers : s.tenants.byBearer = ∅
  tenants : s.tenants.byTenant = ∅
  sessions : s.sessions.entries = ∅

/-- A new server has nothing to explain. -/
theorem explained_start (fresh : s.Fresh) :
    Explained deps [] s where
  nonces nonce entry found := by
    rw [fresh.nonces] at found
    cases found
  bearers bearer id found := by
    rw [fresh.bearers] at found
    cases found
  tenants id record found := by
    rw [fresh.tenants] at found
    cases found
  sessions session entry found := by
    rw [fresh.sessions] at found
    cases found

section Steps

variable {deps : AuthDeps} {events : List AuthEvent} {s s' : AuthState} {e : AuthEvent}

/-- A call that removes entries only keeps the explanation. -/
theorem explained_shrunk (before : Explained deps events s) (noLogin : login e = none)
    (shrinks : Shrinks s s') : Explained deps (events ++ [e]) s' where
  nonces nonce entry found := by
    refine since_append (before.nonces nonce entry (shrinks.nonces nonce entry found)) ?_
    intro l isLogin
    rw [noLogin] at isLogin
    cases isLogin
  bearers bearer id found :=
    since_append (before.bearers bearer id (shrinks.bearers bearer id found)) trivial
  tenants id record found :=
    since_append (before.tenants id record (shrinks.tenants id record found)) trivial
  sessions session entry found := by
    refine since_append (before.sessions session entry (shrinks.sessions session entry found)) ?_
    rintro ⟨_, l, isLogin, _⟩
    rw [noLogin] at isLogin
    cases isLogin

/-- An issued nonce is explained by its challenge. -/
theorem explained_issued (before : Explained deps events s) {i : Issue}
    (isIssue : issue e = some i) (noLogin : login e = none)
    (nonces : s'.nonces.entries = s.nonces.entries.set i.nonce ⟨i.owner, i.expiresAt⟩)
    (tenants : s'.tenants = s.tenants) (sessions : s'.sessions = s.sessions) :
    Explained deps (events ++ [e]) s' := by
  have kept : Explained deps (events ++ [e]) s :=
    explained_shrunk before noLogin ⟨fun _ _ => id, fun _ _ => id, fun _ _ => id, fun _ _ => id⟩
  refine ⟨?_, by rw [tenants]; exact kept.bearers, by rw [tenants]; exact kept.tenants,
    by rw [sessions]; exact kept.sessions⟩
  intro nonce entry found
  rw [nonces, Table.get_set] at found
  by_cases mine : nonce = i.nonce
  · rw [if_pos mine] at found
    cases found
    rw [mine]
    exact since_last isIssue
  · rw [if_neg mine] at found
    exact kept.nonces nonce entry found

/-- What a login leaves is explained by the login. -/
theorem explained_loggedIn (before : Explained deps events s) {l : Login} {entry : NonceEntry}
    (isLogin : login e = some l) (known : s.nonces.entries.get l.nonce = some entry)
    (signed : SignedFor deps l ⟨l.nonce, entry.owner, entry.expiresAt⟩)
    (nonces : s'.nonces.entries = s.nonces.entries.delete l.nonce)
    (bearers : s'.tenants.byBearer = s.tenants.byBearer.set l.bearer l.tenantID)
    (tenants : s'.tenants.byTenant = s.tenants.byTenant.set l.tenantID
      ⟨l.tenantID, l.owner, s.tenants.defaultAllowedSubaccounts, false, l.expiresAt⟩)
    (sessions : s'.sessions = s.sessions.bind l.verifiedAt l.sessionID l.bearer) :
    Explained deps (events ++ [e]) s' where
  nonces nonce other found := by
    rw [nonces, Table.get_delete] at found
    by_cases mine : nonce = l.nonce
    · rw [if_pos mine] at found
      cases found
    · rw [if_neg mine] at found
      refine since_append (before.nonces nonce other found) ?_
      intro l' sameLogin
      rw [isLogin] at sameLogin
      cases sameLogin
      exact fun same => mine same.symm
  bearers bearer id found := by
    rw [bearers, Table.get_set] at found
    by_cases mine : bearer = l.bearer
    · rw [if_pos mine] at found
      exact since_last ⟨l, isLogin, mine.symm, Option.some.inj found⟩
    · rw [if_neg mine] at found
      exact since_append (before.bearers bearer id found) trivial
  tenants id record found := by
    rw [tenants, Table.get_set] at found
    by_cases mine : id = l.tenantID
    · rw [if_pos mine] at found
      cases found
      obtain ⟨earlier, c, later, split, isIssue, _⟩ := before.nonces l.nonce entry known
      exact since_last ⟨l, isLogin, mine.symm, rfl, rfl, c, by simp [split], _, isIssue, signed⟩
    · rw [if_neg mine] at found
      exact since_append (before.tenants id record found) trivial
  sessions session other found := by
    have keep : s.sessions.entries.get session = some other → ¬ Rebinds session e →
        Since (fun _ e => ∃ l, login e = some l ∧ l.sessionID = session ∧
          l.bearer = other.bearer) (fun e => ¬ Rebinds session e) (events ++ [e]) :=
      fun old unbound => since_append (before.sessions session other old) unbound
    have rebinds : Rebinds session e → l.sessionID = session ∧ session ≠ "" ∧ l.bearer ≠ "" := by
      rintro ⟨named, l', sameLogin, sameSession, nonempty⟩
      rw [isLogin] at sameLogin
      cases sameLogin
      exact ⟨sameSession, named, nonempty⟩
    rw [sessions, SessionBearers.bind] at found
    by_cases ignored : l.sessionID = "" ∨ l.bearer = ""
    · rw [if_pos ignored] at found
      refine keep found ?_
      intro bound
      obtain ⟨same, named, nonempty⟩ := rebinds bound
      rw [same] at ignored
      exact ignored.elim named nonempty
    · rw [if_neg ignored, Table.get_set] at found
      by_cases mine : session = l.sessionID
      · rw [if_pos mine] at found
        cases found
        exact since_last ⟨l, isLogin, mine.symm, rfl⟩
      · rw [if_neg mine] at found
        exact keep found fun bound => mine (rebinds bound).1.symm

end Steps

variable {events : List AuthEvent}

/-- Along every run the stores are explained by the run's past. -/
theorem trace_explained {start : AuthState} (fresh : start.Fresh)
    (run : Trace (handshake deps) start events s) : Explained deps events s := by
  induction run with
  | start => exact explained_start fresh
  | @step events w run env op ih =>
    have effect : Effect deps w _ _ := performAuth_effect deps w env op
    cases effect with
    | issued i isIssue noLogin nonces tenants sessions =>
      exact explained_issued ih isIssue noLogin nonces tenants sessions
    | loggedIn l entry isLogin known signed nonces bearers tenants sessions =>
      exact explained_loggedIn ih isLogin known signed nonces bearers tenants sessions
    | shrunk noLogin shrinks => exact explained_shrunk ih noLogin shrinks

/-- Random nonces, bearers and tenant ids do not repeat. -/
structure NeverRepeats (events : List AuthEvent) : Prop where
  nonces : (events.filterMap fun e => (issue e).map Issue.nonce).Nodup
  bearers : (events.filterMap fun e => (login e).map Login.bearer).Nodup
  tenantIDs : (events.filterMap fun e => (login e).map Login.tenantID).Nodup

/-- Nor do the earlier events repeat. -/
theorem neverRepeats_of_append {earlier later : List AuthEvent}
    (once : NeverRepeats (earlier ++ later)) : NeverRepeats earlier where
  nonces := once.nonces.sublist ((List.sublist_append_left earlier later).filterMap _)
  bearers := once.bearers.sublist ((List.sublist_append_left earlier later).filterMap _)
  tenantIDs := once.tenantIDs.sublist ((List.sublist_append_left earlier later).filterMap _)

/-- The verification behind a tenant: where it stands in the run, that it was signed for a nonce
issued before it, for whom, and that its bearer is still valid. -/
structure LoggedInBy (deps : AuthDeps) (events earlier : List AuthEvent) (call : AuthEvent)
    (later : List AuthEvent) (l : Login) (owner : String) (now : Time) : Prop where
  split : events = earlier ++ call :: later
  isLogin : login call = some l
  signed : ∃ c ∈ earlier, ∃ i, issue c = some i ∧ SignedFor deps l i
  owner_eq : l.owner = owner
  valid : now < l.expiresAt

/-- A bearer that resolves was minted by a verification of its owner. -/
theorem lookupTenantByToken_loggedInBy {token : String} (explained : Explained deps events s)
    (once : NeverRepeats events) (found : lookupTenantByToken s.tenants now token = some tc) :
    ∃ earlier call later l,
      LoggedInBy deps events earlier call later l tc.owner now ∧ l.bearer = token := by
  unfold lookupTenantByToken DynamicTenantStore.lookupByBearer at found
  cases bound : s.tenants.byBearer.get token with
  | none =>
    simp only [bound] at found
    cases found
  | some id =>
    simp only [bound, DynamicTenantStore.lookupByTenantID] at found
    cases stored : s.tenants.byTenant.get id with
    | none =>
      simp only [stored] at found
      cases found
    | some record =>
      simp only [stored] at found
      by_cases valid : now < record.expiresAt
      · simp only [if_pos valid] at found
        cases found
        -- The bearer's login and the tenant's login have one tenant id.
        obtain ⟨earlier, call, later, split, ⟨l, isLogin, sameBearer, sameID⟩, _⟩ :=
          explained.bearers token id bound
        obtain ⟨earlier', call', later', split',
          ⟨l', isLogin', sameID', owner, expiry, signed⟩, _⟩ := explained.tenants id record stored
        have keyed : (login call).map Login.tenantID = some id := by rw [isLogin, ← sameID]; rfl
        have keyed' : (login call').map Login.tenantID = some id := by rw [isLogin', ← sameID']; rfl
        obtain ⟨_, sameCall, _⟩ := event_unique once.tenantIDs split split' keyed keyed'
        rw [sameCall, isLogin'] at isLogin
        cases isLogin
        exact ⟨earlier', call', later', l, ⟨split', isLogin', signed, owner,
          by rw [expiry]; exact valid⟩, sameBearer⟩
      · simp only [if_neg valid] at found
        cases found

/-- A session that resolves was bound by a login and not rebound since. -/
theorem sessions_lookup_explained {sessionID bearer : String} (explained : Explained deps events s)
    (found : s.sessions.lookup now sessionID = bearer) (nonempty : bearer ≠ "") :
    Since (fun _ e => ∃ l, login e = some l ∧ l.sessionID = sessionID ∧ l.bearer = bearer)
      (fun e => ¬ Rebinds sessionID e) events := by
  unfold SessionBearers.lookup at found
  by_cases unnamed : sessionID = ""
  · rw [if_pos unnamed] at found
    exact absurd found.symm nonempty
  · rw [if_neg unnamed] at found
    cases stored : s.sessions.entries.get sessionID with
    | none =>
      simp only [stored] at found
      exact absurd found.symm nonempty
    | some entry =>
      simp only [stored] at found
      by_cases valid : now < entry.expiresAt
      · rw [if_pos valid] at found
        rw [← found]
        exact explained.sessions sessionID entry stored
      · rw [if_neg valid] at found
        exact absurd found.symm nonempty

/-- A tenant the middleware attaches comes from a verification whose bearer the request carries,
or whose session it names with no rebinding since. -/
theorem resolveTenant_loggedInBy {headers : RequestHeaders} (explained : Explained deps events s)
    (once : NeverRepeats events) (resolved : resolveTenant s now headers = some tc) :
    ∃ earlier call later l, LoggedInBy deps events earlier call later l tc.owner now ∧
      (bearerToken headers.authorization = some l.bearer ∨
        headers.sessionID ≠ "" ∧ headers.sessionID = l.sessionID ∧
          ∀ e ∈ later, ¬ Rebinds l.sessionID e) := by
  unfold resolveTenant at resolved
  cases explicit : (bearerToken headers.authorization).bind
      (lookupTenantByToken s.tenants now) with
  | some attached =>
    simp only [explicit] at resolved
    cases resolved
    obtain ⟨token, carried, found⟩ := Option.bind_eq_some_iff.mp explicit
    obtain ⟨earlier, call, later, l, loggedIn, sameBearer⟩ :=
      lookupTenantByToken_loggedInBy explained once found
    exact ⟨earlier, call, later, l, loggedIn, .inl (by rw [carried, sameBearer])⟩
  | none =>
    simp only [explicit] at resolved
    by_cases unnamed : headers.sessionID = ""
    · rw [if_pos unnamed] at resolved
      cases resolved
    · rw [if_neg unnamed] at resolved
      by_cases empty : s.sessions.lookup now headers.sessionID = ""
      · rw [if_pos empty] at resolved
        cases resolved
      · rw [if_neg empty] at resolved
        obtain ⟨earlier, call, later, l, loggedIn, sameBearer⟩ :=
          lookupTenantByToken_loggedInBy explained once resolved
        -- The session's login and the bearer's login have one bearer.
        obtain ⟨earlier', call', later', split', ⟨l', isLogin', sameSession, sameBearer'⟩, kept⟩ :=
          sessions_lookup_explained explained rfl empty
        have keyed : (login call).map Login.bearer = some l.bearer := by rw [loggedIn.isLogin]; rfl
        have keyed' : (login call').map Login.bearer = some l.bearer := by
          rw [isLogin', Option.map_some, sameBearer', sameBearer]
        obtain ⟨_, sameCall, sameLater⟩ :=
          event_unique once.bearers loggedIn.split split' keyed keyed'
        have sameLogin := loggedIn.isLogin
        rw [sameCall, isLogin'] at sameLogin
        cases sameLogin
        refine ⟨earlier, call, later, l, loggedIn, .inr ⟨unnamed, sameSession.symm, ?_⟩⟩
        rw [sameLater, sameSession]
        exact kept

/-- A login finds its nonce in the store. -/
theorem login_nonce_known {start : AuthState} {earlier later : List AuthEvent} {e : AuthEvent}
    {l : Login} (run : Trace (handshake deps) start (earlier ++ e :: later) s)
    (isLogin : login e = some l) : ∃ entry, e.before.nonces.entries.get l.nonce = some entry := by
  obtain ⟨before, env, op, reply⟩ := e
  have performed : reply = (performAuth deps before env op).1 := (trace_split run).2
  rw [performed] at isLogin
  cases performAuth_effect deps before env op with
  | issued _ _ noLogin =>
    rw [noLogin] at isLogin
    cases isLogin
  | loggedIn l' entry isLogin' known =>
    rw [isLogin'] at isLogin
    cases isLogin
    exact ⟨entry, known⟩
  | shrunk noLogin =>
    rw [noLogin] at isLogin
    cases isLogin

/-- Two logins of one run consumed different nonces. -/
theorem logins_nonces_differ {start : AuthState} {first middle last : List AuthEvent}
    {e e' : AuthEvent} {l l' : Login} (fresh : start.Fresh)
    (run : Trace (handshake deps) start (first ++ e :: middle ++ e' :: last) s)
    (once : NeverRepeats (first ++ e :: middle ++ e' :: last)) (isLogin : login e = some l)
    (isLogin' : login e' = some l') : l.nonce ≠ l'.nonce := by
  intro same
  have runBefore := (trace_split run).1
  obtain ⟨entry', known'⟩ := login_nonce_known run isLogin'
  obtain ⟨entry, known⟩ := login_nonce_known runBefore isLogin
  -- The nonce was issued before the first login, and issued with no login after it.
  obtain ⟨front, c, back, split, isIssue, _⟩ :=
    (trace_explained fresh (trace_split runBefore).1).nonces l.nonce entry known
  obtain ⟨front', c', back', split', isIssue', unconsumed⟩ :=
    (trace_explained fresh runBefore).nonces l'.nonce entry' known'
  have splitWhole : first ++ e :: middle = front ++ c :: (back ++ e :: middle) := by
    rw [split]
    simp
  have keyed : (issue c).map Issue.nonce = some l.nonce := by rw [isIssue]; rfl
  have keyed' : (issue c').map Issue.nonce = some l.nonce := by rw [isIssue', same]; rfl
  obtain ⟨_, _, sameBack⟩ :=
    event_unique (neverRepeats_of_append once).nonces splitWhole split' keyed keyed'
  have member : e ∈ back' := by simp [← sameBack]
  exact unconsumed e member l isLogin same

/-- In every run from a fresh server, with any nonces, signatures and session ids and calls in any
order: a request that is attached a tenant goes back to one earlier verification of the tenant's
owner, signed for a nonce issued before it and valid at the time, whose bearer is still valid
and carried by the request or bound to the request's session with no rebinding since. No two
verifications consume one nonce. -/
theorem attached_tenant_goes_back_to_login (deps : AuthDeps) (start s : AuthState)
    (events : List AuthEvent) (fresh : start.Fresh)
    (run : Trace (handshake deps) start events s) (once : NeverRepeats events) :
    (∀ before w env headers (tc : TenantContext) after,
      events = before ++ ⟨w, env, .request headers, some tc⟩ :: after →
      ∃ earlier call later l, LoggedInBy deps before earlier call later l tc.owner env.now ∧
        (bearerToken headers.authorization = some l.bearer ∨
          headers.sessionID ≠ "" ∧ headers.sessionID = l.sessionID ∧
            ∀ e ∈ later, ¬ Rebinds l.sessionID e)) ∧
      ∀ first e middle e' last l l', events = first ++ e :: middle ++ e' :: last →
        login e = some l → login e' = some l' → l.nonce ≠ l'.nonce := by
  constructor
  · intro before w env headers tc after split
    rw [split] at run once
    obtain ⟨runBefore, reply⟩ := trace_split run
    have resolved : resolveTenant w env.now headers = some tc := reply.symm
    exact resolveTenant_loggedInBy (trace_explained fresh runBefore)
      (neverRepeats_of_append once) resolved
  · intro first e middle e' last l l' split isLogin isLogin'
    rw [split] at run once
    exact logins_nonces_differ fresh run once isLogin isLogin'

/-- A server that has just started, with a nonce valid for 60 s and a bearer for 600 s. -/
def loginStart : AuthState :=
  ⟨⟨60000000000, ∅⟩, ⟨600000000000, [0], ∅, ∅⟩, ⟨600000000000, ∅⟩, ⟨5, 60000000000, ∅⟩⟩

/-- Every signature recovers to the owner. -/
def loginDeps : AuthDeps := ⟨"svp-1", fun _ _ => .ok "svp1owner"⟩

/-- A challenge, its verification on a session, and a request on that session. -/
def loginCalls : List (AuthEnv × AuthOp) :=
  [(⟨0, "n0", "", ""⟩, .challenge "" "svp1owner"), (⟨1, "", "b0", "t0"⟩, .verify "n0" "" "session"),
   (⟨2, "", "", ""⟩, .request ⟨"", "session"⟩)]

/-- The request of the run goes back to the verification of the run. -/
theorem attached_tenant_goes_back_to_login_session :
    ∃ before w env headers tc,
      ((handshake loginDeps).play loginStart loginCalls).1 =
        before ++ [⟨w, env, .request headers, (some tc : Context)⟩] ∧
      tc = ⟨"auto-t0", "svp1owner"⟩ ∧
      ∃ earlier call later l, LoggedInBy loginDeps before earlier call later l tc.owner env.now ∧
        (bearerToken headers.authorization = some l.bearer ∨
          headers.sessionID ≠ "" ∧ headers.sessionID = l.sessionID ∧
            ∀ e ∈ later, ¬ Rebinds l.sessionID e) := by
  have fresh : loginStart.Fresh := ⟨rfl, rfl, rfl, rfl⟩
  have once : NeverRepeats ((handshake loginDeps).play loginStart loginCalls).1 :=
    ⟨by decide +kernel, by decide +kernel, by decide +kernel⟩
  have login := (attached_tenant_goes_back_to_login loginDeps loginStart _ _ fresh
    (trace_play _ loginStart loginCalls) once).1
  exact ⟨_, _, _, _, _, rfl, rfl, login _ _ _ _ ⟨"auto-t0", "svp1owner"⟩ [] rfl⟩

end SvpMcp
