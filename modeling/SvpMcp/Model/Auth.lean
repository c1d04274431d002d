import SvpMcp.Lib.Base64
import SvpMcp.Lib.Calendar
import SvpMcp.Lib.Program
import SvpMcp.Lib.Strings
import SvpMcp.Lib.Table

/-!
# Self-service authentication

The four stores of the `auth` package, the handshake tools and the middleware. Instants and random
texts are arguments; signature recovery is a parameter.
-/

namespace SvpMcp

open Calendar

/-- An issued nonce. -/
structure NonceEntry where
  /-- The address the nonce was issued for. -/
  owner : String
  expiresAt : Time
deriving DecidableEq, Repr

/-- The nonces that wait for a signature. -/
structure NonceStore where
  ttl : Int
  entries : Table String NonceEntry

/-- Why `Consume` refuses a nonce. -/
inductive NonceError where
  | notFound
  | expired
deriving DecidableEq, Repr

namespace NonceStore

/-- `Issue` — bind a fresh nonce to an owner. -/
def issue (s : NonceStore) (now : Time) (owner nonceHex : String) :
    Except Errorf (Time × NonceStore) :=
  if owner = "" then .error ⟨"owner is required to issue a nonce", []⟩
  else
    let expiresAt := now + s.ttl
    .ok (expiresAt, { s with entries := s.entries.set nonceHex ⟨owner, expiresAt⟩ })

/-- `Consume` — a known nonce is removed whether or not it has expired. -/
def consume (s : NonceStore) (now : Time) (nonceHex : String) :
    Except NonceError NonceEntry × NonceStore :=
  match s.entries.get nonceHex with
  | none => (.error .notFound, s)
  | some entry =>
    let s := { s with entries := s.entries.delete nonceHex }
    if now < entry.expiresAt then (.ok entry, s) else (.error .expired, s)

/-- `Sweep` — remove every expired entry. -/
def sweep (s : NonceStore) (now : Time) : NonceStore :=
  { s with entries := s.entries.filterMap fun _ entry =>
      if now < entry.expiresAt then some entry else none }

end NonceStore

/-- A tenant made by a login. -/
structure TenantRecord where
  tenantID : String
  owner : String
  allowedSubaccounts : List UInt32
  killSwitch : Bool
  expiresAt : Time
deriving DecidableEq, Repr

/-- The tenants made by logins, by id and by bearer. -/
structure DynamicTenantStore where
  ttl : Int
  defaultAllowedSubaccounts : List UInt32
  byBearer : Table String String
  byTenant : Table String TenantRecord

/-- Why a bearer or tenant id does not resolve. -/
inductive BearerError where
  | notFound
  | expired
deriving DecidableEq, Repr

namespace DynamicTenantStore

/-- `Mint` — a new tenant with its own id and bearer, whatever tenants the owner already
has. -/
def mint (s : DynamicTenantStore) (now : Time) (owner bearer tenantHex : String) :
    Except Errorf (TenantRecord × DynamicTenantStore) :=
  if owner = "" then .error ⟨"owner is required to mint a tenant", []⟩
  else
    let tenantID := "auto-" ++ tenantHex
    let record : TenantRecord :=
      { tenantID, owner, allowedSubaccounts := s.defaultAllowedSubaccounts, killSwitch := false,
        expiresAt := now + s.ttl }
    .ok (record, { s with
      byBearer := s.byBearer.set bearer tenantID
      byTenant := s.byTenant.set tenantID record })

variable (s : DynamicTenantStore) (now : Time)

/-- The tenant of an id, unless it has expired. -/
def lookupByTenantID (tenantID : String) : Except BearerError TenantRecord :=
  match s.byTenant.get tenantID with
  | none => .error .notFound
  | some record => if now < record.expiresAt then .ok record else .error .expired

/-- The tenant of a bearer, unless it has expired. -/
def lookupByBearer (bearer : String) : Except BearerError TenantRecord :=
  match s.byBearer.get bearer with
  | none => .error .notFound
  | some tenantID => s.lookupByTenantID now tenantID

/-- One iteration of `Sweep`. -/
def sweepEntry (s : DynamicTenantStore) (entry : String × String) : DynamicTenantStore :=
  match s.lookupByTenantID now entry.2 with
  | .ok _ => s
  | .error _ => { s with
      byBearer := s.byBearer.delete entry.1
      byTenant := s.byTenant.delete entry.2 }

/-- `Sweep` — remove the bearers whose tenant is missing or expired, and those tenants. -/
def sweep : DynamicTenantStore :=
  s.byBearer.pairs.foldl (sweepEntry now) s

end DynamicTenantStore

/-- The bearer of a session. -/
structure SessionEntry where
  bearer : String
  expiresAt : Time
deriving DecidableEq, Repr

/-- The bearers of the open sessions. -/
structure SessionBearers where
  ttl : Int
  entries : Table String SessionEntry

namespace SessionBearers

/-- `Bind` — overwrite the session's binding; empty ids and bearers are ignored. -/
def bind (s : SessionBearers) (now : Time) (sessionID bearer : String) : SessionBearers :=
  if sessionID = "" ∨ bearer = "" then s
  else { s with entries := s.entries.set sessionID ⟨bearer, now + s.ttl⟩ }

/-- `Lookup` — the bound bearer, or the empty string. -/
def lookup (s : SessionBearers) (now : Time) (sessionID : String) : String :=
  if sessionID = "" then ""
  else
    match s.entries.get sessionID with
    | none => ""
    | some entry => if now < entry.expiresAt then entry.bearer else ""

/-- `Sweep` — remove expired bindings. -/
def sweep (s : SessionBearers) (now : Time) : SessionBearers :=
  { s with entries := s.entries.filterMap fun _ entry =>
      if now < entry.expiresAt then some entry else none }

end SessionBearers

/-- The window of an address. -/
structure IpEntry where
  count : Int
  windowStart : Time
deriving DecidableEq, Repr

/-- A fixed window for each address. -/
structure IPRateLimiter where
  max : Int
  window : Int
  entries : Table String IpEntry

/-- `NewIPRateLimiter`. The clock is passed to each call. -/
def newIPRateLimiter (max window : Int) : IPRateLimiter := ⟨max, window, ∅⟩

namespace IPRateLimiter

/-- `Allow` — count the call, and say whether it is within the window's maximum. -/
def allow (l : IPRateLimiter) (now : Time) (ip : String) : Bool × IPRateLimiter :=
  if ip = "" then (true, l)
  else
    let renewed := { l with entries := l.entries.set ip ⟨1, now⟩ }
    match l.entries.get ip with
    | none => (true, renewed)
    | some e =>
      if now - e.windowStart ≥ l.window then (true, renewed)
      else
        (decide (e.count + 1 ≤ l.max),
          { l with entries := l.entries.set ip { e with count := e.count + 1 } })

/-- `Sweep` — drop the counters of windows that have elapsed. -/
def sweep (l : IPRateLimiter) (now : Time) : IPRateLimiter :=
  { l with entries := l.entries.filterMap fun _ e =>
      if now - e.windowStart ≥ l.window then none else some e }

end IPRateLimiter

/-- `t.Unix()` — whole seconds since the epoch. -/
def unixSeconds (t : Time) : Int := t / 1000000000

/-- The text a wallet signs. -/
def buildChallenge (chainID nonceHex : String) (expiresAt : Time) : String :=
  "svpchain-mcp-auth-v1:" ++ chainID ++ ":" ++ nonceHex ++ ":" ++
    String.ofList (Decimal.print (unixSeconds expiresAt))

/-- How every challenge starts. -/
def challengePrefix : String := "svpchain-mcp-auth-v1:"

/-- The parts of a challenge. -/
structure ParsedChallenge where
  chainID : String
  nonceHex : String
  expiresAt : Time
deriving DecidableEq, Repr

/-- Read a challenge back. -/
def parseChallenge (text : String) : Except Errorf ParsedChallenge :=
  if challengePrefix.toList.isPrefixOf text.toList = false then
    .error ⟨"challenge must start with %q", [challengePrefix]⟩
  else
    match Strings.splitN ':' 4 text.toList with
    | [_, chainID, nonceHex, expires] =>
      match Decimal.readInt64 expires with
      | none => .error ⟨"parse expires_at %q: %w", [String.ofList expires]⟩
      | some expiresUnix =>
        if chainID = [] then .error ⟨"challenge chain_id is empty", []⟩
        else if nonceHex = [] then .error ⟨"challenge nonce is empty", []⟩
        else
          .ok ⟨String.ofList chainID, String.ofList nonceHex, expiresUnix * 1000000000⟩
    | _ =>
      .error ⟨"challenge malformed: expected %s<chain_id>:<nonce>:<expires_at>",
        [challengePrefix]⟩

/-- The stores behind the handshake. -/
structure AuthState where
  nonces : NonceStore
  tenants : DynamicTenantStore
  sessions : SessionBearers
  ipLimit : IPRateLimiter

/-- What the handshake is configured with and what it takes from elsewhere. -/
structure AuthDeps where
  chainID : String
  /-- `auth.RecoverOwner`: the address a signature of a message recovers to. -/
  recoverOwner : String → Bytes → Except String String

/-- The result of a handshake call: an answer or an error. -/
abbrev AuthResult (α : Type) := Except Errorf α

/-- The answer of `AuthChallenge`. -/
structure AuthChallengeOutput where
  /-- The text to sign. -/
  challenge : String
  nonce : String
  expiresAt : Int
deriving DecidableEq, Repr

/-- The answer of `AuthVerify`. -/
structure AuthVerifyOutput where
  bearerToken : String
  owner : String
  expiresAt : Int
deriving DecidableEq, Repr

namespace AuthState

/-- `AuthChallenge` at an instant, with the random nonce it would draw. -/
def authChallenge (deps : AuthDeps) (s : AuthState) (now : Time) (ip owner nonceHex : String) :
    AuthResult AuthChallengeOutput × AuthState :=
  let (allowed, ipLimit) := s.ipLimit.allow now ip
  let s := { s with ipLimit }
  if allowed = false then (.error ⟨"rate limit exceeded", []⟩, s)
  else if owner = "" then (.error ⟨"owner is required", []⟩, s)
  else
    match s.nonces.issue now owner nonceHex with
    | .error e => (.error ⟨"issue nonce: %w", [e.format]⟩, s)
    | .ok (expiresAt, nonces) =>
      (.ok
        { challenge := buildChallenge deps.chainID nonceHex expiresAt, nonce := nonceHex,
          expiresAt := unixSeconds expiresAt }, { s with nonces })

/-- The part of `AuthVerify` behind `Consume`: does the signature recover to the owner the
nonce was issued for? -/
def verifySignature (deps : AuthDeps) (nonce signature : String) (entry : NonceEntry) :
    AuthResult Unit :=
  match Base64.decode signature.toList with
  | none => .error ⟨"decode signature base64: %w", []⟩
  | some sig =>
    match deps.recoverOwner (buildChallenge deps.chainID nonce entry.expiresAt) sig with
    | .error e => .error ⟨"recover address from signature: %w", [e]⟩
    | .ok recovered =>
      if recovered ≠ entry.owner then
        .error ⟨"recovered address does not match the owner this nonce was issued to", []⟩
      else .ok ()

/-- `AuthVerify` at an instant, with the random bearer and tenant id it would draw. -/
def authVerify (deps : AuthDeps) (s : AuthState) (now : Time)
    (nonce signature sessionID bearer tenantHex : String) :
    AuthResult AuthVerifyOutput × AuthState :=
  let (consumed, nonces) := s.nonces.consume now nonce
  let s := { s with nonces }
  match consumed with
  | .error .notFound => (.error ⟨"nonce not found or already used", []⟩, s)
  | .error .expired => (.error ⟨"nonce expired; re-run auth_challenge", []⟩, s)
  | .ok entry =>
    match verifySignature deps nonce signature entry with
    | .error e => (.error e, s)
    | .ok () =>
      match s.tenants.mint now entry.owner bearer tenantHex with
      | .error e => (.error ⟨"mint tenant: %w", [e.format]⟩, s)
      | .ok (record, tenants) =>
        (.ok
          { bearerToken := bearer, owner := entry.owner,
            expiresAt := unixSeconds record.expiresAt },
          { s with tenants, sessions := s.sessions.bind now sessionID bearer })

end AuthState

/-- The tenant a request is made for. -/
structure TenantContext where
  tenantID : String
  owner : String
deriving DecidableEq, Repr

/-- What a request's context carries: the tenant, if the caller is attached to one. -/
abbrev Context := Option TenantContext

/-- The tenant of a bearer, if there is one. -/
def lookupTenantByToken (tenants : DynamicTenantStore) (now : Time) (token : String) :
    Context :=
  match tenants.lookupByBearer now token with
  | .error _ => none
  | .ok record => some ⟨record.tenantID, record.owner⟩

/-- The headers of an incoming request the middleware reads; an absent header is empty. -/
structure RequestHeaders where
  authorization : String
  /-- `Mcp-Session-Id`. -/
  sessionID : String
deriving DecidableEq, Repr

/-- `strings.CutPrefix(h, "Bearer ")` — the token of a bearer header. -/
def bearerToken (authorization : String) : Option String :=
  (authorization.toList.dropPrefix? "Bearer ".toList).map String.ofList

/-- The tenant `authReceivingMiddleware` attaches to a request: the explicit bearer first, then
the session's bearer. -/
def resolveTenant (s : AuthState) (now : Time) (headers : RequestHeaders) :
    Context :=
  let explicit := (bearerToken headers.authorization).bind (lookupTenantByToken s.tenants now)
  match explicit with
  | some tc => some tc
  | none =>
    if headers.sessionID = "" then none
    else
      let bearer := s.sessions.lookup now headers.sessionID
      if bearer = "" then none else lookupTenantByToken s.tenants now bearer

/-- The calls that reach the stores: the two tools, the sweeps and the middleware. -/
inductive AuthOp where
  /-- `AuthChallenge` from an address, for an owner. -/
  | challenge (ip owner : String)
  | verify (nonce signature sessionID : String)
  | sweepNonces
  | sweepTenants
  | sweepSessions
  | sweepLimits
  /-- `authReceivingMiddleware` on an incoming request. -/
  | request (headers : RequestHeaders)
deriving DecidableEq, Repr

/-- What each call returns. -/
def AuthReply : AuthOp → Type
  | .challenge _ _ => AuthResult AuthChallengeOutput
  | .verify _ _ _ => AuthResult AuthVerifyOutput
  | .request _ => Context
  | .sweepNonces | .sweepTenants | .sweepSessions | .sweepLimits => Unit

/-- The clock and the randomness at a call. -/
structure AuthEnv where
  now : Time
  /-- The nonce `Issue` would draw. -/
  nonceHex : String
  /-- The bearer `Mint` would draw. -/
  bearer : String
  /-- The tenant id `Mint` would draw, without its prefix. -/
  tenantHex : String
deriving DecidableEq, Repr

/-- What each call does. -/
def performAuth (deps : AuthDeps) (s : AuthState) (env : AuthEnv) :
    (op : AuthOp) → AuthReply op × AuthState
  | .challenge ip owner => s.authChallenge deps env.now ip owner env.nonceHex
  | .verify nonce signature sessionID =>
    s.authVerify deps env.now nonce signature sessionID env.bearer env.tenantHex
  | .sweepNonces => ((), { s with nonces := s.nonces.sweep env.now })
  | .sweepTenants => ((), { s with tenants := s.tenants.sweep env.now })
  | .sweepSessions => ((), { s with sessions := s.sessions.sweep env.now })
  | .sweepLimits => ((), { s with ipLimit := s.ipLimit.sweep env.now })
  | .request headers => (resolveTenant s env.now headers, s)

/-- The handshake as a system. -/
def handshake (deps : AuthDeps) : System AuthState AuthEnv AuthOp AuthReply :=
  ⟨performAuth deps⟩

end SvpMcp
