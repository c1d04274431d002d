import SvpMcp.Model.Auth
import SvpMcp.Model.Transaction

/-!
# Tenant policy, idempotency and audit

The `policy` package: the engine, the table of claimed client ids, and the rows of the audit log.
Whether the rate limiter lets a call through is left to the environment.
-/

namespace SvpMcp

open Calendar

/-- What a tenant may do, and for whom. -/
structure TenantPolicy where
  tenantID : String
  owner : String
  allowedSubaccounts : List UInt32
  killSwitch : Bool
deriving DecidableEq, Repr

/-- The table of `NewEngine`, indexed by tenant id. -/
def newEngine (tenants : List TenantPolicy) : Table String TenantPolicy :=
  tenants.foldl (fun table tp => table.set tp.tenantID tp) ∅

/-- The policy of a tenant made by a login. -/
def lookupTenantPolicy (store : DynamicTenantStore) (now : Time) (tenantID : String) :
    Option TenantPolicy :=
  match store.lookupByTenantID now tenantID with
  | .error _ => none
  | .ok rec =>
    some { tenantID := rec.tenantID, owner := rec.owner,
           allowedSubaccounts := rec.allowedSubaccounts, killSwitch := rec.killSwitch }

/-- `Engine.Tenant` — the static table first, then the minted tenants. -/
def engineTenant (perTenant : Table String TenantPolicy) (dynamic : DynamicTenantStore)
    (now : Time) (tenantID : String) : Except Err TenantPolicy :=
  match perTenant.get tenantID with
  | some tp => .ok tp
  | none =>
    match lookupTenantPolicy dynamic now tenantID with
    | some tp => .ok tp
    | none => .error (.errorf ⟨"unknown tenant %q", [tenantID]⟩)

/-- `policy.Idempotency` — the claimed keys and when each becomes free again. -/
structure Idempotency where
  ttl : Int
  /-- The end of each claim. -/
  seen : Table String Time

/-- `DefaultIdempotencyTTL`, in nanoseconds. -/
def defaultIdempotencyTTL : Int := 10 * 60 * 1000000000

namespace Idempotency

/-- `NewIdempotency`. -/
def new (ttl : Int) : Idempotency :=
  ⟨if ttl = 0 then defaultIdempotencyTTL else ttl, ∅⟩

/-- The locked part of `Idempotency.Claim`, with the instant read before the lock. -/
def claim (i : Idempotency) (tenantID clientID : String) (now : Time) :
    Except Err Unit × Idempotency :=
  let key := tenantID ++ "|" ++ clientID
  let claimed : Except Err Unit × Idempotency :=
    (.ok (), { i with seen := i.seen.set key (now + i.ttl) })
  match i.seen.get key with
  | some exp =>
    if exp > now then
      (.error (.errorf ⟨"duplicate broadcast: client_id %s already used for tenant %s",
        [clientID, tenantID]⟩), i)
    else claimed
  | none => claimed

end Idempotency

/-- The outcome of an audited call. -/
inductive AuditOutcome where
  | broadcast
  | policyDenied
  | chainReject
deriving DecidableEq, Repr

/-- `policy.AuditEntry`, with the fields the handlers set; `Append` adds the time. -/
structure AuditEntry where
  tenantID : String
  owner : String
  tool : String
  clientID : String
  txHash : String
  /-- The chain's code; zero means accepted. -/
  code : UInt32
  outcome : AuditOutcome
  /-- The chain's explanation. -/
  reason : String
deriving DecidableEq, Repr

end SvpMcp
