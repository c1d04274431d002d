import Mathlib.Data.List.Sort
import SvpMcp.Lib.Decimal
import SvpMcp.Lib.Keccak
import SvpMcp.Lib.Table

/-!
# The bridge's route registry

The routes of `bridge/registry.go`: what loading accepts, how a chain argument is
resolved in either direction and how a token argument selects a route.
-/

namespace SvpMcp

/-- `bridge.Route`, with the fields the tools read. -/
structure Route where
  /-- The chain the deposit runs on. -/
  srcChainID : UInt64
  /-- The chain the asset is released on. -/
  targetChainID : UInt64
  /-- The asset on the source chain; zero is the native coin. -/
  srcToken : Address
  /-- The asset on the target chain; zero is the native coin. -/
  targetToken : Address
  symbol : String
  decimals : Int
deriving DecidableEq

/-- The route starts at the native coin. -/
def Route.nativeSource (r : Route) : Bool := r.srcToken = .zero

/-- `rawRoute` — one element of the routes file. -/
structure RawRoute where
  srcChain : String
  srcChainId : UInt64
  targetChain : String
  targetChainId : UInt64
  srcToken : String
  targetToken : String
  symbol : String
  decimals : Int
deriving DecidableEq

/-- The routes and the names of their chains. -/
structure Registry where
  /-- The routes, in file order. -/
  routes : List Route
  /-- The first name seen of each chain. -/
  idToName : Table UInt64 String
  /-- The chain last seen under each name, in lower case. -/
  nameToID : Table String UInt64

namespace Registry

/-- `%d` of a chain id. -/
def formatID (id : UInt64) : String := String.ofList (Decimal.digits id.toNat)

/-- The checks `newRegistry` makes on one element. -/
def checkRaw (i : Nat) (r : RawRoute) : Except Errorf Unit := do
  let position := String.ofList (Decimal.digits i)
  refuseIf (r.srcChainId = 0 ∨ r.targetChainId = 0)
    ⟨"route[%d] (%s->%s) has a zero chain id", [position, r.srcChain, r.targetChain]⟩
  refuseIf (Address.isHex r.srcToken.toList = false)
    ⟨"route[%d] srcToken %q is not a 0x address", [position, r.srcToken]⟩
  refuseIf (Address.isHex r.targetToken.toList = false)
    ⟨"route[%d] targetToken %q is not a 0x address", [position, r.targetToken]⟩
  refuseIf (Strings.trimSpace r.symbol.toList = [])
    ⟨"route[%d] (%s->%s) has an empty symbol", [position, r.srcChain, r.targetChain]⟩
  refuseIf (r.decimals < 0 ∨ 77 < r.decimals)
    ⟨"route[%d] (%s) decimals %d out of range",
      [position, r.symbol, String.ofList (Decimal.print r.decimals)]⟩

/-- The route of one element. -/
def RawRoute.toRoute (r : RawRoute) : Route where
  srcChainID := r.srcChainId
  targetChainID := r.targetChainId
  srcToken := .ofHex r.srcToken
  targetToken := .ofHex r.targetToken
  symbol := r.symbol
  decimals := r.decimals

/-- The end of `newRegistry`'s turn: another route of the same leg must differ in its token and,
without regard to case, in its symbol. -/
def checkDuplicate (routes : List Route) (route : Route) : Except Errorf Unit := do
  let leg := routes.filter fun other =>
    other.srcChainID = route.srcChainID ∧ other.targetChainID = route.targetChainID
  refuseIf (leg.any fun other => other.srcToken = route.srcToken)
    ⟨"duplicate route for src %d -> target %d token %s",
      [formatID route.srcChainID, formatID route.targetChainID, route.srcToken.hex]⟩
  refuseIf (leg.any fun other => Strings.toLower other.symbol = Strings.toLower route.symbol)
    ⟨"duplicate route for src %d -> target %d symbol %s",
      [formatID route.srcChainID, formatID route.targetChainID, route.symbol]⟩

variable (reg : Registry)

/-- Remember the name of a chain. -/
def learnChain (name : String) (id : UInt64) : Registry :=
  if name = "" then reg
  else
    { reg with
      idToName := if (reg.idToName.get id).isNone then reg.idToName.set id name else reg.idToName
      nameToID := reg.nameToID.set (Strings.toLower name) id }

/-- The loop of `newRegistry`, from a position on. -/
def addRoutes : Nat → List RawRoute → Registry → Except Errorf Registry
  | _, [], reg => .ok reg
  | i, r :: rest, reg => do
    checkRaw i r
    checkDuplicate reg.routes (RawRoute.toRoute r)
    let reg := { reg with routes := reg.routes ++ [RawRoute.toRoute r] }
    let reg := (reg.learnChain r.srcChain r.srcChainId).learnChain r.targetChain r.targetChainId
    addRoutes (i + 1) rest reg

/-- `newRegistry`. -/
def ofRaw (raws : List RawRoute) : Except Errorf Registry :=
  addRoutes 0 raws ⟨[], ∅, ∅⟩

/-- The routes between two chains. -/
def routesFor (src target : UInt64) : List Route :=
  reg.routes.filter fun r => r.srcChainID = src ∧ r.targetChainID = target

/-- The chains `AvailableTargets` and `AvailableSources` list: the distinct ones at the far end of
the matching routes, by id. -/
def farChains (matching : Route → Bool) (far : Route → UInt64) : List (String × UInt64) :=
  let ids := ((reg.routes.filter matching).map far).dedup
  (ids.insertionSort (· ≤ ·)).map fun id => ((reg.idToName.get id).getD "", id)

/-- The chains that can be reached from a chain. -/
def availableTargets (srcChainID : UInt64) : List (String × UInt64) :=
  reg.farChains (fun r => r.srcChainID = srcChainID) (·.targetChainID)

/-- The chains a chain can be reached from. -/
def availableSources (targetChainID : UInt64) : List (String × UInt64) :=
  reg.farChains (fun r => r.targetChainID = targetChainID) (·.srcChainID)

/-- The chains as an error lists them. -/
def chainHint (chains : List (String × UInt64)) : String :=
  if chains = [] then "(none configured)"
  else Strings.join ", " (chains.map fun (name, id) => name ++ " (" ++ formatID id ++ ")")

/-- The tokens as an error lists them. -/
def tokenHint (routes : List Route) : String :=
  Strings.join ", " ((routes.map (·.symbol)).insertionSort (· ≤ ·))

/-- The chain a text names: a number, or a known name. -/
def namedChain (q : List Char) : Option UInt64 :=
  match Decimal.readUint64 q with
  | some id => some id
  | none => reg.nameToID.get (Strings.toLower (String.ofList q))

/-- `resolveChain` — the chain at the other end of a leg whose one end is fixed. -/
def resolveChain (query : String) (fixedID : UInt64) (fixedIsTarget : Bool) :
    Except Errorf UInt64 :=
  let noun := if fixedIsTarget then "source" else "destination"
  let hint := chainHint
    (if fixedIsTarget then reg.availableSources fixedID else reg.availableTargets fixedID)
  let q := Strings.trimSpace query.toList
  if q = [] then .error ⟨"%s chain is required (e.g. %s)", [noun, hint]⟩
  else
    match reg.namedChain q with
    | none => .error ⟨"unknown %s chain %q; available: %s", [noun, query, hint]⟩
    | some id =>
      if id = fixedID then
        .error ⟨"%s chain %q is the same as the %s chain — nothing to bridge",
          [noun, query, if fixedIsTarget then "target" else "source"]⟩
      else
        let (src, target) := if fixedIsTarget then (id, fixedID) else (fixedID, id)
        if reg.routesFor src target = [] then
          .error ⟨"no bridge route %s chain %q; available %ss: %s",
            [if fixedIsTarget then "from" else "to", query, noun, hint]⟩
        else .ok id

/-- The target chain of a query. -/
def resolveDestChain (query : String) (srcChainID : UInt64) : Except Errorf UInt64 :=
  reg.resolveChain query srcChainID false

/-- The source chain of a query. -/
def resolveSourceChain (query : String) (targetChainID : UInt64) : Except Errorf UInt64 :=
  reg.resolveChain query targetChainID true

/-- The route of a leg that a predicate selects, or an error with the leg's tokens. -/
def selectRoute (routes : List Route) (selected : Route → Bool) (notFound : String)
    (operands : List String) : Except Errorf Route :=
  match routes.find? selected with
  | some r => .ok r
  | none => .error ⟨notFound, operands ++ [tokenHint routes]⟩

/-- The route of a token between two chains. -/
def lookup (srcChainID targetChainID : UInt64) (tokenQuery : String) : Except Errorf Route :=
  let q := String.ofList (Strings.trimSpace tokenQuery.toList)
  let routes := reg.routesFor srcChainID targetChainID
  let target := formatID targetChainID
  if routes = [] then
    .error ⟨"no bridge routes from chain %d to chain %d", [formatID srcChainID, target]⟩
  else if Strings.toLower q = "" ∨ Strings.toLower q = "native" then
    selectRoute routes (·.nativeSource)
      "native coin is not bridgeable to chain %d; bridgeable tokens: %s" [target]
  else if Address.isHex q.toList then
    selectRoute routes (fun r => r.srcToken = .ofHex q)
      "token %s is not bridgeable to chain %d; bridgeable tokens: %s"
      [(Address.ofHex q).hex, target]
  else
    selectRoute routes (fun r => Strings.equalFold r.symbol q)
      "token %q is not bridgeable to chain %d; bridgeable tokens: %s" [tokenQuery, target]

end Registry

end SvpMcp
