import SvpMcp.Model.Amounts
import SvpMcp.Model.Server

/-!
# The transfer-out cap tools

`tools/funds_caps.go`: both tools call the store last, so their handlers return what they ask of
it.
-/

namespace SvpMcp

open Calendar Handler

/-- The arguments of `set_transfer_out_cap`. -/
structure SetTransferOutCapInput where
  symbol : String
  /-- The cap in human units; "0" takes it away. -/
  amount : String
deriving DecidableEq, Repr

/-- What `set_transfer_out_cap` returns. -/
structure SetTransferOutCapOutput where
  symbol : String
  cap : String
deriving DecidableEq, Repr

/-- The call of the store that `SetTransferOutCap` makes. -/
inductive CapChange where
  | setUnlimited (owner symbol : String)
  | setCap (owner : String) (c : SymbolCap)
deriving DecidableEq

/-- The store after the call. -/
def CapChange.apply (store : MemoryTransferOutStore) (disk : Disk) :
    CapChange → MemoryTransferOutStore × Disk
  | .setUnlimited owner symbol => store.setUnlimited disk owner symbol
  | .setCap owner c => store.setCap disk owner c

/-- The error of a symbol that is not registered. -/
def unknownSymbol (symbol : String) : Err :=
  .errorf ⟨"unknown token symbol %q (known: svp, usdc, usdv)", [symbol]⟩

/-- `SetTransferOutCap` behind the authorization. -/
def capChange (owner : String) (input : SetTransferOutCapInput) :
    Except Fault (CapChange × SetTransferOutCapOutput) :=
  match assetForSymbol input.symbol with
  | none => .error (.error (unknownSymbol input.symbol))
  | some a =>
    if Strings.trimSpace input.amount.toList = ['0'] then
      .ok (.setUnlimited owner a.symbol, ⟨a.symbol, "unlimited"⟩)
    else do
      let base ← wrapFault "amount: %w" (humanToBaseUnits input.amount a.decimals.toInt)
      let cap ← humanAmount base a.decimals.toInt
      return (.setCap owner ⟨a.symbol, a.decimals, some base⟩, ⟨a.symbol, cap⟩)

/-- `SetTransferOutCap` up to the call of the store. -/
def setTransferOutCap (ctx : Context) (input : SetTransferOutCapInput) :
    Handler (CapChange × SetTransferOutCapOutput) := do
  let tp ← authorize ctx "set_transfer_out_cap"
  ofCall (capChange tp.owner input)

/-- The server once a call of `SetTransferOutCap` has returned; a failed one calls no store. -/
def World.changeCap (w : World) : Except Fault (CapChange × SetTransferOutCapOutput) → World
  | .ok (change, _) =>
    let (transferOut, disk) := change.apply w.transferOut w.disk
    { w with transferOut, disk }
  | .error _ => w

/-- The arguments of `get_transfer_out_cap`. -/
structure GetTransferOutCapInput where
  /-- The token; empty is all of them. -/
  symbol : String
deriving DecidableEq, Repr

/-- The assets that are asked for. -/
def askedAssets (input : GetTransferOutCapInput) : Except Err (List AssetSymbol) :=
  let s := Strings.trimSpace input.symbol.toList
  if s = [] then .ok transferOutAssets
  else
    match assetForSymbol (String.ofList s) with
    | some a => .ok [a]
    | none => .error (unknownSymbol input.symbol)

/-- `GetTransferOutCap` up to the report: the owner and the assets of `transferOutCapView`. -/
def getTransferOutCap (ctx : Context) (input : GetTransferOutCapInput) :
    Handler (String × List AssetSymbol) := do
  let tp ← authorize ctx "get_transfer_out_cap"
  let assets ← ofResult (askedAssets input)
  return (tp.owner, assets)

/-- A cap and what is left of it, as text. -/
structure TransferOutCapDTO where
  symbol : String
  cap : String
  usedToday : String
  remaining : String
deriving DecidableEq, Repr

/-- The entry of an asset, from its usage and its cap. -/
def capDTO (a : AssetSymbol) (used : Int) (found : Option SymbolCap) :
    Except Fault TransferOutCapDTO := do
  let usedToday ← humanOut used a.decimals.toInt
  match found.bind (·.capBase) with
  | none => return ⟨a.symbol, "unlimited", usedToday, "unlimited"⟩
  | some capBase => do
    let rem := if capBase - used < 0 then 0 else capBase - used
    let cap ← humanOut capBase a.decimals.toInt
    let remaining ← humanOut rem a.decimals.toInt
    return ⟨a.symbol, cap, usedToday, remaining⟩

/-- The entries so far, or the panic of the rendering, and the store the reads leave. -/
abbrev CapView : Type := Except Fault (List TransferOutCapDTO) × MemoryTransferOutStore × Disk

/-- One turn of the loop of `transferOutCapView`. -/
def addCapEntry (now : Time) (owner : String) (view : CapView) (a : AssetSymbol) : CapView :=
  match view with
  | (.error fault, store, disk) => (.error fault, store, disk)
  | (.ok out, store, disk) =>
    let (used, store, disk) := store.usedToday disk now owner a.symbol
    ((capDTO a used (store.cap owner a.symbol)).map fun dto => out ++ [dto], store, disk)

/-- `transferOutCapView` — one entry for each asset. -/
def transferOutCapView (store : MemoryTransferOutStore) (disk : Disk) (now : Time)
    (owner : String) (assets : List AssetSymbol) : CapView :=
  assets.foldl (addCapEntry now owner) (.ok [], store, disk)

end SvpMcp
