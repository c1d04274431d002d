import Mathlib.Data.List.Sort
import SvpMcp.Lib.Calendar
import SvpMcp.Lib.Json
import SvpMcp.Lib.Strings
import SvpMcp.Lib.Table

/-!
# The transfer-out store

`limits.MemoryTransferOutStore`: daily caps and usage per wallet and symbol, written through to a
JSON file. A `big.Int` pointer is an `Option Int`; the instant of a call is an argument.
-/

namespace SvpMcp

open Calendar

/-- `limits.SymbolCap` — one token's daily cap. -/
structure SymbolCap where
  symbol : String
  decimals : Int64
  /-- The cap in base units; nil leaves the symbol uncapped. -/
  capBase : Option Int
deriving DecidableEq

/-- `limits.ErrSymbolCapExceeded`, with amounts rendered in human units. -/
structure ErrSymbolCapExceeded where
  symbol : String
  limit : String
  requested : String
  used : String
deriving DecidableEq, Repr

/-- `baseToHuman` — base units as a decimal with trailing zeros trimmed. -/
def baseToHuman (base : Int) (decimals : Int64) : String :=
  if decimals ≤ 0 then String.ofList (Decimal.print base)
  else
    let places := decimals.toInt.toNat
    let whole := base.natAbs / 10 ^ places
    let frac := base.natAbs % 10 ^ places
    let out :=
      if frac > 0 then
        Decimal.digits whole ++ '.' :: Strings.trimRight (Decimal.padded places frac) '0'
      else Decimal.digits whole
    String.ofList (if base < 0 then '-' :: out else out)

/-- `persistedSymbolCap` — a cap on disk, with the amount as a decimal string. -/
structure PersistedSymbolCap where
  symbol : String
  decimals : Int64
  capBase : String
deriving DecidableEq

/-- `persistedTransferOut` — the snapshot on disk. -/
structure PersistedTransferOut where
  day : String
  /-- JSON field `caps`: owner, then symbol. -/
  caps : Table String (Table String PersistedSymbolCap)
  /-- JSON field `used`: owner, then symbol. -/
  used : Table String (Table String String)

namespace PersistedTransferOut

/-- The JSON object of a map, with its keys in order. -/
def mapObject {α : Type} (encode : α → Json) (map : Table String α) : Json :=
  .obj ((map.pairs.map fun pair => (pair.1, encode pair.2)).insertionSort
    fun left right => left.1 ≤ right.1)

/-- The JSON object of a persisted cap. -/
def encodeCap (c : PersistedSymbolCap) : Json :=
  .obj [("symbol", .str c.symbol), ("decimals", .int c.decimals.toInt),
    ("cap_base", .str c.capBase)]

/-- The JSON object of a snapshot. -/
def encode (snap : PersistedTransferOut) : Json :=
  .obj [("day", .str snap.day), ("caps", mapObject (mapObject encodeCap) snap.caps),
    ("used", mapObject (mapObject .str) snap.used)]

/-- The rune JSON field names are compared by: ASCII letters in upper case, and the two other
runes that fold to an ASCII letter. -/
def foldRune (c : Char) : Char :=
  if c = '\u017f' then 'S' else if c = '\u212a' then 'K' else c.toUpper

/-- A JSON key selects a struct field when the names are equal under case folding. -/
def selects (key field : String) : Bool :=
  key.toList.map foldRune = field.toList.map foldRune

/-- Decode into a string; null leaves the old value. -/
def decodeString (old : String) : Json → Option String
  | .str text => some text
  | .null => some old
  | _ => none

/-- Decode into an `int64`; null leaves the old value. -/
def decodeInt64 (old : Int64) : Json → Option Int64
  | .num literal => do
    let n ← Decimal.read literal.text
    if Int64.minValue.toInt ≤ n ∧ n ≤ Int64.maxValue.toInt then some (Int64.ofInt n) else none
  | .null => some old
  | _ => none

/-- Decode into a map, on top of its old entries; null makes the map nil. -/
def decodeMap {α : Type} (decode : Json → Option α) (old : Table String α) :
    Json → Option (Table String α)
  | .obj members =>
    members.foldlM (fun map member => (decode member.2).map (map.set member.1)) old
  | .null => some ∅
  | _ => none

/-- Decode one member of a persisted cap; other fields are ignored. -/
def decodeCapField (c : PersistedSymbolCap) (member : String × Json) :
    Option PersistedSymbolCap :=
  if selects member.1 "symbol" then
    (decodeString c.symbol member.2).map fun symbol => { c with symbol }
  else if selects member.1 "decimals" then
    (decodeInt64 c.decimals member.2).map fun decimals => { c with decimals }
  else if selects member.1 "cap_base" then
    (decodeString c.capBase member.2).map fun capBase => { c with capBase }
  else some c

/-- Decode a persisted cap. -/
def decodeCap : Json → Option PersistedSymbolCap
  | .obj members => members.foldlM decodeCapField ⟨"", 0, ""⟩
  | .null => some ⟨"", 0, ""⟩
  | _ => none

/-- Decode one member of a snapshot; other fields are ignored. -/
def decodeField (snap : PersistedTransferOut) (member : String × Json) :
    Option PersistedTransferOut :=
  if selects member.1 "day" then
    (decodeString snap.day member.2).map fun day => { snap with day }
  else if selects member.1 "caps" then
    (decodeMap (decodeMap decodeCap ∅) snap.caps member.2).map fun caps => { snap with caps }
  else if selects member.1 "used" then
    (decodeMap (decodeMap (decodeString "") ∅) snap.used member.2).map fun used =>
      { snap with used }
  else some snap

/-- `json.Unmarshal` into a snapshot. -/
def decode : Json → Option PersistedTransferOut
  | .obj members => members.foldlM decodeField ⟨"", ∅, ∅⟩
  | .null => some ⟨"", ∅, ∅⟩
  | _ => none

end PersistedTransferOut

/-- The files the store can see, and whether the file system serves it. -/
structure Disk where
  /-- Contents by path. -/
  files : Table String String
  /-- Existing files can be read. -/
  readable : Bool
  writable : Bool
  renamable : Bool

namespace Disk

/-- `os.WriteFile` to a temporary name followed by `os.Rename`; a failing step leaves the
target as it was. -/
def replace (disk : Disk) (path contents : String) : Disk :=
  if disk.writable = false then disk
  else
    let tmp := path ++ ".tmp"
    let written := { disk with files := disk.files.set tmp contents }
    if disk.renamable = false then written
    else { disk with files := (written.files.delete tmp).set path contents }

end Disk

/-- The caps and what has gone out on each one's day. -/
structure MemoryTransferOutStore where
  /-- The write-through file; empty disables persistence. -/
  path : String
  /-- UTC date `used` is valid for; empty before the first rollover. -/
  day : String
  /-- Finite caps by owner and symbol. -/
  caps : Table String (Table String SymbolCap)
  /-- Base units used today by owner and symbol. -/
  used : Table String (Table String Int)

namespace MemoryTransferOutStore

/-- `NewMemoryTransferOutStore`, with the path `LoadMemoryTransferOutStore` sets. -/
def new (path : String) : MemoryTransferOutStore where
  path := path
  day := ""
  caps := ∅
  used := ∅

/-- One entry of the `Caps` loop of `LoadMemoryTransferOutStore`. -/
def loadCap (path owner sym : String) (pc : PersistedSymbolCap) : Except Errorf SymbolCap :=
  match Decimal.read pc.capBase.toList with
  | none => .error ⟨"transfer-out cap file %s: owner %s symbol %s: bad cap_base %q",
      [path, owner, sym, pc.capBase]⟩
  | some capBase => .ok ⟨pc.symbol, pc.decimals, some capBase⟩

/-- One entry of the `Used` loop of `LoadMemoryTransferOutStore`. -/
def loadUsed (path owner sym : String) (amt : String) : Except Errorf Int :=
  match Decimal.read amt.toList with
  | none => .error ⟨"transfer-out cap file %s: owner %s symbol %s: bad used amount %q",
      [path, owner, sym, amt]⟩
  | some v => .ok v

/-- `LoadMemoryTransferOutStore` — a missing file starts an empty store, an unreadable or
malformed one is an error. The wrapped cause of a read or parse error is left out. -/
def load (path : String) (disk : Disk) : Except Errorf MemoryTransferOutStore :=
  if path = "" then .ok (new path)
  else
    match disk.files.get path with
    | none => .ok (new path)
    | some raw =>
      if disk.readable = false then .error ⟨"read transfer-out cap file %s: %w", [path]⟩
      else
        match (Json.read raw.toList).bind PersistedTransferOut.decode with
        | none => .error ⟨"parse transfer-out cap file %s: %w", [path]⟩
        | some snap => do
          let caps ← Table.setAll2 (loadCap path) snap.caps.triples ∅
          let used ← Table.setAll2 (loadUsed path) snap.used.triples ∅
          return { path, day := snap.day, caps, used }

/-- The on-disk form of one cap; a nil cap is written as zero. -/
def persistedCap (c : SymbolCap) : PersistedSymbolCap where
  symbol := c.symbol
  decimals := c.decimals
  capBase := match c.capBase with
    | none => "0"
    | some capBase => String.ofList (Decimal.print capBase)

/-- Convert the rows of a two-level map, leaving out empty rows. -/
def snapshotRows {ν μ : Type} (convert : ν → μ) (rows : Table String (Table String ν)) :
    Table String (Table String μ) :=
  rows.filterMap fun _ row =>
    if row.pairs = [] then none else some (row.filterMap fun _ value => some (convert value))

variable (s : MemoryTransferOutStore)

/-- The snapshot `persistLocked` writes. -/
def snapshot : PersistedTransferOut where
  day := s.day
  caps := snapshotRows persistedCap s.caps
  used := snapshotRows (fun v => String.ofList (Decimal.print v)) s.used

variable (disk : Disk)

/-- `persistLocked` — write the whole state through to the file. -/
def persist : Disk :=
  if s.path = "" then disk
  else disk.replace s.path (String.ofList (Json.print s.snapshot.encode))

variable (now : Time)

/-- `rolloverLocked` — on a new date, forget all usage and write that through. -/
def rollover : MemoryTransferOutStore × Disk :=
  if s.day = formatDay now then (s, disk)
  else
    let s := { s with day := formatDay now, used := ∅ }
    (s, s.persist disk)

/-- Set a cap. -/
def setCap (owner : String) (c : SymbolCap) : MemoryTransferOutStore × Disk :=
  let s := { s with caps := s.caps.set2 owner c.symbol c }
  (s, s.persist disk)

/-- Take a cap away. -/
def setUnlimited (owner symbol : String) : MemoryTransferOutStore × Disk :=
  let s := { s with caps := s.caps.delete2 owner symbol }
  (s, s.persist disk)

/-- The cap of an owner on a symbol. -/
def cap (owner symbol : String) : Option SymbolCap :=
  s.caps.get2 owner symbol

/-- The usage stored for an owner and symbol; zero without an entry. -/
def usedOf (owner symbol : String) : Int :=
  (s.used.get2 owner symbol).getD 0

/-- `Used` — today's usage, after the rollover. -/
def usedToday (owner symbol : String) : Int × MemoryTransferOutStore × Disk :=
  let (s, disk) := s.rollover disk now
  (s.usedOf owner symbol, s, disk)

/-- `Record` — add a positive amount to today's usage. -/
def record (owner symbol : String) (amt : Option Int) : MemoryTransferOutStore × Disk :=
  match amt with
  | none => (s, disk)
  | some a =>
    if a ≤ 0 then (s, disk)
    else
      let (s, disk) := s.rollover disk now
      let s := { s with used := s.used.set2 owner symbol (s.usedOf owner symbol + a) }
      (s, s.persist disk)

/-- The comparison of `Check`: an uncapped symbol passes, a capped one when the sum stays
within the cap. -/
def checkAgainst (found : Option SymbolCap) (used a : Int) : Except ErrSymbolCapExceeded Unit :=
  match found with
  | none => .ok ()
  | some c =>
    match c.capBase with
    | none => .ok ()
    | some capBase =>
      if used + a > capBase then
        .error
          { symbol := c.symbol, limit := baseToHuman capBase c.decimals,
            requested := baseToHuman a c.decimals, used := baseToHuman used c.decimals }
      else .ok ()

/-- `Check` — reject a positive amount that would push today's usage past the cap. -/
def check (owner symbol : String) (amt : Option Int) :
    Except ErrSymbolCapExceeded Unit × MemoryTransferOutStore × Disk :=
  match amt with
  | none => (.ok (), s, disk)
  | some a =>
    if a ≤ 0 then (.ok (), s, disk)
    else
      let (s, disk) := s.rollover disk now
      (checkAgainst (s.cap owner symbol) (s.usedOf owner symbol) a, s, disk)

end MemoryTransferOutStore

end SvpMcp
