import SvpMcp.Model.TransferOut

/-!
# The transfer-out file reloads to the store that wrote it

`persist` writes a snapshot of the store and `load` rebuilds a store on which every lookup agrees. A
cap with a nil amount is the exception: it is written as zero.
-/

namespace SvpMcp

open Calendar

namespace PersistedTransferOut

/-- Two lookups agree when both are missing or both hold related values. -/
abbrev Agree {α β : Type} (related : α → β → Prop) : Option α → Option β → Prop :=
  Option.Rel related

section Maps

variable {α β : Type} {encode : α → Json} {decode : Json → Option β} {related : α → β → Prop}

/-- Decoding members with distinct keys: each listed key holds its decoded value, every other
key keeps what it had. -/
theorem foldlM_members (members : List (String × Json)) (old : Table String β)
    (distinct : (members.map Prod.fst).Nodup)
    (decodes : ∀ member ∈ members, ∃ value, decode member.2 = some value) :
    ∃ map, members.foldlM (fun map member => (decode member.2).map (map.set member.1)) old =
        some map ∧
      (∀ member ∈ members, map.get member.1 = decode member.2) ∧
      ∀ key, key ∉ members.map Prod.fst → map.get key = old.get key := by
  induction members generalizing old with
  | nil => exact ⟨old, rfl, by simp, fun _ _ => rfl⟩
  | cons member rest ih =>
    obtain ⟨value, decoded⟩ := decodes member List.mem_cons_self
    rw [List.map_cons, List.nodup_cons] at distinct
    have restDecodes : ∀ other ∈ rest, ∃ value, decode other.2 = some value := by
      intro other inside
      exact decodes other (List.mem_cons_of_mem _ inside)
    obtain ⟨map, folded, listed, others⟩ := ih (old.set member.1 value) distinct.2 restDecodes
    refine ⟨map, ?_, ?_, ?_⟩
    · rw [List.foldlM_cons, decoded]
      exact folded
    · intro other inside
      rcases List.mem_cons.mp inside with rfl | inRest
      · rw [others other.1 distinct.1, Table.get_set_self, decoded]
      · exact listed other inRest
    · intro key missing
      rw [List.map_cons, List.mem_cons, not_or] at missing
      rw [others key missing.2, Table.get_set, if_neg missing.1]

/-- Decoding the object of a map returns a map with related values under the same keys. -/
theorem decodeMap_mapObject (map : Table String α)
    (reads : ∀ key value, map.get key = some value →
      ∃ value', decode (encode value) = some value' ∧ related value value') :
    ∃ map', decodeMap decode ∅ (mapObject encode map) = some map' ∧
      ∀ key, Agree related (map.get key) (map'.get key) := by
  let members := (map.pairs.map fun pair => (pair.1, encode pair.2)).insertionSort
    fun left right => left.1 ≤ right.1
  have sorted : members.Perm (map.pairs.map fun pair => (pair.1, encode pair.2)) :=
    List.perm_insertionSort _ _
  have keys : (members.map Prod.fst).Perm (map.pairs.map Prod.fst) := by
    have mapped := sorted.map Prod.fst
    rwa [List.map_map] at mapped
  have distinct : (members.map Prod.fst).Nodup :=
    keys.nodup_iff.mpr map.pairs_keys_nodup
  have inside : ∀ key document, (key, document) ∈ members ↔
      ∃ value, map.get key = some value ∧ encode value = document := by
    intro key document
    rw [sorted.mem_iff, List.mem_map]
    constructor
    · rintro ⟨⟨storedKey, value⟩, stored, equal⟩
      obtain ⟨rfl, rfl⟩ := Prod.mk.inj equal
      exact ⟨value, (map.mem_pairs_iff storedKey value).mp stored, rfl⟩
    · rintro ⟨value, found, rfl⟩
      exact ⟨(key, value), (map.mem_pairs_iff key value).mpr found, rfl⟩
  have decodes : ∀ member ∈ members, ∃ value, decode member.2 = some value := by
    rintro ⟨key, document⟩ member
    obtain ⟨value, found, rfl⟩ := (inside key document).mp member
    obtain ⟨value', decoded, -⟩ := reads key value found
    exact ⟨value', decoded⟩
  obtain ⟨map', folded, listed, others⟩ := foldlM_members members ∅ distinct decodes
  refine ⟨map', folded, ?_⟩
  intro key
  cases found : map.get key with
  | none =>
    have missing : key ∉ members.map Prod.fst := by
      intro present
      obtain ⟨⟨memberKey, document⟩, member, rfl⟩ := List.mem_map.mp present
      obtain ⟨value, stored, -⟩ := (inside memberKey document).mp member
      rw [found] at stored
      cases stored
    rw [others key missing, Table.get_empty]
    exact .none
  | some value =>
    obtain ⟨value', decoded, relation⟩ := reads key value found
    have present : (key, encode value) ∈ members := (inside key _).mpr ⟨value, found, rfl⟩
    rw [listed _ present]
    change Agree related (some value) (decode (encode value))
    rw [decoded]
    exact .some relation

/-- Rows that agree lookup by lookup make two-level maps that agree lookup by lookup. -/
theorem get2_agree {map : Table String (Table String α)} {map' : Table String (Table String β)}
    (rows : ∀ key, Agree (fun row row' => ∀ inner, Agree related (row.get inner) (row'.get inner))
      (map.get key) (map'.get key)) (outer inner : String) :
    Agree related (map.get2 outer inner) (map'.get2 outer inner) := by
  have row := rows outer
  rw [Table.get2, Table.get2]
  cases found : map.get outer with
  | none =>
    cases found' : map'.get outer with
    | none => exact .none
    | some row' =>
      rw [found, found'] at row
      cases row
  | some first =>
    cases found' : map'.get outer with
    | none =>
      rw [found, found'] at row
      cases row
    | some second =>
      rw [found, found'] at row
      cases row with
      | some agree => exact agree inner

end Maps

/-- Lookups related by equality are equal. -/
theorem eq_of_agree {α : Type} {x y : Option α} (agree : Agree Eq x y) : x = y := by
  cases agree with
  | some equal => rw [equal]
  | none => rfl

/-- A version is read back. -/
@[simp] theorem decodeInt64_int (old n : Int64) : decodeInt64 old (.int n.toInt) = some n := by
  have lower : -9223372036854775808 ≤ n.toInt := Int64.le_toInt n
  have upper : n.toInt ≤ Int64.maxValue.toInt := Int64.toInt_le n
  simp [decodeInt64, Json.int, lower, upper]

/-- Decoding an encoded cap returns it. -/
@[simp] theorem decodeCap_encodeCap (c : PersistedSymbolCap) :
    decodeCap (encodeCap c) = some c := by
  have fields : selects "symbol" "symbol" = true ∧ selects "decimals" "symbol" = false ∧
      selects "decimals" "decimals" = true ∧ selects "cap_base" "symbol" = false ∧
      selects "cap_base" "decimals" = false ∧ selects "cap_base" "cap_base" = true := by
    decide
  obtain ⟨h1, h2, h3, h4, h5, h6⟩ := fields
  simp [encodeCap, decodeCap, decodeCapField, decodeString, h1, h2, h3, h4, h5, h6]

/-- Decoding an encoded snapshot returns its date and all its entries. -/
theorem decode_encode (snap : PersistedTransferOut) :
    ∃ snap', decode snap.encode = some snap' ∧ snap'.day = snap.day ∧
      (∀ outer inner, snap'.caps.get2 outer inner = snap.caps.get2 outer inner) ∧
      ∀ outer inner, snap'.used.get2 outer inner = snap.used.get2 outer inner := by
  have capRows : ∀ row : Table String PersistedSymbolCap,
      ∃ row', decodeMap decodeCap ∅ (mapObject encodeCap row) = some row' ∧
        ∀ inner, Agree Eq (row.get inner) (row'.get inner) := by
    intro row
    exact decodeMap_mapObject row fun _ c _ => ⟨c, decodeCap_encodeCap c, rfl⟩
  have usedRows : ∀ row : Table String String,
      ∃ row', decodeMap (decodeString "") ∅ (mapObject .str row) = some row' ∧
        ∀ inner, Agree Eq (row.get inner) (row'.get inner) := by
    intro row
    exact decodeMap_mapObject row fun _ text _ => ⟨text, rfl, rfl⟩
  obtain ⟨caps, capsDecoded, capsAgree⟩ := decodeMap_mapObject snap.caps fun _ row _ => capRows row
  obtain ⟨used, usedDecoded, usedAgree⟩ := decodeMap_mapObject snap.used fun _ row _ => usedRows row
  have fields : selects "day" "day" = true ∧ selects "caps" "day" = false ∧
      selects "caps" "caps" = true ∧ selects "used" "day" = false ∧
      selects "used" "caps" = false ∧ selects "used" "used" = true := by
    decide
  obtain ⟨h1, h2, h3, h4, h5, h6⟩ := fields
  refine ⟨⟨snap.day, caps, used⟩, ?_, rfl, ?_, ?_⟩
  · simp [encode, decode, decodeField, decodeString, h1, h2, h3, h4, h5, h6, capsDecoded,
      usedDecoded]
  · intro outer inner
    exact (eq_of_agree (get2_agree capsAgree outer inner)).symm
  · intro outer inner
    exact (eq_of_agree (get2_agree usedAgree outer inner)).symm

end PersistedTransferOut

namespace Disk

/-- The file system serves every request. -/
structure Serves (disk : Disk) : Prop where
  readable : disk.readable = true
  writable : disk.writable = true
  renamable : disk.renamable = true

/-- Replacing a file leaves the file system serving. -/
theorem replace_serves {disk : Disk} (serves : disk.Serves) (path contents : String) :
    (disk.replace path contents).Serves := by
  have unchanged : (disk.replace path contents).readable = disk.readable ∧
      (disk.replace path contents).writable = disk.writable ∧
      (disk.replace path contents).renamable = disk.renamable := by
    unfold replace
    split
    · exact ⟨rfl, rfl, rfl⟩
    · split <;> exact ⟨rfl, rfl, rfl⟩
  obtain ⟨readable, writable, renamable⟩ := unchanged
  exact ⟨readable.trans serves.readable, writable.trans serves.writable,
    renamable.trans serves.renamable⟩

/-- A replaced file holds the new contents. -/
theorem replace_get {disk : Disk} (serves : disk.Serves) (path contents : String) :
    (disk.replace path contents).files.get path = some contents := by
  simp [replace, serves.writable, serves.renamable]

end Disk

namespace MemoryTransferOutStore

/-- Two stores no method can tell apart. -/
structure Same (s s' : MemoryTransferOutStore) : Prop where
  path : s'.path = s.path
  day : s'.day = s.day
  caps : ∀ owner symbol, s'.caps.get2 owner symbol = s.caps.get2 owner symbol
  used : ∀ owner symbol, s'.used.get2 owner symbol = s.used.get2 owner symbol

/-- A store is the same as itself. -/
theorem Same.refl (s : MemoryTransferOutStore) : Same s s :=
  ⟨rfl, rfl, fun _ _ => rfl, fun _ _ => rfl⟩

/-- Every stored cap has an amount. -/
def FiniteCaps (s : MemoryTransferOutStore) : Prop :=
  ∀ owner symbol c, s.caps.get2 owner symbol = some c → ∃ capBase, c.capBase = some capBase

/-- A snapshot converts every entry and adds none. -/
@[simp] theorem get2_snapshotRows {ν μ : Type} (convert : ν → μ)
    (rows : Table String (Table String ν)) (outer inner : String) :
    (snapshotRows convert rows).get2 outer inner = (rows.get2 outer inner).map convert := by
  rw [snapshotRows, Table.get2, Table.get2, Table.get_filterMap]
  cases stored : rows.get outer with
  | none => rfl
  | some row =>
    by_cases empty : row.pairs = []
    · have missing : row.get inner = none := by
        cases found : row.get inner with
        | none => rfl
        | some value =>
          have stored := (row.mem_pairs_iff inner value).mpr found
          rw [empty] at stored
          cases stored
      simp [empty, missing]
    · cases found : row.get inner <;> simp [empty, found]

/-- The snapshot of a finite cap loads as that cap. -/
theorem loadCap_persistedCap (path owner sym : String) (c : SymbolCap)
    (finite : ∃ capBase, c.capBase = some capBase) :
    loadCap path owner sym (persistedCap c) = .ok c := by
  obtain ⟨capBase, amount⟩ := finite
  obtain ⟨symbol, decimals, stored⟩ := c
  simp only at amount
  subst amount
  simp [loadCap, persistedCap]

/-- The snapshot of a usage amount loads as that amount. -/
theorem loadUsed_print (path owner sym : String) (v : Int) :
    loadUsed path owner sym (String.ofList (Decimal.print v)) = .ok v := by
  simp [loadUsed]

/-- A written file loads as a store no method can tell from the one that wrote it. -/
theorem load_persist {s : MemoryTransferOutStore} {disk : Disk} (named : s.path ≠ "")
    (serves : disk.Serves) (finite : s.FiniteCaps) :
    ∃ s', load s.path (s.persist disk) = .ok s' ∧ Same s s' := by
  have contents : (s.persist disk).files.get s.path =
      some (String.ofList (Json.print s.snapshot.encode)) := by
    rw [persist, if_neg named]
    exact Disk.replace_get serves s.path _
  have readable : (s.persist disk).readable = true := by
    rw [persist, if_neg named]
    exact (Disk.replace_serves serves s.path _).readable
  obtain ⟨snap, decoded, day, caps, used⟩ := PersistedTransferOut.decode_encode s.snapshot
  have capEntries : ∀ owner sym pc, snap.caps.get2 owner sym = some pc →
      ∃ c, s.caps.get2 owner sym = some c ∧ persistedCap c = pc := by
    intro owner sym pc found
    rw [caps, snapshot, get2_snapshotRows, Option.map_eq_some_iff] at found
    exact found
  have usedEntries : ∀ owner sym amt, snap.used.get2 owner sym = some amt →
      ∃ v, s.used.get2 owner sym = some v ∧ String.ofList (Decimal.print v) = amt := by
    intro owner sym amt found
    rw [used, snapshot, get2_snapshotRows, Option.map_eq_some_iff] at found
    exact found
  -- Each loop converts every entry back to what the store holds under its keys.
  obtain ⟨loadedCaps, capsLoaded, capsSame⟩ := Table.setAll2_triples (loadCap s.path)
    (fun owner sym _ => (s.caps.get2 owner sym).getD ⟨"", 0, none⟩) snap.caps (by
      intro owner sym pc found
      obtain ⟨c, stored, rfl⟩ := capEntries owner sym pc found
      rw [stored, loadCap_persistedCap _ _ _ c (finite owner sym c stored), Option.getD_some])
  obtain ⟨loadedUsed, usedLoaded, usedSame⟩ := Table.setAll2_triples (loadUsed s.path)
    (fun owner sym _ => (s.used.get2 owner sym).getD 0) snap.used (by
      intro owner sym amt found
      obtain ⟨v, stored, rfl⟩ := usedEntries owner sym amt found
      rw [stored, loadUsed_print, Option.getD_some])
  refine ⟨⟨s.path, snap.day, loadedCaps, loadedUsed⟩, ?_, rfl, day, ?_, ?_⟩
  · rw [load, if_neg named, contents]
    simp only [readable, Bool.true_eq_false, if_false, String.toList_ofList, Json.read_print,
      Option.bind_some, decoded, capsLoaded, usedLoaded]
    rfl
  · intro owner sym
    rw [capsSame, caps, snapshot, get2_snapshotRows]
    cases s.caps.get2 owner sym <;> rfl
  · intro owner sym
    rw [usedSame, used, snapshot, get2_snapshotRows]
    cases s.used.get2 owner sym <;> rfl

end MemoryTransferOutStore

end SvpMcp
