import Mathlib.Data.List.AList

/-!
# Finite tables

Mathlib's association list under the vocabulary of a mutable map. Every operation is
characterised by what a lookup returns afterwards.
-/

namespace SvpMcp

/-- A finite map from `κ` to `ν`: an association list with distinct keys. -/
abbrev Table (κ ν : Type) := AList fun _ : κ => ν

/-- An element that is not among the ones before it is found first if none of them matches. -/
theorem find?_split {α : Type} {before after : List α} {r : α} {p : α → Bool}
    (fresh : r ∉ before) :
    (before ++ r :: after).find? p = some r ↔ p r = true ∧ ∀ a ∈ before, p a = false := by
  rw [List.find?_append, List.find?_cons]
  cases earlier : before.find? p with
  | some first =>
    have member := List.mem_of_find?_eq_some earlier
    have selected := List.find?_some earlier
    constructor
    · intro found
      exact absurd (Option.some.inj found ▸ member) fresh
    · rintro ⟨_, none⟩
      rw [none first member] at selected
      cases selected
  | none =>
    have absent := List.find?_eq_none.mp earlier
    have none : ∀ a ∈ before, p a = false := fun a member => by simpa using absent a member
    cases here : p r with
    | true => exact ⟨fun _ => ⟨rfl, none⟩, fun _ => rfl⟩
    | false =>
      refine ⟨fun found => ?_, fun both => nomatch both.1⟩
      have selected : p r = true := List.find?_some found
      rw [here] at selected
      cases selected

namespace Table

section Entries

variable {κ ν μ : Type}

/-- The stored pairs, in storage order. -/
def pairs (table : Table κ ν) : List (κ × ν) :=
  table.entries.map fun entry => (entry.1, entry.2)

/-- The stored keys are distinct. -/
theorem pairs_keys_nodup (table : Table κ ν) : (table.pairs.map Prod.fst).Nodup := by
  have keys : table.pairs.map Prod.fst = table.keys := by
    simp only [pairs, List.map_map]
    rfl
  rw [keys]
  exact table.keys_nodup

/-- The entries kept by `keep`, with their new values. -/
def filterMapEntries (keep : κ → ν → Option μ) (entries : List (Sigma fun _ : κ => ν)) :
    List (Sigma fun _ : κ => μ) :=
  entries.filterMap fun entry => (keep entry.1 entry.2).map (Sigma.mk entry.1)

/-- Filtering keeps a sublist of the keys. -/
theorem filterMapEntries_keys_sublist (keep : κ → ν → Option μ)
    (entries : List (Sigma fun _ : κ => ν)) :
    ((filterMapEntries keep entries).map Sigma.fst).Sublist (entries.map Sigma.fst) := by
  induction entries with
  | nil => simp [filterMapEntries]
  | cons entry rest ih =>
    cases kept : keep entry.1 entry.2 with
    | none =>
      simp only [filterMapEntries, List.filterMap_cons, kept, Option.map_none, List.map_cons]
      exact ih.cons _
    | some value =>
      simp only [filterMapEntries, List.filterMap_cons, kept, Option.map_some, List.map_cons]
      exact ih.cons_cons _

end Entries

section OneLevel

variable {κ ν μ : Type} [DecidableEq κ]

variable (table : Table κ ν) (keep : κ → ν → Option μ) (key : κ)

/-- The value stored under `key`, if any. -/
def get : Option ν :=
  AList.lookup key table

variable (value : ν)

/-- Store `value` under `key`, replacing what was there. -/
def set : Table κ ν :=
  AList.insert key value table

/-- Remove `key`. -/
def delete : Table κ ν :=
  AList.erase key table

/-- An empty table has no entry. -/
@[simp] theorem get_empty : (∅ : Table κ ν).get key = none := rfl

/-- One entry is written. -/
theorem get_set (key other : κ) (value : ν) :
    (table.set key value).get other = if other = key then some value else table.get other := by
  by_cases same : other = key
  · subst same
    simp [get, set]
  · simp [get, set, same]

/-- What is written is found. -/
@[simp] theorem get_set_self : (table.set key value).get key = some value := by
  simp [get_set]

/-- One entry is deleted. -/
theorem get_delete (key other : κ) :
    (table.delete key).get other = if other = key then none else table.get other := by
  by_cases same : other = key
  · subst same
    simp [get, delete]
  · simp [get, delete, same]

/-- A pair is stored exactly when the lookup of its key returns its value. -/
theorem mem_pairs_iff : (key, value) ∈ table.pairs ↔ table.get key = some value := by
  have stored : (key, value) ∈ table.pairs ↔ Sigma.mk key value ∈ table.entries := by
    constructor
    · intro member
      obtain ⟨⟨storedKey, storedValue⟩, inside, equal⟩ := List.mem_map.mp member
      cases equal
      exact inside
    · intro inside
      exact List.mem_map.mpr ⟨_, inside, rfl⟩
  rw [stored]
  exact AList.mem_lookup_iff.symm

/-- Apply `keep` to every stored pair; a pair mapped to `none` is dropped. -/
def filterMap : Table κ μ where
  entries := filterMapEntries keep table.entries
  nodupKeys := (filterMapEntries_keys_sublist keep table.entries).nodup table.nodupKeys

/-- Lookup after filtering, on entries with distinct keys. -/
theorem dlookup_filterMapEntries (entries : List (Sigma fun _ : κ => ν))
    (distinct : entries.NodupKeys) (key : κ) :
    List.dlookup key (filterMapEntries keep entries) =
      (List.dlookup key entries).bind (keep key) := by
  induction entries with
  | nil => rfl
  | cons entry rest ih =>
    obtain ⟨fresh, distinctRest⟩ := List.nodupKeys_cons.mp distinct
    have tail := ih distinctRest
    obtain ⟨entryKey, entryValue⟩ := entry
    by_cases same : key = entryKey
    · subst same
      have absent : List.dlookup key rest = none := List.dlookup_eq_none.mpr fresh
      cases kept : keep key entryValue with
      | none =>
        simp only [filterMapEntries, List.filterMap_cons, kept, Option.map_none] at tail ⊢
        simp [tail, absent, kept]
      | some value => simp [filterMapEntries, kept]
    · cases kept : keep entryKey entryValue with
      | none =>
        simp only [filterMapEntries, List.filterMap_cons, kept, Option.map_none] at tail ⊢
        simp [tail, List.dlookup_cons_ne, same]
      | some value =>
        simp only [filterMapEntries, List.filterMap_cons, kept, Option.map_some] at tail ⊢
        simp [tail, List.dlookup_cons_ne, same]

/-- A filtered table holds under each key what `keep` makes of the original value. -/
@[simp] theorem get_filterMap : (table.filterMap keep).get key = (table.get key).bind (keep key) :=
  dlookup_filterMapEntries keep table.entries table.nodupKeys key

/-- The table of the values of a list by their keys; of two with one key the later one stays. -/
def index {α : Type} (key : α → κ) (value : α → ν) (entries : List α) : Table κ ν :=
  entries.foldl (fun table entry => table.set (key entry) (value entry)) ∅

/-- After storing a list a lookup returns the value of the last entry with the key. -/
theorem get_foldl_set {α : Type} (key : α → κ) (value : α → ν) (entries : List α)
    (table : Table κ ν) (k : κ) :
    (entries.foldl (fun table entry => table.set (key entry) (value entry)) table).get k =
      ((entries.reverse.find? fun entry => key entry = k).map value).or (table.get k) := by
  induction entries generalizing table with
  | nil => rfl
  | cons first rest ih =>
    rw [List.foldl_cons, ih, get_set, List.reverse_cons, List.find?_append]
    cases later : rest.reverse.find? fun entry => key entry = k with
    | some found => rfl
    | none =>
      by_cases here : key first = k
      · simp [here]
      · simp [here, Ne.symm here]

/-- An index finds what it is built from. -/
theorem get_index {α : Type} {key : α → κ} {value : α → ν} {entries : List α}
    (agree : ∀ e ∈ entries, ∀ e' ∈ entries, key e = key e' → value e = value e') (k : κ) (v : ν) :
    (index key value entries).get k = some v ↔ ∃ e ∈ entries, key e = k ∧ value e = v := by
  rw [index, get_foldl_set, get_empty, Option.or_none, Option.map_eq_some_iff]
  constructor
  · rintro ⟨e, found, isValue⟩
    exact ⟨e, List.mem_reverse.mp (List.mem_of_find?_eq_some found),
      by simpa using List.find?_some found, isValue⟩
  · rintro ⟨e, member, isKey, isValue⟩
    cases found : entries.reverse.find? fun entry => key entry = k with
    | none =>
      have absent := List.find?_eq_none.mp found e (List.mem_reverse.mpr member)
      exact absurd (decide_eq_true isKey) absent
    | some last =>
      have inside := List.mem_reverse.mp (List.mem_of_find?_eq_some found)
      have isLast : key last = k := by simpa using List.find?_some found
      exact ⟨last, rfl, (agree last inside e member (isLast.trans isKey.symm)).trans isValue⟩

end OneLevel

section TwoLevel

variable {κ σ ν μ : Type} [DecidableEq κ] [DecidableEq σ]

variable (table : Table κ (Table σ ν)) (outer : κ) (inner : σ)

/-- The value stored under the pair `(outer, inner)`. -/
def get2 : Option ν :=
  (table.get outer).bind fun row => row.get inner

variable (value : ν)

/-- Store `value` under `(outer, inner)`, creating the row when it is missing. -/
def set2 : Table κ (Table σ ν) :=
  table.set outer (((table.get outer).getD ∅).set inner value)

/-- Remove the pair `(outer, inner)`; a missing row stays missing. -/
def delete2 : Table κ (Table σ ν) :=
  match table.get outer with
  | none => table
  | some row => table.set outer (row.delete inner)

/-- Nothing is found in an empty table. -/
@[simp] theorem get2_empty :
    (∅ : Table κ (Table σ ν)).get2 outer inner = none := rfl

/-- One inner entry is written. -/
theorem get2_set2 (outer otherOuter : κ) (inner otherInner : σ) (value : ν) :
    (table.set2 outer inner value).get2 otherOuter otherInner =
      if otherOuter = outer ∧ otherInner = inner then some value
      else table.get2 otherOuter otherInner := by
  by_cases same : otherOuter = outer
  · subst same
    cases row : table.get otherOuter with
    | none => simp [get2, set2, row, get_set]
    | some found => simp [get2, set2, row, get_set]
  · simp [get2, set2, get_set, same]

/-- One inner entry is deleted. -/
theorem get2_delete2 (outer otherOuter : κ) (inner otherInner : σ) :
    (table.delete2 outer inner).get2 otherOuter otherInner =
      if otherOuter = outer ∧ otherInner = inner then none
      else table.get2 otherOuter otherInner := by
  cases row : table.get outer with
  | none =>
    by_cases same : otherOuter = outer
    · subst same
      simp [get2, delete2, row]
    · simp [delete2, row, same]
  | some found =>
    by_cases same : otherOuter = outer
    · subst same
      simp [get2, delete2, row, get_delete]
    · simp [get2, delete2, row, get_set, same]

/-- All stored triples, row by row. -/
def triples : List (κ × σ × ν) :=
  table.pairs.flatMap fun row => row.2.pairs.map fun cell => (row.1, cell.1, cell.2)

/-- A triple is stored exactly when the lookup of its keys returns its value. -/
theorem mem_triples_iff :
    (outer, inner, value) ∈ table.triples ↔ table.get2 outer inner = some value := by
  simp only [triples, List.mem_flatMap, List.mem_map, get2, Option.bind_eq_some_iff]
  constructor
  · rintro ⟨⟨rowKey, row⟩, rowStored, ⟨cellKey, cell⟩, cellStored, equal⟩
    cases equal
    exact ⟨row, (mem_pairs_iff table _ row).mp rowStored,
      (mem_pairs_iff row _ _).mp cellStored⟩
  · rintro ⟨row, rowFound, cellFound⟩
    exact ⟨(outer, row), (mem_pairs_iff table outer row).mpr rowFound, (inner, value),
      (mem_pairs_iff row inner value).mpr cellFound, rfl⟩

/-- Convert each triple and store it, stopping at the first one that does not convert. -/
def setAll2 {ε : Type} (convert : κ → σ → μ → Except ε ν) :
    List (κ × σ × μ) → Table κ (Table σ ν) → Except ε (Table κ (Table σ ν))
  | [], table => .ok table
  | (outer, inner, raw) :: rest, table =>
    match convert outer inner raw with
    | .error e => .error e
    | .ok value => setAll2 convert rest (table.set2 outer inner value)

/-- Storing triples that agree on each key and all convert: a listed key holds its converted
value, every other key keeps what it had. -/
theorem setAll2_ok {ε : Type} (convert : κ → σ → μ → Except ε ν) (value : κ → σ → μ → ν)
    (list : List (κ × σ × μ)) (table : Table κ (Table σ ν))
    (converts : ∀ outer inner raw, (outer, inner, raw) ∈ list →
      convert outer inner raw = .ok (value outer inner raw))
    (agree : ∀ outer inner raw raw', (outer, inner, raw) ∈ list →
      (outer, inner, raw') ∈ list → raw = raw') :
    ∃ result, setAll2 convert list table = .ok result ∧
      (∀ outer inner raw, (outer, inner, raw) ∈ list →
        result.get2 outer inner = some (value outer inner raw)) ∧
      ∀ outer inner, (∀ raw, (outer, inner, raw) ∉ list) →
        result.get2 outer inner = table.get2 outer inner := by
  induction list generalizing table with
  | nil => exact ⟨table, rfl, by simp, fun _ _ _ => rfl⟩
  | cons head rest ih =>
    obtain ⟨headOuter, headInner, headRaw⟩ := head
    have headValue := converts headOuter headInner headRaw List.mem_cons_self
    have restConverts : ∀ outer inner raw, (outer, inner, raw) ∈ rest →
        convert outer inner raw = .ok (value outer inner raw) := by
      intro outer inner raw member
      exact converts outer inner raw (List.mem_cons_of_mem _ member)
    have restAgree : ∀ outer inner raw raw', (outer, inner, raw) ∈ rest →
        (outer, inner, raw') ∈ rest → raw = raw' := by
      intro outer inner raw raw' member member'
      exact agree outer inner raw raw' (List.mem_cons_of_mem _ member)
        (List.mem_cons_of_mem _ member')
    obtain ⟨result, filled, listed, others⟩ :=
      ih (table.set2 headOuter headInner (value headOuter headInner headRaw)) restConverts
        restAgree
    refine ⟨result, by rw [setAll2, headValue]; exact filled, ?_, ?_⟩
    · intro outer inner raw member
      by_cases later : ∃ raw', (outer, inner, raw') ∈ rest
      · obtain ⟨raw', inRest⟩ := later
        have same := agree outer inner raw raw' member (List.mem_cons_of_mem _ inRest)
        rw [same]
        exact listed outer inner raw' inRest
      · have absent : ∀ raw', (outer, inner, raw') ∉ rest := fun raw' inRest =>
          later ⟨raw', inRest⟩
        rcases List.mem_cons.mp member with equal | inRest
        · obtain ⟨rfl, rfl, rfl⟩ : outer = headOuter ∧ inner = headInner ∧ raw = headRaw := by
            simpa using equal
          rw [others outer inner absent, get2_set2, if_pos ⟨rfl, rfl⟩]
        · exact absurd inRest (absent raw)
    · intro outer inner missing
      have different : ¬(outer = headOuter ∧ inner = headInner) := by
        rintro ⟨rfl, rfl⟩
        exact missing headRaw List.mem_cons_self
      have missingRest : ∀ raw, (outer, inner, raw) ∉ rest := fun raw inRest =>
        missing raw (List.mem_cons_of_mem _ inRest)
      rw [others outer inner missingRest, get2_set2, if_neg different]

/-- Converting a whole table into an empty one converts every entry. -/
theorem setAll2_triples {ε : Type} (convert : κ → σ → μ → Except ε ν) (value : κ → σ → μ → ν)
    (source : Table κ (Table σ μ))
    (converts : ∀ outer inner raw, source.get2 outer inner = some raw →
      convert outer inner raw = .ok (value outer inner raw)) :
    ∃ result, setAll2 convert source.triples ∅ = .ok result ∧
      ∀ outer inner, result.get2 outer inner =
        (source.get2 outer inner).map (value outer inner) := by
  have listConverts : ∀ outer inner raw, (outer, inner, raw) ∈ source.triples →
      convert outer inner raw = .ok (value outer inner raw) := by
    intro outer inner raw member
    exact converts outer inner raw ((mem_triples_iff source outer inner raw).mp member)
  have agree : ∀ outer inner raw raw', (outer, inner, raw) ∈ source.triples →
      (outer, inner, raw') ∈ source.triples → raw = raw' := by
    intro outer inner raw raw' member member'
    rw [mem_triples_iff] at member member'
    rw [member] at member'
    exact Option.some.inj member'
  obtain ⟨result, filled, listed, others⟩ :=
    setAll2_ok convert value source.triples ∅ listConverts agree
  refine ⟨result, filled, ?_⟩
  intro outer inner
  cases found : source.get2 outer inner with
  | none =>
    rw [others outer inner, get2_empty, Option.map_none]
    intro raw member
    rw [mem_triples_iff, found] at member
    cases member
  | some raw =>
    rw [listed outer inner raw ((mem_triples_iff source outer inner raw).mpr found),
      Option.map_some]

end TwoLevel

end Table

end SvpMcp
