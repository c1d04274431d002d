import SvpMcp.Verif.LendoraRisk

/-!
# The names of the Lendora markets

A refresh files every market under its symbol and its two addresses; the lookups are unambiguous
exactly when no market is called like another one.
-/

namespace SvpMcp

open Handler Program

variable {deps : Deps} {w w' : World} {events : Events}
  {cache cache' : LendoraCache} {m : Market}

/-- An asset as a lookup reads it. -/
def assetKey (asset : String) : String :=
  Strings.toLower (String.ofList (Strings.trimSpace asset.toList))

/-- The keys a market is filed under. -/
def Market.keys (m : Market) : List String :=
  [Strings.toLower m.symbol, Strings.toLower m.cToken.hex] ++
    if m.isCEther then [] else [Strings.toLower m.underlying.hex]

/-- A market whose symbol or underlying address is an asset. The native market has no underlying. -/
def Market.Called (m : Market) (asset : String) : Prop :=
  Strings.toLower m.symbol = assetKey asset ∨
    m.isCEther = false ∧ Strings.toLower m.underlying.hex = assetKey asset

/-- The keys of a market. -/
theorem mem_keys_iff {asset : String} : assetKey asset ∈ m.keys ↔
    m.Called asset ∨ assetKey asset = Strings.toLower m.cToken.hex := by
  unfold Market.keys Market.Called
  generalize assetKey asset = key
  generalize Strings.toLower m.symbol = symbol
  generalize Strings.toLower m.cToken.hex = cToken
  generalize Strings.toLower m.underlying.hex = underlying
  cases m.isCEther with
  | true => simp [eq_comm]
  | false => grind

/-- A cache in which a key leads to the last market that is filed under it. -/
def LendoraCache.Indexed (cache : LendoraCache) : Prop :=
  ∀ key, cache.byKey.get key = cache.ordered.reverse.find? fun m => key ∈ m.keys

/-- A market takes its keys over. -/
theorem add_get (cache : LendoraCache) (m : Market) (key : String) :
    (cache.add m).byKey.get key = if key ∈ m.keys then some m else cache.byKey.get key := by
  unfold LendoraCache.add Market.keys
  cases m.isCEther with
  | true => grind [Table.get_set]
  | false => grind [Table.get_set]

/-- A market that is added takes the place of those filed under its keys. -/
theorem indexed_add (indexed : cache.Indexed) (m : Market) : (cache.add m).Indexed := by
  intro key
  have isOrdered : (cache.add m).ordered.reverse = m :: cache.ordered.reverse := by
    rw [LendoraCache.add, List.reverse_append]
    rfl
  rw [add_get, isOrdered, List.find?_cons, indexed key]
  by_cases filed : key ∈ m.keys
  · simp only [if_pos filed, decide_eq_true filed]
  · simp only [if_neg filed, decide_eq_false filed]

/-- Loading keeps the index. -/
theorem loadMarkets_indexed {cEther : Address} {cTokens : List Address} (indexed : cache.Indexed)
    (run : Gives deps (· ∈ events) w (loadMarkets cEther cTokens cache) w' cache') :
    cache'.Indexed := by
  induction cTokens generalizing w cache with
  | nil => exact (completes_pure.mp run).2 ▸ indexed
  | cons cToken rest ih =>
    obtain ⟨_, loaded, _, run⟩ := completes_bind.mp run
    cases loaded with
    | error fault => exact ih indexed run
    | ok m => exact ih (indexed_add indexed m) run

/-- What a refresh leaves: an indexed cache of markets from a list the Comptroller returned. -/
theorem refresh_indexed (run : Alone deps w refresh events w' (.ok cache)) :
    cache.Indexed ∧ ∃ e ∈ events, ∃ listed, e.env.lendora .getAllMarkets = .ok listed ∧
      cache.cTokens.Sublist listed := by
  have run := alone_gives run
  simp [refresh] at run
  obtain ⟨oracle, _, _, _, _, listed, ⟨env, asked, answered⟩, run⟩ := run
  obtain ⟨⟨loaded, sublist, isLoaded⟩, _⟩ := loadMarkets_ok run
  have nothing : LendoraCache.Indexed ⟨∅, [], oracle, true⟩ := fun _ => rfl
  refine ⟨loadMarkets_indexed nothing run, _, asked, listed, answered, ?_⟩
  rw [isLoaded]
  exact sublist

/-- A market that is found is one of the cached ones, filed under the asset. -/
theorem resolve_some (indexed : cache.Indexed) {asset : String}
    (found : cache.resolve asset = some m) : m ∈ cache.ordered ∧ assetKey asset ∈ m.keys := by
  have isLast := (indexed (assetKey asset)).symm.trans found
  exact ⟨List.mem_reverse.mp (List.mem_of_find?_eq_some isLast), by
    simpa using List.find?_some isLast⟩

/-- What is not found is no key. -/
theorem resolve_none (indexed : cache.Indexed) {asset : String}
    (absent : cache.resolve asset = none) : ∀ m ∈ cache.ordered, assetKey asset ∉ m.keys := by
  intro m member
  have isNone := (indexed (assetKey asset)).symm.trans absent
  have notFiled := List.find?_eq_none.mp isNone m (List.mem_reverse.mpr member)
  rwa [decide_eq_true_eq] at notFiled

/-- The key of an address. -/
theorem assetKey_hex (a : Address) : assetKey a.hex = Strings.toLower a.hex := by
  rw [assetKey, Address.trimSpace_hex, String.ofList_toList]

/-- An asset that is no address of a cached cToken. -/
def LendoraCache.NoAddress (cache : LendoraCache) (asset : String) : Prop :=
  ∀ m ∈ cache.ordered, assetKey asset ≠ Strings.toLower m.cToken.hex

/-- Lookups that are unambiguous: the address of a cToken leads to its market, and any other asset
only to the one market that is called so. -/
structure Unambiguous (cache : LendoraCache) : Prop where
  cTokens : ∀ m ∈ cache.ordered, cache.resolve m.cToken.hex = some m
  names : ∀ asset, cache.NoAddress asset → ∀ m, cache.resolve asset = some m →
    m ∈ cache.ordered ∧ m.Called asset ∧ ∀ other ∈ cache.ordered, other.Called asset → other = m

/-- Markets with names of their own: none is called like the cToken of an earlier one, and no two
are called alike, except by the address of a cToken. -/
structure OwnAssets (cache : LendoraCache) : Prop where
  cTokens : ∀ before m after, cache.ordered = before ++ m :: after →
    ∀ later ∈ after, ¬ later.Called m.cToken.hex
  names : ∀ asset, cache.NoAddress asset → ∀ m ∈ cache.ordered, ∀ other ∈ cache.ordered,
    m.Called asset → other.Called asset → m.cToken = other.cToken

/-- Markets with one cToken are one market. -/
theorem market_eq (distinct : cache.cTokens.Nodup) {other : Market} (member : m ∈ cache.ordered)
    (member' : other ∈ cache.ordered) (same : m.cToken = other.cToken) : m = other :=
  List.inj_on_of_nodup_map distinct member member' same

/-- The address of a cToken leads to its market exactly when no later market is called so. -/
theorem resolve_cToken_iff (indexed : cache.Indexed) (distinct : cache.cTokens.Nodup)
    {before after : List Market} (split : cache.ordered = before ++ m :: after) :
    cache.resolve m.cToken.hex = some m ↔ ∀ later ∈ after, ¬ later.Called m.cToken.hex := by
  have apart : ∀ later ∈ after, later.cToken ≠ m.cToken := by
    have nodup := distinct
    rw [LendoraCache.cTokens, split, List.map_append, List.map_cons, List.nodup_append] at nodup
    intro later member same
    have fresh := (List.nodup_cons.mp nodup.2.1).1
    exact fresh (same ▸ List.mem_map_of_mem member)
  have fresh : m ∉ after.reverse := fun member => apart m (List.mem_reverse.mp member) rfl
  have found : cache.resolve m.cToken.hex =
      (after.reverse ++ m :: before.reverse).find? fun x => assetKey m.cToken.hex ∈ x.keys := by
    refine (indexed (assetKey m.cToken.hex)).trans ?_
    rw [split, List.reverse_append, List.reverse_cons, List.append_assoc]
    rfl
  have own : assetKey m.cToken.hex ∈ m.keys := mem_keys_iff.mpr (.inr (assetKey_hex m.cToken))
  rw [found, find?_split fresh, decide_eq_true_eq]
  constructor
  · rintro ⟨_, none⟩ later member called
    have notFiled := none later (List.mem_reverse.mpr member)
    rw [decide_eq_false_iff_not] at notFiled
    exact notFiled (mem_keys_iff.mpr (.inl called))
  · intro none
    refine ⟨own, fun later member => ?_⟩
    rw [decide_eq_false_iff_not, mem_keys_iff, assetKey_hex]
    rintro (called | same)
    · exact none later (List.mem_reverse.mp member) called
    · exact apart later (List.mem_reverse.mp member) (Address.toLower_hex_inj same).symm

/-- The other assets lead to the one market that is called so exactly when no two are. -/
theorem resolve_names_iff (indexed : cache.Indexed) (distinct : cache.cTokens.Nodup) :
    (∀ asset, cache.NoAddress asset → ∀ m, cache.resolve asset = some m →
      m ∈ cache.ordered ∧ m.Called asset ∧
        ∀ other ∈ cache.ordered, other.Called asset → other = m) ↔
      ∀ asset, cache.NoAddress asset → ∀ m ∈ cache.ordered, ∀ other ∈ cache.ordered,
        m.Called asset → other.Called asset → m.cToken = other.cToken := by
  constructor
  · intro unique asset noAddress m member other member' called called'
    cases found : cache.resolve asset with
    | none =>
      have notFiled := resolve_none indexed found m member
      exact absurd (mem_keys_iff.mpr (.inl called)) notFiled
    | some last =>
      have only := (unique asset noAddress last found).2.2
      rw [only m member called, only other member' called']
  · intro own asset noAddress m found
    obtain ⟨member, filed⟩ := resolve_some indexed found
    have called : m.Called asset := by
      rcases mem_keys_iff.mp filed with called | isAddress
      · exact called
      · exact absurd isAddress (noAddress m member)
    refine ⟨member, called, fun other member' called' => ?_⟩
    exact market_eq distinct member' member
      (own asset noAddress other member' m member called' called)

/-- After a refresh of distinct cTokens the lookups are unambiguous if and only if the markets have
names of their own. Nothing else keeps a market from taking the place of another one. -/
theorem assets_unambiguous_iff {deps : Deps} {w w' : World}
    {events : Events} {cache : LendoraCache}
    (run : Alone deps w refresh events w' (.ok cache))
    (distinct : ∀ e ∈ events, ∀ listed, e.env.lendora .getAllMarkets = .ok listed →
      listed.Nodup) : Unambiguous cache ↔ OwnAssets cache := by
  obtain ⟨indexed, e, member, listed, answered, sublist⟩ := refresh_indexed run
  have nodup : cache.cTokens.Nodup := (distinct e member listed answered).sublist sublist
  have names := resolve_names_iff indexed nodup
  constructor
  · intro unambiguous
    refine ⟨fun before m after split => ?_, names.mp unambiguous.names⟩
    have member : m ∈ cache.ordered := by
      rw [split]
      exact List.mem_append_right _ List.mem_cons_self
    exact (resolve_cToken_iff indexed nodup split).mp (unambiguous.cTokens m member)
  · intro own
    refine ⟨fun m member => ?_, names.mpr own.names⟩
    obtain ⟨before, after, split⟩ := List.append_of_mem member
    exact (resolve_cToken_iff indexed nodup split).mpr (own.cTokens before m after split)

/-- Its markets are listed once. -/
theorem twoMarkets_distinct (symbolOf : Address → Except ReadFault String) :
    ∀ e ∈ (refreshRun symbolOf).1, ∀ listed, e.env.lendora .getAllMarkets = .ok listed →
      listed.Nodup := by
  intro e member listed answered
  have reads := runOn_reads meterDeps twoMarkets symbolOf meterWorld refresh e member
  cases reads.getAllMarkets.symm.trans answered
  exact twoMarkets.listed_nodup

/-- Two markets with names of their own. -/
theorem assets_unambiguous_iff_two :
    Alone meterDeps meterWorld refresh (refreshRun twoSymbols).1 (refreshRun twoSymbols).2.1
        (.ok (cacheOf (refreshRun twoSymbols).2.2)) ∧
      (Unambiguous (cacheOf (refreshRun twoSymbols).2.2) ↔
        OwnAssets (cacheOf (refreshRun twoSymbols).2.2)) := by
  have refreshes : (refreshRun twoSymbols).2.2.isOk = true := by decide +kernel
  exact ⟨refreshRun_ok refreshes,
    assets_unambiguous_iff (refreshRun_ok refreshes) (twoMarkets_distinct twoSymbols)⟩

/-- The lookups are not unambiguous: of two markets whose underlyings have one symbol the later one
is found under it. -/
theorem assets_ambiguous :
    ¬ ∀ (deps : Deps) (w w' : World) (events : Events)
      (cache : LendoraCache), Alone deps w refresh events w' (.ok cache) →
      (∀ e ∈ events, ∀ listed, e.env.lendora .getAllMarkets = .ok listed → listed.Nodup) →
      Unambiguous cache := by
  intro all
  have refreshes : (refreshRun fun _ => .ok "USDC").2.2.isOk = true := by decide +kernel
  have run := refreshRun_ok refreshes
  have unambiguous := all meterDeps meterWorld _ _ _ run (twoMarkets_distinct _)
  have indexed := (refresh_indexed run).1
  have isOrdered : (cacheOf (refreshRun fun _ => .ok "USDC").2.2).ordered =
      [⟨"USDC", .ofBytes [1], .ofBytes [1], 18, 18, false⟩,
        ⟨"USDC", .ofBytes [2], .ofBytes [2], 18, 18, false⟩] := by
    decide +kernel
  have noAddress : (cacheOf (refreshRun fun _ => .ok "USDC").2.2).NoAddress "usdc" := by
    intro m _ same
    have chars := congrArg (fun text => text.toList.head?) same
    obtain ⟨digits, isHex, _⟩ := Address.hex_spells m.cToken
    simp only [Strings.toLower, String.toList_ofList, isHex, List.map_cons, List.head?_cons]
      at chars
    exact absurd chars (by decide +kernel)
  have called : ∀ m ∈ (cacheOf (refreshRun fun _ => .ok "USDC").2.2).ordered, m.Called "usdc" := by
    intro m member
    rw [isOrdered] at member
    refine .inl ?_
    rcases List.mem_pair.mp member with isFirst | isSecond
    · rw [isFirst]
      decide +kernel
    · rw [isSecond]
      decide +kernel
  have same := (resolve_names_iff indexed (by
    rw [LendoraCache.cTokens, isOrdered]
    decide)).mp unambiguous.names "usdc" noAddress
  rw [isOrdered] at same called
  have equal := same _ List.mem_cons_self _ (List.mem_cons_of_mem _ List.mem_cons_self)
    (called _ List.mem_cons_self) (called _ (List.mem_cons_of_mem _ List.mem_cons_self))
  exact absurd equal (by decide)

end SvpMcp
