import SvpMcp.Lib.Trace
import SvpMcp.Spec.Markets

/-!
# What the market cache knows

A refresh is given the first pages only, so the cache is complete as long as every market is on
them. A server resolves what the last tick that could read the chain has seen.
-/

namespace SvpMcp

open MarketCache

variable {chain : MarketChain} {services : MarketServices} {cache cache' : MarketCache}
  {clobPairs : List ClobPair} {perps : List Perpetual}

/-- The entry of a pair, if its perpetual is known. -/
def joinRow (perps : Table UInt32 PerpMeta) (cp : ClobPair) : Option MarketMeta :=
  (perpOf perps cp).map (marketMeta cp)

/-- The join files its rows by ticker. -/
theorem foldl_joinPair_next (perps : Table UInt32 PerpMeta) (joined : Joined) :
    (clobPairs.foldl (joinPair perps) joined).next =
      (clobPairs.filterMap (joinRow perps)).foldl
        (fun table market => table.set market.ticker market) joined.next := by
  induction clobPairs generalizing joined with
  | nil => rfl
  | cons cp rest ih =>
    rw [List.foldl_cons, ih, List.filterMap_cons]
    cases found : perpOf perps cp with
    | none => simp only [joinPair, joinRow, found, Option.map_none]
    | some perp =>
      simp only [joinPair, joinRow, found, Option.map_some, List.foldl_cons, marketMeta]

section Known

variable (knownPairs : ∀ cp ∈ clobPairs, cp ∈ chain.clobPairs)
  (knownPerps : ∀ p ∈ perps, p ∈ chain.perpetuals)

include knownPerps

/-- The perpetual of a pair is found by id. -/
theorem perpOf_perpByID (cp : ClobPair) (perp : PerpMeta) :
    perpOf (perpByID perps) cp = some perp ↔
      ∃ p ∈ perps, cp.perpetualID = some p.id ∧ perp = ⟨p.ticker, p.atomicResolution⟩ := by
  have agree : ∀ p ∈ perps, ∀ p' ∈ perps, p.id = p'.id →
      (⟨p.ticker, p.atomicResolution⟩ : PerpMeta) = ⟨p'.ticker, p'.atomicResolution⟩ := by
    intro p member p' member' same
    rw [chain.perpetuals_keyed.eq_of_key (knownPerps p member) (knownPerps p' member') same]
  unfold perpOf
  cases cp.perpetualID with
  | none =>
    constructor
    · intro impossible
      cases impossible
    · rintro ⟨_, _, impossible, _⟩
      cases impossible
  | some id =>
    show (perpByID perps).get id = some perp ↔ _
    rw [perpByID, Table.get_index agree]
    constructor
    · rintro ⟨p, member, isID, isMeta⟩
      exact ⟨p, member, congrArg some isID.symm, isMeta.symm⟩
    · rintro ⟨p, member, isID, isMeta⟩
      exact ⟨p, member, (Option.some.inj isID).symm, isMeta.symm⟩

/-- The rows join the two lists. -/
theorem mem_rows (market : MarketMeta) :
    market ∈ clobPairs.filterMap (joinRow (perpByID perps)) ↔
      ∃ cp ∈ clobPairs, ∃ p ∈ perps, cp.perpetualID = some p.id ∧
        market = marketMeta cp ⟨p.ticker, p.atomicResolution⟩ := by
  rw [List.mem_filterMap]
  constructor
  · rintro ⟨cp, member, isRow⟩
    obtain ⟨perp, isPerp, rfl⟩ := Option.map_eq_some_iff.mp isRow
    obtain ⟨p, isMember, isID, rfl⟩ := (perpOf_perpByID knownPerps cp perp).mp isPerp
    exact ⟨cp, member, p, isMember, isID, rfl⟩
  · rintro ⟨cp, member, p, isMember, isID, rfl⟩
    have isPerp := (perpOf_perpByID knownPerps cp _).mpr ⟨p, isMember, isID, rfl⟩
    exact ⟨cp, member, by rw [joinRow, isPerp]; rfl⟩

include knownPairs

/-- The join of some pairs and perpetuals of a chain resolves exactly their tickers. -/
theorem get_join (ticker : String) (market : MarketMeta) :
    (join clobPairs perps).next.get ticker = some market ↔
      ∃ cp ∈ clobPairs, ∃ p ∈ perps, cp.perpetualID = some p.id ∧ p.ticker = ticker ∧
        market = marketMeta cp ⟨p.ticker, p.atomicResolution⟩ := by
  have agree : ∀ m ∈ clobPairs.filterMap (joinRow (perpByID perps)),
      ∀ m' ∈ clobPairs.filterMap (joinRow (perpByID perps)), m.ticker = m'.ticker → m = m' := by
    intro m member m' member' same
    obtain ⟨cp, inPairs, p, inPerps, isID, rfl⟩ := (mem_rows knownPerps m).mp member
    obtain ⟨cp', inPairs', p', inPerps', isID', rfl⟩ := (mem_rows knownPerps m').mp member'
    have samePerp : p = p' :=
      chain.tickers_keyed.eq_of_key (knownPerps p inPerps) (knownPerps p' inPerps') same
    subst samePerp
    rw [chain.pair_unique cp (knownPairs cp inPairs) cp' (knownPairs cp' inPairs') p.id isID isID']
  have built : (join clobPairs perps).next =
      Table.index MarketMeta.ticker (fun market => market)
        (clobPairs.filterMap (joinRow (perpByID perps))) :=
    foldl_joinPair_next _ _
  rw [built, Table.get_index agree]
  constructor
  · rintro ⟨m, member, isTicker, isMarket⟩
    obtain ⟨cp, inPairs, p, inPerps, isID, isRow⟩ := (mem_rows knownPerps m).mp member
    rw [isRow] at isTicker
    exact ⟨cp, inPairs, p, inPerps, isID, isTicker, isMarket.symm.trans isRow⟩
  · rintro ⟨cp, inPairs, p, inPerps, isID, isTicker, isMarket⟩
    refine ⟨market, (mem_rows knownPerps market).mpr ⟨cp, inPairs, p, inPerps, isID, isMarket⟩, ?_,
      rfl⟩
    rw [isMarket]
    exact isTicker

end Known

/-- What is fetched are the first pages. -/
theorem fetch_ok (answers : chain.Answers services)
    (fetched : fetch services = .ok (clobPairs, perps)) :
    clobPairs = chain.clobPairs.take pageLimit ∧ perps = chain.perpetuals.take pageLimit := by
  simp [fetch, clobPairAll, allPerpetuals, wrapExternal] at fetched
  obtain ⟨⟨resp, isResp, rfl⟩, resp', isResp', rfl⟩ := fetched
  exact ⟨(answers.clobPairAll resp isResp).1, (answers.allPerpetuals resp' isResp').1⟩

/-- A refresh fails and keeps the cache, or replaces it by the join of what it fetched. -/
theorem refresh_cases (cache : MarketCache) (services : MarketServices) :
    (∃ e, cache.refresh services = (.error e, cache)) ∨
      ∃ clobPairs perps dropped, fetch services = .ok (clobPairs, perps) ∧
        cache.refresh services = (.ok dropped, ⟨(join clobPairs perps).next⟩) := by
  unfold MarketCache.refresh
  cases fetched : fetch services with
  | error e => exact .inl ⟨e, rfl⟩
  | ok both => exact .inr ⟨both.1, both.2, _, rfl, rfl⟩

/-- A refreshed cache resolves the tickers of the markets on the first pages. -/
theorem resolveTicker_refreshed {dropped : List UInt32} (answers : chain.Answers services)
    (refreshed : cache.refresh services = (.ok dropped, cache')) (ticker : String)
    (market : MarketMeta) :
    cache'.resolveTicker ticker = some market ↔
      ∃ cp ∈ chain.clobPairs.take pageLimit, ∃ p ∈ chain.perpetuals.take pageLimit,
        cp.perpetualID = some p.id ∧ p.ticker = ticker ∧
        market = marketMeta cp ⟨p.ticker, p.atomicResolution⟩ := by
  rcases refresh_cases cache services with ⟨e, failed⟩ | ⟨pairs, perps, _, fetched, replaced⟩
  · cases failed.symm.trans refreshed
  · cases replaced.symm.trans refreshed
    obtain ⟨rfl, rfl⟩ := fetch_ok answers fetched
    exact get_join (fun _ => List.mem_of_mem_take) (fun _ => List.mem_of_mem_take) ticker market

/-- The cache resolves exactly the tickers that trade. -/
def MarketChain.Complete (chain : MarketChain) (cache : MarketCache) : Prop :=
  ∀ ticker market, cache.resolveTicker ticker = some market ↔ chain.Trades ticker market

/-- A refresh that succeeds is complete. -/
theorem refreshed_complete {dropped : List UInt32} (onFirst : chain.OnFirstPages)
    (answers : chain.Answers services)
    (refreshed : cache.refresh services = (.ok dropped, cache')) : chain.Complete cache' := by
  intro ticker market
  rw [resolveTicker_refreshed answers refreshed]
  constructor
  · rintro ⟨cp, inPairs, p, inPerps, isID, isTicker, isMarket⟩
    exact ⟨cp, p, ⟨List.mem_of_mem_take inPairs, List.mem_of_mem_take inPerps, isID⟩, isTicker,
      isMarket⟩
  · rintro ⟨cp, p, pairs, isTicker, isMarket⟩
    have first := onFirst cp p pairs
    exact ⟨cp, first.1, p, first.2, pairs.2.2, isTicker, isMarket⟩

/-- A tick either fails and keeps the cache, or reads the chain and makes the cache complete for
it. -/
theorem refresh_tick (onFirst : chain.OnFirstPages) (answers : chain.Answers services) :
    (∃ e, fetch services = .error e) ∧ (cache.refresh services).2 = cache ∨
      (∃ both, fetch services = .ok both) ∧ chain.Complete (cache.refresh services).2 := by
  cases fetched : fetch services with
  | error e =>
    left
    rw [MarketCache.refresh, fetched]
    exact ⟨⟨e, rfl⟩, rfl⟩
  | ok both =>
    obtain ⟨_, refreshed⟩ : ∃ dropped, cache.refresh services =
        (.ok dropped, ⟨(join both.1 both.2).next⟩) := ⟨_, by rw [MarketCache.refresh, fetched]⟩
    rw [refreshed]
    exact .inr ⟨⟨both, rfl⟩, refreshed_complete onFirst answers refreshed⟩

/-- Services that answer from a chain. -/
def MarketChain.firstPages (chain : MarketChain) : MarketServices where
  clobPairAll := .ok ⟨chain.clobPairs.take pageLimit,
    if pageLimit < chain.clobPairs.length then [0] else []⟩
  allPerpetuals := .ok ⟨chain.perpetuals.take pageLimit,
    if pageLimit < chain.perpetuals.length then [0] else []⟩

/-- The first pages are answers. -/
theorem MarketChain.answers_firstPages (chain : MarketChain) :
    chain.Answers chain.firstPages where
  clobPairAll resp isResp := by
    cases isResp
    exact ⟨rfl, by simp⟩
  allPerpetuals resp isResp := by
    cases isResp
    exact ⟨rfl, by simp⟩

/-- A refresh from them succeeds. -/
theorem MarketChain.refresh_firstPages (chain : MarketChain) :
    ∃ dropped cache', MarketCache.new.refresh chain.firstPages = (.ok dropped, cache') :=
  ⟨_, _, rfl⟩

/-- The chain may change from tick to tick. A running server resolves exactly the tickers that
traded at its last tick that could read the chain: every tick after it has failed. -/
theorem run_serves_last_read (cache cache' : MarketCache) (initial : MarketChain × MarketServices)
    (ticks : List (MarketChain × MarketServices))
    (answers : ∀ tick ∈ initial :: ticks, tick.1.OnFirstPages ∧ tick.1.Answers tick.2)
    (running : cache.run initial.2 (ticks.map Prod.snd) = .ok cache') :
    Since (fun _ tick => (∃ both, fetch tick.2 = .ok both) ∧ tick.1.Complete cache')
      (fun tick => ∃ e, fetch tick.2 = .error e) (initial :: ticks) := by
  unfold run at running
  rcases refresh_cases cache initial.2 with ⟨e, failed⟩ | ⟨_, _, _, fetched, replaced⟩
  · rw [failed] at running
    cases running
  rw [replaced] at running
  cases running
  -- The induction is on the ticks so far.
  induction ticks using List.reverseRecOn with
  | nil =>
    have first := answers initial List.mem_cons_self
    change Since _ _ ([] ++ [initial])
    exact since_last ⟨⟨_, fetched⟩, refreshed_complete first.1 first.2 replaced⟩
  | append_singleton ticks tick ih =>
    have last := answers tick (by simp)
    have before := ih fun other member => answers other (by grind)
    rw [List.map_append, List.foldl_append]
    rcases refresh_tick last.1 last.2 with ⟨failed, kept⟩ | read
    · rw [List.map_singleton, List.foldl_cons, List.foldl_nil, kept]
      exact since_append before failed
    · change Since _ _ (initial :: ticks ++ [tick])
      exact since_last read

/-- A chain with one market. -/
def oneMarket : MarketChain where
  clobPairs := [⟨0, some 0, 1000, 100, -9⟩]
  perpetuals := [⟨0, "BTC-USD", -6⟩]
  pairs_keyed := List.nodup_singleton _
  perpetuals_keyed := List.nodup_singleton _
  tickers_keyed := List.nodup_singleton _
  pair_unique _ member _ member' _ _ _ :=
    (List.mem_singleton.mp member).trans (List.mem_singleton.mp member').symm

/-- The market is listed after the first refresh, and the last tick fails. -/
theorem run_serves_last_read_listed :
    ∃ noMarkets cache', MarketCache.new.run (MarketChain.firstPages noMarkets)
        [oneMarket.firstPages, ⟨.error "", .error ""⟩] = .ok cache' ∧
      Since (fun _ tick => (∃ both, fetch tick.2 = .ok both) ∧ MarketChain.Complete tick.1 cache')
        (fun tick => ∃ e, fetch tick.2 = .error e)
        [(noMarkets, noMarkets.firstPages), (oneMarket, oneMarket.firstPages),
          (noMarkets, ⟨.error "", .error ""⟩)] := by
  refine ⟨⟨[], [], .nil, .nil, .nil, nofun⟩, _, rfl,
    run_serves_last_read .new _ (_, _) [(_, _), (_, _)] ?_ rfl⟩
  simp only [List.forall_mem_cons, List.not_mem_nil, false_imp_iff, implies_true, and_true]
  exact ⟨⟨nofun, MarketChain.answers_firstPages _⟩,
    ⟨fun _ _ pairs => ⟨pairs.1, pairs.2.1⟩, oneMarket.answers_firstPages⟩, nofun, nofun, nofun⟩

/-- The cache is complete after every refresh that succeeds, exactly when every market is on the
first pages; a refresh that fails changes no lookup. -/
theorem market_cache_complete_iff (chain : MarketChain) :
    ((∀ (cache cache' : MarketCache) (services : MarketServices) (dropped : List UInt32),
        chain.Answers services → cache.refresh services = (.ok dropped, cache') →
        ∀ ticker market, cache'.resolveTicker ticker = some market ↔ chain.Trades ticker market) ↔
      chain.OnFirstPages) ∧
    ∀ (cache cache' : MarketCache) (services : MarketServices) (e : Err),
      cache.refresh services = (.error e, cache') →
      ∀ ticker, cache'.resolveTicker ticker = cache.resolveTicker ticker := by
  refine ⟨⟨?_, ?_⟩, ?_⟩
  · intro complete cp p pairs
    obtain ⟨inPairs, inPerps, isID⟩ := pairs
    have trades : chain.Trades p.ticker (marketMeta cp ⟨p.ticker, p.atomicResolution⟩) :=
      ⟨cp, p, ⟨inPairs, inPerps, isID⟩, rfl, rfl⟩
    obtain ⟨dropped, cache', refreshed⟩ := chain.refresh_firstPages
    have resolved := (complete _ _ _ _ chain.answers_firstPages refreshed _ _).mpr trades
    obtain ⟨cp', first, p', first', isID', sameTicker, _⟩ :=
      (resolveTicker_refreshed chain.answers_firstPages refreshed _ _).mp resolved
    -- The market that was found is the one on the chain: its ticker and its perpetual are unique.
    have samePerp : p' = p :=
      chain.tickers_keyed.eq_of_key (List.mem_of_mem_take first') inPerps sameTicker
    subst samePerp
    have samePair : cp' = cp :=
      chain.pair_unique cp' (List.mem_of_mem_take first) cp inPairs p'.id isID' isID
    subst samePair
    exact ⟨first, first'⟩
  · intro onFirst cache cache' services dropped answers refreshed
    exact refreshed_complete onFirst answers refreshed
  · intro cache cache' services e failed ticker
    rcases refresh_cases cache services with ⟨_, kept⟩ | ⟨_, _, _, _, replaced⟩
    · cases kept.symm.trans failed
      rfl
    · cases replaced.symm.trans failed

/-- A perpetual for every number below 101. -/
def manyPerpetuals : List Perpetual :=
  (List.range 101).map fun i => ⟨UInt32.ofNat i, String.ofList (Decimal.digits i), -6⟩

/-- A pair for each of the perpetuals. -/
def manyPairs : List ClobPair :=
  (List.range 101).map fun i => ⟨UInt32.ofNat i, some (UInt32.ofNat i), 1000, 100, -9⟩

/-- Small numbers are kept apart. -/
theorem ofNat_inj_below {i j : Nat} (lower : i < 101) (upper : j < 101)
    (same : UInt32.ofNat i = UInt32.ofNat j) : i = j := by
  have words := congrArg UInt32.toNat same
  rw [UInt32.toNat_ofNat', UInt32.toNat_ofNat'] at words
  omega

/-- A chain with one market more than fit a page. -/
def manyMarkets : MarketChain where
  clobPairs := manyPairs
  perpetuals := manyPerpetuals
  pairs_keyed := Keyed.range fun _ lower _ upper => ofNat_inj_below lower upper
  perpetuals_keyed := Keyed.range fun _ lower _ upper => ofNat_inj_below lower upper
  tickers_keyed := Keyed.range fun i _ j _ same => by
    have texts : Decimal.digits i = Decimal.digits j := String.ofList_injective same
    have numbers := congrArg Decimal.readDigits texts
    rw [Decimal.readDigits_digits, Decimal.readDigits_digits] at numbers
    exact Option.some.inj numbers
  pair_unique := by
    intro cp member cp' member' id isID isID'
    obtain ⟨i, _, rfl⟩ := List.mem_map.mp member
    obtain ⟨j, _, rfl⟩ := List.mem_map.mp member'
    rw [Option.some.inj isID, Option.some.inj isID']

/-- The last of 101 markets trades on the chain, and no refreshed cache resolves its ticker. -/
theorem last_market_missing :
    (∃ market, manyMarkets.Trades "100" market) ∧
    ∃ dropped cache', MarketCache.new.refresh manyMarkets.firstPages = (.ok dropped, cache') ∧
      manyMarkets.Answers manyMarkets.firstPages ∧ cache'.resolveTicker "100" = none := by
  constructor
  · refine ⟨_, ⟨100, some 100, 1000, 100, -9⟩, ⟨100, "100", -6⟩, ⟨?_, ?_, rfl⟩, rfl, rfl⟩
    · show _ ∈ manyPairs
      decide +kernel
    · show _ ∈ manyPerpetuals
      decide +kernel
  · refine ⟨_, _, rfl, manyMarkets.answers_firstPages, ?_⟩
    decide +kernel

end SvpMcp
