import SvpMcp.Verif.Units

/-!
# The worst price of a market order

A purchase stays within one tick of the oracle's price moved by the slippage. A sale is cut down
before it is snapped up, so it may end below; and its snap adds in 64 bits.
-/

namespace SvpMcp

open Rounding

variable {b1 b2 : UInt32} {exponent : Int} {r : UInt64}

/-- The oracle's price moved by the slippage, against the trader. -/
def slipped (side : String) (x : ℚ) (bps : UInt32) : ℚ :=
  if side = "BUY" then x * ((10000 + bps.toNat) / 10000) else x * ((10000 - bps.toNat) / 10000)

/-- The exact worst price in subticks. -/
def MarketMeta.worst (market : MarketMeta) (side : String) (x : ℚ) (bps : UInt32) : ℚ :=
  slipped side x bps * 10 ^ market.pricePower

/-- The worst price in subticks with the exponent of 32 bits. -/
def MarketMeta.codeWorst (market : MarketMeta) (side : String) (x : ℚ) (bps : UInt32) : ℚ :=
  slipped side x bps * 10 ^ wrapped market.pricePower

/-- The tick; a market without one snaps to the single subticks. -/
def MarketMeta.tick (market : MarketMeta) : Nat :=
  if market.subticksPerTick = 0 then 1 else market.subticksPerTick.toNat

/-- Positive means nonzero. -/
theorem subticksPerTick_pos {ticks : UInt32} : 0 < ticks ↔ ticks ≠ 0 := by
  rw [UInt32.lt_iff_toNat_lt, UInt32.toNat_zero, Ne, ← UInt32.toNat_inj, UInt32.toNat_zero]
  omega

/-- A tick is positive. -/
theorem tick_pos (market : MarketMeta) : 0 < market.tick := by
  rw [MarketMeta.tick]
  split
  · decide
  case isFalse some =>
    exact UInt32.lt_iff_toNat_lt.mp (subticksPerTick_pos.mpr some)

variable {market : MarketMeta}

/-- The tick is the configured one. -/
theorem tick_eq (ticked : 0 < market.subticksPerTick) :
    market.tick = market.subticksPerTick.toNat :=
  if_neg (subticksPerTick_pos.mp ticked)

/-- Without one it is a subtick. -/
theorem tick_eq_one (unticked : ¬ 0 < market.subticksPerTick) : market.tick = 1 := by
  have isZero : market.subticksPerTick = 0 := by
    by_contra some
    exact unticked (subticksPerTick_pos.mpr some)
  exact if_pos isZero

/-- A tick fits in 32 bits. -/
theorem tick_lt (market : MarketMeta) : market.tick < 2 ^ 32 := by
  have bound := market.subticksPerTick.toNat_lt
  rw [MarketMeta.tick]
  split
  · decide
  · exact bound

/-- A purchase snaps down. -/
theorem snapSubticks_buy (market : MarketMeta) (subticks : UInt64) :
    (snapSubticks "BUY" market.subticksPerTick subticks).toNat =
      snapDown market.tick subticks.toNat := by
  by_cases ticked : 0 < market.subticksPerTick
  · have below := snapDown_le market.subticksPerTick.toNat subticks.toNat
    have bound := subticks.toNat_lt
    rw [snapSubticks, if_pos ticked, if_pos rfl, tick_eq ticked, UInt64.toNat_mul,
      UInt64.toNat_div, UInt32.toNat_toUInt64]
    exact Nat.mod_eq_of_lt (Nat.lt_of_le_of_lt below bound)
  · rw [snapSubticks, if_neg ticked, tick_eq_one ticked, snapDown_of_dvd (Nat.one_dvd _)]

/-- A sale snaps up, in 64 bits. -/
theorem snapSubticks_sell (market : MarketMeta) (subticks : UInt64) :
    (snapSubticks "SELL" market.subticksPerTick subticks).toNat =
      snapUp market.tick subticks.toNat % 2 ^ 64 := by
  have bound := subticks.toNat_lt
  by_cases ticked : 0 < market.subticksPerTick
  · have pos := tick_pos market
    have remainder := Nat.mod_lt subticks.toNat pos
    have word : market.subticksPerTick.toUInt64.toNat = market.tick := by
      rw [UInt32.toNat_toUInt64, tick_eq ticked]
    have rem : (subticks % market.subticksPerTick.toUInt64).toNat =
        subticks.toNat % market.tick := by
      rw [UInt64.toNat_mod, word]
    have whole : subticks % market.subticksPerTick.toUInt64 = 0 ↔
        subticks.toNat % market.tick = 0 := by
      rw [← UInt64.toNat_inj, rem, UInt64.toNat_zero]
    simp only [snapSubticks, if_pos ticked, if_neg (show "SELL" ≠ "BUY" by decide), snapUp]
    by_cases multiple : subticks.toNat % market.tick = 0
    · rw [if_neg (not_not.mpr (whole.mpr multiple)), if_pos multiple, Nat.mod_eq_of_lt bound]
    · have le : subticks % market.subticksPerTick.toUInt64 ≤ market.subticksPerTick.toUInt64 := by
        rw [UInt64.le_iff_toNat_le, rem, word]
        exact remainder.le
      rw [if_pos (fun isZero => multiple (whole.mp isZero)), if_neg multiple, UInt64.toNat_add,
        UInt64.toNat_sub_of_le _ _ le, rem, word]
  · rw [snapSubticks, if_neg ticked, tick_eq_one ticked, snapUp_of_dvd (Nat.one_dvd _),
      Nat.mod_eq_of_lt bound]

/-- Nothing snaps up to nothing, in words of any size. -/
theorem pos_of_snapUp_mod {tick n size : Nat} (pos : 0 < tick)
    (nonzero : snapUp tick n % size ≠ 0) : 0 < n := by
  by_contra none
  rw [Nat.eq_zero_of_not_pos none, (snapUp_eq_zero pos 0).mpr rfl, Nat.zero_mod] at nonzero
  exact nonzero rfl

/-- What is positive after the cut was in range. -/
theorem inRange_of_floor {x : ℚ} (positive : 0 < ⌊x * 10 ^ exponent⌋₊)
    (below : x * 10 ^ exponent < 2 ^ 64) : InRange x exponent := by
  have share := one_div_den_le_one x
  have atLeast : (1 : ℚ) ≤ x * 10 ^ exponent := Nat.floor_pos.mp positive
  exact ⟨by linarith, below⟩

section
variable {setString : String → Option ℚ} {side px : String} {bps : UInt32} {market : MarketMeta}
  {x : ℚ}

/-- What a price with its factor becomes, for either side. -/
theorem aggressiveSubticks_of_factor (valid : side = "BUY" ∨ side = "SELL")
    (isRead : setString px = some x) {factor : ℚ}
    (isFactor : slippageFactor side bps = .ok factor)
    (isSlipped : x * factor = slipped side x bps) :
    aggressiveSubticks setString side px bps market = .ok r ↔
      ∃ cut : UInt64, InRange (slipped side x bps) (wrapped market.pricePower) ∧
        cut.toNat = ⌊market.codeWorst side x bps⌋₊ ∧
        snapSubticks side market.subticksPerTick cut = r ∧ r ≠ 0 := by
  have known : ¬ (side ≠ "BUY" ∧ side ≠ "SELL") := by tauto
  have isWord : ∀ cut, toUint64 (scaleRat (x * factor) (priceExponent market)) = some cut ↔
      InRange (slipped side x bps) (wrapped market.pricePower) ∧
        cut.toNat = ⌊market.codeWorst side x bps⌋₊ := by
    intro cut
    rw [toUint64_scaleRat, priceExponent_toInt, isSlipped]
    rfl
  unfold aggressiveSubticks
  simp only [if_neg known, isRead, isFactor, bind, Except.bind]
  cases word : toUint64 (scaleRat (x * factor) (priceExponent market)) with
  | none =>
    constructor
    · intro isOk
      cases isOk
    · rintro ⟨cut, inRange, isFloor, _⟩
      have isSome := (isWord cut).mpr ⟨inRange, isFloor⟩
      rw [word] at isSome
      cases isSome
  | some cut =>
    obtain ⟨inRange, isFloor⟩ := (isWord cut).mp word
    by_cases zero : snapSubticks side market.subticksPerTick cut = 0
    · simp only [if_pos zero]
      constructor
      · intro isOk
        cases isOk
      · rintro ⟨other, _, isFloor', snapped, positive⟩
        have same : other = cut := UInt64.toNat_inj.mp (isFloor'.trans isFloor.symm)
        rw [same, zero] at snapped
        exact absurd snapped.symm positive
    · simp only [if_neg zero, Except.ok.injEq]
      constructor
      · intro snapped
        exact ⟨cut, inRange, isFloor, snapped, snapped ▸ zero⟩
      · rintro ⟨other, _, isFloor', snapped, _⟩
        have same : other = cut := UInt64.toNat_inj.mp (isFloor'.trans isFloor.symm)
        rw [← snapped, same]

/-- What a purchase returns. -/
theorem aggressiveSubticks_buy (isRead : setString px = some x) :
    aggressiveSubticks setString "BUY" px bps market = .ok r ↔
      market.codeWorst "BUY" x bps < 2 ^ 64 ∧
        r.toNat = snapDown market.tick ⌊market.codeWorst "BUY" x bps⌋₊ ∧ 0 < r.toNat := by
  rw [aggressiveSubticks_of_factor (Or.inl rfl) isRead rfl rfl, Nat.pos_iff_ne_zero, Ne, Ne,
    ← UInt64.toNat_inj, UInt64.toNat_zero]
  constructor
  · rintro ⟨cut, inRange, isFloor, snapped, positive⟩
    rw [← snapped, snapSubticks_buy, isFloor] at positive ⊢
    exact ⟨inRange.2, rfl, positive⟩
  · rintro ⟨below, isSnapped, positive⟩
    have atMost := snapDown_le market.tick ⌊market.codeWorst "BUY" x bps⌋₊
    have inRange : InRange (slipped "BUY" x bps) (wrapped market.pricePower) :=
      inRange_of_floor (show 0 < ⌊market.codeWorst "BUY" x bps⌋₊ by omega) below
    obtain ⟨cut, isFloor⟩ := inRange.exists_word
    refine ⟨cut, inRange, isFloor, ?_, positive⟩
    rw [← UInt64.toNat_inj, snapSubticks_buy, isFloor]
    exact isSnapped.symm

/-- What a sale returns. -/
theorem aggressiveSubticks_sell (isRead : setString px = some x) :
    aggressiveSubticks setString "SELL" px bps market = .ok r ↔
      bps.toNat < 10000 ∧ market.codeWorst "SELL" x bps < 2 ^ 64 ∧
        r.toNat = snapUp market.tick ⌊market.codeWorst "SELL" x bps⌋₊ % 2 ^ 64 ∧
          0 < r.toNat := by
  by_cases negative : 10000 ≤ bps.toNat
  · have refused : ∃ e, aggressiveSubticks setString "SELL" px bps market = .error e := by
      unfold aggressiveSubticks slippageFactor
      simp only [isRead, if_pos negative, bind, Except.bind]
      exact ⟨_, rfl⟩
    obtain ⟨e, isError⟩ := refused
    rw [isError]
    constructor
    · intro isOk
      cases isOk
    · rintro ⟨small, _⟩
      omega
  · have isFactor : slippageFactor "SELL" bps = .ok ((10000 - bps.toNat : ℚ) / 10000) := by
      rw [slippageFactor, if_neg (by decide), if_neg negative]
    rw [aggressiveSubticks_of_factor (Or.inr rfl) isRead isFactor rfl, Nat.pos_iff_ne_zero, Ne,
      Ne, ← UInt64.toNat_inj, UInt64.toNat_zero]
    constructor
    · rintro ⟨cut, inRange, isFloor, snapped, positive⟩
      rw [← snapped, snapSubticks_sell, isFloor] at positive ⊢
      exact ⟨by omega, inRange.2, rfl, positive⟩
    · rintro ⟨_, below, isSnapped, positive⟩
      have floorPos : 0 < ⌊market.codeWorst "SELL" x bps⌋₊ := by
        rw [isSnapped] at positive
        exact pos_of_snapUp_mod (tick_pos market) positive
      have inRange : InRange (slipped "SELL" x bps) (wrapped market.pricePower) :=
        inRange_of_floor floorPos below
      obtain ⟨cut, isFloor⟩ := inRange.exists_word
      refine ⟨cut, inRange, isFloor, ?_, positive⟩
      rw [← UInt64.toNat_inj, snapSubticks_sell, isFloor]
      exact isSnapped.symm

end

/-- What the order's limit price promises: a positive multiple of the tick, within one tick of
the exact worst price and not worse than it. -/
structure KeepsWorst (side : String) (tick : Nat) (worst : ℚ) (r : Nat) : Prop where
  positive : 0 < r
  multiple : tick ∣ r
  buy : side = "BUY" → r ≤ worst ∧ worst < r + tick
  sell : side = "SELL" → worst ≤ r ∧ r < worst + tick

/-- The inputs of a purchase at which the promise is kept: the exponent does not wrap, or the
order is refused. -/
def BuyKept (x : ℚ) (bps : UInt32) (market : MarketMeta) : Prop :=
  wrapped market.pricePower = market.pricePower ∨
    market.codeWorst "BUY" x bps < market.subticksPerTick.toNat ∨
      2 ^ 64 ≤ market.codeWorst "BUY" x bps

/-- The inputs of a sale at which the promise is kept: the order is refused, or the tick at or
above the cut price is in 64 bits and the cut lost nothing, or lost it to the snap. -/
def SellKept (x : ℚ) (bps : UInt32) (market : MarketMeta) : Prop :=
  10000 ≤ bps.toNat ∨ market.codeWorst "SELL" x bps < 1 ∨
    2 ^ 64 ≤ market.codeWorst "SELL" x bps ∨
    snapUp market.subticksPerTick.toNat ⌊market.codeWorst "SELL" x bps⌋₊ = 2 ^ 64 ∨
    (snapUp market.subticksPerTick.toNat ⌊market.codeWorst "SELL" x bps⌋₊ < 2 ^ 64 ∧
      if wrapped market.pricePower = market.pricePower then
        (∃ n : Nat, market.worst "SELL" x bps = n) ∨
          ¬ market.subticksPerTick.toNat ∣ ⌊market.worst "SELL" x bps⌋₊
      else
        market.pricePower < wrapped market.pricePower ∧
          ⌊market.codeWorst "SELL" x bps⌋₊ ≤ market.subticksPerTick.toNat)

section
variable {tick : Nat} {w w' : ℚ}

/-- A price that snaps down is within a tick above the result. -/
theorem snapDown_bounds (pos : 0 < tick) (nonneg : 0 ≤ w) :
    (snapDown tick ⌊w⌋₊ : ℚ) ≤ w ∧ w < (snapDown tick ⌊w⌋₊ : ℚ) + tick := by
  have below : (snapDown tick ⌊w⌋₊ : ℚ) ≤ ⌊w⌋₊ := by exact_mod_cast snapDown_le tick ⌊w⌋₊
  have above : (⌊w⌋₊ : ℚ) + 1 ≤ snapDown tick ⌊w⌋₊ + tick := by
    exact_mod_cast lt_snapDown_add pos ⌊w⌋₊
  have part := Nat.floor_le nonneg
  have next := Nat.lt_floor_add_one w
  constructor
  · linarith
  · linarith

/-- A price that is cut and snaps up is within a tick below the result, unless the cut alone made
it a multiple of the tick. -/
theorem snapUp_bounds_iff (pos : 0 < tick) (nonneg : 0 ≤ w) :
    (w ≤ (snapUp tick ⌊w⌋₊ : ℚ) ∧ (snapUp tick ⌊w⌋₊ : ℚ) < w + tick) ↔
      (∃ n : Nat, w = n) ∨ ¬ tick ∣ ⌊w⌋₊ := by
  have above : (snapUp tick ⌊w⌋₊ : ℚ) < ⌊w⌋₊ + tick := by exact_mod_cast snapUp_lt pos ⌊w⌋₊
  have part := Nat.floor_le nonneg
  have next := Nat.lt_floor_add_one w
  constructor
  · rintro ⟨below, _⟩
    by_cases multiple : tick ∣ ⌊w⌋₊
    · rw [snapUp_of_dvd multiple] at below
      exact Or.inl ⟨⌊w⌋₊, le_antisymm below part⟩
    · exact Or.inr multiple
  · rintro (⟨n, isNat⟩ | apart)
    · have below : (⌊w⌋₊ : ℚ) ≤ snapUp tick ⌊w⌋₊ := by exact_mod_cast le_snapUp tick ⌊w⌋₊
      rw [isNat, Nat.floor_natCast] at below above ⊢
      exact ⟨below, above⟩
    · have below : (⌊w⌋₊ : ℚ) + 1 ≤ snapUp tick ⌊w⌋₊ := by exact_mod_cast lt_snapUp pos apart
      constructor
      · linarith
      · linarith

/-- A price of at least one subtick snaps up to something. -/
theorem snapUp_floor_pos (one : 1 ≤ w) : 0 < snapUp tick ⌊w⌋₊ :=
  Nat.lt_of_lt_of_le (Nat.floor_pos.mpr one) (le_snapUp tick ⌊w⌋₊)

/-- A result far from the price is within a tick of it on neither side. -/
theorem snapDown_apart (pos : 0 < tick) (nonneg : 0 ≤ w') (reached : tick ≤ ⌊w'⌋₊)
    (apart : w' * 10 ^ 20 ≤ w ∨ w * 10 ^ 20 ≤ w') :
    ¬ ((snapDown tick ⌊w'⌋₊ : ℚ) ≤ w ∧ w < (snapDown tick ⌊w'⌋₊ : ℚ) + tick) := by
  rintro ⟨below, above⟩
  obtain ⟨atMost, atLeast⟩ := snapDown_bounds pos nonneg
  have positive : (1 : ℚ) ≤ tick := by exact_mod_cast pos
  have aTick : (tick : ℚ) ≤ snapDown tick ⌊w'⌋₊ := by
    exact_mod_cast Nat.le_of_dvd (snapDown_pos pos reached) (dvd_snapDown tick ⌊w'⌋₊)
  rcases apart with high | low
  · norm_num at high
    linarith
  · norm_num at low
    linarith

/-- A price far above the one that was snapped is above the result. -/
theorem snapUp_far_above (one : 1 ≤ w') (small : snapUp tick ⌊w'⌋₊ < 2 ^ 64)
    (high : w' * 10 ^ 20 ≤ w) : (snapUp tick ⌊w'⌋₊ : ℚ) < w := by
  have bound : (snapUp tick ⌊w'⌋₊ : ℚ) < 18446744073709551616 := by exact_mod_cast small
  norm_num at high
  linarith

/-- A price far below the one that was snapped is within a tick of the result only at the first
tick. -/
theorem snapUp_far_below (pos : 0 < tick) (one : 1 ≤ w') (below : w' < 2 ^ 64) (positive : 0 < w)
    (low : w * 10 ^ 20 ≤ w') :
    (w ≤ (snapUp tick ⌊w'⌋₊ : ℚ) ∧ (snapUp tick ⌊w'⌋₊ : ℚ) < w + tick) ↔ ⌊w'⌋₊ ≤ tick := by
  have belowOne : w < 1 := by
    norm_num at low below
    linarith
  have snapPos : (1 : ℚ) ≤ snapUp tick ⌊w'⌋₊ := by
    exact_mod_cast snapUp_floor_pos one
  rw [← snapUp_le_iff pos (Nat.dvd_refl tick)]
  constructor
  · rintro ⟨_, above⟩
    have atMost : (snapUp tick ⌊w'⌋₊ : ℚ) < tick + 1 := by linarith
    exact Nat.le_of_lt_succ (by exact_mod_cast atMost)
  · intro atMost
    have first : (snapUp tick ⌊w'⌋₊ : ℚ) ≤ tick := by exact_mod_cast atMost
    constructor
    · linarith
    · linarith

/-- A sale whose snap passes the largest word is no multiple of the tick. -/
theorem keepsWorst_sell (pos : 0 < tick) {n : Nat} (bounded : n < 2 ^ 64) (short : tick < 2 ^ 32)
    (positive : 0 < snapUp tick n) :
    KeepsWorst "SELL" tick w (snapUp tick n % 2 ^ 64) ↔
      snapUp tick n < 2 ^ 64 ∧ w ≤ snapUp tick n ∧ (snapUp tick n : ℚ) < w + tick := by
  have bound := snapUp_lt pos n
  by_cases fits : snapUp tick n < 2 ^ 64
  · rw [Nat.mod_eq_of_lt fits]
    constructor
    · intro keeps
      exact ⟨fits, keeps.sell rfl⟩
    · rintro ⟨_, bounds⟩
      exact ⟨positive, dvd_snapUp pos n, fun isBuy => absurd isBuy (by decide),
        fun _ => bounds⟩
  · constructor
    · intro keeps
      have aTick := Nat.le_of_dvd keeps.positive keeps.multiple
      omega
    · rintro ⟨small, _⟩
      exact absurd small fits

end

/-- A slipped price is not negative. -/
theorem slipped_nonneg {side : String} {x : ℚ} {bps : UInt32} (nonneg : 0 ≤ x)
    (allowed : side = "BUY" ∨ bps.toNat < 10000) : 0 ≤ slipped side x bps := by
  rw [slipped]
  by_cases buy : side = "BUY"
  · rw [if_pos buy]
    positivity
  · have small : (bps.toNat : ℚ) < 10000 := by
      exact_mod_cast allowed.resolve_left buy
    rw [if_neg buy]
    exact mul_nonneg nonneg (div_nonneg (by linarith) (by norm_num))

/-- An exponent of 32 bits gives the exact worst price. -/
theorem codeWorst_eq {side : String} {x : ℚ} {bps : UInt32}
    (fits : wrapped market.pricePower = market.pricePower) :
    market.codeWorst side x bps = market.worst side x bps := by
  rw [MarketMeta.codeWorst, fits, MarketMeta.worst]

/-- Where the exponent wraps, the worst price of the code is far from the exact one. -/
theorem worst_apart {side : String} {x : ℚ} {bps : UInt32} (nonneg : 0 ≤ slipped side x bps) :
    (wrapped market.pricePower + 2 ^ 32 ≤ market.pricePower →
      market.codeWorst side x bps * 10 ^ 20 ≤ market.worst side x bps) ∧
    (market.pricePower + 2 ^ 32 ≤ wrapped market.pricePower →
      market.worst side x bps * 10 ^ 20 ≤ market.codeWorst side x bps) := by
  constructor
  · intro above
    exact zpow_gap 20 (by omega) nonneg
  · intro below
    exact zpow_gap 20 (by omega) nonneg

section
variable {setString : String → Option ℚ} {px : String} {bps : UInt32} {market : MarketMeta}
  {x : ℚ}

/-- A purchase keeps its promise exactly at the inputs above. -/
theorem buy_keeps_iff (isRead : setString px = some x) (nonneg : 0 ≤ x)
    (ticked : 0 < market.subticksPerTick) :
    (∀ r, aggressiveSubticks setString "BUY" px bps market = .ok r →
      KeepsWorst "BUY" market.subticksPerTick.toNat (market.worst "BUY" x bps) r.toNat) ↔
      BuyKept x bps market := by
  have price : 0 ≤ slipped "BUY" x bps := slipped_nonneg nonneg (Or.inl rfl)
  have codeNonneg : 0 ≤ market.codeWorst "BUY" x bps := mul_nonneg price (by positivity)
  have pos := tick_pos market
  have isOk : ∀ r, aggressiveSubticks setString "BUY" px bps market = .ok r ↔ _ :=
    fun r => aggressiveSubticks_buy isRead
  rw [BuyKept, ← tick_eq ticked]
  constructor
  · intro keeps
    by_contra fails
    simp only [not_or, not_lt, not_le] at fails
    obtain ⟨wraps, reached, below⟩ := fails
    have ticks : market.tick ≤ ⌊market.codeWorst "BUY" x bps⌋₊ := Nat.le_floor reached
    have positive := snapDown_pos pos ticks
    have atMost := snapDown_le market.tick ⌊market.codeWorst "BUY" x bps⌋₊
    have small := floor_lt_iff.mpr below
    have word : (UInt64.ofNat (snapDown market.tick ⌊market.codeWorst "BUY" x bps⌋₊)).toNat =
        snapDown market.tick ⌊market.codeWorst "BUY" x bps⌋₊ :=
      UInt64.toNat_ofNat_of_lt' (Nat.lt_of_le_of_lt atMost small)
    have kept := (keeps _ ((isOk _).mpr ⟨below, word, by rw [word]; exact positive⟩)).buy rfl
    rw [word] at kept
    refine snapDown_apart pos codeNonneg ticks ?_ kept
    rcases wrapped_cases market.pricePower with fits | above | below
    · exact absurd fits wraps
    · exact Or.inl ((worst_apart price).1 above)
    · exact Or.inr ((worst_apart price).2 below)
  · intro kept r accepted
    obtain ⟨below, isSnapped, positive⟩ := (isOk r).mp accepted
    have fits : wrapped market.pricePower = market.pricePower := by
      rcases kept with fits | short | large
      · exact fits
      · have isZero := (snapDown_eq_zero pos _).mpr ((Nat.floor_lt codeNonneg).mpr short)
        omega
      · exact absurd below (not_lt.mpr large)
    have bounds := snapDown_bounds pos codeNonneg
    rw [← isSnapped, codeWorst_eq fits] at bounds
    refine ⟨positive, ?_, fun _ => bounds, fun isSell => absurd isSell (by decide)⟩
    rw [isSnapped]
    exact dvd_snapDown market.tick _

/-- The bounds of a sale whose snap stays within 64 bits. -/
theorem sell_bounds_iff (price : 0 ≤ slipped "SELL" x bps)
    (one : 1 ≤ market.codeWorst "SELL" x bps) (below : market.codeWorst "SELL" x bps < 2 ^ 64)
    (inWord : snapUp market.tick ⌊market.codeWorst "SELL" x bps⌋₊ < 2 ^ 64) :
    (market.worst "SELL" x bps ≤ snapUp market.tick ⌊market.codeWorst "SELL" x bps⌋₊ ∧
      (snapUp market.tick ⌊market.codeWorst "SELL" x bps⌋₊ : ℚ) <
        market.worst "SELL" x bps + market.tick) ↔
      if wrapped market.pricePower = market.pricePower then
        (∃ n : Nat, market.worst "SELL" x bps = n) ∨
          ¬ market.tick ∣ ⌊market.worst "SELL" x bps⌋₊
      else
        market.pricePower < wrapped market.pricePower ∧
          ⌊market.codeWorst "SELL" x bps⌋₊ ≤ market.tick := by
  have pos := tick_pos market
  rcases wrapped_cases market.pricePower with fits | above | under
  · rw [if_pos fits, codeWorst_eq fits]
    exact snapUp_bounds_iff pos (mul_nonneg price (by positivity))
  · have far := snapUp_far_above one inWord ((worst_apart price).1 above)
    rw [if_neg (by omega)]
    constructor
    · rintro ⟨atMost, _⟩
      exact absurd far (not_lt.mpr atMost)
    · rintro ⟨less, _⟩
      omega
  · have priced : 0 < slipped "SELL" x bps := by
      refine lt_of_le_of_ne price fun isZero => ?_
      rw [MarketMeta.codeWorst, ← isZero, zero_mul] at one
      exact absurd one (by norm_num)
    have positive : 0 < market.worst "SELL" x bps := mul_pos priced (by positivity)
    have grows : market.pricePower < wrapped market.pricePower := by omega
    rw [if_neg (by omega), and_iff_right grows]
    exact snapUp_far_below pos one below positive ((worst_apart price).2 under)

/-- A sale keeps its promise exactly at the inputs above. -/
theorem sell_keeps_iff (isRead : setString px = some x) (nonneg : 0 ≤ x)
    (ticked : 0 < market.subticksPerTick) :
    (∀ r, aggressiveSubticks setString "SELL" px bps market = .ok r →
      KeepsWorst "SELL" market.subticksPerTick.toNat (market.worst "SELL" x bps) r.toNat) ↔
      SellKept x bps market := by
  have isOk : ∀ r, aggressiveSubticks setString "SELL" px bps market = .ok r ↔ _ :=
    fun r => aggressiveSubticks_sell isRead
  have pos := tick_pos market
  rw [SellKept, ← tick_eq ticked]
  by_cases refused : 10000 ≤ bps.toNat ∨ market.codeWorst "SELL" x bps < 1 ∨
      2 ^ 64 ≤ market.codeWorst "SELL" x bps ∨
      snapUp market.tick ⌊market.codeWorst "SELL" x bps⌋₊ = 2 ^ 64
  · constructor
    · intro _
      tauto
    · intro _ r accepted
      obtain ⟨allowed, below, isSnapped, positive⟩ := (isOk r).mp accepted
      rcases refused with negative | short | large | wraps
      · omega
      · rw [Nat.floor_eq_zero.mpr short, (snapUp_eq_zero pos 0).mpr rfl] at isSnapped
        omega
      · exact absurd below (not_lt.mpr large)
      · rw [wraps] at isSnapped
        omega
  · simp only [not_or, not_lt, not_le] at refused
    obtain ⟨allowed, one, below, noWrap⟩ := refused
    have price : 0 ≤ slipped "SELL" x bps := slipped_nonneg nonneg (Or.inr allowed)
    have small := floor_lt_iff.mpr below
    have bound := snapUp_lt pos ⌊market.codeWorst "SELL" x bps⌋₊
    have short := tick_lt market
    have positive : 0 < snapUp market.tick ⌊market.codeWorst "SELL" x bps⌋₊ :=
      snapUp_floor_pos one
    -- The order is accepted, with the snapped price in 64 bits.
    have word : ∀ n : Nat, (UInt64.ofNat n).toNat = n % 2 ^ 64 := fun n => UInt64.toNat_ofNat'
    have accepted := (isOk (UInt64.ofNat (snapUp market.tick
      ⌊market.codeWorst "SELL" x bps⌋₊))).mpr ⟨allowed, below, word _, by rw [word]; omega⟩
    simp only [accepted, Except.ok.injEq, forall_eq', word]
    rw [keepsWorst_sell pos small short positive, or_iff_right (Nat.not_le.mpr allowed),
      or_iff_right (not_lt.mpr one), or_iff_right (not_le.mpr below), or_iff_right noWrap]
    exact and_congr_right fun inWord => sell_bounds_iff price one below inWord

/-- A market order keeps its worst price exactly at these inputs of its side. -/
theorem worst_price_iff {side : String} (isRead : setString px = some x) (nonneg : 0 ≤ x)
    (ticked : 0 < market.subticksPerTick) :
    (∀ r, aggressiveSubticks setString side px bps market = .ok r →
      KeepsWorst side market.subticksPerTick.toNat (market.worst side x bps) r.toNat) ↔
      (side = "BUY" → BuyKept x bps market) ∧ (side = "SELL" → SellKept x bps market) := by
  by_cases buy : side = "BUY"
  · subst buy
    rw [buy_keeps_iff isRead nonneg ticked]
    simp
  by_cases sell : side = "SELL"
  · subst sell
    rw [sell_keeps_iff isRead nonneg ticked]
    simp
  · constructor
    · intro _
      exact ⟨fun isBuy => absurd isBuy buy, fun isSell => absurd isSell sell⟩
    · intro _ r accepted
      rw [aggressiveSubticks, if_pos ⟨buy, sell⟩] at accepted
      cases accepted

end

/-- The purchase of the package's tests keeps its worst price. -/
theorem worst_price_iff_btc :
    plainDecimal "65000.00" = some 65000 ∧ (0 : ℚ) ≤ 65000 ∧ 0 < btcMarket.subticksPerTick ∧
      ∀ r, aggressiveSubticks plainDecimal "BUY" "65000.00" 100 btcMarket = .ok r →
        KeepsWorst "BUY" btcMarket.subticksPerTick.toNat (btcMarket.worst "BUY" 65000 100)
          r.toNat := by
  have isRead : plainDecimal "65000.00" = some 65000 := by decide +kernel
  have kept : BuyKept 65000 100 btcMarket := Or.inl (by decide)
  refine ⟨isRead, by norm_num, by decide, ?_⟩
  exact (worst_price_iff isRead (by norm_num) (by decide)).mpr
    ⟨fun _ => kept, fun isSell => absurd isSell (by decide)⟩

/-- A sale that ends below the exact worst price, by the fraction of a subtick that was cut. -/
theorem sale_below_worst :
    aggressiveSubticks plainDecimal "SELL" "65000.000005" 200 btcMarket = .ok 6370000000 ∧
    plainDecimal "65000.000005" = some (mkRat 65000000005 (10 ^ 6)) ∧
    ¬ ∀ r, aggressiveSubticks plainDecimal "SELL" "65000.000005" 200 btcMarket = .ok r →
      KeepsWorst "SELL" btcMarket.subticksPerTick.toNat
        (btcMarket.worst "SELL" (mkRat 65000000005 (10 ^ 6)) 200) r.toNat := by
  have accepted :
      aggressiveSubticks plainDecimal "SELL" "65000.000005" 200 btcMarket = .ok 6370000000 := by
    decide +kernel
  refine ⟨accepted, by decide +kernel, fun keeps => ?_⟩
  have atMost := ((keeps _ accepted).sell rfl).1
  revert atMost
  decide +kernel

/-- Without slippage the price stays. -/
theorem slipped_zero (side : String) (x : ℚ) : slipped side x 0 = x := by
  have plain : ((0 : UInt32).toNat : ℚ) = 0 := by rw [UInt32.toNat_zero, Nat.cast_zero]
  rw [slipped, plain, add_zero, sub_zero, div_self (by norm_num), mul_one, ite_self]

/-- More slippage moves a purchase up and a sale down. -/
theorem slipped_mono {x : ℚ} (nonneg : 0 ≤ x) (le : b1 ≤ b2) :
    slipped "BUY" x b1 ≤ slipped "BUY" x b2 ∧ slipped "SELL" x b2 ≤ slipped "SELL" x b1 := by
  have steps : (b1.toNat : ℚ) ≤ b2.toNat := by exact_mod_cast UInt32.le_iff_toNat_le.mp le
  simp only [slipped, if_pos, if_neg (show "SELL" ≠ "BUY" by decide)]
  constructor
  · exact mul_le_mul_of_nonneg_left (by linarith) nonneg
  · exact mul_le_mul_of_nonneg_left (by linarith) nonneg

/-- A price that stays positive was positive. -/
theorem nonneg_of_floor {side : String} {x : ℚ} {bps : UInt32}
    (allowed : side = "BUY" ∨ bps.toNat < 10000) (positive : 0 < ⌊market.codeWorst side x bps⌋₊) :
    0 ≤ x := by
  by_contra negative
  have opposite := slipped_nonneg (neg_nonneg.mpr (not_le.mp negative).le) allowed
  have moved : slipped side (-x) bps = -slipped side x bps := by
    rw [slipped, slipped, neg_mul, neg_mul]
    split
    · rfl
    · rfl
  rw [moved, neg_nonneg] at opposite
  have low : market.codeWorst side x bps ≤ 0 :=
    mul_nonpos_of_nonpos_of_nonneg opposite (by positivity)
  rw [Nat.floor_of_nonpos low] at positive
  omega

/-- Market orders agree with the limit path at no slippage, and more slippage is never closer to
the oracle's price. -/
structure SlippageConsistent (setString : String → Option ℚ) (side px : String) (b1 b2 : UInt32)
    (market : MarketMeta) : Prop where
  limit : side = "BUY" ∨ side = "SELL" → ∀ t, priceToSubticks setString px market = .ok t →
    0 < t → aggressiveSubticks setString side px 0 market = .ok t
  monotone : b1 ≤ b2 → ∀ x, setString px = some x → market.worst side x b1 < 2 ^ 63 →
    market.worst side x b2 < 2 ^ 63 → ∀ r1 r2,
      aggressiveSubticks setString side px b1 market = .ok r1 →
      aggressiveSubticks setString side px b2 market = .ok r2 →
        (side = "BUY" → r1 ≤ r2) ∧ (side = "SELL" → r2 ≤ r1)

/-- The inputs at which a sale passes the largest word with less slippage but not with more. It
takes an exponent below the 32 bits. -/
def SnapOverflows (setString : String → Option ℚ) (side px : String) (b1 b2 : UInt32)
    (market : MarketMeta) : Prop :=
  side = "SELL" ∧ b1 ≤ b2 ∧ b2.toNat < 10000 ∧ market.pricePower < -2 ^ 31 ∧
    ∃ x, setString px = some x ∧ market.codeWorst "SELL" x b1 < 2 ^ 64 ∧
      2 ^ 64 < snapUp market.tick ⌊market.codeWorst "SELL" x b1⌋₊ ∧
      1 ≤ market.codeWorst "SELL" x b2 ∧
      snapUp market.tick ⌊market.codeWorst "SELL" x b2⌋₊ < 2 ^ 64

section
variable {setString : String → Option ℚ} {px : String} {market : MarketMeta}

/-- Without slippage the limit path's result is returned for both sides. -/
theorem aggressiveSubticks_zero {side : String} (valid : side = "BUY" ∨ side = "SELL")
    {t : UInt64} (accepted : priceToSubticks setString px market = .ok t) (positive : 0 < t) :
    aggressiveSubticks setString side px 0 market = .ok t := by
  cases isRead : setString px with
  | none =>
    rw [priceToSubticks, humanToUnits, isRead] at accepted
    cases accepted
  | some x =>
    obtain ⟨passes, isFloor⟩ := (humanToUnits_of_some isRead).mp accepted
    have tickPos := tick_pos market
    have multiple : market.tick ∣ t.toNat := by
      have step : (priceScale market).step.toNat = market.subticksPerTick.toNat :=
        UInt32.toNat_toUInt64 _
      have aligned := passes.2
      rw [← isFloor, step] at aligned
      rw [MarketMeta.tick]
      split
      · exact Nat.one_dvd _
      case isFalse some =>
        exact aligned (UInt32.lt_iff_toNat_lt.mp (subticksPerTick_pos.mpr some))
    have price : ∀ side,
        market.codeWorst side x 0 = x * 10 ^ (priceScale market).exponent.toInt := by
      intro side
      rw [MarketMeta.codeWorst, slipped_zero, ← priceExponent_toInt]
      rfl
    have tPos : 0 < t.toNat := UInt64.lt_iff_toNat_lt.mp positive
    have bound := t.toNat_lt
    rcases valid with buy | sell
    · subst buy
      rw [aggressiveSubticks_buy isRead, price, ← isFloor, snapDown_of_dvd multiple]
      exact ⟨passes.1.2, rfl, tPos⟩
    · subst sell
      rw [aggressiveSubticks_sell isRead, price, ← isFloor, snapUp_of_dvd multiple,
        Nat.mod_eq_of_lt bound]
      exact ⟨by decide, passes.1.2, rfl, tPos⟩

/-- More slippage raises a purchase's price. -/
theorem buy_monotone {x : ℚ} (isRead : setString px = some x) (le : b1 ≤ b2) {r1 r2 : UInt64}
    (first : aggressiveSubticks setString "BUY" px b1 market = .ok r1)
    (second : aggressiveSubticks setString "BUY" px b2 market = .ok r2) : r1 ≤ r2 := by
  obtain ⟨_, isSnapped1, positive1⟩ := (aggressiveSubticks_buy isRead).mp first
  obtain ⟨_, isSnapped2, _⟩ := (aggressiveSubticks_buy isRead).mp second
  have atMost := snapDown_le market.tick ⌊market.codeWorst "BUY" x b1⌋₊
  have reached : 0 < ⌊market.codeWorst "BUY" x b1⌋₊ := by omega
  have nonneg := nonneg_of_floor (Or.inl rfl) reached
  have grows : market.codeWorst "BUY" x b1 ≤ market.codeWorst "BUY" x b2 :=
    mul_le_mul_of_nonneg_right (slipped_mono nonneg le).1 (by positivity)
  rw [UInt64.le_iff_toNat_le, isSnapped1, isSnapped2]
  exact snapDown_mono (Nat.floor_mono grows)

/-- More slippage lowers a sale's price, or both sales passed the largest word, or the first did
alone. -/
theorem sell_monotone {x : ℚ} (isRead : setString px = some x) (le : b1 ≤ b2) {r1 r2 : UInt64}
    (first : aggressiveSubticks setString "SELL" px b1 market = .ok r1)
    (second : aggressiveSubticks setString "SELL" px b2 market = .ok r2) :
    r2 ≤ r1 ∨ (2 ^ 64 < snapUp market.tick ⌊market.codeWorst "SELL" x b1⌋₊ ∧
      1 ≤ market.codeWorst "SELL" x b2 ∧
      snapUp market.tick ⌊market.codeWorst "SELL" x b2⌋₊ < 2 ^ 64) := by
  obtain ⟨_, below1, isSnapped1, positive1⟩ := (aggressiveSubticks_sell isRead).mp first
  obtain ⟨allowed2, _, isSnapped2, positive2⟩ := (aggressiveSubticks_sell isRead).mp second
  have pos := tick_pos market
  have short := tick_lt market
  have reached : 0 < ⌊market.codeWorst "SELL" x b2⌋₊ := by
    rw [isSnapped2] at positive2
    exact pos_of_snapUp_mod pos positive2.ne'
  have nonneg := nonneg_of_floor (Or.inr allowed2) reached
  have falls : market.codeWorst "SELL" x b2 ≤ market.codeWorst "SELL" x b1 :=
    mul_le_mul_of_nonneg_right (slipped_mono nonneg le).2 (by positivity)
  have snaps := snapUp_mono pos (Nat.floor_mono falls)
  have bound := snapUp_lt pos ⌊market.codeWorst "SELL" x b1⌋₊
  have small := floor_lt_iff.mpr below1
  have one : 1 ≤ market.codeWorst "SELL" x b2 := Nat.floor_pos.mp reached
  rw [UInt64.le_iff_toNat_le]
  by_cases overflows : 2 ^ 64 < snapUp market.tick ⌊market.codeWorst "SELL" x b1⌋₊ ∧
      snapUp market.tick ⌊market.codeWorst "SELL" x b2⌋₊ < 2 ^ 64
  · exact Or.inr ⟨overflows.1, one, overflows.2⟩
  · left
    omega

/-- An exponent that does not fall below the 32 bits is at least the wrapped one. -/
theorem wrapped_le (fits : -2 ^ 31 ≤ exponent) : wrapped exponent ≤ exponent := by
  rw [wrapped, Int.bmod_def]
  split
  · omega
  · omega

/-- An exponent below the range wraps up. -/
theorem le_wrapped (low : exponent < -2 ^ 31) :
    exponent + 2 ^ 32 ≤ wrapped exponent := by
  rw [wrapped, Int.bmod_def]
  split
  · omega
  · omega

/-- A sale that passes the largest word has a worst price that is too large, unless the exponent
falls below the 32 bits. -/
theorem low_of_overflow {x : ℚ} {bps : UInt32} (price : 0 ≤ slipped "SELL" x bps)
    (bounded : market.worst "SELL" x bps < 2 ^ 63)
    (overflows : 2 ^ 64 < snapUp market.tick ⌊market.codeWorst "SELL" x bps⌋₊) :
    market.pricePower < -2 ^ 31 := by
  by_contra fits
  have powers : (10 : ℚ) ^ wrapped market.pricePower ≤ 10 ^ market.pricePower :=
    zpow_le_zpow_right₀ (by norm_num) (wrapped_le (Int.not_lt.mp fits))
  have atMost : market.codeWorst "SELL" x bps ≤ market.worst "SELL" x bps :=
    mul_le_mul_of_nonneg_left powers price
  have small : ⌊market.codeWorst "SELL" x bps⌋₊ < 2 ^ 63 := by
    rw [Nat.floor_lt' (by decide)]
    push_cast
    exact lt_of_le_of_lt atMost bounded
  have bound := snapUp_lt (tick_pos market) ⌊market.codeWorst "SELL" x bps⌋₊
  have short := tick_lt market
  omega

/-- A price of the code below the largest word has an exact worst price below half of it, where
the exponent falls below the 32 bits. -/
theorem worst_lt_of_low {x : ℚ} {bps : UInt32} (price : 0 ≤ slipped "SELL" x bps)
    (low : market.pricePower < -2 ^ 31) (below : market.codeWorst "SELL" x bps < 2 ^ 64) :
    market.worst "SELL" x bps < 2 ^ 63 := by
  have far := (worst_apart price).2 (le_wrapped low)
  norm_num at far below ⊢
  linarith

/-- A sale whose snap passes the largest word alone is priced below the one with more slippage. -/
theorem sell_falls {x : ℚ} (isRead : setString px = some x) (le : b1 ≤ b2)
    (allowed : b2.toNat < 10000) (below : market.codeWorst "SELL" x b1 < 2 ^ 64)
    (overflows : 2 ^ 64 < snapUp market.tick ⌊market.codeWorst "SELL" x b1⌋₊)
    (one : 1 ≤ market.codeWorst "SELL" x b2)
    (inWord : snapUp market.tick ⌊market.codeWorst "SELL" x b2⌋₊ < 2 ^ 64) :
    ∃ r1 r2, aggressiveSubticks setString "SELL" px b1 market = .ok r1 ∧
      aggressiveSubticks setString "SELL" px b2 market = .ok r2 ∧ r1 < r2 := by
  have pos := tick_pos market
  have short := tick_lt market
  have below2 : market.codeWorst "SELL" x b2 < 2 ^ 64 :=
    floor_lt_iff.mp (Nat.lt_of_le_of_lt (le_snapUp market.tick _) inWord)
  have small := floor_lt_iff.mpr below
  have bound := snapUp_lt pos ⌊market.codeWorst "SELL" x b1⌋₊
  have aTick : market.tick ≤ snapUp market.tick ⌊market.codeWorst "SELL" x b2⌋₊ :=
    Nat.le_of_dvd (snapUp_floor_pos one) (dvd_snapUp pos _)
  have allowed1 : b1.toNat < 10000 := Nat.lt_of_le_of_lt (UInt32.le_iff_toNat_le.mp le) allowed
  have word : ∀ n : Nat, (UInt64.ofNat n).toNat = n % 2 ^ 64 := fun n => UInt64.toNat_ofNat'
  -- The first result lies below the tick and the second does not.
  refine ⟨_, _, (aggressiveSubticks_sell isRead).mpr ⟨allowed1, below, word _, ?_⟩,
    (aggressiveSubticks_sell isRead).mpr ⟨allowed, below2, word _, ?_⟩, ?_⟩
  · rw [word]
    omega
  · rw [word]
    omega
  · rw [UInt64.lt_iff_toNat_lt, word, word]
    omega

/-- Slippage is consistent with the limit path and monotone, exactly where no snap overflows. -/
theorem slippage_consistent_iff (setString : String → Option ℚ) (side px : String)
    (b1 b2 : UInt32) (market : MarketMeta) :
    SlippageConsistent setString side px b1 b2 market ↔
      ¬ SnapOverflows setString side px b1 b2 market := by
  constructor
  · rintro ⟨_, monotone⟩ ⟨isSell, le, allowed2, low, x, isRead, below1, over1, one2, in2⟩
    subst isSell
    obtain ⟨r1, r2, first, second, rises⟩ :=
      sell_falls isRead le allowed2 below1 over1 one2 in2
    have allowed1 : b1.toNat < 10000 :=
      Nat.lt_of_le_of_lt (UInt32.le_iff_toNat_le.mp le) allowed2
    have nonneg := nonneg_of_floor (Or.inr allowed2) (Nat.floor_pos.mpr one2)
    have below2 : market.codeWorst "SELL" x b2 < 2 ^ 64 :=
      floor_lt_iff.mp (Nat.lt_of_le_of_lt (le_snapUp market.tick _) in2)
    have worst1 := worst_lt_of_low (slipped_nonneg nonneg (Or.inr allowed1)) low below1
    have worst2 := worst_lt_of_low (slipped_nonneg nonneg (Or.inr allowed2)) low below2
    have falls := (monotone le x isRead worst1 worst2 r1 r2 first second).2 rfl
    rw [UInt64.le_iff_toNat_le] at falls
    rw [UInt64.lt_iff_toNat_lt] at rises
    omega
  · intro noOverflow
    constructor
    · intro valid t accepted positive
      exact aggressiveSubticks_zero valid accepted positive
    · intro le x isRead worst1 _ r1 r2 first second
      constructor
      · intro isBuy
        subst isBuy
        exact buy_monotone isRead le first second
      · intro isSell
        subst isSell
        refine (sell_monotone isRead le first second).resolve_right ?_
        rintro ⟨over1, one2, in2⟩
        obtain ⟨allowed1, below1, _⟩ := (aggressiveSubticks_sell isRead).mp first
        obtain ⟨allowed2, _⟩ := (aggressiveSubticks_sell isRead).mp second
        have nonneg := nonneg_of_floor (Or.inr allowed2) (Nat.floor_pos.mpr one2)
        have low := low_of_overflow (slipped_nonneg nonneg (Or.inr allowed1)) worst1 over1
        exact noOverflow ⟨rfl, le, allowed2, low, x, isRead, below1, over1, one2, in2⟩

end

/-- A market whose exponent falls below the 32 bits and is seven in them. -/
def wrappingMarket : MarketMeta where
  ticker := "BTC-USD"
  clobPairID := 0
  atomicResolution := -2147483648
  quantumConversionExponent := 2147483647
  stepBaseQuantums := 1000000
  subticksPerTick := 1000

/-- A sale at the oracle's price passes the largest word, and one with slippage does not. -/
theorem slippage_lowers_price :
    aggressiveSubticks plainDecimal "SELL" "1844674407370.9551615" 0 wrappingMarket = .ok 384 ∧
    aggressiveSubticks plainDecimal "SELL" "1844674407370.9551615" 1 wrappingMarket =
      .ok 18444899399302181000 ∧
    ¬ SlippageConsistent plainDecimal "SELL" "1844674407370.9551615" 0 1 wrappingMarket := by
  have first : aggressiveSubticks plainDecimal "SELL" "1844674407370.9551615" 0 wrappingMarket =
      .ok 384 := by decide +kernel
  have second : aggressiveSubticks plainDecimal "SELL" "1844674407370.9551615" 1 wrappingMarket =
      .ok 18444899399302181000 := by decide +kernel
  have isRead : plainDecimal "1844674407370.9551615" =
      some (mkRat 18446744073709551615 (10 ^ 7)) := by decide +kernel
  have bounded : ∀ bps, slipped "SELL" (mkRat 18446744073709551615 (10 ^ 7)) bps < 2 ^ 63 →
      0 ≤ slipped "SELL" (mkRat 18446744073709551615 (10 ^ 7)) bps →
      wrappingMarket.worst "SELL" (mkRat 18446744073709551615 (10 ^ 7)) bps < 2 ^ 63 := by
    intro bps small nonneg
    have power : (10 : ℚ) ^ wrappingMarket.pricePower ≤ 1 :=
      zpow_le_one_of_nonpos₀ (by norm_num) (by decide)
    exact lt_of_le_of_lt (mul_le_of_le_one_right nonneg power) small
  refine ⟨first, second, fun consistent => ?_⟩
  have falls := (consistent.monotone (by decide) _ isRead
    (bounded 0 (by decide +kernel) (by decide +kernel))
    (bounded 1 (by decide +kernel) (by decide +kernel)) _ _ first second).2 rfl
  exact absurd falls (by decide)

end SvpMcp
