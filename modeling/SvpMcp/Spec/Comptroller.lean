import SvpMcp.Lib.Sums
import SvpMcp.Model.LendoraOps

/-!
# The Comptroller

The sums of the Compound V2 contracts over the markets an account has entered. `Consistent` says
that an environment answers the tools from one such state.
-/

namespace SvpMcp

/-- The state of the lending markets. -/
structure LendoraChain where
  /-- The price oracle of the Comptroller. -/
  oracle : Address
  /-- The markets, `getAllMarkets`. -/
  listed : List Address
  /-- The exchange rate of a market, a mantissa. -/
  exchangeRate : Address → Nat
  /-- What an oracle answers for the underlying of a market. -/
  prices : (oracle cToken : Address) → Nat
  /-- The collateral factor of a market, a mantissa. -/
  collateralFactor : Address → Nat
  /-- The cTokens an account has in a market. -/
  cTokens : (account cToken : Address) → Nat
  /-- The debt of an account in a market, in the underlying. -/
  borrow : (account cToken : Address) → Nat
  /-- The markets an account has entered, `getAssetsIn`. -/
  entered : (account : Address) → List Address
  /-- A market is listed once. -/
  listed_nodup : listed.Nodup
  /-- A market is entered once. -/
  entered_nodup : ∀ account, (entered account).Nodup
  /-- Only listed markets are entered. -/
  entered_listed : ∀ account, ∀ m ∈ entered account, m ∈ listed

namespace LendoraChain

variable (c : LendoraChain)

/-- The price of a market's underlying. -/
def price (m : Address) : Nat := c.prices c.oracle m

/-- The native value of one cToken as collateral, a mantissa (`tokensToDenom`). -/
def tokensToDenom (m : Address) : Nat :=
  c.collateralFactor m * c.exchangeRate m / e18 * c.price m / e18

variable (account m : Address)

/-- The collateral of an account in a market. -/
def collateral : Nat :=
  c.tokensToDenom m * c.cTokens account m / e18

/-- The native value of an account's debt in a market at the prices of an oracle. -/
def debtBy (oracle account m : Address) : Nat :=
  c.prices oracle m * c.borrow account m / e18

/-- The native value of an account's debt in a market. -/
def debt : Nat := c.debtBy c.oracle account m

/-- `sumCollateral`. -/
def sumCollateral (account : Address) : Int :=
  sumOver (fun m => (c.collateral account m : Int)) (c.entered account)

/-- `sumBorrow`. -/
def sumBorrow (account : Address) : Int :=
  sumOver (fun m => (c.debt account m : Int)) (c.entered account)

/-- The positive and the negative part of a margin, without an error. -/
def marginAnswer (margin : Int) : LiquidityAnswer :=
  ⟨0, margin.toNat, (-margin).toNat⟩

/-- `getAccountLiquidity`. -/
def accountLiquidity (account : Address) : LiquidityAnswer :=
  marginAnswer (c.sumCollateral account - c.sumBorrow account)

/-- What redeeming and borrowing in a market add to the debt. A market that is not entered is not
visited by the sum. -/
def effects (redeemTokens borrowAmount : Int) : Int :=
  if m ∈ c.entered account then
    c.tokensToDenom m * redeemTokens / e18 + c.price m * borrowAmount / e18
  else 0

/-- `getHypotheticalAccountLiquidity`. -/
def hypotheticalLiquidity (redeemTokens borrowAmount : Int) : LiquidityAnswer :=
  marginAnswer (c.sumCollateral account -
    (c.sumBorrow account + c.effects account m redeemTokens borrowAmount))

/-- Every market an account owes in is entered. -/
def BorrowsEntered (account : Address) : Prop :=
  ∀ m, 0 < c.borrow account m → m ∈ c.entered account

/-- The markets an account has entered once it has entered one more. -/
def enteredWith : List Address :=
  if m ∈ c.entered account then c.entered account else c.entered account ++ [m]

/-- No market is entered twice. -/
theorem enteredWith_nodup : (c.enteredWith account m).Nodup := by
  unfold enteredWith
  split
  · exact c.entered_nodup account
  · rename_i absent
    exact List.nodup_append.mpr ⟨c.entered_nodup account, List.nodup_singleton m, by
      intro x inEntered y isM same
      rw [List.mem_singleton] at isM
      exact absent (isM ▸ same ▸ inEntered)⟩

/-- At most one market is added. -/
theorem mem_enteredWith {c : LendoraChain} {account m x : Address}
    (member : x ∈ c.enteredWith account m) : x ∈ c.entered account ∨ x = m := by
  unfold enteredWith at member
  split at member
  · exact .inl member
  · rcases List.mem_append.mp member with old | new
    · exact .inl old
    · exact .inr (List.mem_singleton.mp new)

/-- The state after an account has borrowed in a listed market: the market is entered first. -/
def afterBorrow (amount : Nat) (isListed : m ∈ c.listed) : LendoraChain where
  __ := c
  borrow a x := if a = account ∧ x = m then c.borrow a x + amount else c.borrow a x
  entered a := if a = account then c.enteredWith account m else c.entered a
  entered_nodup a := by
    split
    · exact c.enteredWith_nodup account m
    · exact c.entered_nodup a
  entered_listed a x member := by
    split at member
    · rcases mem_enteredWith member with old | new
      · exact c.entered_listed account x old
      · exact new ▸ isListed
    · exact c.entered_listed a x member

end LendoraChain

/-- An environment that answers the reads of the Lendora contracts from one state. Metadata and
feeds are free. -/
structure Consistent (c : LendoraChain) (env : Env) : Prop where
  oracle : env.lendora .oracle = .ok c.oracle
  getAllMarkets : env.lendora .getAllMarkets = .ok c.listed
  markets : ∀ m, env.lendora (.markets m) = .ok (c.collateralFactor m)
  getAssetsIn : ∀ account, env.lendora (.getAssetsIn account) = .ok (c.entered account)
  getAccountLiquidity : ∀ account,
    env.lendora (.getAccountLiquidity account) = .ok (c.accountLiquidity account)
  getHypotheticalAccountLiquidity : ∀ account m redeemTokens borrowAmount,
    env.lendora (.getHypotheticalAccountLiquidity account m redeemTokens borrowAmount) =
      .ok (c.hypotheticalLiquidity account m redeemTokens borrowAmount)
  getAccountSnapshot : ∀ m account, env.lendora (.getAccountSnapshot m account) =
    .ok ⟨0, c.cTokens account m, c.borrow account m, c.exchangeRate m⟩
  getUnderlyingPrice : ∀ oracle m,
    env.lendora (.getUnderlyingPrice oracle m) = .ok (c.prices oracle m)

end SvpMcp
