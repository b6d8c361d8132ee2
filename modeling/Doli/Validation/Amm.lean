import Doli.Validation.OutputAuthority

/-!
# Value conservation of the AMM

What a swap, an addition or a removal of liquidity may do to DOLI, to the token of the
pool and to its shares, and the rule of each of the three for the reserves.  The sums
are over `u128`, which the amounts of a transaction do not fill.
-/

namespace Doli.Validation

open Doli.Core Doli.Lib

/-- Fungible assets of the pool, and the token reserve of every Pool output. -/
def tokenB (assetB : Hash) (output : Output) : Nat :=
  output.assetAmount assetB + output.poolReserveB

/-- FM-S11 -/
def checkTokenOutput (assetB : Hash) (row : Output × Nat) : Verdict :=
  refuseIf (row.1.fungibleAssetMetadata.any fun metadata => metadata.1 ≠ assetB)
    (.invalidPool s!"FM-S11: FungibleAsset output[{row.2}] has another asset_id than the pool; cross-pool token counterfeiting rejected")

def checkSwap (oldPool newPool : PoolMetadata) : Verdict :=
  refuseIf (verifyInvariant oldPool.reserveA oldPool.reserveB newPool.reserveA
      newPool.reserveB = false)
    (.invalidSwap s!"k-invariant violated: old_k={oldPool.reserveA * oldPool.reserveB} > new_k={newPool.reserveA * newPool.reserveB}")

def checkRemoveLiquidity (oldPool newPool : PoolMetadata) (assetB : Hash)
    (outputs : List Output) : Verdict := do
  refuseIf (oldPool.totalLpShares < newPool.totalLpShares)
    (.invalidLiquidity "RemoveLiquidity: new_total_lp > old_total_lp")
  let sharesBurned := oldPool.totalLpShares - newPool.totalLpShares
  refuseIf (sharesBurned = 0) (.invalidLiquidity "RemoveLiquidity: zero shares burned")
  let max ← orRefuse
    (computeRemoveLiquidity sharesBurned oldPool.reserveA oldPool.reserveB
      oldPool.totalLpShares)
    (.invalidLiquidity
      "RemoveLiquidity: compute_remove_liquidity returned None (degenerate pool state)")
  refuseIf (max.1 < oldPool.reserveA - newPool.reserveA)
    (.invalidLiquidity
      s!"RemoveLiquidity proportional binding violated: reserve_a delta {oldPool.reserveA - newPool.reserveA} > proportional max {max.1} for {sharesBurned} shares burned out of {oldPool.totalLpShares} total")
  refuseIf (max.2 < oldPool.reserveB - newPool.reserveB)
    (.invalidLiquidity
      s!"RemoveLiquidity proportional binding violated: reserve_b delta {oldPool.reserveB - newPool.reserveB} > proportional max {max.2} for {sharesBurned} shares burned out of {oldPool.totalLpShares} total")
  refuseIf (oldPool.reserveB - newPool.reserveB <
      total (Output.assetAmount assetB) (outputs.drop 1))
    (.invalidLiquidity "RemoveLiquidity token output binding violated (T8 token-inflation guard)")

def checkAddLiquidity (oldPool newPool : PoolMetadata) : Verdict := do
  refuseIf (newPool.totalLpShares < oldPool.totalLpShares)
    (.invalidLiquidity "AddLiquidity: new_total_lp < old_total_lp")
  refuseIf (newPool.reserveA < oldPool.reserveA)
    (.invalidLiquidity "AddLiquidity: new_reserve_a < old_reserve_a")
  refuseIf (newPool.reserveB < oldPool.reserveB)
    (.invalidLiquidity "AddLiquidity: new_reserve_b < old_reserve_b")
  let maxLp ← orRefuse
    (computeLpShares (newPool.reserveA - oldPool.reserveA)
      (newPool.reserveB - oldPool.reserveB) oldPool.reserveA oldPool.reserveB
      oldPool.totalLpShares)
    (.invalidLiquidity
      "AddLiquidity: compute_lp_shares returned None (degenerate pool state)")
  refuseIf (maxLp < newPool.totalLpShares - oldPool.totalLpShares)
    (.invalidLiquidity
      s!"AddLiquidity: minted {newPool.totalLpShares - oldPool.totalLpShares} LP shares exceeds proportional max {maxLp}")

def checkTransition (kind : TxType) (oldPool newPool : PoolMetadata)
    (outputs : List Output) : Verdict :=
  match kind with
  | .swap => checkSwap oldPool newPool
  | .removeLiquidity => checkRemoveLiquidity oldPool newPool oldPool.assetBId outputs
  | .addLiquidity => checkAddLiquidity oldPool newPool
  | _ => .error (.invalidPool "verify_amm_conservation called with unsupported tx_type")

def verifyAmmConservation (kind : TxType) (consumed outputs : List Output) : Verdict := do
  let oldPool ← orRefuse (consumed[0]?.bind Output.poolMetadata)
    (.invalidPool "consumed_outputs[0] must be a Pool UTXO with valid metadata")
  let newPool ← orRefuse (outputs[0]?.bind Output.poolMetadata)
    (.invalidPool "tx_outputs[0] must be a Pool UTXO with valid metadata")
  checkEach (checkTokenOutput oldPool.assetBId) outputs.zipIdx
  refuseIf (total Output.doliValue consumed < total Output.doliValue outputs)
    (.insufficientFunds (total Output.doliValue consumed) (total Output.doliValue outputs))
  refuseIf (total (tokenB oldPool.assetBId) consumed < total (tokenB oldPool.assetBId) outputs)
    (.invalidLiquidity "token_b conservation violated (token created from nothing)")
  refuseIf (newPool.totalLpShares + total (Output.lpAmount oldPool.poolId) consumed ≠
      oldPool.totalLpShares + total (Output.lpAmount oldPool.poolId) outputs)
    (.invalidLiquidity "LP supply mismatch")
  checkTransition kind oldPool newPool outputs

/-! ## What acceptance gives -/

/-- The balance of a pool transaction in DOLI, tokens and shares. -/
structure Conserved (consumed outputs : List Output) (oldPool newPool : PoolMetadata) :
    Prop where
  old : consumed[0]?.bind Output.poolMetadata = some oldPool
  new : outputs[0]?.bind Output.poolMetadata = some newPool
  tokens : ∀ output ∈ outputs, ∀ metadata, output.fungibleAssetMetadata = some metadata →
    metadata.1 = oldPool.assetBId
  doli : total Output.doliValue outputs ≤ total Output.doliValue consumed
  token : total (tokenB oldPool.assetBId) outputs ≤ total (tokenB oldPool.assetBId) consumed
  shares : newPool.totalLpShares + total (Output.lpAmount oldPool.poolId) consumed =
    oldPool.totalLpShares + total (Output.lpAmount oldPool.poolId) outputs

theorem conserved_of_verifyAmmConservation {kind : TxType} {consumed outputs : List Output}
    (hok : verifyAmmConservation kind consumed outputs = .ok ()) :
    ∃ oldPool newPool, Conserved consumed outputs oldPool newPool ∧
      checkTransition kind oldPool newPool outputs = .ok () := by
  simp only [verifyAmmConservation, bind_eq_ok, exists_unit, refuseIf_eq_ok, orRefuse_eq_ok,
    not_not, not_lt] at hok
  obtain ⟨oldPool, hold, newPool, hnew, htokens, hdoli, htoken, hshares, htransition⟩ := hok
  refine ⟨oldPool, newPool, ⟨hold, hnew, ?_, hdoli, htoken, hshares⟩, htransition⟩
  intro output houtput metadata hmetadata
  obtain ⟨position, hgood⟩ := checkEach_zipIdx_ok htokens houtput
  simpa [checkTokenOutput, hmetadata] using hgood

theorem keeps_of_checkTransition {kind : TxType} {oldPool newPool : PoolMetadata}
    {outputs : List Output} (hok : checkTransition kind oldPool newPool outputs = .ok ())
    (hswap : kind = .swap → newPool.totalLpShares = oldPool.totalLpShares) :
    oldPool.reserves.Keeps newPool.reserves := by
  unfold checkTransition at hok
  split at hok
  case h_1 =>
    have hshares := hswap rfl
    rw [checkSwap, refuseIf_eq_ok, Bool.not_eq_false] at hok
    have hproduct := of_decide_eq_true hok
    exact ⟨.of_product hshares hproduct, fun hzero => hshares.trans hzero⟩
  case h_2 =>
    simp only [checkRemoveLiquidity, bind_eq_ok, exists_unit, refuseIf_eq_ok, orRefuse_eq_ok,
      not_lt] at hok
    obtain ⟨hle, -, max, hmax, hdoli, htoken, -⟩ := hok
    obtain ⟨hfirst, hsecond, hpositive⟩ := le_of_computeRemoveLiquidity hmax
    have hburned : oldPool.totalLpShares - (oldPool.totalLpShares - newPool.totalLpShares) =
        newPool.totalLpShares := Nat.sub_sub_self hle
    have hlegs := And.intro (Reserves.leg_of_burned (hdoli.trans hfirst))
      (Reserves.leg_of_burned (htoken.trans hsecond))
    rw [hburned] at hlegs
    refine ⟨.of_legs (hlegs.1.trans ?_) (hlegs.2.trans ?_), fun hzero => absurd hzero hpositive⟩
    · exact Nat.mul_le_mul_right _ (by simp only [PoolMetadata.reserves]; omega)
    · exact Nat.mul_le_mul_right _ (by simp only [PoolMetadata.reserves]; omega)
  case h_3 =>
    simp only [checkAddLiquidity, bind_eq_ok, exists_unit, refuseIf_eq_ok, orRefuse_eq_ok,
      not_lt] at hok
    obtain ⟨hle, hdoli, htoken, maxLp, hmax, hminted⟩ := hok
    obtain ⟨hfirst, hsecond, hpositive⟩ := le_of_computeLpShares hmax
    have hlegs := And.intro (Reserves.leg_of_minted (hminted.trans hfirst))
      (Reserves.leg_of_minted (hminted.trans hsecond))
    rw [Nat.add_sub_cancel' hle, Nat.add_sub_cancel' hdoli, Nat.add_sub_cancel' htoken] at hlegs
    exact ⟨.of_legs hlegs.1 hlegs.2, fun hzero => absurd hzero hpositive⟩
  case h_4 => simp at hok

end Doli.Validation
