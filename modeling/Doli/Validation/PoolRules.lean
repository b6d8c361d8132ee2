import Doli.Core.Pool
import Doli.Validation.TransactionRules

/-!
# The shapes of pool and asset transactions

The payload rules of the AMM types, of asset minting and burning and of the epoch
reward, and the output rules of Pool and LPShare outputs, put in the place that the open
rules leave for them.
-/

namespace Doli.Validation

open Doli.Core Doli.Lib

/-- The first two outputs and the rest. -/
def twoOutputs (tx : Transaction) (error : ValidationError) :
    Except ValidationError (Output × Output × List Output) :=
  match tx.outputs with
  | first :: second :: rest => .ok (first, second, rest)
  | _ => .error error

/-- `position` counts from the first output of the transaction. -/
def checkChange (row : Output × Nat) : Verdict :=
  refuseIf (row.1.outputType ≠ .normal ∧ row.1.outputType ≠ .fungibleAsset)
    (.invalidPool s!"output {row.2} must be Normal or FungibleAsset type (change)")

def validateCreatePool (prim : Primitives) (tx : Transaction) : Verdict := do
  refuseIf (tx.inputs = []) (.invalidPool "CreatePool requires at least one input")
  let outputs ← twoOutputs tx
    (.invalidPool "CreatePool requires at least 2 outputs (Pool + LPShare)")
  refuseIf (outputs.1.outputType ≠ .pool) (.invalidPool "first output must be Pool type")
  let pool ← orRefuse outputs.1.poolMetadata (.invalidPool "invalid pool metadata in output 0")
  refuseIf (pool.reserveA = 0 ∨ pool.reserveB = 0)
    (.invalidPool "initial reserves must be greater than zero")
  refuseIf (poolMaxFeeBps < pool.feeBps)
    (.invalidPool s!"fee {pool.feeBps} bps exceeds maximum {poolMaxFeeBps} bps")
  refuseIf (pool.assetBId.word ≤ 0)
    (.invalidPool "asset_b must be a non-zero FungibleAsset ID (DOLI is always asset_a)")
  refuseIf (pool.poolId ≠ Output.computePoolId prim ⟨0⟩ pool.assetBId pool.feeBps)
    (.invalidPool "pool_id mismatch")
  refuseIf (outputs.2.1.outputType ≠ .lpShare)
    (.invalidPool "second output must be LPShare type")
  let sharePool ← orRefuse outputs.2.1.lpShareMetadata
    (.invalidPool "invalid LPShare metadata in output 1")
  refuseIf (sharePool ≠ pool.poolId) (.invalidPool "LPShare pool_id must match Pool output")
  refuseIf (pool.totalLpShares < minimumLiquidity ∨
      2 ^ 64 ≤ outputs.2.1.amount + minimumLiquidity ∨
        outputs.2.1.amount + minimumLiquidity ≠ pool.totalLpShares)
    (.ammMinimumLiquidity pool.totalLpShares outputs.2.1.amount minimumLiquidity)
  refuseIf (pool.cumulativePrice ≠ 0) (.invalidPool "initial cumulative_price must be 0")
  checkEach checkChange (outputs.2.2.zipIdx 2)

/-- The type of an output, where there is one. -/
def outputTypeAt (tx : Transaction) (index : Nat) : Option OutputType :=
  tx.outputs[index]?.map Output.outputType

def validateSwap (tx : Transaction) : Verdict := do
  refuseIf (tx.inputs.length < 2)
    (.invalidSwap "Swap requires at least 2 inputs (pool + funding)")
  refuseIf (tx.outputs.length < 2)
    (.invalidSwap "Swap requires at least 2 outputs (pool + swap result)")
  refuseIf (outputTypeAt tx 0 ≠ some .pool) (.invalidSwap "first output must be Pool type")
  refuseIf ((tx.outputs[0]?.bind Output.poolMetadata).isNone)
    (.invalidSwap "invalid pool metadata in output 0")

def validateAddLiquidity (tx : Transaction) : Verdict := do
  refuseIf (tx.inputs.length < 2)
    (.invalidLiquidity "AddLiquidity requires at least 2 inputs")
  refuseIf (tx.outputs.length < 2)
    (.invalidLiquidity "AddLiquidity requires at least 2 outputs (pool + LPShare)")
  refuseIf (outputTypeAt tx 0 ≠ some .pool)
    (.invalidLiquidity "first output must be Pool type")
  refuseIf (outputTypeAt tx 1 ≠ some .lpShare)
    (.invalidLiquidity "second output must be LPShare type")

def validateRemoveLiquidity (tx : Transaction) : Verdict := do
  refuseIf (tx.inputs.length < 2)
    (.invalidLiquidity "RemoveLiquidity requires at least 2 inputs")
  refuseIf (tx.outputs = [])
    (.invalidLiquidity "RemoveLiquidity requires at least 1 output (updated pool)")
  refuseIf (outputTypeAt tx 0 ≠ some .pool)
    (.invalidLiquidity "first output must be Pool type")

/-- The asset of the first output is the reference of the others. -/
def checkMintedOutput (reference : Option Hash) (row : Output × Nat) : Verdict := do
  refuseIf (row.1.outputType ≠ .fungibleAsset)
    (.invalidMintAsset s!"output {row.2} must be FungibleAsset type")
  let metadata ← orRefuse row.1.fungibleAssetMetadata
    (.invalidMintAsset
      s!"output {row.2} has invalid or unparseable FungibleAsset metadata")
  refuseIf (some metadata.1 ≠ reference)
    (.invalidMintAsset s!"output {row.2} has another asset_id than output 0")

def validateMintAsset (tx : Transaction) : Verdict := do
  refuseIf (tx.inputs = []) (.invalidMintAsset "MintAsset requires at least one input")
  refuseIf (tx.outputs = []) (.invalidMintAsset "MintAsset requires at least one output")
  checkEach
    (checkMintedOutput ((tx.outputs[0]?.bind Output.fungibleAssetMetadata).map Prod.fst))
    tx.outputs.zipIdx

def checkBurnOutput (row : Output × Nat) : Verdict :=
  refuseIf (row.1.outputType ≠ .fungibleAsset)
    (.invalidBurnAsset s!"output {row.2} must be FungibleAsset type")

def validateBurnAsset (tx : Transaction) : Verdict := do
  refuseIf (tx.inputs = []) (.invalidBurnAsset "BurnAsset requires at least one input")
  checkEach checkBurnOutput tx.outputs.zipIdx

def validateEpochRewardData (tx : Transaction) : Verdict := do
  refuseIf (tx.outputs = [])
    (.invalidEpochReward "epoch reward must have at least one output")
  refuseIf (tx.outputs.any fun output => output.outputType ≠ .normal)
    (.invalidEpochReward "epoch reward outputs must be Normal type")

/-! ## Pool and LPShare outputs -/

def checkPoolOutput (index : Nat) (output : Output) : Verdict := do
  refuseIf (output.extraData.length < poolMetadataSize)
    (.invalidTransaction
      s!"[ERRTX024] Pool output {index} has invalid extra_data size: {output.extraData.length} < {poolMetadataSize}")
  refuseIf output.poolMetadata.isNone
    (.invalidTransaction
      s!"[ERRTX025] Pool output {index} has invalid or undecodable metadata ({output.extraData.length} bytes extra_data)")

def checkShareOutput (index : Nat) (output : Output) : Verdict := do
  refuseIf (output.extraData = [])
    (.invalidTransaction s!"[ERRTX026] LPShare output {index} has empty extra_data")
  let metadata ← orRefuse output.metadataOf
    (.invalidTransaction s!"[ERRTX026] LPShare output {index} has invalid condition prefix")
  refuseIf (metadata.length < lpShareMetadataSize)
    (.invalidTransaction
      s!"[ERRTX026] LPShare output {index} has invalid extra_data: {metadata.length} metadata bytes after condition (need {lpShareMetadataSize})")
  refuseIf output.lpShareMetadata.isNone
    (.invalidTransaction
      s!"[ERRTX027] LPShare output {index} has invalid metadata ({output.extraData.length} bytes extra_data)")

/-- The open rules with the rules of this module in their place. -/
def OpenRules.withPools (rules : OpenRules) : OpenRules where
  typedOutput ctx earlier index output :=
    match output.outputType with
    | .pool => checkPoolOutput index output
    | .lpShare => checkShareOutput index output
    | _ => rules.typedOutput ctx earlier index output
  typedPayload ctx tx :=
    match tx.txType with
    | .createPool => validateCreatePool ctx.crypto.primitives tx
    | .swap => validateSwap tx
    | .addLiquidity => validateAddLiquidity tx
    | .removeLiquidity => validateRemoveLiquidity tx
    | .mintAsset => validateMintAsset tx
    | .burnAsset => validateBurnAsset tx
    | .epochReward => validateEpochRewardData tx
    | _ => rules.typedPayload ctx tx

/-! ## What acceptance gives -/

/-- What a new pool and the share of its creator declare. -/
structure CreatedPool (prim : Primitives) (outputs : List Output) (pool : PoolMetadata) :
    Prop where
  declared : (outputs[0]?.bind Output.poolMetadata) = some pool
  funded : pool.reserveA ≠ 0 ∧ pool.reserveB ≠ 0
  identity : pool.poolId = Output.computePoolId prim ⟨0⟩ pool.assetBId pool.feeBps
  share : ∃ first share change, outputs = first :: share :: change ∧
    share.lpShareMetadata = some pool.poolId ∧
      share.amount + minimumLiquidity = pool.totalLpShares ∧
        ∀ output ∈ change, output.outputType = .normal ∨ output.outputType = .fungibleAsset

theorem createdPool_of_validateCreatePool {prim : Primitives} {tx : Transaction}
    (hok : validateCreatePool prim tx = .ok ()) :
    ∃ pool, CreatedPool prim tx.outputs pool := by
  simp only [validateCreatePool, bind_eq_ok, exists_unit, refuseIf_eq_ok, orRefuse_eq_ok,
    not_not, not_or] at hok
  obtain ⟨-, ⟨first, share, change⟩, houtputs, -, pool, hpool, hfunded, -, -, hidentity, -,
    sharePool, hshare, hsame, hminimum, -, hchange⟩ := hok
  unfold twoOutputs at houtputs
  split at houtputs
  case h_2 => simp at houtputs
  case h_1 first' share' change' hlist =>
    cases houtputs
    refine ⟨pool, ?_, hfunded, hidentity, first, share, change, hlist, hsame ▸ hshare,
      hminimum.2.2, ?_⟩
    · simpa [hlist] using hpool
    · intro output houtput
      obtain ⟨position, hgood⟩ := checkEach_zipIdx_ok hchange houtput
      simp only [checkChange, refuseIf_eq_ok] at hgood
      exact or_iff_not_and_not.mpr hgood

theorem normal_of_validateEpochRewardData {tx : Transaction}
    (hok : validateEpochRewardData tx = .ok ()) :
    ∀ output ∈ tx.outputs, output.outputType = .normal := by
  simp only [validateEpochRewardData, seq_eq_ok, refuseIf_eq_ok, List.any_eq_true,
    decide_eq_true_eq, not_exists, not_and, not_not] at hok
  exact hok.2

end Doli.Validation
