import Doli.Validation.Amm

/-!
# Spending

What `validate_transaction_with_utxos` checks once the inputs are resolved: who may spend
each of them, the value authority, the balance and the fee, and the state rules of the
asset and pool types.
-/

namespace Doli.Validation

open Doli.Core Doli.Lib

def baseFee : Nat := 1

def feePerByte : Nat := 1

def feeDivisor : Nat := 100

/-- What stays open: the signature or the condition of an input, the royalties and the
creator of the content a Transfer moves, and the proof of a settlement.  All of them see
the height, the transaction and consumed outputs. -/
structure OpenSpending where
  inputConditions : Nat → Transaction → Nat → Output → Verdict
  contentRules : Nat → Transaction → List Output → Verdict
  zkSettlement : Nat → Transaction → List Output → Verdict

structure SpendingContext where
  base : ValidationContext
  incI092ActivationHeight : Nat
  incI096ActivationHeight : Nat
  incI173ActivationHeight : Nat
  rules : OpenRules
  spending : OpenSpending

def SpendingContext.atHeight (ctx : SpendingContext) (height : Nat) : SpendingContext :=
  { ctx with base := { ctx.base with currentHeight := height } }

def nativeAmount (output : Output) : Nat :=
  if output.outputType.isNativeAmount then output.amount else 0

theorem nativeAmount_le_doliValue (output : Output) :
    nativeAmount output ≤ output.doliValue := by
  unfold nativeAmount Output.doliValue
  split
  · exact Nat.le_refl _
  · exact Nat.zero_le _

def extraBytes (tx : Transaction) : Nat :=
  total (fun output => output.extraData.length) tx.outputs

def minimumFee (tx : Transaction) : Nat :=
  baseFee + extraBytes tx * feePerByte / feeDivisor

def isNativeFeeExempt : TxType → Bool
  | .createPool => true
  | .swap => true
  | .addLiquidity => true
  | .removeLiquidity => true
  | .mintAsset => true
  | .burnAsset => true
  | _ => false

def slashFeeExempt (ctx : ValidationContext) (tx : Transaction) : Bool :=
  tx.txType = .slashProducer && ctx.slashRuleActive &&
    decide (validateSlashDataSkipVdf ctx tx = .ok ())

section

variable (ctx : SpendingContext) (tx : Transaction) (consumed : List Output)

def isAmmPoolTx : Bool :=
  needsPool tx.txType && !tx.inputs.isEmpty && !tx.outputs.isEmpty

/-! ## Inputs -/

def checkCommittedOutputs (index : Nat) (input : Input) : Verdict := do
  refuseIf (0 < input.committedOutputCount ∧ input.sighashType ≠ .anyoneCanPay)
    (.invalidTransaction
      s!"[ERRTX034] input {index} has committed_output_count={input.committedOutputCount} but sighash is not AnyoneCanPay")
  refuseIf (0 < input.committedOutputCount ∧ tx.outputs.length < input.committedOutputCount)
    (.invalidTransaction
      s!"[ERRTX035] input {index} committed_output_count={input.committedOutputCount} exceeds output count={tx.outputs.length}")

/-- A settlement spends its rollup by a proof, and the pool at input 0 is bound by the
AMM rules: neither is signed for. -/
def conditionsExempt (index : Nat) (spent : Output) : Bool :=
  (tx.txType = .zkSettle && spent.outputType = .zkRollup) ||
    (decide (ctx.incI092ActivationHeight ≤ ctx.base.currentHeight) && index = 0 &&
      needsPool tx.txType && spent.outputType = .pool)

def checkInput (row : (Input × Output) × Nat) : Verdict := do
  checkCommittedOutputs tx row.2 row.1.1
  checkWhen (!conditionsExempt ctx tx row.2 row.1.2)
    (ctx.spending.inputConditions ctx.base.currentHeight tx row.2 row.1.2)

/-! ## Balance and fee -/

def isStateOnly : Bool :=
  if ctx.incI173ActivationHeight ≤ ctx.base.currentHeight then tx.isZeroFlow
  else
    tx.inputs.isEmpty && tx.outputs.isEmpty &&
      (tx.txType = .registration || tx.txType = .delegateBond ||
        tx.txType = .revokeDelegation)

def checkConservation : Verdict :=
  if isAmmPoolTx tx = true ∧ ctx.incI096ActivationHeight ≤ ctx.base.currentHeight then
    verifyAmmConservation tx.txType consumed tx.outputs
  else
    refuseIf (total nativeAmount consumed < UtxoContext.totalOutput tx)
      (.insufficientFunds (total nativeAmount consumed) (UtxoContext.totalOutput tx))

def checkFee : Verdict :=
  if isNativeFeeExempt tx.txType || slashFeeExempt ctx.base tx then .ok ()
  else
    refuseIf (total nativeAmount consumed - UtxoContext.totalOutput tx < minimumFee tx)
      (.insufficientFee (total nativeAmount consumed - UtxoContext.totalOutput tx)
        (minimumFee tx) (extraBytes tx))

def checkBalance : Verdict :=
  if isStateOnly ctx tx then .ok ()
  else do
    checkConservation ctx tx consumed
    checkFee ctx tx consumed

/-! ## Assets -/

def checkAssetRow (error : String → ValidationError) (what : String) (assetId : Hash)
    (row : Output × Nat) : Verdict := do
  let metadata ← orRefuse row.1.fungibleAssetMetadata
    (error s!"{what} {row.2} is not a FungibleAsset")
  refuseIf (metadata.1 ≠ assetId) (error s!"{what} {row.2} has different asset_id")

/-- The amounts of all outputs, whatever their type, are added as `u64`. -/
def checkMintAsset : Verdict := do
  let genesis ← orRefuse consumed[0]? (.invalidMintAsset "no first input")
  refuseIf (genesis.outputType ≠ .fungibleAsset)
    (.invalidMintAsset "first input must be a FungibleAsset UTXO")
  let metadata ← orRefuse genesis.fungibleAssetMetadata
    (.invalidMintAsset "genesis UTXO has invalid asset metadata")
  let first ← orRefuse tx.inputs[0]? (.invalidMintAsset "no first input")
  refuseIf (Output.computeAssetId ctx.base.crypto.primitives first.prevTxHash
      first.outputIndex ≠ metadata.1)
    (.invalidMintAsset
      "only the original issuer can mint: input[0] is not the genesis UTXO")
  checkEach (checkAssetRow .invalidMintAsset "input" metadata.1) consumed.zipIdx
  refuseIf (2 ^ 64 ≤ total Output.amount tx.outputs) (.amountOverflow 0)
  refuseIf (metadata.2.1 < total Output.amount tx.outputs)
    (.invalidMintAsset
      s!"output total {total Output.amount tx.outputs} exceeds supply cap {metadata.2.1}")
  checkEach (checkAssetRow .invalidMintAsset "output" metadata.1) tx.outputs.zipIdx

def checkBurnAsset : Verdict := do
  let first ← orRefuse consumed[0]? (.invalidBurnAsset "no first input")
  let metadata ← orRefuse first.fungibleAssetMetadata
    (.invalidBurnAsset "first input is not a FungibleAsset")
  checkEach (checkAssetRow .invalidBurnAsset "input" metadata.1) ((consumed.drop 1).zipIdx 1)
  checkEach (checkAssetRow .invalidBurnAsset "output" metadata.1) tx.outputs.zipIdx

/-! ## Pools -/

/-- The pool that a transaction of the three types declares. -/
def declaredPool : Option PoolMetadata :=
  tx.outputs[0]?.bind Output.poolMetadata

/-- `u64` subtraction and sum, as the release profile computes them. -/
def checkReleased (oldPool newPool : PoolMetadata) : Verdict :=
  let tokensOut := (2 ^ 64 + oldPool.reserveB - newPool.reserveB) % 2 ^ 64
  let tokensToUser := total Output.amount
    ((tx.outputs.drop 1).filter fun output => output.outputType = .fungibleAsset) % 2 ^ 64
  if oldPool.reserveA < newPool.reserveA then
    refuseIf (tokensToUser ≠ tokensOut)
      (.invalidSwap
        s!"token conservation violated: pool released {tokensOut} but user received {tokensToUser}")
  else
    refuseIf (oldPool.reserveB < newPool.reserveB ∧
        oldPool.reserveA < oldPool.reserveA - newPool.reserveA)
      (.invalidSwap "DOLI output exceeds pool reserve_a")

def checkSwapState : Verdict := do
  let first ← orRefuse consumed[0]? (.invalidSwap "no first input")
  refuseIf (first.outputType ≠ .pool) (.invalidSwap "first input must be a Pool UTXO")
  let oldPool ← orRefuse first.poolMetadata (.invalidSwap "invalid old pool metadata")
  let newPool ← orRefuse (declaredPool tx) (.invalidSwap "invalid new pool metadata")
  refuseIf (oldPool.poolId ≠ newPool.poolId) (.invalidSwap "pool_id changed during swap")
  refuseIf (oldPool.assetBId ≠ newPool.assetBId) (.invalidSwap "asset_b changed during swap")
  refuseIf (oldPool.feeBps ≠ newPool.feeBps) (.invalidSwap "fee_bps changed during swap")
  refuseIf (oldPool.totalLpShares ≠ newPool.totalLpShares)
    (.invalidSwap "total_lp_shares changed during swap")
  refuseIf (newPool.reserveA * newPool.reserveB < oldPool.reserveA * oldPool.reserveB)
    (.invalidSwap "invariant violated: new k < old k")
  checkReleased tx oldPool newPool
  refuseIf (newPool.reserveA = 0 ∨ newPool.reserveB = 0)
    (.invalidSwap "swap would drain pool reserves to zero")

/-- The direction in which one of the liquidity types moves reserves and shares. -/
structure LiquidityRule where
  name : String
  reservesWrong : PoolMetadata → PoolMetadata → Bool
  reservesError : String
  sharesWrong : PoolMetadata → PoolMetadata → Bool
  sharesError : String
  poolIdError : String

def addLiquidityRule : LiquidityRule where
  name := "AddLiquidity"
  reservesWrong oldPool newPool :=
    newPool.reserveA < oldPool.reserveA || newPool.reserveB < oldPool.reserveB
  reservesError := "reserves decreased during add liquidity"
  sharesWrong oldPool newPool := newPool.totalLpShares ≤ oldPool.totalLpShares
  sharesError := "LP shares did not increase during add liquidity"
  poolIdError := "pool_id changed during add liquidity"

def removeLiquidityRule : LiquidityRule where
  name := "RemoveLiquidity"
  reservesWrong oldPool newPool :=
    oldPool.reserveA < newPool.reserveA || oldPool.reserveB < newPool.reserveB
  reservesError := "reserves increased during remove liquidity"
  sharesWrong oldPool newPool := oldPool.totalLpShares ≤ newPool.totalLpShares
  sharesError := "LP shares did not decrease during remove liquidity"
  poolIdError := "pool_id changed during remove liquidity"

/-- Of the identity of the pool, only the id is compared. -/
def checkLiquidityChange (rule : LiquidityRule) (oldPool newPool : PoolMetadata) : Verdict := do
  refuseIf (oldPool.poolId ≠ newPool.poolId) (.invalidLiquidity rule.poolIdError)
  refuseIf (rule.reservesWrong oldPool newPool = true) (.invalidLiquidity rule.reservesError)
  refuseIf (rule.sharesWrong oldPool newPool = true) (.invalidLiquidity rule.sharesError)

/-- Where either record cannot be read, nothing is compared. -/
def checkLiquidityState (rule : LiquidityRule) : Verdict := do
  let first ← orRefuse consumed[0]? (.invalidLiquidity "no first input")
  refuseIf (first.outputType ≠ .pool)
    (.invalidLiquidity s!"{rule.name} first input must be a Pool UTXO")
  match first.poolMetadata, declaredPool tx with
  | some oldPool, some newPool => checkLiquidityChange rule oldPool newPool
  | _, _ => .ok ()

/-- RC-B: the declared reserves are backed by what the transaction takes in. -/
def checkCreatedReserves : Verdict :=
  if ctx.base.currentHeight < ctx.incI092ActivationHeight then .ok ()
  else do
    let pool ← orRefuse (declaredPool tx) (.invalidPool "invalid pool metadata")
    let netDoliIn := total nativeAmount consumed - UtxoContext.totalOutput tx
    refuseIf (netDoliIn < pool.reserveA)
      (.invalidPool
        s!"[ERRTX-AMM003] declared reserve_a {pool.reserveA} exceeds net DOLI funded {netDoliIn}")
    let netTokenIn := total (Output.assetAmount pool.assetBId) consumed -
      total (Output.assetAmount pool.assetBId) (tx.outputs.drop 1)
    refuseIf (netTokenIn < pool.reserveB)
      (.invalidPool
        s!"[ERRTX-AMM003] declared reserve_b {pool.reserveB} exceeds net asset_b funded {netTokenIn}")

/-- The rules of a type about the outputs it consumes. -/
def checkTypeState : Verdict :=
  match tx.txType with
  | .mintAsset => checkMintAsset ctx tx consumed
  | .burnAsset => checkBurnAsset tx consumed
  | .swap => checkSwapState tx consumed
  | .addLiquidity => checkLiquidityState tx consumed addLiquidityRule
  | .removeLiquidity => checkLiquidityState tx consumed removeLiquidityRule
  | .createPool => checkCreatedReserves ctx tx consumed
  | .transfer => ctx.spending.contentRules ctx.base.currentHeight tx consumed
  | .zkSettle => ctx.spending.zkSettlement ctx.base.currentHeight tx consumed
  | _ => .ok ()

/-- Everything after the lookup of the inputs. -/
def checkSpending : Verdict := do
  checkEach (checkInput ctx tx) (tx.inputs.zip consumed).zipIdx
  checkValueAuthority ctx.base tx consumed
  checkBalance ctx tx consumed
  checkTypeState ctx tx consumed

end

namespace SpendingContext

variable (ctx : SpendingContext)

/-- The context of the UTXO layer, with the rules of this layer in the places that it
leaves open. -/
def utxo : UtxoContext :=
  { ctx.base.utxo with
    rules :=
      { structural height tx := decide
          (validateTransactionSkipRegistrationVdf ctx.rules.withPools
            (ctx.atHeight height).base tx = .ok ())
        spending height tx consumed :=
          decide (checkSpending (ctx.atHeight height) tx consumed = .ok ()) } }

def validateTransactionWithUtxos (tx : Transaction)
    (lookup : Storage.Outpoint → Option Storage.UtxoEntry) : Except Core.ValidationError Unit :=
  ctx.utxo.validateTransactionWithUtxos ctx.base.currentHeight tx lookup

/-- Every gate of the AMM is open. -/
structure GatesOpen : Prop where
  amm : ctx.base.ammActivationHeight ≤ ctx.base.currentHeight
  incI092 : ctx.incI092ActivationHeight ≤ ctx.base.currentHeight
  incI096 : ctx.incI096ActivationHeight ≤ ctx.base.currentHeight
  incI234 : ctx.base.incI234ActivationHeight ≤ ctx.base.currentHeight
  incI257 : ctx.base.incI257UnbondingActivationHeight ≤ ctx.base.currentHeight

end SpendingContext

end Doli.Validation
