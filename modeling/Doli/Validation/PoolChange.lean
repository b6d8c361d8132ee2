import Doli.Validation.SpendingAccepted

/-!
# Pools under accepted transactions

With the gates open, an accepted transaction creates a pool, changes one, or has nothing
to do with pools.
-/

namespace Doli.Validation

open Doli.Core Doli.Lib Doli.Storage

variable {ctx : SpendingContext} {tx : Transaction} {consumed : List Output}

/-- The transaction moves a pool from one record to the next. -/
structure PoolChange (tx : Transaction) (consumed : List Output)
    (oldPool newPool : PoolMetadata) : Prop where
  spent : ∃ pool rest, PoolFirst consumed rest pool ∧ pool.poolMetadata = some oldPool
  declared : ∃ pool rest, PoolFirst tx.outputs rest pool ∧ pool.poolMetadata = some newPool
  conserved : Conserved consumed tx.outputs oldPool newPool
  transition : checkTransition tx.txType oldPool newPool tx.outputs = .ok ()
  poolId : newPool.poolId = oldPool.poolId
  swapped : tx.txType = .swap → newPool.assetBId = oldPool.assetBId ∧
    newPool.feeBps = oldPool.feeBps ∧ newPool.totalLpShares = oldPool.totalLpShares

/-- The transaction creates a pool and backs its reserves. -/
structure PoolCreation (prim : Primitives) (tx : Transaction) (consumed : List Output)
    (pool : PoolMetadata) : Prop where
  poolless : ∀ output ∈ consumed, output.outputType ≠ .pool
  declared : ∃ first rest, PoolFirst tx.outputs rest first ∧ first.poolMetadata = some pool
  created : CreatedPool prim tx.outputs pool
  doli : pool.reserveA + total nativeAmount tx.outputs ≤ total nativeAmount consumed
  token : pool.reserveB + total (Output.assetAmount pool.assetBId) tx.outputs ≤
    total (Output.assetAmount pool.assetBId) consumed

/-- The transaction neither consumes nor declares a pool. -/
structure Poolless (tx : Transaction) (consumed : List Output) : Prop where
  spent : ∀ output ∈ consumed, output.outputType ≠ .pool
  declared : ∀ output ∈ tx.outputs, output.outputType ≠ .pool
  doli : total nativeAmount tx.outputs ≤ total nativeAmount consumed

/-! ## The type decides -/

theorem needsPool_iff {kind : TxType} :
    needsPool kind = true ↔
      kind = .swap ∨ kind = .addLiquidity ∨ kind = .removeLiquidity := by
  cases kind <;> simp [needsPool]

theorem isAmm_iff {kind : TxType} :
    isAmm kind = true ↔ kind = .createPool ∨ needsPool kind = true := by
  cases kind <;> simp [isAmm, needsPool]

theorem inputs_of_needsPool {rules : OpenRules} {base : ValidationContext}
    (hneeds : needsPool tx.txType = true)
    (hstructure : validateTransactionSkipRegistrationVdf rules base tx = .ok ()) :
    tx.inputs ≠ [] := by
  intro hempty
  -- none of the three kinds judges its own inputs or defers a VDF
  have hkept : judgesOwnInputs tx = false ∧ validateTransaction rules base tx = .ok () := by
    rcases needsPool_iff.mp hneeds with htype | htype | htype
    · simp only [validateTransactionSkipRegistrationVdf, htype] at hstructure
      exact ⟨by simp [judgesOwnInputs, Transaction.isCoinbase, htype], hstructure⟩
    · simp only [validateTransactionSkipRegistrationVdf, htype] at hstructure
      exact ⟨by simp [judgesOwnInputs, Transaction.isCoinbase, htype], hstructure⟩
    · simp only [validateTransactionSkipRegistrationVdf, htype] at hstructure
      exact ⟨by simp [judgesOwnInputs, Transaction.isCoinbase, htype], hstructure⟩
  exact (validateTransaction_eq_ok.mp hkept.2).2.1 ⟨hempty, hkept.1⟩

theorem poolId_of_checkLiquidityState {rule : LiquidityRule} {oldPool newPool : PoolMetadata}
    (hold : consumed[0]?.bind Output.poolMetadata = some oldPool)
    (hnew : declaredPool tx = some newPool)
    (hok : checkLiquidityState tx consumed rule = .ok ()) :
    newPool.poolId = oldPool.poolId := by
  simp only [checkLiquidityState, bind_eq_ok, exists_unit, orRefuse_eq_ok] at hok
  obtain ⟨first, hfirst, -, hchange⟩ := hok
  rw [hfirst, Option.bind_some] at hold
  rw [hold, hnew] at hchange
  simp only [checkLiquidityChange, bind_eq_ok, exists_unit, refuseIf_eq_ok, not_not] at hchange
  exact hchange.1.symm

theorem swapped_of_checkSwapState {oldPool newPool : PoolMetadata}
    (hold : consumed[0]?.bind Output.poolMetadata = some oldPool)
    (hnew : declaredPool tx = some newPool) (hok : checkSwapState tx consumed = .ok ()) :
    newPool.poolId = oldPool.poolId ∧ newPool.assetBId = oldPool.assetBId ∧
      newPool.feeBps = oldPool.feeBps ∧ newPool.totalLpShares = oldPool.totalLpShares := by
  simp only [checkSwapState, bind_eq_ok, exists_unit, orRefuse_eq_ok, refuseIf_eq_ok,
    not_not] at hok
  obtain ⟨first, hfirst, -, found, hfound, declared, hdeclared, hid, hasset, hfee, hshares, -⟩ :=
    hok
  rw [hfirst, Option.bind_some, hfound] at hold
  rw [hdeclared] at hnew
  cases hold
  cases hnew
  exact ⟨hid.symm, hasset.symm, hfee.symm, hshares.symm⟩

theorem Spends.poolChange (hopen : ctx.GatesOpen) (hneeds : needsPool tx.txType = true)
    (hstructure : validateTransactionSkipRegistrationVdf ctx.rules.withPools ctx.base tx =
      .ok ())
    (hspends : Spends ctx tx consumed) :
    ∃ oldPool newPool, PoolChange tx consumed oldPool newPool := by
  have houtputs := pools_of_structure hopen.incI234 hstructure
  rw [if_pos (isAmm_iff.mpr (.inr hneeds))] at houtputs
  have hconsumed := (hspends.authorized hopen.incI234).pools
  rw [if_pos hneeds] at hconsumed
  obtain ⟨declared, others, hdeclared⟩ := poolFirst_of_poolIndices houtputs
  obtain ⟨spent, rest, hspent⟩ := poolFirst_of_poolIndices hconsumed
  have hinputs := inputs_of_needsPool hneeds hstructure
  have hpoolTx : isAmmPoolTx tx = true := by
    simp [isAmmPoolTx, hneeds, hinputs, hdeclared.list]
  have hconserves : checkConservation ctx tx consumed = .ok () := by
    rcases hspends.conservation with hempty | hconserves
    · simp [hdeclared.list] at hempty
    · exact hconserves
  rw [checkConservation, if_pos ⟨hpoolTx, hopen.incI096⟩] at hconserves
  obtain ⟨oldPool, newPool, hbalance, htransition⟩ :=
    conserved_of_verifyAmmConservation hconserves
  have hold : spent.poolMetadata = some oldPool := by
    simpa [hspent.head] using hbalance.old
  have hnew : declared.poolMetadata = some newPool := by
    simpa [hdeclared.head] using hbalance.new
  have hstate := hspends.typeState
  have hids : newPool.poolId = oldPool.poolId ∧ (tx.txType = .swap →
      newPool.assetBId = oldPool.assetBId ∧ newPool.feeBps = oldPool.feeBps ∧
        newPool.totalLpShares = oldPool.totalLpShares) := by
    rcases needsPool_iff.mp hneeds with htype | htype | htype
    · simp only [checkTypeState, htype] at hstate
      have hsame := swapped_of_checkSwapState hbalance.old hbalance.new hstate
      exact ⟨hsame.1, fun _ => hsame.2⟩
    · simp only [checkTypeState, htype] at hstate
      exact ⟨poolId_of_checkLiquidityState hbalance.old hbalance.new hstate, by simp [htype]⟩
    · simp only [checkTypeState, htype] at hstate
      exact ⟨poolId_of_checkLiquidityState hbalance.old hbalance.new hstate, by simp [htype]⟩
  exact ⟨oldPool, newPool, ⟨spent, rest, hspent, hold⟩, ⟨declared, others, hdeclared, hnew⟩,
    hbalance, htransition, hids.1, hids.2⟩

theorem Spends.native_le (hneeds : needsPool tx.txType = false)
    (hstructure : validateTransactionSkipRegistrationVdf ctx.rules.withPools ctx.base tx =
      .ok ())
    (hspends : Spends ctx tx consumed) :
    total nativeAmount tx.outputs ≤ total nativeAmount consumed := by
  rcases hspends.conservation with hempty | hconserves
  · simp [hempty]
  · have hpoolTx : ¬(isAmmPoolTx tx = true ∧
        ctx.incI096ActivationHeight ≤ ctx.base.currentHeight) := by
      simp [isAmmPoolTx, hneeds]
    rw [checkConservation, if_neg hpoolTx, refuseIf_eq_ok, not_lt,
      totalOutput_eq (native_le_of_structure hstructure)] at hconserves
    exact hconserves

theorem Spends.poolCreation (hopen : ctx.GatesOpen) (htype : tx.txType = .createPool)
    (hstructure : validateTransactionSkipRegistrationVdf ctx.rules.withPools ctx.base tx =
      .ok ())
    (hspends : Spends ctx tx consumed) :
    ∃ pool, PoolCreation ctx.base.crypto.primitives tx consumed pool := by
  have houtputs := pools_of_structure hopen.incI234 hstructure
  rw [if_pos (by rw [htype]; rfl)] at houtputs
  have hconsumed := (hspends.authorized hopen.incI234).pools
  rw [if_neg (by rw [htype]; simp [needsPool])] at hconsumed
  obtain ⟨declared, others, hdeclared⟩ := poolFirst_of_poolIndices houtputs
  have hpayload := payload_of_structure (by simp [htype]) (by simp [htype]) hstructure
  simp only [validatePayload, htype, OpenRules.withPools] at hpayload
  obtain ⟨pool, hcreated⟩ := createdPool_of_validateCreatePool hpayload
  have hpool : declared.poolMetadata = some pool := by
    simpa [hdeclared.head] using hcreated.declared
  have hnative := hspends.native_le (by simp [htype, needsPool]) hstructure
  have hstate := hspends.typeState
  have hrecord : declaredPool tx = some pool := hcreated.declared
  simp only [checkTypeState, htype, checkCreatedReserves, not_lt.mpr hopen.incI092, if_false,
    hrecord, bind_eq_ok, exists_unit, orRefuse_eq_ok, Option.some.injEq, exists_eq_left',
    refuseIf_eq_ok, not_lt, totalOutput_eq (native_le_of_structure hstructure)] at hstate
  have hothers : total (Output.assetAmount pool.assetBId) tx.outputs =
      total (Output.assetAmount pool.assetBId) (tx.outputs.drop 1) := by
    have hnone : declared.assetAmount pool.assetBId = 0 :=
      Output.assetAmount_of_ne (by simp [hdeclared.isPool]) pool.assetBId
    simp [hdeclared.list, hnone]
  have hfunded := hcreated.funded.2
  refine ⟨pool, poolIndices_eq_nil.mp hconsumed, ⟨declared, others, hdeclared, hpool⟩, hcreated,
    ?_, ?_⟩
  · omega
  · omega

theorem Spends.poolless (hopen : ctx.GatesOpen) (hamm : isAmm tx.txType = false)
    (hstructure : validateTransactionSkipRegistrationVdf ctx.rules.withPools ctx.base tx =
      .ok ())
    (hspends : Spends ctx tx consumed) : Poolless tx consumed := by
  have hneeds : needsPool tx.txType = false := by
    cases hpool : needsPool tx.txType with
    | false => rfl
    | true => simp [isAmm_iff.mpr (.inr hpool)] at hamm
  have houtputs := pools_of_structure hopen.incI234 hstructure
  have hconsumed := (hspends.authorized hopen.incI234).pools
  simp only [hamm, hneeds, Bool.false_eq_true, if_false] at houtputs hconsumed
  exact ⟨poolIndices_eq_nil.mp hconsumed, poolIndices_eq_nil.mp houtputs,
    hspends.native_le hneeds hstructure⟩

/-! ## DOLI -/

theorem total_doliValue_lt (hnative : total nativeAmount consumed < 2 ^ 64)
    (hpools : poolIndices consumed = [0] ∨ poolIndices consumed = []) :
    total Output.doliValue consumed < 2 ^ 65 := by
  rcases hpools with hfirst | hnone
  · obtain ⟨pool, rest, hpool⟩ := poolFirst_of_poolIndices hfirst
    cases hrecord : pool.poolMetadata with
    | some record =>
        have hreserve := (Output.poolMetadata_fits hrecord).reserveA
        rw [hpool.total_doliValue hrecord]
        omega
    | none =>
        have hzero : pool.doliValue = 0 := by
          simp [Output.doliValue, hpool.isPool, hrecord, OutputType.isNativeAmount]
        rw [hpool.total_nativeAmount] at hnative
        rw [hpool.list, total_cons, total_doliValue_of_poolless hpool.alone, hzero]
        omega
  · rw [total_doliValue_of_poolless (poolIndices_eq_nil.mp hnone)]
    omega

theorem Spends.doli_le (hopen : ctx.GatesOpen)
    (hstructure : validateTransactionSkipRegistrationVdf ctx.rules.withPools ctx.base tx =
      .ok ())
    (hspends : Spends ctx tx consumed) :
    total Output.doliValue tx.outputs ≤ total Output.doliValue consumed := by
  cases hneeds : needsPool tx.txType with
  | true =>
      obtain ⟨oldPool, newPool, hchange⟩ := hspends.poolChange hopen hneeds hstructure
      exact hchange.conserved.doli
  | false =>
      by_cases htype : tx.txType = .createPool
      · obtain ⟨pool, hcreation⟩ := hspends.poolCreation hopen htype hstructure
        obtain ⟨first, rest, hfirst, hrecord⟩ := hcreation.declared
        rw [hfirst.total_doliValue hrecord, total_doliValue_of_poolless hcreation.poolless]
        exact hcreation.doli
      · have hamm : isAmm tx.txType = false := by
          rw [← Bool.not_eq_true, isAmm_iff]
          simp [htype, hneeds]
        have hpoolless := hspends.poolless hopen hamm hstructure
        rw [total_doliValue_of_poolless hpoolless.declared,
          total_doliValue_of_poolless hpoolless.spent]
        exact hpoolless.doli

/-- With the gates open no accepted transaction brings forth DOLI, in amounts or in the
reserves of a pool, and no sum leaves its integer type. -/
theorem doli_conserved {lookup : Outpoint → Option UtxoEntry} (hopen : ctx.GatesOpen)
    (hcoinbase : tx.isCoinbase = false) (hreward : tx.isEpochReward = false)
    (hok : ctx.validateTransactionWithUtxos tx lookup = .ok ()) :
    total Output.doliValue tx.outputs ≤ total Output.doliValue (consumedOutputs tx lookup) ∧
      total nativeAmount tx.outputs ≤ totalSupply ∧
        total nativeAmount (consumedOutputs tx lookup) < 2 ^ 64 ∧
          total Output.doliValue (consumedOutputs tx lookup) < 2 ^ 65 := by
  have hstructure := structure_of_accepted hok
  have hspends : Spends ctx tx (consumedOutputs tx lookup) := by
    simpa [hcoinbase, hreward] using accepted_cases hok
  have hpools := (hspends.authorized hopen.incI234).pools
  refine ⟨hspends.doli_le hopen hstructure, native_le_of_structure hstructure, hspends.fits,
    total_doliValue_lt hspends.fits ?_⟩
  split at hpools
  case isTrue => exact .inl hpools
  case isFalse => exact .inr hpools

/-! ## A pool and an addition to it -/

/-- Fungible assets with readable metadata are admitted, and nothing else is. -/
def sampleTokenRules : OpenRules where
  typedOutput _ _ index output :=
    refuseIf output.fungibleAssetMetadata.isNone
      (.invalidTransaction s!"[ERRTX019] FungibleAsset output {index} has invalid or missing asset metadata")
  typedPayload _ _ := .error (.invalidTransaction "type not activated")

/-- An input needs a signature; there are no royalties and no settlements. -/
def sampleSpending : OpenSpending where
  inputConditions _ tx index _ :=
    refuseIf ((tx.inputs[index]?.map Input.signature) = some ⟨0⟩)
      (.invalidTransaction s!"invalid signature for input {index}")
  contentRules _ _ _ := .ok ()
  zkSettlement _ _ _ :=
    .error (.invalidTransaction "[ERRTX-ZK021] ZKSettle not yet activated on this chain")

def sampleSpendingContext : SpendingContext where
  base := sampleContext 20
  incI092ActivationHeight := 0
  incI096ActivationHeight := 0
  incI173ActivationHeight := 0
  rules := sampleTokenRules
  spending := sampleSpending

theorem sampleSpendingContext_gatesOpen : sampleSpendingContext.GatesOpen := by
  constructor <;> decide

def sampleAssetB : Hash := ⟨88⟩

def samplePoolRecord : PoolMetadata where
  poolId := Output.computePoolId sampleCrypto.primitives ⟨0⟩ sampleAssetB 30
  assetBId := sampleAssetB
  reserveA := 4000
  reserveB := 8000
  totalLpShares := 2000
  cumulativePrice := 0
  lastUpdateSlot := 3
  feeBps := 30
  creationSlot := 3
  status := 0

def sampleSpend (signature : Nat) (outpoint : Outpoint) : Input where
  prevTxHash := outpoint.txHash
  outputIndex := outpoint.index
  signature := ⟨BitVec.ofNat 512 signature⟩
  sighashType := .all
  committedOutputCount := 0
  publicKey := some ⟨5⟩

def samplePaid (amount : Nat) : Output where
  outputType := .normal
  amount := amount
  pubkeyHash := ⟨5⟩
  lockUntil := 0
  extraData := []

def sampleTokens (amount : Nat) : Output :=
  .fungibleAsset amount ⟨5⟩ sampleAssetB 10000 "T"

/-- DOLI, tokens, and the stored pool. -/
def sampleLookup (outpoint : Outpoint) : Option UtxoEntry :=
  if outpoint = ⟨⟨9⟩, 0⟩ then some ⟨samplePaid 5000, 1, false, false⟩
  else if outpoint = ⟨⟨9⟩, 1⟩ then some ⟨sampleTokens 10000, 1, false, false⟩
  else if outpoint = ⟨⟨10⟩, 0⟩ then some ⟨.pool samplePoolRecord, 2, false, false⟩
  else none

/-- A tenth of liquidity is added to the pool. -/
def sampleAddition (declared : PoolMetadata) : Transaction where
  version := 1
  txType := .addLiquidity
  inputs := [sampleSpend 0 ⟨⟨10⟩, 0⟩, sampleSpend 1 ⟨⟨9⟩, 0⟩, sampleSpend 1 ⟨⟨9⟩, 1⟩]
  outputs := [.pool declared, .lpShare 200 samplePoolRecord.poolId ⟨5⟩, samplePaid 4600,
    sampleTokens 9200]
  extraData := []

def sampleAdded : PoolMetadata :=
  { samplePoolRecord with
    reserveA := 4400
    reserveB := 8800
    totalLpShares := 2200 }

theorem sampleAddition_accepted :
    sampleSpendingContext.validateTransactionWithUtxos (sampleAddition sampleAdded)
      sampleLookup = .ok () := by
  decide +kernel

theorem doli_conserved_addition :
    total Output.doliValue (sampleAddition sampleAdded).outputs = 9000 ∧
      total Output.doliValue (sampleAddition sampleAdded).outputs ≤
        total Output.doliValue (consumedOutputs (sampleAddition sampleAdded) sampleLookup) :=
  ⟨by decide +kernel, (doli_conserved sampleSpendingContext_gatesOpen (by decide +kernel)
    (by decide +kernel) sampleAddition_accepted).1⟩

end Doli.Validation
