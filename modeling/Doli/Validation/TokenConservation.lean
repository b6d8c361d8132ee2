import Doli.Validation.PoolChange

/-!
# Tokens under accepted transactions

What an accepted transaction does to every fungible asset, counted in the amounts of its
outputs and in the reserves of the pools that are held in it.
-/

namespace Doli.Validation

open Doli.Core Doli.Lib Doli.Storage

/-- Amounts of the asset, and the reserve of a pool of that very asset. -/
def assetValue (asset : Hash) (output : Output) : Nat :=
  output.assetAmount asset +
    if output.poolMetadata.map PoolMetadata.assetBId = some asset then output.poolReserveB
    else 0

/-- No asset grows, but for one that a Transfer issues on its first input. -/
def TokensConserved (prim : Primitives) (tx : Transaction) (consumed : List Output) : Prop :=
  ∀ asset, total (assetValue asset) tx.outputs ≤ total (assetValue asset) consumed ∨
    FreshIssuance prim tx asset

/-- The record of a changed pool names the asset of the record before; or the transaction
consumes as much of the asset that it names as the record holds in reserve. -/
def ReserveAssetKept (tx : Transaction) (consumed : List Output) : Prop :=
  tx.txType = .addLiquidity ∨ tx.txType = .removeLiquidity →
    ∀ oldPool newPool, consumed[0]?.bind Output.poolMetadata = some oldPool →
      declaredPool tx = some newPool → newPool.assetBId = oldPool.assetBId ∨
        newPool.reserveB ≤ total (Output.assetAmount newPool.assetBId) consumed

section

variable {outputs rest : List Output} {pool : Output} {record : PoolMetadata} {asset : Hash}

theorem total_assetValue_of_poolless
    (hnone : ∀ output ∈ outputs, output.outputType ≠ .pool) :
    total (assetValue asset) outputs = total (Output.assetAmount asset) outputs := by
  apply total_congr
  intro output houtput
  simp [assetValue, Output.poolMetadata_of_ne (hnone output houtput)]

theorem PoolFirst.total_assetAmount (hfirst : PoolFirst outputs rest pool) :
    total (Output.assetAmount asset) outputs = total (Output.assetAmount asset) rest := by
  have hnone : pool.assetAmount asset = 0 :=
    Output.assetAmount_of_ne (by simp [hfirst.isPool]) asset
  simp [hfirst.list, hnone]

theorem PoolFirst.total_assetValue (hfirst : PoolFirst outputs rest pool)
    (hrecord : pool.poolMetadata = some record) :
    total (assetValue asset) outputs =
      (if record.assetBId = asset then record.reserveB else 0) +
        total (Output.assetAmount asset) outputs := by
  have hpool : assetValue asset pool =
      if record.assetBId = asset then record.reserveB else 0 := by
    have hnone : pool.assetAmount asset = 0 :=
      Output.assetAmount_of_ne (by simp [hfirst.isPool]) asset
    simp [assetValue, hrecord, Output.poolReserveB, hnone]
  rw [hfirst.total_assetAmount, hfirst.list, total_cons, hpool,
    total_assetValue_of_poolless hfirst.alone]

theorem PoolFirst.total_tokenB (hfirst : PoolFirst outputs rest pool)
    (hrecord : pool.poolMetadata = some record) :
    total (tokenB asset) outputs =
      record.reserveB + total (Output.assetAmount asset) outputs := by
  have hothers : total (Output.poolReserveB) rest = 0 :=
    total_eq_zero fun output houtput => Output.poolReserveB_of_ne (hfirst.alone output houtput)
  have hpool : pool.poolReserveB = record.reserveB := by simp [Output.poolReserveB, hrecord]
  have hsplit : total (tokenB asset) outputs =
      total (Output.assetAmount asset) outputs + total Output.poolReserveB outputs := total_add
  have hreserves : total Output.poolReserveB outputs = record.reserveB := by
    rw [hfirst.list, total_cons, hothers, hpool, Nat.add_zero]
  omega

end

variable {ctx : SpendingContext} {tx : Transaction} {consumed : List Output}

theorem tokensConserved_of_normal {prim : Primitives}
    (hnormal : ∀ output ∈ tx.outputs, output.outputType = .normal) :
    TokensConserved prim tx consumed := by
  intro asset
  left
  have hnone : total (assetValue asset) tx.outputs = 0 := by
    apply total_eq_zero
    intro output houtput
    have htype := hnormal output houtput
    have hamount : output.assetAmount asset = 0 := Output.assetAmount_of_ne (by simp [htype]) asset
    have hpool : output.poolMetadata = none := Output.poolMetadata_of_ne (by simp [htype])
    simp [assetValue, hamount, hpool]
  omega

theorem PoolCreation.tokensConserved {prim : Primitives} {pool : PoolMetadata}
    (hcreation : PoolCreation prim tx consumed pool) (htype : tx.txType = .createPool)
    (hauthorized : Authorized prim tx consumed) : TokensConserved prim tx consumed := by
  intro asset
  obtain ⟨first, rest, hfirst, hrecord⟩ := hcreation.declared
  rw [hfirst.total_assetValue hrecord, total_assetValue_of_poolless hcreation.poolless]
  by_cases hown : pool.assetBId = asset
  · subst hown
    left
    simpa using hcreation.token
  · rw [if_neg hown, Nat.zero_add]
    apply hauthorized.asset_covered
    intro record _ hpool
    have hsame : record = pool := by
      simpa [ownPool, htype, hfirst.head, hrecord, eq_comm] using hpool
    rw [hsame]
    exact Ne.symm hown

theorem Poolless.tokensConserved {prim : Primitives} (hpoolless : Poolless tx consumed)
    (hamm : isAmm tx.txType = false) (hauthorized : Authorized prim tx consumed) :
    TokensConserved prim tx consumed := by
  intro asset
  rw [total_assetValue_of_poolless hpoolless.declared,
    total_assetValue_of_poolless hpoolless.spent]
  exact hauthorized.asset_covered (by simp [hamm])

theorem PoolChange.tokensConserved_iff {prim : Primitives} {oldPool newPool : PoolMetadata}
    (hchange : PoolChange tx consumed oldPool newPool) (htype : tx.txType ≠ .transfer) :
    TokensConserved prim tx consumed ↔ newPool.assetBId = oldPool.assetBId ∨
      newPool.reserveB ≤ total (Output.assetAmount newPool.assetBId) consumed := by
  obtain ⟨spent, rest, hspent, hold⟩ := hchange.spent
  obtain ⟨declared, others, hdeclared, hnew⟩ := hchange.declared
  have htoken := hchange.conserved.token
  rw [hspent.total_tokenB hold, hdeclared.total_tokenB hnew] at htoken
  have hforeign : ∀ asset, asset ≠ oldPool.assetBId →
      total (Output.assetAmount asset) tx.outputs = 0 := by
    intro asset hasset
    apply total_eq_zero
    intro output houtput
    unfold Output.assetAmount
    split
    case h_1 id supply ticker hmetadata =>
      have hid := hchange.conserved.tokens output houtput _ hmetadata
      exact if_neg fun hsame => hasset (hsame.symm.trans hid)
    case h_2 => rfl
  have hbalance : ∀ asset, total (assetValue asset) tx.outputs ≤
      total (assetValue asset) consumed ↔
        (if newPool.assetBId = asset then newPool.reserveB else 0) +
            total (Output.assetAmount asset) tx.outputs ≤
          (if oldPool.assetBId = asset then oldPool.reserveB else 0) +
            total (Output.assetAmount asset) consumed := by
    intro asset
    rw [hspent.total_assetValue hold, hdeclared.total_assetValue hnew]
  constructor
  · intro hconserved
    by_cases hsame : newPool.assetBId = oldPool.assetBId
    · exact .inl hsame
    · right
      have hown := (hconserved newPool.assetBId).resolve_right fun hfresh => htype hfresh.1
      rw [hbalance, if_pos rfl, if_neg (Ne.symm hsame), hforeign _ hsame] at hown
      omega
  · intro hkept asset
    left
    rw [hbalance]
    by_cases hasset : asset = oldPool.assetBId
    · subst hasset
      split
      · simpa using htoken
      · simp only [if_true]
        omega
    · rw [hforeign asset hasset]
      split
      case isTrue hnamed =>
        subst hnamed
        have hcovered := hkept.resolve_left hasset
        omega
      case isFalse => omega

/-- With the gates open an accepted transaction conserves every asset exactly when an
addition or a removal of liquidity keeps the asset of the reserve. -/
theorem tokens_conserved_iff {lookup : Outpoint → Option UtxoEntry} (hopen : ctx.GatesOpen)
    (hok : ctx.validateTransactionWithUtxos tx lookup = .ok ()) :
    TokensConserved ctx.base.crypto.primitives tx (consumedOutputs tx lookup) ↔
      ReserveAssetKept tx (consumedOutputs tx lookup) := by
  have hstructure := structure_of_accepted hok
  rcases accepted_cases hok with hcoinbase | hreward | hspends
  · have htype := (Transaction.isCoinbase_iff.mp hcoinbase).1
    have hnormal := normal_of_coinbase hopen.incI234 hcoinbase hstructure
    exact iff_of_true (tokensConserved_of_normal hnormal) (by simp [ReserveAssetKept, htype])
  · have htype : tx.txType = .epochReward := of_decide_eq_true hreward
    have hpayload := payload_of_structure (by simp [htype]) (by simp [htype]) hstructure
    simp only [validatePayload, htype, OpenRules.withPools] at hpayload
    exact iff_of_true (tokensConserved_of_normal (normal_of_validateEpochRewardData hpayload))
      (by simp [ReserveAssetKept, htype])
  · have hauthorized := hspends.authorized hopen.incI234
    cases hneeds : needsPool tx.txType with
    | true =>
        obtain ⟨oldPool, newPool, hchange⟩ := hspends.poolChange hopen hneeds hstructure
        have htransfer : tx.txType ≠ .transfer := by
          intro htype
          simp [htype, needsPool] at hneeds
        rw [hchange.tokensConserved_iff htransfer]
        have hold := hchange.conserved.old
        have hnew : declaredPool tx = some newPool := hchange.conserved.new
        by_cases hswap : tx.txType = .swap
        · exact iff_of_true (.inl (hchange.swapped hswap).1) (by simp [ReserveAssetKept, hswap])
        · have hkind : tx.txType = .addLiquidity ∨ tx.txType = .removeLiquidity := by
            revert hneeds hswap
            cases tx.txType <;> simp [needsPool]
          simp [ReserveAssetKept, hkind, hold, hnew]
    | false =>
        have hkept : ReserveAssetKept tx (consumedOutputs tx lookup) := by
          intro hkind
          rcases hkind with htype | htype
          · simp [htype, needsPool] at hneeds
          · simp [htype, needsPool] at hneeds
        by_cases htype : tx.txType = .createPool
        · obtain ⟨pool, hcreation⟩ := hspends.poolCreation hopen htype hstructure
          exact iff_of_true (hcreation.tokensConserved htype hauthorized) hkept
        · have hamm : isAmm tx.txType = false := by
            rw [← Bool.not_eq_true, isAmm_iff]
            simp [htype, hneeds]
          exact iff_of_true
            ((hspends.poolless hopen hamm hstructure).tokensConserved hamm hauthorized) hkept

/-- The addition names another asset, and its reserve with it. -/
def sampleRenamed : PoolMetadata :=
  { sampleAdded with assetBId := ⟨99⟩ }

theorem addition_converts_reserve :
    sampleSpendingContext.GatesOpen ∧
      sampleSpendingContext.validateTransactionWithUtxos (sampleAddition sampleRenamed)
        sampleLookup = .ok () ∧
      total (assetValue ⟨99⟩) (sampleAddition sampleRenamed).outputs = 8800 ∧
      total (assetValue ⟨99⟩)
        (consumedOutputs (sampleAddition sampleRenamed) sampleLookup) = 0 ∧
      ¬ TokensConserved sampleSpendingContext.base.crypto.primitives
        (sampleAddition sampleRenamed)
        (consumedOutputs (sampleAddition sampleRenamed) sampleLookup) := by
  have hcreated : total (assetValue ⟨99⟩) (sampleAddition sampleRenamed).outputs = 8800 := by
    decide +kernel
  have hconsumed : total (assetValue ⟨99⟩)
      (consumedOutputs (sampleAddition sampleRenamed) sampleLookup) = 0 := by
    decide +kernel
  refine ⟨sampleSpendingContext_gatesOpen, by decide +kernel, hcreated, hconsumed, ?_⟩
  intro hconserved
  rcases hconserved ⟨99⟩ with hle | hfresh
  · omega
  · exact absurd hfresh.1 (by decide)

theorem tokens_conserved_addition :
    TokensConserved sampleSpendingContext.base.crypto.primitives (sampleAddition sampleAdded)
      (consumedOutputs (sampleAddition sampleAdded) sampleLookup) := by
  apply (tokens_conserved_iff sampleSpendingContext_gatesOpen sampleAddition_accepted).mpr
  intro _ oldPool newPool hold hnew
  left
  have hsame : ∀ oldPool ∈ (consumedOutputs (sampleAddition sampleAdded) sampleLookup)[0]?.bind
      Output.poolMetadata, ∀ newPool ∈ declaredPool (sampleAddition sampleAdded),
        newPool.assetBId = oldPool.assetBId := by
    decide +kernel
  exact hsame oldPool hold newPool hnew

end Doli.Validation
