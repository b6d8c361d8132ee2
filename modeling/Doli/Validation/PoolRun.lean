import Doli.Storage.BlockBatch
import Doli.Validation.PoolChange

/-!
# Runs of a pool

A pool moves from one stored output to the next by accepted transactions that consume the
one and declare the other, each over a UTXO set and in a context of its own.
-/

namespace Doli.Validation

open Doli.Core Doli.Lib Doli.Storage

/-- A transaction, where it was accepted, and the slot of its block. -/
structure PoolTransaction where
  ctx : SpendingContext
  tx : Transaction
  lookup : Outpoint → Option UtxoEntry
  slot : Nat

namespace PoolTransaction

/-- The gates are open and the transaction is accepted. -/
structure Accepted (step : PoolTransaction) : Prop where
  opened : step.ctx.GatesOpen
  accepted : step.ctx.validateTransactionWithUtxos step.tx step.lookup = .ok ()

/-- The transaction stores `next` as its first output. -/
def Stores (step : PoolTransaction) (next : Output) : Prop :=
  ∃ declared, step.tx.outputs[0]? = some declared ∧ next = stampOutput declared step.slot

/-- An accepted swap, addition or removal that spends `pool` and stores `next`. -/
structure Moves (step : PoolTransaction) (pool next : Output) : Prop extends
    Accepted step where
  kind : step.tx.txType = .swap ∨ step.tx.txType = .addLiquidity ∨
    step.tx.txType = .removeLiquidity
  spends : ∃ input entry, step.tx.inputs[0]? = some input ∧
    step.lookup (inputOutpoint input) = some entry ∧ entry.output = pool
  stores : step.Stores next

/-- An accepted creation that stores `pool`. -/
structure Creates (step : PoolTransaction) (pool : Output) : Prop extends
    Accepted step where
  kind : step.tx.txType = .createPool
  stores : step.Stores pool

/-- An addition or a removal declares the asset and the fee of the pool it spends. -/
def DeclaresIdentity (step : PoolTransaction) (pool : Output) : Prop :=
  step.tx.txType = .addLiquidity ∨ step.tx.txType = .removeLiquidity →
    ∀ oldPool newPool, pool.poolMetadata = some oldPool → declaredPool step.tx = some newPool →
      newPool.assetBId = oldPool.assetBId ∧ newPool.feeBps = oldPool.feeBps

end PoolTransaction

/-- Each row is a step and the output that it stores. -/
def PoolRun : Output → List (PoolTransaction × Output) → Prop
  | _, [] => True
  | pool, (step, next) :: rows => step.Moves pool next ∧ PoolRun next rows

/-- Every step of the run declares the identity of the pool it spends. -/
def RunDeclaresIdentity : Output → List (PoolTransaction × Output) → Prop
  | _, [] => True
  | pool, (step, next) :: rows => step.DeclaresIdentity pool ∧ RunDeclaresIdentity next rows

/-! ## Stored pools -/

/-- What the stamp of a block leaves of a record. -/
structure SameRecord (declared stored : PoolMetadata) : Prop where
  poolId : stored.poolId = declared.poolId
  assetBId : stored.assetBId = declared.assetBId
  feeBps : stored.feeBps = declared.feeBps
  reserves : stored.reserves = declared.reserves

theorem poolMetadata_stampOutput {output : Output} {declared : PoolMetadata}
    (hdeclared : output.poolMetadata = some declared) (slot : Nat) :
    ∃ stored, (stampOutput output slot).poolMetadata = some stored ∧
      SameRecord declared stored := by
  have htype := Output.outputType_of_poolMetadata hdeclared
  have hfits := Output.poolMetadata_fits hdeclared
  have hstored : stampOutput output slot = .pool (stampPool declared slot) := by
    simp [stampOutput, htype, hdeclared]
  rw [hstored, Output.poolMetadata_pool_truncated]
  refine ⟨_, rfl, rfl, rfl, ?_, ?_⟩
  · exact Nat.mod_eq_of_lt hfits.feeBps
  · simp only [PoolMetadata.reserves, stampPool]
    rw [Nat.mod_eq_of_lt hfits.reserveA, Nat.mod_eq_of_lt hfits.reserveB,
      Nat.mod_eq_of_lt hfits.totalLpShares]

theorem consumedOutputs_head {tx : Transaction} {lookup : Outpoint → Option UtxoEntry}
    {input : Input} {entry : UtxoEntry} (hinput : tx.inputs[0]? = some input)
    (hentry : lookup (inputOutpoint input) = some entry) :
    (consumedOutputs tx lookup)[0]? = some entry.output := by
  cases hinputs : tx.inputs with
  | nil => simp [hinputs] at hinput
  | cons first rest =>
      obtain rfl : first = input := by simpa [hinputs] using hinput
      simp [consumedOutputs, hinputs, hentry]

theorem PoolTransaction.Moves.records {step : PoolTransaction} {pool next : Output}
    (hmoves : step.Moves pool next) :
    ∃ oldPool newPool stored, pool.poolMetadata = some oldPool ∧
      declaredPool step.tx = some newPool ∧ next.poolMetadata = some stored ∧
        SameRecord newPool stored ∧
          PoolChange step.tx (consumedOutputs step.tx step.lookup) oldPool newPool := by
  have hneeds : needsPool step.tx.txType = true := needsPool_iff.mpr hmoves.kind
  have hspends : Spends step.ctx step.tx (consumedOutputs step.tx step.lookup) := by
    rcases accepted_cases hmoves.accepted with hcoinbase | hreward | hspends
    · have htype := (Transaction.isCoinbase_iff.mp hcoinbase).1
      simp [htype, needsPool] at hneeds
    · have htype : step.tx.txType = .epochReward := of_decide_eq_true hreward
      simp [htype, needsPool] at hneeds
    · exact hspends
  obtain ⟨oldPool, newPool, hchange⟩ :=
    hspends.poolChange hmoves.opened hneeds (structure_of_accepted hmoves.accepted)
  obtain ⟨input, entry, hinput, hentry, hpool⟩ := hmoves.spends
  obtain ⟨declared, hdeclared, hnext⟩ := hmoves.stores
  have hold : pool.poolMetadata = some oldPool := by
    have hhead := hchange.conserved.old
    rw [consumedOutputs_head hinput hentry, Option.bind_some, hpool] at hhead
    exact hhead
  have hnew : declared.poolMetadata = some newPool := by
    have hhead := hchange.conserved.new
    rw [hdeclared, Option.bind_some] at hhead
    exact hhead
  obtain ⟨stored, hstored, hsame⟩ := poolMetadata_stampOutput hnew step.slot
  rw [← hnext] at hstored
  exact ⟨oldPool, newPool, stored, hold, hchange.conserved.new, hstored, hsame, hchange⟩

/-! ## Identity -/

/-- The fields that name a pool. -/
def identityOf (output : Output) : Option (Hash × Hash × Nat) :=
  output.poolMetadata.map fun pool => (pool.poolId, pool.assetBId, pool.feeBps)

/-- The id of the pool is derived from its asset and its fee. -/
def IdDerived (prim : Primitives) (output : Output) : Prop :=
  ∃ pool, output.poolMetadata = some pool ∧
    pool.poolId = Output.computePoolId prim ⟨0⟩ pool.assetBId pool.feeBps

theorem PoolTransaction.Moves.identity_iff {step : PoolTransaction} {pool next : Output}
    (hmoves : step.Moves pool next) :
    identityOf next = identityOf pool ↔ step.DeclaresIdentity pool := by
  obtain ⟨oldPool, newPool, stored, hold, hnew, hstored, hsame, hchange⟩ := hmoves.records
  have hid := hsame.poolId.trans hchange.poolId
  simp only [identityOf, hold, hstored, Option.map_some, Option.some.injEq, Prod.mk.injEq, hid,
    true_and, hsame.assetBId, hsame.feeBps]
  constructor
  · rintro hidentity - oldPool' newPool' hold' hnew'
    rw [hold] at hold'
    rw [hnew] at hnew'
    cases hold'
    cases hnew'
    exact hidentity
  · intro hdeclares
    rcases hmoves.kind with hswap | hliquidity
    · exact ⟨(hchange.swapped hswap).1, (hchange.swapped hswap).2.1⟩
    · exact hdeclares hliquidity oldPool newPool hold hnew

theorem PoolRun.identity_iff {pool : Output} {rows : List (PoolTransaction × Output)}
    (hrun : PoolRun pool rows) :
    (∀ row ∈ rows, identityOf row.2 = identityOf pool) ↔ RunDeclaresIdentity pool rows := by
  induction rows generalizing pool with
  | nil => simp [RunDeclaresIdentity]
  | cons row rows ih =>
      obtain ⟨step, next⟩ := row
      obtain ⟨hmoves, hrest⟩ := hrun
      rw [List.forall_mem_cons, RunDeclaresIdentity, ← hmoves.identity_iff, ← ih hrest]
      apply and_congr_right
      intro hsame
      rw [hsame]

theorem IdDerived.of_identity {prim : Primitives} {pool next : Output}
    (hderived : IdDerived prim pool) (hsame : identityOf next = identityOf pool) :
    IdDerived prim next := by
  obtain ⟨record, hrecord, hid⟩ := hderived
  simp only [identityOf, hrecord, Option.map_some, Option.map_eq_some_iff, Prod.mk.injEq] at hsame
  obtain ⟨found, hfound, hfields⟩ := hsame
  refine ⟨found, hfound, ?_⟩
  rw [hfields.1, hfields.2.1, hfields.2.2]
  exact hid

theorem PoolTransaction.Creates.idDerived {step : PoolTransaction} {pool : Output}
    (hcreates : step.Creates pool) : IdDerived step.ctx.base.crypto.primitives pool := by
  have hpayload := payload_of_structure (by simp [hcreates.kind]) (by simp [hcreates.kind])
    (structure_of_accepted hcreates.accepted)
  simp only [validatePayload, hcreates.kind, OpenRules.withPools] at hpayload
  obtain ⟨record, hcreated⟩ := createdPool_of_validateCreatePool hpayload
  obtain ⟨declared, hdeclared, hpool⟩ := hcreates.stores
  have hrecord : declared.poolMetadata = some record := by
    simpa [hdeclared] using hcreated.declared
  obtain ⟨stored, hstored, hsame⟩ := poolMetadata_stampOutput hrecord step.slot
  refine ⟨stored, hpool ▸ hstored, ?_⟩
  rw [hsame.poolId, hsame.assetBId, hsame.feeBps]
  exact hcreated.identity

/-- From its creation on, a pool keeps its id, asset and fee, and with them the
derivation of its id, exactly if every addition and removal declares them. -/
theorem pool_identity_iff {creation : PoolTransaction} {pool : Output}
    {rows : List (PoolTransaction × Output)} (hcreates : creation.Creates pool)
    (hrun : PoolRun pool rows) :
    (∀ row ∈ rows, identityOf row.2 = identityOf pool ∧
      IdDerived creation.ctx.base.crypto.primitives row.2) ↔ RunDeclaresIdentity pool rows := by
  rw [← hrun.identity_iff]
  constructor
  · exact fun hkept row hrow => (hkept row hrow).1
  · intro hsame row hrow
    exact ⟨hsame row hrow, hcreates.idDerived.of_identity (hsame row hrow)⟩

/-- The owner of the DOLI and the tokens founds the pool. -/
def sampleCreation : PoolTransaction where
  ctx := sampleSpendingContext
  tx :=
    { version := 1
      txType := .createPool
      inputs := [sampleSpend 1 ⟨⟨9⟩, 0⟩, sampleSpend 1 ⟨⟨9⟩, 1⟩]
      outputs := [.pool { samplePoolRecord with lastUpdateSlot := 0, creationSlot := 0 },
        .lpShare 1000 samplePoolRecord.poolId ⟨5⟩, sampleTokens 2000]
      extraData := [] }
  lookup := sampleLookup
  slot := 3

def sampleAddStep (declared : PoolMetadata) : PoolTransaction where
  ctx := sampleSpendingContext
  tx := sampleAddition declared
  lookup := sampleLookup
  slot := 4

theorem sampleCreation_creates : sampleCreation.Creates (.pool samplePoolRecord) where
  opened := sampleSpendingContext_gatesOpen
  accepted := by decide +kernel
  kind := rfl
  stores := ⟨_, rfl, by decide +kernel⟩

theorem sampleAddStep_moves {declared : PoolMetadata}
    (haccepted : sampleSpendingContext.validateTransactionWithUtxos (sampleAddition declared)
      sampleLookup = .ok ()) :
    (sampleAddStep declared).Moves (.pool samplePoolRecord)
      (stampOutput (.pool declared) 4) where
  opened := sampleSpendingContext_gatesOpen
  accepted := haccepted
  kind := .inr (.inl rfl)
  spends := ⟨_, _, rfl, rfl, rfl⟩
  stores := ⟨_, rfl, rfl⟩

/-- The addition names another asset and another fee. -/
def sampleRebranded : PoolMetadata :=
  { sampleAdded with
    assetBId := ⟨99⟩
    feeBps := 5 }

theorem addition_changes_identity :
    sampleCreation.Creates (.pool samplePoolRecord) ∧
      PoolRun (.pool samplePoolRecord)
        [(sampleAddStep sampleRebranded, stampOutput (.pool sampleRebranded) 4)] ∧
      identityOf (stampOutput (.pool sampleRebranded) 4) ≠
        identityOf (.pool samplePoolRecord) ∧
      ¬ IdDerived sampleCreation.ctx.base.crypto.primitives
        (stampOutput (.pool sampleRebranded) 4) := by
  refine ⟨sampleCreation_creates, ⟨sampleAddStep_moves (by decide +kernel), trivial⟩,
    by decide +kernel, ?_⟩
  rintro ⟨record, hrecord, hid⟩
  have hother : ∀ record ∈ (stampOutput (.pool sampleRebranded) 4).poolMetadata,
      record.poolId ≠ Output.computePoolId sampleCreation.ctx.base.crypto.primitives ⟨0⟩
        record.assetBId record.feeBps := by
    decide +kernel
  exact hother record hrecord hid

theorem pool_identity_addition :
    identityOf (stampOutput (.pool sampleAdded) 4) = identityOf (.pool samplePoolRecord) ∧
      IdDerived sampleCreation.ctx.base.crypto.primitives
        (stampOutput (.pool sampleAdded) 4) := by
  have hrun : PoolRun (.pool samplePoolRecord)
      [(sampleAddStep sampleAdded, stampOutput (.pool sampleAdded) 4)] :=
    ⟨sampleAddStep_moves sampleAddition_accepted, trivial⟩
  have hkept := (pool_identity_iff sampleCreation_creates hrun).mpr
  refine hkept ?_ _ List.mem_cons_self
  refine ⟨fun _ oldPool newPool hold hnew => ?_, trivial⟩
  have hsame : ∀ oldPool ∈ (Output.pool samplePoolRecord).poolMetadata,
      ∀ newPool ∈ declaredPool (sampleAddition sampleAdded),
        newPool.assetBId = oldPool.assetBId ∧ newPool.feeBps = oldPool.feeBps := by
    decide +kernel
  exact hsame oldPool hold newPool hnew

/-! ## Worth of a share -/

/-- The two records, and that no share is worth less in the second. -/
def ShareValueKept (before after : Output) : Prop :=
  ∃ oldPool newPool, before.poolMetadata = some oldPool ∧ after.poolMetadata = some newPool ∧
    oldPool.reserves.Keeps newPool.reserves

theorem ShareValueKept.trans {before middle after : Output}
    (hfirst : ShareValueKept before middle) (hsecond : ShareValueKept middle after) :
    ShareValueKept before after := by
  obtain ⟨oldPool, middlePool, hold, hmiddle, hkept⟩ := hfirst
  obtain ⟨middlePool', newPool, hmiddle', hnew, hkept'⟩ := hsecond
  rw [hmiddle] at hmiddle'
  cases hmiddle'
  exact ⟨oldPool, newPool, hold, hnew, hkept.trans hkept'⟩

theorem PoolTransaction.Moves.shareValueKept {step : PoolTransaction} {pool next : Output}
    (hmoves : step.Moves pool next) : ShareValueKept pool next := by
  obtain ⟨oldPool, newPool, stored, hold, -, hstored, hsame, hchange⟩ := hmoves.records
  refine ⟨oldPool, stored, hold, hstored, ?_⟩
  rw [hsame.reserves]
  exact keeps_of_checkTransition hchange.transition fun hswap => (hchange.swapped hswap).2.2

theorem PoolRun.pairwise_shareValueKept {pool : Output}
    {rows : List (PoolTransaction × Output)} (hrun : PoolRun pool rows) :
    (pool :: rows.map Prod.snd).Pairwise ShareValueKept := by
  induction rows generalizing pool with
  | nil => exact List.pairwise_singleton _ _
  | cons row rows ih =>
      obtain ⟨step, next⟩ := row
      obtain ⟨hmoves, hrest⟩ := hrun
      have hlater := ih hrest
      rw [List.map_cons, List.pairwise_cons]
      refine ⟨?_, hlater⟩
      intro after hafter
      rcases List.mem_cons.mp hafter with rfl | hafter
      · exact hmoves.shareValueKept
      · exact hmoves.shareValueKept.trans ((List.pairwise_cons.mp hlater).1 after hafter)

/-- Between any two states of a run, the later one after the earlier, the product of the
reserves over the square of the shares does not fall. -/
theorem share_value_never_diluted {pool : Output} {rows : List (PoolTransaction × Output)}
    (hrun : PoolRun pool rows) :
    (pool :: rows.map Prod.snd).Pairwise fun before after =>
      ∃ oldPool newPool, before.poolMetadata = some oldPool ∧
        after.poolMetadata = some newPool ∧
          oldPool.reserveA * oldPool.reserveB * newPool.totalLpShares ^ 2 ≤
            newPool.reserveA * newPool.reserveB * oldPool.totalLpShares ^ 2 := by
  apply hrun.pairwise_shareValueKept.imp
  rintro before after ⟨oldPool, newPool, hold, hnew, hkept⟩
  exact ⟨oldPool, newPool, hold, hnew, hkept.undiluted⟩

theorem share_value_addition :
    [Output.pool samplePoolRecord, stampOutput (.pool sampleAdded) 4].Pairwise
      fun before after =>
        ∃ oldPool newPool, before.poolMetadata = some oldPool ∧
          after.poolMetadata = some newPool ∧
            oldPool.reserveA * oldPool.reserveB * newPool.totalLpShares ^ 2 ≤
              newPool.reserveA * newPool.reserveB * oldPool.totalLpShares ^ 2 :=
  @share_value_never_diluted (.pool samplePoolRecord)
    [(sampleAddStep sampleAdded, stampOutput (.pool sampleAdded) 4)]
    ⟨sampleAddStep_moves sampleAddition_accepted, trivial⟩

end Doli.Validation
