import Doli.Node.ShareLedger
import Doli.Validation.BlockIdentity

/-!
# Shares are backed

The UTXO sets that blocks of accepted transactions lead to, within a block and after it,
and what holds of the pools and the shares in all of them.
-/

namespace Doli.Node

open Doli.Core Doli.Lib Doli.Storage
open Doli.Validation (SpendingContext sampleCrypto sampleSpendingContext samplePaid sampleSpend
  samplePoolRecord)

/-! ## Blocks -/

def applyMode : Validation.ValidationMode → ValidationMode
  | .full => .full
  | .light => .light
  | .replay => .replay

/-- A block with the context in which the node validates it. -/
structure LedgerBlock where
  ctx : SpendingContext
  block : Validation.Block
  mode : Validation.ValidationMode

namespace LedgerBlock

def context (item : LedgerBlock) : BlockContext where
  utxo := item.ctx.utxo
  height := item.ctx.base.currentHeight
  slot := item.block.header.slot.toNat
  mode := applyMode item.mode

/-- The block passes full or light validation with every gate open. -/
structure Accepted (prim : Primitives) (item : LedgerBlock) : Prop where
  prim_eq : item.ctx.base.crypto.primitives = prim
  opened : item.ctx.GatesOpen
  live : item.mode ≠ .replay
  valid : Validation.validateBlockWithMode item.ctx.rules.withPools item.ctx.base item.block
    item.mode = .ok ()

end LedgerBlock

/-- The stores that accepted blocks lead to, with the transactions they applied. -/
inductive ReachableStore (prim : Primitives) : List Transaction → StateDb → Prop
  | empty : ReachableStore prim [] .empty
  | block {applied : List Transaction} {db : StateDb} {item : LedgerBlock} {state : UtxoState}
      (hreached : ReachableStore prim applied db) (haccepted : item.Accepted prim)
      (hprocess : processTransactions item.context item.block.transactions db = .ok state) :
      ReachableStore prim (applied ++ item.block.transactions) state.batch.commit

/-- The UTXO sets on the way: those of the stores, and those that an overlay shows after
some transactions of the next block. -/
inductive Reachable (prim : Primitives) : List Transaction → UtxoColumn → Prop
  | store {applied : List Transaction} {db : StateDb} (hreached : ReachableStore prim applied db) :
      Reachable prim applied db.utxo
  | within {applied : List Transaction} {db : StateDb} {item : LedgerBlock}
      {done rest : List (Transaction × Nat)} {state : UtxoState}
      (hreached : ReachableStore prim applied db) (haccepted : item.Accepted prim)
      (hsplit : item.block.transactions.zipIdx = done ++ rest)
      (hrun : run (processStep item.context) done (.initial db) = .ok state) :
      Reachable prim (applied ++ done.map Prod.fst) state.batch.view

/-! ## Pools and shares -/

def poolAt (utxo : UtxoColumn) (outpoint : Outpoint) : Option PoolMetadata :=
  (utxo.lookup outpoint).bind fun entry => entry.output.poolMetadata

/-- The unspent shares of a pool. -/
def sharesHeld (utxo : UtxoColumn) (poolId : Hash) : Nat :=
  holdings (fun entry => entry.output.lpAmount poolId) utxo

/-- One unspent pool for an id at most, which counts the unspent shares and the minimum
that nobody holds; without a pool there are no shares. -/
structure SharesBacked (utxo : UtxoColumn) : Prop where
  unique : ∀ outpoint other pool found, poolAt utxo outpoint = some pool →
    poolAt utxo other = some found → pool.poolId = found.poolId → outpoint = other
  backed : ∀ outpoint pool, poolAt utxo outpoint = some pool →
    sharesHeld utxo pool.poolId + minimumLiquidity ≤ pool.totalLpShares
  unbacked : ∀ poolId, (∀ outpoint pool, poolAt utxo outpoint = some pool →
    pool.poolId ≠ poolId) → sharesHeld utxo poolId = 0

theorem issuerAt_eq_map (utxo : UtxoColumn) (outpoint : Outpoint) :
    entryShares.issuerAt utxo outpoint =
      (poolAt utxo outpoint).map fun pool => (pool.poolId, pool.totalLpShares) := by
  unfold Issuance.issuerAt poolAt
  cases utxo.lookup outpoint with
  | none => rfl
  | some entry => rfl

theorem sharesBacked_of_backed {utxo : UtxoColumn} (hbacked : entryShares.Backed utxo) :
    SharesBacked utxo := by
  have hissuer : ∀ outpoint pool, poolAt utxo outpoint = some pool →
      entryShares.issuerAt utxo outpoint = some (pool.poolId, pool.totalLpShares) := by
    intro outpoint pool hpool
    rw [issuerAt_eq_map, hpool]
    rfl
  constructor
  case unique =>
    intro outpoint other pool found hpool hfound hsame
    apply hbacked.unique outpoint other pool.poolId pool.totalLpShares found.totalLpShares
    · exact hissuer outpoint pool hpool
    · rw [hsame]
      exact hissuer other found hfound
  case backed =>
    intro outpoint pool hpool
    exact hbacked.backed outpoint pool.poolId pool.totalLpShares (hissuer outpoint pool hpool)
  case unbacked =>
    intro poolId habsent
    apply hbacked.unbacked poolId
    intro outpoint count hat
    rw [issuerAt_eq_map] at hat
    obtain ⟨pool, hpool, hsame⟩ := Option.map_eq_some_iff.mp hat
    exact habsent outpoint pool hpool (Prod.mk.inj hsame).1

/-! ## What validation gives each transaction -/

theorem outputs_le_transactionSize (tx : Transaction) :
    tx.outputs.length ≤ Validation.transactionSize tx := by
  have hsum : tx.outputs.length ≤ (tx.outputs.map Validation.outputSize).sum := by
    have hlength := List.length_le_sum_of_one_le (tx.outputs.map Validation.outputSize) (by
      intro size hsize
      obtain ⟨output, -, rfl⟩ := List.mem_map.mp hsize
      unfold Validation.outputSize
      omega)
    rwa [List.length_map] at hlength
  unfold Validation.transactionSize
  omega

section Accepted

variable {prim : Primitives} {item : LedgerBlock} {tx : Transaction}

theorem LedgerBlock.Accepted.light (haccepted : item.Accepted prim) :
    Validation.validateLight item.ctx.rules.withPools item.ctx.base item.block = .ok () := by
  have hlight : Validation.validateBlockWithMode item.ctx.rules.withPools item.ctx.base item.block
      .light = .ok () := by
    have hvalid := haccepted.valid
    cases hmode : item.mode with
    | full =>
        rw [hmode] at hvalid
        exact Validation.light_of_full hvalid
    | light =>
        rw [hmode] at hvalid
        exact hvalid
    | replay => exact absurd hmode haccepted.live
  exact (seq_eq_ok.mp hlight).2

theorem LedgerBlock.Accepted.structural (haccepted : item.Accepted prim)
    (htx : tx ∈ item.block.transactions) :
    Validation.validateTransactionSkipRegistrationVdf item.ctx.rules.withPools item.ctx.base tx =
      .ok () := by
  have hlight := haccepted.light
  simp only [Validation.validateLight, seq_eq_ok] at hlight
  exact (Validation.validateTransaction_split.mp
    (checkEach_eq_ok.mp hlight.2.2.2.1 tx htx)).2

theorem LedgerBlock.Accepted.distinct (haccepted : item.Accepted prim)
    (htx : tx ∈ item.block.transactions) : (tx.inputs.map inputOutpoint).Nodup := by
  have hlight := haccepted.light
  simp only [Validation.validateLight, seq_eq_ok] at hlight
  have hnodup := (Validation.nodup_of_checkDoubleSpendFrom hlight.2.2.2.2).1
  exact (List.nodup_flatMap.mp hnodup).1 tx htx

theorem LedgerBlock.Accepted.fits (haccepted : item.Accepted prim)
    (htx : tx ∈ item.block.transactions) : tx.outputs.length ≤ 2 ^ 32 := by
  have hlight := haccepted.light
  simp only [Validation.validateLight, seq_eq_ok] at hlight
  have hsize := (Validation.checkBody_eq_ok.mp hlight.2.2.1).1
  have hmax := Validation.maxBlockSize_le item.ctx.base.currentHeight
  have hmember := List.le_sum_of_mem (List.mem_map_of_mem (f := Validation.transactionSize) htx)
  have houtputs := outputs_le_transactionSize tx
  unfold Validation.Block.size at hsize
  omega

theorem LedgerBlock.Accepted.ledgerStep (haccepted : item.Accepted prim)
    (htx : tx ∈ item.block.transactions) {txIndex : Nat} {current next : UtxoState}
    (hstep : processTransactionUtxos item.context txIndex tx current = .ok next) :
    LedgerStep item.ctx item.context txIndex tx current next := by
  constructor
  case opened => exact haccepted.opened
  case utxo => rfl
  case height => rfl
  case live =>
    unfold LedgerBlock.context
    cases hmode : item.mode with
    | full => simp [applyMode]
    | light => simp [applyMode]
    | replay => exact absurd hmode haccepted.live
  case structural => exact haccepted.structural htx
  case distinct => exact haccepted.distinct htx
  case fits => exact haccepted.fits htx
  case process => exact hstep

end Accepted

/-! ## Runs -/

theorem shareLedger_within {prim : Primitives} {applied : List Transaction} {db : StateDb}
    {item : LedgerBlock} {done rest : List (Transaction × Nat)} {state : UtxoState}
    (hledger : ShareLedger prim applied db.beginBatch) (haccepted : item.Accepted prim)
    (hsplit : item.block.transactions.zipIdx = done ++ rest)
    (happart : HashesApart prim (applied ++ done.map Prod.fst))
    (hrun : run (processStep item.context) done (.initial db) = .ok state) :
    ShareLedger prim (applied ++ done.map Prod.fst) state.batch := by
  refine run_invariant
    (fun done state => ShareLedger prim (applied ++ done.map Prod.fst) state.batch) ?_ ?_ hrun
  · simpa [UtxoState.initial] using hledger
  · rintro earlier ⟨tx, txIndex⟩ later current next hitems hcurrent hstep
    have htx : tx ∈ item.block.transactions := by
      have hmem : (tx, txIndex) ∈ item.block.transactions.zipIdx := by
        rw [hsplit, hitems]
        simp
      exact List.fst_mem_of_mem_zipIdx hmem
    have hledgerStep := haccepted.ledgerStep htx hstep
    have hsoFar : HashesApart prim ((applied ++ earlier.map Prod.fst) ++ [tx]) := by
      apply happart.mono
      rw [hitems]
      simp
    rw [← haccepted.prim_eq] at hcurrent hsoFar ⊢
    have hkept := hledgerStep.keeps hcurrent hsoFar
    simpa using hkept

theorem shareLedger_store {prim : Primitives} {applied : List Transaction} {db : StateDb}
    (hreached : ReachableStore prim applied db) (happart : HashesApart prim applied) :
    ShareLedger prim applied db.beginBatch := by
  induction hreached with
  | empty => exact ShareLedger.initial prim
  | @block applied db item state hreached haccepted hprocess ih =>
      have hledger := ih (happart.mono (List.subset_append_left _ _))
      have hsplit : item.block.transactions.zipIdx = item.block.transactions.zipIdx ++ [] :=
        (List.append_nil _).symm
      have hall := shareLedger_within hledger haccepted hsplit (by simpa using happart) hprocess
      rw [List.zipIdx_map_fst] at hall
      exact hall.commit

/-- In every UTXO set that accepted transactions lead to, an id has one unspent pool at
most, and the unspent shares of a pool and the minimum stay within the shares it counts. -/
theorem lp_shares_backed {prim : Primitives} {applied : List Transaction} {utxo : UtxoColumn}
    (hreached : Reachable prim applied utxo) (happart : HashesApart prim applied) :
    SharesBacked utxo := by
  apply sharesBacked_of_backed
  cases hreached with
  | store hstore => exact (shareLedger_store hstore happart).backed
  | within hstore haccepted hsplit hrun =>
      have hledger := shareLedger_store hstore (happart.mono (List.subset_append_left _ _))
      exact (shareLedger_within hledger haccepted hsplit happart hrun).backed

/-! ## A block that founds a pool -/

def foundingMint : Transaction where
  version := 1
  txType := .transfer
  inputs := []
  outputs := [samplePaid 20000]
  extraData := leBytes 8 20

def foundingSpend (tx : Transaction) (index : Nat) : Input :=
  sampleSpend 1 ⟨sampleCrypto.primitives.txHash tx, index⟩

def foundingAsset : Hash :=
  Output.computeAssetId sampleCrypto.primitives
    (sampleCrypto.primitives.txHash foundingMint) 0

/-- The asset is issued on the mint. -/
def foundingIssue : Transaction where
  version := 1
  txType := .transfer
  inputs := [foundingSpend foundingMint 0]
  outputs := [.fungibleAsset 10000 ⟨5⟩ foundingAsset 10000 "T", samplePaid 9000]
  extraData := []

def foundingPool : PoolMetadata :=
  { samplePoolRecord with
    poolId := Output.computePoolId sampleCrypto.primitives ⟨0⟩ foundingAsset 30
    assetBId := foundingAsset
    lastUpdateSlot := 0
    creationSlot := 0 }

def foundingCreation : Transaction where
  version := 1
  txType := .createPool
  inputs := [foundingSpend foundingIssue 0, foundingSpend foundingIssue 1]
  outputs := [.pool foundingPool, .lpShare 1000 foundingPool.poolId ⟨5⟩, samplePaid 4000,
    .fungibleAsset 2000 ⟨5⟩ foundingAsset 10000 "T"]
  extraData := []

def foundingTransactions : List Transaction :=
  [foundingMint, foundingIssue, foundingCreation]

def foundingBlock : LedgerBlock where
  ctx := sampleSpendingContext
  block :=
    { header := { Validation.sampleHeader with
        merkleRoot := Validation.computeMerkleRoot sampleCrypto.primitives foundingTransactions }
      transactions := foundingTransactions
      aggregateBlsSignature := []
      attestationBitfield := [] }
  mode := .light

theorem foundingBlock_accepted : foundingBlock.Accepted sampleCrypto.primitives where
  prim_eq := rfl
  opened := Validation.sampleSpendingContext_gatesOpen
  live := by decide
  valid := by
    simp only [Validation.validateBlockWithMode, foundingBlock, Validation.validateLight,
      seq_eq_ok, Validation.checkBody_eq_ok]
    exact ⟨by decide +kernel, by decide +kernel, by decide +kernel,
      ⟨by decide +kernel, rfl⟩, by decide +kernel, by decide +kernel⟩

theorem foundingTransactions_apart :
    HashesApart sampleCrypto.primitives foundingTransactions where
  ids := by decide +kernel
  pools := by
    have hpools : ∀ tx ∈ foundingTransactions, ∀ pool ∈ Validation.declaredPool tx,
        Output.computePoolId sampleCrypto.primitives ⟨0⟩ pool.assetBId pool.feeBps ≠
          rewardPoolPubkeyHash sampleCrypto.primitives := by
      decide +kernel
    exact hpools

theorem lp_shares_backed_founding :
    ∃ state, processTransactions foundingBlock.context foundingTransactions .empty =
        .ok state ∧
      (poolAt state.batch.commit.utxo
        ⟨sampleCrypto.primitives.txHash foundingCreation, 0⟩).isSome ∧
      SharesBacked state.batch.commit.utxo := by
  obtain ⟨state, hprocess, hpool⟩ := @ok_of_any _ _
    (processTransactions foundingBlock.context foundingTransactions .empty)
    (fun state => (poolAt state.batch.commit.utxo
      ⟨sampleCrypto.primitives.txHash foundingCreation, 0⟩).isSome)
    (by decide +kernel)
  refine ⟨state, hprocess, hpool, ?_⟩
  exact lp_shares_backed (.store (.block .empty foundingBlock_accepted hprocess))
    foundingTransactions_apart

end Doli.Node
