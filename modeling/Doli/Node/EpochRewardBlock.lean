import Doli.Node.BlockEconomics
import Doli.Node.EpochRewardWords
import Doli.Storage.StateDb

/-!
# The EpochReward of a boundary block

The builder counts every row of the reward pool, whatever its type, and spends all of them;
the validator counts the native ones.
-/

namespace Doli.Node

open Doli.Core Doli.Lib Doli.Producer Doli.Storage
open Doli.Validation (nativeAmount sampleCrypto sampleSpendingContext sampleLookup sampleSpend
  samplePaid sampleAssetB)

/-! ## The builder -/

def newInput (outpoint : Outpoint) : Input where
  prevTxHash := outpoint.txHash
  outputIndex := outpoint.index
  signature := ⟨0⟩
  sighashType := .all
  committedOutputCount := 0
  publicKey := none

def normalOutput (amount : Nat) (pubkeyHash : Hash) : Output where
  outputType := .normal
  amount := amount
  pubkeyHash := pubkeyHash
  lockUntil := 0
  extraData := []

def newEpochRewardCoinbase (poolInputs : List Outpoint) (outputs : List (Nat × Hash))
    (height epoch : Nat) : Transaction where
  version := 1
  txType := .epochReward
  inputs := poolInputs.map newInput
  outputs := outputs.map fun row => normalOutput row.1 row.2
  extraData := leBytes 8 height ++ leBytes 8 epoch

/-- What the builder of a boundary block reads. -/
structure EpochClose where
  prim : Primitives
  rewards : RewardParams
  producers : ProducerSet
  bondSnapshot : Column Hash Nat
  qualified : List ProducerInfo
  db : StateDb
  height : Nat
  completedEpoch : Nat

namespace EpochClose

variable (close : EpochClose)

def poolRows : List (Outpoint × UtxoEntry) :=
  close.db.getUtxosByPubkey (rewardPoolPubkeyHash close.prim)

/-- The sum of all amounts at the pool, a `u64`. -/
def poolAmount : Nat :=
  let held := total (fun row => row.2.output.amount) close.poolRows % 2 ^ 64
  if epochRewardExplicitInputsHeight ≤ close.height then held
  else (held + close.rewards.blockReward close.height) % 2 ^ 64

/-- The DOLI at the pool. -/
def nativeHeld : Nat := total (fun row => nativeAmount row.2.output) close.poolRows

def distribution : EpochDistribution where
  prim := close.prim
  producers := close.producers
  bondSnapshot := close.bondSnapshot
  qualified := close.qualified
  pool := close.poolAmount

def poolInputs : List Outpoint :=
  if epochRewardExplicitInputsHeight ≤ close.height then
    (close.poolRows.map Prod.fst).insertionSort EconomicsContext.outpointLe
  else []

/-- No EpochReward stands for an empty distribution. -/
def assembled : Option Transaction :=
  (close.distribution.calculateEpochRewards (.wrapping (2 ^ 64))).bind fun outputs =>
    if outputs = [] then none
    else some (newEpochRewardCoinbase close.poolInputs outputs close.height
      close.completedEpoch)

end EpochClose

/-! ## The validator -/

/-- What `validate_transaction_with_utxos` asks of an EpochReward. -/
def epochRewardBranch (ctx : UtxoContext) (tx : Transaction)
    (lookup : Outpoint → Option UtxoEntry) : Except Core.ValidationError Unit :=
  if tx.inputs.isEmpty then .ok ()
  else
    match ctx.epochRewardInputs lookup tx.inputs 0 0 with
    | .error error => .error error
    | .ok sum =>
        if sum < UtxoContext.totalOutput tx then
          .error (.insufficientFunds sum (UtxoContext.totalOutput tx))
        else .ok ()

/-- The native amount behind an input. -/
def nativeAt (lookup : Outpoint → Option UtxoEntry) (outpoint : Outpoint) : Nat :=
  (lookup outpoint).elim 0 fun entry => nativeAmount entry.output

theorem epochRewardInputs_eq_ok {ctx : UtxoContext} {lookup : Outpoint → Option UtxoEntry}
    {inputs : List Input} {index sum amount : Nat} (hsum : sum < 2 ^ 64)
    (hpool : ∀ input ∈ inputs, ∃ entry, lookup (inputOutpoint input) = some entry ∧
      entry.output.pubkeyHash = rewardPoolPubkeyHash ctx.prim) :
    ctx.epochRewardInputs lookup inputs index sum = .ok amount ↔
      sum + total (fun input => nativeAt lookup (inputOutpoint input)) inputs < 2 ^ 64 ∧
        amount = sum + total (fun input => nativeAt lookup (inputOutpoint input)) inputs := by
  induction inputs generalizing index sum with
  | nil =>
      simp only [UtxoContext.epochRewardInputs, total_nil, Nat.add_zero, Except.ok.injEq, hsum,
        true_and]
      exact eq_comm
  | cons input inputs ih =>
      obtain ⟨entry, hentry, howner⟩ := hpool input List.mem_cons_self
      have hrest := fun other hother => hpool other (List.mem_cons_of_mem _ hother)
      have hnative : nativeAt lookup (inputOutpoint input) = nativeAmount entry.output := by
        rw [nativeAt, hentry]
        rfl
      rw [total_cons, hnative]
      simp only [UtxoContext.epochRewardInputs, hentry, howner, ne_eq, not_true_eq_false,
        if_false, UtxoContext.addNative]
      by_cases hkind : entry.output.outputType.isNativeAmount = true
      · have hamount : nativeAmount entry.output = entry.output.amount := by
          rw [nativeAmount, if_pos hkind]
        rw [hamount, if_pos hkind]
        by_cases hfits : sum + entry.output.amount < 2 ^ 64
        · rw [if_pos hfits]
          dsimp only
          rw [ih hfits hrest, Nat.add_assoc]
        · rw [if_neg hfits]
          dsimp only
          simp only [reduceCtorEq, false_iff]
          omega
      · have hamount : nativeAmount entry.output = 0 := by rw [nativeAmount, if_neg hkind]
        rw [hamount, if_neg hkind]
        dsimp only
        rw [ih hsum hrest, Nat.zero_add]

theorem totalOutput_normal (rows : List (Nat × Hash)) (tx : Transaction)
    (houtputs : tx.outputs = rows.map fun row => normalOutput row.1 row.2) :
    total Output.amount tx.outputs = total Prod.fst rows ∧
      UtxoContext.totalOutput tx = min (2 ^ 64 - 1) (total Prod.fst rows) := by
  have hnative : (tx.outputs.filter fun output => output.outputType.isNativeAmount) =
      tx.outputs := by
    rw [houtputs, List.filter_eq_self]
    intro output houtput
    obtain ⟨row, -, rfl⟩ := List.mem_map.mp houtput
    rfl
  have hamounts : tx.outputs.map Output.amount = rows.map Prod.fst := by
    rw [houtputs, List.map_map]
    rfl
  unfold UtxoContext.totalOutput total
  rw [hnative, hamounts]
  exact ⟨rfl, rfl⟩

namespace EpochClose

section

variable {close : EpochClose} {tx : Transaction}

theorem poolAmount_lt : close.poolAmount < 2 ^ 64 := by
  unfold poolAmount
  rw [if_pos (EconomicsContext.explicitInputs close.height)]
  exact Nat.mod_lt _ (by decide)

theorem assembled_eq_some (hassembled : close.assembled = some tx) :
    ∃ outputs, close.distribution.calculateEpochRewards (.wrapping (2 ^ 64)) = some outputs ∧
      outputs ≠ [] ∧ tx = newEpochRewardCoinbase close.poolInputs outputs close.height
        close.completedEpoch := by
  obtain ⟨outputs, hreturns, htx⟩ := Option.bind_eq_some_iff.mp hassembled
  split at htx
  case isTrue => cases htx
  case isFalse hne => exact ⟨outputs, hreturns, hne, (Option.some.inj htx).symm⟩

theorem inputs_assembled {outputs : List (Nat × Hash)} {height epoch : Nat}
    (htx : tx = newEpochRewardCoinbase close.poolInputs outputs height epoch) :
    (tx.inputs.map inputOutpoint).Perm (close.poolRows.map Prod.fst) := by
  have hinputs : tx.inputs.map inputOutpoint = close.poolInputs := by
    rw [htx]
    simp only [newEpochRewardCoinbase, List.map_map]
    exact List.map_id _
  rw [hinputs, poolInputs, if_pos (EconomicsContext.explicitInputs close.height)]
  exact List.perm_insertionSort _ _

theorem nativeAt_inputs {outputs : List (Nat × Hash)} {height epoch : Nat}
    (htx : tx = newEpochRewardCoinbase close.poolInputs outputs height epoch) :
    total (fun input => nativeAt close.db.getUtxo (inputOutpoint input)) tx.inputs =
      close.nativeHeld := by
  have hrows : close.poolRows.map (fun row => nativeAt close.db.getUtxo row.1) =
      close.poolRows.map fun row => nativeAmount row.2.output := by
    apply List.map_congr_left
    rintro ⟨outpoint, entry⟩ hrow
    rw [nativeAt, StateDb.getUtxo_of_mem_getUtxosByPubkey hrow]
    rfl
  have hsum := ((inputs_assembled htx).map (nativeAt close.db.getUtxo)).sum_eq
  rw [List.map_map, List.map_map] at hsum
  unfold nativeHeld total
  rw [← hrows]
  exact hsum

theorem owned_inputs (hindexed : close.db.Indexed) {outputs : List (Nat × Hash)}
    {height epoch : Nat}
    (htx : tx = newEpochRewardCoinbase close.poolInputs outputs height epoch) :
    ∀ input ∈ tx.inputs, ∃ entry, close.db.getUtxo (inputOutpoint input) = some entry ∧
      entry.output.pubkeyHash = rewardPoolPubkeyHash close.prim := by
  intro input hinput
  have hmem := (inputs_assembled htx).mem_iff.mp (List.mem_map_of_mem hinput)
  obtain ⟨⟨outpoint, entry⟩, hrow, heq⟩ := List.mem_map.mp hmem
  obtain ⟨hentry, howner⟩ := hindexed.mem_getUtxosByPubkey.mp hrow
  exact ⟨entry, heq ▸ hentry, howner⟩

theorem total_assembled (hweighted : close.distribution.Weighted)
    {outputs : List (Nat × Hash)}
    (hreturns : close.distribution.calculateEpochRewards (.wrapping (2 ^ 64)) = some outputs)
    (hne : outputs ≠ []) : total Prod.fst outputs = close.poolAmount :=
  (EpochDistribution.exact_of_weighted (WordArith.wrapping_sound _) poolAmount_lt hweighted
    hreturns hne).total

theorem counts_of_empty (hrows : close.poolRows = []) :
    close.nativeHeld = 0 ∧ close.poolAmount = 0 := by
  unfold nativeHeld poolAmount
  rw [if_pos (EconomicsContext.explicitInputs close.height), hrows]
  exact ⟨rfl, rfl⟩

end

end EpochClose

/-- The EpochReward of a boundary block is accepted and within the DOLI of the pool exactly
when all amounts at the pool, as the builder sums them, are. -/
theorem epoch_reward_accepted_iff {close : EpochClose} (ctx : UtxoContext)
    (hprim : ctx.prim = close.prim) (hindexed : close.db.Indexed)
    (hweighted : close.distribution.Weighted) {tx : Transaction}
    (hassembled : close.assembled = some tx) :
    epochRewardBranch ctx tx close.db.getUtxo = .ok () ∧
        total Output.amount tx.outputs ≤ close.nativeHeld ↔
      close.nativeHeld < 2 ^ 64 ∧ close.poolAmount ≤ close.nativeHeld := by
  obtain ⟨outputs, hreturns, hne, htx⟩ := EpochClose.assembled_eq_some hassembled
  have hsum := EpochClose.total_assembled hweighted hreturns hne
  obtain ⟨htotal, houtput⟩ := totalOutput_normal outputs tx (by rw [htx]; rfl)
  have hpool : close.poolAmount < 2 ^ 64 := EpochClose.poolAmount_lt
  have hinputs := EpochClose.inputs_assembled htx
  rw [htotal, hsum]
  unfold epochRewardBranch
  split
  case isTrue hempty =>
      have hrows : close.poolRows = [] := by
        rw [List.isEmpty_iff.mp hempty] at hinputs
        exact List.map_eq_nil_iff.mp (List.perm_nil.mp hinputs.symm)
      obtain ⟨hnative, hamount⟩ := EpochClose.counts_of_empty hrows
      rw [hnative, hamount]
      simp
  case isFalse =>
      have hread : ∀ {amount}, ctx.epochRewardInputs close.db.getUtxo tx.inputs 0 0 = .ok amount ↔
          close.nativeHeld < 2 ^ 64 ∧ amount = close.nativeHeld := by
        intro amount
        rw [epochRewardInputs_eq_ok (by decide)
          (by rw [hprim]; exact EpochClose.owned_inputs hindexed htx), Nat.zero_add,
          EpochClose.nativeAt_inputs htx]
      constructor
      · rintro ⟨hbranch, hle⟩
        refine ⟨?_, hle⟩
        split at hbranch
        · contradiction
        case h_2 amount hamount => exact (hread.mp hamount).1
      · rintro ⟨hfits, hle⟩
        rw [hread.mpr ⟨hfits, rfl⟩]
        refine ⟨?_, hle⟩
        dsimp only
        rw [if_neg (by omega)]

/-! ## Two boundary blocks -/

/-- Tokens for the address of the reward pool. -/
def sampleDonation : Transaction where
  version := 1
  txType := .transfer
  inputs := [sampleSpend 1 ⟨⟨9⟩, 0⟩, sampleSpend 1 ⟨⟨9⟩, 1⟩]
  outputs := [samplePaid 4000,
    .fungibleAsset 10000 (rewardPoolPubkeyHash sampleCrypto.primitives) sampleAssetB 10000 "T"]
  extraData := []

def sampleMinted : UtxoEntry where
  output := normalOutput 100 (rewardPoolPubkeyHash sampleCrypto.primitives)
  height := 9
  isCoinbase := true
  isEpochReward := false

/-- One qualified producer, and the pool that `db` holds. -/
def sampleClose (db : StateDb) : EpochClose where
  prim := sampleCrypto.primitives
  rewards := ⟨100, 12614400⟩
  producers := .new
  bondSnapshot := ∅
  qualified := [EpochDistribution.sampleRewarded ⟨5⟩ []]
  db := db
  height := 1080
  completedEpoch := 2

def sampleMintedDb : StateDb := StateDb.empty.insertUtxo ⟨⟨90⟩, 0⟩ sampleMinted

def sampleDonatedDb : StateDb :=
  sampleMintedDb.insertUtxo ⟨sampleCrypto.primitives.txHash sampleDonation, 1⟩
    { output := .fungibleAsset 10000 (rewardPoolPubkeyHash sampleCrypto.primitives) sampleAssetB
        10000 "T"
      height := 20
      isCoinbase := false
      isEpochReward := false }

theorem epoch_reward_accepted_minted :
    ∃ tx, (sampleClose sampleMintedDb).assembled = some tx ∧
      epochRewardBranch sampleSpendingContext.utxo tx sampleMintedDb.getUtxo = .ok () := by
  have hsome : (sampleClose sampleMintedDb).assembled.isSome = true := by decide +kernel
  obtain ⟨tx, htx⟩ := Option.isSome_iff_exists.mp hsome
  have hindexed : sampleMintedDb.Indexed := by
    apply StateDb.indexed_empty.insertUtxo
    intro entry hentry
    cases hentry
  have hweighted : (sampleClose sampleMintedDb).distribution.Weighted := by
    refine ⟨by decide +kernel, ?_⟩
    intro info hinfo _
    rw [List.mem_singleton.mp hinfo]
    decide
  exact ⟨tx, htx, ((epoch_reward_accepted_iff sampleSpendingContext.utxo rfl hindexed hweighted
    htx).mpr (by decide +kernel)).1⟩

/-- The tokens are counted by the builder only. -/
theorem donated_tokens_refused :
    sampleSpendingContext.validateTransactionWithUtxos sampleDonation sampleLookup = .ok () ∧
      ∃ tx, (sampleClose sampleDonatedDb).assembled = some tx ∧
        epochRewardBranch sampleSpendingContext.utxo tx sampleDonatedDb.getUtxo =
          .error (.insufficientFunds 100 10100) := by
  refine ⟨by decide +kernel, ?_⟩
  have hrefused : ((sampleClose sampleDonatedDb).assembled.map fun tx =>
      epochRewardBranch sampleSpendingContext.utxo tx sampleDonatedDb.getUtxo) =
        some (.error (.insufficientFunds 100 10100)) := by
    decide +kernel
  exact Option.map_eq_some_iff.mp hrefused

end Doli.Node
