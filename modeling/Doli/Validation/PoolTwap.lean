import Doli.Validation.PoolRun

/-!
# The accumulated price of a pool

A block stamps a pool output from the record that the transaction declares: it adds the
price of the declared reserves since the declared update to the declared accumulator.  The
stored accumulator follows the pool that was spent exactly where the declared record makes
up for the difference.
-/

namespace Doli.Validation

open Doli.Core Doli.Lib Doli.Storage

/-! ## Accrual -/

/-- The highest value of the accumulator. -/
def twapCap : Nat := 2 ^ 128 - 1

/-- What the reserves of a record add to its cumulative price up to `slot`. -/
def accrual (record : PoolMetadata) (slot : Nat) : Nat :=
  if record.reserveB = 0 ∨ slot ≤ record.lastUpdateSlot then 0
  else
    min (record.reserveA * 2 ^ 64 / record.reserveB * (slot - record.lastUpdateSlot)) twapCap

/-- `update_twap` on the fields of one record. -/
def twapAt (record : PoolMetadata) (slot : Nat) : Nat :=
  updateTwap record.cumulativePrice record.reserveA record.reserveB slot record.lastUpdateSlot

theorem twapAt_eq {record : PoolMetadata} (hfits : record.cumulativePrice < 2 ^ 128)
    (slot : Nat) :
    twapAt record slot = min (record.cumulativePrice + accrual record slot) twapCap := by
  unfold twapAt updateTwap accrual
  split
  · unfold twapCap
    omega
  · rfl

/-- What a declared record accrues: nothing if it names no last update. -/
def declaredAccrual (record : PoolMetadata) (slot : Nat) : Nat :=
  if record.lastUpdateSlot = 0 then 0 else accrual record slot

theorem stampPool_cumulativePrice {declared : PoolMetadata}
    (hfits : declared.cumulativePrice < 2 ^ 128) (slot : Nat) :
    (stampPool declared slot).cumulativePrice =
      min (declared.cumulativePrice + declaredAccrual declared slot) twapCap := by
  unfold stampPool declaredAccrual
  dsimp only
  split
  case isTrue hmoved =>
    rw [if_neg (by omega)]
    exact twapAt_eq hfits slot
  case isFalse hkept =>
    have hnone : (if declared.lastUpdateSlot = 0 then 0 else accrual declared slot) = 0 := by
      unfold accrual
      split
      · rfl
      · rw [if_pos (by omega)]
    rw [hnone]
    unfold twapCap
    omega

theorem cumulativePrice_stampOutput {output : Output} {declared stored : PoolMetadata}
    (hdeclared : output.poolMetadata = some declared) {slot : Nat}
    (hstored : (stampOutput output slot).poolMetadata = some stored) :
    stored.cumulativePrice =
      min (declared.cumulativePrice + declaredAccrual declared slot) twapCap := by
  have htype := Output.outputType_of_poolMetadata hdeclared
  have hfits := (Output.poolMetadata_fits hdeclared).cumulativePrice
  have hpool : stampOutput output slot = .pool (stampPool declared slot) := by
    simp [stampOutput, htype, hdeclared]
  rw [hpool, Output.poolMetadata_pool_truncated] at hstored
  obtain rfl := Option.some.inj hstored
  change (stampPool declared slot).cumulativePrice % 2 ^ 128 = _
  rw [stampPool_cumulativePrice hfits]
  apply Nat.mod_eq_of_lt
  unfold twapCap
  omega

/-! ## One step -/

/-- The stored accumulator is that of the spent pool, moved on by the reserves of the spent
pool over the slots since its last update. -/
def FollowsTwap (step : PoolTransaction) (pool next : Output) : Prop :=
  ∃ oldPool stored, pool.poolMetadata = some oldPool ∧ next.poolMetadata = some stored ∧
    stored.cumulativePrice = twapAt oldPool step.slot

/-- The declared accumulator and what the declared record accrues come to what the spent
pool has and accrues, or both pass the cap. -/
def PoolTransaction.DeclaresAccrual (step : PoolTransaction) (pool : Output) : Prop :=
  ∀ oldPool newPool, pool.poolMetadata = some oldPool → declaredPool step.tx = some newPool →
    newPool.cumulativePrice + declaredAccrual newPool step.slot =
        oldPool.cumulativePrice + accrual oldPool step.slot ∨
      twapCap ≤ newPool.cumulativePrice + declaredAccrual newPool step.slot ∧
        twapCap ≤ oldPool.cumulativePrice + accrual oldPool step.slot

theorem PoolTransaction.Moves.twap_iff {step : PoolTransaction} {pool next : Output}
    (hmoves : step.Moves pool next) :
    FollowsTwap step pool next ↔ step.DeclaresAccrual pool := by
  obtain ⟨oldPool, newPool, stored, hold, hnew, hstored, -, -⟩ := hmoves.records
  obtain ⟨declared, hdeclared, hnext⟩ := hmoves.stores
  have hrecord : declared.poolMetadata = some newPool := by
    simpa [declaredPool, hdeclared] using hnew
  have hprice := cumulativePrice_stampOutput hrecord (hnext ▸ hstored)
  have hfits := (Output.poolMetadata_fits hold).cumulativePrice
  constructor
  · rintro ⟨oldPool', stored', hold', hstored', hfollows⟩ old new hfound hnamed
    rw [hold] at hold' hfound
    rw [hstored] at hstored'
    rw [hnew] at hnamed
    cases hold'
    cases hfound
    cases hstored'
    cases hnamed
    rw [hprice, twapAt_eq hfits] at hfollows
    omega
  · intro hdeclares
    refine ⟨oldPool, stored, hold, hstored, ?_⟩
    have hsame := hdeclares oldPool newPool hold hnew
    rw [hprice, twapAt_eq hfits]
    omega

/-! ## Runs -/

def RunFollowsTwap : Output → List (PoolTransaction × Output) → Prop
  | _, [] => True
  | pool, (step, next) :: rows => FollowsTwap step pool next ∧ RunFollowsTwap next rows

def RunDeclaresAccrual : Output → List (PoolTransaction × Output) → Prop
  | _, [] => True
  | pool, (step, next) :: rows => step.DeclaresAccrual pool ∧ RunDeclaresAccrual next rows

/-- Over a run the stored accumulator follows the reserves in force exactly if every
declared record makes up for its own reserves and its own last update. -/
theorem pool_twap_iff {pool : Output} {rows : List (PoolTransaction × Output)}
    (hrun : PoolRun pool rows) :
    RunFollowsTwap pool rows ↔ RunDeclaresAccrual pool rows := by
  induction rows generalizing pool with
  | nil => exact Iff.rfl
  | cons row rows ih =>
      obtain ⟨step, next⟩ := row
      obtain ⟨hmoves, hrest⟩ := hrun
      exact and_congr hmoves.twap_iff (ih hrest)

/-- Four hundred DOLI buy tokens, and the trader copies the accumulator and the slot of the
last update. -/
def sampleSwapStep : PoolTransaction where
  ctx := sampleSpendingContext
  tx :=
    { version := 1
      txType := .swap
      inputs := [sampleSpend 0 ⟨⟨10⟩, 0⟩, sampleSpend 1 ⟨⟨9⟩, 0⟩]
      outputs := [.pool { samplePoolRecord with reserveA := 4400, reserveB := 7300 },
        sampleTokens 700, samplePaid 4600]
      extraData := [] }
  lookup := sampleLookup
  slot := 4

def sampleSwapped : Output :=
  stampOutput (.pool { samplePoolRecord with reserveA := 4400, reserveB := 7300 }) 4

theorem swap_prices_own_reserves :
    sampleCreation.Creates (.pool samplePoolRecord) ∧
      PoolRun (.pool samplePoolRecord) [(sampleSwapStep, sampleSwapped)] ∧
      twapAt samplePoolRecord 4 = 2 ^ 63 ∧
      ¬ FollowsTwap sampleSwapStep (.pool samplePoolRecord) sampleSwapped := by
  have hmoves : sampleSwapStep.Moves (.pool samplePoolRecord) sampleSwapped :=
    { opened := sampleSpendingContext_gatesOpen
      accepted := by decide +kernel
      kind := .inl rfl
      spends := ⟨_, _, rfl, rfl, rfl⟩
      stores := ⟨_, rfl, rfl⟩ }
  refine ⟨sampleCreation_creates, ⟨hmoves, trivial⟩, by decide +kernel, ?_⟩
  rintro ⟨oldPool, stored, hold, hstored, hfollows⟩
  have hother : ∀ oldPool ∈ (Output.pool samplePoolRecord).poolMetadata,
      ∀ stored ∈ sampleSwapped.poolMetadata,
        stored.cumulativePrice ≠ twapAt oldPool sampleSwapStep.slot := by
    decide +kernel
  exact hother oldPool hold stored hstored hfollows

theorem pool_twap_addition :
    FollowsTwap (sampleAddStep sampleAdded) (.pool samplePoolRecord)
      (stampOutput (.pool sampleAdded) 4) := by
  have hrun : PoolRun (.pool samplePoolRecord)
      [(sampleAddStep sampleAdded, stampOutput (.pool sampleAdded) 4)] :=
    ⟨sampleAddStep_moves sampleAddition_accepted, trivial⟩
  have hdeclares : (sampleAddStep sampleAdded).DeclaresAccrual (.pool samplePoolRecord) := by
    intro oldPool newPool hold hnew
    left
    have hsame : ∀ oldPool ∈ (Output.pool samplePoolRecord).poolMetadata,
        ∀ newPool ∈ declaredPool (sampleAddition sampleAdded),
          newPool.cumulativePrice + declaredAccrual newPool 4 =
            oldPool.cumulativePrice + accrual oldPool 4 := by
      decide +kernel
    exact hsame oldPool hold newPool hnew
  exact ((pool_twap_iff hrun).mpr ⟨hdeclares, trivial⟩).1

end Doli.Validation
