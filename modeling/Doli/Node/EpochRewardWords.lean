import Doli.Node.EpochRewards

/-!
# Where no word overflows

The distribution is exact in either build, but a share is split by its owner's bonds and
its delegators' counts only where three products fit their word.
-/

namespace Doli.Node

open Doli.Core Doli.Lib Doli.Producer

section

variable {limit : Nat} {arith other : WordArith}

/-! ## The split of a share -/

theorem splitReward_exact (hsound : arith.Sound limit) {reward ownBonds totalBonds : Nat}
    (hpos : totalBonds ≠ 0) (hownLe : ownBonds ≤ totalBonds) (hreward : reward < limit)
    (hown : reward * ownBonds < limit)
    (hfee : (reward - reward * ownBonds / totalBonds) * delegateRewardPct < limit) :
    splitReward arith reward ownBonds totalBonds =
      some
        { ownShare := reward * ownBonds / totalBonds
          delegateFee := (reward - reward * ownBonds / totalBonds) * delegateRewardPct / 100
          stakerPool := reward - reward * ownBonds / totalBonds -
            (reward - reward * ownBonds / totalBonds) * delegateRewardPct / 100 } := by
  have hle : reward * ownBonds / totalBonds ≤ reward := by
    apply Nat.div_le_of_le_mul
    rw [Nat.mul_comm]
    exact Nat.mul_le_mul_right _ hownLe
  unfold splitReward
  generalize hshare : reward * ownBonds / totalBonds = ownShare at hle hfee ⊢
  have hdivide : WordArith.divide (reward * ownBonds) totalBonds = some ownShare :=
    WordArith.divide_eq_some.mpr ⟨hpos, hshare.symm⟩
  have hhundred : WordArith.divide ((reward - ownShare) * delegateRewardPct) 100 =
      some ((reward - ownShare) * delegateRewardPct / 100) :=
    WordArith.divide_eq_some.mpr ⟨by decide, rfl⟩
  have hfeeLe : (reward - ownShare) * delegateRewardPct / 100 ≤ reward - ownShare := by
    unfold delegateRewardPct
    omega
  simp only [hsound.mul_exact hown, Option.bind_eq_bind, Option.bind_some, hdivide,
    hsound.sub_exact hle hreward, hsound.mul_exact hfee, hhundred,
    hsound.sub_exact hfeeLe (by omega)]
  rfl

theorem splitReward_checked {reward ownBonds totalBonds : Nat} {split : RewardSplit}
    (hsplit : splitReward (.checked limit) reward ownBonds totalBonds = some split) :
    reward * ownBonds < limit ∧
      (reward - reward * ownBonds / totalBonds) * delegateRewardPct < limit ∧
        split.stakerPool = reward - reward * ownBonds / totalBonds -
          (reward - reward * ownBonds / totalBonds) * delegateRewardPct / 100 := by
  simp only [splitReward, Option.bind_eq_bind, Option.bind_eq_some_iff, WordArith.mul,
    WordArith.checked_fit, WordArith.checked_sub, WordArith.divide_eq_some] at hsplit
  obtain ⟨product, ⟨hown, rfl⟩, ownShare, ⟨-, rfl⟩, delegatedShare, ⟨-, rfl⟩, scaled,
    ⟨hfee, rfl⟩, delegateFee, ⟨-, rfl⟩, stakerPool, ⟨-, rfl⟩, hsplit⟩ := hsplit
  obtain rfl := Option.some.inj hsplit
  exact ⟨hown, hfee, rfl⟩

/-! ## The delegators -/

theorem delegatorRewards_transfer (hsound : arith.Sound limit) (hother : other.Sound limit)
    {stakerPool delegated stakerDistributed : Nat} (hpool : stakerPool < limit)
    {rows : List (Hash × Nat)} {rewards : List (Nat × Hash)}
    (hfits : ∀ row ∈ rows.dropLast, stakerPool * row.2 < limit)
    (hdistributed : stakerDistributed ≤ stakerPool)
    (hroom : stakerDistributed * delegated + stakerPool * total Prod.snd rows ≤
      stakerPool * delegated)
    (hrewards : delegatorRewards arith stakerPool delegated stakerDistributed rows =
      some rewards) :
    delegatorRewards other stakerPool delegated stakerDistributed rows = some rewards := by
  induction rows generalizing stakerDistributed rewards with
  | nil => exact hrewards
  | cons row rows ih =>
      cases rows with
      | nil =>
          simp only [delegatorRewards, delegatorReward, List.isEmpty_nil, if_true,
            hsound.sub_exact hdistributed hpool, hother.sub_exact hdistributed hpool,
            Option.bind_eq_bind, Option.bind_some] at hrewards ⊢
          rw [hsound.add_exact (by omega)] at hrewards
          rw [hother.add_exact (by omega)]
          exact hrewards
      | cons second rows =>
          have hproduct : stakerPool * row.2 < limit :=
            hfits row (by rw [List.dropLast_cons_cons]; exact List.mem_cons_self)
          rw [delegatorRewards, delegatorReward, List.isEmpty_cons] at hrewards ⊢
          simp only [Bool.false_eq_true, if_false, hsound.mul_exact hproduct,
            hother.mul_exact hproduct, Option.bind_some, Option.bind_eq_bind,
            Option.bind_eq_some_iff] at hrewards ⊢
          obtain ⟨reward, hreward, next, hnext, rest, hrest, heq⟩ := hrewards
          obtain ⟨hpos, hquotient⟩ := WordArith.divide_eq_some.mp hreward
          have hscaled : reward * delegated ≤ stakerPool * row.2 := by
            rw [hquotient]
            exact Nat.div_mul_le_self _ _
          obtain ⟨hnextLe, hroomNext⟩ := room_after_reward hpos hscaled hroom
          rw [hsound.add_exact (by omega), Option.some.injEq] at hnext
          subst hnext
          refine ⟨reward, hreward, _, hother.add_exact (by omega), rest, ?_, heq⟩
          apply ih _ hnextLe hroomNext hrest
          intro later hlater
          apply hfits
          rw [List.dropLast_cons_cons]
          exact List.mem_cons_of_mem _ hlater

theorem delegatorRewards_checked {stakerPool delegated stakerDistributed : Nat}
    {rows : List (Hash × Nat)} {rewards : List (Nat × Hash)}
    (hrewards : delegatorRewards (.checked limit) stakerPool delegated stakerDistributed rows =
      some rewards) :
    ∀ row ∈ rows.dropLast, stakerPool * row.2 < limit := by
  induction rows generalizing stakerDistributed rewards with
  | nil => simp
  | cons row rows ih =>
      cases rows with
      | nil => simp
      | cons second rows =>
          rw [delegatorRewards] at hrewards
          obtain ⟨reward, hreward, hrewards⟩ := Option.bind_eq_some_iff.mp hrewards
          obtain ⟨next, -, hrewards⟩ := Option.bind_eq_some_iff.mp hrewards
          obtain ⟨rest, hrest, -⟩ := Option.bind_eq_some_iff.mp hrewards
          simp only [delegatorReward, List.isEmpty_cons, Bool.false_eq_true, if_false] at hreward
          obtain ⟨product, hproduct, -⟩ := Option.bind_eq_some_iff.mp hreward
          rw [List.dropLast_cons_cons, List.forall_mem_cons]
          exact ⟨(WordArith.checked_fit.mp hproduct).1, ih hrest⟩

end

namespace EpochDistribution

section

variable (input : EpochDistribution)

/-! ## The products of the distribution -/

/-- The part of a share that belongs to the delegated bonds. -/
def delegatedShare (info : ProducerInfo) : Nat :=
  input.share info - input.share info * input.ownBonds info info.receivedTotal /
    max (input.bondFor info) 1

/-- What the commission leaves of it. -/
def stakerPool (info : ProducerInfo) : Nat :=
  input.delegatedShare info - input.delegatedShare info * delegateRewardPct / 100

/-- The products of a share with delegations, of exact arithmetic. -/
structure PartsFit (info : ProducerInfo) : Prop where
  delegations : info.receivedTotal < 2 ^ 64
  own : input.share info * input.ownBonds info info.receivedTotal < 2 ^ 64
  fee : input.delegatedShare info * delegateRewardPct < 2 ^ 64
  stakers : ∀ row ∈ info.receivedDelegations.dropLast,
    input.stakerPool info * row.2 < 2 ^ 64

def PartsFitWhenSplit (info : ProducerInfo) : Prop :=
  input.share info ≠ 0 → info.receivedDelegations ≠ [] → input.PartsFit info

structure Fits : Prop where
  weights : input.totalWeight < 2 ^ 64
  parts : ∀ info ∈ input.qualified, input.PartsFitWhenSplit info

end

section

variable {arith other : WordArith} {input : EpochDistribution} {info : ProducerInfo}

theorem ownBonds_le (delegated : Nat) :
    input.ownBonds info delegated ≤ max (input.bondFor info) 1 := by
  unfold ownBonds
  omega

theorem Fits.weighted (hfits : input.Fits) : input.Weighted where
  weights := hfits.weights
  delegations info hinfo hshare := by
    by_cases hnone : info.receivedDelegations = []
    · simp [ProducerInfo.receivedTotal, hnone]
    · exact (hfits.parts info hinfo hshare hnone).delegations

theorem splitReward_share (hsound : arith.Sound (2 ^ 64)) (hshare : input.share info < 2 ^ 64)
    (hparts : input.PartsFit info) :
    splitReward arith (input.share info) (input.ownBonds info info.receivedTotal)
        (max (input.bondFor info) 1) =
      some
        { ownShare := input.share info * input.ownBonds info info.receivedTotal /
            max (input.bondFor info) 1
          delegateFee := input.delegatedShare info * delegateRewardPct / 100
          stakerPool := input.stakerPool info } :=
  splitReward_exact hsound (by omega) (ownBonds_le _) hshare hparts.own hparts.fee

theorem producerOutputs_transfer (hsound : arith.Sound (2 ^ 64)) (hother : other.Sound (2 ^ 64))
    (hshare : input.share info < 2 ^ 64)
    (hparts : info.receivedDelegations ≠ [] → input.PartsFit info)
    {rows : List (Nat × Hash)}
    (hrows : input.producerOutputs arith info (input.share info) = some rows) :
    input.producerOutputs other info (input.share info) = some rows := by
  unfold producerOutputs at hrows ⊢
  split at hrows
  case isTrue hnone => rwa [if_pos hnone]
  case isFalse hsome =>
      have hparts := hparts hsome
      have hsum : ∀ {arith : WordArith}, arith.Sound (2 ^ 64) →
          arith.sum (info.receivedDelegations.map Prod.snd) 0 = some info.receivedTotal := by
        intro arith hsound
        rw [hsound.sum_exact (by rw [Nat.zero_add]; exact hparts.delegations), Nat.zero_add]
        rfl
      rw [if_neg hsome]
      simp only [hsum hsound, hsum hother, splitReward_share hsound hshare hparts,
        splitReward_share hother hshare hparts, Option.bind_eq_bind, Option.bind_some,
        Option.bind_eq_some_iff] at hrows ⊢
      obtain ⟨rewards, hrewards, producerTotal, hproducer, heq⟩ := hrows
      have hsplit := splitReward_total hsound (ownBonds_le _) hshare
        (splitReward_share hsound hshare hparts)
      dsimp only at hsplit
      rw [hsound.add_exact (by omega)] at hproducer
      have hpool : input.stakerPool info < 2 ^ 64 :=
        (Nat.sub_le _ _).trans_lt ((Nat.sub_le _ _).trans_lt hshare)
      refine ⟨rewards, ?_, producerTotal, ?_, heq⟩
      · exact delegatorRewards_transfer hsound hother hpool hparts.stakers (Nat.zero_le _)
          (by simp [ProducerInfo.receivedTotal, total]) hrewards
      · rw [hother.add_exact (by omega)]
        exact hproducer

theorem producerOutputs_checked {rows : List (Nat × Hash)}
    (hsome : info.receivedDelegations ≠ [])
    (hrows : input.producerOutputs (.checked (2 ^ 64)) info (input.share info) = some rows) :
    input.PartsFit info := by
  unfold producerOutputs at hrows
  rw [if_neg hsome] at hrows
  simp only [Option.bind_eq_bind, Option.bind_eq_some_iff] at hrows
  obtain ⟨delegated, hdelegated, split, hsplit, rewards, hrewards, -⟩ := hrows
  obtain ⟨hfits, heq⟩ := WordArith.checked_sum (by decide) hdelegated
  rw [Nat.zero_add] at hfits heq
  have htotal : delegated = info.receivedTotal := heq
  rw [htotal] at hsplit
  obtain ⟨hown, hfee, hstaker⟩ := splitReward_checked hsplit
  have hstakers := delegatorRewards_checked hrewards
  rw [hstaker] at hstakers
  exact ⟨hfits, hown, hfee, hstakers⟩

/-! ## The whole run -/

theorem payProducer_transfer (hsound : arith.Sound (2 ^ 64)) (hother : other.Sound (2 ^ 64))
    (hpool : input.pool < 2 ^ 64) (hfits : input.Fits) {done rest : List ProducerInfo}
    {progress next : Progress} (hall : input.qualified = done ++ info :: rest)
    (hpaid : progress.Paid input done)
    (hnext : input.payProducer arith input.totalWeight progress info = some next) :
    input.payProducer other input.totalWeight progress info = some next := by
  have hinfo : info ∈ input.qualified := by simp [hall]
  have hle : progress.distributed + input.share info ≤ input.pool := by
    have htotal := total_share_le (done ++ [info]) rest (by rw [hall, List.append_assoc]; rfl)
    rwa [total_append, total_cons, total_nil, ← hpaid.distributed, Nat.add_zero] at htotal
  unfold payProducer at hnext ⊢
  simp only [rewardOf_eq_share hpool hinfo] at hnext ⊢
  split at hnext
  case isTrue hzero => rwa [if_pos hzero]
  case isFalse hpos =>
      rw [if_neg hpos]
      simp only [Option.bind_eq_bind, Option.bind_eq_some_iff] at hnext ⊢
      obtain ⟨rows, hrows, distributed, hdistributed, heq⟩ := hnext
      rw [hsound.add_exact (by omega)] at hdistributed
      refine ⟨rows, ?_, distributed, ?_, heq⟩
      · exact producerOutputs_transfer hsound hother (by omega)
          (hfits.parts info hinfo hpos) hrows
      · rw [hother.add_exact (by omega)]
        exact hdistributed

theorem calculateEpochRewards_transfer (hsound : arith.Sound (2 ^ 64))
    (hother : other.Sound (2 ^ 64)) (hpool : input.pool < 2 ^ 64) (hfits : input.Fits)
    {outputs : List (Nat × Hash)}
    (hreturns : input.calculateEpochRewards arith = some outputs) :
    input.calculateEpochRewards other = some outputs := by
  rw [calculateEpochRewards_eq hsound hfits.weights] at hreturns
  rw [calculateEpochRewards_eq hother hfits.weights]
  split at hreturns
  case isTrue hzero => rwa [if_pos hzero]
  case isFalse hpos =>
      rw [if_neg hpos]
      obtain ⟨progress, hrun, hremainder⟩ := Option.bind_eq_some_iff.mp hreturns
      have hdelegations := hfits.weighted.delegations
      have hpaid := payProducers_paid hsound hpool hdelegations hrun
      have hsame : input.qualified.foldlM (input.payProducer other input.totalWeight) ⟨[], 0⟩ =
          some progress := by
        refine foldlM_transfer (Progress.Paid input) ⟨⟨[], .nil, rfl⟩, rfl⟩ ?_ hrun
        intro done info rest progress next hall hpaid hnext
        exact ⟨payProducer_transfer hsound hother hpool hfits hall hpaid hnext,
          payProducer_paid hsound hpool hdelegations hall hpaid hnext⟩
      rw [payRemainder_eq hsound hpool hpaid] at hremainder
      rw [Option.bind_eq_bind, hsame, Option.bind_some, payRemainder_eq hother hpool hpaid,
        hremainder]

theorem fits_of_checked (hpool : input.pool < 2 ^ 64) {outputs : List (Nat × Hash)}
    (hreturns : input.calculateEpochRewards (.checked (2 ^ 64)) = some outputs) :
    input.Fits := by
  have hweights : input.totalWeight < 2 ^ 64 := by
    obtain ⟨qualifyingBonds, hsum, -⟩ := Option.bind_eq_some_iff.mp hreturns
    have hfits := (WordArith.checked_sum (by decide) hsum).1
    rwa [Nat.zero_add] at hfits
  refine ⟨hweights, ?_⟩
  rw [calculateEpochRewards_eq (WordArith.checked_sound _) hweights] at hreturns
  split at hreturns
  case isTrue hzero =>
      intro info _ hshare
      simp [share, hzero] at hshare
  case isFalse =>
      obtain ⟨progress, hrun, -⟩ := Option.bind_eq_some_iff.mp hreturns
      refine foldlM_invariant (fun done _ => ∀ info ∈ done, input.PartsFitWhenSplit info)
        (by simp) ?_ hrun
      intro done info rest progress next hall hdone hnext
      rw [List.forall_mem_append]
      refine ⟨hdone, List.forall_mem_singleton.mpr fun hshare hsome => ?_⟩
      have hinfo : info ∈ input.qualified := by simp [hall]
      unfold payProducer at hnext
      simp only [rewardOf_eq_share hpool hinfo, if_neg hshare] at hnext
      obtain ⟨rows, hrows, -⟩ := Option.bind_eq_some_iff.mp hnext
      exact producerOutputs_checked hsome hrows

end

/-- What the node pays is exact and computed without an overflow exactly when the weights
and the three products of every divided share fit their words. -/
theorem epoch_rewards_exact_iff {input : EpochDistribution} (hpool : input.pool < 2 ^ 64)
    {outputs : List (Nat × Hash)}
    (hreturns : input.calculateEpochRewards (.wrapping (2 ^ 64)) = some outputs)
    (hpaid : outputs ≠ []) :
    input.Exact outputs ∧ input.calculateEpochRewards (.checked (2 ^ 64)) = some outputs ↔
      input.Fits := by
  constructor
  · rintro ⟨-, hchecked⟩
    exact fits_of_checked hpool hchecked
  · intro hfits
    exact ⟨exact_of_weighted (WordArith.wrapping_sound _) hpool hfits.weighted hreturns hpaid,
      calculateEpochRewards_transfer (WordArith.wrapping_sound _) (WordArith.checked_sound _)
        hpool hfits hreturns⟩

/-! ## Two runs -/

def sampleRewarded (key : PublicKey) (delegations : List (Hash × Nat)) : ProducerInfo :=
  { ProducerInfo.newWithBonds key 1 1000 ⟨⟨80⟩, 0⟩ 0 1 with receivedDelegations := delegations }

/-- A producer of weight 6 with delegations of 2 and 1, and one of weight 3. -/
def sampleShared : EpochDistribution where
  prim := samplePrimitives
  producers := .new
  bondSnapshot := ((∅ : Column Hash Nat).insert (samplePrimitives.addressOf ⟨5⟩) 6).insert
    (samplePrimitives.addressOf ⟨6⟩) 3
  qualified := [sampleRewarded ⟨5⟩ [(⟨71⟩, 2), (⟨72⟩, 1)], sampleRewarded ⟨6⟩ []]
  pool := 1000

theorem epoch_rewards_exact_shared :
    sampleShared.Exact [(201, ⟨71⟩), (100, ⟨72⟩), (366, samplePrimitives.addressOf ⟨5⟩),
      (333, samplePrimitives.addressOf ⟨6⟩)] := by
  have hreturns : sampleShared.calculateEpochRewards (.wrapping (2 ^ 64)) =
      some [(201, ⟨71⟩), (100, ⟨72⟩), (366, samplePrimitives.addressOf ⟨5⟩),
        (333, samplePrimitives.addressOf ⟨6⟩)] := by
    decide +kernel
  have hchecked : sampleShared.calculateEpochRewards (.checked (2 ^ 64)) =
      some [(201, ⟨71⟩), (100, ⟨72⟩), (366, samplePrimitives.addressOf ⟨5⟩),
        (333, samplePrimitives.addressOf ⟨6⟩)] := by
    decide +kernel
  have hpool : sampleShared.pool < 2 ^ 64 := by decide +kernel
  exact ((epoch_rewards_exact_iff hpool hreturns (List.cons_ne_nil _ _)).mpr
    (fits_of_checked hpool hchecked)).1

/-- Half of the weight is delegated, and the pool holds half of the range. -/
def sampleWrapped : EpochDistribution where
  prim := samplePrimitives
  producers := .new
  bondSnapshot := (∅ : Column Hash Nat).insert (samplePrimitives.addressOf ⟨5⟩) 4
  qualified := [sampleRewarded ⟨5⟩ [(⟨71⟩, 2)]]
  pool := 2 ^ 63

/-- The product of the own bonds wraps to zero: the producer gets nothing. -/
theorem wrapped_share_lost :
    sampleWrapped.calculateEpochRewards (.wrapping (2 ^ 64)) = some [(2 ^ 63, ⟨71⟩)] ∧
      ¬ (sampleWrapped.Exact [(2 ^ 63, ⟨71⟩)] ∧
        sampleWrapped.calculateEpochRewards (.checked (2 ^ 64)) = some [(2 ^ 63, ⟨71⟩)]) := by
  refine ⟨by decide +kernel, ?_⟩
  rintro ⟨-, hchecked⟩
  revert hchecked
  decide +kernel

end EpochDistribution

end Doli.Node
