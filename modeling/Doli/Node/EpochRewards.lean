import Doli.Lib.Overflow
import Doli.Lib.Run
import Doli.Lib.Worth
import Doli.Producer.Set

/-!
# The rewards of an epoch

`calculate_epoch_rewards` once the producers of the epoch are qualified: the pool is split
by the weights of the epoch's snapshot, a share with delegations is split again, and what
the divisions leave goes to the first output.  The intermediate results are words of 64
bits, so the distribution is a function of the arithmetic it runs on.
-/

namespace Doli.Node

open Doli.Core Doli.Lib Doli.Producer

/-- `DELEGATE_REWARD_PCT` -/
def delegateRewardPct : Nat := 10

/-! ## The split of a share -/

/-- What a producer with delegations keeps, and what is left to its delegators. -/
structure RewardSplit where
  ownShare : Nat
  delegateFee : Nat
  stakerPool : Nat
  deriving DecidableEq, Repr

section

variable (arith : WordArith)

def splitReward (reward ownBonds totalBonds : Nat) : Option RewardSplit := do
  let product ← arith.mul reward ownBonds
  let ownShare ← WordArith.divide product totalBonds
  let delegatedShare ← arith.sub reward ownShare
  let scaled ← arith.mul delegatedShare delegateRewardPct
  let delegateFee ← WordArith.divide scaled 100
  let stakerPool ← arith.sub delegatedShare delegateFee
  return { ownShare, delegateFee, stakerPool }

/-- The last delegator gets the remainder. -/
def delegatorReward (stakerPool delegated stakerDistributed bondCount : Nat) (last : Bool) :
    Option Nat :=
  if last then arith.sub stakerPool stakerDistributed
  else (arith.mul stakerPool bondCount).bind fun product => WordArith.divide product delegated

/-- The rewards of the delegators in their order. -/
def delegatorRewards (stakerPool delegated : Nat) :
    Nat → List (Hash × Nat) → Option (List (Nat × Hash))
  | _, [] => some []
  | stakerDistributed, row :: rows => do
      let reward ← delegatorReward arith stakerPool delegated stakerDistributed row.2
        rows.isEmpty
      let stakerDistributed ← arith.add stakerDistributed reward
      let rewards ← delegatorRewards stakerPool delegated stakerDistributed rows
      return (reward, row.1) :: rewards

end

/-! ## The distribution -/

/-- What the distribution reads: the qualified producers in order, the weights of the
epoch, the producer set that resolves a delegator, and the pool. -/
structure EpochDistribution where
  prim : Primitives
  producers : ProducerSet
  bondSnapshot : Column Hash Nat
  qualified : List ProducerInfo
  pool : Nat

namespace EpochDistribution

variable (input : EpochDistribution)

def address (info : ProducerInfo) : Hash := input.prim.addressOf info.publicKey

def bondFor (info : ProducerInfo) : Nat :=
  (input.bondSnapshot.lookup (input.address info)).getD 1

/-- A delegator that left the set is paid at its key. -/
def delegatorAddress (delegator : Hash) : Hash :=
  (input.producers.producers.lookup delegator).elim delegator input.address

/-- Outputs of no value are left out. -/
def delegatorOutputs (rewards : List (Nat × Hash)) : List (Nat × Hash) :=
  (rewards.filter fun row => 0 < row.1).map fun row => (row.1, input.delegatorAddress row.2)

/-- The bonds of a share that are the producer's own. -/
def ownBonds (info : ProducerInfo) (delegated : Nat) : Nat :=
  max (max (input.bondFor info) 1 - delegated) 1

section

variable (arith : WordArith)

def producerOutputs (info : ProducerInfo) (reward : Nat) : Option (List (Nat × Hash)) :=
  if info.receivedDelegations = [] then some [(reward, input.address info)]
  else do
    let delegated ← arith.sum (info.receivedDelegations.map Prod.snd) 0
    let split ← splitReward arith reward (input.ownBonds info delegated)
      (max (input.bondFor info) 1)
    let rewards ← delegatorRewards arith split.stakerPool delegated 0 info.receivedDelegations
    let producerTotal ← arith.add split.ownShare split.delegateFee
    return input.delegatorOutputs rewards ++
      if 0 < producerTotal then [(producerTotal, input.address info)] else []

/-- The outputs so far, and what they distribute. -/
structure Progress where
  outputs : List (Nat × Hash)
  distributed : Nat

/-- The product takes 128 bits, and its quotient is cut to 64. -/
def rewardOf (qualifyingBonds : Nat) (info : ProducerInfo) : Nat :=
  input.pool * input.bondFor info / qualifyingBonds % 2 ^ 64

def payProducer (qualifyingBonds : Nat) (progress : Progress) (info : ProducerInfo) :
    Option Progress :=
  let reward := input.rewardOf qualifyingBonds info
  if reward = 0 then some progress
  else do
    let outputs ← input.producerOutputs arith info reward
    let distributed ← arith.add progress.distributed reward
    return { outputs := progress.outputs ++ outputs, distributed := distributed }

/-- What the divisions left goes to the first output. -/
def payRemainder (progress : Progress) : Option (List (Nat × Hash)) :=
  match progress.outputs with
  | [] => some []
  | (amount, key) :: outputs =>
      if input.pool - progress.distributed = 0 then some ((amount, key) :: outputs)
      else do
        let amount ← arith.add amount (input.pool - progress.distributed)
        return (amount, key) :: outputs

/-- `calculate_epoch_rewards`, from the qualified producers on. -/
def calculateEpochRewards : Option (List (Nat × Hash)) := do
  let qualifyingBonds ← arith.sum (input.qualified.map input.bondFor) 0
  if qualifyingBonds = 0 then some []
  else do
    let progress ← input.qualified.foldlM (input.payProducer arith qualifyingBonds) ⟨[], 0⟩
    input.payRemainder arith progress

end

end EpochDistribution

/-! ## What every sound arithmetic keeps -/

section

variable {limit : Nat} {arith : WordArith}

theorem splitReward_total (hsound : arith.Sound limit) {reward ownBonds totalBonds : Nat}
    {split : RewardSplit} (hown : ownBonds ≤ totalBonds) (hfits : reward < limit)
    (hsplit : splitReward arith reward ownBonds totalBonds = some split) :
    split.ownShare + split.delegateFee + split.stakerPool = reward := by
  simp only [splitReward, Option.bind_eq_bind, Option.bind_eq_some_iff,
    WordArith.divide_eq_some] at hsplit
  obtain ⟨product, hproduct, ownShare, ⟨-, hownShare⟩, delegatedShare, hdelegated, scaled,
    hscaled, delegateFee, ⟨-, hfee⟩, stakerPool, hstaker, hsplit⟩ := hsplit
  obtain rfl := Option.some.inj hsplit
  have hproductLe : product ≤ reward * ownBonds := hsound.fit_le hproduct
  have hscaledLe : scaled ≤ delegatedShare * delegateRewardPct := hsound.fit_le hscaled
  have hownLe : ownShare ≤ reward := by
    rw [hownShare]
    apply Nat.div_le_of_le_mul
    calc product ≤ reward * ownBonds := hproductLe
      _ ≤ reward * totalBonds := Nat.mul_le_mul_left _ hown
      _ = totalBonds * reward := Nat.mul_comm _ _
  rw [hsound.sub_exact hownLe hfits, Option.some.injEq] at hdelegated
  have hfeeLe : delegateFee ≤ delegatedShare := by
    unfold delegateRewardPct at hscaledLe
    omega
  rw [hsound.sub_exact hfeeLe (by omega), Option.some.injEq] at hstaker
  dsimp only
  omega

theorem room_after_reward {stakerPool delegated stakerDistributed reward weight remaining : Nat}
    (hpositive : delegated ≠ 0) (hscaled : reward * delegated ≤ stakerPool * weight)
    (hroom : stakerDistributed * delegated + stakerPool * (weight + remaining) ≤
      stakerPool * delegated) :
    stakerDistributed + reward ≤ stakerPool ∧
      (stakerDistributed + reward) * delegated + stakerPool * remaining ≤
        stakerPool * delegated := by
  rw [Nat.mul_add] at hroom
  have hnext : (stakerDistributed + reward) * delegated + stakerPool * remaining ≤
      stakerPool * delegated := by
    rw [Nat.add_mul]
    omega
  exact ⟨Nat.le_of_mul_le_mul_right (Nat.le_of_add_right_le hnext)
    (Nat.pos_of_ne_zero hpositive), hnext⟩

theorem delegatorRewards_total (hsound : arith.Sound limit) {stakerPool delegated : Nat}
    (hpool : stakerPool < limit) {stakerDistributed : Nat} {rows : List (Hash × Nat)}
    {rewards : List (Nat × Hash)} (hdistributed : stakerDistributed ≤ stakerPool)
    (hroom : stakerDistributed * delegated + stakerPool * total Prod.snd rows ≤
      stakerPool * delegated)
    (hrows : rows ≠ [])
    (hrewards : delegatorRewards arith stakerPool delegated stakerDistributed rows =
      some rewards) :
    stakerDistributed + total Prod.fst rewards = stakerPool := by
  induction rows generalizing stakerDistributed rewards with
  | nil => exact absurd rfl hrows
  | cons row rows ih =>
      simp only [delegatorRewards, Option.bind_eq_bind, Option.bind_eq_some_iff] at hrewards
      obtain ⟨reward, hreward, next, hnext, rest, hrest, heq⟩ := hrewards
      obtain rfl := Option.some.inj heq
      rw [total_cons]
      cases rows with
      | nil =>
          obtain rfl := Option.some.inj hrest
          simp only [delegatorReward, List.isEmpty_nil, if_true,
            hsound.sub_exact hdistributed hpool, Option.some.injEq] at hreward
          rw [total_nil]
          omega
      | cons second rows =>
          simp only [delegatorReward, List.isEmpty_cons, Bool.false_eq_true, if_false,
            Option.bind_eq_some_iff, WordArith.divide_eq_some] at hreward
          obtain ⟨product, hproduct, hpos, hquotient⟩ := hreward
          have hproductLe : product ≤ stakerPool * row.2 := hsound.fit_le hproduct
          have hscaled : reward * delegated ≤ stakerPool * row.2 := by
            rw [hquotient]
            exact (Nat.div_mul_le_self _ _).trans hproductLe
          obtain ⟨hnextLe, hroomNext⟩ := room_after_reward hpos hscaled hroom
          rw [hsound.add_exact (by omega), Option.some.injEq] at hnext
          rw [← hnext] at hrest
          have htotal := ih hnextLe hroomNext (List.cons_ne_nil _ _) hrest
          omega

theorem delegatorRewards_keys {stakerPool delegated stakerDistributed : Nat}
    {rows : List (Hash × Nat)} {rewards : List (Nat × Hash)}
    (hrewards : delegatorRewards arith stakerPool delegated stakerDistributed rows =
      some rewards) :
    rewards.map Prod.snd = rows.map Prod.fst := by
  induction rows generalizing stakerDistributed rewards with
  | nil =>
      obtain rfl := Option.some.inj hrewards
      rfl
  | cons row rows ih =>
      simp only [delegatorRewards, Option.bind_eq_bind, Option.bind_eq_some_iff] at hrewards
      obtain ⟨reward, -, next, -, rest, hrest, heq⟩ := hrewards
      obtain rfl := Option.some.inj heq
      rw [List.map_cons, List.map_cons, ih hrest]

end

namespace EpochDistribution

section

variable {limit : Nat} {arith : WordArith} (input : EpochDistribution)

/-! ## What is asked of a distribution -/

def totalWeight : Nat := total input.bondFor input.qualified

/-- The share of a producer, of exact arithmetic. -/
def share (info : ProducerInfo) : Nat :=
  input.pool * input.bondFor info / input.totalWeight

/-- The producer and its delegators. -/
def recipients (info : ProducerInfo) : List Hash :=
  input.address info :: (info.receivedDelegations.map Prod.fst).map input.delegatorAddress

/-- The outputs of a producer's group. -/
structure Group (info : ProducerInfo) (rows : List (Nat × Hash)) : Prop where
  amount : total Prod.fst rows = input.share info
  paid : ∀ row ∈ rows, row.2 ∈ input.recipients info

def withRemainder (remainder : Nat) : List (Nat × Hash) → List (Nat × Hash)
  | [] => []
  | (amount, key) :: rows => (amount + remainder, key) :: rows

/-- The outputs add up to the pool, and every group gets its share; the first output also
takes what the divisions left. -/
structure Exact (outputs : List (Nat × Hash)) : Prop where
  total : total Prod.fst outputs = input.pool
  groups : ∃ groups, List.Forall₂ input.Group input.qualified groups ∧
    outputs = withRemainder (input.pool - Lib.total input.share input.qualified) groups.flatten

/-- The words that hold the weights and the delegations of the epoch. -/
structure Weighted : Prop where
  weights : input.totalWeight < 2 ^ 64
  delegations : ∀ info ∈ input.qualified, input.share info ≠ 0 → info.receivedTotal < 2 ^ 64

end

section

variable {limit : Nat} {arith : WordArith} {input : EpochDistribution}

theorem total_delegatorOutputs (rewards : List (Nat × Hash)) :
    total Prod.fst (input.delegatorOutputs rewards) = total Prod.fst rewards := by
  unfold delegatorOutputs
  induction rewards with
  | nil => rfl
  | cons row rewards ih =>
      rw [List.filter_cons, total_cons]
      split
      case isTrue => rw [List.map_cons, total_cons, ih]
      case isFalse hzero =>
          rw [ih]
          simp only [decide_eq_true_eq] at hzero
          omega

theorem mem_delegatorOutputs {rewards : List (Nat × Hash)} {row : Nat × Hash}
    (hrow : row ∈ input.delegatorOutputs rewards) :
    row.2 ∈ (rewards.map Prod.snd).map input.delegatorAddress := by
  obtain ⟨reward, hreward, rfl⟩ := List.mem_map.mp hrow
  exact List.mem_map_of_mem (List.mem_map_of_mem (List.mem_of_mem_filter hreward))

theorem producerOutputs_spec (hsound : arith.Sound (2 ^ 64)) {info : ProducerInfo} {reward : Nat}
    {rows : List (Nat × Hash)} (hreward : reward < 2 ^ 64)
    (hdelegations : info.receivedTotal < 2 ^ 64)
    (hrows : input.producerOutputs arith info reward = some rows) :
    total Prod.fst rows = reward ∧ ∀ row ∈ rows, row.2 ∈ input.recipients info := by
  unfold producerOutputs at hrows
  split at hrows
  case isTrue =>
      obtain rfl := Option.some.inj hrows
      simp [recipients]
  case isFalse hsome =>
      simp only [Option.bind_eq_bind, Option.bind_eq_some_iff] at hrows
      obtain ⟨delegated, hdelegated, split, hsplit, rewards, hrewards, producerTotal, hproducer,
        heq⟩ := hrows
      obtain rfl := Option.some.inj heq
      have htotal : total Prod.snd info.receivedDelegations = info.receivedTotal := rfl
      rw [hsound.sum_exact (by rw [Nat.zero_add]; exact hdelegations), Option.some.injEq,
        Nat.zero_add] at hdelegated
      have hownLe : input.ownBonds info delegated ≤ max (input.bondFor info) 1 := by
        unfold ownBonds
        omega
      have hparts := splitReward_total hsound hownLe hreward hsplit
      have hstakers := delegatorRewards_total hsound (by omega) (Nat.zero_le _)
        (by rw [htotal, ← hdelegated]; simp [ProducerInfo.receivedTotal]) hsome hrewards
      rw [hsound.add_exact (by omega), Option.some.injEq] at hproducer
      constructor
      · rw [total_append, total_delegatorOutputs]
        split
        · rw [total_cons, total_nil]
          dsimp only
          omega
        · rw [total_nil]
          omega
      · intro row hrow
        rcases List.mem_append.mp hrow with hdelegator | hown
        · have hmem := mem_delegatorOutputs hdelegator
          rw [delegatorRewards_keys hrewards] at hmem
          exact List.mem_cons_of_mem _ hmem
        · split at hown
          · rw [List.mem_singleton.mp hown]
            exact List.mem_cons_self
          · cases hown

theorem bondFor_le_totalWeight {info : ProducerInfo} (hinfo : info ∈ input.qualified) :
    input.bondFor info ≤ input.totalWeight :=
  le_total_of_mem hinfo

theorem share_le_pool {info : ProducerInfo} (hinfo : info ∈ input.qualified) :
    input.share info ≤ input.pool := by
  apply Nat.div_le_of_le_mul
  rw [Nat.mul_comm]
  exact Nat.mul_le_mul_right _ (bondFor_le_totalWeight hinfo)

theorem rewardOf_eq_share (hpool : input.pool < 2 ^ 64) {info : ProducerInfo}
    (hinfo : info ∈ input.qualified) :
    input.rewardOf input.totalWeight info = input.share info :=
  Nat.mod_eq_of_lt ((share_le_pool hinfo).trans_lt hpool)

theorem total_share_le (done rest : List ProducerInfo) (hall : input.qualified = done ++ rest) :
    total input.share done ≤ input.pool := by
  have hle : total input.share input.qualified ≤ input.pool := by
    calc total input.share input.qualified
        ≤ total (fun info => input.pool * input.bondFor info) input.qualified /
            input.totalWeight := total_div_le _ _ _
      _ = input.pool * input.totalWeight / input.totalWeight := by rw [total_mul]; rfl
      _ ≤ input.pool := Nat.div_le_of_le_mul (Nat.le_of_eq (Nat.mul_comm _ _))
  rw [hall, total_append] at hle
  omega

/-- The groups of the producers paid so far. -/
structure Progress.Paid (input : EpochDistribution) (done : List ProducerInfo)
    (progress : Progress) : Prop where
  groups : ∃ groups, List.Forall₂ input.Group done groups ∧ progress.outputs = groups.flatten
  distributed : progress.distributed = total input.share done

theorem payProducer_paid (hsound : arith.Sound (2 ^ 64)) (hpool : input.pool < 2 ^ 64)
    (hdelegations : ∀ info ∈ input.qualified, input.share info ≠ 0 →
      info.receivedTotal < 2 ^ 64)
    {done rest : List ProducerInfo} {info : ProducerInfo} {progress next : Progress}
    (hall : input.qualified = done ++ info :: rest) (hpaid : progress.Paid input done)
    (hnext : input.payProducer arith input.totalWeight progress info = some next) :
    next.Paid input (done ++ [info]) := by
  have hinfo : info ∈ input.qualified := by simp [hall]
  obtain ⟨groups, hgroups, houtputs⟩ := hpaid.groups
  have htotal : total input.share (done ++ [info]) =
      progress.distributed + input.share info := by
    rw [total_append, total_cons, total_nil, hpaid.distributed, Nat.add_zero]
  unfold payProducer at hnext
  simp only [rewardOf_eq_share hpool hinfo] at hnext
  split at hnext
  case isTrue hzero =>
      obtain rfl := Option.some.inj hnext
      constructor
      · refine ⟨groups ++ [[]], ?_, ?_⟩
        · exact List.rel_append hgroups
            (.cons ⟨by rw [hzero]; rfl, by simp⟩ .nil)
        · rw [houtputs]
          simp
      · rw [htotal, hzero, Nat.add_zero]
  case isFalse hpos =>
      simp only [Option.bind_eq_bind, Option.bind_eq_some_iff] at hnext
      obtain ⟨rows, hrows, distributed, hdistributed, heq⟩ := hnext
      obtain rfl := Option.some.inj heq
      obtain ⟨hamount, hrecipients⟩ := producerOutputs_spec hsound
        ((share_le_pool hinfo).trans_lt hpool) (hdelegations info hinfo hpos) hrows
      have hle : total input.share (done ++ [info]) ≤ input.pool :=
        total_share_le _ rest (by rw [hall, List.append_assoc]; rfl)
      rw [hsound.add_exact (by omega), Option.some.injEq] at hdistributed
      constructor
      · refine ⟨groups ++ [rows], ?_, ?_⟩
        · exact List.rel_append hgroups (.cons ⟨hamount, hrecipients⟩ .nil)
        · rw [houtputs]
          simp
      · rw [htotal, ← hdistributed]

theorem payProducers_paid (hsound : arith.Sound (2 ^ 64)) (hpool : input.pool < 2 ^ 64)
    (hdelegations : ∀ info ∈ input.qualified, input.share info ≠ 0 →
      info.receivedTotal < 2 ^ 64) {progress : Progress}
    (hrun : input.qualified.foldlM (input.payProducer arith input.totalWeight) ⟨[], 0⟩ =
      some progress) : progress.Paid input input.qualified := by
  refine foldlM_invariant (Progress.Paid input) ⟨⟨[], .nil, rfl⟩, rfl⟩ ?_ hrun
  intro done info rest progress next hall hpaid hnext
  exact payProducer_paid hsound hpool hdelegations hall hpaid hnext

theorem total_groups {infos : List ProducerInfo} {groups : List (List (Nat × Hash))}
    (hgroups : List.Forall₂ input.Group infos groups) :
    total Prod.fst groups.flatten = total input.share infos := by
  induction hgroups with
  | nil => rfl
  | cons hgroup _ ih => rw [List.flatten_cons, total_append, total_cons, hgroup.amount, ih]

theorem payRemainder_eq (hsound : arith.Sound (2 ^ 64)) (hpool : input.pool < 2 ^ 64)
    {progress : Progress} (hpaid : progress.Paid input input.qualified) :
    input.payRemainder arith progress =
      some (withRemainder (input.pool - total input.share input.qualified) progress.outputs) := by
  obtain ⟨groups, hgroups, houtputs⟩ := hpaid.groups
  have hsum := total_groups hgroups
  rw [← houtputs] at hsum
  have hle : total input.share input.qualified ≤ input.pool :=
    total_share_le _ [] (by rw [List.append_nil])
  unfold payRemainder
  rw [hpaid.distributed]
  cases hrows : progress.outputs with
  | nil => rfl
  | cons row outputs =>
      obtain ⟨amount, key⟩ := row
      rw [hrows, total_cons] at hsum
      dsimp only at hsum ⊢
      split
      case isTrue hzero => rw [hzero]; rfl
      case isFalse => rw [hsound.add_exact (by omega)]; rfl

theorem calculateEpochRewards_eq (hsound : arith.Sound (2 ^ 64))
    (hweights : input.totalWeight < 2 ^ 64) :
    input.calculateEpochRewards arith =
      if input.totalWeight = 0 then some []
      else
        input.qualified.foldlM (input.payProducer arith input.totalWeight) ⟨[], 0⟩ >>=
          input.payRemainder arith := by
  unfold calculateEpochRewards
  rw [hsound.sum_exact (by rw [Nat.zero_add]; exact hweights), Nat.zero_add]
  rfl

theorem exact_of_weighted (hsound : arith.Sound (2 ^ 64)) (hpool : input.pool < 2 ^ 64)
    (hweighted : input.Weighted) {outputs : List (Nat × Hash)}
    (hreturns : input.calculateEpochRewards arith = some outputs) (hne : outputs ≠ []) :
    input.Exact outputs := by
  rw [calculateEpochRewards_eq hsound hweighted.weights] at hreturns
  split at hreturns
  case isTrue =>
      obtain rfl := Option.some.inj hreturns
      exact absurd rfl hne
  case isFalse =>
      obtain ⟨progress, hrun, hremainder⟩ := Option.bind_eq_some_iff.mp hreturns
      have hpaid := payProducers_paid hsound hpool hweighted.delegations hrun
      rw [payRemainder_eq hsound hpool hpaid, Option.some.injEq] at hremainder
      obtain ⟨groups, hgroups, houtputs⟩ := hpaid.groups
      have hsum := total_groups hgroups
      have hle : total input.share input.qualified ≤ input.pool :=
        total_share_le _ [] (by rw [List.append_nil])
      constructor
      · rw [← hremainder, houtputs]
        cases hflat : groups.flatten with
        | nil =>
            rw [houtputs, hflat] at hremainder
            exact absurd hremainder.symm hne
        | cons row rows =>
            rw [hflat, total_cons] at hsum
            rw [withRemainder, total_cons]
            dsimp only
            omega
      · exact ⟨groups, hgroups, by rw [← hremainder, houtputs]⟩

end

end EpochDistribution

end Doli.Node
