import Doli.Channels.Commitment

/-!
# The capacity of a channel is divided exactly

Without a `u64` that wraps, whatever is built pays out the capacity less the fee.  The
comparison with the capacity is made after the additions, so a sum that wraps to the
capacity passes it.
-/

namespace Doli.Channels

open Doli.Core Doli.Lib

/-- A transaction pays out the capacity: `localAmount` bears the fee, the counterparty none,
and every payment in flight has its output. -/
structure Conserves (localPubkeyHash remotePubkeyHash : Hash) (balance : ChannelBalance)
    (htlcs : List InFlightHtlc) (capacity fee : Nat) (tx : Transaction) : Prop where
  exact : (tx.outputs.map Output.amount).sum + fee = capacity
  affordable : fee ≤ balance.localAmount
  divided : Divides localPubkeyHash remotePubkeyHash balance htlcs
    (balance.localAmount - fee) tx.outputs

section

variable {arith : WordArith} {limit : Nat} {funding : Input} {balance : ChannelBalance}
  {actual capacity fee : Nat} {divide : Nat → Except ConditionError (List Output)}
  {tx : Transaction}

theorem spendFunding_eq_ok
    (hok : spendFunding arith funding balance actual capacity fee divide = some (.ok tx)) :
    actual = capacity ∧ fee ≤ balance.localAmount ∧ ∃ localAfterFee outputs,
      arith.sub balance.localAmount fee = some localAfterFee ∧
        divide localAfterFee = .ok outputs ∧ tx = newTransfer [funding] outputs := by
  unfold spendFunding at hok
  split at hok
  · cases hok
  case isFalse hmatch =>
    split at hok
    · cases hok
    case isFalse hpays =>
      obtain ⟨localAfterFee, hsub, hok⟩ := Option.map_eq_some_iff.mp hok
      refine ⟨not_not.mp hmatch, by omega, localAfterFee, ?_⟩
      split at hok
      · cases hok
      · cases hok
      case h_3 outputs _ hdivide =>
        cases hok
        exact ⟨outputs, hsub, hdivide, rfl⟩

theorem spendFunding_eq_exact (hsound : arith.Sound limit)
    (hfits : balance.localAmount < limit) :
    spendFunding arith funding balance actual capacity fee divide =
      spendFunding (.checked limit) funding balance actual capacity fee divide := by
  unfold spendFunding
  by_cases hpays : fee ≤ balance.localAmount
  · rw [hsound.sub_exact hpays hfits, (WordArith.checked_sound limit).sub_exact hpays hfits]
  · have hshort : 0 < fee ∧ balance.localAmount < fee := by omega
    rw [if_pos hshort, if_pos hshort]

theorem conserves_of_spendFunding {localPubkeyHash remotePubkeyHash : Hash}
    {htlcs : List InFlightHtlc}
    (hok : spendFunding (.checked limit) funding balance actual capacity fee divide =
      some (.ok tx))
    (hactual : actual = balance.localAmount + balance.remoteAmount +
      (htlcs.map (·.amount)).sum)
    (hdivide : ∀ localAfterFee outputs, divide localAfterFee = .ok outputs →
      Divides localPubkeyHash remotePubkeyHash balance htlcs localAfterFee outputs) :
    Conserves localPubkeyHash remotePubkeyHash balance htlcs capacity fee tx := by
  obtain ⟨hmatch, hpays, localAfterFee, outputs, hsub, houtputs, rfl⟩ :=
    spendFunding_eq_ok hok
  obtain ⟨-, rfl⟩ := WordArith.checked_sub.mp hsub
  have hdivided := hdivide _ _ houtputs
  have hsum := hdivided.sum
  refine ⟨?_, hpays, hdivided⟩
  change (outputs.map Output.amount).sum + fee = capacity
  omega

end

/-! ## Commitments -/

section

variable {arith : WordArith} {limit : Nat} {pair : CommitmentPair} {fundingTxHash : Hash}
  {fundingOutputIndex : Nat} {localPubkeyHash remotePubkeyHash : Hash}
  {disputeHeight capacity fee : Nat} {tx : Transaction}

/-- What the channel owes in all. -/
def CommitmentPair.owed (pair : CommitmentPair) : Nat :=
  pair.balance.localAmount + pair.balance.remoteAmount + (pair.htlcs.map (·.amount)).sum

theorem buildLocalCommitment_exact (hsound : arith.Sound limit) (hfits : pair.owed < limit) :
    pair.buildLocalCommitment arith fundingTxHash fundingOutputIndex localPubkeyHash
        remotePubkeyHash disputeHeight capacity fee =
      spendFunding (.checked limit) (newInput fundingTxHash fundingOutputIndex) pair.balance
        pair.owed capacity fee
        (pair.commitmentOutputs localPubkeyHash remotePubkeyHash disputeHeight) := by
  unfold CommitmentPair.owed at hfits ⊢
  have hhtlcs : arith.sum (pair.htlcs.map (·.amount)) 0 =
      some (pair.htlcs.map (·.amount)).sum := by
    rw [hsound.sum_exact (by omega), Nat.zero_add]
  have htotal : pair.balance.total arith =
      some (pair.balance.localAmount + pair.balance.remoteAmount) :=
    hsound.add_exact (by omega)
  unfold CommitmentPair.buildLocalCommitment
  rw [hhtlcs, htotal]
  simp only [bind, Option.bind_some]
  rw [hsound.add_exact hfits, Option.bind_some]
  exact spendFunding_eq_exact hsound (by omega)

theorem owed_lt_of_checked (hok : pair.buildLocalCommitment (.checked limit) fundingTxHash
      fundingOutputIndex localPubkeyHash remotePubkeyHash disputeHeight capacity fee =
        some (.ok tx)) : pair.owed < limit := by
  obtain ⟨htlcTotal, hhtlcs, hok⟩ := Option.bind_eq_some_iff.mp hok
  obtain ⟨total, htotal, hok⟩ := Option.bind_eq_some_iff.mp hok
  obtain ⟨actual, hactual, -⟩ := Option.bind_eq_some_iff.mp hok
  obtain ⟨hsmall, rfl⟩ := WordArith.checked_fit.mp htotal
  obtain ⟨hfits, rfl⟩ := WordArith.checked_fit.mp hactual
  obtain ⟨-, rfl⟩ := WordArith.checked_sum (by omega) hhtlcs
  unfold CommitmentPair.owed
  omega

theorem conserves_buildLocalCommitment (hsound : arith.Sound limit)
    (hfits : pair.owed < limit)
    (hok : pair.buildLocalCommitment arith fundingTxHash fundingOutputIndex localPubkeyHash
      remotePubkeyHash disputeHeight capacity fee = some (.ok tx)) :
    Conserves localPubkeyHash remotePubkeyHash pair.balance pair.htlcs capacity fee tx := by
  rw [buildLocalCommitment_exact hsound hfits] at hok
  apply conserves_of_spendFunding hok
  · rfl
  · intro localAfterFee outputs houtputs
    exact divides_commitmentOutputs houtputs

theorem exists_buildLocalCommitment (hsound : arith.Sound limit) (hcapacity : pair.owed = capacity)
    (hfits : capacity < limit) (hpays : fee ≤ pair.balance.localAmount)
    (hsome : fee < pair.balance.localAmount ∨ 0 < pair.balance.remoteAmount ∨
      pair.htlcs ≠ []) :
    ∃ tx, pair.buildLocalCommitment arith fundingTxHash fundingOutputIndex localPubkeyHash
      remotePubkeyHash disputeHeight capacity fee = some (.ok tx) := by
  obtain ⟨outputs, houtputs⟩ := exists_commitmentOutputs pair localPubkeyHash
    remotePubkeyHash disputeHeight (pair.balance.localAmount - fee)
  have hnonempty : outputs ≠ [] := by
    rintro rfl
    have hdivided := divides_commitmentOutputs houtputs
    have hsum := hdivided.sum
    rw [List.map_nil, List.sum_nil] at hsum
    have hpending := hdivided.pending_length
    rw [List.length_nil, Nat.le_zero, List.length_eq_zero_iff] at hpending
    rcases hsome with hours | htheirs | hhtlcs
    · omega
    · omega
    · exact hhtlcs hpending
  rw [buildLocalCommitment_exact hsound (hcapacity ▸ hfits)]
  have hmatch : ¬ pair.owed ≠ capacity := not_not.mpr hcapacity
  have hchecked : (WordArith.checked limit).sub pair.balance.localAmount fee =
      some (pair.balance.localAmount - fee) := WordArith.checked_sub.mpr ⟨hpays, rfl⟩
  unfold spendFunding
  rw [if_neg hmatch, if_neg (by omega), hchecked, Option.map_some, houtputs]
  cases outputs with
  | nil => exact absurd rfl hnonempty
  | cons output outputs => exact ⟨_, rfl⟩

end

/-! ## Cooperative closes -/

section

variable {arith : WordArith} {limit : Nat} {fundingTxHash : Hash} {fundingOutputIndex : Nat}
  {localPubkeyHash remotePubkeyHash : Hash} {balance : ChannelBalance} {capacity fee : Nat}
  {tx : Transaction}

theorem buildCooperativeClose_exact (hsound : arith.Sound limit)
    (hfits : balance.localAmount + balance.remoteAmount < limit) :
    buildCooperativeClose arith fundingTxHash fundingOutputIndex localPubkeyHash
        remotePubkeyHash balance capacity fee =
      spendFunding (.checked limit) (newInput fundingTxHash fundingOutputIndex) balance
        (balance.localAmount + balance.remoteAmount) capacity fee
        (closeOutputs localPubkeyHash remotePubkeyHash balance) := by
  have htotal : balance.total arith = some (balance.localAmount + balance.remoteAmount) :=
    hsound.add_exact hfits
  unfold buildCooperativeClose
  rw [htotal]
  simp only [bind, Option.bind_some]
  exact spendFunding_eq_exact hsound (by omega)

theorem total_lt_of_checked (hok : buildCooperativeClose (.checked limit) fundingTxHash
      fundingOutputIndex localPubkeyHash remotePubkeyHash balance capacity fee =
        some (.ok tx)) : balance.localAmount + balance.remoteAmount < limit := by
  obtain ⟨actual, hactual, -⟩ := Option.bind_eq_some_iff.mp hok
  exact (WordArith.checked_fit.mp hactual).1

theorem conserves_buildCooperativeClose (hsound : arith.Sound limit)
    (hfits : balance.localAmount + balance.remoteAmount < limit)
    (hok : buildCooperativeClose arith fundingTxHash fundingOutputIndex localPubkeyHash
      remotePubkeyHash balance capacity fee = some (.ok tx)) :
    Conserves localPubkeyHash remotePubkeyHash balance [] capacity fee tx := by
  rw [buildCooperativeClose_exact hsound hfits] at hok
  apply conserves_of_spendFunding hok
  · rfl
  · intro localAfterFee outputs houtputs
    exact divides_closeOutputs houtputs

end

/-- What is built conserves the capacity without a word that wraps exactly where the sum of
what the channel owes is a `u64`. -/
theorem capacity_conserved_iff (fundingTxHash : Hash) (fundingOutputIndex : Nat)
    (localPubkeyHash remotePubkeyHash : Hash) (pair : CommitmentPair)
    (balance : ChannelBalance) (disputeHeight capacity fee : Nat) (tx : Transaction) :
    (pair.buildLocalCommitment (.wrapping (2 ^ 64)) fundingTxHash fundingOutputIndex
        localPubkeyHash remotePubkeyHash disputeHeight capacity fee = some (.ok tx) →
      (pair.buildLocalCommitment (.checked (2 ^ 64)) fundingTxHash fundingOutputIndex
          localPubkeyHash remotePubkeyHash disputeHeight capacity fee = some (.ok tx) ∧
        Conserves localPubkeyHash remotePubkeyHash pair.balance pair.htlcs capacity fee tx ↔
        pair.balance.localAmount + pair.balance.remoteAmount +
          (pair.htlcs.map (·.amount)).sum < 2 ^ 64)) ∧
    (buildCooperativeClose (.wrapping (2 ^ 64)) fundingTxHash fundingOutputIndex
        localPubkeyHash remotePubkeyHash balance capacity fee = some (.ok tx) →
      (buildCooperativeClose (.checked (2 ^ 64)) fundingTxHash fundingOutputIndex
          localPubkeyHash remotePubkeyHash balance capacity fee = some (.ok tx) ∧
        Conserves localPubkeyHash remotePubkeyHash balance [] capacity fee tx ↔
        balance.localAmount + balance.remoteAmount < 2 ^ 64)) := by
  have hwrapping := WordArith.wrapping_sound (2 ^ 64)
  have hchecked := WordArith.checked_sound (2 ^ 64)
  constructor
  · intro hok
    constructor
    · exact fun hexact => owed_lt_of_checked hexact.1
    · intro hfits
      refine ⟨?_, conserves_buildLocalCommitment hwrapping hfits hok⟩
      rwa [buildLocalCommitment_exact hchecked hfits,
        ← buildLocalCommitment_exact hwrapping hfits]
  · intro hok
    constructor
    · exact fun hexact => total_lt_of_checked hexact.1
    · intro hfits
      refine ⟨?_, conserves_buildCooperativeClose hwrapping hfits hok⟩
      rwa [buildCooperativeClose_exact hchecked hfits,
        ← buildCooperativeClose_exact hwrapping hfits]

/-- A channel of 1000 units with a payment in flight in either direction. -/
def samplePair : CommitmentPair where
  number := 0
  balance := ⟨350, 500⟩
  revocationPreimage := []
  revocationHash := ⟨1⟩
  remoteRevocationHash := none
  htlcs := [⟨⟨11⟩, 100, 5000, .outgoing⟩, ⟨⟨22⟩, 50, 6000, .incoming⟩]

def builtTransaction : Option (Except ChannelError Transaction) → Transaction
  | some (.ok tx) => tx
  | _ => newTransfer [] []

def sampleCommitment : Transaction :=
  builtTransaction (samplePair.buildLocalCommitment (.wrapping (2 ^ 64)) ⟨7⟩ 0 ⟨2⟩ ⟨3⟩ 1144
    1000 10)

def sampleClose : Transaction :=
  builtTransaction (buildCooperativeClose (.wrapping (2 ^ 64)) ⟨7⟩ 0 ⟨2⟩ ⟨3⟩ ⟨700, 300⟩
    1000 10)

theorem capacity_conserved_iff_sample :
    Conserves ⟨2⟩ ⟨3⟩ samplePair.balance samplePair.htlcs 1000 10 sampleCommitment ∧
      Conserves ⟨2⟩ ⟨3⟩ ⟨700, 300⟩ [] 1000 10 sampleClose := by
  constructor
  · have hiff := (capacity_conserved_iff ⟨7⟩ 0 ⟨2⟩ ⟨3⟩ samplePair ⟨700, 300⟩ 1144 1000 10
      sampleCommitment).1 (by decide +kernel)
    exact (hiff.mpr (by decide)).2
  · have hiff := (capacity_conserved_iff ⟨7⟩ 0 ⟨2⟩ ⟨3⟩ samplePair ⟨700, 300⟩ 1144 1000 10
      sampleClose).2 (by decide +kernel)
    exact (hiff.mpr (by decide)).2

def paidOut (built : Option (Except ChannelError Transaction)) : Option Nat :=
  (built.bind Except.toOption).map fun tx => (tx.outputs.map Output.amount).sum

/-- A channel of 1000 units whose balances wrap to its capacity. -/
def overfullBalance : ChannelBalance := ⟨2 ^ 64 - 1, 1001⟩

def overfullPair (htlcs : List InFlightHtlc) : CommitmentPair :=
  ⟨0, overfullBalance, [], ⟨1⟩, none, htlcs⟩

/-- Both builders pay out 2^64 units more than the channel holds. -/
theorem overfull_paid_out :
    paidOut ((overfullPair []).buildLocalCommitment (.wrapping (2 ^ 64)) ⟨7⟩ 0 ⟨2⟩ ⟨3⟩ 1144
        1000 0) = some (2 ^ 64 + 1000) ∧
      paidOut (buildCooperativeClose (.wrapping (2 ^ 64)) ⟨7⟩ 0 ⟨2⟩ ⟨3⟩ overfullBalance
        1000 0) = some (2 ^ 64 + 1000) ∧ 2 ^ 64 + 1000 + 0 ≠ 1000 := by
  decide +kernel

end Doli.Channels
