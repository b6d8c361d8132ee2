import Doli.Node.ProducerRebuild
import Doli.Node.WithdrawalEconomics
import Doli.Producer.BondLedger

/-!
# Stake is counted once

The runs of the block path over the producer set: admitted blocks, unbonding
scans and flushes.  A run whose flushed withdrawals spare the delegations they
meet keeps the set well delegated, so that no bond weighs twice.
-/

namespace Doli.Node

open Doli.Core Doli.Lib Doli.Storage Doli.Producer Doli.Producer.ProducerSet

/-- One thing the block path does to the set; a block is judged against the
store it meets. -/
inductive StakeStep where
  | block (height slot : Nat) (mode : ValidationMode) (db : StateDb)
      (txs : List Transaction)
  | unbonding (height : Nat)
  | flush (cap : Nat)

def stakeStep (utxo : UtxoContext) (set : ProducerSet) :
    StakeStep → Except EconError ProducerSet
  | .block height slot mode db txs =>
      let ctx : BlockContext := ⟨utxo, height, slot, mode⟩
      match checkWithdrawalEconomics ctx db set txs with
      | .error error => .error error
      | .ok () => .ok (processProducerEffects ctx txs (.initial set)).producers
  | .unbonding height =>
      .ok (set.processUnbonding utxo.prim height Producer.unbondingPeriod)
  | .flush cap => .ok (set.applyPendingUpdatesWithCap utxo.prim cap)

/-- A flush takes no withdrawal out of bonds that stay delegated. -/
def StakeStep.Spares (prim : Primitives) (set : ProducerSet) : StakeStep → Prop
  | .flush cap => set.QueueSpares prim cap
  | _ => True

/-- No producer delegates more than it holds, and the selection weights add up
to the bonds of the active producers. -/
structure CountedOnce (set : ProducerSet) : Prop where
  bounded : ∀ key info, set.producers.lookup key = some info →
    info.delegatedBonds ≤ info.bondCount
  weights : ∀ height auditActivation, auditActivation ≤ height →
    set.total (·.selectionWeightAt height auditActivation) = set.total activeBonds

theorem CountedOnce.of_wellDelegated {prim : Primitives} {set : ProducerSet}
    (hwell : set.WellDelegated prim) : CountedOnce set where
  bounded key info hinfo := (hwell.settles key info hinfo).1
  weights _ _ haudit := hwell.total_weight haudit

/-- What the runs keep: the delegations in order, and nothing but fresh
registrations in the queue. -/
structure InOrder (prim : Primitives) (set : ProducerSet) : Prop where
  well : set.WellDelegated prim
  fresh : ∀ update ∈ set.pendingUpdates, FreshUpdate update

section Steps

variable {prim : Primitives} {set : ProducerSet}

theorem InOrder.queueUpdate (horder : InOrder prim set)
    {update : PendingProducerUpdate} (hfresh : FreshUpdate update) :
    InOrder prim (set.queueUpdate update) where
  well := horder.well.of_producers rfl
  fresh other hother := by
    rcases List.mem_append.mp hother with hqueued | hnew
    · exact horder.fresh other hqueued
    · exact List.mem_singleton.mp hnew ▸ hfresh

theorem InOrder.chargeWithdrawal (horder : InOrder prim set) (hash : Hash)
    (bonds : Nat) : InOrder prim (chargeWithdrawal set hash bonds) where
  well := wellDelegated_iff.mpr ((wellDelegated_iff.mp horder.well).modify
    (fun _ => ⟨rfl, rfl, rfl⟩) fun _ _ hheld => hheld)
  fresh := by simpa [Node.chargeWithdrawal] using horder.fresh

theorem InOrder.processProducerEffects (horder : InOrder prim set)
    (ctx : BlockContext) (txs : List Transaction) :
    InOrder prim (processProducerEffects ctx txs (.initial set)).producers :=
  processProducerEffects_keeps (fun state => InOrder prim state.producers) ctx txs
    (fun _ _ hqueued _ hset => hset.queueUpdate hqueued.fresh)
    (fun _ _ _ bonds _ _ hset => hset.chargeWithdrawal _ bonds)
    (fun _ _ hset => hset) horder

theorem InOrder.processUnbonding (horder : InOrder prim set) (height duration : Nat) :
    InOrder prim (set.processUnbonding prim height duration) where
  well := horder.well.processUnbonding height duration
  fresh := by simpa using horder.fresh

theorem InOrder.flush (horder : InOrder prim set) {cap : Nat}
    (hspares : set.QueueSpares prim cap) :
    InOrder prim (set.applyPendingUpdatesWithCap prim cap) where
  well := horder.well.flush horder.fresh hspares
  fresh := by simp

theorem InOrder.stakeStep {utxo : UtxoContext} {step : StakeStep}
    {next : ProducerSet} (horder : InOrder utxo.prim set)
    (hspares : step.Spares utxo.prim set)
    (hnext : stakeStep utxo set step = .ok next) : InOrder utxo.prim next := by
  cases step with
  | block height slot mode db txs =>
      simp only [Node.stakeStep] at hnext
      split at hnext
      · contradiction
      · obtain rfl := Except.ok.inj hnext
        exact horder.processProducerEffects _ txs
  | unbonding height =>
      obtain rfl := Except.ok.inj hnext
      exact horder.processUnbonding height _
  | flush cap =>
      obtain rfl := Except.ok.inj hnext
      exact horder.flush hspares

end Steps

theorem InOrder.registerGenesis (utxo : UtxoContext) {genesis : List ProducerInfo}
    (hgenesis : ∀ info ∈ genesis, Undelegated info) :
    InOrder utxo.prim (registerGenesis utxo genesis .new) := by
  refine foldl_invariant (fun _ set => InOrder utxo.prim set) ⟨?_, ?_⟩ ?_
  · exact ⟨⟨fun key info hinfo => by simp [ProducerSet.new] at hinfo,
      fun key info hinfo => by simp [ProducerSet.new] at hinfo,
      fun source target haim => by simp [pledges, ProducerSet.new] at haim⟩,
      fun key info hinfo => by simp [ProducerSet.new] at hinfo⟩
  · simp [ProducerSet.new]
  · intro done info rest set hgen hset
    have hinfo : Undelegated info := hgenesis info (by simp [hgen])
    have hqueue := applyUpdate_pendingUpdates utxo.prim 0 set
      (.register info (utxo.params.genesisBlocks + 1))
    exact ⟨hset.well.register hinfo _, by
      rw [show ((set.register utxo.prim info (utxo.params.genesisBlocks + 1)).toOption.getD
        set).pendingUpdates = set.pendingUpdates from hqueue]; exact hset.fresh⟩

/-- In every run from a genesis set whose steps spare the delegations, stake is
counted once in the set it reaches. -/
theorem run_countedOnce {utxo : UtxoContext} {genesis : List ProducerInfo}
    {steps : List StakeStep} {final : ProducerSet}
    (hgenesis : ∀ info ∈ genesis, Undelegated info)
    (hspares : ∀ done step rest reached, steps = done ++ step :: rest →
      run (stakeStep utxo) done (registerGenesis utxo genesis .new) = .ok reached →
        step.Spares utxo.prim reached)
    (hrun : run (stakeStep utxo) steps (registerGenesis utxo genesis .new) =
      .ok final) : CountedOnce final := by
  have hkept := run_invariant
    (fun done set => run (stakeStep utxo) done (registerGenesis utxo genesis .new) =
      .ok set ∧ InOrder utxo.prim set)
    ⟨rfl, .registerGenesis utxo hgenesis⟩ ?_ hrun
  · exact .of_wellDelegated hkept.2.well
  · rintro done step rest current next hsteps ⟨hreached, horder⟩ hnext
    refine ⟨run_append_ok.mpr ⟨current, hreached, ?_⟩,
      horder.stakeStep (hspares done step rest current hsteps hreached) hnext⟩
    exact run_cons_ok.mpr ⟨next, hnext, rfl⟩

/-! ## Every record is a run of its bond ledger -/

section Grown

variable {set : ProducerSet}

theorem registeredInfo_grown {utxo : UtxoContext} {height : Nat} {tx : Transaction}
    {data : RegistrationData} {info : ProducerInfo}
    (hinfo : registeredInfo utxo height tx data = some info) : Grown info := by
  unfold registeredInfo at hinfo
  split at hinfo
  · contradiction
  case h_2 row rows _ =>
    obtain rfl := Option.some.inj hinfo
    exact (Grown.build (.newWithBonds data.publicKey height
      (((row :: rows).map fun row => row.1.amount).sum % 2 ^ 64)
      (.ofOutput (utxo.prim.txHash tx) row.2) (utxo.params.heightToEra height)
      data.bondCount)).of_stake rfl

theorem chargePending_grown {info : ProducerInfo} {bonds : Nat} (hgrown : Grown info)
    (hcharged : ChargedBy info bonds) : Grown (info.chargePending bonds) := by
  rcases hcharged with ⟨hbonds, rfl⟩ | ⟨inFlight, hgranted⟩
  · have hexit := hgrown.bondStep .requestExit
    rwa [bondStep, ProducerInfo.requestExit, if_pos hbonds] at hexit
  · have hrequest := hgrown.bondStep (.requestWithdrawal bonds inFlight)
    rwa [bondStep, ProducerInfo.requestWithdrawal, if_pos hgranted] at hrequest

theorem allGrown_processProducerEffects (hgrown : set.AllGrown) (ctx : BlockContext)
    (txs : List Transaction) :
    (processProducerEffects ctx txs (.initial set)).producers.AllGrown := by
  refine processProducerEffects_keeps (fun state => state.producers.AllGrown) ctx txs
    ?_ ?_ (fun _ _ hset => hset) hgrown
  · intro state update _ hbuilt hset
    refine hset.queueUpdate fun info height hupdate => ?_
    obtain ⟨tx, data, hinfo⟩ := hbuilt info height hupdate
    exact registeredInfo_grown hinfo
  · intro state key info bonds hinfo hcharged hset
    refine hset.modify fun found hfound hheld => ?_
    obtain rfl : info = found := Option.some.inj (hinfo.symm.trans hfound)
    exact chargePending_grown hheld hcharged

theorem allGrown_stakeStep {utxo : UtxoContext} {step : StakeStep} {next : ProducerSet}
    (hgrown : set.AllGrown) (hnext : stakeStep utxo set step = .ok next) : next.AllGrown := by
  cases step with
  | block height slot mode db txs =>
      simp only [Node.stakeStep] at hnext
      split at hnext
      · contradiction
      · obtain rfl := Except.ok.inj hnext
        exact allGrown_processProducerEffects hgrown _ txs
  | unbonding height =>
      obtain rfl := Except.ok.inj hnext
      exact hgrown.processUnbonding height _
  | flush cap =>
      obtain rfl := Except.ok.inj hnext
      exact hgrown.flush cap

theorem allGrown_registerGenesis (utxo : UtxoContext) {genesis : List ProducerInfo}
    (hgenesis : ∀ info ∈ genesis, Grown info) : (registerGenesis utxo genesis .new).AllGrown := by
  refine foldl_invariant (fun _ (set : ProducerSet) => set.AllGrown) ⟨?_, ?_⟩ ?_
  · intro key info hinfo
    simp [ProducerSet.new] at hinfo
  · intro info height hnone
    simp [ProducerSet.new] at hnone
  · intro done info rest set hgen hset
    exact hset.register (hgenesis info (by simp [hgen])) _

end Grown

theorem run_counted {utxo : UtxoContext} {genesis : List ProducerInfo}
    {steps : List StakeStep} {final : ProducerSet} (hgenesis : ∀ info ∈ genesis, Grown info)
    (hrun : run (stakeStep utxo) steps (registerGenesis utxo genesis .new) = .ok final) :
    ∀ key info, final.producers.lookup key = some info → Counted info := by
  have hgrown := run_invariant (fun _ (set : ProducerSet) => set.AllGrown)
    (allGrown_registerGenesis utxo hgenesis)
    (fun _ _ _ _ _ _ hset hnext => allGrown_stakeStep hset hnext) hrun
  exact fun key info hinfo => (hgrown.records key info hinfo).counted

/-! ## A withdrawal of delegated bonds -/

def sampleProducer (key : PublicKey) (bonds : Nat) : ProducerInfo :=
  .newWithBonds key 1 (bonds * sampleParams.bondUnit) ⟨⟨900⟩, 0⟩ 0 bonds

/-- A bond unit for each index, owned by the producer. -/
def sampleBondDb (key : PublicKey) (bonds : Nat) : StateDb :=
  sampleDb ((List.range bonds).map fun index =>
    (⟨⟨900⟩, index⟩, sampleEntry (sampleBond key)))

def sampleDelegation (delegator delegate : PublicKey) (bonds : Nat) :
    Transaction where
  version := 1
  txType := .delegateBond
  inputs := []
  outputs := []
  extraData := delegator.asBytes ++ delegate.asBytes ++ leBytes 4 bonds ++
    leBytes 64 1

/-- Spends the first `spent` bonds and declares `declared`. -/
def sampleWithdrawal (key : PublicKey) (declared spent : Nat) : Transaction where
  version := 1
  txType := .requestWithdrawal
  inputs := (List.range spent).map fun index => sampleInput ⟨⟨900⟩, index⟩
  outputs := [
    { outputType := .unbonding
      amount := spent * sampleParams.bondUnit
      pubkeyHash := samplePrimitives.addressOf key
      lockUntil := 2 ^ 63
      extraData := [] }]
  extraData := key.asBytes ++ leBytes 4 declared ++ leBytes 32 1

/-- Four of five bonds are delegated, and `withdrawn` of the five leave. -/
def delegateAndWithdraw (withdrawn : Nat) : List StakeStep :=
  [.block 11 11 .full (sampleBondDb sampleKey 5)
      [sampleDelegation sampleKey ⟨78⟩ 4],
    .flush 0,
    .block 21 21 .full (sampleBondDb sampleKey 5)
      [sampleWithdrawal sampleKey withdrawn withdrawn],
    .flush 0]

def sampleGenesis : List ProducerInfo :=
  [sampleProducer sampleKey 5, sampleProducer ⟨78⟩ 1]

def reachedBy (steps : List StakeStep) : Except EconError ProducerSet :=
  run (stakeStep sampleUtxoContext) steps
    (registerGenesis sampleUtxoContext sampleGenesis .new)

def leavesWithdrawals : PendingProducerUpdate → Bool
  | .requestWithdrawal _ _ _ => false
  | _ => true

theorem queueSpares_of_all {prim : Primitives} {cap : Nat} {set : ProducerSet}
    (hall : set.pendingUpdates.all leavesWithdrawals = true) :
    set.QueueSpares prim cap := by
  intro done update rest hqueue
  have hupdate := List.all_eq_true.mp hall update (by simp [hqueue])
  cases update with
  | requestWithdrawal pubkey bondCount bondUnit => contradiction
  | _ => trivial

theorem run_countedOnce_delegation :
    ∃ final, reachedBy ((delegateAndWithdraw 3).take 2) = .ok final ∧
      CountedOnce final := by
  have hsome : (reachedBy ((delegateAndWithdraw 3).take 2)).toOption.isSome = true := by
    decide +kernel
  cases hrun : reachedBy ((delegateAndWithdraw 3).take 2) with
  | error error => simp [hrun, Except.toOption] at hsome
  | ok final =>
      refine ⟨final, rfl, run_countedOnce ?_ ?_ hrun⟩
      · intro info hinfo
        rcases List.mem_cons.mp hinfo with rfl | hinfo
        · exact ⟨rfl, rfl, rfl⟩
        · obtain rfl := List.mem_singleton.mp hinfo
          exact ⟨rfl, rfl, rfl⟩
      · intro done step rest reached hsteps hreached
        rcases done with _ | ⟨first, _ | ⟨second, done⟩⟩
        · obtain ⟨rfl, -⟩ := List.cons.inj hsteps
          trivial
        · obtain ⟨hfirst, hsteps⟩ := List.cons.inj hsteps
          obtain ⟨rfl, -⟩ := List.cons.inj hsteps
          refine queueSpares_of_all ?_
          have hqueue : (reachedBy ((delegateAndWithdraw 3).take 1)).toOption.all
              (fun set => set.pendingUpdates.all leavesWithdrawals) = true := by
            decide +kernel
          rw [← hfirst] at hreached
          rw [show reachedBy ((delegateAndWithdraw 3).take 1) = .ok reached from
            hreached] at hqueue
          exact hqueue
        · simp [delegateAndWithdraw] at hsteps

theorem run_counted_delegation :
    ∃ final, reachedBy (delegateAndWithdraw 3) = .ok final ∧
      ∀ key info, final.producers.lookup key = some info → Counted info := by
  have hsome : (reachedBy (delegateAndWithdraw 3)).toOption.isSome = true := by decide +kernel
  cases hrun : reachedBy (delegateAndWithdraw 3) with
  | error error => simp [hrun, Except.toOption] at hsome
  | ok final =>
      refine ⟨final, rfl, run_counted ?_ hrun⟩
      intro info hinfo
      rcases List.mem_cons.mp hinfo with rfl | hinfo
      · exact Grown.build (.newWithBonds sampleKey 1 _ ⟨⟨900⟩, 0⟩ 0 5)
      · obtain rfl := List.mem_singleton.mp hinfo
        exact Grown.build (.newWithBonds ⟨78⟩ 1 _ ⟨⟨900⟩, 0⟩ 0 1)

/-- The gate admits the withdrawal of three bonds beside four delegated ones; at
the flush two bonds back a delegation of four. -/
theorem withdrawal_counts_twice :
    ∃ final, reachedBy (delegateAndWithdraw 3) = .ok final ∧
      ¬ CountedOnce final := by
  have hover : (reachedBy (delegateAndWithdraw 3)).toOption.any (fun set =>
      (set.getByPubkey samplePrimitives sampleKey).any fun info =>
        info.bondCount < info.delegatedBonds) = true := by decide +kernel
  cases hrun : reachedBy (delegateAndWithdraw 3) with
  | error error => simp [hrun, Except.toOption] at hover
  | ok final =>
      refine ⟨final, rfl, fun honce => ?_⟩
      simp only [hrun, Except.toOption, Option.any_some, Option.any_eq_true,
        decide_eq_true_eq] at hover
      obtain ⟨info, hinfo, hless⟩ := hover
      exact absurd (honce.bounded _ info hinfo) (by omega)

end Doli.Node
