import Doli.Node.ProducerEffects

/-!
# Rebuilding the producer set

`rebuild_producer_set_from_blocks` replays the chain with its own copy of the
transaction arms and of the per-block order, starting from the set it clears.
-/

namespace Doli.Node

open Doli.Core Doli.Lib Doli.Storage Doli.Producer

/-! ## The second copy of the arms -/

section Arms

variable (ctx : BlockContext) (tx : Transaction) (set : ProducerSet)

def rebuildRegistration : ProducerSet :=
  if 0 < ctx.utxo.params.genesisBlocks ∧
      ctx.height ≤ ctx.utxo.params.genesisBlocks then set
  else
    match tx.registrationData ctx.utxo.prim with
    | none => set
    | some data =>
        match registeredInfo ctx.utxo ctx.height tx data with
        | none => set
        | some info => set.queueUpdate (.register info ctx.height)

/-- Unlike the live arm, an unknown producer has its exit queued. -/
def rebuildExit : ProducerSet :=
  match tx.exitData ctx.utxo.prim with
  | none => set
  | some data =>
      match set.getByPubkey ctx.utxo.prim data.publicKey with
      | some info =>
          if 0 < info.bondCount then
            (chargeWithdrawal set (ctx.utxo.prim.cryptoHash data.publicKey)
              info.bondCount).queueUpdate
              (.requestWithdrawal data.publicKey info.bondCount
                ctx.utxo.params.bondUnit)
          else set.queueUpdate (.exit data.publicKey ctx.height)
      | none => set.queueUpdate (.exit data.publicKey ctx.height)

def rebuildSlash : ProducerSet :=
  match tx.slashData ctx.utxo.prim with
  | none => set
  | some data => set.queueUpdate (.slash data.producerPubkey ctx.height)

def rebuildAddBond : ProducerSet :=
  match tx.addBondData with
  | none => set
  | some data =>
      if (set.getByPubkey ctx.utxo.prim data.producerPubkey).isSome ∨
          set.hasPendingRegistration data.producerPubkey then
        set.queueUpdate
          (.addBond data.producerPubkey (bondOutpoints ctx.utxo.prim tx)
            ctx.utxo.params.bondUnit ctx.slot)
      else set

/-- The revocation is decided by one condition instead of two nested ones. -/
def rebuildWithdrawal : ProducerSet :=
  match tx.withdrawalRequestData with
  | none => set
  | some data =>
      match set.getByPubkey ctx.utxo.prim data.producerPubkey with
      | none => set
      | some info =>
          let available :=
            satAdd info.bondCount
              (inFlightBonds ctx.utxo ctx.height set data.producerPubkey) -
              info.withdrawalPendingCount
          let revoked :=
            if 0 < info.delegatedBonds ∧ data.bondCount = available ∧
                available - info.delegatedBonds < data.bondCount then
              set.queueUpdate (.revokeDelegation data.producerPubkey)
            else set
          if data.bondCount ≤ available then
            (chargeWithdrawal revoked
              (ctx.utxo.prim.cryptoHash data.producerPubkey)
              data.bondCount).queueUpdate
              (.requestWithdrawal data.producerPubkey data.bondCount
                ctx.utxo.params.bondUnit)
          else revoked

def rebuildDelegate : ProducerSet :=
  match tx.delegateBondData with
  | none => set
  | some data =>
      let authOk := delegationAuth ctx.utxo ctx.height
        (ctx.utxo.prim.delegateBondMessage data) data.signature data.delegator
      let capOk := delegationCapOk ctx.utxo ctx.height set data
      if authOk && capOk then
        set.queueUpdate (.delegateBond data.delegator data.delegate data.bondCount)
      else set

def rebuildRevoke : ProducerSet :=
  match tx.revokeDelegationData with
  | none => set
  | some data =>
      if delegationAuth ctx.utxo ctx.height
          (ctx.utxo.prim.revokeDelegationMessage data) data.signature
          data.delegator then
        set.queueUpdate (.revokeDelegation data.delegator)
      else set

def rebuildRotate : ProducerSet :=
  if ctx.utxo.params.blsKeyRotationActivationHeight ≤ ctx.height then
    match RotateBlsData.decode tx.extraData with
    | none => set
    | some data =>
        (set.applyRotation ctx.utxo.prim data ctx.height).toOption.getD set
  else set

def rebuildProducerEffects : ProducerSet :=
  match tx.txType with
  | .registration => rebuildRegistration ctx tx set
  | .exit => rebuildExit ctx tx set
  | .slashProducer => rebuildSlash ctx tx set
  | .addBond => rebuildAddBond ctx tx set
  | .requestWithdrawal => rebuildWithdrawal ctx tx set
  | .delegateBond => rebuildDelegate ctx tx set
  | .revokeDelegation => rebuildRevoke ctx tx set
  | .rotateBlsKey => rebuildRotate ctx tx set
  | _ => set

end Arms

/-! ## The loop -/

/-- One height: the transactions, the flush, and only then the unbonding scan. -/
def rebuildBlockProducers (ctx : BlockContext) (txs : List Transaction)
    (set : ProducerSet) : ProducerSet :=
  let queued := txs.foldl (fun set tx => rebuildProducerEffects ctx tx set) set
  let flushed :=
    if flushesAt ctx.utxo.params ctx.height then
      queued.applyPendingUpdatesWithCap ctx.utxo.prim
        (delegationCap ctx.utxo.params ctx.height)
    else queued
  flushed.processUnbonding ctx.utxo.prim ctx.height Producer.unbondingPeriod

/-- The producers that the end of the genesis phase registers, on either path. -/
def registerGenesis (utxo : UtxoContext) (genesis : List ProducerInfo)
    (set : ProducerSet) : ProducerSet :=
  genesis.foldl (fun set info =>
    (set.register utxo.prim info (utxo.params.genesisBlocks + 1)).toOption.getD set)
    set

/-- The rebuild over the blocks that follow the genesis phase. -/
def rebuildProducerSet (utxo : UtxoContext) (genesis : List ProducerInfo)
    (blocks : List ChainBlock) (prior : ProducerSet) : ProducerSet :=
  blocks.foldl (fun set block =>
    rebuildBlockProducers (block.context utxo) block.txs set)
    (registerGenesis utxo genesis prior.clear)

/-- The live path over the same blocks. -/
def liveProducerSet (utxo : UtxoContext) (genesis : List ProducerInfo)
    (blocks : List ChainBlock) : ProducerSet :=
  blocks.foldl (fun set block =>
    applyBlockProducers (block.context utxo) block.txs set)
    (registerGenesis utxo genesis .new)

/-! ## The arms agree -/

variable {ctx : BlockContext} {tx : Transaction} {state : BlockProducers}

/-- An Exit names a producer of the set, if it names one at all. -/
def KnownExit (prim : Primitives) (set : ProducerSet) (tx : Transaction) : Prop :=
  ∀ data, tx.exitData prim = some data →
    (set.getByPubkey prim data.publicKey).isSome

theorem registrationEffect_producers :
    (registrationEffect ctx tx state).producers =
      rebuildRegistration ctx tx state.producers := by
  unfold registrationEffect rebuildRegistration
  by_cases hgenesis : 0 < ctx.utxo.params.genesisBlocks ∧
      ctx.height ≤ ctx.utxo.params.genesisBlocks
  · simp [NetworkParams.isInGenesis, hgenesis]
  · have hin : ctx.utxo.params.isInGenesis ctx.height = false := by
      simpa [NetworkParams.isInGenesis] using hgenesis
    simp only [hin, hgenesis, if_false, Bool.false_eq_true]
    cases tx.registrationData ctx.utxo.prim with
    | none => rfl
    | some data =>
        simp only
        cases registeredInfo ctx.utxo ctx.height tx data with
        | none => rfl
        | some info => rfl

theorem exitEffect_producers
    (hknown : KnownExit ctx.utxo.prim state.producers tx) :
    (exitEffect ctx tx state).producers = rebuildExit ctx tx state.producers := by
  unfold exitEffect rebuildExit
  cases hdata : tx.exitData ctx.utxo.prim with
  | none => rfl
  | some data =>
      obtain ⟨info, hinfo⟩ := Option.isSome_iff_exists.mp (hknown data hdata)
      simp only [hinfo]
      split <;> rfl

theorem slashEffect_producers :
    (slashEffect ctx tx state).producers = rebuildSlash ctx tx state.producers := by
  unfold slashEffect rebuildSlash
  cases tx.slashData ctx.utxo.prim <;> rfl

theorem addBondEffect_producers :
    (addBondEffect ctx tx state).producers =
      rebuildAddBond ctx tx state.producers := by
  unfold addBondEffect rebuildAddBond
  cases tx.addBondData with
  | none => rfl
  | some data =>
      cases hget : state.producers.getByPubkey ctx.utxo.prim
          data.producerPubkey with
      | some info => simp [hget, BlockProducers.queue]
      | none =>
          cases hpending :
              state.producers.hasPendingRegistration data.producerPubkey with
          | true => simp [hget, hpending, BlockProducers.queue]
          | false => simp [hget, hpending]

theorem revoked_producers (update : PendingProducerUpdate)
    (remaining delegated requested : Nat) :
    (if remaining - delegated < requested then
        if 0 < delegated ∧ requested = remaining then state.queue update else state
      else state).producers =
      if 0 < delegated ∧ requested = remaining ∧
          remaining - delegated < requested then
        state.producers.queueUpdate update
      else state.producers := by
  by_cases hover : remaining - delegated < requested
  · by_cases hfull : 0 < delegated ∧ requested = remaining
    · have hrevoke : 0 < delegated ∧ requested = remaining ∧
          remaining - delegated < requested := ⟨hfull.1, hfull.2, hover⟩
      rw [if_pos hover, if_pos hfull, if_pos hrevoke]
      rfl
    · rw [if_pos hover, if_neg hfull, if_neg fun hall => hfull ⟨hall.1, hall.2.1⟩]
  · rw [if_neg hover, if_neg fun hall => hover hall.2.2]

theorem withdrawalEffect_producers :
    (withdrawalEffect ctx tx state).producers =
      rebuildWithdrawal ctx tx state.producers := by
  unfold withdrawalEffect rebuildWithdrawal
  cases tx.withdrawalRequestData with
  | none => rfl
  | some data =>
      cases hinfo : state.producers.getByPubkey ctx.utxo.prim
          data.producerPubkey with
      | none => simp [hinfo]
      | some info =>
          simp only [hinfo, ← revoked_producers]
          by_cases hle : data.bondCount ≤ remainingBonds ctx.utxo ctx.height
              state.producers data.producerPubkey info
          · have hopen := hle
            unfold remainingBonds at hopen
            simp only [hle, hopen, if_true]
            rfl
          · have hclosed := hle
            unfold remainingBonds at hclosed
            simp only [hle, hclosed, if_false]
            rfl

theorem delegateEffect_producers :
    (delegateEffect ctx tx state).producers =
      rebuildDelegate ctx tx state.producers := by
  unfold delegateEffect rebuildDelegate
  cases tx.delegateBondData with
  | none => rfl
  | some data =>
      simp only
      split <;> rfl

theorem revokeEffect_producers :
    (revokeEffect ctx tx state).producers =
      rebuildRevoke ctx tx state.producers := by
  unfold revokeEffect rebuildRevoke
  cases tx.revokeDelegationData with
  | none => rfl
  | some data =>
      simp only
      split <;> rfl

theorem rotateEffect_producers :
    (rotateEffect ctx tx state).producers =
      rebuildRotate ctx tx state.producers := by
  unfold rotateEffect rebuildRotate
  split
  · cases RotateBlsData.decode tx.extraData with
    | none => rfl
    | some data =>
        cases hrotate : state.producers.applyRotation ctx.utxo.prim data
            ctx.height with
        | error skip => simp [hrotate, Except.toOption]
        | ok producers => simp [hrotate, Except.toOption]
  · rfl

theorem processTransactionProducerEffects_producers
    (hknown : KnownExit ctx.utxo.prim state.producers tx) :
    (processTransactionProducerEffects ctx tx state).producers =
      rebuildProducerEffects ctx tx state.producers := by
  unfold processTransactionProducerEffects rebuildProducerEffects
  cases tx.txType with
  | registration => exact registrationEffect_producers
  | exit => exact exitEffect_producers hknown
  | slashProducer => exact slashEffect_producers
  | addBond => exact addBondEffect_producers
  | requestWithdrawal => exact withdrawalEffect_producers
  | delegateBond => exact delegateEffect_producers
  | revokeDelegation => exact revokeEffect_producers
  | rotateBlsKey => exact rotateEffect_producers
  | _ => rfl

/-! ## One block -/

theorem rebuildProducerEffects_isSome (set : ProducerSet) (key : Hash) :
    ((rebuildProducerEffects ctx tx set).producers.lookup key).isSome =
      (set.producers.lookup key).isSome := by
  unfold rebuildProducerEffects
  cases tx.txType with
  | registration =>
      simp only [rebuildRegistration]
      split_ifs <;> [rfl; (split <;> [rfl; (split <;> rfl)])]
  | exit =>
      simp only [rebuildExit]
      split
      · rfl
      · split
        · split_ifs <;> simp [chargeWithdrawal, ProducerSet.lookup_modify_isSome]
        · rfl
  | slashProducer =>
      simp only [rebuildSlash]
      split <;> rfl
  | addBond =>
      simp only [rebuildAddBond]
      split
      · rfl
      · split_ifs <;> rfl
  | requestWithdrawal =>
      simp only [rebuildWithdrawal]
      split
      · rfl
      · split
        · rfl
        · split_ifs <;> simp [chargeWithdrawal, ProducerSet.lookup_modify_isSome]
  | delegateBond =>
      simp only [rebuildDelegate]
      split
      · rfl
      · split_ifs <;> rfl
  | revokeDelegation =>
      simp only [rebuildRevoke]
      split
      · rfl
      · split_ifs <;> rfl
  | rotateBlsKey =>
      simp only [rebuildRotate]
      split_ifs
      · split
        · rfl
        · unfold ProducerSet.applyRotation
          split <;> rfl
      · rfl
  | _ => rfl

/-- The queue a flush meets holds no exit that is over at `height` already. -/
def NoLateExit (height : Nat) (set : ProducerSet) : Prop :=
  ∀ pubkey started, .exit pubkey started ∈ set.pendingUpdates →
    height - Producer.unbondingPeriod < started

/-- Unbonding scan and flush do not meet: there is no flush, or nothing to
flush, or no index row and no queued exit that the scan would take. -/
def ScanApart (ctx : BlockContext) (set : ProducerSet) : Prop :=
  flushesAt ctx.utxo.params ctx.height = false ∨ set.pendingUpdates = [] ∨
    (set.hasUnbondingDue ctx.height Producer.unbondingPeriod = false ∧
      NoLateExit ctx.height set)

theorem flush_not_due {ctx : BlockContext} {set : ProducerSet} {cap : Nat}
    (hdue : set.hasUnbondingDue ctx.height Producer.unbondingPeriod = false)
    (hlate : NoLateExit ctx.height set) :
    (set.applyPendingUpdatesWithCap ctx.utxo.prim cap).hasUnbondingDue ctx.height
      Producer.unbondingPeriod = false := by
  rw [ProducerSet.hasUnbondingDue_eq_false] at hdue ⊢
  intro row hrow
  rcases ProducerSet.mem_unbondingIndex_applyUpdates ctx.utxo.prim hrow with
    hrow | ⟨pubkey, hexit⟩
  · exact hdue row hrow
  · exact hlate pubkey row.1 hexit

theorem applyDeferred_scan {ctx : BlockContext} {set : ProducerSet}
    (hapart : ScanApart ctx set) :
    applyDeferred ctx
        (set.processUnbonding ctx.utxo.prim ctx.height Producer.unbondingPeriod) =
      (if flushesAt ctx.utxo.params ctx.height then
        set.applyPendingUpdatesWithCap ctx.utxo.prim
          (delegationCap ctx.utxo.params ctx.height)
      else set).processUnbonding ctx.utxo.prim ctx.height
        Producer.unbondingPeriod := by
  by_cases hempty : set.pendingUpdates = []
  · rw [ProducerSet.applyPendingUpdatesWithCap_of_empty _ hempty]
    simp [applyDeferred, hempty]
  · rcases hapart with hflush | hnone | ⟨hdue, hlate⟩
    · simp [applyDeferred, hflush]
    · contradiction
    · rw [ProducerSet.processUnbonding_of_not_due _ hdue]
      have hqueue : set.pendingUpdates.isEmpty = false := by
        simpa using hempty
      simp only [applyDeferred, hqueue]
      split
      · exact (ProducerSet.processUnbonding_of_not_due _
          (flush_not_due hdue hlate)).symm
      · exact (ProducerSet.processUnbonding_of_not_due _ hdue).symm

/-! ## The chain -/

/-- Both paths treat the block alike: its exits name registered producers, and
the unbonding scan stays apart from the flush. -/
structure ProducersAlike (utxo : UtxoContext) (set : ProducerSet)
    (block : ChainBlock) : Prop where
  exits : ∀ tx ∈ block.txs, KnownExit utxo.prim set tx
  apart : ScanApart (block.context utxo)
    (processProducerEffects (block.context utxo) block.txs (.initial set)).producers

/-- The transactions of a block leave the same set, whatever the pass collects
on the side. -/
theorem processProducerEffects_producers {txs : List Transaction}
    {set : ProducerSet} (hknown : ∀ tx ∈ txs, KnownExit ctx.utxo.prim set tx) :
    (processProducerEffects ctx txs (.initial set)).producers =
      txs.foldl (fun set tx => rebuildProducerEffects ctx tx set) set := by
  suffices hgen : ∀ (rest : List Transaction) (state : BlockProducers),
      (∀ tx ∈ rest, KnownExit ctx.utxo.prim state.producers tx) →
      (processProducerEffects ctx rest state).producers =
        rest.foldl (fun set tx => rebuildProducerEffects ctx tx set)
          state.producers from hgen txs (.initial set) hknown
  intro rest
  induction rest with
  | nil =>
      intro state _
      rfl
  | cons tx rest ih =>
      intro state hrest
      have hstep := processTransactionProducerEffects_producers
        (hrest tx List.mem_cons_self)
      have hnext : ∀ later ∈ rest, KnownExit ctx.utxo.prim
          (processTransactionProducerEffects ctx tx state).producers later := by
        intro later hlater data hdata
        have hbefore := hrest later (List.mem_cons_of_mem _ hlater) data hdata
        rw [hstep]
        exact (rebuildProducerEffects_isSome state.producers _).trans hbefore
      calc (processProducerEffects ctx (tx :: rest) state).producers
          = (processProducerEffects ctx rest
              (processTransactionProducerEffects ctx tx state)).producers := rfl
        _ = rest.foldl (fun set tx => rebuildProducerEffects ctx tx set)
              (processTransactionProducerEffects ctx tx state).producers :=
            ih _ hnext
        _ = _ := by rw [hstep]; rfl

theorem rebuildBlockProducers_eq {utxo : UtxoContext} {set : ProducerSet}
    {block : ChainBlock} (halike : ProducersAlike utxo set block) :
    rebuildBlockProducers (block.context utxo) block.txs set =
      applyBlockProducers (block.context utxo) block.txs set := by
  have htxs := @processProducerEffects_producers (block.context utxo) _ _ halike.exits
  have hscan := applyDeferred_scan halike.apart
  simp only [applyBlockProducers, rebuildBlockProducers]
  rw [hscan, htxs]

theorem clear_eq_new {set : ProducerSet} (hexits : set.exitHistory = ∅)
    (hindex : set.unbondingIndex = []) : set.clear = .new := by
  simp [ProducerSet.clear, ProducerSet.new, hexits, hindex]

/-- The three parts of the set that the rebuild has to restore. -/
def SameProducers (rebuilt live : ProducerSet) : Prop :=
  rebuilt.producers = live.producers ∧ rebuilt.exitHistory = live.exitHistory ∧
    rebuilt.pendingUpdates = live.pendingUpdates

/-- After every run of blocks that both paths treat alike, the rebuild from a
set with nothing that `clear` keeps has restored what the live path left. -/
theorem rebuildProducerSet_eq_live {utxo : UtxoContext}
    {genesis : List ProducerInfo} {blocks : List ChainBlock} {prior : ProducerSet}
    (hexits : prior.exitHistory = ∅) (hindex : prior.unbondingIndex = [])
    (halike : ∀ done block rest, blocks = done ++ block :: rest →
      ProducersAlike utxo (liveProducerSet utxo genesis done) block) :
    SameProducers (rebuildProducerSet utxo genesis blocks prior)
      (liveProducerSet utxo genesis blocks) := by
  have hsame : rebuildProducerSet utxo genesis blocks prior =
      liveProducerSet utxo genesis blocks := by
    refine foldl_invariant
      (fun done set => set = liveProducerSet utxo genesis done) ?_ ?_
    · rw [clear_eq_new hexits hindex]
      rfl
    · intro done block rest current hblocks hcurrent
      rw [hcurrent, rebuildBlockProducers_eq (halike done block rest hblocks)]
      simp [liveProducerSet]
  rw [hsame]
  exact ⟨rfl, rfl, rfl⟩

/-! ## A set that had seen an exit -/

def sampleKey : PublicKey := ⟨77⟩

def sampleBond (key : PublicKey) : Output where
  outputType := .bond
  amount := sampleParams.bondUnit
  pubkeyHash := samplePrimitives.addressOf key
  lockUntil := 2 ^ 64 - 1
  extraData := leBytes 4 0

def sampleRegistration (key : PublicKey) : Transaction where
  version := 1
  txType := .registration
  inputs := [sampleInput ⟨⟨900⟩, 0⟩]
  outputs := [sampleBond key]
  extraData := key.asBytes ++ leBytes 4 1

def sampleSlash (key : PublicKey) : Transaction where
  version := 1
  txType := .slashProducer
  inputs := []
  outputs := []
  extraData := key.asBytes

def sampleChainBlock (height : Nat) (txs : List Transaction) : ChainBlock :=
  ⟨height, height, .full, txs, []⟩

def registers : PendingProducerUpdate → Bool
  | .register _ _ => true
  | _ => false

theorem sampleRegistration_alike :
    ProducersAlike sampleUtxoContext (liveProducerSet sampleUtxoContext [] [])
      (sampleChainBlock 1 [sampleRegistration sampleKey]) where
  exits tx htx data hdata := by
    obtain rfl := List.mem_singleton.mp htx
    simp [Transaction.exitData, sampleRegistration] at hdata
  apart := by
    refine .inr (.inr ⟨by decide +kernel, ?_⟩)
    intro pubkey started hexit
    have hqueue : (processProducerEffects
        ((sampleChainBlock 1 [sampleRegistration sampleKey]).context
          sampleUtxoContext) [sampleRegistration sampleKey]
        (.initial (liveProducerSet sampleUtxoContext [] []))).producers.pendingUpdates.all
          registers = true := by decide +kernel
    simpa [registers] using List.all_eq_true.mp hqueue _ hexit

theorem rebuildProducerSet_eq_live_registration :
    SameProducers
      (rebuildProducerSet sampleUtxoContext []
        [sampleChainBlock 1 [sampleRegistration sampleKey]]
        (liveProducerSet sampleUtxoContext []
          [sampleChainBlock 1 [sampleRegistration ⟨78⟩]]))
      (liveProducerSet sampleUtxoContext []
        [sampleChainBlock 1 [sampleRegistration sampleKey]]) := by
  refine rebuildProducerSet_eq_live (by decide +kernel) (by decide +kernel) ?_
  intro done block rest hblocks
  cases done with
  | nil =>
      obtain ⟨rfl, -⟩ := List.cons.inj hblocks
      exact sampleRegistration_alike
  | cons first done => simp at hblocks

/-- The abandoned branch slashes at height 2 the producer of height 1. -/
def abandonedSet : ProducerSet :=
  liveProducerSet sampleUtxoContext []
    [sampleChainBlock 1 [sampleRegistration sampleKey],
      sampleChainBlock 2 [sampleSlash sampleKey]]

/-- Back on the branch without the slash, the rebuilt producer has a prior exit
that it never made, and the history of the other branch. -/
theorem rebuild_keeps_abandoned_exit :
    ¬ SameProducers
      (rebuildProducerSet sampleUtxoContext []
        [sampleChainBlock 1 [sampleRegistration sampleKey]] abandonedSet)
      (liveProducerSet sampleUtxoContext []
        [sampleChainBlock 1 [sampleRegistration sampleKey]]) := by
  unfold SameProducers
  decide +kernel

end Doli.Node
