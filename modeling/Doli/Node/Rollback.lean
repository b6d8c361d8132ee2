import Doli.Node.AppliedBlock

/-!
# Rolling a block back

`rollback_one_block` after `apply_block`.  The producer set comes back from the
snapshot of the undo record; of the chain state only the tip is rewound, so
that the work, the protocol version and the genesis data stay as the block
left them.
-/

namespace Doli.Node

open Doli.Core Doli.Lib Doli.Storage Doli.Producer

inductive RollbackAuthority where
  | coordinatorApproved (depth : Nat)
  | productionSelfApply (failedHeight : Nat)
  deriving DecidableEq, Repr

inductive RollbackOutcome where
  | rolledBack
  | refusedNoMutation
  | refusedNotAuthorized
  deriving DecidableEq, Repr

def maxCumulativeRollback : Nat := 50

/-- `LIVENESS_WINDOW_MIN` -/
def livenessWindowMin : Nat := 500

/-- The rewind of the maintainer root, and the rebuild from genesis for a
height without an undo record; a store with holes refuses it. -/
structure RewindContext where
  rewindMaintainerSet : NodeState → Nat → Option MaintainerState
  rebuildWithoutUndo : NodeState → Nat → Option NodeState

/-- A failed block of the own production that never became the tip is not
undone. -/
def RollbackAuthority.covers (authority : RollbackAuthority) (height : Nat) : Bool :=
  match authority with
  | .coordinatorApproved _ => true
  | .productionSelfApply failedHeight => height = failedHeight

namespace NodeState

variable (node : NodeState)

/-- Hash and slot of the canonical block at `height`. -/
def parentTip (height : Nat) : Option (Hash × Nat) :=
  if height = 0 then some (node.chainState.genesisHash, 0)
  else (node.blockStore.getBlockByHeight height).map fun block =>
    (block.hash, block.slot)

/-- `rebuild_producer_liveness` -/
def rebuildProducerLiveness (tip : Nat) : Column PublicKey Nat :=
  let start := max (tip - livenessWindowMin) 1
  (List.range' start (tip + 1 - start)).foldl (fun live height =>
    match node.blockStore.getBlockByHeight height with
    | none => live
    | some block => live.insert block.producer height) ∅

/-- Outputs, producers and epoch state from an undo record. -/
def revert (record : UndoRecord) : NodeState :=
  { node with
    stateDb := rollbackUtxos record.utxo node.stateDb
    producerSet := record.producerSnapshot.elim node.producerSet .fromParts
    epochState := record.epochStateSnapshot }

def dropTip (height : Nat) : BlockStore :=
  match node.blockStore.getHashByHeight height with
  | none => node.blockStore
  | some orphan => node.blockStore.removeCanonicalEntry height orphan

/-- What follows the undo of the block: the tip moves to the parent and the
node is written whole. -/
def rewindTo (restored : NodeState) (rewind : RewindContext) (target : Nat)
    (parent : Hash × Nat) : NodeState :=
  { restored with
    chainState :=
      { restored.chainState with
        bestHash := parent.1, bestHeight := target, bestSlot := parent.2 }
    maintainerState := rewind.rewindMaintainerSet node (target + 1)
    producerLiveness := node.rebuildProducerLiveness target
    producerRows := restored.producerRows.writeFullProducerSet restored.producerSet
    blockStore := node.dropTip (target + 1)
    cumulativeRollbackDepth := restored.cumulativeRollbackDepth + 1 }

end NodeState

def rollbackOneBlock (rewind : RewindContext) (authority : RollbackAuthority)
    (node : NodeState) : RollbackOutcome × NodeState :=
  let height := node.chainState.bestHeight
  let target := height - 1
  if !authority.covers height then (.refusedNotAuthorized, node)
  else if height = 0 then (.refusedNoMutation, node)
  else if target = 0 ∧ 1 < height then (.refusedNoMutation, node)
  else if maxCumulativeRollback ≤ node.cumulativeRollbackDepth then
    (.refusedNoMutation, node)
  else
    match node.parentTip target with
    | none => (.refusedNoMutation, node)
    | some parent =>
        match node.undoRecords.lookup height with
        | some record =>
            (.rolledBack, node.rewindTo (node.revert record) rewind target parent)
        | none =>
            match rewind.rebuildWithoutUndo node target with
            | none => (.refusedNoMutation, node)
            | some rebuilt =>
                (.rolledBack, node.rewindTo rebuilt rewind target parent)

/-! ## The condition -/

/-- The last activation that a transaction of the block gets verified. -/
def carriedActivation (config : NodeConfig) (ctx : BlockContext) :
    List Transaction → BlockProducers → Option MaintainerState →
      Option (Nat × Nat) → Option (Nat × Nat)
  | [], _, _, carried => carried
  | tx :: txs, producers, maintainer, carried =>
      let next := processTransactionProducerEffects ctx tx producers
      let governed :=
        processTransactionGovernance config tx ctx.height next.producers maintainer
      carriedActivation config ctx txs next governed.1 (governed.2.or carried)

section Conditions

variable (config : NodeConfig) (node : NodeState) (block : Block)
  (mode : ValidationMode)

/-- The activation carried by the block as a whole. -/
def blockActivation : Option (Nat × Nat) :=
  carriedActivation config
    (blockContext config block (node.chainState.bestHeight + 1) mode)
    block.transactions (.initial node.producerSet) node.maintainerState none

/-- The block moves nothing of the chain state that a rewind does not. -/
structure MovesTipOnly : Prop where
  work : node.chainState.totalWork = node.chainState.bestHeight + 1
  snapSync : node.chainState.snapSyncHeight = none
  schedules : ∀ version epoch,
    blockActivation config node block mode = some (version, epoch) →
      (node.chainState.bestHeight + 1) / config.blocksPerEpoch < epoch →
        node.chainState.activeProtocolVersion < version →
          node.chainState.pendingProtocolActivation = some (version, epoch)
  activates : isEpochBoundaryWith (node.chainState.bestHeight + 1)
      config.blocksPerEpoch = true →
    ∀ version epoch,
      node.chainState.pendingProtocolActivation = some (version, epoch) →
        (node.chainState.bestHeight + 1) / config.blocksPerEpoch < epoch
  genesisTime : node.chainState.genesisTimestamp = 0 →
    node.chainState.bestHeight + 1 ≤ 1 →
      config.genesisTimeOverride.getD
        (block.timestamp - block.timestamp % config.slotDuration) = 0

/-- The set is recorded, or epoch 0 has no queue to flush behind its back. -/
def RecordsProducers : Prop :=
  needsProducerSnapshot config node.producerSet block (node.chainState.bestHeight + 1) =
      true ∨
    config.blocksPerEpoch ≤ node.chainState.bestHeight + 1 ∨
      node.producerSet.pendingUpdates = []

/-- The block extends the tip, and the store knows the tip or has lost it. -/
structure ExtendsTip : Prop where
  parent : block.prevHash = node.chainState.bestHash
  fresh : block.hash ≠ block.prevHash
  keyed : ∀ hash stored, node.blockStore.blocks.lookup hash = some stored →
    stored.hash = hash
  slot : ∀ stored, node.blockStore.blocks.lookup node.chainState.bestHash = some stored →
    stored.slot = node.chainState.bestSlot
  index : ∀ hash,
    node.blockStore.getHashByHeight node.chainState.bestHeight = some hash →
      hash = node.chainState.bestHash
  genesis : node.chainState.bestHeight = 0 →
    node.chainState.bestHash = node.chainState.genesisHash ∧
      node.chainState.bestSlot = 0

end Conditions

/-- The rewind restored the chain state and the producer set, and the record
of the block left the set out only if the block left it alone. -/
structure Restored (node applied final : NodeState) : Prop where
  chainState : final.chainState = node.chainState
  producers : final.producerSet.asParts = node.producerSet.asParts
  sentinel : ∀ record,
    applied.undoRecords.lookup (node.chainState.bestHeight + 1) = some record →
      record.producerSnapshot = none →
        applied.producerSet.asParts = node.producerSet.asParts

/-! ## The chain state -/

theorem carriedActivation_eq {config : NodeConfig} {ctx : BlockContext}
    {items : List (Transaction × Nat)} {state final : LoopState}
    (hloop : runKeeping (applyTransaction config ctx) items state = (final, none)) :
    final.activation = carriedActivation config ctx (items.map Prod.fst)
      state.producers state.maintainer state.activation := by
  induction items generalizing state with
  | nil =>
      obtain rfl : state = final := congrArg Prod.fst hloop
      rfl
  | cons item items ih =>
      unfold runKeeping at hloop
      split at hloop
      · simp at hloop
      case h_2 next hnext =>
        obtain ⟨hproducers, hmaintainer, hactivation⟩ := applyTransaction_ok hnext
        rw [ih hloop, List.map_cons, carriedActivation, hmaintainer, hactivation,
          hproducers]

theorem rewind_eq_iff {state moved : ChainState} :
    { moved with
      bestHash := state.bestHash, bestHeight := state.bestHeight
      bestSlot := state.bestSlot } = state ↔
      moved.totalWork = state.totalWork ∧ moved.genesisHash = state.genesisHash ∧
        moved.genesisTimestamp = state.genesisTimestamp ∧
        moved.registration = state.registration ∧
        moved.snapSyncHeight = state.snapSyncHeight ∧
        moved.activeProtocolVersion = state.activeProtocolVersion ∧
        moved.pendingProtocolActivation = state.pendingProtocolActivation := by
  cases state
  simp [ChainState.mk.injEq, ChainState.registration, and_assoc]

section Update

variable {config : NodeConfig} {block : Block} {height : Nat}
  {activation : Option (Nat × Nat)} {state : ChainState}

theorem updateChainStateForBlock_genesisTimestamp_iff :
    (updateChainStateForBlock config block height activation state).genesisTimestamp =
        state.genesisTimestamp ↔
      (state.genesisTimestamp = 0 → height ≤ 1 → config.genesisTimeOverride.getD
        (block.timestamp - block.timestamp % config.slotDuration) = 0) := by
  unfold updateChainStateForBlock
  dsimp only
  apply ChainState.stampGenesis_genesisTimestamp_iff
  split <;> simp [ChainState.update, ChainState.clearSnapSync]

/-- The protocol is kept if neither the block schedules an activation nor the
boundary performs one. -/
theorem updateChainStateForBlock_protocol_iff :
    ((updateChainStateForBlock config block height activation
        state).activeProtocolVersion = state.activeProtocolVersion ∧
      (updateChainStateForBlock config block height activation
        state).pendingProtocolActivation = state.pendingProtocolActivation) ↔
    (∀ version epoch, activation = some (version, epoch) →
      height / config.blocksPerEpoch < epoch → state.activeProtocolVersion < version →
        state.pendingProtocolActivation = some (version, epoch)) ∧
      (isEpochBoundaryWith height config.blocksPerEpoch = true →
        ∀ version epoch, state.pendingProtocolActivation = some (version, epoch) →
          height / config.blocksPerEpoch < epoch) := by
  unfold updateChainStateForBlock
  dsimp only
  rw [ChainState.stampGenesis_frame.2.2.2.2.1,
    ChainState.stampGenesis_frame.2.2.2.2.2]
  generalize hstarted : (state.update block.hash height block.slot).clearSnapSync = started
  have hactive : state.activeProtocolVersion = started.activeProtocolVersion := by
    rw [← hstarted]
    rfl
  have hpending : state.pendingProtocolActivation =
      started.pendingProtocolActivation := by
    rw [← hstarted]
    rfl
  rw [hactive, hpending, ← ChainState.scheduleActivation_pending_iff]
  cases isEpochBoundaryWith height config.blocksPerEpoch with
  | false => simp
  | true =>
      simp only [if_true, forall_const]
      constructor
      · rintro ⟨-, hsame⟩
        by_cases hkept : (started.scheduleActivation (height / config.blocksPerEpoch)
            activation).pendingProtocolActivation = started.pendingProtocolActivation
        · refine ⟨hkept, ?_⟩
          rw [← hkept]
          exact ChainState.activatePending_pending_iff.mp (hsame.trans hkept.symm)
        · rw [ChainState.activatePending_scheduled hkept] at hsame
          exact absurd hsame hkept
      · rintro ⟨hkept, hlater⟩
        rw [← hkept] at hlater
        rw [ChainState.activatePending_of_pending hlater]
        exact ⟨ChainState.scheduleActivation_frame.2.2.2.2.2, hkept⟩

end Update

section Block

variable {config : NodeConfig} {node after final : NodeState} {block : Block}
  {mode : ValidationMode} {state : LoopState}

theorem Applied.activation (happlied : Applied config node block mode state after) :
    state.activation = blockActivation config node block mode := by
  rw [carriedActivation_eq happlied.loop, List.zipIdx_map_fst]
  rfl

theorem movesTipOnly_iff (happlied : Applied config node block mode state after) :
    { after.chainState with
      bestHash := node.chainState.bestHash, bestHeight := node.chainState.bestHeight
      bestSlot := node.chainState.bestSlot } = node.chainState ↔
      MovesTipOnly config node block mode := by
  obtain ⟨-, hwork, hgenesis, hsnap⟩ := @updateChainStateForBlock_frame config block
    (node.chainState.bestHeight + 1) (blockActivation config node block mode)
    node.chainState
  rw [rewind_eq_iff, happlied.chainState, happlied.activation, hwork, hgenesis, hsnap,
    updateChainStateForBlock_registration, updateChainStateForBlock_genesisTimestamp_iff,
    updateChainStateForBlock_protocol_iff]
  constructor
  · rintro ⟨hwork, -, htime, -, hsnap, hschedules, hactivates⟩
    exact ⟨hwork.symm, hsnap.symm, hschedules, hactivates, htime⟩
  · intro htip
    exact ⟨htip.work.symm, rfl, htip.genesisTime, rfl, htip.snapSync.symm, htip.schedules,
      htip.activates⟩

/-! ## The producer set -/

theorem Applied.producerSet_of_unrecorded
    (happlied : Applied config node block mode state after)
    (hneeds : needsProducerSnapshot config node.producerSet block
      (node.chainState.bestHeight + 1) = false) :
    after.producerSet = applyDeferred
      (blockContext config block (node.chainState.bestHeight + 1) mode)
      node.producerSet := by
  unfold needsProducerSnapshot at hneeds
  simp only [Bool.or_eq_false_iff] at hneeds
  obtain ⟨⟨⟨-, hgenesis⟩, hother⟩, hdue⟩ := hneeds
  have hloop : state.producers = .initial node.producerSet := by
    have hproducers := @applyTransactions_producers config node block mode
      (node.chainState.bestHeight + 1) hother
    rwa [happlied.loop] at hproducers
  rw [happlied.producerSet]
  unfold completedBlock maybeCompleteGenesis
  rw [hgenesis]
  simp only [Bool.false_eq_true, if_false, settledProducers, hloop]
  exact congrArg _ (ProducerSet.processUnbonding_of_not_due _ hdue)

theorem recordsProducers_iff (happlied : Applied config node block mode state after) :
    (needsProducerSnapshot config node.producerSet block
        (node.chainState.bestHeight + 1) = false →
      after.producerSet.asParts = node.producerSet.asParts) ↔
      RecordsProducers config node block := by
  unfold RecordsProducers
  cases hneeds : needsProducerSnapshot config node.producerSet block
      (node.chainState.bestHeight + 1) with
  | true => simp
  | false =>
      have hboundary : isEpochBoundaryWith (node.chainState.bestHeight + 1)
          config.blocksPerEpoch = false := by
        unfold needsProducerSnapshot at hneeds
        simp only [Bool.or_eq_false_iff] at hneeds
        have hinner := hneeds.1.1.1
        unfold isEpochBoundaryWith
        simp only [Bool.and_eq_false_iff, decide_eq_false_iff_not, Nat.not_lt] at hinner ⊢
        rcases hinner with hzero | hdvd
        · right
          intro hdvd
          rw [Nat.le_zero.mp hzero] at hdvd
          simp at hdvd
        · exact .inr hdvd
      have hflushes : flushesAt config.utxo.params (node.chainState.bestHeight + 1) =
          decide (node.chainState.bestHeight + 1 < config.blocksPerEpoch) := by
        unfold flushesAt
        rw [show isEpochBoundaryWith _ config.utxo.params.blocksPerRewardEpoch = false
          from hboundary, Bool.or_false]
        rfl
      rw [happlied.producerSet_of_unrecorded hneeds]
      simp only [applyDeferred, blockContext, hflushes, decide_eq_true_eq,
        Bool.false_eq_true, false_or, forall_const]
      by_cases hearly : node.chainState.bestHeight + 1 < config.blocksPerEpoch
      · rw [if_pos hearly, or_iff_right (by omega)]
        cases hqueue : node.producerSet.pendingUpdates with
        | nil => simp
        | cons update updates =>
            refine iff_of_false ?_ (by simp)
            intro hsame
            have hflushed := congrArg ProducerParts.pendingUpdates hsame
            simp [ProducerSet.asParts, hqueue] at hflushed
      · rw [if_neg hearly]
        exact iff_of_true rfl (.inl (by omega))

/-! ## The rewind -/

theorem Applied.parentTip (happlied : Applied config node block mode state after)
    (hextends : ExtendsTip node block) {parent : Hash × Nat}
    (hparent : after.parentTip node.chainState.bestHeight = some parent) :
    parent = (node.chainState.bestHash, node.chainState.bestSlot) := by
  unfold NodeState.parentTip at hparent
  by_cases hzero : node.chainState.bestHeight = 0
  · obtain ⟨hhash, hslot⟩ := hextends.genesis hzero
    rw [if_pos hzero, happlied.chainState,
      updateChainStateForBlock_frame.2.2.1] at hparent
    obtain rfl := Option.some.inj hparent
    rw [hhash, hslot]
  · rw [if_neg hzero] at hparent
    obtain ⟨hblocks, hindex⟩ := BlockStore.setCanonicalChain_below
      (Finmap.lookup_insert _) happlied.blockStore
    have hnamed : ∀ hash,
        after.blockStore.getHashByHeight node.chainState.bestHeight = some hash →
          hash = node.chainState.bestHash := by
      intro hash hhash
      rcases hindex with hnew | hkept
      · rw [hnew, hextends.parent] at hhash
        exact (Option.some.inj hhash).symm
      · exact hextends.index hash (hkept.symm.trans hhash)
    obtain ⟨stored, hstored, rfl⟩ := Option.map_eq_some_iff.mp hparent
    obtain ⟨hash, hhash, hlookup⟩ := Option.bind_eq_some_iff.mp hstored
    obtain rfl := hnamed hash hhash
    rw [hblocks] at hlookup
    have hold : node.blockStore.blocks.lookup node.chainState.bestHash = some stored := by
      rw [← hlookup]
      exact (Finmap.lookup_insert_of_ne _ (hextends.parent ▸ hextends.fresh.symm)).symm
    rw [hextends.keyed _ stored hold, hextends.slot stored hold]

end Block

theorem rollbackOneBlock_rolledBack {rewind : RewindContext}
    {authority : RollbackAuthority} {node final : NodeState} {record : UndoRecord}
    (hrecord : node.undoRecords.lookup node.chainState.bestHeight = some record)
    (hroll : rollbackOneBlock rewind authority node = (.rolledBack, final)) :
    ∃ parent, node.parentTip (node.chainState.bestHeight - 1) = some parent ∧
      final = node.rewindTo (node.revert record) rewind
        (node.chainState.bestHeight - 1) parent := by
  unfold rollbackOneBlock at hroll
  dsimp only at hroll
  split_ifs at hroll
  all_goals try simp at hroll
  split at hroll
  · simp at hroll
  case h_2 parent hparent =>
    rw [hrecord] at hroll
    exact ⟨parent, hparent, (congrArg Prod.snd hroll).symm⟩

/-- A rolled back block restored the chain state and the producer set exactly
if it moved the tip alone and its record was not a false sentinel. -/
theorem rollback_restored_iff {config : NodeConfig} {rewind : RewindContext}
    {authority : RollbackAuthority} {node after final : NodeState} {block : Block}
    {mode : ValidationMode} (hextends : ExtendsTip node block)
    (happly : applyBlock config node block mode = (.ok .applied, after))
    (hroll : rollbackOneBlock rewind authority after = (.rolledBack, final)) :
    Restored node after final ↔
      MovesTipOnly config node block mode ∧ RecordsProducers config node block := by
  obtain ⟨state, happlied⟩ := applyBlock_applied happly
  obtain ⟨record, hrecord, hsnapshot, -⟩ := happlied.snapshot
  have hheight := happlied.bestHeight
  rw [← hheight] at hrecord
  obtain ⟨parent, hparent, rfl⟩ := rollbackOneBlock_rolledBack hrecord hroll
  rw [hheight, Nat.add_sub_cancel] at hparent ⊢
  rw [hheight] at hrecord
  obtain rfl := happlied.parentTip hextends hparent
  rw [← movesTipOnly_iff happlied, ← recordsProducers_iff happlied]
  unfold capture at hsnapshot
  constructor
  · intro hrestored
    constructor
    · exact hrestored.chainState
    · intro hneeds
      apply hrestored.sentinel record hrecord
      simpa [hneeds] using hsnapshot
  · rintro ⟨htip, hkept⟩
    constructor
    · exact htip
    · cases hneeds : needsProducerSnapshot config node.producerSet block
          (node.chainState.bestHeight + 1) with
      | true => simp [NodeState.rewindTo, NodeState.revert, hsnapshot, hneeds]
      | false =>
          simpa [NodeState.rewindTo, NodeState.revert, hsnapshot, hneeds] using
            hkept hneeds
    · intro other hother hnone
      obtain rfl : record = other := Option.some.inj (hrecord.symm.trans hother)
      apply hkept
      rw [hsnapshot] at hnone
      simpa using hnone

/-! ## Runs -/

def sampleRewind : RewindContext where
  rewindMaintainerSet node _ := node.maintainerState
  rebuildWithoutUndo _ _ := none

theorem sampleNode_extends {height : Nat} {txs : List Transaction}
    {chainState : ChainState} (hheight : height ≠ 0)
    (hfresh : (sampleBlock (height + 1) txs).hash ≠ (sampleBlock height []).hash)
    (hhash : chainState.bestHash = (sampleBlock height []).hash)
    (hbest : chainState.bestHeight = height) (hslot : chainState.bestSlot = height) :
    ExtendsTip { sampleNode height with chainState := chainState }
      (sampleBlock (height + 1) txs) where
  parent := hhash.symm
  fresh := hfresh
  keyed hash stored hlookup := by
    obtain ⟨rfl, rfl⟩ := lookup_singleton_eq_some.mp hlookup
    rfl
  slot stored hlookup := by
    obtain ⟨-, rfl⟩ := lookup_singleton_eq_some.mp hlookup
    exact hslot.symm
  index hash hindex := by
    obtain ⟨-, rfl⟩ := lookup_singleton_eq_some.mp hindex
    exact hhash.symm
  genesis hzero := absurd (hbest.symm.trans hzero) hheight

/-- A node that has just rolled back the block of height 12. -/
def rewoundNode : NodeState :=
  { sampleNode 11 with chainState := { (sampleNode 11).chainState with totalWork := 12 } }

def coinbaseBlockAt (height : Nat) : Block := sampleBlock height [sampleCoinbase]

theorem rollback_restored_sample :
    Restored rewoundNode
        (applyBlock sampleConfig rewoundNode (coinbaseBlockAt 12) .full).2
        (rollbackOneBlock sampleRewind (.coordinatorApproved 1)
          (applyBlock sampleConfig rewoundNode (coinbaseBlockAt 12) .full).2).2 ↔
      MovesTipOnly sampleConfig rewoundNode (coinbaseBlockAt 12) .full ∧
        RecordsProducers sampleConfig rewoundNode (coinbaseBlockAt 12) :=
  rollback_restored_iff
    (sampleNode_extends (by decide) (by decide) rfl rfl rfl)
    (Prod.ext (by decide +kernel) rfl) (Prod.ext (by decide +kernel) rfl)

/-- The tip before a boundary, with an activation that is due at it. -/
def pendingNode : NodeState :=
  { sampleNode 19 with
    chainState :=
      { (sampleNode 19).chainState with pendingProtocolActivation := some (2, 2) } }

def activatedNode : NodeState :=
  (applyBlock sampleConfig pendingNode (coinbaseBlockAt 20) .full).2

def reactivatedNode : NodeState :=
  (rollbackOneBlock sampleRewind (.coordinatorApproved 1) activatedNode).2

/-- The version that the boundary block activates outlives its rollback. -/
theorem rollback_keeps_activation :
    ExtendsTip pendingNode (coinbaseBlockAt 20) ∧
      applyBlock sampleConfig pendingNode (coinbaseBlockAt 20) .full =
        (.ok .applied, activatedNode) ∧
      rollbackOneBlock sampleRewind (.coordinatorApproved 1) activatedNode =
        (.rolledBack, reactivatedNode) ∧
      pendingNode.chainState.activeProtocolVersion = 1 ∧
      reactivatedNode.chainState.activeProtocolVersion = 2 ∧
      ¬Restored pendingNode activatedNode reactivatedNode := by
  have hversion : reactivatedNode.chainState.activeProtocolVersion = 2 := by
    decide +kernel
  refine ⟨sampleNode_extends (by decide) (by decide) rfl rfl rfl,
    Prod.ext (by decide +kernel) rfl, Prod.ext (by decide +kernel) rfl, rfl, hversion, ?_⟩
  intro hrestored
  rw [hrestored.chainState] at hversion
  contradiction

end Doli.Node
