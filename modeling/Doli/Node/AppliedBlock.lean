import Doli.Node.ApplyBlock

/-!
# What an applied block leaves

Inversion of `applyBlock` for a block that went through: the run of its
transactions and every part of the node that the block writes.
-/

namespace Doli.Node

open Doli.Core Doli.Lib Doli.Storage Doli.Producer

theorem processTransactionProducerEffects_of_not_mutates {ctx : BlockContext}
    {tx : Transaction} {state : BlockProducers}
    (hother : mutatesProducerSet tx = false) :
    processTransactionProducerEffects ctx tx state = state := by
  unfold mutatesProducerSet at hother
  unfold processTransactionProducerEffects
  cases htype : tx.txType <;> simp only [htype] at hother ⊢ <;> contradiction

section

variable {config : NodeConfig} {node after : NodeState} {block : Block}
  {mode : ValidationMode}

/-! ## One transaction -/

theorem applyTransaction_ok {ctx : BlockContext} {state next : LoopState}
    {item : Transaction × Nat}
    (hstep : applyTransaction config ctx state item = .ok next) :
    next.producers = processTransactionProducerEffects ctx item.1 state.producers ∧
      next.maintainer = (processTransactionGovernance config item.1 ctx.height
        next.producers.producers state.maintainer).1 ∧
      next.activation = (processTransactionGovernance config item.1 ctx.height
        next.producers.producers state.maintainer).2.or state.activation := by
  unfold applyTransaction at hstep
  split at hstep
  · contradiction
  · obtain rfl := Except.ok.inj hstep
    exact ⟨rfl, rfl, rfl⟩

theorem mem_transactions {item : Transaction × Nat}
    (hitem : item ∈ block.transactions.zipIdx) : item.1 ∈ block.transactions :=
  List.fst_mem_of_mem_zipIdx hitem

theorem applyTransactions_producers {height : Nat}
    (hother : blockMutatesProducerSet block = false) :
    (applyTransactions config node block height mode).1.producers =
      .initial node.producerSet := by
  unfold blockMutatesProducerSet at hother
  rw [List.any_eq_false] at hother
  refine runKeeping_invariant
    (fun (state : LoopState) => state.producers = .initial node.producerSet) rfl ?_
  intro item hitem state next hstate hstep
  have hkeeps := hother item.1 (mem_transactions hitem)
  rw [(applyTransaction_ok hstep).1, hstate,
    processTransactionProducerEffects_of_not_mutates (by simpa using hkeeps)]

/-- A loop that went through did to the producers what the pass over the
transactions alone does. -/
theorem applyTransactions_processes {ctx : BlockContext}
    {items : List (Transaction × Nat)} {state final : LoopState}
    (hloop : runKeeping (applyTransaction config ctx) items state = (final, none)) :
    final.producers = processProducerEffects ctx (items.map Prod.fst)
      state.producers := by
  induction items generalizing state with
  | nil =>
      obtain rfl : state = final := congrArg Prod.fst hloop
      rfl
  | cons item items ih =>
      unfold runKeeping at hloop
      split at hloop
      · simp at hloop
      case h_2 next hnext =>
        rw [ih hloop, (applyTransaction_ok hnext).1]
        rfl

/-! ## The whole block -/

theorem updateChainStateForBlock_frame {height : Nat} {activation : Option (Nat × Nat)}
    {state : ChainState} :
    (updateChainStateForBlock config block height activation state).bestHeight = height ∧
      (updateChainStateForBlock config block height activation state).totalWork =
        height ∧
      (updateChainStateForBlock config block height activation state).genesisHash =
        state.genesisHash ∧
      (updateChainStateForBlock config block height activation state).snapSyncHeight =
        none := by
  unfold updateChainStateForBlock
  dsimp only
  split <;> simp [ChainState.update, ChainState.clearSnapSync]

theorem updateChainStateForBlock_registration {height : Nat}
    {activation : Option (Nat × Nat)} {state : ChainState} :
    (updateChainStateForBlock config block height activation state).registration =
      state.registration := by
  unfold updateChainStateForBlock
  dsimp only
  rw [ChainState.stampGenesis_registration]
  split
  · rw [ChainState.activatePending_registration, ChainState.scheduleActivation_registration]
    rfl
  · rw [ChainState.scheduleActivation_registration]
    rfl

variable (config node block mode)

/-- The producer set and the rest of the genesis step, and whether it wrote. -/
def completedBlock (state : LoopState) : (UtxoState × ProducerSet) × Bool :=
  maybeCompleteGenesis config
    (node.markLive block.producer (node.chainState.bestHeight + 1))
    (node.chainState.bestHeight + 1) state.utxo
    (settledProducers
      (blockContext config block (node.chainState.bestHeight + 1) mode)
      state.producers.producers)

/-- Whether the block writes the whole set and not its dirty keys alone. -/
def writesFullSet (state : LoopState) : Bool :=
  flushesQueue config (node.chainState.bestHeight + 1) state.producers.producers ||
    (completedBlock config node block mode state).2

/-- The parts of the node after a block whose loop ended in `state`. -/
structure Applied (state : LoopState) (after : NodeState) : Prop where
  loop : applyTransactions config node block (node.chainState.bestHeight + 1) mode =
    (state, none)
  chainState : after.chainState = updateChainStateForBlock config block
    (node.chainState.bestHeight + 1) state.activation node.chainState
  producerSet : after.producerSet = (completedBlock config node block mode state).1.2
  producerRows : after.producerRows = writeProducers node.producerRows
    (writesFullSet config node block mode state) after.producerSet
    state.producers.dirtyProducerKeys
  snapshot : ∃ record,
    after.undoRecords.lookup (node.chainState.bestHeight + 1) = some record ∧
      record.producerSnapshot = (capture config node block
        (node.chainState.bestHeight + 1)).snapshot ∧
      record.epochStateSnapshot = node.epochState
  blockStore : (node.blockStore.putBlock block).setCanonicalChain block.hash
    (node.chainState.bestHeight + 1) = .ok after.blockStore
  epochState : after.epochState = postCommitEpochState config
    (node.chainState.bestHeight + 1) after.producerSet block node.epochState

variable {config node block mode}

theorem Applied.producers {state : LoopState}
    (happlied : Applied config node block mode state after) :
    state.producers = processProducerEffects
      (blockContext config block (node.chainState.bestHeight + 1) mode)
      block.transactions (.initial node.producerSet) := by
  rw [applyTransactions_processes happlied.loop, List.zipIdx_map_fst]
  rfl

theorem Applied.bestHeight {state : LoopState}
    (happlied : Applied config node block mode state after) :
    after.chainState.bestHeight = node.chainState.bestHeight + 1 := by
  rw [happlied.chainState]
  exact updateChainStateForBlock_frame.1

theorem lookup_putUndo (records : Column Nat UndoRecord) (height : Nat)
    (record : UndoRecord) :
    (putUndo records height record).lookup height = some record := by
  unfold putUndo
  dsimp only
  split
  · rw [Finmap.lookup_erase_ne (by unfold undoKeepDepth at *; omega),
      Finmap.lookup_insert]
  · rw [Finmap.lookup_insert]

theorem finishBlock_applied {state : LoopState}
    (hloop : applyTransactions config node block (node.chainState.bestHeight + 1) mode =
      (state, none))
    (hfinish : (finishBlock config
      (node.markLive block.producer (node.chainState.bestHeight + 1)) block
      (node.chainState.bestHeight + 1) mode
      (capture config node block (node.chainState.bestHeight + 1)) state).result =
        .ok .applied) :
    Applied config node block mode state (finishBlock config
      (node.markLive block.producer (node.chainState.bestHeight + 1)) block
      (node.chainState.bestHeight + 1) mode
      (capture config node block (node.chainState.bestHeight + 1)) state).node := by
  unfold finishBlock at hfinish ⊢
  dsimp only at hfinish ⊢
  split at hfinish
  · contradiction
  case h_2 canonical hcanonical =>
    exact
      { loop := hloop
        chainState := rfl
        producerSet := rfl
        producerRows := by
          simp only [flushesQueue, ProducerSet.processUnbonding_pendingUpdates]
          rfl
        snapshot := ⟨_, lookup_putUndo _ _ _, rfl, rfl⟩
        blockStore := hcanonical
        epochState := rfl }

theorem applyBlock_finished
    (happly : applyBlock config node block mode = (.ok .applied, after)) :
    ∃ state, applyTransactions config node block (node.chainState.bestHeight + 1) mode =
        (state, none) ∧
      (finishBlock config
        (node.markLive block.producer (node.chainState.bestHeight + 1)) block
        (node.chainState.bestHeight + 1) mode
        (capture config node block (node.chainState.bestHeight + 1)) state).result =
          .ok .applied ∧
      after = (finishBlock config
        (node.markLive block.producer (node.chainState.bestHeight + 1)) block
        (node.chainState.bestHeight + 1) mode
        (capture config node block (node.chainState.bestHeight + 1)) state).node := by
  unfold applyBlock at happly
  dsimp only at happly
  split at happly
  case h_2 => simp at happly
  case h_1 outcome houtcome =>
    obtain ⟨rfl, rfl⟩ : outcome = .applied ∧ _ := by simpa using happly
    unfold applyBlockInner at houtcome ⊢
    by_cases hskips : skipsBlock node block (node.chainState.bestHeight + 1) mode
    · simp [hskips] at houtcome
    simp only [hskips] at houtcome ⊢
    cases hchecked : config.validateBlockForApply node block
        (node.chainState.bestHeight + 1) mode with
    | error reason => simp [hchecked] at houtcome
    | ok _ =>
        simp only [hchecked] at houtcome ⊢
        cases heconomics : config.validateBlockEconomics node block
            (node.chainState.bestHeight + 1) mode with
        | error reason => simp [heconomics] at houtcome
        | ok _ =>
            simp only [heconomics] at houtcome ⊢
            cases hloop : applyTransactions config node block
                (node.chainState.bestHeight + 1) mode with
            | mk state failure =>
                simp only [hloop] at houtcome ⊢
                cases failure with
                | some cause => contradiction
                | none =>
                    simp only at houtcome ⊢
                    exact ⟨state, rfl, houtcome, rfl⟩

theorem applyBlock_applied
    (happly : applyBlock config node block mode = (.ok .applied, after)) :
    ∃ state, Applied config node block mode state after := by
  obtain ⟨state, hloop, hfinish, rfl⟩ := applyBlock_finished happly
  exact ⟨state, finishBlock_applied hloop hfinish⟩

end

end Doli.Node
