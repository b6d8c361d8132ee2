import Doli.Node.Governance
import Doli.Node.PostCommit

/-!
# Applying a block

`apply_block`: the snapshots taken before the block, its transactions, the
changes of the producer set and of the chain state that follow them, the
commit, and what is put back when the apply fails.  Errors of the disk are
left out, the missing header of the canonical walk aside.
-/

namespace Doli.Node

open Doli.Core Doli.Lib Doli.Storage Doli.Producer

def undoKeepDepth : Nat := 100

inductive ApplyOutcome where
  | skipped
  | applied
  deriving DecidableEq, Repr

inductive ApplyBlockError where
  | forApply (reason : String)
  | economics (reason : String)
  | transaction (error : ApplyError)
  | missingHeader (hash : Hash)
  deriving DecidableEq, Repr

/-- Whether a check on the block or on one of its transactions failed. -/
def ApplyBlockError.isRefusal : ApplyBlockError → Bool
  | .missingHeader _ => false
  | _ => true

variable (config : NodeConfig)

/-! ## The undo boundary -/

def mutatesProducerSet (tx : Transaction) : Bool :=
  match tx.txType with
  | .registration => true
  | .exit => true
  | .addBond => true
  | .requestWithdrawal => true
  | .claimWithdrawal => true
  | .delegateBond => true
  | .revokeDelegation => true
  | .rotateBlsKey => true
  | .slashProducer => true
  | _ => false

def blockMutatesProducerSet (block : Block) : Bool :=
  block.transactions.any mutatesProducerSet

def blockMutatesMaintainerSet (block : Block) : Bool :=
  block.transactions.any rotatesMaintainers

structure ProducerUndo where
  snapshot : Option ProducerParts
  maintainer : Option MaintainerState

def genesisCompletesAt (params : NetworkParams) (height : Nat) : Bool :=
  params.genesisBlocks ≠ 0 && height = params.genesisBlocks + 1

/-- Whether the block can mutate the producer set, judged before it runs. -/
def needsProducerSnapshot (set : ProducerSet) (block : Block) (height : Nat) : Bool :=
  (0 < config.blocksPerEpoch && decide (config.blocksPerEpoch ∣ height)) ||
    genesisCompletesAt config.utxo.params height || blockMutatesProducerSet block ||
    set.hasUnbondingDue height Producer.unbondingPeriod

def capture (node : NodeState) (block : Block) (height : Nat) : ProducerUndo where
  snapshot :=
    if needsProducerSnapshot config node.producerSet block height then
      some node.producerSet.asParts
    else none
  maintainer := if blockMutatesMaintainerSet block then node.maintainerState else none

def restoreProducerSet (undo : ProducerUndo) (armed : Bool) (set : ProducerSet) :
    ProducerSet :=
  if armed then undo.snapshot.elim set .fromParts else set

def restoreMaintainerSet (undo : ProducerUndo) (state : Option MaintainerState) :
    Option MaintainerState :=
  match undo.maintainer, state with
  | some snapshot, some _ => some snapshot
  | _, state => state

/-! ## The transaction loop -/

structure LoopState where
  utxo : UtxoState
  producers : BlockProducers
  maintainer : Option MaintainerState
  activation : Option (Nat × Nat)

def LoopState.initial (node : NodeState) : LoopState where
  utxo := .initial node.stateDb
  producers := .initial node.producerSet
  maintainer := node.maintainerState
  activation := none

def applyTransaction (ctx : BlockContext) (state : LoopState)
    (item : Transaction × Nat) : Except ApplyError LoopState :=
  match processTransactionUtxos ctx item.2 item.1 state.utxo with
  | .error error => .error error
  | .ok utxo =>
      let producers := processTransactionProducerEffects ctx item.1 state.producers
      let governed := processTransactionGovernance config item.1 ctx.height
        producers.producers state.maintainer
      .ok ⟨utxo, producers, governed.1, governed.2.or state.activation⟩

def blockContext (block : Block) (height : Nat) (mode : ValidationMode) :
    BlockContext :=
  ⟨config.utxo, height, block.slot, mode⟩

def applyTransactions (node : NodeState) (block : Block) (height : Nat)
    (mode : ValidationMode) : LoopState × Option ApplyError :=
  runKeeping (applyTransaction config (blockContext config block height mode))
    block.transactions.zipIdx (.initial node)

/-! ## After the transactions -/

/-- `update_chain_state_for_block` -/
def updateChainStateForBlock (block : Block) (height : Nat)
    (activation : Option (Nat × Nat)) (state : ChainState) : ChainState :=
  let epoch := height / config.blocksPerEpoch
  let scheduled :=
    ((state.update block.hash height block.slot).clearSnapSync).scheduleActivation
      epoch activation
  let activated :=
    if isEpochBoundaryWith height config.blocksPerEpoch then
      scheduled.activatePending epoch
    else scheduled
  activated.stampGenesis config.genesisTimeOverride block.timestamp
    config.slotDuration height

/-- Whether the deferred queue is flushed, which asks for a full write. -/
def flushesQueue (height : Nat) (set : ProducerSet) : Bool :=
  flushesAt config.utxo.params height && !set.pendingUpdates.isEmpty

def poolRowLe (left right : Outpoint × UtxoEntry) : Prop :=
  left.2.height < right.2.height ∨ left.2.height = right.2.height ∧
    (left.1.txHash.word.toNat < right.1.txHash.word.toNat ∨
      left.1.txHash = right.1.txHash ∧ left.1.index ≤ right.1.index)

instance : DecidableRel poolRowLe := fun left right =>
  inferInstanceAs (Decidable (left.2.height < right.2.height ∨
    left.2.height = right.2.height ∧
      (left.1.txHash.word.toNat < right.1.txHash.word.toNat ∨
        left.1.txHash = right.1.txHash ∧ left.1.index ≤ right.1.index)))

structure GenesisState where
  utxo : UtxoState
  set : ProducerSet
  bondsCreated : Nat

def createUtxo (state : UtxoState) (outpoint : Outpoint) (height : Nat)
    (output : Output) : UtxoState :=
  { state with
    batch := state.batch.addUtxo outpoint
      { output := output, height := height, isCoinbase := false, isEpochReward := false }
    undoCreated := state.undoCreated ++ [outpoint] }

/-- The bond and the registration of one genesis producer, while the pool
lasts. -/
def registerGenesisProducer (height poolConsumed : Nat) (bls : Column PublicKey Bytes)
    (state : GenesisState) (key : PublicKey) : GenesisState :=
  let prim := config.utxo.prim
  let bondUnit := config.utxo.params.bondUnit
  if poolConsumed - state.bondsCreated < bondUnit then state
  else
    let outpoint : Outpoint := ⟨prim.hashWithDomain (ascii "genesis_bond") key.asBytes, 0⟩
    let bond : Output :=
      { outputType := .bond
        amount := bondUnit
        pubkeyHash := prim.addressOf key
        lockUntil := 2 ^ 64 - 1
        extraData := leBytes 4 0 }
    let info :=
      { ProducerInfo.newWithBonds key 0 bondUnit outpoint
          (config.utxo.params.heightToEra height) 1 with
        blsPubkey := (bls.lookup key).getD [] }
    { utxo := createUtxo state.utxo outpoint height bond
      set := (state.set.register prim info height).toOption.getD state.set
      bondsCreated := state.bondsCreated + bondUnit }

/-- The genesis producers with their bonds drawn from the reward pool. -/
def completeGenesis (height : Nat) (keys : List PublicKey)
    (bls : Column PublicKey Bytes) (utxo : UtxoState) (set : ProducerSet) :
    UtxoState × ProducerSet :=
  let prim := config.utxo.prim
  let poolHash := rewardPoolPubkeyHash prim
  let pool := (utxo.batch.getUtxosByPubkey poolHash).insertionSort poolRowLe
  let poolConsumed := (pool.map fun row => row.2.output.amount).sum % 2 ^ 64
  let consumed : UtxoState :=
    { utxo with
      batch := pool.foldl (fun batch row => spendOrKeep batch row.1) utxo.batch
      undoSpent := utxo.undoSpent ++ pool }
  let done := keys.foldl (registerGenesisProducer config height poolConsumed bls)
    ⟨consumed, set.clear, 0⟩
  let remainder := poolConsumed - done.bondsCreated
  if 0 < remainder then
    (createUtxo done.utxo
      ⟨prim.hashWithDomain (ascii "genesis_pool_remainder") (ascii "doli"), 0⟩ height
      { outputType := .normal
        amount := remainder
        pubkeyHash := poolHash
        lockUntil := 0
        extraData := [] }, done.set)
  else (done.utxo, done.set)

/-- `maybe_complete_genesis`; the flag asks for a full write. -/
def maybeCompleteGenesis (node : NodeState) (height : Nat) (utxo : UtxoState)
    (set : ProducerSet) : (UtxoState × ProducerSet) × Bool :=
  if genesisCompletesAt config.utxo.params height then
    match config.deriveGenesisProducers node with
    | [] => ((utxo, set), false)
    | keys => (completeGenesis config height keys (config.genesisBlsPubkeys node) utxo
        set, true)
  else ((utxo, set), false)

/-- The producer set after the unbonding scan and the flush. -/
def settledProducers (ctx : BlockContext) (set : ProducerSet) : ProducerSet :=
  applyDeferred ctx (set.processUnbonding ctx.utxo.prim ctx.height
    Producer.unbondingPeriod)

def writeProducers (rows : ProducerParts) (full : Bool) (set : ProducerSet)
    (dirtyKeys : Finset Hash) : ProducerParts :=
  if full then rows.writeFullProducerSet set
  else rows.writeDirtyProducers set dirtyKeys ∅ ∅

/-- The oldest undo record makes room once the depth is reached. -/
def putUndo (records : Column Nat UndoRecord) (height : Nat) (record : UndoRecord) :
    Column Nat UndoRecord :=
  let stored := records.insert height record
  if undoKeepDepth < height then stored.erase (height - undoKeepDepth - 1) else stored

/-! ## The whole block -/

structure ApplyRun where
  result : Except ApplyBlockError ApplyOutcome
  node : NodeState
  armed : Bool

/-- What follows the transaction loop when every transaction went through. -/
def finishBlock (node : NodeState) (block : Block) (height : Nat)
    (mode : ValidationMode) (undo : ProducerUndo) (state : LoopState) : ApplyRun :=
  let ctx := blockContext config block height mode
  let scanned := state.producers.producers.processUnbonding ctx.utxo.prim height
    Producer.unbondingPeriod
  let held := state.maintainer.map (holdSnapRootEmpty config height node.chainState)
  let chainState :=
    updateChainStateForBlock config block height state.activation node.chainState
  let flushed := applyDeferred ctx scanned
  let maintainer :=
    held.map (maybeBootstrapMaintainerSet config height chainState flushed)
  let completed := maybeCompleteGenesis config node height state.utxo flushed
  let utxo := completed.1.1
  let set := completed.1.2
  let stored := node.blockStore.putBlock block
  let moved : NodeState :=
    { node with
      chainState := chainState
      producerSet := set
      maintainerState := maintainer
      blockStore := stored
      cumulativeRollbackDepth := 0 }
  match stored.setCanonicalChain block.hash height with
  | .error missing => ⟨.error (.missingHeader missing), moved, true⟩
  | .ok canonical =>
      let boundary := isEpochBoundaryWith height config.blocksPerEpoch
      let priced :=
        if boundary then replaceOraclePrices ctx (config.oraclePrices node height) utxo
        else utxo
      let record : UndoRecord :=
        { utxo := ⟨priced.undoSpent, priced.undoCreated⟩
          producerSnapshot := undo.snapshot
          epochStateSnapshot := node.epochState }
      let full := flushesQueue config height scanned || completed.2
      ⟨.ok .applied,
        { moved with
          epochState := postCommitEpochState config height set block node.epochState
          stateDb := priced.batch.commit
          producerRows := writeProducers node.producerRows full set
            state.producers.dirtyProducerKeys
          undoRecords := putUndo node.undoRecords height record
          blockStore := canonical
          snapSyncHeight := if boundary then none else node.snapSyncHeight },
        true⟩

/-- A stored block counts as applied from its height on. -/
def alreadyApplied (store : BlockStore) (block : Block) (height : Nat) : Bool :=
  store.hasBlock block.hash && (store.getHeightByHash block.hash).any (height ≤ ·)

/-- The blocks that are dropped without an error; a replay drops none. -/
def skipsBlock (node : NodeState) (block : Block) (height : Nat)
    (mode : ValidationMode) : Bool :=
  mode ≠ .replay && (node.recoveryMode || node.snapSyncHeight.any (height ≤ ·) ||
    alreadyApplied node.blockStore block height)

def applyBlockInner (node : NodeState) (block : Block) (height : Nat)
    (mode : ValidationMode) (undo : ProducerUndo) : ApplyRun :=
  if skipsBlock node block height mode then ⟨.ok .skipped, node, false⟩
  else
    match config.validateBlockForApply node block height mode with
    | .error reason => ⟨.error (.forApply reason), node, false⟩
    | .ok () =>
        match config.validateBlockEconomics node block height mode with
        | .error reason => ⟨.error (.economics reason), node, false⟩
        | .ok () =>
            let live := node.markLive block.producer height
            match applyTransactions config node block height mode with
            | (state, some error) =>
                ⟨.error (.transaction error),
                  { live with
                    producerSet := state.producers.producers
                    maintainerState := state.maintainer }, true⟩
            | (state, none) => finishBlock config live block height mode undo state

/-- `apply_block`: after an error the producer set and the maintainer root are
put back from the snapshots. -/
def applyBlock (node : NodeState) (block : Block) (mode : ValidationMode) :
    Except ApplyBlockError ApplyOutcome × NodeState :=
  let height := node.chainState.bestHeight + 1
  let undo := capture config node block height
  let run := applyBlockInner config node block height mode undo
  match run.result with
  | .ok outcome => (.ok outcome, run.node)
  | .error error =>
      (.error error,
        { run.node with
          producerSet := restoreProducerSet undo run.armed run.node.producerSet
          maintainerState := restoreMaintainerSet undo run.node.maintainerState })

end Doli.Node
