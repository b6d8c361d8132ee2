import Doli.Lib.Run
import Doli.Core.Validation
import Doli.Storage.BlockBatch

/-!
# Applying the UTXO effects of a block

`processTransactionUtxos` validates one transaction against the overlay, burns
slashed collateral, refuses duplicate unique ids, spends, adds, and records
the undo data.  A block runs it over its transactions in order and then lets
the oracle re-create its price outputs.
-/

namespace Doli.Node

open Doli.Core Doli.Lib Doli.Storage

inductive ValidationMode where
  | full
  | light
  | replay
  deriving DecidableEq, Repr

structure BlockContext where
  utxo : UtxoContext
  height : Nat
  slot : Nat
  mode : ValidationMode

structure UtxoState where
  batch : BlockBatch
  undoSpent : List (Outpoint × UtxoEntry)
  undoCreated : List Outpoint

inductive ApplyError where
  | utxoValidation (error : ValidationError)
  | slashBurn (error : StorageError)
  | nftExists (tokenId : Hash)
  | poolExists (poolId : Hash)
  | spendTransaction (error : StorageError)
  deriving DecidableEq, Repr

def epochRewardExplicitInputsHeight : Nat := 0

def isRewardTx (txIndex : Nat) (tx : Transaction) : Bool :=
  txIndex = 0 && tx.isRewardMinting

/-! ## The stages of one transaction -/

/-- The rows the overlay shows at the inputs, before anything is spent. -/
def captureInputs (batch : BlockBatch) (tx : Transaction) :
    List (Outpoint × UtxoEntry) :=
  tx.inputs.filterMap fun input =>
    (batch.getUtxo (inputOutpoint input)).map fun entry =>
      (inputOutpoint input, entry)

/-- `let _ = batch.spend_utxo(..)` -/
def spendOrKeep (batch : BlockBatch) (outpoint : Outpoint) : BlockBatch :=
  match batch.spendUtxo outpoint with
  | .ok (next, _) => next
  | .error _ => batch

/-- Below the explicit-input height an EpochReward empties the pool. -/
def consumeEpochPool (ctx : BlockContext) (tx : Transaction)
    (state : UtxoState) : UtxoState :=
  if tx.txType = .epochReward ∧ ctx.height < epochRewardExplicitInputsHeight then
    let rows :=
      state.batch.getUtxosByPubkey (rewardPoolPubkeyHash ctx.utxo.prim)
    { state with
      batch := rows.foldl (fun batch row => spendOrKeep batch row.1) state.batch
      undoSpent := state.undoSpent ++ rows }
  else state

def slashBurnOwner (ctx : UtxoContext) (height : Nat) (tx : Transaction) :
    Option Hash :=
  if tx.txType ≠ .slashProducer ∨
      height < ctx.params.effectiveSlashingActivationHeight then none
  else (tx.slashData ctx.prim).map fun data =>
    ctx.prim.addressOf data.producerPubkey

/-- A burned row created earlier in the block stays out of the undo data. -/
def burnRows (height : Nat) :
    List (Outpoint × UtxoEntry) → UtxoState → Except ApplyError UtxoState
  | [], state => .ok state
  | (outpoint, entry) :: rows, state =>
      if isSlashBurnable entry.output height then
        match state.batch.spendUtxo outpoint with
        | .error error => .error (.slashBurn error)
        | .ok (next, _) =>
            burnRows height rows
              { state with
                batch := next
                undoSpent :=
                  if outpoint ∈ state.undoCreated then state.undoSpent
                  else state.undoSpent ++ [(outpoint, entry)] }
      else burnRows height rows state

def slashBurnInBatch (ctx : BlockContext) (tx : Transaction)
    (state : UtxoState) : Except ApplyError UtxoState :=
  match slashBurnOwner ctx.utxo ctx.height tx with
  | none => .ok state
  | some owner =>
      burnRows ctx.height (state.batch.getUtxosByPubkey owner) state

/-- The id an output would mint, where the duplicate check looks at it. -/
def mintedId (txType : TxType) (output : Output) : Option UidKey :=
  match output.outputType with
  | .nft => output.nftMetadata.map fun metadata => (.nft, metadata.1)
  | .pool =>
      if txType = .createPool then
        output.poolMetadata.map fun metadata => (.pool, metadata.poolId)
      else none
  | _ => none

def duplicateError : UidKey → ApplyError
  | (.pool, id) => .poolExists id
  | (_, id) => .nftExists id

def checkDuplicateIds (batch : BlockBatch) (txType : TxType) :
    List Output → Except ApplyError Unit
  | [] => .ok ()
  | output :: outputs =>
      match mintedId txType output with
      | some uid =>
          if batch.hasUniqueIdCheck uid then .error (duplicateError uid)
          else checkDuplicateIds batch txType outputs
      | none => checkDuplicateIds batch txType outputs

def createdOutpoints (prim : Primitives) (tx : Transaction) : List Outpoint :=
  (List.range tx.outputs.length).map (Outpoint.ofOutput (prim.txHash tx))

def validateStage (ctx : BlockContext) (tx : Transaction) (reward : Bool)
    (batch : BlockBatch) : Except ApplyError Unit :=
  if reward then .ok ()
  else
    match ctx.utxo.validateTransactionWithUtxos ctx.height tx batch.getUtxo with
    | .ok () => .ok ()
    | .error error =>
        if ctx.mode = .replay then .ok () else .error (.utxoValidation error)

def spendStage (ctx : BlockContext) (tx : Transaction) (reward : Bool)
    (batch : BlockBatch) : Except ApplyError BlockBatch :=
  if reward then .ok batch
  else
    match batch.spendTransactionUtxos tx with
    | (next, .ok _) => .ok next
    | (next, .error error) =>
        if ctx.mode = .replay then .ok next else .error (.spendTransaction error)

def captureStage (tx : Transaction) (reward : Bool) (state : UtxoState) :
    UtxoState :=
  if reward then state
  else { state with undoSpent := state.undoSpent ++ captureInputs state.batch tx }

def addStage (ctx : BlockContext) (tx : Transaction) (reward : Bool)
    (state : UtxoState) (batch : BlockBatch) : UtxoState :=
  { state with
    batch := batch.addTransactionUtxos ctx.utxo.prim tx ctx.height reward ctx.slot
    undoCreated := state.undoCreated ++ createdOutpoints ctx.utxo.prim tx }

/-- `process_transaction_utxos` -/
def processTransactionUtxos (ctx : BlockContext) (txIndex : Nat)
    (tx : Transaction) (state : UtxoState) : Except ApplyError UtxoState :=
  let reward := isRewardTx txIndex tx
  let captured := consumeEpochPool ctx tx (captureStage tx reward state)
  match validateStage ctx tx reward captured.batch with
  | .error error => .error error
  | .ok () =>
      match slashBurnInBatch ctx tx captured with
      | .error error => .error error
      | .ok burned =>
          match checkDuplicateIds burned.batch tx.txType tx.outputs with
          | .error error => .error error
          | .ok () =>
              match spendStage ctx tx reward burned.batch with
              | .error error => .error error
              | .ok spent => .ok (addStage ctx tx reward burned spent)

/-! ## Whole blocks -/

def UtxoState.initial (db : StateDb) : UtxoState where
  batch := db.beginBatch
  undoSpent := []
  undoCreated := []

def processStep (ctx : BlockContext) (state : UtxoState)
    (item : Transaction × Nat) : Except ApplyError UtxoState :=
  processTransactionUtxos ctx item.2 item.1 state

def processTransactions (ctx : BlockContext) (txs : List Transaction)
    (db : StateDb) : Except ApplyError UtxoState :=
  run (processStep ctx) txs.zipIdx (UtxoState.initial db)

/-- The aggregate price of one pair at an epoch boundary. -/
structure PairPrice where
  pairId : Hash
  priceCents : Nat
  contributorCount : Nat

def oraclePriceAddress (prim : Primitives) (pairId : Hash) : Hash :=
  prim.hashWithDomain (ascii "ORACLE_PRICE") pairId.asBytes

def oraclePriceOutpoint (prim : Primitives) (pairId : Hash) : Outpoint :=
  ⟨oraclePriceAddress prim pairId, 0⟩

def oraclePriceEntry (prim : Primitives) (height : Nat) (price : PairPrice) :
    UtxoEntry where
  output :=
    { outputType := .oraclePrice
      amount := 0
      pubkeyHash := oraclePriceAddress prim price.pairId
      lockUntil := 0
      extraData := leBytes 8 price.priceCents ++ leBytes 8 height ++
        leBytes 2 price.contributorCount ++ price.pairId.asBytes }
  height := height
  isCoinbase := false
  isEpochReward := false

/-- Spend the price output of the previous epoch, if the overlay shows it. -/
def consumeOraclePrice (state : UtxoState) (outpoint : Outpoint) : UtxoState :=
  match state.batch.getUtxo outpoint with
  | none => state
  | some previous =>
      { state with
        batch := spendOrKeep state.batch outpoint
        undoSpent := state.undoSpent ++ [(outpoint, previous)] }

/-- Consume the previous price and add the new one at the same outpoint. -/
def replaceOraclePrice (ctx : BlockContext) (state : UtxoState)
    (price : PairPrice) : UtxoState :=
  let outpoint := oraclePriceOutpoint ctx.utxo.prim price.pairId
  let consumed := consumeOraclePrice state outpoint
  { consumed with
    batch := consumed.batch.addUtxo outpoint
      (oraclePriceEntry ctx.utxo.prim ctx.height price)
    undoCreated := consumed.undoCreated ++ [outpoint] }

def replaceOraclePrices (ctx : BlockContext) (prices : List PairPrice)
    (state : UtxoState) : UtxoState :=
  prices.foldl (replaceOraclePrice ctx) state

structure UndoData where
  spentUtxos : List (Outpoint × UtxoEntry)
  createdUtxos : List Outpoint

/-- Apply the UTXO side of a block: the committed store and its undo data. -/
def applyBlockUtxos (ctx : BlockContext) (txs : List Transaction)
    (prices : List PairPrice) (db : StateDb) :
    Except ApplyError (StateDb × UndoData) :=
  match processTransactions ctx txs db with
  | .error error => .error error
  | .ok state =>
      let final := replaceOraclePrices ctx prices state
      .ok (final.batch.commit, ⟨final.undoSpent, final.undoCreated⟩)

/-- The UTXO part of `rollback_one_block` and of a reorg: remove what the
block created, then put back what it spent. -/
def rollbackUtxos (undo : UndoData) (db : StateDb) : StateDb :=
  let removed := undo.createdUtxos.foldl StateDb.removeUtxo db
  undo.spentUtxos.foldl (fun db row => db.insertUtxo row.1 row.2) removed

/-- A block of the chain with the oracle prices it replaces. -/
structure ChainBlock where
  height : Nat
  slot : Nat
  mode : ValidationMode
  txs : List Transaction
  prices : List PairPrice

def ChainBlock.context (utxo : UtxoContext) (block : ChainBlock) : BlockContext :=
  ⟨utxo, block.height, block.slot, block.mode⟩

/-! ## An executable instance -/

def sampleBlockContext : BlockContext where
  utxo := sampleUtxoContext
  height := 20
  slot := 20
  mode := .full

def sampleInput (outpoint : Outpoint) : Input where
  prevTxHash := outpoint.txHash
  outputIndex := outpoint.index
  signature := ⟨1⟩
  sighashType := .all
  committedOutputCount := 0
  publicKey := none

def sampleOutput (amount : Nat) (owner : Hash) : Output where
  outputType := .normal
  amount := amount
  pubkeyHash := owner
  lockUntil := 0
  extraData := []

/-- A coinbase: height and slot make its id unique. -/
def sampleCoinbase : Transaction where
  version := 1
  txType := .transfer
  inputs := []
  outputs := [sampleOutput 1 (rewardPoolPubkeyHash samplePrimitives)]
  extraData := leBytes 8 20 ++ leBytes 4 20

def sampleTransfer (inputs : List Outpoint) (outputs : List Output) :
    Transaction where
  version := 1
  txType := .transfer
  inputs := inputs.map sampleInput
  outputs := outputs
  extraData := []

/-- A store with the given rows and an exact owner index. -/
def sampleDb (rows : List (Outpoint × UtxoEntry)) : StateDb :=
  rows.foldl (fun db row => db.insertUtxo row.1 row.2) .empty

def sampleEntry (output : Output) : UtxoEntry where
  output := output
  height := 5
  isCoinbase := false
  isEpochReward := false

end Doli.Node
