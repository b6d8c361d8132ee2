import Doli.Storage.StateDb
import Mathlib.Data.List.AList

/-!
# The block overlay

`BlockBatch` accumulates the writes of one block.  Reads check the pending
rows first and fall through to the committed store.
-/

namespace Doli.Storage

open Doli.Core Doli.Lib

structure BlockBatch where
  db : StateDb
  utxoOps : List (WriteOp Outpoint UtxoEntry)
  indexOps : List (WriteOp (Hash × Outpoint) Unit)
  uniqueIdOps : List (WriteOp UidKey Unit)
  pendingUtxos : AList fun _ : Outpoint => UtxoEntry
  spentInBatch : List Outpoint
  pendingUniqueIds : Finset UidKey
  removedUniqueIds : Finset UidKey

def StateDb.beginBatch (db : StateDb) : BlockBatch where
  db := db
  utxoOps := []
  indexOps := []
  uniqueIdOps := []
  pendingUtxos := ∅
  spentInBatch := []
  pendingUniqueIds := ∅
  removedUniqueIds := ∅

inductive StorageError where
  | notFound (outpoint : Outpoint)
  deriving DecidableEq, Repr

namespace BlockBatch

/-! ## Unique ids -/

def addPendingUniqueId (batch : BlockBatch) (uid : UidKey) : BlockBatch :=
  { batch with
    pendingUniqueIds := insert uid batch.pendingUniqueIds
    removedUniqueIds := batch.removedUniqueIds.erase uid
    uniqueIdOps := batch.uniqueIdOps ++ [.put uid ()] }

def removePendingUniqueId (batch : BlockBatch) (uid : UidKey) : BlockBatch :=
  { batch with
    pendingUniqueIds := batch.pendingUniqueIds.erase uid
    removedUniqueIds := insert uid batch.removedUniqueIds
    uniqueIdOps := batch.uniqueIdOps ++ [.delete uid] }

def hasUniqueIdCheck (batch : BlockBatch) (uid : UidKey) : Bool :=
  if uid ∈ batch.pendingUniqueIds then true
  else if uid ∈ batch.removedUniqueIds then false
  else batch.db.hasUniqueId uid

def addUniqueIdForEntry (batch : BlockBatch) (entry : UtxoEntry) : BlockBatch :=
  match uniqueIdOf entry.output with
  | some uid => batch.addPendingUniqueId uid
  | none => batch

def removeUniqueIdForEntry (batch : BlockBatch) (entry : UtxoEntry) :
    BlockBatch :=
  match uniqueIdOf entry.output with
  | some uid => batch.removePendingUniqueId uid
  | none => batch

/-! ## Overlay reads -/

def getUtxo (batch : BlockBatch) (outpoint : Outpoint) : Option UtxoEntry :=
  if outpoint ∈ batch.spentInBatch then none
  else
    match batch.pendingUtxos.lookup outpoint with
    | some entry => some entry
    | none => batch.db.getUtxo outpoint

def containsUtxo (batch : BlockBatch) (outpoint : Outpoint) : Bool :=
  if outpoint ∈ batch.spentInBatch then false
  else if outpoint ∈ batch.pendingUtxos then true
  else (batch.db.getUtxo outpoint).isSome

/-- Pending rows owned by the key, in the map's iteration order. -/
def pendingOf (batch : BlockBatch) (pubkeyHash : Hash) :
    List (Outpoint × UtxoEntry) :=
  batch.pendingUtxos.entries.filterMap fun row =>
    if row.2.output.pubkeyHash = pubkeyHash then some (row.1, row.2) else none

def getUtxosByPubkey (batch : BlockBatch) (pubkeyHash : Hash) :
    List (Outpoint × UtxoEntry) :=
  let results := (batch.db.getUtxosByPubkey pubkeyHash).filter fun row =>
    row.1 ∉ batch.spentInBatch
  results ++ (batch.pendingOf pubkeyHash).filter fun row =>
    row.1 ∉ results.map Prod.fst

/-! ## Writes -/

def addUtxo (batch : BlockBatch) (outpoint : Outpoint) (entry : UtxoEntry) :
    BlockBatch :=
  { batch with
    utxoOps := batch.utxoOps ++ [.put outpoint entry]
    indexOps := batch.indexOps ++ [.put (entry.output.pubkeyHash, outpoint) ()]
    pendingUtxos := batch.pendingUtxos.insert outpoint entry }

/-- The row a spend consumes: pending first, then the committed store. -/
def spendableEntry (batch : BlockBatch) (outpoint : Outpoint) :
    Option UtxoEntry :=
  match batch.pendingUtxos.lookup outpoint with
  | some entry => some entry
  | none => batch.db.getUtxo outpoint

/-- The writes of a spend once its row is known. -/
def recordSpend (batch : BlockBatch) (outpoint : Outpoint) (entry : UtxoEntry) :
    BlockBatch :=
  removeUniqueIdForEntry
    { batch with
      pendingUtxos := batch.pendingUtxos.erase outpoint
      utxoOps := batch.utxoOps ++ [.delete outpoint]
      indexOps :=
        batch.indexOps ++ [.delete (entry.output.pubkeyHash, outpoint)]
      spentInBatch := batch.spentInBatch ++ [outpoint] }
    entry

/-- A spend does not consult `spentInBatch`. -/
def spendUtxo (batch : BlockBatch) (outpoint : Outpoint) :
    Except StorageError (BlockBatch × UtxoEntry) :=
  match batch.spendableEntry outpoint with
  | none => .error (.notFound outpoint)
  | some entry => .ok (batch.recordSpend outpoint entry, entry)

/-- The batch and the native total; on an error the spends before the missing
input stay in the batch. -/
def spendInputs : List Input → BlockBatch → Nat →
    BlockBatch × Except StorageError Nat
  | [], batch, total => (batch, .ok total)
  | input :: inputs, batch, total =>
      match batch.spendUtxo (inputOutpoint input) with
      | .error error => (batch, .error error)
      | .ok (next, entry) =>
          spendInputs inputs next
            (if entry.output.outputType.isNativeAmount then
              (total + entry.output.amount) % 2 ^ 64
            else total)

def spendTransactionUtxos (batch : BlockBatch) (tx : Transaction) :
    BlockBatch × Except StorageError Nat :=
  spendInputs tx.inputs batch 0

end BlockBatch

/-! ## Stamping -/

/-- The pool record a block at `slot` stores in place of the declared one. -/
def stampPool (metadata : PoolMetadata) (slot : Nat) : PoolMetadata :=
  { metadata with
    creationSlot := if metadata.creationSlot = 0 then slot else metadata.creationSlot
    cumulativePrice :=
      if metadata.lastUpdateSlot > 0 ∧ slot > metadata.lastUpdateSlot ∧
          metadata.reserveB > 0 then
        updateTwap metadata.cumulativePrice metadata.reserveA metadata.reserveB
          slot metadata.lastUpdateSlot
      else metadata.cumulativePrice
    lastUpdateSlot := slot }

/-- The output that is stored for a declared output. -/
def stampOutput (output : Output) (slot : Nat) : Output :=
  match output.outputType with
  | .bond => { output with extraData := leBytes 4 slot }
  | .pool =>
      match output.poolMetadata with
      | some metadata => .pool (stampPool metadata slot)
      | none => output
  | _ => output

namespace BlockBatch

def addOutputs (txHash : Hash) (height slot : Nat)
    (isCoinbase isEpochReward : Bool) :
    List Output → Nat → BlockBatch → BlockBatch
  | [], _, batch => batch
  | output :: outputs, position, batch =>
      let entry : UtxoEntry :=
        { output := stampOutput output slot
          height := height
          isCoinbase := isCoinbase
          isEpochReward := isEpochReward }
      addOutputs txHash height slot isCoinbase isEpochReward outputs (position + 1)
        ((batch.addUniqueIdForEntry entry).addUtxo
          (.ofOutput txHash position) entry)

def addTransactionUtxos (prim : Primitives) (batch : BlockBatch)
    (tx : Transaction) (height : Nat) (isCoinbase : Bool) (slot : Nat) :
    BlockBatch :=
  batch.addOutputs (prim.txHash tx) height slot isCoinbase tx.isEpochReward
    tx.outputs 0

/-- Apply the write batch to the committed store. -/
def commit (batch : BlockBatch) : StateDb where
  utxo := Lib.commit batch.utxoOps batch.db.utxo
  utxoByPubkey := commitRows batch.indexOps batch.db.utxoByPubkey
  uniqueIds := commitSet batch.uniqueIdOps batch.db.uniqueIds

end BlockBatch

end Doli.Storage
