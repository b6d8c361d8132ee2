import Doli.Storage.Overlay

/-!
# Direct writes to the UTXO set

`UtxoSet` over the committed store, as the rebuild uses it: every write goes
to the store at once, a missing input is skipped, and outputs are stamped by a
second copy of the code.
-/

namespace Doli.Storage

open Doli.Core Doli.Lib

/-- The output that the direct write stores for a declared output: only a Bond
is stamped, over the first four bytes of what it carries. -/
def directStamp (output : Output) (slot : Nat) : Output :=
  if output.outputType = .bond ∧ 4 ≤ output.extraData.length then
    { output with extraData := leBytes 4 slot ++ output.extraData.drop 4 }
  else output

def directRows (txHash : Hash) (height slot : Nat) (isCoinbase : Bool) :
    List Output → Nat → List (Outpoint × UtxoEntry)
  | [], _ => []
  | output :: outputs, position =>
      (.ofOutput txHash position,
        { output := directStamp output slot
          height := height
          isCoinbase := isCoinbase
          isEpochReward := false }) ::
        directRows txHash height slot isCoinbase outputs (position + 1)

namespace StateDb

def addOutputs (txHash : Hash) (height slot : Nat) (isCoinbase : Bool) :
    List Output → Nat → StateDb → StateDb
  | [], _, db => db
  | output :: outputs, position, db =>
      addOutputs txHash height slot isCoinbase outputs (position + 1)
        (db.insertUtxo (.ofOutput txHash position)
          { output := directStamp output slot
            height := height
            isCoinbase := isCoinbase
            isEpochReward := false })

/-- `UtxoSet::add_transaction` -/
def addTransaction (prim : Primitives) (db : StateDb) (tx : Transaction)
    (height : Nat) (isCoinbase : Bool) (slot : Nat) : StateDb :=
  addOutputs (prim.txHash tx) height slot isCoinbase tx.outputs 0 db

def spendDirect : List Input → StateDb → Nat → StateDb × Nat
  | [], db, total => (db, total)
  | input :: inputs, db, total =>
      match db.getUtxo (inputOutpoint input) with
      | some entry =>
          spendDirect inputs (db.removeUtxo (inputOutpoint input))
            (min (total + entry.output.amount) (2 ^ 64 - 1))
      | none => spendDirect inputs db total

/-- `UtxoSet::spend_transaction` -/
def spendTransaction (db : StateDb) (tx : Transaction) : StateDb × Nat :=
  spendDirect tx.inputs db 0

/-! ## What the writes do -/

theorem directRows_eq_newRows {txHash : Hash} {height slot : Nat}
    {isCoinbase : Bool} {outputs : List Output}
    (hstamps : ∀ output ∈ outputs, directStamp output slot = stampOutput output slot)
    (position : Nat) :
    directRows txHash height slot isCoinbase outputs position =
      BlockBatch.newRows txHash height slot isCoinbase false outputs position := by
  induction outputs generalizing position with
  | nil => rfl
  | cons output outputs ih =>
      have hrest := ih fun other hother =>
        hstamps other (List.mem_cons_of_mem _ hother)
      simp only [directRows, BlockBatch.newRows, hrest,
        hstamps output List.mem_cons_self]

theorem addOutputs_eq (txHash : Hash) (height slot : Nat) (isCoinbase : Bool)
    (outputs : List Output) (position : Nat) (db : StateDb) :
    addOutputs txHash height slot isCoinbase outputs position db =
      (directRows txHash height slot isCoinbase outputs position).foldl
        (fun db row => db.insertUtxo row.1 row.2) db := by
  induction outputs generalizing position db with
  | nil => rfl
  | cons output outputs ih => simp [addOutputs, directRows, ih]

theorem spendDirect_eq (inputs : List Input) (db : StateDb) (total : Nat) :
    (spendDirect inputs db total).1 =
      (inputs.map inputOutpoint).foldl StateDb.removeUtxo db := by
  induction inputs generalizing db total with
  | nil => rfl
  | cons input inputs ih =>
      cases hget : db.getUtxo (inputOutpoint input) with
      | some entry => simp [spendDirect, hget, ih]
      | none =>
          have hremove : db.removeUtxo (inputOutpoint input) = db := by
            unfold removeUtxo
            rw [show db.utxo.lookup (inputOutpoint input) = none from hget]
          simp [spendDirect, hget, ih, hremove]

end StateDb

end Doli.Storage
