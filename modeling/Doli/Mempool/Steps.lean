import Doli.Core.Maintainer
import Doli.Mempool.Admission

/-!
# The operations of the mempool

The user lane, the system lane and everything that takes transactions out, and the runs
they make up.  An operation that refuses still keeps the watermark and the evictions that
it made.
-/

namespace Doli

open Doli.Core Doli.Lib Doli.Storage Doli.Producer Doli.Node
open Validation (validateTransaction)

structure AddTransactionResult where
  txHash : Hash
  contention : Option ContentionInfo
  deriving DecidableEq, Repr

section

variable (config : MempoolConfig)

/-! ## Zero-flow transactions -/

/-- The types whose authorization the zero-flow policy verifies; it passes every other. -/
def isAuthenticated : TxType → Bool
  | .delegateBond => true
  | .revokeDelegation => true
  | .addMaintainer => true
  | .removeMaintainer => true
  | _ => false

def changeKey (tx : Transaction) : Option ChangeKey :=
  match tx.txType with
  | .delegateBond => tx.delegateBondData.map fun data => .delegator data.delegator
  | .revokeDelegation => tx.revokeDelegationData.map fun data => .delegator data.delegator
  | .addMaintainer => (config.changeTarget tx.extraData).map (.maintainer true)
  | .removeMaintainer => (config.changeTarget tx.extraData).map (.maintainer false)
  | _ => none

namespace ChangeKey

def isMaintainer : ChangeKey → Bool
  | .maintainer .. => true
  | .delegator _ => false

def sameAction : ChangeKey → ChangeKey → Bool
  | .maintainer isAdd _, .maintainer other _ => isAdd = other
  | _, _ => false

end ChangeKey

namespace Mempool

/-- `ChangeIndex::probe` -/
def probe (pool : Mempool) : Option ChangeKey → Except MempoolError Unit
  | none => .ok ()
  | some key => do
      let live := pool.changeIndex.filter fun row => decide (row.2 ∈ pool.entries)
      refuseIf (key ∈ live.map Prod.fst) .alreadyExists
      refuseIf (key.isMaintainer = true ∧
          maxMaintainers ≤ (live.filter fun row => key.sameAction row.1).length)
        (.invalidTransaction (.changesAtCap maxMaintainers))

/-- A maintainer change first drops the keys whose transaction has left. -/
def pruneChanges (pool : Mempool) (key : Option ChangeKey) : Mempool :=
  if key.any ChangeKey.isMaintainer then
    { pool with changeIndex := pool.changeIndex.filter fun row => decide (row.2 ∈ pool.entries) }
  else pool

def recordChange (pool : Mempool) (txHash : Hash) : Option ChangeKey → Mempool
  | none => pool
  | some key =>
      { pool with
        changeIndex := (key, txHash) :: pool.changeIndex.filter fun row => row.1 ≠ key }

def watch (pool : Mempool) (slot : Nat) : Mempool :=
  { pool with slotWatermark := max pool.slotWatermark slot }

end Mempool

/-! ## The two lanes -/

/-- The admitted transaction takes its place once there is room. -/
def insertAdmitted (pool : Mempool) (db : StateDb) (tx : Transaction)
    (now : Nat) (admission : Admission) :
    Mempool × Except MempoolError AddTransactionResult :=
  match pool.makeRoom (config.size tx) with
  | (full, false) => (full, .error .full)
  | (room, true) =>
      let entry : MempoolEntry :=
        { MempoolEntry.new admission.txHash (config.size tx) now tx admission.fee with
          evictExempt := admission.slashExempt }
      let placed := room.place admission.txHash entry admission.ancestors
        admission.poolOutpoint
      (placed.removeAll
          (withdrawalsForSlash config.gates.base admission.judged placed db tx),
        .ok ⟨admission.txHash, admission.contention⟩)

def addTransaction (view : NodeView) (pool : Mempool) (db : StateDb) (tx : Transaction)
    (now height slot : Nat) : Mempool × Except MempoolError AddTransactionResult :=
  match admissionOf config view (pool.watch slot) db tx height slot with
  | .error error => (pool.watch slot, .error error)
  | .ok admission => insertAdmitted config (pool.watch slot) db tx now admission

def checkSystemTransaction (view : NodeView)
    (policy : Transaction → Nat → Except MempoolError Unit) (pool : Mempool)
    (tx : Transaction) (height : Nat) : Except MempoolError Unit := do
  let txHash := config.prim.txHash tx
  refuseIf (txHash ∈ pool.entries) .alreadyExists
  refuseIf (pool.policy.maxTxSize < config.size tx)
    (.tooLarge (config.size tx) pool.policy.maxTxSize)
  let ctx := config.systemCtx view height (pendingKeysFor config view pool tx txHash)
  (validateTransaction config.gates.rules.withPools ctx tx).mapError .validation
  (registrantRefusal view ctx tx).mapError .validation
  checkWhen (isAuthenticated tx.txType) (policy tx height)
  pool.probe (changeKey config tx)

/-- `policy` is the zero-flow policy over the snapshot of the call.  Neither inputs nor
outputs are indexed. -/
def addSystemTransaction (view : NodeView)
    (policy : Transaction → Nat → Except MempoolError Unit) (pool : Mempool)
    (tx : Transaction) (now height : Nat) : Mempool × Except MempoolError Hash :=
  match checkSystemTransaction config view policy pool tx height with
  | .error error => (pool, .error error)
  | .ok () =>
      let txHash := config.prim.txHash tx
      match (pool.pruneChanges (changeKey config tx)).makeRoom (config.size tx) with
      | (full, false) => (full, .error .full)
      | (room, true) =>
          let entered := room.enter txHash (.new txHash (config.size tx) now tx 0)
          (entered.recordChange txHash (changeKey config tx), .ok txHash)

/-! ## Removal -/

def removeForBlock (pool : Mempool) (txs : List Transaction) : Mempool :=
  pool.removeAll (txs.map config.prim.txHash)

def Mempool.expireOld (pool : Mempool) (now : Nat) : Mempool :=
  pool.removeAll (pool.select fun entry =>
    !entry.evictExempt && decide (pool.policy.maxAge < entry.age now))

/-- The checks of `revalidate` on one entry: every input is in the UTXO set, and the rules on
bonds still hold. -/
def stillValid (view : NodeView) (pool : Mempool) (db : StateDb) (height : Nat)
    (tx : Transaction) : Bool :=
  (tx.inputs.all fun input => (db.getUtxo (inputOutpoint input)).isSome) &&
    decide (withdrawalVerdict config view pool db tx height false false = .ok ()) &&
      decide (bondSpendRefusal config tx (slashBondOwners config pool height) db = .ok ()) &&
        decide (addbondHoldingsVerdict config view tx height = .ok ())

def toRemove (view : NodeView) (pool : Mempool) (db : StateDb) (height slot : Nat) :
    List Hash :=
  (pool.select fun entry => !stillValid config view pool db height entry.tx) ++
    registrationsThatBecameDuplicates config view pool ++
      slashRuleEvictions view (config.admissionBaseCtx view height slot []) pool db ++
        unmineableProducerTxs config pool height

def revalidate (view : NodeView) (pool : Mempool) (db : StateDb) (height slot : Nat) :
    Mempool :=
  (pool.watch slot).removeAll (toRemove config view (pool.watch slot) db height slot)

def Mempool.removeRegistrationTxs (pool : Mempool) : Mempool :=
  pool.removeAll (pool.select fun entry => entry.tx.txType = .registration)

def containsText (text part : String) : Bool := decide (part.toList <:+: text.toList)

/-- What can make a block fail with the error. -/
def isToxic (message : String) (tx : Transaction) : Bool :=
  ((containsText message "token_id" || containsText message "NFT") &&
      tx.outputs.any fun output =>
        output.outputType = .nft ∨ output.outputType = .encryptedContent) ||
    (containsText message "ool" && decide (tx.txType = .createPool)) ||
      (containsText message "egistration" && decide (tx.txType = .registration))

def Mempool.removeByErrorPattern (pool : Mempool) (message : String) : Mempool :=
  pool.removeAll (pool.select fun entry => isToxic message entry.tx)

/-! ## Runs -/

inductive MempoolOp where
  | addTransaction (view : NodeView) (db : StateDb) (tx : Transaction) (now height slot : Nat)
  | addSystemTransaction (view : NodeView)
      (policy : Transaction → Nat → Except MempoolError Unit) (tx : Transaction)
      (now height : Nat)
  | removeTransaction (hash : Hash)
  | evictLowestFee
  | removeForBlock (txs : List Transaction)
  | expireOld (now : Nat)
  | revalidate (view : NodeView) (db : StateDb) (height slot : Nat)
  | removeRegistrationTxs
  | removeByErrorPattern (message : String)

def mempoolStep (pool : Mempool) : MempoolOp → Mempool
  | .addTransaction view db tx now height slot =>
      (addTransaction config view pool db tx now height slot).1
  | .addSystemTransaction view policy tx now height =>
      (addSystemTransaction config view policy pool tx now height).1
  | .removeTransaction hash => pool.removeTransaction hash
  | .evictLowestFee => pool.evictLowestFee.getD pool
  | .removeForBlock txs => removeForBlock config pool txs
  | .expireOld now => pool.expireOld now
  | .revalidate view db height slot => revalidate config view pool db height slot
  | .removeRegistrationTxs => pool.removeRegistrationTxs
  | .removeByErrorPattern message => pool.removeByErrorPattern message

def mempoolRun (policy : MempoolPolicy) (ops : List MempoolOp) : Mempool :=
  ops.foldl (mempoolStep config) (Mempool.new policy)

end

end Doli
