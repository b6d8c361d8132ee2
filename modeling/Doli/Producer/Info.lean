import Doli.Storage.StateDb

/-!
# One producer

`ProducerInfo` with the operations that change its bonds.  No operation updates
the counters that start at zero by default.
-/

namespace Doli.Producer

open Doli.Core Doli.Lib Doli.Storage

def maxBondsPerProducer : Nat := 3000

/-- `BOND_UNIT` of the consensus constants. -/
def coreBondUnit : Nat := 1000000000

/-- `BOND_UNIT` of the producer storage. -/
def storageBondUnit : Nat := 1000000000

/-- `u32::saturating_add` -/
def satAdd (left right : Nat) : Nat := min (left + right) (2 ^ 32 - 1)

/-- `u64::saturating_add` -/
def satAddAmount (left right : Nat) : Nat := min (left + right) (2 ^ 64 - 1)

inductive ProducerStatus where
  | active
  | unbonding (startedAt : Nat)
  | exited
  | slashed (slashedAt : Nat)
  deriving DecidableEq, Repr

structure StoredBondEntry where
  creationSlot : Nat
  amount : Nat
  deriving DecidableEq, Repr

structure ProducerInfo where
  publicKey : PublicKey
  registeredAt : Nat
  bondAmount : Nat
  bondOutpoint : Outpoint
  status : ProducerStatus
  blocksProduced : Nat := 0
  slotsMissed : Nat := 0
  registrationEra : Nat
  pendingRewards : Nat := 0
  hasPriorExit : Bool
  lastActivity : Nat
  activityGaps : Nat := 0
  bondCount : Nat
  additionalBonds : List Outpoint
  delegatedTo : Option PublicKey
  delegatedBonds : Nat
  receivedDelegations : List (Hash × Nat)
  bondEntries : List StoredBondEntry
  withdrawalPendingCount : Nat
  blsPubkey : Bytes
  deriving DecidableEq, Repr

namespace ProducerInfo

def newWithBonds (publicKey : PublicKey) (registeredAt bondAmount : Nat)
    (bondOutpoint : Outpoint) (registrationEra bondCount : Nat) : ProducerInfo :=
  let count := max 1 (min bondCount maxBondsPerProducer)
  { publicKey := publicKey
    registeredAt := registeredAt
    bondAmount := bondAmount
    bondOutpoint := bondOutpoint
    status := .active
    registrationEra := registrationEra
    hasPriorExit := false
    lastActivity := registeredAt
    bondCount := count
    additionalBonds := []
    delegatedTo := none
    delegatedBonds := 0
    receivedDelegations := []
    bondEntries := List.replicate count
      { creationSlot := registeredAt % 2 ^ 32, amount := bondAmount / count }
    withdrawalPendingCount := 0
    blsPubkey := [] }

/-- The count comes from the amount; the entries hold a unit each. -/
def newWithPriorExit (publicKey : PublicKey) (registeredAt bondAmount : Nat)
    (bondOutpoint : Outpoint) (registrationEra bondUnit : Nat) : ProducerInfo :=
  let unit := if bondUnit = 0 then storageBondUnit else bondUnit
  let count := max (min (bondAmount / unit) maxBondsPerProducer) 1
  { publicKey := publicKey
    registeredAt := registeredAt
    bondAmount := bondAmount
    bondOutpoint := bondOutpoint
    status := .active
    registrationEra := registrationEra
    hasPriorExit := true
    lastActivity := registeredAt
    bondCount := count
    additionalBonds := []
    delegatedTo := none
    delegatedBonds := 0
    receivedDelegations := []
    bondEntries := List.replicate count
      { creationSlot := registeredAt % 2 ^ 32, amount := unit }
    withdrawalPendingCount := 0
    blsPubkey := [] }

variable (info : ProducerInfo)

/-- A record stored before there were entries gets one for each of its bonds. -/
def migrateBondEntries (bondUnit : Nat) : ProducerInfo :=
  if info.bondEntries.isEmpty ∧ 0 < info.bondCount then
    { info with
      bondEntries := List.replicate info.bondCount
        { creationSlot := info.registeredAt % 2 ^ 32
          amount := if bondUnit = 0 then coreBondUnit else bondUnit } }
  else info

/-- An unbonding producer still counts as active. -/
def isActive : Bool :=
  match info.status with
  | .active => true
  | .unbonding _ => true
  | _ => false

def isSlashed : Bool :=
  match info.status with
  | .slashed _ => true
  | _ => false

def isUnbondingComplete (height duration : Nat) : Bool :=
  match info.status with
  | .unbonding startedAt => startedAt + duration ≤ height
  | _ => false

def startUnbonding (height : Nat) : ProducerInfo :=
  { info with status := .unbonding height }

def completeExit : ProducerInfo :=
  { info with status := .exited }

def slash (height : Nat) : ProducerInfo :=
  { info with status := .slashed height }

/-- The updated producer and the number of bonds taken. -/
def addBonds (outpoints : List Outpoint) (amountPerBond creationSlot : Nat) :
    ProducerInfo × Nat :=
  if info.isActive then
    let bondsToAdd :=
      min (outpoints.length % 2 ^ 32) (maxBondsPerProducer - info.bondCount)
    let taken := outpoints.take bondsToAdd
    ({ info with
        additionalBonds := info.additionalBonds ++ taken
        bondAmount := taken.foldl (fun total _ => satAddAmount total amountPerBond)
          info.bondAmount
        bondEntries := info.bondEntries ++
          taken.map fun _ => { creationSlot := creationSlot, amount := amountPerBond }
        bondCount := info.bondCount + bondsToAdd },
      bondsToAdd)
  else (info, 0)

/-- Take `count` bonds off the ledger, and their value at `unit` each. -/
def dropBonds (count unit : Nat) : ProducerInfo :=
  { info with
    bondCount := info.bondCount - count
    bondAmount := info.bondAmount - count * unit % 2 ^ 64
    withdrawalPendingCount := info.withdrawalPendingCount - count }

/-- The oldest entries go first; what exceeds the entries is taken off the
count alone. -/
def takeWithdrawal (count unit : Nat) : ProducerInfo :=
  let toRemove := min count (info.bondEntries.length % 2 ^ 32)
  let drained : ProducerInfo :=
    { info.dropBonds toRemove unit with
      bondEntries := info.bondEntries.drop toRemove
      additionalBonds := info.additionalBonds.drop toRemove }
  let remaining := count - toRemove
  if 0 < remaining ∧ 0 < drained.bondCount then
    drained.dropBonds (min remaining drained.bondCount) unit
  else drained

/-- A producer left without bonds exits, unless it was slashed. -/
def applyWithdrawal (count bondUnit : Nat) : ProducerInfo :=
  let taken := info.takeWithdrawal count
    (if bondUnit = 0 then coreBondUnit else bondUnit)
  if taken.bondCount = 0 ∧ !taken.isSlashed then taken.completeExit else taken

def receivedTotal : Nat :=
  (info.receivedDelegations.map Prod.snd).sum

/-- The delegated bonds leave the own weight from `auditActivation` on. -/
def selectionWeightAt (height auditActivation : Nat) : Nat :=
  if info.isActive then
    (if auditActivation ≤ height then info.bondCount - info.delegatedBonds
      else info.bondCount) + info.receivedTotal
  else 0

/-! ## Delegation fields -/

def clearDelegation : ProducerInfo :=
  { info with delegatedTo := none, delegatedBonds := 0 }

def setDelegation (delegatee : PublicKey) (bonds : Nat) : ProducerInfo :=
  { info with delegatedTo := some delegatee, delegatedBonds := bonds }

def pushReceived (delegator : Hash) (bonds : Nat) : ProducerInfo :=
  { info with
    receivedDelegations := info.receivedDelegations ++ [(delegator, bonds)] }

/-- `received_delegations.retain(|(hash, _)| hash != delegator)` -/
def dropReceived (delegator : Hash) : ProducerInfo :=
  { info with
    receivedDelegations :=
      info.receivedDelegations.filter fun row => row.1 ≠ delegator }

def clearAllDelegations : ProducerInfo :=
  { info with
    receivedDelegations := [], delegatedTo := none, delegatedBonds := 0 }

end ProducerInfo

end Doli.Producer
