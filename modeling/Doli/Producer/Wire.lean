import Doli.Core.ChainState
import Doli.Lib.Codec
import Doli.Lib.Listing
import Doli.Producer.Persisted
import Mathlib.Data.Prod.Lex
import Mathlib.Tactic.IntervalCases

/-!
# The wire form of the producer set and the chain state

bincode writes the fields in the order of their declaration: fixed-width
little-endian numbers, a length of eight bytes in front of a sequence and of the
bytes of a hash, a byte in front of an option, four bytes for a variant.  The
canonical form for the state root is written by hand.
-/

namespace Doli.Producer

open Doli.Core Doli.Lib Doli.Storage

/-! ## bincode -/

namespace Wire

def u32 : Codec Nat := .word 4

def u64 : Codec Nat := .word 8

def hash : Codec Hash :=
  Codec.bytes.refine (fun bytes => if bytes.length = 32 then some (.fromBytes bytes) else none)
    Hash.asBytes (fun _ => True)
    (fun value _ => ⟨by simp [Codec.bytes], by simp⟩)
    (fun _ _ _ => trivial)

/-- `PublicKey::try_from_slice` checks the point. -/
def publicKey (validKey : PublicKey → Bool) : Codec PublicKey :=
  Codec.bytes.refine
    (fun bytes => if bytes.length = 32 ∧ validKey (.fromBytes bytes) then
      some (.fromBytes bytes) else none)
    PublicKey.asBytes (fun key => validKey key = true)
    (fun key hvalid => ⟨by simp [Codec.bytes], by simp [hvalid]⟩)
    (fun bytes key hparse => by
      split at hparse
      case isTrue hvalid =>
        rw [← Option.some.inj hparse]
        exact hvalid.2
      case isFalse => simp at hparse)

def outpoint : Codec Outpoint :=
  (hash.pair u32).wrap (fun parts => ⟨parts.1, parts.2⟩)
    (fun outpoint => some (outpoint.txHash, outpoint.index)) fun _ => rfl

def status : Codec ProducerStatus :=
  .variant 4 4
    (fun
      | .active => 0
      | .unbonding _ => 1
      | .exited => 2
      | .slashed _ => 3)
    (fun
      | 0 => Codec.unit.wrap (fun _ => .active) (fun _ => some ()) Codec.some_unit
      | 1 => u64.wrap .unbonding
          (fun
            | .unbonding startedAt => some startedAt
            | _ => none) fun _ => rfl
      | 2 => Codec.unit.wrap (fun _ => .exited) (fun _ => some ()) Codec.some_unit
      | _ => u64.wrap .slashed
          (fun
            | .slashed slashedAt => some slashedAt
            | _ => none) fun _ => rfl)
    (by decide)
    (by
      intro tag htag value hlegal
      interval_cases tag <;> (obtain ⟨-, -, rfl⟩ := hlegal; rfl))

def bondEntry : Codec StoredBondEntry :=
  (u32.pair u64).wrap (fun parts => ⟨parts.1, parts.2⟩)
    (fun entry => some (entry.creationSlot, entry.amount)) fun _ => rfl

/-- The fields in the order of their declaration. -/
def infoFields (info : ProducerInfo) :=
  (info.publicKey, info.registeredAt, info.bondAmount, info.bondOutpoint, info.status,
    info.blocksProduced, info.slotsMissed, info.registrationEra, info.pendingRewards,
    info.hasPriorExit, info.lastActivity, info.activityGaps, info.bondCount,
    info.additionalBonds, info.delegatedTo, info.delegatedBonds, info.receivedDelegations,
    info.bondEntries, info.withdrawalPendingCount, info.blsPubkey)

variable (validKey : PublicKey → Bool)

def infoParts :=
  (publicKey validKey).pair <| u64.pair <| u64.pair <| outpoint.pair <| status.pair <|
    u64.pair <| u64.pair <| u32.pair <| u64.pair <| Codec.bool.pair <| u64.pair <|
    u64.pair <| u32.pair <| outpoint.list.pair <| (publicKey validKey).option.pair <|
    u32.pair <| (hash.pair u32).list.pair <| bondEntry.list.pair <| u32.pair Codec.bytes

def producerInfo : Codec ProducerInfo :=
  (infoParts validKey).wrap
    (fun (publicKey, registeredAt, bondAmount, bondOutpoint, status, blocksProduced,
        slotsMissed, registrationEra, pendingRewards, hasPriorExit, lastActivity,
        activityGaps, bondCount, additionalBonds, delegatedTo, delegatedBonds,
        receivedDelegations, bondEntries, withdrawalPendingCount, blsPubkey) =>
      { publicKey, registeredAt, bondAmount, bondOutpoint, status, blocksProduced,
        slotsMissed, registrationEra, pendingRewards, hasPriorExit, lastActivity,
        activityGaps, bondCount, additionalBonds, delegatedTo, delegatedBonds,
        receivedDelegations, bondEntries, withdrawalPendingCount, blsPubkey })
    (fun info => some (infoFields info)) fun _ => rfl

def updateTag : PendingProducerUpdate → Nat
  | .register .. => 0
  | .exit .. => 1
  | .slash .. => 2
  | .addBond .. => 3
  | .delegateBond .. => 4
  | .revokeDelegation .. => 5
  | .requestWithdrawal .. => 6
  | .rotateBlsKey .. => 7

def updateFields : Nat → Codec PendingProducerUpdate
  | 0 => ((producerInfo validKey).pair u64).wrap
      (fun parts => .register parts.1 parts.2)
      (fun
        | .register info height => some (info, height)
        | _ => none) fun _ => rfl
  | 1 => ((publicKey validKey).pair u64).wrap
      (fun parts => .exit parts.1 parts.2)
      (fun
        | .exit pubkey height => some (pubkey, height)
        | _ => none) fun _ => rfl
  | 2 => ((publicKey validKey).pair u64).wrap
      (fun parts => .slash parts.1 parts.2)
      (fun
        | .slash pubkey height => some (pubkey, height)
        | _ => none) fun _ => rfl
  | 3 => ((publicKey validKey).pair <| outpoint.list.pair <| u64.pair u32).wrap
      (fun (pubkey, outpoints, bondUnit, creationSlot) =>
        .addBond pubkey outpoints bondUnit creationSlot)
      (fun
        | .addBond pubkey outpoints bondUnit creationSlot =>
            some (pubkey, outpoints, bondUnit, creationSlot)
        | _ => none) fun _ => rfl
  | 4 => ((publicKey validKey).pair <| (publicKey validKey).pair u32).wrap
      (fun (delegator, delegate, bondCount) => .delegateBond delegator delegate bondCount)
      (fun
        | .delegateBond delegator delegate bondCount => some (delegator, delegate, bondCount)
        | _ => none) fun _ => rfl
  | 5 => (publicKey validKey).wrap .revokeDelegation
      (fun
        | .revokeDelegation delegator => some delegator
        | _ => none) fun _ => rfl
  | 6 => ((publicKey validKey).pair <| u32.pair u64).wrap
      (fun (pubkey, bondCount, bondUnit) => .requestWithdrawal pubkey bondCount bondUnit)
      (fun
        | .requestWithdrawal pubkey bondCount bondUnit => some (pubkey, bondCount, bondUnit)
        | _ => none) fun _ => rfl
  | _ => ((publicKey validKey).pair <| Codec.bytes.pair u64).wrap
      (fun (pubkey, newBlsPubkey, height) => .rotateBlsKey pubkey newBlsPubkey height)
      (fun
        | .rotateBlsKey pubkey newBlsPubkey height => some (pubkey, newBlsPubkey, height)
        | _ => none) fun _ => rfl

def pendingUpdate : Codec PendingProducerUpdate :=
  .variant 4 8 updateTag (updateFields validKey) (by decide) (by
    intro tag htag update hlegal
    interval_cases tag <;> (obtain ⟨-, -, rfl⟩ := hlegal; rfl))

/-- A map is its rows in any order; the index is not on the wire. -/
def producerSet : Codec (List (Hash × ProducerInfo) × List (Hash × Nat) ×
    List PendingProducerUpdate) :=
  (hash.pair (producerInfo validKey)).list.pair <|
    (hash.pair u64).list.pair (pendingUpdate validKey).list

def chainState : Codec ChainState :=
  (hash.pair <| u64.pair <| u32.pair <| u64.pair <| hash.pair <| u64.pair <| hash.pair <|
    u64.pair <| u64.pair <| u64.option.pair <| u32.pair (u32.pair u64).option).wrap
  (fun (bestHash, bestHeight, bestSlot, totalWork, genesisHash, genesisTimestamp,
      lastRegistrationHash, registrationSequence, totalMinted, snapSyncHeight,
      activeProtocolVersion, pendingProtocolActivation) =>
    { bestHash, bestHeight, bestSlot, totalWork, genesisHash, genesisTimestamp,
      lastRegistrationHash, registrationSequence, totalMinted, snapSyncHeight,
      activeProtocolVersion, pendingProtocolActivation })
  (fun state => some (state.bestHash, state.bestHeight, state.bestSlot, state.totalWork,
    state.genesisHash, state.genesisTimestamp, state.lastRegistrationHash,
    state.registrationSequence, state.totalMinted, state.snapSyncHeight,
    state.activeProtocolVersion, state.pendingProtocolActivation))
  fun _ => rfl

end Wire

/-! ## The canonical form -/

/-- `ChainState::serialize_canonical` -/
def canonicalChainState (state : ChainState) : Bytes :=
  state.bestHash.asBytes ++ (leBytes 8 state.bestHeight ++ (leBytes 4 state.bestSlot ++
    (leBytes 8 state.totalWork ++ (state.genesisHash.asBytes ++
      (leBytes 8 state.genesisTimestamp ++ (state.lastRegistrationHash.asBytes ++
        (leBytes 8 state.registrationSequence ++ leBytes 8 state.totalMinted)))))))

/-- A key with a number, in the order of Rust's tuples. -/
def rowLe (left right : Hash × Nat) : Prop :=
  toLex (left.1.word.toNat, left.2) ≤ toLex (right.1.word.toNat, right.2)

instance : DecidableRel rowLe := fun left right =>
  inferInstanceAs (Decidable
    (toLex (left.1.word.toNat, left.2) ≤ toLex (right.1.word.toNat, right.2)))

namespace ProducerInfo

/-- The vectors sorted; the entries of one slot stay in their order. -/
def sortedVectors (info : ProducerInfo) : ProducerInfo :=
  { info with
    additionalBonds := info.additionalBonds.insertionSort fun left right =>
      rowLe (left.txHash, left.index) (right.txHash, right.index)
    receivedDelegations := info.receivedDelegations.insertionSort rowLe
    bondEntries := info.bondEntries.insertionSort fun left right =>
      left.creationSlot ≤ right.creationSlot }

end ProducerInfo

namespace ProducerSet

variable (validKey : PublicKey → Bool) (set : ProducerSet)

/-- `ProducerSet::serialize_canonical` -/
def serializeCanonical : Bytes :=
  let producers := sortedRows Hash.bytesLe set.producers
  let exits := sortedRows Hash.bytesLe set.exitHistory
  leBytes 8 producers.length ++
    ((producers.map fun row =>
      let infoBytes := (Wire.producerInfo validKey).encode row.2.sortedVectors
      row.1.asBytes ++ (leBytes 4 infoBytes.length ++ infoBytes)).flatten ++
    (leBytes 8 exits.length ++
      (exits.map fun row => row.1.asBytes ++ leBytes 8 row.2).flatten))

/-- What `ProducerSet::state_root_component` hashes. -/
def stateRootBytes (blake3 : Bytes → Hash) (pendingBound : Bool) : Bytes :=
  if pendingBound ∧ set.pendingUpdates ≠ [] then
    set.serializeCanonical validKey ++
      (blake3 ((Wire.pendingUpdate validKey).list.encode set.pendingUpdates)).asBytes
  else set.serializeCanonical validKey

/-- `ProducerSet::from_snapshot_bytes` -/
def fromSnapshotBytes (bytes : Bytes) : Option ProducerSet :=
  ((Wire.producerSet validKey).decode bytes).map fun ((producers, exits, queue), _) =>
    fromParts ⟨Journal.insertAll producers ∅, Journal.insertAll exits ∅, queue⟩

end ProducerSet

end Doli.Producer
