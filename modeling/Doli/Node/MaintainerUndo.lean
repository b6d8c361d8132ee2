import Doli.Node.Rollback

/-!
# Undo of a maintainer rotation

The undo record of a block that carries a rotation, the plan of a rewind over a
range of heights, and its commit.  The record names the block it was captured
for: a height alone proves nothing, since the height index moves without it.
Errors of the disk are arguments; the prose of the log lines is left out, what
it quotes is not.
-/

namespace Doli.Node

open Doli.Core Doli.Lib Doli.Storage Doli.Producer

/-! ## The record -/

/-- `MAINTAINER_SET_DIGEST_DOMAIN` -/
def maintainerSetDigestDomain : Bytes := ascii "DOLI-MAINTAINER-SET-V1"

def maintainerSetDigest (prim : Primitives) (set : MaintainerSet)
    (genesisHash : Hash) : Hash :=
  prim.blake3 (maintainerSetDigestDomain ++ genesisHash.asBytes ++
    leBytes 8 set.threshold ++
    (set.members.insertionSort PublicKey.bytesLe).flatMap PublicKey.asBytes)

structure MaintainerUndoSnapshot where
  magic : Bytes
  version : Nat
  blockHash : Hash
  setDigest : Hash
  set : MaintainerSet
  lastDerivedHeight : Nat
  deriving DecidableEq, Repr

namespace MaintainerUndoSnapshot

def currentMagic : Bytes := ascii "MUND"

def currentVersion : Nat := 1

def new (blockHash setDigest : Hash) (set : MaintainerSet) (lastDerivedHeight : Nat) :
    MaintainerUndoSnapshot where
  magic := currentMagic
  version := currentVersion
  blockHash := blockHash
  setDigest := setDigest
  set := set
  lastDerivedHeight := lastDerivedHeight

variable (snapshot : MaintainerUndoSnapshot)

def headerIsValid : Bool :=
  snapshot.magic = currentMagic && snapshot.version = currentVersion

/-- The root that the record holds. -/
def root : MaintainerState := ⟨snapshot.set, snapshot.lastDerivedHeight⟩

end MaintainerUndoSnapshot

variable (config : NodeConfig)

/-- The record of `block` over the root that it meets. -/
def stampMaintainerUndo (block : Block) (state : MaintainerState) :
    MaintainerUndoSnapshot :=
  .new block.hash (maintainerSetDigest config.utxo.prim state.set config.genesisHash)
    state.set state.lastDerivedHeight

/-- A block without a rotation has no record, and neither has a node without a
root. -/
def captureMaintainerUndo (node : NodeState) (block : Block) :
    Option MaintainerUndoSnapshot :=
  if blockMutatesMaintainerSet block then
    node.maintainerState.map (stampMaintainerUndo config block)
  else none

/-- A block without a record leaves whatever record its height has. -/
def putMaintainerUndo (records : Column Nat MaintainerUndoSnapshot) (height : Nat)
    (snapshot : Option MaintainerUndoSnapshot) : Column Nat MaintainerUndoSnapshot :=
  let stored := snapshot.elim records (records.insert height)
  if undoKeepDepth < height then stored.erase (height - undoKeepDepth - 1) else stored

/-! ## The plan -/

/-- The defect of a set that is refused as malformed. -/
inductive SetDefect where
  | tooManyMembers (count : Nat)
  | duplicateMember (first second : Nat) (key : PublicKey)
  | unreconciledThreshold (members threshold expected : Nat)
  deriving DecidableEq, Repr

/-- Why a root could not be restored, with what the log line quotes. -/
inductive RewindReason where
  | blockMissing
  | blockUnread (error : String)
  | rotationWithoutSnapshot
  | snapshotRefused (defect : SetDefect)
  | snapshotWouldReArmSeed (members lastDerivedHeight target : Nat) (oneShot : Bool)
  | persistFailed (error : String)
  | snapshotBlockMismatch (captured canonical : Hash)
  | snapshotHeaderInvalid (magic : Bytes) (version : Nat)
  | snapshotDigestMismatch (stored recomputed : Hash)
  | noTrustRoot
  deriving DecidableEq, Repr

def RewindReason.token : RewindReason → String
  | .blockMissing => "block_unreadable"
  | .blockUnread _ => "block_unreadable"
  | .rotationWithoutSnapshot => "rotation_without_snapshot"
  | .snapshotRefused _ => "snapshot_refused"
  | .snapshotWouldReArmSeed _ _ _ _ => "snapshot_would_re_arm_seed"
  | .persistFailed _ => "persist_failed"
  | .snapshotBlockMismatch _ _ => "snapshot_block_mismatch"
  | .snapshotHeaderInvalid _ _ => "snapshot_header_invalid"
  | .snapshotDigestMismatch _ _ => "snapshot_digest_mismatch"
  | .noTrustRoot => "no_trust_root"

inductive MaintainerRewindPlan where
  | unchanged
  | restore (height : Nat) (snapshot : MaintainerUndoSnapshot)
  | unrestorable (height : Nat) (reason : RewindReason)
  deriving DecidableEq, Repr

def checkSnapshotBinding (height : Nat) (canonicalBlockHash : Hash)
    (snapshot : MaintainerUndoSnapshot) : MaintainerRewindPlan :=
  let recomputed :=
    maintainerSetDigest config.utxo.prim snapshot.set config.genesisHash
  if !snapshot.headerIsValid then
    .unrestorable height (.snapshotHeaderInvalid snapshot.magic snapshot.version)
  else if snapshot.blockHash ≠ canonicalBlockHash then
    .unrestorable height (.snapshotBlockMismatch snapshot.blockHash canonicalBlockHash)
  else if recomputed ≠ snapshot.setDigest then
    .unrestorable height (.snapshotDigestMismatch snapshot.setDigest recomputed)
  else .restore height snapshot

/-- The node with the maintainer records of its database. -/
structure RecordedNode where
  node : NodeState
  maintainerUndo : Column Nat MaintainerUndoSnapshot

/-- The read errors of the block store, by height, and the error of the save. -/
structure DiskErrors where
  read : Nat → Option String
  save : Option String

namespace RecordedNode

variable (state : RecordedNode) (disk : DiskErrors)

def readBlock (height : Nat) : Except String (Option Block) :=
  match disk.read height with
  | some error => .error error
  | none => .ok (state.node.blockStore.getBlockByHeight height)

/-- The answer at a height, unless its block is known to carry no rotation. -/
def rewindAt (height : Nat) : Option MaintainerRewindPlan :=
  match state.readBlock disk height with
  | .error error => some (.unrestorable height (.blockUnread error))
  | .ok none => some (.unrestorable height .blockMissing)
  | .ok (some block) =>
      if blockMutatesMaintainerSet block then
        match state.maintainerUndo.lookup height with
        | none => some (.unrestorable height .rotationWithoutSnapshot)
        | some snapshot =>
            some (checkSnapshotBinding config height block.hash snapshot)
      else none

def planMaintainerRewind (lo hi : Nat) : MaintainerRewindPlan :=
  if state.node.maintainerState.isNone ∨ hi < lo then .unchanged
  else
    ((List.range' lo (hi + 1 - lo)).findSome? (state.rewindAt config disk)).getD
      .unchanged

end RecordedNode

/-! ## The commit -/

/-- The first slot of the list that repeats an earlier one, with that one. -/
def repeatedSlot : List PublicKey → List PublicKey → Option (Nat × Nat × PublicKey)
  | _, [] => none
  | seen, key :: keys =>
      if key ∈ seen then some (seen.idxOf key, seen.length, key)
      else repeatedSlot (seen ++ [key]) keys

def validatePersistedSet (set : MaintainerSet) : Except SetDefect Unit :=
  let expected := MaintainerSet.calculateThreshold set.members.length
  if maxMaintainers < set.members.length then .error (.tooManyMembers set.members.length)
  else
    match repeatedSlot [] set.members with
    | some (first, second, key) => .error (.duplicateMember first second key)
    | none =>
        if set.members ≠ [] ∧ set.threshold ≠ expected then
          .error (.unreconciledThreshold set.members.length set.threshold expected)
        else .ok ()

/-- Whether the plan went through, and the reason when it did not. -/
inductive RewindOutcome where
  | unchanged
  | restored (height : Nat)
  | unrestored (height : Nat) (reason : RewindReason)
  deriving DecidableEq, Repr

/-- The root after `commit_maintainer_rewind`; only a restore moves it. -/
def commitMaintainerRewind (disk : DiskErrors) (plan : MaintainerRewindPlan)
    (target : Nat) (root : Option MaintainerState) :
    RewindOutcome × Option MaintainerState :=
  match plan with
  | .unchanged => (.unchanged, root)
  | .unrestorable height reason => (.unrestored height reason, root)
  | .restore height snapshot =>
      let oneShot := decide (config.maintainerDerivationActivationHeight ≤ target)
      match validatePersistedSet snapshot.set with
      | .error defect => (.unrestored height (.snapshotRefused defect), root)
      | .ok () =>
          if !maintainerSeedIsDone snapshot.root oneShot then
            (.unrestored height (.snapshotWouldReArmSeed snapshot.set.members.length
              snapshot.lastDerivedHeight target oneShot), root)
          else
            match root, disk.save with
            | none, _ => (.unrestored height .noTrustRoot, root)
            | some _, some error => (.unrestored height (.persistFailed error), root)
            | some _, none => (.restored height, some snapshot.root)

/-- The rewind of `rollback_one_block`, which undoes the tip alone. -/
def recordedRewind (records : Column Nat MaintainerUndoSnapshot) (disk : DiskErrors)
    (rebuild : NodeState → Nat → Option NodeState) : RewindContext where
  rewindMaintainerSet node height :=
    let plan := (RecordedNode.mk node records).planMaintainerRewind config disk height height
    (commitMaintainerRewind config disk plan (height - 1) node.maintainerState).2
  rebuildWithoutUndo := rebuild

end Doli.Node
