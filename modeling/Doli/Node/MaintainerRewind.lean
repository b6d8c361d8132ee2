import Doli.Lib.Listing
import Doli.Lib.Column
import Doli.Node.MaintainerUndo
import Doli.Node.RefusedBlock
import Doli.Node.StakeWeight

/-!
# The maintainer root over histories

Blocks are applied, rolled back and replaced, and the records of the applied
ones stay.  Whatever the history, a rewind restores the root that was in force
just before the oldest canonical rotation of the range, or it says that it
cannot.
-/

namespace Doli.Node

open Doli.Core Doli.Lib Doli.Storage Doli.Producer

/-! ## What the plan looks at -/

section Plan

variable (config : NodeConfig) (state : RecordedNode) (disk : DiskErrors)

/-- The canonical block of the height is read and carries no rotation. -/
def RecordedNode.RotationFree (height : Nat) : Prop :=
  ∃ block, state.readBlock disk height = .ok (some block) ∧
    blockMutatesMaintainerSet block = false

/-- The lowest height of the range that may hold a rotation. -/
structure RecordedNode.FirstDoubt (lo hi height : Nat) : Prop where
  above : lo ≤ height
  below : height ≤ hi
  free : ∀ other, lo ≤ other → other < height → state.RotationFree disk other

/-- `block` is the oldest canonical block of the range with a rotation. -/
structure RecordedNode.OldestRotation (lo hi height : Nat) (block : Block) : Prop
    extends state.FirstDoubt disk lo hi height where
  canonical : state.readBlock disk height = .ok (some block)
  rotates : blockMutatesMaintainerSet block = true

variable {config state disk}

theorem rewindAt_eq_none {height : Nat} :
    state.rewindAt config disk height = none ↔ state.RotationFree disk height := by
  unfold RecordedNode.rewindAt RecordedNode.RotationFree
  split
  case h_1 error hread => simp [hread]
  case h_2 hread => simp [hread]
  case h_3 block hread =>
    cases hrotates : blockMutatesMaintainerSet block with
    | false => simp [hread, hrotates]
    | true => cases state.maintainerUndo.lookup height <;> simp [hread, hrotates]

theorem planMaintainerRewind_cases (config : NodeConfig) (state : RecordedNode)
    (disk : DiskErrors) (lo hi : Nat) :
    state.planMaintainerRewind config disk lo hi = .unchanged ∧
        (state.node.maintainerState = none ∨
          ∀ height, lo ≤ height → height ≤ hi → state.RotationFree disk height) ∨
      ∃ height, state.FirstDoubt disk lo hi height ∧
        state.rewindAt config disk height =
          some (state.planMaintainerRewind config disk lo hi) := by
  unfold RecordedNode.planMaintainerRewind
  split
  case isTrue hidle =>
    refine .inl ⟨rfl, ?_⟩
    rcases hidle with hnone | hempty
    · exact .inl (Option.isNone_iff_eq_none.mp hnone)
    · right
      omega
  case isFalse hidle =>
    cases hscan : (List.range' lo (hi + 1 - lo)).findSome?
        (state.rewindAt config disk) with
    | none =>
        refine .inl ⟨rfl, .inr ?_⟩
        intro height hlo hhi
        rw [List.findSome?_eq_none_iff] at hscan
        exact rewindAt_eq_none.mp (hscan height (List.mem_range'_1.mpr (by omega)))
    | some answer =>
        obtain ⟨height, hrange, hanswer, hbelow⟩ := findSome?_range'_eq_some.mp hscan
        right
        refine ⟨height, ⟨hrange.1, by omega, ?_⟩, hanswer⟩
        exact fun other hlo hlt => rewindAt_eq_none.mp (hbelow other hlo hlt)

theorem rewindAt_cases {height : Nat} {plan : MaintainerRewindPlan}
    (hanswer : state.rewindAt config disk height = some plan) :
    (∃ reason, plan = .unrestorable height reason ∧
        reason.token = "block_unreadable" ∧
        ∀ block, state.readBlock disk height ≠ .ok (some block)) ∨
      ∃ block, state.readBlock disk height = .ok (some block) ∧
        blockMutatesMaintainerSet block = true ∧
        (state.maintainerUndo.lookup height = none ∧
            plan = .unrestorable height .rotationWithoutSnapshot ∨
          ∃ snapshot, state.maintainerUndo.lookup height = some snapshot ∧
            plan = checkSnapshotBinding config height block.hash snapshot) := by
  unfold RecordedNode.rewindAt at hanswer
  split at hanswer
  case h_1 error hread =>
    obtain rfl := Option.some.inj hanswer
    exact .inl ⟨.blockUnread error, rfl, rfl, by simp [hread]⟩
  case h_2 hread =>
    obtain rfl := Option.some.inj hanswer
    exact .inl ⟨.blockMissing, rfl, rfl, by simp [hread]⟩
  case h_3 block hread =>
    split at hanswer
    case isFalse => contradiction
    case isTrue hrotates =>
      refine .inr ⟨block, hread, hrotates, ?_⟩
      cases hlookup : state.maintainerUndo.lookup height with
      | none =>
          rw [hlookup] at hanswer
          exact .inl ⟨rfl, (Option.some.inj hanswer).symm⟩
      | some snapshot =>
          rw [hlookup] at hanswer
          exact .inr ⟨snapshot, rfl, (Option.some.inj hanswer).symm⟩

theorem checkSnapshotBinding_stamp (height : Nat) (hash : Hash) (block : Block)
    (root : MaintainerState) :
    checkSnapshotBinding config height hash (stampMaintainerUndo config block root) =
      if block.hash = hash then .restore height (stampMaintainerUndo config block root)
      else .unrestorable height (.snapshotBlockMismatch block.hash hash) := by
  have hheader : (stampMaintainerUndo config block root).headerIsValid = true := by
    simp [MaintainerUndoSnapshot.headerIsValid, stampMaintainerUndo,
      MaintainerUndoSnapshot.new]
  unfold checkSnapshotBinding
  dsimp only
  rw [hheader]
  by_cases hbound : block.hash = hash
  · simp [stampMaintainerUndo, MaintainerUndoSnapshot.new, hbound]
  · simp [stampMaintainerUndo, MaintainerUndoSnapshot.new, hbound]

end Plan

/-! ## Histories -/

/-- A block applied by the node, its tip rolled back, or anything else that
moves the node: a reorg, a block put at a height from outside, a restart.  All
but the first leave the records alone or lose some. -/
inductive ChainEvent where
  | applies (block : Block) (mode : ValidationMode)
  | rollsBack (authority : RollbackAuthority) (disk : DiskErrors)
      (rebuild : NodeState → Nat → Option NodeState)
  | moves (node : NodeState) (lost : List Nat)

section Histories

variable (config : NodeConfig)

/-- The record enters with the commit of its block. -/
def recordBlock (state : RecordedNode) (block : Block) (mode : ValidationMode) :
    RecordedNode :=
  let applied := applyBlock config state.node block mode
  match applied.1 with
  | .ok .applied =>
      ⟨applied.2, putMaintainerUndo state.maintainerUndo
        (state.node.chainState.bestHeight + 1)
        (captureMaintainerUndo config state.node block)⟩
  | _ => ⟨applied.2, state.maintainerUndo⟩

def chainStep (state : RecordedNode) : ChainEvent → RecordedNode
  | .applies block mode => recordBlock config state block mode
  | .rollsBack authority disk rebuild =>
      ⟨(rollbackOneBlock (recordedRewind config state.maintainerUndo disk rebuild)
        authority state.node).2, state.maintainerUndo⟩
  | .moves node lost => ⟨node, Journal.eraseAll lost state.maintainerUndo⟩

def recordOf (state : RecordedNode) : ChainEvent → Option (Nat × MaintainerUndoSnapshot)
  | .applies block mode =>
      match (applyBlock config state.node block mode).1 with
      | .ok .applied =>
          (captureMaintainerUndo config state.node block).map
            fun snapshot => (state.node.chainState.bestHeight + 1, snapshot)
      | _ => none
  | _ => none

def maintainerRecorder :
    Recorder RecordedNode ChainEvent Nat MaintainerUndoSnapshot where
  step := chainStep config
  column := RecordedNode.maintainerUndo
  wrote := recordOf config

/-- The node after a history that began without records. -/
def recordedReach (node : NodeState) (history : List ChainEvent) : RecordedNode :=
  (maintainerRecorder config).reach ⟨node, ∅⟩ history

variable {config}

theorem lookup_putMaintainerUndo {records : Column Nat MaintainerUndoSnapshot}
    {height key : Nat} {captured : Option MaintainerUndoSnapshot}
    {snapshot : MaintainerUndoSnapshot}
    (hlookup : (putMaintainerUndo records height captured).lookup key = some snapshot) :
    key = height ∧ captured = some snapshot ∨
      records.lookup key = some snapshot ∧ (key = height → captured = none) := by
  have hstored : (captured.elim records (records.insert height)).lookup key =
      some snapshot := by
    unfold putMaintainerUndo at hlookup
    dsimp only at hlookup
    split at hlookup
    · by_cases hkey : key = height - undoKeepDepth - 1
      · rw [hkey, Finmap.lookup_erase] at hlookup
        contradiction
      · rwa [Finmap.lookup_erase_ne hkey] at hlookup
    · exact hlookup
  cases captured with
  | none => exact .inr ⟨hstored, fun _ => rfl⟩
  | some fresh =>
      by_cases hkey : key = height
      · subst hkey
        exact .inl ⟨rfl, by simpa using hstored⟩
      · rw [Option.elim_some, Finmap.lookup_insert_of_ne _ hkey] at hstored
        exact .inr ⟨hstored, fun heq => absurd heq hkey⟩

theorem maintainerRecorder_onlyLoses : (maintainerRecorder config).OnlyLoses := by
  intro state event key snapshot hlookup
  change (chainStep config state event).maintainerUndo.lookup key = some snapshot
    at hlookup
  change recordOf config state event = some (key, snapshot) ∨
    state.maintainerUndo.lookup key = some snapshot ∧
      ¬∃ other, recordOf config state event = some (key, other)
  cases event with
  | applies block mode =>
      unfold chainStep recordBlock at hlookup
      unfold recordOf
      dsimp only at hlookup ⊢
      split at hlookup
      case h_1 =>
        rcases lookup_putMaintainerUndo hlookup with ⟨rfl, hcaptured⟩ | ⟨hkept, hother⟩
        · simp [hcaptured]
        · refine .inr ⟨hkept, ?_⟩
          rintro ⟨other, hwrote⟩
          obtain ⟨fresh, hfresh, heq⟩ := Option.map_eq_some_iff.mp hwrote
          rw [hother (congrArg Prod.fst heq).symm] at hfresh
          contradiction
      case h_2 => exact .inr ⟨hlookup, by simp⟩
  | rollsBack authority disk rebuild => exact .inr ⟨hlookup, by simp [recordOf]⟩
  | moves node lost =>
      change (Journal.eraseAll lost state.maintainerUndo).lookup key = some snapshot
        at hlookup
      rw [Journal.lookup_eraseAll] at hlookup
      split at hlookup
      · contradiction
      · exact .inr ⟨hlookup, by simp [recordOf]⟩

/-! ## Rotations of a history -/

/-- The event applies `block`, which carries a rotation, at `height` over `root`. -/
structure Rotates (config : NodeConfig) (state : RecordedNode) (event : ChainEvent)
    (height : Nat) (block : Block) (root : MaintainerState) : Prop where
  applied : ∃ mode, event = .applies block mode ∧
    (applyBlock config state.node block mode).1 = .ok .applied
  tip : state.node.chainState.bestHeight + 1 = height
  rotation : blockMutatesMaintainerSet block = true
  rooted : state.node.maintainerState = some root

/-- The last rotation that the history applied at `height`: the block that
carried it and the root in force just before. -/
def LastRotation (config : NodeConfig) (node : NodeState) (history : List ChainEvent)
    (height : Nat) (block : Block) (root : MaintainerState) : Prop :=
  ∃ done event rest, history = done ++ event :: rest ∧
    Rotates config (recordedReach config node done) event height block root ∧
    ∀ between later tail, rest = between ++ later :: tail → ∀ other found,
      ¬Rotates config (recordedReach config node (done ++ event :: between)) later
        height other found

theorem recordOf_eq_some {state : RecordedNode} {event : ChainEvent} {height : Nat}
    {snapshot : MaintainerUndoSnapshot} :
    recordOf config state event = some (height, snapshot) ↔
      ∃ block root, Rotates config state event height block root ∧
        snapshot = stampMaintainerUndo config block root := by
  constructor
  · intro hwrote
    unfold recordOf at hwrote
    split at hwrote
    case h_2 => contradiction
    case h_1 block mode =>
      split at hwrote
      case h_2 => contradiction
      case h_1 happlied =>
        obtain ⟨captured, hcaptured, heq⟩ := Option.map_eq_some_iff.mp hwrote
        obtain ⟨rfl, rfl⟩ := Prod.ext_iff.mp heq
        unfold captureMaintainerUndo at hcaptured
        split at hcaptured
        case isFalse => contradiction
        case isTrue hrotation =>
          obtain ⟨root, hroot, rfl⟩ := Option.map_eq_some_iff.mp hcaptured
          exact ⟨block, root, ⟨⟨mode, rfl, happlied⟩, rfl, hrotation, hroot⟩, rfl⟩
  · rintro ⟨block, root, hrotates, rfl⟩
    obtain ⟨mode, rfl, happlied⟩ := hrotates.applied
    simp [recordOf, happlied, captureMaintainerUndo, hrotates.rotation, hrotates.rooted,
      hrotates.tip]

theorem lastRotation_of_lookup {node : NodeState} {history : List ChainEvent}
    {height : Nat} {snapshot : MaintainerUndoSnapshot}
    (hlookup : (recordedReach config node history).maintainerUndo.lookup height =
      some snapshot) :
    ∃ block root, LastRotation config node history height block root ∧
      snapshot = stampMaintainerUndo config block root := by
  obtain ⟨done, event, rest, hlast⟩ :=
    Recorder.lastWrite_of_lookup maintainerRecorder_onlyLoses rfl hlookup
  obtain ⟨block, root, hrotates, hsnapshot⟩ := recordOf_eq_some.mp hlast.wrote
  refine ⟨block, root, ⟨done, event, rest, hlast.split, hrotates, ?_⟩, hsnapshot⟩
  intro between later tail hrest other found hlater
  apply hlast.last between later tail hrest
  exact ⟨_, recordOf_eq_some.mpr ⟨other, found, hlater, rfl⟩⟩

end Histories

/-! ## Blocks without a rotation -/

/-- Wherever the block is applied over a root that is seeded, the root stays. -/
def KeepsSeededRoot (config : NodeConfig) (block : Block) : Prop :=
  ∀ node mode after root, applyBlock config node block mode = (.ok .applied, after) →
    node.maintainerState = some root →
      maintainerSeedIsDone root (decide (config.maintainerDerivationActivationHeight ≤
        node.chainState.bestHeight + 1)) = true →
        after.maintainerState = some root

section Seeded

variable {config : NodeConfig} {height : Nat} {chainState : ChainState}
  {set : ProducerSet} {root : MaintainerState}

theorem maybeBootstrapMaintainerSet_of_done
    (hdone : maintainerSeedIsDone root
      (decide (config.maintainerDerivationActivationHeight ≤ height)) = true) :
    maybeBootstrapMaintainerSet config height chainState set root = root := by
  unfold maybeBootstrapMaintainerSet
  exact if_pos hdone

theorem holdSnapRootEmpty_of_done
    (hdone : maintainerSeedIsDone root
      (decide (config.maintainerDerivationActivationHeight ≤ height)) = true) :
    holdSnapRootEmpty config height chainState root = root := by
  unfold holdSnapRootEmpty
  split
  case isFalse => rfl
  case isTrue hholds =>
    simp only [holdsSnapRoot, Bool.and_eq_true, Bool.not_eq_true', decide_eq_true_eq]
      at hholds
    rw [decide_eq_true hholds.1.1, hholds.2] at hdone
    contradiction

theorem finishBlock_maintainerState (config : NodeConfig) (node : NodeState)
    (block : Block) (height : Nat) (mode : ValidationMode) (undo : ProducerUndo)
    (state : LoopState) :
    ∃ moved flushed, (finishBlock config node block height mode undo state).node.maintainerState =
      (state.maintainer.map (holdSnapRootEmpty config height node.chainState)).map
        (maybeBootstrapMaintainerSet config height moved flushed) := by
  unfold finishBlock
  dsimp only
  split
  · exact ⟨_, _, rfl⟩
  · exact ⟨_, _, rfl⟩

theorem keepsSeededRoot_of_not_mutates {block : Block}
    (hother : blockMutatesMaintainerSet block = false) :
    KeepsSeededRoot config block := by
  intro node mode after root happly hroot hdone
  obtain ⟨state, hloop, -, rfl⟩ := applyBlock_finished happly
  have hkept : state.maintainer = some root := by
    rw [← hroot, ← @applyTransactions_maintainer config node block
      (node.chainState.bestHeight + 1) mode hother, hloop]
  obtain ⟨moved, flushed, hfinal⟩ := finishBlock_maintainerState config
    (node.markLive block.producer (node.chainState.bestHeight + 1)) block
    (node.chainState.bestHeight + 1) mode
    (capture config node block (node.chainState.bestHeight + 1)) state
  rw [hfinal, hkept, Option.map_some, Option.map_some, holdSnapRootEmpty_of_done hdone,
    maybeBootstrapMaintainerSet_of_done hdone]

end Seeded

/-! ## Every plan of every history -/

/-- What each answer to the range `[lo, hi]` says about the history. -/
def ExactRewind (config : NodeConfig) (node : NodeState) (history : List ChainEvent)
    (disk : DiskErrors) (lo hi : Nat) : MaintainerRewindPlan → Prop :=
  let state := recordedReach config node history
  fun
  | .unchanged => state.node.maintainerState = none ∨
      ∀ height, lo ≤ height → height ≤ hi →
        ∃ block, state.readBlock disk height = .ok (some block) ∧
          blockMutatesMaintainerSet block = false ∧ KeepsSeededRoot config block
  | .restore height snapshot =>
      ∃ block applied, state.OldestRotation disk lo hi height block ∧
        LastRotation config node history height applied snapshot.root ∧
        applied.hash = block.hash ∧ snapshot.blockHash = block.hash
  | .unrestorable height reason => state.FirstDoubt disk lo hi height ∧
      (reason.token = "block_unreadable" ∧
          (∀ block, state.readBlock disk height ≠ .ok (some block)) ∨
        ∃ block, state.OldestRotation disk lo hi height block ∧
          (state.maintainerUndo.lookup height = none ∧
              reason = .rotationWithoutSnapshot ∨
            ∃ applied root, LastRotation config node history height applied root ∧
              applied.hash ≠ block.hash ∧
              reason = .snapshotBlockMismatch applied.hash block.hash))

/-- A node that began without records answers every rewind exactly. -/
theorem planMaintainerRewind_exact (config : NodeConfig) (node : NodeState)
    (history : List ChainEvent) (disk : DiskErrors) (lo hi : Nat) :
    ExactRewind config node history disk lo hi
      ((recordedReach config node history).planMaintainerRewind config disk lo hi) := by
  rcases planMaintainerRewind_cases config (recordedReach config node history) disk lo
    hi with ⟨hplan, hfree⟩ | ⟨height, hdoubt, hanswer⟩
  · rw [hplan]
    rcases hfree with hnone | hfree
    · exact .inl hnone
    · right
      intro height hlo hhi
      obtain ⟨block, hread, hother⟩ := hfree height hlo hhi
      exact ⟨block, hread, hother, keepsSeededRoot_of_not_mutates hother⟩
  · rcases rewindAt_cases hanswer with
      ⟨reason, hplan, htoken, hunread⟩ | ⟨block, hread, hrotates, hrecord⟩
    · rw [hplan]
      exact ⟨hdoubt, .inl ⟨htoken, hunread⟩⟩
    · have holdest : (recordedReach config node history).OldestRotation disk lo hi
          height block := ⟨hdoubt, hread, hrotates⟩
      rcases hrecord with ⟨hnone, hplan⟩ | ⟨snapshot, hlookup, hplan⟩
      · rw [hplan]
        exact ⟨hdoubt, .inr ⟨block, holdest, .inl ⟨hnone, rfl⟩⟩⟩
      · obtain ⟨applied, root, hlast, rfl⟩ := lastRotation_of_lookup hlookup
        rw [hplan, checkSnapshotBinding_stamp]
        split
        case isTrue hbound => exact ⟨block, applied, holdest, hlast, hbound, hbound⟩
        case isFalse hbound =>
          exact ⟨hdoubt, .inr ⟨block, holdest, .inr ⟨applied, root, hlast, hbound, rfl⟩⟩⟩

/-! ## A block that seeds the root -/

def noErrors : DiskErrors := ⟨fun _ => none, none⟩

/-- Two producers are enough for a root. -/
def seedingConfig : NodeConfig := { sampleConfig with maintainerSeedMinProducers := 2 }

def founders : ProducerSet :=
  .fromParts
    { producers := commit
        (([⟨77⟩, ⟨78⟩] : List PublicKey).map fun key =>
          .put (samplePrimitives.cryptoHash key) (sampleProducer key 1)) ∅
      exitHistory := ∅
      pendingUpdates := [] }

def seedingNode : NodeState :=
  { sampleNode 11 with
    producerSet := founders
    producerRows := founders.asParts
    maintainerState := some ⟨.new, 0⟩ }

def seededReach : RecordedNode :=
  recordedReach seedingConfig seedingNode [.applies (sampleBlock 12 []) .full]

/-- The block of height 12 seeds the root, and a rewind of it is told that
nothing changed. -/
theorem planMaintainerRewind_misses_seed :
    (applyBlock seedingConfig seedingNode (sampleBlock 12 []) .full).1 = .ok .applied ∧
      seededReach.readBlock noErrors 12 = .ok (some (sampleBlock 12 [])) ∧
      seededReach.planMaintainerRewind seedingConfig noErrors 12 12 = .unchanged ∧
      seedingNode.maintainerState = some ⟨.new, 0⟩ ∧
      seededReach.node.maintainerState = some ⟨.withMembers [⟨77⟩, ⟨78⟩] 12, 12⟩ := by
  refine ⟨?_, ?_, ?_, rfl, ?_⟩
  · decide +kernel
  · decide +kernel
  · decide +kernel
  · decide +kernel

/-- Both members sign for a third one. -/
def rotatingConfig : NodeConfig :=
  { seedingConfig with
    codec := { seedingConfig.codec with
      decodeChange := fun _ => some ⟨⟨99⟩, [⟨⟨77⟩, ⟨1⟩⟩, ⟨⟨78⟩, ⟨1⟩⟩]⟩ } }

def sampleRotation : Transaction :=
  { sampleTransfer [] [] with txType := .addMaintainer }

def rotatedReach : RecordedNode :=
  recordedReach rotatingConfig seedingNode
    [.applies (sampleBlock 12 []) .full, .applies (sampleBlock 13 [sampleRotation]) .full]

/-- The node with another block of a rotation at height 13. -/
def replacedReach : RecordedNode :=
  let other : Block := { sampleBlock 13 [sampleRotation] with hash := ⟨113⟩ }
  chainStep rotatingConfig rotatedReach (.moves
    { rotatedReach.node with
      blockStore :=
        { rotatedReach.node.blockStore.putBlock other with
          heightIndex := rotatedReach.node.blockStore.heightIndex.insert 13 ⟨113⟩ } } [])

/-- The record of a rotation restores the seeded root, and stands for no other
block. -/
example : rotatedReach.node.maintainerState =
      some ⟨.withMembers [⟨77⟩, ⟨78⟩, ⟨99⟩] 13, 13⟩ ∧
    rotatedReach.planMaintainerRewind rotatingConfig noErrors 12 13 =
      .restore 13 (stampMaintainerUndo rotatingConfig (sampleBlock 13 [sampleRotation])
        ⟨.withMembers [⟨77⟩, ⟨78⟩] 12, 12⟩) ∧
    replacedReach.planMaintainerRewind rotatingConfig noErrors 12 13 =
      .unrestorable 13 (.snapshotBlockMismatch (sampleBlock 13 []).hash ⟨113⟩) := by
  refine ⟨?_, ?_, ?_⟩
  · decide +kernel
  · decide +kernel
  · decide +kernel

end Doli.Node
