import Doli.Core.Attestation
import Doli.Lib.Ancestry
import Doli.Lib.Run
import Doli.Validation.BlockIdentity
import Doli.Validation.Slash
import Mathlib.Algebra.GroupWithZero.Nat

/-!
# Fork recovery

An orphan block starts a walk: its ancestors are fetched by hash, one at a time, until the
walk meets a block that the node has.  `ForkRecoveryTracker` holds the walk, and
`walk_intake` is the door through which answers reach it.
-/

namespace Doli.Network

open Doli.Core Doli.Lib
open Doli.Producer (satAddAmount)
open Doli.Validation (Block BlockHeader Crypto blocksPerEra maxBlockSize maxBlockSize_le
  sampleCrypto sampleHeader verifyBlockSignature)

def maxRecoveryDepth : Nat := 1000

/-- Durations are in nanoseconds. -/
def recoveryCooldown : Nat := 30 * 10 ^ 9

def recoveryTimeout : Nat := 120 * 10 ^ 9

def requestTimeout : Nat := 10 * 10 ^ 9

def maxRejectedBranches : Nat := 32

def walkFullBlocks : Nat := 64

/-! ## What a walked body must match -/

section

variable (prim : Primitives)

def presenceRootMatches (ah : Nat) (height : Option Nat) (presenceRoot : Hash)
    (bitfield aggregate : Bytes) : Bool :=
  let post := decide (presenceRoot = presenceCommitment prim bitfield aggregate)
  let pre := bitfield.isEmpty || decide (presenceRoot = prim.blake3 bitfield)
  match height with
  | some height => if ah ≤ height then post else pre
  | none => pre || post

def aggregateFitsBitfield (bitfield aggregate : Bytes) : Bool :=
  aggregate.isEmpty || bitfield.any (· ≠ 0)

def bodyMatchesHeader (ah : Nat) (height : Option Nat) (block : Block) : Bool :=
  block.verifyMerkleRoot prim &&
    presenceRootMatches prim ah height block.header.presenceRoot block.attestationBitfield
      block.aggregateBlsSignature

end

/-! ## The tracker -/

structure ActiveRecovery (Peer : Type) where
  /-- Newest first. -/
  blocks : List Block
  suppliers : List (Option Peer)
  nextParent : Hash
  pending : Bool
  peer : Peer
  lastProgressAt : Nat
  requestSentAt : Option Nat
  alternatePeers : List Peer
  handover : List Peer
  heldBytes : Option Nat
  deriving DecidableEq

structure CompletedRecovery (Peer : Type) where
  /-- From the child of the connection point to the tip of the fork. -/
  blocks : List Block
  connectionPoint : Hash
  suppliers : List (Option Peer)
  deriving DecidableEq

structure ForkRecoveryTracker (Peer : Type) where
  active : Option (ActiveRecovery Peer)
  cooldownUntil : Option Nat
  exceededMaxDepth : Bool
  genesisHash : Hash
  rejected : List (Hash × Hash)
  deriving DecidableEq

inductive CancelReason where
  | sessionTimeout
  | genesisHashMismatch
  | exceededMaxDepth
  | peerDoesNotHaveBlock
  | heldBodyBytesOverTheWalkBound
  deriving DecidableEq, Repr

namespace ForkRecoveryTracker

variable {Peer : Type}

/-- `new`, then `set_genesis_hash`. -/
def new (genesisHash : Hash) : ForkRecoveryTracker Peer where
  active := none
  cooldownUntil := none
  exceededMaxDepth := false
  genesisHash := genesisHash
  rejected := []

def cancel (tracker : ForkRecoveryTracker Peer) (reason : CancelReason) (now : Nat) :
    ForkRecoveryTracker Peer :=
  let tracker :=
    if reason = .exceededMaxDepth then { tracker with exceededMaxDepth := true } else tracker
  match tracker.active with
  | none => tracker
  | some _ =>
      { tracker with active := none, cooldownUntil := some (now + recoveryCooldown) }

def expireStaleSession (tracker : ForkRecoveryTracker Peer) (now : Nat) :
    ForkRecoveryTracker Peer :=
  match tracker.active with
  | none => tracker
  | some recovery =>
      if recoveryTimeout < now - recovery.lastProgressAt then tracker.cancel .sessionTimeout now
      else tracker

def onCooldown (tracker : ForkRecoveryTracker Peer) (now : Nat) : Bool :=
  tracker.cooldownUntil.any fun deadline => decide (now < deadline)

def otherChain (tracker : ForkRecoveryTracker Peer) (block : Block) : Bool :=
  decide (tracker.genesisHash ≠ ⟨0⟩) && decide (block.header.genesisHash ≠ tracker.genesisHash)

def start (tracker : ForkRecoveryTracker Peer) (orphanBlock : Block) (peer : Peer) (now : Nat) :
    Bool × ForkRecoveryTracker Peer :=
  let tracker := tracker.expireStaleSession now
  if tracker.active.isSome then (false, tracker)
  else if tracker.onCooldown now then (false, tracker)
  else if tracker.otherChain orphanBlock then (false, tracker)
  else
    (true,
      { tracker with
        active := some
          { blocks := [orphanBlock]
            suppliers := [none]
            nextParent := orphanBlock.header.prevHash
            pending := false
            peer := peer
            lastProgressAt := now
            requestSentAt := none
            alternatePeers := []
            handover := []
            heldBytes := none } })

def canStart (tracker : ForkRecoveryTracker Peer) (now : Nat) : Bool :=
  (tracker.active.all fun recovery =>
      decide (recoveryTimeout < now - recovery.lastProgressAt)) &&
    !tracker.onCooldown now

/-- The walk fetches its next parent from its peer. -/
def sendFetch (tracker : ForkRecoveryTracker Peer) (now : Nat) :
    Option (Peer × Hash) × ForkRecoveryTracker Peer :=
  match tracker.active with
  | none => (none, tracker)
  | some recovery =>
      (some (recovery.peer, recovery.nextParent),
        { tracker with
          active := some { recovery with pending := true, requestSentAt := some now } })

section

variable [DecidableEq Peer]

def setAlternatePeers (tracker : ForkRecoveryTracker Peer) (peers : List Peer) :
    ForkRecoveryTracker Peer :=
  { tracker with
    active := tracker.active.map fun recovery =>
      { recovery with alternatePeers := peers.filter (· ≠ recovery.peer) } }

def setHandoverPeers (tracker : ForkRecoveryTracker Peer) (peers : List Peer) :
    ForkRecoveryTracker Peer :=
  { tracker with
    active := tracker.active.map fun recovery =>
      { recovery with handover := peers.filter (· ≠ recovery.peer) } }

/-- The peer is struck from both lists, and the walk moves to the next evidence peer. -/
def handOver (tracker : ForkRecoveryTracker Peer) (peer : Peer) :
    Bool × ForkRecoveryTracker Peer :=
  match tracker.active with
  | none => (false, tracker)
  | some recovery =>
      let alternatePeers := recovery.alternatePeers.filter (· ≠ peer)
      match recovery.handover.filter (· ≠ peer) with
      | [] =>
          (false,
            { tracker with
              active := some { recovery with alternatePeers := alternatePeers, handover := [] } })
      | next :: rest =>
          (true,
            { tracker with
              active := some
                { recovery with
                  peer := next
                  pending := false
                  requestSentAt := none
                  alternatePeers := alternatePeers
                  handover := rest } })

/-- The fetch moves to the last of the alternates, if there is one. -/
def failOver (tracker : ForkRecoveryTracker Peer) (now : Nat) :
    Option (Peer × Hash) × ForkRecoveryTracker Peer :=
  match tracker.active with
  | none => (none, tracker)
  | some recovery =>
      match recovery.alternatePeers.getLast? with
      | none => (none, tracker)
      | some next =>
          sendFetch
            { tracker with
              active := some
                { recovery with
                  alternatePeers := recovery.alternatePeers.dropLast
                  peer := next
                  pending := false } }
            now

def nextFetch (tracker : ForkRecoveryTracker Peer) (now : Nat) :
    Option (Peer × Hash) × ForkRecoveryTracker Peer :=
  match tracker.active with
  | none => (none, tracker)
  | some recovery =>
      if recoveryTimeout < now - recovery.lastProgressAt then
        (none, tracker.cancel .sessionTimeout now)
      else if recovery.pending = false then tracker.sendFetch now
      else
        match recovery.requestSentAt with
        | none => (none, tracker)
        | some sentAt =>
            if now - sentAt ≤ requestTimeout then (none, tracker)
            else
              let handed := tracker.handOver recovery.peer
              if handed.1 then handed.2.sendFetch now else handed.2.failOver now

variable (blake3 : Bytes → Hash)

/-- The pending answer extends the walk. -/
def push (recovery : ActiveRecovery Peer) (peer : Peer) (block : Block) (now : Nat) :
    ActiveRecovery Peer :=
  { recovery with
    pending := false
    nextParent := block.header.prevHash
    blocks := recovery.blocks ++ [block]
    suppliers := recovery.suppliers ++ [some peer]
    lastProgressAt := now }

def handleBlock (tracker : ForkRecoveryTracker Peer) (peer : Peer) (block : Option Block)
    (now : Nat) : Bool × ForkRecoveryTracker Peer :=
  match tracker.active with
  | none => (false, tracker)
  | some recovery =>
      if ¬(recovery.pending = true ∧ recovery.peer = peer) then (false, tracker)
      else
        match block with
        | some block =>
            if block.header.hash blake3 ≠ recovery.nextParent then (false, tracker)
            else if tracker.otherChain block then
              (true, tracker.cancel .genesisHashMismatch now)
            else
              let pushed := { tracker with active := some (push recovery peer block now) }
              if maxRecoveryDepth < recovery.blocks.length + 1 then
                (true, pushed.cancel .exceededMaxDepth now)
              else (true, pushed)
        | none =>
            let handed :=
              handOver { tracker with active := some { recovery with pending := false } } peer
            if handed.1 then (true, handed.2)
            else (true, handed.2.cancel .peerDoesNotHaveBlock now)

def isPendingAnswer (tracker : ForkRecoveryTracker Peer) (peer : Peer) (block : Block) : Bool :=
  tracker.active.any fun recovery =>
    recovery.pending && decide (recovery.peer = peer) &&
      decide (block.header.hash blake3 = recovery.nextParent)

def awaitedFrom (tracker : ForkRecoveryTracker Peer) (peer : Peer) : Option Hash :=
  (tracker.active.filter fun recovery =>
    recovery.pending && decide (recovery.peer = peer)).map ActiveRecovery.nextParent

end

def heldSize (validKey : PublicKey → Bool) (blocks : List Block) : Nat :=
  (blocks.map (Block.size validKey)).sum

/-- The sum of the sizes starts with the first block that is counted. -/
def admitBytes (validKey : PublicKey → Bool) (tracker : ForkRecoveryTracker Peer)
    (block : Block) (max : Nat) : Bool × ForkRecoveryTracker Peer :=
  match tracker.active with
  | none => (true, tracker)
  | some recovery =>
      let held := recovery.heldBytes.getD (heldSize validKey recovery.blocks)
      let after := satAddAmount held (block.size validKey)
      if max < after then
        (false, { tracker with active := some { recovery with heldBytes := some held } })
      else (true, { tracker with active := some { recovery with heldBytes := some after } })

def pendingFetch (tracker : ForkRecoveryTracker Peer) : Option (Peer × Hash) :=
  (tracker.active.filter ActiveRecovery.pending).map fun recovery =>
    (recovery.peer, recovery.nextParent)

def currentParent (tracker : ForkRecoveryTracker Peer) : Option Hash :=
  (tracker.active.filter fun recovery => !recovery.pending).map ActiveRecovery.nextParent

def checkConnection (tracker : ForkRecoveryTracker Peer) (parentKnown : Bool) (now : Nat) :
    Option (CompletedRecovery Peer) × ForkRecoveryTracker Peer :=
  if parentKnown = false then (none, tracker)
  else
    match tracker.active with
    | none => (none, tracker)
    | some recovery =>
        (some
          { blocks := recovery.blocks.reverse
            connectionPoint := recovery.nextParent
            suppliers := recovery.suppliers.reverse },
          { tracker with active := none, cooldownUntil := some (now + recoveryCooldown) })

def isBranchRejected (tracker : ForkRecoveryTracker Peer) (branchTip localTip : Hash) : Bool :=
  decide ((branchTip, localTip) ∈ tracker.rejected)

def markBranchRejected (tracker : ForkRecoveryTracker Peer) (branchTip localTip : Hash) :
    ForkRecoveryTracker Peer :=
  if tracker.isBranchRejected branchTip localTip then tracker
  else
    let rejected :=
      if maxRejectedBranches ≤ tracker.rejected.length then tracker.rejected.drop 1
      else tracker.rejected
    { tracker with rejected := rejected ++ [(branchTip, localTip)] }

def takeExceededMaxDepth (tracker : ForkRecoveryTracker Peer) :
    Bool × ForkRecoveryTracker Peer :=
  (tracker.exceededMaxDepth, { tracker with exceededMaxDepth := false })

end ForkRecoveryTracker

/-! ## The calls of the sync manager and the node -/

/-- What a walk asks of an answer: the signature gate, the fork choice gate and the height
of the presence commitment. -/
structure WalkRules where
  crypto : Crypto
  blockSignatureActivationHeight : Nat
  forkChoiceActivationHeight : Nat
  attestationBlsActivationHeight : Nat

namespace WalkRules

variable (rules : WalkRules)

def signatureFails (localHeight : Nat) (block : Block) : Bool :=
  decide (rules.blockSignatureActivationHeight ≤ satAddAmount localHeight 1) &&
    decide (verifyBlockSignature block.header rules.crypto ≠ .ok ())

def gated (localHeight : Nat) : Bool :=
  decide (rules.forkChoiceActivationHeight ≤ satAddAmount localHeight 1)

def bodyPasses (block : Block) : Bool :=
  bodyMatchesHeader rules.crypto.primitives rules.attestationBlsActivationHeight none block &&
    aggregateFitsBitfield block.attestationBitfield block.aggregateBlsSignature

end WalkRules

/-- The bytes that a walk may hold. -/
def walkBound (localHeight : Nat) : Nat :=
  walkFullBlocks * maxBlockSize (satAddAmount localHeight 1)

namespace ForkRecoveryTracker

variable {Peer : Type} [DecidableEq Peer] (rules : WalkRules)

/-- The checks of the gate on a pending answer, then the tracker. -/
def gatedIntake (tracker : ForkRecoveryTracker Peer) (localHeight : Nat) (peer : Peer)
    (block : Block) (now : Nat) : Bool × ForkRecoveryTracker Peer :=
  if rules.bodyPasses block = false then (true, (tracker.handOver peer).2)
  else
    let admitted :=
      tracker.admitBytes rules.crypto.validKey block (walkBound localHeight)
    if admitted.1 = false then
      let handed := admitted.2.handOver peer
      (true,
        if handed.1 then handed.2 else handed.2.cancel .heldBodyBytesOverTheWalkBound now)
    else admitted.2.handleBlock rules.crypto.blake3 peer (some block) now

def walkIntake (tracker : ForkRecoveryTracker Peer) (localHeight : Nat) (peer : Peer)
    (block : Option Block) (now : Nat) : Bool × ForkRecoveryTracker Peer :=
  match block with
  | none => tracker.handleBlock rules.crypto.blake3 peer none now
  | some block =>
      if rules.signatureFails localHeight block &&
          tracker.isPendingAnswer rules.crypto.blake3 peer block then
        (true, tracker)
      else if rules.gated localHeight &&
          tracker.isPendingAnswer rules.crypto.blake3 peer block then
        tracker.gatedIntake rules localHeight peer block now
      else tracker.handleBlock rules.crypto.blake3 peer (some block) now

/-- `start`, then the alternates that the manager picks. -/
def startForkRecovery (tracker : ForkRecoveryTracker Peer) (orphan : Block) (peer : Peer)
    (alternates : List Peer) (now : Nat) : Bool × ForkRecoveryTracker Peer :=
  let started := tracker.start orphan peer now
  if started.1 then (true, started.2.setAlternatePeers alternates) else started

/-- The poll of the node: it asks only for a parent that no fetch is pending for. -/
def poll (tracker : ForkRecoveryTracker Peer) (known : Hash → Bool) (now : Nat) :
    Option (CompletedRecovery Peer) × ForkRecoveryTracker Peer :=
  match tracker.currentParent with
  | none => (none, tracker)
  | some parent => if known parent then tracker.checkConnection true now else (none, tracker)

end ForkRecoveryTracker

inductive WalkEvent (Peer : Type) where
  | start (orphan : Block) (peer : Peer) (alternates : List Peer) (now : Nat)
  | setHandoverPeers (peers : List Peer)
  | nextFetch (now : Nat)
  | intake (localHeight : Nat) (peer : Peer) (block : Option Block) (now : Nat)
  | poll (known : Hash → Bool) (now : Nat)
  | markBranchRejected (branchTip localTip : Hash)
  | takeExceededMaxDepth

def walkStep {Peer : Type} [DecidableEq Peer] (rules : WalkRules)
    (tracker : ForkRecoveryTracker Peer) : WalkEvent Peer → ForkRecoveryTracker Peer
  | .start orphan peer alternates now => (tracker.startForkRecovery orphan peer alternates now).2
  | .setHandoverPeers peers => tracker.setHandoverPeers peers
  | .nextFetch now => (tracker.nextFetch now).2
  | .intake localHeight peer block now => (tracker.walkIntake rules localHeight peer block now).2
  | .poll known now => (tracker.poll known now).2
  | .markBranchRejected branchTip localTip => tracker.markBranchRejected branchTip localTip
  | .takeExceededMaxDepth => tracker.takeExceededMaxDepth.2

/-! ## What a step can do -/

section

variable {Peer : Type}

/-- The walk goes on with the same blocks, and may have moved to a peer of its lists. -/
structure WalkKept (validKey : PublicKey → Bool) (before after : ActiveRecovery Peer) :
    Prop where
  blocks : after.blocks = before.blocks
  suppliers : after.suppliers = before.suppliers
  nextParent : after.nextParent = before.nextParent
  lists : ∀ peer, peer ∈ after.alternatePeers ∨ peer ∈ after.handover →
    peer ∈ before.alternatePeers ∨ peer ∈ before.handover
  peer : after.peer = before.peer ∨
    after.peer ≠ before.peer ∧
      (after.peer ∈ before.alternatePeers ∨ after.peer ∈ before.handover) ∧
      before.peer ∉ after.alternatePeers ∧ before.peer ∉ after.handover
  held : after.heldBytes = before.heldBytes ∨
    after.heldBytes =
      some (before.heldBytes.getD (ForkRecoveryTracker.heldSize validKey before.blocks))

variable {validKey : PublicKey → Bool} {recovery next : ActiveRecovery Peer}

theorem walkKept_refl (recovery : ActiveRecovery Peer) : WalkKept validKey recovery recovery :=
  ⟨rfl, rfl, rfl, fun _ => id, .inl rfl, .inl rfl⟩

theorem WalkKept.left {validKey : PublicKey → Bool} {before after : ActiveRecovery Peer}
    {peer : Peer} (hkept : WalkKept validKey before after)
    (hleft : before.peer ≠ peer ∧ peer ∉ before.alternatePeers ∧ peer ∉ before.handover) :
    after.peer ≠ peer ∧ peer ∉ after.alternatePeers ∧ peer ∉ after.handover := by
  have hlists : ¬(peer ∈ after.alternatePeers ∨ peer ∈ after.handover) := fun hmem =>
    (hkept.lists peer hmem).elim hleft.2.1 hleft.2.2
  refine ⟨?_, fun hmem => hlists (.inl hmem), fun hmem => hlists (.inr hmem)⟩
  rintro rfl
  rcases hkept.peer with hsame | ⟨-, hmem, -⟩
  · exact hleft.1 hsame.symm
  · exact hmem.elim hleft.2.1 hleft.2.2

theorem WalkKept.of_counted {held : Nat}
    (hheld : held = recovery.heldBytes.getD (ForkRecoveryTracker.heldSize validKey recovery.blocks))
    (hkept : WalkKept validKey { recovery with heldBytes := some held } next) :
    WalkKept validKey recovery next := by
  subst hheld
  refine ⟨hkept.blocks, hkept.suppliers, hkept.nextParent, hkept.lists, hkept.peer, .inr ?_⟩
  rcases hkept.held with h | h <;> simpa using h

theorem maxBlockSize_mono {low high : Nat} (hle : low ≤ high) :
    maxBlockSize low ≤ maxBlockSize high := by
  have hera : low / blocksPerEra ≤ high / blocksPerEra :=
    Nat.div_le_div_right hle
  unfold maxBlockSize
  generalize low / blocksPerEra = first at hera ⊢
  generalize high / blocksPerEra = second at hera ⊢
  split
  · rw [if_pos (by omega)]
  · split
    · have hpow : 2 ^ first ≤ 2 ^ 4 := Nat.pow_le_pow_right (by omega) (by omega)
      omega
    · exact Nat.mul_le_mul_left _ (Nat.pow_le_pow_right (by omega) hera)

theorem walkBound_mono {low high : Nat} (hle : low ≤ high) : walkBound low ≤ walkBound high :=
  Nat.mul_le_mul_left _ (maxBlockSize_mono (by unfold satAddAmount; omega))

theorem walkBound_lt (height : Nat) : walkBound height < 2 ^ 64 - 1 := by
  have hsize := maxBlockSize_le (satAddAmount height 1)
  unfold walkBound walkFullBlocks
  omega

/-- The count of a walk is right, and bounds every walk that has taken an answer. -/
def ActiveRecovery.Bounded (validKey : PublicKey → Bool) (height : Nat)
    (recovery : ActiveRecovery Peer) : Prop :=
  (∀ held, recovery.heldBytes = some held →
      held = ForkRecoveryTracker.heldSize validKey recovery.blocks) ∧
    (1 < recovery.blocks.length →
      ForkRecoveryTracker.heldSize validKey recovery.blocks ≤ walkBound height)

theorem ActiveRecovery.Bounded.counted {validKey : PublicKey → Bool} {height : Nat}
    {recovery : ActiveRecovery Peer} (hbounded : recovery.Bounded validKey height) :
    recovery.heldBytes.getD (ForkRecoveryTracker.heldSize validKey recovery.blocks) =
      ForkRecoveryTracker.heldSize validKey recovery.blocks := by
  cases hheld : recovery.heldBytes with
  | none => rfl
  | some held => exact hbounded.1 held hheld

theorem WalkKept.bounded {validKey : PublicKey → Bool} {height : Nat}
    {before after : ActiveRecovery Peer} (hkept : WalkKept validKey before after)
    (hbounded : before.Bounded validKey height) : after.Bounded validKey height := by
  rw [ActiveRecovery.Bounded, hkept.blocks]
  refine ⟨fun held hheld => ?_, hbounded.2⟩
  rcases hkept.held with hsame | hcounted
  · exact hbounded.1 held (hsame ▸ hheld)
  · rw [hcounted, hbounded.counted] at hheld
    exact (Option.some.inj hheld).symm

end

namespace ForkRecoveryTracker

variable {Peer : Type} {tracker : ForkRecoveryTracker Peer} {recovery : ActiveRecovery Peer}
  {validKey : PublicKey → Bool}

@[simp] theorem cancel_active (reason : CancelReason) (now : Nat) :
    (tracker.cancel reason now).active = none := by
  simp only [cancel]
  split
  case h_1 hnone => exact hnone
  case h_2 => rfl

@[simp] theorem cancel_genesisHash (reason : CancelReason) (now : Nat) :
    (tracker.cancel reason now).genesisHash = tracker.genesisHash := by
  simp only [cancel]
  split <;> split <;> rfl

theorem expireStaleSession_active (tracker : ForkRecoveryTracker Peer) (now : Nat) :
    (tracker.expireStaleSession now).active = none ∨
      tracker.expireStaleSession now = tracker := by
  unfold expireStaleSession
  split
  · exact .inr rfl
  · split
    · exact .inl (cancel_active _ _)
    · exact .inr rfl

theorem expireStaleSession_genesisHash (tracker : ForkRecoveryTracker Peer) (now : Nat) :
    (tracker.expireStaleSession now).genesisHash = tracker.genesisHash := by
  unfold expireStaleSession
  split
  · rfl
  · split
    · exact cancel_genesisHash _ _
    · rfl

theorem otherChain_congr {other : ForkRecoveryTracker Peer} (block : Block)
    (hgenesis : other.genesisHash = tracker.genesisHash) :
    other.otherChain block = tracker.otherChain block := by
  rw [otherChain, otherChain, hgenesis]

theorem otherChain_false {block : Block} (hchain : tracker.otherChain block = false) :
    tracker.genesisHash = ⟨0⟩ ∨ block.header.genesisHash = tracker.genesisHash := by
  simpa [otherChain, or_iff_not_imp_left] using hchain

theorem start_cases (tracker : ForkRecoveryTracker Peer) (orphan : Block) (peer : Peer)
    (now : Nat) :
    tracker.start orphan peer now = (false, tracker.expireStaleSession now) ∨
      tracker.otherChain orphan = false ∧
        tracker.start orphan peer now =
          (true,
            { tracker.expireStaleSession now with
              active := some
                { blocks := [orphan]
                  suppliers := [none]
                  nextParent := orphan.header.prevHash
                  pending := false
                  peer := peer
                  lastProgressAt := now
                  requestSentAt := none
                  alternatePeers := []
                  handover := []
                  heldBytes := none } }) := by
  rw [start]
  dsimp only
  split
  · exact .inl rfl
  · split
    · exact .inl rfl
    · split
      · exact .inl rfl
      case isFalse hchain =>
        rw [otherChain_congr orphan (expireStaleSession_genesisHash tracker now)] at hchain
        exact .inr ⟨by simpa using hchain, rfl⟩

theorem poll_cases (tracker : ForkRecoveryTracker Peer) (known : Hash → Bool) (now : Nat) :
    tracker.poll known now = (none, tracker) ∨
      ∃ recovery, tracker.active = some recovery ∧ known recovery.nextParent = true ∧
        tracker.poll known now =
          (some
            { blocks := recovery.blocks.reverse
              connectionPoint := recovery.nextParent
              suppliers := recovery.suppliers.reverse },
            { tracker with
              active := none, cooldownUntil := some (now + recoveryCooldown) }) := by
  cases hactive : tracker.active with
  | none => exact .inl (by simp [poll, currentParent, hactive])
  | some recovery =>
      cases hpending : recovery.pending with
      | true => exact .inl (by simp [poll, currentParent, Option.filter, hactive, hpending])
      | false =>
          cases hknown : known recovery.nextParent with
          | false =>
              exact .inl (by
                simp [poll, currentParent, Option.filter, hactive, hpending, hknown])
          | true =>
              refine .inr ⟨recovery, rfl, hknown, ?_⟩
              simp [poll, currentParent, checkConnection, Option.filter, hactive, hpending, hknown]

theorem sendFetch_active (hactive : tracker.active = some recovery) (now : Nat) :
    tracker.sendFetch now = (some (recovery.peer, recovery.nextParent),
      { tracker with
        active := some { recovery with pending := true, requestSentAt := some now } }) := by
  rw [sendFetch, hactive]

section

variable [DecidableEq Peer]

theorem handOver_active (validKey : PublicKey → Bool) (hactive : tracker.active = some recovery) :
    ∃ next, (tracker.handOver recovery.peer).2 = { tracker with active := some next } ∧
      WalkKept validKey recovery next ∧ next.heldBytes = recovery.heldBytes ∧
      ((tracker.handOver recovery.peer).1 = false →
        next.peer = recovery.peer ∧ recovery.peer ∉ next.alternatePeers ∧ next.handover = []) := by
  have hfiltered : ∀ {peers : List Peer} {peer : Peer}, peer ∈ peers.filter (· ≠ recovery.peer) →
      peer ∈ peers ∧ peer ≠ recovery.peer := fun hpeer => by simpa using hpeer
  have hstruck : ∀ peers : List Peer, recovery.peer ∉ peers.filter (· ≠ recovery.peer) := by simp
  simp only [handOver, hactive]
  split
  case h_1 =>
    refine ⟨_, rfl, ⟨rfl, rfl, rfl, fun peer hpeer => ?_, .inl rfl, .inl rfl⟩, rfl,
      fun _ => ⟨rfl, hstruck _, rfl⟩⟩
    exact .inl (hpeer.elim (fun h => (hfiltered h).1) fun h => by simp at h)
  case h_2 next rest hnext =>
    have hmem : ∀ peer ∈ next :: rest, peer ∈ recovery.handover ∧ peer ≠ recovery.peer :=
      fun peer hpeer => hfiltered (hnext ▸ hpeer)
    refine ⟨_, rfl, ⟨rfl, rfl, rfl, fun peer hpeer => ?_, .inr ⟨?_, ?_, hstruck _, ?_⟩, .inl rfl⟩,
      rfl, fun hfalse => by simp at hfalse⟩
    · exact hpeer.imp (fun h => (hfiltered h).1)
        fun h => (hmem peer (List.mem_cons_of_mem _ h)).1
    · exact (hmem next List.mem_cons_self).2
    · exact .inr (hmem next List.mem_cons_self).1
    · exact fun h => (hmem _ (List.mem_cons_of_mem _ h)).2 rfl

theorem nextFetch_active (validKey : PublicKey → Bool) (hactive : tracker.active = some recovery)
    (now : Nat) :
    (tracker.nextFetch now).2.genesisHash = tracker.genesisHash ∧
      ((tracker.nextFetch now).1 = none ∧ (tracker.nextFetch now).2.active = none ∨
        ∃ next, (tracker.nextFetch now).2.active = some next ∧
          WalkKept validKey recovery next ∧ next.heldBytes = recovery.heldBytes ∧
          ∀ request, (tracker.nextFetch now).1 = some request →
            request = (next.peer, next.nextParent)) := by
  have hself : ∃ next, tracker.active = some next ∧ WalkKept validKey recovery next ∧
      next.heldBytes = recovery.heldBytes :=
    ⟨recovery, hactive, walkKept_refl recovery, rfl⟩
  simp only [nextFetch, hactive]
  split
  · exact ⟨cancel_genesisHash _ _, .inl ⟨rfl, cancel_active _ _⟩⟩
  · split
    · rw [sendFetch_active hactive]
      refine ⟨rfl, .inr ⟨_, rfl, ⟨rfl, rfl, rfl, fun _ => id, .inl rfl, .inl rfl⟩, rfl, ?_⟩⟩
      exact fun request hrequest => (Option.some.inj hrequest).symm
    · split
      · obtain ⟨next, hnext, hkept, hheld⟩ := hself
        exact ⟨rfl, .inr ⟨next, hnext, hkept, hheld, fun _ h => by simp at h⟩⟩
      · split
        · obtain ⟨next, hnext, hkept, hheld⟩ := hself
          exact ⟨rfl, .inr ⟨next, hnext, hkept, hheld, fun _ h => by simp at h⟩⟩
        · obtain ⟨handed, hhanded, hkept, hheld, hlast⟩ :=
            handOver_active validKey hactive
          rw [hhanded]
          split
          · rw [sendFetch_active rfl]
            refine ⟨rfl, .inr ⟨_, rfl, ⟨hkept.blocks, hkept.suppliers, hkept.nextParent,
              hkept.lists, hkept.peer, hkept.held⟩, hheld, ?_⟩⟩
            exact fun request hrequest => (Option.some.inj hrequest).symm
          case isFalse hfalse =>
            obtain ⟨hpeer, hstruck, hempty⟩ := hlast (by simpa using hfalse)
            simp only [failOver]
            split
            · exact ⟨rfl, .inr ⟨handed, rfl, hkept, hheld, fun _ h => by simp at h⟩⟩
            case h_2 next hnext =>
              have hmem : next ∈ handed.alternatePeers := List.mem_of_getLast? hnext
              have hne : next ≠ recovery.peer := fun heq => hstruck (heq ▸ hmem)
              rw [sendFetch_active rfl]
              refine ⟨rfl, .inr ⟨_, rfl, ⟨hkept.blocks, hkept.suppliers, hkept.nextParent,
                fun peer hpeer => ?_, .inr ⟨hne, hkept.lists next (.inl hmem), ?_, ?_⟩,
                hkept.held⟩, hheld, ?_⟩⟩
              · exact hkept.lists peer (hpeer.imp_left List.mem_of_mem_dropLast)
              · exact fun h => hstruck (List.mem_of_mem_dropLast h)
              · simp [hempty]
              · exact fun request hrequest => (Option.some.inj hrequest).symm

end

end ForkRecoveryTracker

/-- What a step may do to the walk. -/
inductive WalkMove {Peer : Type} [DecidableEq Peer] (rules : WalkRules)
    (tracker : ForkRecoveryTracker Peer) (event : WalkEvent Peer) :
    Option (ActiveRecovery Peer) → Prop where
  | ended : WalkMove rules tracker event none
  | kept {recovery next : ActiveRecovery Peer} (active : tracker.active = some recovery)
      (keeps : WalkKept rules.crypto.validKey recovery next) :
      WalkMove rules tracker event (some next)
  | named {recovery : ActiveRecovery Peer} {peers : List Peer}
      (named : event = .setHandoverPeers peers) (active : tracker.active = some recovery) :
      WalkMove rules tracker event
        (some { recovery with handover := peers.filter (· ≠ recovery.peer) })
  | started {orphan : Block} {peer : Peer} {alternates : List Peer} {now : Nat}
      (starts : event = .start orphan peer alternates now)
      (accepted : (tracker.startForkRecovery orphan peer alternates now).1 = true)
      (chain : tracker.otherChain orphan = false) :
      WalkMove rules tracker event
        (some
          { blocks := [orphan]
            suppliers := [none]
            nextParent := orphan.header.prevHash
            pending := false
            peer := peer
            lastProgressAt := now
            requestSentAt := none
            alternatePeers := alternates.filter (· ≠ peer)
            handover := []
            heldBytes := none })
  | pushed {recovery : ActiveRecovery Peer} {localHeight : Nat} {block : Block} {now : Nat}
      {held : Option Nat}
      (answers : event = .intake localHeight recovery.peer (some block) now)
      (active : tracker.active = some recovery)
      (awaited : block.header.hash rules.crypto.blake3 = recovery.nextParent)
      (chain : tracker.otherChain block = false)
      (room : recovery.blocks.length + 1 ≤ maxRecoveryDepth)
      (signed : rules.signatureFails localHeight block = false)
      (checked : rules.gated localHeight = true → rules.bodyPasses block = true ∧
        held = some (satAddAmount
          (recovery.heldBytes.getD
            (ForkRecoveryTracker.heldSize rules.crypto.validKey recovery.blocks))
          (block.size rules.crypto.validKey)) ∧
        satAddAmount
          (recovery.heldBytes.getD
            (ForkRecoveryTracker.heldSize rules.crypto.validKey recovery.blocks))
          (block.size rules.crypto.validKey) ≤ walkBound localHeight)
      (unchecked : rules.gated localHeight = false → held = recovery.heldBytes) :
      WalkMove rules tracker event
        (some { ForkRecoveryTracker.push recovery recovery.peer block now with heldBytes := held })

namespace ForkRecoveryTracker

variable {Peer : Type} [DecidableEq Peer] {rules : WalkRules}
  {tracker : ForkRecoveryTracker Peer} {recovery : ActiveRecovery Peer}

theorem walkMove_self (tracker : ForkRecoveryTracker Peer) (rules : WalkRules)
    (event : WalkEvent Peer) : WalkMove rules tracker event tracker.active := by
  cases hactive : tracker.active with
  | none => exact .ended
  | some recovery => exact .kept hactive (walkKept_refl recovery)

theorem walkMove_of_none {event : WalkEvent Peer} {active : Option (ActiveRecovery Peer)}
    (hnone : active = none) : WalkMove rules tracker event active := hnone ▸ .ended

theorem handleBlock_some (rules : WalkRules) (hactive : tracker.active = some recovery)
    (hpending : recovery.pending = true) {block : Block}
    (hawaited : block.header.hash rules.crypto.blake3 = recovery.nextParent) (now : Nat) :
    (tracker.handleBlock rules.crypto.blake3 recovery.peer (some block) now).2.genesisHash =
        tracker.genesisHash ∧
      ((tracker.handleBlock rules.crypto.blake3 recovery.peer (some block) now).2.active = none ∨
        tracker.otherChain block = false ∧ recovery.blocks.length + 1 ≤ maxRecoveryDepth ∧
          (tracker.handleBlock rules.crypto.blake3 recovery.peer (some block) now).2.active =
            some (push recovery recovery.peer block now)) := by
  simp only [handleBlock, hactive]
  rw [if_neg (by simp [hpending]), if_neg (by simp [hawaited])]
  split
  · exact ⟨cancel_genesisHash _ _, .inl (cancel_active _ _)⟩
  case isFalse hchain =>
    split
    · exact ⟨cancel_genesisHash _ _, .inl (cancel_active _ _)⟩
    case isFalse hroom =>
      exact ⟨rfl, .inr ⟨by simpa using hchain, by omega, rfl⟩⟩

theorem handleBlock_none (rules : WalkRules) (hactive : tracker.active = some recovery)
    (peer : Peer) (now : Nat) :
    (tracker.handleBlock rules.crypto.blake3 peer none now).2.genesisHash = tracker.genesisHash ∧
      ((tracker.handleBlock rules.crypto.blake3 peer none now).2.active = none ∨
        ∃ next, (tracker.handleBlock rules.crypto.blake3 peer none now).2.active = some next ∧
          WalkKept rules.crypto.validKey recovery next) := by
  simp only [handleBlock, hactive]
  split
  · exact ⟨rfl, .inr ⟨recovery, hactive, walkKept_refl recovery⟩⟩
  case isFalse hanswers =>
    obtain ⟨-, rfl⟩ := not_not.mp hanswers
    have hidle : ForkRecoveryTracker.active
        { tracker with active := some { recovery with pending := false } } =
          some { recovery with pending := false } := rfl
    obtain ⟨next, hnext, hkept, -⟩ := handOver_active rules.crypto.validKey hidle
    simp only at hnext
    rw [hnext]
    split
    · exact ⟨rfl, .inr ⟨next, rfl, hkept.blocks, hkept.suppliers, hkept.nextParent, hkept.lists,
        hkept.peer, hkept.held⟩⟩
    · exact ⟨cancel_genesisHash _ _, .inl (cancel_active _ _)⟩

theorem handleBlock_other {peer : Peer} {block : Block}
    (hother : tracker.isPendingAnswer rules.crypto.blake3 peer block = false) (now : Nat) :
    (tracker.handleBlock rules.crypto.blake3 peer (some block) now).2 = tracker := by
  cases hactive : tracker.active with
  | none => simp [handleBlock, hactive]
  | some recovery =>
      simp only [isPendingAnswer, hactive, Option.any_some, Bool.and_eq_false_iff,
        decide_eq_false_iff_not] at hother
      simp only [handleBlock, hactive]
      split
      · rfl
      case isFalse hanswers =>
        obtain ⟨hpending, hpeer⟩ := not_not.mp hanswers
        have hhash : block.header.hash rules.crypto.blake3 ≠ recovery.nextParent := by
          rcases hother with (h | h) | h
          · simp [hpending] at h
          · exact absurd hpeer h
          · exact h
        rw [if_pos hhash]

theorem eq_of_isPendingAnswer {peer : Peer} {block : Block}
    (hanswer : tracker.isPendingAnswer rules.crypto.blake3 peer block = true) :
    ∃ recovery, tracker.active = some recovery ∧ recovery.pending = true ∧
      recovery.peer = peer ∧ block.header.hash rules.crypto.blake3 = recovery.nextParent := by
  cases hactive : tracker.active with
  | none => simp [isPendingAnswer, hactive] at hanswer
  | some recovery =>
      simp only [isPendingAnswer, hactive, Option.any_some, Bool.and_eq_true,
        decide_eq_true_eq] at hanswer
      exact ⟨recovery, rfl, hanswer.1.1, hanswer.1.2, hanswer.2⟩

theorem walkIntake_move (localHeight : Nat) (peer : Peer) (block : Option Block) (now : Nat) :
    (tracker.walkIntake rules localHeight peer block now).2.genesisHash = tracker.genesisHash ∧
      WalkMove rules tracker (.intake localHeight peer block now)
        (tracker.walkIntake rules localHeight peer block now).2.active := by
  have hself := tracker.walkMove_self rules
    (.intake localHeight peer block now)
  cases block with
  | none =>
      rw [walkIntake]
      cases hactive : tracker.active with
      | none => simpa [handleBlock, hactive] using WalkMove.ended
      | some recovery =>
          obtain ⟨hgenesis, hnone | ⟨next, hnext, hkept⟩⟩ :=
            handleBlock_none rules hactive peer now
          · exact ⟨hgenesis, walkMove_of_none hnone⟩
          · exact ⟨hgenesis, hnext ▸ .kept hactive hkept⟩
  | some block =>
      rw [walkIntake]
      cases hanswer : tracker.isPendingAnswer rules.crypto.blake3 peer block with
      | false =>
          simp only [Bool.and_false, Bool.false_eq_true, if_false]
          rw [handleBlock_other hanswer now]
          exact ⟨rfl, hself⟩
      | true =>
          obtain ⟨recovery, hactive, hpending, rfl, hawaited⟩ := eq_of_isPendingAnswer hanswer
          simp only [Bool.and_true]
          split
          · exact ⟨rfl, hself⟩
          case isFalse hsigned =>
            rw [Bool.not_eq_true] at hsigned
            split
            case isFalse hgate =>
              rw [Bool.not_eq_true] at hgate
              obtain ⟨hgenesis, hnone | ⟨hchain, hroom, hpush⟩⟩ :=
                handleBlock_some rules hactive hpending hawaited now
              · exact ⟨hgenesis, walkMove_of_none hnone⟩
              · refine ⟨hgenesis, hpush ▸ ?_⟩
                exact .pushed rfl hactive hawaited hchain hroom hsigned
                  (fun hgated => by simp [hgate] at hgated) fun _ => rfl
            case isTrue hgate =>
              unfold gatedIntake
              split
              case isTrue =>
                obtain ⟨next, hnext, hkept, -⟩ :=
                  handOver_active rules.crypto.validKey hactive
                exact ⟨by rw [hnext], hnext ▸ .kept hactive hkept⟩
              case isFalse hbody =>
                simp only [admitBytes, hactive]
                split
                case isTrue hfull =>
                  have hcounted : ForkRecoveryTracker.active
                      { tracker with
                        active := some { recovery with
                          heldBytes := some (recovery.heldBytes.getD
                            (heldSize rules.crypto.validKey recovery.blocks)) } } =
                        some { recovery with
                          heldBytes := some (recovery.heldBytes.getD
                            (heldSize rules.crypto.validKey recovery.blocks)) } := rfl
                  obtain ⟨next, hnext, hkept, -⟩ :=
                    handOver_active rules.crypto.validKey hcounted
                  simp only at hnext
                  simp only [if_true]
                  rw [hnext]
                  split
                  · exact ⟨rfl, .kept hactive (hkept.of_counted rfl)⟩
                  · exact ⟨cancel_genesisHash _ _, walkMove_of_none (cancel_active _ _)⟩
                case isFalse hfits =>
                  simp only [Bool.true_eq_false, if_false]
                  have hcounted : ForkRecoveryTracker.active
                      { tracker with
                        active := some { recovery with
                          heldBytes := some (satAddAmount
                            (recovery.heldBytes.getD
                              (heldSize rules.crypto.validKey recovery.blocks))
                            (block.size rules.crypto.validKey)) } } =
                        some { recovery with
                          heldBytes := some (satAddAmount
                            (recovery.heldBytes.getD
                              (heldSize rules.crypto.validKey recovery.blocks))
                            (block.size rules.crypto.validKey)) } := rfl
                  obtain ⟨hgenesis, hnone | ⟨hchain, hroom, hpush⟩⟩ :=
                    handleBlock_some rules hcounted hpending hawaited now
                  · exact ⟨hgenesis, walkMove_of_none hnone⟩
                  · have hmove : WalkMove rules tracker
                        (.intake localHeight recovery.peer (some block) now)
                        (some
                          { push recovery recovery.peer block now with
                            heldBytes := some (satAddAmount
                              (recovery.heldBytes.getD
                                (heldSize rules.crypto.validKey recovery.blocks))
                              (block.size rules.crypto.validKey)) }) :=
                      .pushed rfl hactive hawaited hchain hroom hsigned
                        (fun _ => ⟨by simpa using hbody, rfl, Nat.le_of_not_lt hfits⟩)
                        fun hungated => by simp [hgate] at hungated
                    exact ⟨hgenesis, hpush ▸ hmove⟩

theorem start_move (orphan : Block) (peer : Peer) (alternates : List Peer) (now : Nat) :
    (tracker.startForkRecovery orphan peer alternates now).2.genesisHash =
        tracker.genesisHash ∧
      WalkMove rules tracker (.start orphan peer alternates now)
        (tracker.startForkRecovery orphan peer alternates now).2.active := by
  have hgenesis := tracker.expireStaleSession_genesisHash now
  rcases tracker.start_cases orphan peer now with hstart | ⟨hchain, hstart⟩
  · simp only [startForkRecovery, hstart, Bool.false_eq_true, if_false]
    refine ⟨hgenesis, ?_⟩
    rcases tracker.expireStaleSession_active now with h | h
    · exact walkMove_of_none h
    · rw [h]
      exact tracker.walkMove_self rules _
  · have haccepted : (tracker.startForkRecovery orphan peer alternates now).1 = true := by
      simp [startForkRecovery, hstart]
    have hmove : WalkMove rules tracker _ _ := .started rfl haccepted hchain
    simpa [startForkRecovery, hstart, setAlternatePeers, hgenesis] using hmove

theorem setHandoverPeers_move (peers : List Peer) :
    WalkMove rules tracker (.setHandoverPeers peers)
      (tracker.setHandoverPeers peers).active := by
  cases hactive : tracker.active with
  | none => simpa [setHandoverPeers, hactive] using WalkMove.ended
  | some recovery =>
      have hmove : WalkMove rules tracker (.setHandoverPeers peers) _ := .named rfl hactive
      simpa [setHandoverPeers, hactive] using hmove

theorem nextFetch_move (now : Nat) :
    (tracker.nextFetch now).2.genesisHash = tracker.genesisHash ∧
      WalkMove rules tracker (.nextFetch now) (tracker.nextFetch now).2.active := by
  cases hactive : tracker.active with
  | none =>
      simp only [nextFetch, hactive]
      exact ⟨trivial, .ended⟩
  | some recovery =>
      obtain ⟨hgenesis, ⟨-, hnone⟩ | ⟨next, hnext, hkept, -⟩⟩ :=
        nextFetch_active rules.crypto.validKey hactive now
      · exact ⟨hgenesis, walkMove_of_none hnone⟩
      · exact ⟨hgenesis, hnext ▸ .kept hactive hkept⟩

end ForkRecoveryTracker

section

variable {Peer : Type} [DecidableEq Peer] {rules : WalkRules}

theorem walkStep_move (rules : WalkRules) (tracker : ForkRecoveryTracker Peer)
    (event : WalkEvent Peer) :
    (walkStep rules tracker event).genesisHash = tracker.genesisHash ∧
      WalkMove rules tracker event (walkStep rules tracker event).active := by
  cases event with
  | start orphan peer alternates now => exact tracker.start_move orphan peer alternates now
  | setHandoverPeers peers => exact ⟨rfl, tracker.setHandoverPeers_move peers⟩
  | nextFetch now => exact tracker.nextFetch_move now
  | intake localHeight peer block now => exact tracker.walkIntake_move localHeight peer block now
  | poll known now =>
      rcases tracker.poll_cases known now with hpoll | ⟨recovery, -, -, hpoll⟩
      · simp only [walkStep, hpoll]
        exact ⟨trivial, tracker.walkMove_self rules _⟩
      · simp only [walkStep, hpoll]
        exact ⟨trivial, .ended⟩
  | markBranchRejected branchTip localTip =>
      have hactive : (tracker.markBranchRejected branchTip localTip).active = tracker.active := by
        unfold ForkRecoveryTracker.markBranchRejected
        split <;> rfl
      refine ⟨?_, hactive ▸ tracker.walkMove_self rules _⟩
      simp only [walkStep, ForkRecoveryTracker.markBranchRejected]
      split <;> rfl
  | takeExceededMaxDepth => exact ⟨rfl, tracker.walkMove_self rules _⟩

end

/-! ## What a finished walk hands over -/

/-- One block of a walk, as its intake had it. -/
structure WalkAnswer (Peer : Type) where
  localHeight : Nat
  peer : Peer
  block : Block
  now : Nat

/-- A start and the answers that the walk took after it. -/
structure Walk (Peer : Type) where
  orphan : Block
  peer : Peer
  alternates : List Peer
  started : Nat
  answers : List (WalkAnswer Peer)

section

variable {Peer : Type}

def WalkAnswer.event (answer : WalkAnswer Peer) : WalkEvent Peer :=
  .intake answer.localHeight answer.peer (some answer.block) answer.now

namespace Walk

def calls (walk : Walk Peer) : List (WalkEvent Peer) :=
  .start walk.orphan walk.peer walk.alternates walk.started ::
    walk.answers.map WalkAnswer.event

/-- Newest first. -/
def blocks (walk : Walk Peer) : List Block := walk.orphan :: walk.answers.map WalkAnswer.block

/-- The orphan has no supplier. -/
def suppliers (walk : Walk Peer) : List (Option Peer) :=
  none :: walk.answers.map fun answer => some answer.peer

def push (walk : Walk Peer) (answer : WalkAnswer Peer) : Walk Peer :=
  { walk with answers := walk.answers ++ [answer] }

/-- Each answer passed the checks of its intake, and the blocks are a chain of the network
that starts above `parent`. -/
structure Sound (rules : WalkRules) (genesisHash parent : Hash) (walk : Walk Peer) : Prop where
  signed : ∀ answer ∈ walk.answers, rules.signatureFails answer.localHeight answer.block = false
  checked : ∀ answer ∈ walk.answers, rules.gated answer.localHeight = true →
    rules.bodyPasses answer.block = true
  linked : LinkedFrom (fun block : Block => block.header.hash rules.crypto.blake3)
    (fun block => block.header.prevHash) parent walk.blocks.reverse
  chain : ∀ block ∈ walk.blocks, genesisHash = ⟨0⟩ ∨ block.header.genesisHash = genesisHash
  room : walk.blocks.length ≤ maxRecoveryDepth

variable {rules : WalkRules} {genesisHash parent : Hash} {walk : Walk Peer}

theorem push_calls (walk : Walk Peer) (answer : WalkAnswer Peer) :
    (walk.push answer).calls = walk.calls ++ [answer.event] := by
  simp [calls, push]

theorem push_blocks (walk : Walk Peer) (answer : WalkAnswer Peer) :
    (walk.push answer).blocks = walk.blocks ++ [answer.block] := by
  simp [blocks, push]

theorem push_suppliers (walk : Walk Peer) (answer : WalkAnswer Peer) :
    (walk.push answer).suppliers = walk.suppliers ++ [some answer.peer] := by
  simp [suppliers, push]

theorem Sound.push (hsound : walk.Sound rules genesisHash parent) (answer : WalkAnswer Peer)
    (hawaited : answer.block.header.hash rules.crypto.blake3 = parent)
    (hsigned : rules.signatureFails answer.localHeight answer.block = false)
    (hchecked : rules.gated answer.localHeight = true → rules.bodyPasses answer.block = true)
    (hchain : genesisHash = ⟨0⟩ ∨ answer.block.header.genesisHash = genesisHash)
    (hroom : walk.blocks.length + 1 ≤ maxRecoveryDepth) :
    (walk.push answer).Sound rules genesisHash answer.block.header.prevHash where
  signed := by
    intro other hother
    rcases List.mem_append.mp hother with hother | hother
    · exact hsound.signed other hother
    · exact List.mem_singleton.mp hother ▸ hsigned
  checked := by
    intro other hother
    rcases List.mem_append.mp hother with hother | hother
    · exact hsound.checked other hother
    · exact List.mem_singleton.mp hother ▸ hchecked
  linked := by
    rw [push_blocks, List.reverse_append, List.reverse_singleton, List.singleton_append]
    subst hawaited
    exact ⟨rfl, hsound.linked⟩
  chain := by
    intro block hblock
    rw [push_blocks] at hblock
    rcases List.mem_append.mp hblock with hblock | hblock
    · exact hsound.chain block hblock
    · exact List.mem_singleton.mp hblock ▸ hchain
  room := by simpa [push_blocks] using hroom

end Walk

/-- The walk of a tracker, if it has one, is a walk of the calls so far. -/
structure WalkTracked (rules : WalkRules) (genesisHash : Hash) (events : List (WalkEvent Peer))
    (tracker : ForkRecoveryTracker Peer) : Prop where
  genesis : tracker.genesisHash = genesisHash
  walked : ∀ recovery, tracker.active = some recovery →
    ∃ walk : Walk Peer, walk.calls.Sublist events ∧ recovery.blocks = walk.blocks ∧
      recovery.suppliers = walk.suppliers ∧ walk.Sound rules genesisHash recovery.nextParent

variable [DecidableEq Peer] {rules : WalkRules} {genesisHash : Hash}

theorem WalkTracked.step {events : List (WalkEvent Peer)} {tracker : ForkRecoveryTracker Peer}
    (htracked : WalkTracked rules genesisHash events tracker) (event : WalkEvent Peer) :
    WalkTracked rules genesisHash (events ++ [event]) (walkStep rules tracker event) := by
  obtain ⟨hgenesis, hmove⟩ := walkStep_move rules tracker event
  refine ⟨hgenesis.trans htracked.genesis, fun recovery hrecovery => ?_⟩
  rw [hrecovery] at hmove
  have hgrown : events.Sublist (events ++ [event]) := List.sublist_append_left _ _
  cases hmove with
  | kept hactive hkept =>
      obtain ⟨walk, hcalls, hblocks, hsuppliers, hsound⟩ := htracked.walked _ hactive
      refine ⟨walk, hcalls.trans hgrown, ?_⟩
      rw [hkept.blocks, hkept.suppliers, hkept.nextParent]
      exact ⟨hblocks, hsuppliers, hsound⟩
  | named hnamed hactive =>
      obtain ⟨walk, hcalls, hwalk⟩ := htracked.walked _ hactive
      exact ⟨walk, hcalls.trans hgrown, hwalk⟩
  | @started orphan peer alternates now hstarts haccepted hchain =>
      have hchain := ForkRecoveryTracker.otherChain_false hchain
      rw [htracked.genesis] at hchain
      refine ⟨⟨orphan, peer, alternates, now, []⟩, by simp [Walk.calls, hstarts], rfl, rfl, ?_⟩
      exact
        { signed := by simp
          checked := by simp
          linked := ⟨rfl, trivial⟩
          chain := by simpa [Walk.blocks] using hchain
          room := by simp [Walk.blocks, maxRecoveryDepth] }
  | @pushed before localHeight block now held hanswers hactive hawaited hchain hroom hsigned
      hchecked hunchecked =>
      obtain ⟨walk, hcalls, hblocks, hsuppliers, hsound⟩ := htracked.walked _ hactive
      have hchain := ForkRecoveryTracker.otherChain_false hchain
      rw [htracked.genesis] at hchain
      refine ⟨walk.push ⟨localHeight, before.peer, block, now⟩, ?_, ?_, ?_, ?_⟩
      · rw [walk.push_calls, hanswers]
        exact hcalls.append (.refl _)
      · rw [walk.push_blocks, ← hblocks, ForkRecoveryTracker.push]
      · rw [walk.push_suppliers, ← hsuppliers, ForkRecoveryTracker.push]
      · exact hsound.push ⟨localHeight, before.peer, block, now⟩ hawaited hsigned
          (fun hgated => (hchecked hgated).1) hchain (hblocks ▸ hroom)

theorem walkTracked_run (rules : WalkRules) (genesisHash : Hash)
    (events : List (WalkEvent Peer)) :
    WalkTracked rules genesisHash events
      (events.foldl (walkStep rules) (ForkRecoveryTracker.new genesisHash)) :=
  foldl_invariant (WalkTracked rules genesisHash)
    ⟨rfl, fun recovery hrecovery => by simp [ForkRecoveryTracker.new] at hrecovery⟩
    fun _ event _ _ _ htracked => htracked.step event

/-- What a poll hands over after any calls hangs on a block that the node knows, and is a
walk of these calls: at most a thousand blocks of the network, each the parent of the next
one, from the oldest answer to the orphan, each answer checked and with its supplier. -/
theorem completed_walk_connects (events : List (WalkEvent Peer)) (known : Hash → Bool)
    (now : Nat) (completed : CompletedRecovery Peer) :
    ((events.foldl (walkStep rules) (ForkRecoveryTracker.new genesisHash)).poll known now).1 =
        some completed →
      known completed.connectionPoint = true ∧
        ∃ walk : Walk Peer, walk.calls.Sublist events ∧
          completed.blocks = walk.blocks.reverse ∧
          completed.suppliers = walk.suppliers.reverse ∧
          walk.Sound rules genesisHash completed.connectionPoint := by
  intro hcompleted
  have htracked := walkTracked_run rules genesisHash events
  rcases ForkRecoveryTracker.poll_cases (events.foldl (walkStep rules)
    (ForkRecoveryTracker.new genesisHash)) known now with hpoll | ⟨recovery, hactive, hknown, hpoll⟩
  · simp [hpoll] at hcompleted
  · rw [hpoll] at hcompleted
    obtain rfl := Option.some.inj hcompleted
    obtain ⟨walk, hcalls, hblocks, hsuppliers, hsound⟩ := htracked.walked recovery hactive
    exact ⟨hknown, walk, hcalls, congrArg List.reverse hblocks,
      congrArg List.reverse hsuppliers, hsound⟩

/-! ## The peers of a walk -/

/-- A call that gives the walk no peer anew. -/
def WalkEvent.Spares (event : WalkEvent Peer) (peer : Peer) : Prop :=
  match event with
  | .start _ _ _ _ => False
  | .setHandoverPeers peers => peer ∉ peers
  | _ => True

/-- The walk is not at the peer, and has it in no list. -/
def ForkRecoveryTracker.Left (peer : Peer) (tracker : ForkRecoveryTracker Peer) : Prop :=
  ∀ recovery, tracker.active = some recovery →
    recovery.peer ≠ peer ∧ peer ∉ recovery.alternatePeers ∧ peer ∉ recovery.handover

theorem ForkRecoveryTracker.Left.step {tracker : ForkRecoveryTracker Peer} {peer : Peer}
    {event : WalkEvent Peer} (hleft : tracker.Left peer) (hspares : event.Spares peer) :
    (walkStep rules tracker event).Left peer := by
  intro recovery hrecovery
  have hmove := (walkStep_move rules tracker event).2
  rw [hrecovery] at hmove
  cases hmove with
  | kept hactive hkept => exact hkept.left (hleft _ hactive)
  | @named before peers hnamed hactive =>
      obtain ⟨hpeer, halternates, -⟩ := hleft _ hactive
      rw [hnamed] at hspares
      exact ⟨hpeer, halternates, fun hmem => hspares (List.mem_filter.mp hmem).1⟩
  | started hstarts => exact absurd hspares (by simp [WalkEvent.Spares, hstarts])
  | pushed hanswers hactive =>
      have hbefore := hleft _ hactive
      exact hbefore

theorem left_of_moved {tracker : ForkRecoveryTracker Peer} {peer : Peer}
    {event : WalkEvent Peer} {before after : ActiveRecovery Peer}
    (hbefore : tracker.active = some before) (hpeer : before.peer = peer)
    (hafter : (walkStep rules tracker event).active = some after) (hmoved : after.peer ≠ peer)
    (hspares : event.Spares peer) : (walkStep rules tracker event).Left peer := by
  intro recovery hrecovery
  obtain rfl := Option.some.inj (hafter.symm.trans hrecovery)
  have hmove := (walkStep_move rules tracker event).2
  rw [hafter] at hmove
  subst hpeer
  cases hmove with
  | kept hactive hkept =>
      obtain rfl := Option.some.inj (hbefore.symm.trans hactive)
      rcases hkept.peer with hsame | ⟨hne, -, hstruck⟩
      · exact absurd hsame hmoved
      · exact ⟨hne, hstruck⟩
  | named hnamed hactive =>
      obtain rfl := Option.some.inj (hbefore.symm.trans hactive)
      exact absurd rfl hmoved
  | started hstarts => exact absurd hspares (by simp [WalkEvent.Spares, hstarts])
  | pushed hanswers hactive =>
      obtain rfl := Option.some.inj (hbefore.symm.trans hactive)
      exact absurd rfl hmoved

theorem left_run {tracker : ForkRecoveryTracker Peer} {peer : Peer}
    {events : List (WalkEvent Peer)} (hleft : tracker.Left peer)
    (hspares : ∀ event ∈ events, event.Spares peer) :
    (events.foldl (walkStep rules) tracker).Left peer :=
  foldl_invariant (fun _ => ForkRecoveryTracker.Left peer) hleft
    fun done event rest current hevents hcurrent =>
      hcurrent.step (hspares event (by simp [hevents]))

theorem at_or_left_run (rules : WalkRules) {tracker : ForkRecoveryTracker Peer} {peer : Peer}
    {events : List (WalkEvent Peer)} {before : ActiveRecovery Peer}
    (hbefore : tracker.active = some before) (hpeer : before.peer = peer)
    (hspares : ∀ event ∈ events, event.Spares peer) :
    (∃ now, (events.foldl (walkStep rules) tracker).active = some now ∧ now.peer = peer) ∨
      (events.foldl (walkStep rules) tracker).Left peer := by
  refine foldl_invariant
    (fun _ (current : ForkRecoveryTracker Peer) =>
      (∃ now, current.active = some now ∧ now.peer = peer) ∨ current.Left peer)
    (.inl ⟨before, hbefore, hpeer⟩) fun done event rest current hevents hcurrent => ?_
  have hevent := hspares event (by simp [hevents])
  rcases hcurrent with ⟨recovery, hactive, hat⟩ | hleft
  · cases hafter : (walkStep rules current event).active with
    | none => exact .inr fun _ hnone => by simp [hafter] at hnone
    | some after =>
        by_cases hstays : after.peer = peer
        · exact .inl ⟨after, rfl, hstays⟩
        · exact .inr (left_of_moved hactive hat hafter hstays hevent)
  · exact .inr (hleft.step hevent)

/-- A walk that has moved away from a peer asks it for nothing again: only a new walk, or a
call that names the peer as evidence, can send it a fetch. -/
theorem walk_never_returns (tracker : ForkRecoveryTracker Peer) (moves rest : List (WalkEvent Peer))
    (before after : ActiveRecovery Peer) (now : Nat)
    (hbefore : tracker.active = some before)
    (hafter : (moves.foldl (walkStep rules) tracker).active = some after)
    (hmoved : after.peer ≠ before.peer)
    (hspares : ∀ event ∈ moves ++ rest, event.Spares before.peer) :
    ∀ request, (((moves ++ rest).foldl (walkStep rules) tracker).nextFetch now).1 = some request →
      request.1 ≠ before.peer := by
  intro request hrequest
  have hleft : ((moves ++ rest).foldl (walkStep rules) tracker).Left before.peer := by
    rw [List.foldl_append]
    refine left_run ?_ fun event hevent => hspares event (List.mem_append_right _ hevent)
    rcases at_or_left_run rules hbefore rfl fun event hevent =>
      hspares event (List.mem_append_left rest hevent) with ⟨current, hcurrent, hat⟩ | hleft
    · obtain rfl := Option.some.inj (hafter.symm.trans hcurrent)
      exact absurd hat hmoved
    · exact hleft
  generalize (moves ++ rest).foldl (walkStep rules) tracker = reached at hrequest hleft
  cases hactive : reached.active with
  | none => simp [ForkRecoveryTracker.nextFetch, hactive] at hrequest
  | some current =>
      obtain ⟨-, ⟨hnone, -⟩ | ⟨next, -, hkept, -, hasks⟩⟩ :=
        ForkRecoveryTracker.nextFetch_active rules.crypto.validKey hactive now
      · simp [hnone] at hrequest
      · rw [hasks request hrequest]
        exact (hkept.left (hleft _ hactive)).1

/-! ## The bytes of a walk -/

/-- The answers of the calls pass the gate, at a height of at most `height`. -/
def WalkEvent.GatedBelow (rules : WalkRules) (height : Nat) (event : WalkEvent Peer) : Prop :=
  match event with
  | .intake localHeight _ _ _ => rules.gated localHeight = true ∧ localHeight ≤ height
  | _ => True

theorem bounded_step {height : Nat} {tracker : ForkRecoveryTracker Peer}
    {event : WalkEvent Peer} (hgated : event.GatedBelow rules height)
    (hbounded : ∀ recovery, tracker.active = some recovery →
      recovery.Bounded rules.crypto.validKey height) :
    ∀ recovery, (walkStep rules tracker event).active = some recovery →
      recovery.Bounded rules.crypto.validKey height := by
  intro recovery hrecovery
  have hmove := (walkStep_move rules tracker event).2
  rw [hrecovery] at hmove
  cases hmove with
  | kept hactive hkept => exact hkept.bounded (hbounded _ hactive)
  | named hnamed hactive =>
      have hbefore := hbounded _ hactive
      exact hbefore
  | started hstarts => exact ⟨fun held hheld => by simp at hheld, fun hlong => by simp at hlong⟩
  | @pushed before localHeight block now held hanswers hactive hawaited hchain hroom hsigned
      hchecked hunchecked =>
      have hbefore := hbounded _ hactive
      rw [hanswers] at hgated
      obtain ⟨hgate, hbelow⟩ := hgated
      obtain ⟨-, rfl, hfits⟩ := hchecked hgate
      rw [hbefore.counted] at hfits ⊢
      have hroof := walkBound_lt localHeight
      have hexact : satAddAmount (ForkRecoveryTracker.heldSize rules.crypto.validKey before.blocks)
          (block.size rules.crypto.validKey) =
            ForkRecoveryTracker.heldSize rules.crypto.validKey (before.blocks ++ [block]) := by
        rw [satAddAmount] at hfits ⊢
        simp only [ForkRecoveryTracker.heldSize, List.map_append, List.sum_append,
          List.map_singleton, List.sum_singleton] at hfits ⊢
        omega
      refine ⟨fun held hheld => ?_, fun _ => ?_⟩
      · exact (Option.some.inj hheld).symm.trans hexact
      · exact hexact ▸ hfits.trans (walkBound_mono hbelow)

/-- Where every answer passes the gate, a walk that has taken one holds at most 64 full
blocks of the era, in every state of every run. -/
theorem walk_bytes_bounded (genesisHash : Hash) (height : Nat) (events : List (WalkEvent Peer))
    (hgated : ∀ event ∈ events, event.GatedBelow rules height) :
    EveryState (walkStep rules) (ForkRecoveryTracker.new genesisHash) events fun tracker =>
      ∀ recovery, tracker.active = some recovery → 1 < recovery.blocks.length →
        (recovery.blocks.map (Block.size rules.crypto.validKey)).sum ≤
          walkFullBlocks * maxBlockSize (satAddAmount height 1) := by
  intro done rest hevents recovery hactive
  refine (foldl_invariant (fun _ (tracker : ForkRecoveryTracker Peer) =>
    ∀ recovery, tracker.active = some recovery → recovery.Bounded rules.crypto.validKey height)
    (fun recovery hnone => by simp [ForkRecoveryTracker.new] at hnone)
    (fun before event after current hdone hbounded => ?_) recovery hactive).2
  exact bounded_step (hgated event (by simp [hevents, hdone])) hbounded

end

/-! ## A walk of two blocks -/

def sampleWalkRules (forkChoiceActivationHeight : Nat) : WalkRules where
  crypto := { sampleCrypto with blake3 := fun _ => ⟨7⟩ }
  blockSignatureActivationHeight := 100
  forkChoiceActivationHeight := forkChoiceActivationHeight
  attestationBlsActivationHeight := 0

def sampleWalked : Block where
  header := { sampleHeader with prevHash := ⟨7⟩ }
  transactions := []
  aggregateBlsSignature := []
  attestationBitfield := []

def sampleCalls : List (WalkEvent Nat) :=
  [.start sampleWalked 1 [2] 0, .setHandoverPeers [3], .nextFetch 0,
    .intake 20 1 (some sampleWalked) 1]

theorem two_blocks_connect :
    ∃ walk : Walk Nat, walk.calls.Sublist sampleCalls ∧
      [sampleWalked, sampleWalked] = walk.blocks.reverse ∧
        [some 1, none] = walk.suppliers.reverse ∧ walk.Sound (sampleWalkRules 100) ⟨0⟩ ⟨7⟩ :=
  (completed_walk_connects sampleCalls (fun _ => true) 2
    ⟨[sampleWalked, sampleWalked], ⟨7⟩, [some 1, none]⟩ rfl).2

/-- The walk starts at a peer that has no such block. -/
def sampleMoves : List (WalkEvent Nat) :=
  [.setHandoverPeers [3], .nextFetch 0, .intake 20 1 none 1]

def sampleStarted : ForkRecoveryTracker Nat :=
  (ForkRecoveryTracker.startForkRecovery (.new ⟨0⟩) sampleWalked 1 [2] 0).2

theorem none_answer_moves :
    (sampleMoves.foldl (walkStep (sampleWalkRules 100)) sampleStarted).active.map
        ActiveRecovery.peer = some 3 ∧
      ∀ request, (((sampleMoves ++ [WalkEvent.nextFetch 2]).foldl (walkStep (sampleWalkRules 100))
        sampleStarted).nextFetch (20 * 10 ^ 9)).1 = some request → request.1 ≠ 1 := by
  refine ⟨rfl, walk_never_returns sampleStarted sampleMoves [.nextFetch 2] _ _ (20 * 10 ^ 9) rfl rfl
    (fun hsame : (3 : Nat) = 1 => by simp at hsame) ?_⟩
  intro event hevent
  simp only [sampleMoves, List.cons_append, List.nil_append, List.mem_cons,
    List.not_mem_nil, or_false] at hevent
  rcases hevent with rfl | rfl | rfl | rfl
  · exact fun hmem => absurd (List.mem_singleton.mp hmem : (1 : Nat) = 3) (by decide)
  · trivial
  · trivial
  · trivial

theorem two_blocks_bounded :
    EveryState (walkStep (sampleWalkRules 10)) (ForkRecoveryTracker.new ⟨0⟩) sampleCalls
      fun tracker => ∀ recovery, tracker.active = some recovery → 1 < recovery.blocks.length →
        (recovery.blocks.map (Block.size fun _ => true)).sum ≤
          walkFullBlocks * maxBlockSize (satAddAmount 20 1) :=
  walk_bytes_bounded ⟨0⟩ 20 sampleCalls (by
    simp only [sampleCalls, List.forall_mem_cons]
    exact ⟨trivial, trivial, trivial, ⟨by decide, le_refl _⟩, by simp⟩)

end Doli.Network
