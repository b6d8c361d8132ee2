import Doli.Validation.SlashEvidence

/-!
# The equivocation detector

The detector keeps one admitted header for each producer and slot, the smallest
it has seen, and returns a proof when another admitted header fits a slash with
it.  A window of slots and a cap on the entries bound what it keeps.
-/

namespace Doli.Network

open Doli.Core Doli.Lib
open Doli.Validation (BlockHeader Crypto headerSize doubleProductionEvidenceFits
  maxFutureSlots)

def maxTrackedEntries : Nat := 10000

def slidingWindowSlots : Nat := 360

def maxPendingEquivocationProofs : Nat := 64

def maxEvidenceChecksAfterProof : Nat := 4

structure EquivocationProof where
  producer : PublicKey
  blockHeader1 : BlockHeader
  blockHeader2 : BlockHeader
  slot : Nat
  deriving DecidableEq, Repr

/-- The stored header of a producer and slot; `checksAfterProof` is `none`
before the first proof. -/
structure Tracked where
  header : BlockHeader
  hash : Hash
  size : Nat
  checksAfterProof : Option Nat
  deriving DecidableEq, Repr

abbrev TrackKey := PublicKey × Nat

/-- The producer and slot of a header. -/
def trackKey (header : BlockHeader) : TrackKey := (header.producer, header.slot.toNat)

def Tracked.new (crypto : Crypto) (header : BlockHeader) : Tracked where
  header := header
  hash := header.hash crypto.blake3
  size := headerSize crypto header
  checksAfterProof := none

structure EquivocationDetector where
  seenBlocks : Column TrackKey Tracked
  lruOrder : List TrackKey
  maxTracked : Nat
  pendingProofs : List EquivocationProof
  oldestTrackedSlot : Nat
  gateCrossed : Bool

namespace EquivocationDetector

def new : EquivocationDetector where
  seenBlocks := ∅
  lruOrder := []
  maxTracked := maxTrackedEntries
  pendingProofs := []
  oldestTrackedSlot := 0
  gateCrossed := false

variable (detector : EquivocationDetector)

def clear : EquivocationDetector :=
  { detector with
    seenBlocks := ∅
    lruOrder := []
    pendingProofs := []
    oldestTrackedSlot := 0 }

/-- Drops every stored header once, at the first height past the gate. -/
def noteGate (prospectiveHeight gate : Nat) : EquivocationDetector :=
  if !detector.gateCrossed && gate ≤ prospectiveHeight then
    { detector.clear with gateCrossed := true }
  else detector

def takePendingProofs : EquivocationDetector := { detector with pendingProofs := [] }

/-- Evicts the oldest entries until there is room. -/
def evict (maxTracked : Nat) :
    List TrackKey → Column TrackKey Tracked → List TrackKey × Column TrackKey Tracked
  | [], seen => ([], seen)
  | oldest :: rest, seen =>
      if maxTracked ≤ seen.keys.card then evict maxTracked rest (seen.erase oldest)
      else (oldest :: rest, seen)

def recordBlock (key : TrackKey) (tracked : Tracked) : EquivocationDetector :=
  let room := evict detector.maxTracked detector.lruOrder detector.seenBlocks
  { detector with
    seenBlocks := room.2.insert key tracked
    lruOrder := room.1 ++ [key]
    oldestTrackedSlot := min detector.oldestTrackedSlot key.2 }

def cleanupBeforeSlot (minSlot : Nat) : EquivocationDetector :=
  if minSlot ≤ detector.oldestTrackedSlot then detector
  else
    { detector with
      seenBlocks := Journal.eraseAll (detector.lruOrder.filter (·.2 < minSlot))
        detector.seenBlocks
      lruOrder := detector.lruOrder.filter (minSlot ≤ ·.2)
      oldestTrackedSlot := minSlot }

def queuePending (proof : EquivocationProof) : EquivocationDetector :=
  let queued := detector.pendingProofs.any fun pending =>
    pending.producer = proof.producer && pending.slot = proof.slot
  if !queued && detector.pendingProofs.length < maxPendingEquivocationProofs then
    { detector with pendingProofs := detector.pendingProofs ++ [proof] }
  else detector

/-- What stands before the admission check: `none` skips the header, otherwise
a call after the first proof is counted. -/
def countCheck (key : TrackKey) (hash : Hash) : Option EquivocationDetector :=
  match detector.seenBlocks.lookup key with
  | none => some detector
  | some stored =>
      if stored.hash = hash then none
      else
        match stored.checksAfterProof with
        | none => some detector
        | some checks =>
            if maxEvidenceChecksAfterProof ≤ checks then none
            else
              some
                { detector with
                  seenBlocks := detector.seenBlocks.insert key
                    { stored with checksAfterProof := some (checks + 1) } }

section Checks

variable (crypto : Crypto) (passes : BlockHeader → Bool)

/-- The proof of a stored header and a candidate, if the pair fits. -/
def proofOf (key : TrackKey) (stored candidate : BlockHeader) : Option EquivocationProof :=
  if doubleProductionEvidenceFits crypto key.1 stored candidate then
    some ⟨key.1, stored, candidate, key.2⟩
  else none

/-- What is stored after a candidate: the smaller header, with the checks. -/
def keep (stored candidate : Tracked) (proved : Bool) : Tracked :=
  let checks := if proved && stored.checksAfterProof.isNone then some 0
    else stored.checksAfterProof
  if candidate.size < stored.size then { candidate with checksAfterProof := checks }
  else { stored with checksAfterProof := checks }

/-- An admitted candidate is recorded or paired. -/
def pairCandidate (header : BlockHeader) :
    Option EquivocationProof × EquivocationDetector :=
  let key := trackKey header
  let candidate := Tracked.new crypto header
  match detector.seenBlocks.lookup key with
  | none => (none, detector.recordBlock key candidate)
  | some stored =>
      let proof := proofOf crypto key stored.header header
      let paired :=
        { detector with
          seenBlocks := detector.seenBlocks.insert key (keep stored candidate proof.isSome) }
      match proof with
      | none => (none, paired)
      | some proof => (some proof, paired.queuePending proof)

def checkAdmitted (header : BlockHeader) :
    Option EquivocationProof × EquivocationDetector :=
  match detector.countCheck (trackKey header) (header.hash crypto.blake3) with
  | none => (none, detector)
  | some counted =>
      if passes header then counted.pairCandidate crypto header else (none, counted)

def checkBlockWith (header : BlockHeader) (wallSlot : Nat) :
    Option EquivocationProof × EquivocationDetector :=
  if wallSlot + maxFutureSlots < header.slot.toNat then (none, detector)
  else
    let checked := detector.checkAdmitted crypto passes header
    (checked.1, checked.2.cleanupBeforeSlot (wallSlot - slidingWindowSlots))

end Checks

end EquivocationDetector

/-! ## Streams -/

/-- What a node does with its detector. -/
inductive DetectorEvent where
  | checkBlock (header : BlockHeader) (wallSlot : Nat)
  | noteGate (prospectiveHeight gate : Nat)
  | takePendingProofs
  deriving DecidableEq, Repr

namespace EquivocationDetector

section Streams

variable (crypto : Crypto) (passes : BlockHeader → Bool)

def step (detector : EquivocationDetector) :
    DetectorEvent → Option EquivocationProof × EquivocationDetector
  | .checkBlock header wallSlot => detector.checkBlockWith crypto passes header wallSlot
  | .noteGate prospectiveHeight gate => (none, detector.noteGate prospectiveHeight gate)
  | .takePendingProofs => (none, detector.takePendingProofs)

/-- The proofs a stream of events returned, and the detector after it. -/
def stream (start : EquivocationDetector) (events : List DetectorEvent) :
    List EquivocationProof × EquivocationDetector :=
  events.foldl (fun reached event =>
    let next := step crypto passes reached.2 event
    (reached.1 ++ next.1.toList, next.2)) ([], start)

theorem stream_append_singleton (start : EquivocationDetector) (events : List DetectorEvent)
    (event : DetectorEvent) :
    stream crypto passes start (events ++ [event]) =
      ((stream crypto passes start events).1 ++
          (step crypto passes (stream crypto passes start events).2 event).1.toList,
        (step crypto passes (stream crypto passes start events).2 event).2) := by
  simp only [stream, List.foldl_append, List.foldl_cons, List.foldl_nil]

end Streams

end EquivocationDetector

end Doli.Network
