import Doli.Core.Payload
import Doli.Lib.Freshest

/-!
# The producer set of the discovery gossip

Signed announcements are merged one at a time or in batches.  A set keeps the announcement
with the highest sequence of each producer, and a batch is given up after fifty refusals in
a row.  Ed25519 and the clock are the fields of `GossipEnv`.
-/

namespace Doli.Discovery

open Doli.Core Doli.Lib

def producerAnnouncementDomain : Bytes := ascii "DOLI_PRODUCER_ANN_V1"

def maxAnnouncementAgeSecs : Nat := 3600

def maxFutureTimestampSecs : Nat := 300

def maxRejections : Nat := 50

structure ProducerAnnouncement where
  pubkey : PublicKey
  networkId : Nat
  genesisHash : Hash
  sequence : Nat
  timestamp : Nat
  signature : Signature
  deriving DecidableEq, Repr

/-- `verifyWithDomain` takes the domain, the message, the signature and the key. -/
structure GossipEnv where
  verifyWithDomain : Bytes → Bytes → Signature → PublicKey → Bool
  now : Nat

namespace ProducerAnnouncement

variable (announcement : ProducerAnnouncement)

def messageBytes : Bytes :=
  leBytes 4 announcement.networkId ++ announcement.genesisHash.asBytes ++
    leBytes 8 announcement.sequence ++ leBytes 8 announcement.timestamp ++
    announcement.pubkey.asBytes

def verify (env : GossipEnv) : Bool :=
  env.verifyWithDomain producerAnnouncementDomain announcement.messageBytes
    announcement.signature announcement.pubkey

end ProducerAnnouncement

inductive ProducerSetError where
  | invalidSignature
  | staleAnnouncement
  | futureTimestamp
  | networkMismatch (expected got : Nat)
  | genesisHashMismatch
  deriving DecidableEq, Repr

inductive MergeOneResult where
  | newProducer
  | sequenceUpdate
  | duplicate
  deriving DecidableEq, Repr

structure MergeResult where
  added : Nat
  newProducers : Nat
  rejected : Nat
  duplicates : Nat
  deriving DecidableEq, Repr

structure ProducerGSet where
  producers : Column PublicKey ProducerAnnouncement
  sequences : Column PublicKey Nat
  networkId : Nat
  genesisHash : Hash

namespace ProducerGSet

def new (networkId : Nat) (genesisHash : Hash) : ProducerGSet :=
  ⟨∅, ∅, networkId, genesisHash⟩

variable (env : GossipEnv) (gset : ProducerGSet)

/-- Signature, network, genesis and timestamp; the sums of timestamps are `u64`. -/
def checkAnnouncement (announcement : ProducerAnnouncement) : Except ProducerSetError Unit :=
  if announcement.verify env = false then .error .invalidSignature
  else if announcement.networkId ≠ gset.networkId then
    .error (.networkMismatch gset.networkId announcement.networkId)
  else if announcement.genesisHash ≠ gset.genesisHash then .error .genesisHashMismatch
  else if (announcement.timestamp + maxAnnouncementAgeSecs) % 2 ^ 64 < env.now then
    .error .staleAnnouncement
  else if (env.now + maxFutureTimestampSecs) % 2 ^ 64 < announcement.timestamp then
    .error .futureTimestamp
  else .ok ()

/-- The announcement takes the place of the one before. -/
def record (announcement : ProducerAnnouncement) : ProducerGSet :=
  { gset with
    sequences := gset.sequences.insert announcement.pubkey announcement.sequence
    producers := gset.producers.insert announcement.pubkey announcement }

/-- `merge_one`: a refused announcement leaves the set as it is. -/
def mergeOne (announcement : ProducerAnnouncement) :
    ProducerGSet × Except ProducerSetError MergeOneResult :=
  match gset.checkAnnouncement env announcement with
  | .error error => (gset, .error error)
  | .ok () =>
      match gset.sequences.lookup announcement.pubkey with
      | none => (gset.record announcement, .ok .newProducer)
      | some currentSequence =>
          if announcement.sequence ≤ currentSequence then (gset, .ok .duplicate)
          else (gset.record announcement, .ok .sequenceUpdate)

/-- The loop of `merge` with its statistics and its count of refusals in a row. -/
def mergeFrom (totalCount : Nat) : List ProducerAnnouncement → ProducerGSet → MergeResult →
    Nat → ProducerGSet × MergeResult
  | [], gset, result, _ => (gset, result)
  | announcement :: announcements, gset, result, consecutiveRejections =>
      match gset.mergeOne env announcement with
      | (next, .ok .newProducer) =>
          mergeFrom totalCount announcements next
            { result with
              added := result.added + 1
              newProducers := result.newProducers + 1 } 0
      | (next, .ok .sequenceUpdate) =>
          mergeFrom totalCount announcements next { result with added := result.added + 1 } 0
      | (next, .ok .duplicate) =>
          mergeFrom totalCount announcements next
            { result with duplicates := result.duplicates + 1 } 0
      | (next, .error _) =>
          if maxRejections ≤ consecutiveRejections + 1 then
            (next, { result with
              rejected := result.rejected +
                (totalCount - result.added - result.duplicates - result.rejected) })
          else
            mergeFrom totalCount announcements next
              { result with rejected := result.rejected + 1 } (consecutiveRejections + 1)

def merge (announcements : List ProducerAnnouncement) : ProducerGSet × MergeResult :=
  mergeFrom env announcements.length announcements gset ⟨0, 0, 0, 0⟩ 0

/-- Batches as they are delivered, one after the other. -/
def mergeBatches (batches : List (List ProducerAnnouncement)) : ProducerGSet :=
  batches.foldl (fun gset batch => (gset.merge env batch).1) gset

/-! ## A set as registers -/

def registers : Registers PublicKey ProducerAnnouncement where
  versions := gset.sequences
  items := gset.producers

def withRegisters (registers : Registers PublicKey ProducerAnnouncement) : ProducerGSet :=
  { gset with
    sequences := registers.versions
    producers := registers.items }

def accepts (announcement : ProducerAnnouncement) : Bool :=
  (gset.checkAnnouncement env announcement).toBool

/-- The announcements of a batch that get as far as the sequences. -/
def heardOf (batch : List ProducerAnnouncement) : List ProducerAnnouncement :=
  heard (gset.accepts env) maxRejections 0 batch

def registersAfter (announcements : List ProducerAnnouncement) :
    Registers PublicKey ProducerAnnouncement :=
  absorbAll ProducerAnnouncement.pubkey ProducerAnnouncement.sequence gset.registers announcements

def absorbed (announcements : List ProducerAnnouncement) : ProducerGSet :=
  gset.withRegisters (gset.registersAfter announcements)

end ProducerGSet

end Doli.Discovery
