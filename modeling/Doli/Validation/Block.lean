import Doli.Core.Payload
import Doli.Lib.Merkle
import Doli.Producer.Wire

/-!
# Blocks

The header with the bytes its hash covers, the Merkle root over the transaction
ids, and the size of a block on the wire.
-/

namespace Doli.Validation

open Doli.Core Doli.Lib Doli.Producer

/-- `vdfOutput` and `vdfProof` are the bytes of the two VDF records. -/
structure BlockHeader where
  version : UInt32
  prevHash : Hash
  merkleRoot : Hash
  presenceRoot : Hash
  genesisHash : Hash
  timestamp : UInt64
  slot : UInt32
  producer : PublicKey
  vdfOutput : Bytes
  vdfProof : Bytes
  missedProducers : List PublicKey
  dataRoot : Hash
  forkId : Hash
  deriving DecidableEq, Repr

namespace BlockHeader

def missedBytes (header : BlockHeader) : Bytes :=
  header.missedProducers.flatMap PublicKey.asBytes

/-- A zero fork id is left out of the hash. -/
def forkBytes (header : BlockHeader) : Bytes :=
  if header.forkId = ⟨0⟩ then [] else header.forkId.asBytes

/-- The bytes that `BlockHeader::hash` feeds to BLAKE3. -/
def hashPreimage (header : BlockHeader) : Bytes :=
  leBytes 4 header.version.toNat ++ (header.prevHash.asBytes ++
    (header.merkleRoot.asBytes ++ (header.presenceRoot.asBytes ++
      (header.genesisHash.asBytes ++ (leBytes 4 header.missedProducers.length ++
        (header.missedBytes ++ (header.dataRoot.asBytes ++ (header.forkBytes ++
          (leBytes 8 header.timestamp.toNat ++ (leBytes 4 header.slot.toNat ++
            (header.producer.asBytes ++ header.vdfOutput)))))))))))

variable (blake3 : Bytes → Hash) (header : BlockHeader)

def hash : Hash :=
  blake3 header.hashPreimage

/-- The `0xFF` byte keeps the message out of reach of a signed text. -/
def signatureDomain : Bytes := ascii "DOLI_BLOCK_SIG_V1" ++ [0xFF]

def signingMessage : Hash :=
  blake3 (signatureDomain ++ (header.hash blake3).asBytes)

/-- `vdf::block_input` -/
def vdfInput : Hash :=
  blake3 (ascii "DOLI_VDF_BLOCK_V1" ++ header.prevHash.asBytes ++
    header.merkleRoot.asBytes ++ leBytes 4 header.slot.toNat ++ header.producer.asBytes)

/-- Every field but the VDF proof. -/
def sealed : BlockHeader :=
  { header with vdfProof := [] }

@[simp] theorem sealed_merkleRoot : header.sealed.merkleRoot = header.merkleRoot := rfl

@[simp] theorem sealed_forkId : header.sealed.forkId = header.forkId := rfl

end BlockHeader

/-! ## The hash of a header -/

theorem keyBytes_inj {first second : List PublicKey}
    (hlength : first.length = second.length)
    (hbytes : first.flatMap PublicKey.asBytes = second.flatMap PublicKey.asBytes) :
    first = second := by
  induction first generalizing second with
  | nil => exact (List.eq_nil_of_length_eq_zero hlength.symm).symm
  | cons key first ih =>
      obtain _ | ⟨other, second⟩ := second
      · simp at hlength
      · rw [List.flatMap_cons, List.flatMap_cons] at hbytes
        obtain ⟨hkey, hrest⟩ := List.append_inj hbytes (by simp)
        rw [PublicKey.asBytes_inj hkey, ih (by simpa using hlength) hrest]

namespace BlockHeader

theorem missedBytes_length (header : BlockHeader) :
    header.missedBytes.length = 32 * header.missedProducers.length := by
  unfold missedBytes
  induction header.missedProducers with
  | nil => rfl
  | cons key keys ih =>
      rw [List.flatMap_cons, List.length_append, ih, PublicKey.asBytes_length,
        List.length_cons]
      omega

theorem forkBytes_inj {first second : BlockHeader}
    (hfork : first.forkId = ⟨0⟩ ↔ second.forkId = ⟨0⟩)
    {left right : Bytes} (hbytes : first.forkBytes ++ left = second.forkBytes ++ right) :
    first.forkId = second.forkId ∧ left = right := by
  unfold forkBytes at hbytes
  by_cases hzero : first.forkId = ⟨0⟩
  · rw [if_pos hzero, if_pos (hfork.mp hzero)] at hbytes
    exact ⟨hzero.trans (hfork.mp hzero).symm, hbytes⟩
  · rw [if_neg hzero, if_neg (mt hfork.mpr hzero)] at hbytes
    obtain ⟨hid, hrest⟩ := List.append_inj hbytes (by simp)
    exact ⟨Hash.asBytes_inj hid, hrest⟩

/-- The preimage shows every field but the proof, once both headers carry a fork id
or neither does. -/
theorem hashPreimage_inj {first second : BlockHeader}
    (hfirst : first.missedProducers.length < 2 ^ 32)
    (hsecond : second.missedProducers.length < 2 ^ 32)
    (hfork : first.forkId = ⟨0⟩ ↔ second.forkId = ⟨0⟩)
    (hbytes : first.hashPreimage = second.hashPreimage) :
    first.sealed = second.sealed := by
  unfold hashPreimage at hbytes
  obtain ⟨hversion, hbytes⟩ := List.append_inj hbytes (by simp)
  obtain ⟨hprev, hbytes⟩ := List.append_inj hbytes (by simp)
  obtain ⟨hmerkle, hbytes⟩ := List.append_inj hbytes (by simp)
  obtain ⟨hpresence, hbytes⟩ := List.append_inj hbytes (by simp)
  obtain ⟨hgenesis, hbytes⟩ := List.append_inj hbytes (by simp)
  obtain ⟨hcount, hbytes⟩ := List.append_inj hbytes (by simp)
  have hlength := (Codec.word 4).encode_inj hfirst hsecond hcount
  obtain ⟨hmissed, hbytes⟩ := List.append_inj hbytes (by
    rw [missedBytes_length, missedBytes_length, hlength])
  obtain ⟨hdata, hbytes⟩ := List.append_inj hbytes (by simp)
  obtain ⟨hforkId, hbytes⟩ := forkBytes_inj hfork hbytes
  obtain ⟨htimestamp, hbytes⟩ := List.append_inj hbytes (by simp)
  obtain ⟨hslot, hbytes⟩ := List.append_inj hbytes (by simp)
  obtain ⟨hproducer, houtput⟩ := List.append_inj hbytes (by simp)
  have hversion := UInt32.toNat_inj.mp
    ((Codec.word 4).encode_inj first.version.toNat_lt second.version.toNat_lt hversion)
  have htimestamp := UInt64.toNat_inj.mp
    ((Codec.word 8).encode_inj first.timestamp.toNat_lt second.timestamp.toNat_lt htimestamp)
  have hslot := UInt32.toNat_inj.mp
    ((Codec.word 4).encode_inj first.slot.toNat_lt second.slot.toNat_lt hslot)
  simp only [sealed, BlockHeader.mk.injEq]
  exact ⟨hversion, Hash.asBytes_inj hprev, Hash.asBytes_inj hmerkle,
    Hash.asBytes_inj hpresence, Hash.asBytes_inj hgenesis, htimestamp, hslot,
    PublicKey.asBytes_inj hproducer, houtput, trivial, keyBytes_inj hlength hmissed,
    Hash.asBytes_inj hdata, hforkId⟩

end BlockHeader

end Doli.Validation

/-! ## The wire form of a header -/

namespace Doli.Producer.Wire

open Doli.Core Doli.Lib Doli.Validation

def uint32 : Codec UInt32 :=
  (Codec.word 4).refine (fun value => some (.ofNat value)) UInt32.toNat (fun _ => True)
    (fun value _ => ⟨value.toNat_lt, by simp⟩) (fun _ _ _ => trivial)

def uint64 : Codec UInt64 :=
  (Codec.word 8).refine (fun value => some (.ofNat value)) UInt64.toNat (fun _ => True)
    (fun value _ => ⟨value.toNat_lt, by simp⟩) (fun _ _ _ => trivial)

variable (validKey : PublicKey → Bool)

def blockHeader : Codec BlockHeader :=
  (uint32.pair <| hash.pair <| hash.pair <| hash.pair <| hash.pair <| uint64.pair <|
    uint32.pair <| (publicKey validKey).pair <| Codec.bytes.pair <| Codec.bytes.pair <|
    (publicKey validKey).list.pair <| hash.pair hash).wrap
  (fun (version, prevHash, merkleRoot, presenceRoot, genesisHash, timestamp, slot, producer,
      vdfOutput, vdfProof, missedProducers, dataRoot, forkId) =>
    { version, prevHash, merkleRoot, presenceRoot, genesisHash, timestamp, slot, producer,
      vdfOutput, vdfProof, missedProducers, dataRoot, forkId })
  (fun header => some (header.version, header.prevHash, header.merkleRoot,
    header.presenceRoot, header.genesisHash, header.timestamp, header.slot, header.producer,
    header.vdfOutput, header.vdfProof, header.missedProducers, header.dataRoot,
    header.forkId))
  fun _ => rfl

end Doli.Producer.Wire

/-! ## Blocks -/

namespace Doli.Validation

open Doli.Core Doli.Lib Doli.Producer

structure Block where
  header : BlockHeader
  transactions : List Transaction
  aggregateBlsSignature : Bytes
  attestationBitfield : Bytes
  deriving DecidableEq, Repr

/-! ### Sizes under bincode -/

def inputSize (input : Input) : Nat :=
  40 + 4 + 72 + 4 + 4 + (if input.publicKey.isSome then 41 else 1)

def outputSize (output : Output) : Nat :=
  4 + 8 + 40 + 8 + (8 + output.extraData.length)

def transactionSize (tx : Transaction) : Nat :=
  4 + 4 + (8 + (tx.inputs.map inputSize).sum) + (8 + (tx.outputs.map outputSize).sum) +
    (8 + tx.extraData.length)

namespace Block

def size (validKey : PublicKey → Bool) (block : Block) : Nat :=
  ((Wire.blockHeader validKey).encode block.header).length +
    (8 + (block.transactions.map transactionSize).sum) +
    (8 + block.aggregateBlsSignature.length) + (8 + block.attestationBitfield.length)

end Block

/-! ### The Merkle root -/

def nodeHash (blake3 : Bytes → Hash) (left right : Hash) : Hash :=
  blake3 (left.asBytes ++ right.asBytes)

def computeMerkleRoot (prim : Primitives) (transactions : List Transaction) : Hash :=
  Merkle.root (nodeHash prim.blake3) (prim.blake3 []) (transactions.map prim.txHash)

def Block.verifyMerkleRoot (prim : Primitives) (block : Block) : Bool :=
  block.header.merkleRoot = computeMerkleRoot prim block.transactions

end Doli.Validation
