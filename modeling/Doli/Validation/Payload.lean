import Doli.Validation.Context

/-!
# The bincode payloads

Registration data and slash data as bincode writes them.  Its reader leaves trailing
bytes alone, so a payload is also read in front of anything.
-/

namespace Doli.Producer.Wire

open Doli.Core Doli.Lib

def signature : Codec Signature :=
  Codec.bytes.refine
    (fun bytes => if bytes.length = 64 then some (.fromBytes bytes) else none)
    Signature.asBytes (fun _ => True)
    (fun value _ => ⟨by simp [Codec.bytes], by simp⟩)
    (fun _ _ _ => trivial)

variable (validKey : PublicKey → Bool)

def registrationData : Codec RegistrationData :=
  ((publicKey validKey).pair <| u32.pair <| Codec.bytes.pair <| Codec.bytes.pair <|
    hash.pair <| u64.pair <| u32.pair <| Codec.bytes.pair Codec.bytes).wrap
  (fun (publicKey, epoch, vdfOutput, vdfProof, prevRegistrationHash, sequenceNumber,
      bondCount, blsPubkey, blsPop) =>
    { publicKey, epoch, vdfOutput, vdfProof, prevRegistrationHash, sequenceNumber,
      bondCount, blsPubkey, blsPop })
  (fun data => some (data.publicKey, data.epoch, data.vdfOutput, data.vdfProof,
    data.prevRegistrationHash, data.sequenceNumber, data.bondCount, data.blsPubkey,
    data.blsPop))
  fun _ => rfl

end Doli.Producer.Wire

namespace Doli.Validation

open Doli.Core Doli.Lib Doli.Producer

structure PriceAttestationData where
  signerPubkey : PublicKey
  priceCents : Nat
  pairId : Hash
  epochNumber : Nat
  signature : Signature
  deriving DecidableEq, Repr

def PriceAttestationData.signingMessage (blake3 : Bytes → Hash)
    (data : PriceAttestationData) : Hash :=
  blake3 (ascii "PRICE_ATTESTATION_V1" ++ data.pairId.asBytes ++
    leBytes 8 data.priceCents ++ leBytes 8 data.epochNumber)

inductive SlashingEvidence where
  | doubleProduction (blockHeader1 blockHeader2 : BlockHeader)
  | priceAttestationEquivocation (attestation1 attestation2 : PriceAttestationData)
  deriving DecidableEq, Repr

def SlashingEvidence.isDoubleProduction : SlashingEvidence → Bool
  | .doubleProduction .. => true
  | .priceAttestationEquivocation .. => false

structure SlashData where
  producerPubkey : PublicKey
  evidence : SlashingEvidence
  reporterSignature : Signature
  deriving DecidableEq, Repr

end Doli.Validation

namespace Doli.Producer.Wire

open Doli.Core Doli.Lib Doli.Validation

variable (validKey : PublicKey → Bool)

def priceAttestationData : Codec PriceAttestationData :=
  ((publicKey validKey).pair <| u64.pair <| hash.pair <| u64.pair signature).wrap
  (fun (signerPubkey, priceCents, pairId, epochNumber, signature) =>
    { signerPubkey, priceCents, pairId, epochNumber, signature })
  (fun data => some (data.signerPubkey, data.priceCents, data.pairId, data.epochNumber,
    data.signature))
  fun _ => rfl

def slashingEvidence : Codec SlashingEvidence :=
  .variant 4 2
    (fun
      | .doubleProduction .. => 0
      | .priceAttestationEquivocation .. => 1)
    (fun
      | 0 => ((blockHeader validKey).pair (blockHeader validKey)).wrap
          (fun parts => .doubleProduction parts.1 parts.2)
          (fun
            | .doubleProduction first second => some (first, second)
            | _ => none) fun _ => rfl
      | _ => ((priceAttestationData validKey).pair (priceAttestationData validKey)).wrap
          (fun parts => .priceAttestationEquivocation parts.1 parts.2)
          (fun
            | .priceAttestationEquivocation first second => some (first, second)
            | _ => none) fun _ => rfl)
    (by decide)
    (by
      intro tag htag evidence hlegal
      interval_cases tag <;> (obtain ⟨-, -, rfl⟩ := hlegal; rfl))

def slashData : Codec Validation.SlashData :=
  ((publicKey validKey).pair <| (slashingEvidence validKey).pair signature).wrap
  (fun (producerPubkey, evidence, reporterSignature) =>
    { producerPubkey, evidence, reporterSignature })
  (fun data => some (data.producerPubkey, data.evidence, data.reporterSignature))
  fun _ => rfl

end Doli.Producer.Wire

namespace Doli.Validation

open Doli.Core Doli.Lib Doli.Producer

namespace Crypto

variable (crypto : Crypto)

/-- `bincode::deserialize`, which ignores what follows the value. -/
def decodeRegistration (bytes : Bytes) : Option RegistrationData :=
  ((Wire.registrationData crypto.validKey).decode bytes).map Prod.fst

def decodeSlash (bytes : Bytes) : Option SlashData :=
  ((Wire.slashData crypto.validKey).decode bytes).map Prod.fst

/-- The crate as the typed readers of a transaction see it. -/
def primitives : Primitives where
  blake3 := crypto.blake3
  verifyHash := crypto.verifyHash
  decodeRegistration := crypto.decodeRegistration
  decodeExit bytes :=
    ((Wire.publicKey crypto.validKey).decode bytes).map fun read => ⟨read.1⟩
  decodeSlash bytes := (crypto.decodeSlash bytes).map fun data => ⟨data.producerPubkey⟩

variable {crypto}

theorem decodeRegistration_append {data : RegistrationData}
    (hlegal : (Wire.registrationData crypto.validKey).Legal data) (rest : Bytes) :
    crypto.decodeRegistration
      ((Wire.registrationData crypto.validKey).encode data ++ rest) = some data := by
  unfold decodeRegistration
  rw [Codec.roundtrip _ hlegal]
  rfl

theorem legal_of_decodeRegistration {bytes : Bytes} {data : RegistrationData}
    (hread : crypto.decodeRegistration bytes = some data) :
    (Wire.registrationData crypto.validKey).Legal data := by
  unfold decodeRegistration at hread
  rw [Option.map_eq_some_iff] at hread
  obtain ⟨⟨value, rest⟩, hread, rfl⟩ := hread
  exact Codec.legal_of_decode _ hread

end Crypto

end Doli.Validation
