import Doli.Core.Transaction

/-!
# Payloads

The typed payloads of `extra_data`.  The ones with a hand-written byte layout
are decoded here; the serde ones are decoded by a field of `Primitives`.
-/

namespace Doli.Core

open Doli.Lib

structure RegistrationData where
  publicKey : PublicKey
  epoch : Nat := 0
  vdfOutput : Bytes := []
  vdfProof : Bytes := []
  prevRegistrationHash : Hash := ⟨0⟩
  sequenceNumber : Nat := 0
  bondCount : Nat
  blsPubkey : Bytes
  blsPop : Bytes := []
  deriving DecidableEq, Repr

structure ExitData where
  publicKey : PublicKey
  deriving DecidableEq, Repr

structure SlashData where
  producerPubkey : PublicKey
  deriving DecidableEq, Repr

structure AddBondData where
  producerPubkey : PublicKey
  bondCount : Nat
  deriving DecidableEq, Repr

structure DelegateBondData where
  delegator : PublicKey
  delegate : PublicKey
  bondCount : Nat
  signature : Signature
  deriving DecidableEq, Repr

structure RevokeDelegationData where
  delegator : PublicKey
  delegate : PublicKey
  signature : Signature
  deriving DecidableEq, Repr

structure WithdrawalRequestData where
  producerPubkey : PublicKey
  bondCount : Nat
  destination : Hash
  deriving DecidableEq, Repr

/-- The proof of possession and the signature are read by the block check
alone. -/
structure RotateBlsData where
  producer : PublicKey
  newBlsPubkey : Bytes
  blsPop : Bytes := []
  signature : Signature := ⟨0⟩
  deriving DecidableEq, Repr

/-- The code of other crates: BLAKE3, Ed25519 verification, and bincode for
the three payloads that derive serde. -/
structure Primitives where
  blake3 : Bytes → Hash
  verifyHash : Hash → Signature → PublicKey → Bool
  decodeRegistration : Bytes → Option RegistrationData
  decodeExit : Bytes → Option ExitData
  decodeSlash : Bytes → Option SlashData

def AddBondData.fromBytes (bytes : Bytes) : Option AddBondData :=
  if bytes.length < 36 then none
  else some
    { producerPubkey := .fromBytes (slice bytes 0 32)
      bondCount := leNat (slice bytes 32 36) }

def AddBondData.toBytes (data : AddBondData) : Bytes :=
  data.producerPubkey.asBytes ++ leBytes 4 data.bondCount

def DelegateBondData.legacyBytesLen : Nat := 32 + 32 + 4

def DelegateBondData.authenticatedBytesLen : Nat := legacyBytesLen + 64

def DelegateBondData.fromBytes (bytes : Bytes) : Option DelegateBondData :=
  if bytes.length = authenticatedBytesLen then
    some
      { delegator := .fromBytes (slice bytes 0 32)
        delegate := .fromBytes (slice bytes 32 64)
        bondCount := leNat (slice bytes 64 68)
        signature := .fromBytes (slice bytes 68 132) }
  else if bytes.length = legacyBytesLen then
    some
      { delegator := .fromBytes (slice bytes 0 32)
        delegate := .fromBytes (slice bytes 32 64)
        bondCount := leNat (slice bytes 64 68)
        signature := ⟨0⟩ }
  else none

def RevokeDelegationData.legacyBytesLen : Nat := 32 + 32

def RevokeDelegationData.authenticatedBytesLen : Nat := legacyBytesLen + 64

def RevokeDelegationData.fromBytes (bytes : Bytes) :
    Option RevokeDelegationData :=
  if bytes.length = authenticatedBytesLen then
    some
      { delegator := .fromBytes (slice bytes 0 32)
        delegate := .fromBytes (slice bytes 32 64)
        signature := .fromBytes (slice bytes 64 128) }
  else if bytes.length = legacyBytesLen then
    some
      { delegator := .fromBytes (slice bytes 0 32)
        delegate := .fromBytes (slice bytes 32 64)
        signature := ⟨0⟩ }
  else none

def WithdrawalRequestData.fromBytes (bytes : Bytes) :
    Option WithdrawalRequestData :=
  if bytes.length < 68 then none
  else some
    { producerPubkey := .fromBytes (slice bytes 0 32)
      bondCount := leNat (slice bytes 32 36)
      destination := .fromBytes (slice bytes 36 68) }

def WithdrawalRequestData.toBytes (data : WithdrawalRequestData) : Bytes :=
  data.producerPubkey.asBytes ++ leBytes 4 data.bondCount ++ data.destination.asBytes

def RotateBlsData.bytesLen : Nat := 32 + 48 + 96 + 64

def RotateBlsData.decode (bytes : Bytes) : Option RotateBlsData :=
  if bytes.length = bytesLen then
    some
      { producer := .fromBytes (slice bytes 0 32)
        newBlsPubkey := slice bytes 32 80
        blsPop := slice bytes 80 176
        signature := .fromBytes (slice bytes 176 240) }
  else none

/-! ## Hashing -/

def ascii (text : String) : Bytes :=
  text.toList.map fun c => UInt8.ofNat c.toNat

def delegateBondSigningDomain : Bytes := ascii "DELEGATE_BOND"

def revokeDelegationSigningDomain : Bytes := ascii "REVOKE_DELEGATION"

def addressDomain : Bytes := ascii "DOLI_ADDR_V1"

namespace Primitives

variable (prim : Primitives)

/-- `crypto::hash::hash_with_domain`; the domain is length-prefixed. -/
def hashWithDomain (domain data : Bytes) : Hash :=
  prim.blake3 (leBytes 4 domain.length ++ domain ++ data)

/-- The key of a producer in the producer set. -/
def cryptoHash (key : PublicKey) : Hash :=
  prim.blake3 key.asBytes

/-- The owner of the outputs that pay `key`. -/
def addressOf (key : PublicKey) : Hash :=
  prim.hashWithDomain addressDomain key.asBytes

def txHash (tx : Transaction) : Hash :=
  prim.blake3 tx.hashPreimage

def delegateBondMessage (data : DelegateBondData) : Hash :=
  prim.blake3 (delegateBondSigningDomain ++ data.delegate.asBytes ++
    leBytes 4 data.bondCount)

def revokeDelegationMessage (data : RevokeDelegationData) : Hash :=
  prim.blake3 (revokeDelegationSigningDomain ++ data.delegate.asBytes)

end Primitives

/-! ## Typed readers -/

namespace Transaction

def registrationData (prim : Primitives) (tx : Transaction) :
    Option RegistrationData :=
  if tx.txType = .registration then prim.decodeRegistration tx.extraData
  else none

def exitData (prim : Primitives) (tx : Transaction) : Option ExitData :=
  if tx.txType = .exit then prim.decodeExit tx.extraData else none

def slashData (prim : Primitives) (tx : Transaction) : Option SlashData :=
  if tx.txType = .slashProducer then prim.decodeSlash tx.extraData else none

def addBondData (tx : Transaction) : Option AddBondData :=
  if tx.txType = .addBond then AddBondData.fromBytes tx.extraData else none

def withdrawalRequestData (tx : Transaction) : Option WithdrawalRequestData :=
  if tx.txType = .requestWithdrawal then
    WithdrawalRequestData.fromBytes tx.extraData
  else none

def delegateBondData (tx : Transaction) : Option DelegateBondData :=
  if tx.txType = .delegateBond then DelegateBondData.fromBytes tx.extraData else none

def revokeDelegationData (tx : Transaction) : Option RevokeDelegationData :=
  if tx.txType = .revokeDelegation then
    RevokeDelegationData.fromBytes tx.extraData
  else none

end Transaction

/-! ## An executable instance -/

/-- Stands in for BLAKE3: the last 32 bytes of a short input, so that keys and
their addresses stay apart, and a polynomial of a longer one. -/
def sampleBlake3 (bytes : Bytes) : Hash :=
  if bytes.length ≤ 48 then .fromBytes (bytes.drop (bytes.length - 32))
  else ⟨BitVec.ofNat 256
    (bytes.foldl (fun acc byte => acc * 257 + byte.toNat + 1) 0)⟩

def samplePrimitives : Primitives where
  blake3 := sampleBlake3
  verifyHash _ signature _ := signature.word ≠ 0
  decodeRegistration bytes :=
    if bytes.length < 36 then none
    else some
      { publicKey := .fromBytes (slice bytes 0 32)
        bondCount := leNat (slice bytes 32 36)
        blsPubkey := bytes.drop 36 }
  decodeExit bytes :=
    if bytes.length < 32 then none else some ⟨.fromBytes (slice bytes 0 32)⟩
  decodeSlash bytes :=
    if bytes.length < 32 then none else some ⟨.fromBytes (slice bytes 0 32)⟩

end Doli.Core
