import Doli.Core.Payload

/-!
# The maintainer root

The maintainer set, its height-gated signature rules, the messages the
maintainers sign, and the payloads of the governance transactions.  Ed25519
over message bytes and bincode are the fields of `GovernanceCodec`.
-/

namespace Doli.Core

open Doli.Lib

def initialMaintainerCount : Nat := 5

def maintainerThreshold : Nat := 3

def minMaintainers : Nat := 3

def maxMaintainers : Nat := 5

/-- The authorization never expires. -/
def maintainerAuthValidBeforeUnset : Nat := 2 ^ 64 - 1

structure MaintainerSignature where
  pubkey : PublicKey
  signature : Signature
  deriving DecidableEq, Repr

structure MaintainerChangeData where
  target : PublicKey
  signatures : List MaintainerSignature
  deriving DecidableEq, Repr

structure ProtocolActivationData where
  protocolVersion : Nat
  activationEpoch : Nat
  signatures : List MaintainerSignature
  deriving DecidableEq, Repr

structure GovernanceCodec where
  verify : Bytes → Signature → PublicKey → Bool
  decodeChange : Bytes → Option MaintainerChangeData
  decodeActivation : Bytes → Option ProtocolActivationData

/-! ## Signed messages -/

def hexDigit (value : Nat) : UInt8 :=
  UInt8.ofNat (if value < 10 then 48 + value else 87 + value)

def toHex (bytes : Bytes) : Bytes :=
  bytes.flatMap fun byte => [hexDigit (byte.toNat / 16), hexDigit (byte.toNat % 16)]

def maintainerAuthDomain : Bytes := ascii "DOLI-MAINTAINER-CHANGE-V1"

def signingMessagePreimage (genesisHash : Hash) (isAdd : Bool) (target : PublicKey)
    (validBefore : Nat) : Bytes :=
  maintainerAuthDomain ++ genesisHash.asBytes ++ [if isAdd then 1 else 0] ++
    target.asBytes ++ leBytes 8 validBefore

def signingMessageLegacy (isAdd : Bool) (target : PublicKey) : Bytes :=
  ascii (if isAdd then "add" else "remove") ++ ascii ":" ++ toHex target.asBytes

def signingMessageAt (prim : Primitives) (genesisHash : Hash) (isAdd : Bool)
    (target : PublicKey) (validBefore height activationHeight : Nat) : Bytes :=
  if activationHeight ≤ height then
    (prim.blake3 (signingMessagePreimage genesisHash isAdd target
      validBefore)).asBytes
  else signingMessageLegacy isAdd target

def ProtocolActivationData.signingMessage (data : ProtocolActivationData) : Bytes :=
  ascii "activate:" ++ ascii (toString data.protocolVersion) ++ ascii ":" ++
    ascii (toString data.activationEpoch)

/-! ## The set -/

structure MaintainerSet where
  members : List PublicKey
  threshold : Nat
  lastUpdated : Nat
  deriving DecidableEq, Repr

inductive MaintainerError where
  | maxMaintainersReached
  | alreadyMaintainer
  | minMaintainersRequired
  | notMaintainer
  deriving DecidableEq, Repr

namespace MaintainerSet

def calculateThreshold (memberCount : Nat) : Nat :=
  match memberCount with
  | 0 => maintainerThreshold
  | 1 => 1
  | 2 => 2
  | 3 => 2
  | 4 => 3
  | 5 => 3
  | count => count / 2 + 1

def new : MaintainerSet := ⟨[], 0, 0⟩

def withMembers (members : List PublicKey) (lastUpdated : Nat) : MaintainerSet :=
  ⟨members, calculateThreshold members.length, lastUpdated⟩

variable (set : MaintainerSet)

def isMaintainer (key : PublicKey) : Bool := key ∈ set.members

def isAuthorizable : Bool :=
  !set.members.isEmpty && 1 ≤ set.threshold && set.threshold ≤ set.members.length

def isFullyBootstrapped : Bool := initialMaintainerCount ≤ set.members.length

section Signatures

variable (codec : GovernanceCodec) (signatures : List MaintainerSignature)
  (message : Bytes)

def countDistinctSigners (excluded : Option PublicKey) : Nat :=
  set.members.countP fun member => excluded ≠ some member &&
    signatures.any fun sig =>
      sig.pubkey = member && codec.verify message sig.signature sig.pubkey

/-- Below the gate entries count, not signers. -/
def countEntries (excluded : Option PublicKey) : Nat :=
  signatures.countP fun sig => excluded ≠ some sig.pubkey &&
    set.isMaintainer sig.pubkey && codec.verify message sig.signature sig.pubkey

def verifyGated (excluded : Option PublicKey) (height activationHeight : Nat) :
    Bool :=
  set.isAuthorizable &&
    (if activationHeight ≤ height then
      decide (set.threshold ≤
        set.countDistinctSigners codec signatures message excluded)
    else
      decide (set.threshold ≤ set.countEntries codec signatures message excluded))

def verifyMultisigAt (height activationHeight : Nat) : Bool :=
  set.verifyGated codec signatures message none height activationHeight

def verifyMultisigExcludingAt (excluded : PublicKey)
    (height activationHeight : Nat) : Bool :=
  set.verifyGated codec signatures message (some excluded) height activationHeight

end Signatures

def addMaintainer (key : PublicKey) (height : Nat) :
    Except MaintainerError MaintainerSet :=
  if maxMaintainers ≤ set.members.length then .error .maxMaintainersReached
  else if set.isMaintainer key then .error .alreadyMaintainer
  else .ok (withMembers (set.members ++ [key]) height)

def removeMaintainer (key : PublicKey) (height : Nat) :
    Except MaintainerError MaintainerSet :=
  if set.members.length ≤ minMaintainers then .error .minMaintainersRequired
  else if !set.isMaintainer key then .error .notMaintainer
  else .ok (withMembers (set.members.filter (· ≠ key)) height)

end MaintainerSet

/-- `maintainer_state.bin` and its copy in memory. -/
structure MaintainerState where
  set : MaintainerSet
  lastDerivedHeight : Nat
  deriving DecidableEq, Repr

end Doli.Core
