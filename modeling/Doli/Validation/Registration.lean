import Doli.Validation.Slash

/-!
# Registrations and key rotations

The data of a Registration, with or without its proof of sequential work, and the
stateless rules of a RotateBlsKey.
-/

namespace Doli.Validation

open Doli.Core Doli.Lib Doli.Producer

section

variable (ctx : ValidationContext) (data : RegistrationData)

/-- `vdf::registration_input` -/
def registrationInput (blake3 : Bytes → Hash) (key : PublicKey) (epoch : Nat) : Hash :=
  blake3 (ascii "DOLI_VDF_REGISTER_V1" ++ key.asBytes ++ leBytes 4 epoch)

def validateRegistrationVdf : Verdict :=
  if ctx.network.kind = .devnet then .ok ()
  else do
    refuseIf (data.vdfOutput.length ≠ 32)
      (.invalidRegistration "invalid VDF output: expected 32 bytes")
    refuseIf
      (verifyHashChainVdf ctx.crypto.blake3
        (registrationInput ctx.crypto.blake3 data.publicKey data.epoch)
        (.fromBytes data.vdfOutput) ctx.network.vdfRegisterIterations = false)
      (.invalidRegistration "VDF verification failed")

/-- The proof signs the BLS key alone. -/
def validateBlsPop : Verdict := do
  refuseIf (ctx.crypto.blsKey data.blsPubkey = false)
    (.invalidRegistration "invalid BLS public key")
  refuseIf (ctx.crypto.blsSignature data.blsPop = false)
    (.invalidRegistration "invalid BLS PoP signature")
  refuseIf (ctx.crypto.blsVerifyPop data.blsPubkey data.blsPop = false)
    (.invalidRegistration "BLS proof-of-possession verification failed")

/-- The BLS key is there and its holder proved it. -/
def checkBlsKey : Verdict := do
  refuseIf (data.blsPubkey = [])
    (.invalidRegistration "BLS public key required for registration")
  refuseIf (data.blsPop = [])
    (.invalidRegistration "BLS proof of possession required for registration")
  validateBlsPop ctx data

def validateRegistrationChain : Verdict := do
  refuseIf (data.prevRegistrationHash ≠ ctx.registrationChain.expectedPrevHash)
    (.invalidRegistration "invalid prev_registration_hash")
  refuseIf (data.sequenceNumber ≠ ctx.registrationChain.expectedSequence)
    (.invalidRegistration
      s!"invalid sequence_number: expected {ctx.registrationChain.expectedSequence}, got {data.sequenceNumber}")

/-- The key has no producer and no queued registration. -/
def checkNotRegistered : Verdict := do
  refuseIf (data.publicKey ∈ ctx.activeProducers)
    (.invalidRegistration "producer already registered")
  refuseIf (data.publicKey ∈ ctx.pendingProducerKeys)
    (.invalidRegistration "producer already has a pending registration")

def checkBondCount : Verdict := do
  refuseIf (data.bondCount < 1) (.invalidRegistration "bond_count must be at least 1")
  refuseIf (maxBondsPerProducer < data.bondCount)
    (.invalidRegistration
      s!"bond_count {data.bondCount} exceeds maximum {maxBondsPerProducer}")

end

section

variable (ctx : ValidationContext) (tx : Transaction)

def readRegistration : Except ValidationError RegistrationData := do
  refuseIf (tx.extraData = []) (.invalidRegistration "missing registration data")
  orRefuse (ctx.crypto.decodeRegistration tx.extraData)
    (.invalidRegistration "invalid registration data")

/-- Inputs, bond outputs, bond amount and bond lock. -/
def checkRegistrationBonds : Verdict := do
  refuseIf (tx.inputs = [])
    (.invalidRegistration "registration must have inputs for bond")
  let bonds := tx.outputs.filter fun output => output.outputType = .bond
  refuseIf (bonds = []) (.invalidRegistration "registration must have a bond output")
  let total := (bonds.map Output.amount).sum
  refuseIf (2 ^ 64 ≤ total) .bondTotalOverflow
  refuseIf (total < ctx.params.bondAmount ctx.currentHeight)
    (.invalidRegistration
      s!"insufficient bond: {total} < {ctx.params.bondAmount ctx.currentHeight}")
  refuseIf
    (bonds.any fun bond => bond.lockUntil < ctx.currentHeight + ctx.params.blocksPerEra)
    (.invalidRegistration "bond lock too short")

/-- During genesis a Registration carries its proofs and nothing else is asked of it. -/
def validateRegistrationDataInner (skipVdf : Bool) : Verdict :=
  if ctx.network.params.isInGenesis ctx.currentHeight then do
    let data ← readRegistration ctx tx
    checkBlsKey ctx data
    checkWhen (!skipVdf) (validateRegistrationVdf ctx data)
  else do
    checkRegistrationBonds ctx tx
    let data ← readRegistration ctx tx
    checkBondCount data
    checkBlsKey ctx data
    checkWhen (!skipVdf) (validateRegistrationVdf ctx data)
    validateRegistrationChain ctx data
    checkNotRegistered ctx data

def validateRegistrationData : Verdict :=
  validateRegistrationDataInner ctx tx false

def validateRegistrationDataSkipVdf : Verdict :=
  validateRegistrationDataInner ctx tx true

/-! ## Key rotations -/

/-- The bytes that `rotation_auth_digest` hashes. -/
def rotationAuthPreimage (genesisHash : Hash) (newBlsPubkey : Bytes) (input : Input) :
    Bytes :=
  ascii "DOLI-ROTATE-BLS-V1" ++ genesisHash.asBytes ++ newBlsPubkey ++
    input.prevTxHash.asBytes ++ leBytes 4 input.outputIndex

/-- Why a key can never attest, before any pairing runs. -/
def pointFault (crypto : Crypto) (bytes : Bytes) : Option String :=
  if bytes.all (· = 0) then some "zero"
  else if bytes.head? = some 0xc0 ∧ bytes.tail.all (· = 0) then some "identity"
  else if crypto.blsKey bytes then none
  else some "not_on_curve"

def decodeNewKey (crypto : Crypto) (bytes : Bytes) : Verdict :=
  match pointFault crypto bytes with
  | some reason => .error (.rotateBlsBadPoint reason)
  | none => .ok ()

def rotateStateless : Except ValidationError RotateBlsData := do
  refuseIf (ctx.currentHeight < ctx.blsKeyRotationActivationHeight)
    (.rotateBlsNotActivated ctx.currentHeight ctx.blsKeyRotationActivationHeight)
  match tx.inputs with
  | [input] => do
      refuseIf (tx.outputs.map Output.outputType ≠ [.normal])
        (.rotateBlsOutputShape tx.outputs.length (tx.outputs.head?.map Output.outputType))
      let payload ← orRefuse (RotateBlsData.decode tx.extraData)
        (.rotateBlsBadPayload tx.extraData.length RotateBlsData.bytesLen)
      decodeNewKey ctx.crypto payload.newBlsPubkey
      refuseIf (input.publicKey ≠ some payload.producer)
        (.rotateBlsProducerMismatch payload.producer input.publicKey)
      let genesis := ctx.network.genesisHash
      refuseIf
        (ctx.crypto.verifyHash
          (ctx.crypto.blake3 (rotationAuthPreimage genesis payload.newBlsPubkey input))
          payload.signature payload.producer = false)
        (.rotateBlsBadSignature payload.producer)
      refuseIf
        (ctx.crypto.verifyRotationPop payload.newBlsPubkey genesis payload.producer
          payload.blsPop = false)
        (.rotateBlsBadPop payload.producer)
      return payload
  | inputs => .error (.rotateBlsInputCount inputs.length)

end

/-! ## What acceptance gives -/

variable {ctx : ValidationContext} {tx : Transaction}

theorem readRegistration_eq_ok {data : RegistrationData} :
    readRegistration ctx tx = .ok data ↔
      tx.extraData ≠ [] ∧ ctx.crypto.decodeRegistration tx.extraData = some data := by
  simp only [readRegistration, bind_eq_ok, exists_unit, refuseIf_eq_ok, orRefuse_eq_ok,
    ne_eq]

/-- Everything a Registration with these data passes, its VDF aside. -/
def RegistrationHolds (ctx : ValidationContext) (tx : Transaction)
    (data : RegistrationData) : Prop :=
  checkBlsKey ctx data = .ok () ∧
    (ctx.network.params.isInGenesis ctx.currentHeight = false →
      checkRegistrationBonds ctx tx = .ok () ∧ checkBondCount data = .ok () ∧
        validateRegistrationChain ctx data = .ok () ∧ checkNotRegistered ctx data = .ok ())

theorem validateRegistrationDataInner_eq_ok {skipVdf : Bool} :
    validateRegistrationDataInner ctx tx skipVdf = .ok () ↔
      ∃ data, readRegistration ctx tx = .ok data ∧ RegistrationHolds ctx tx data ∧
        checkWhen (!skipVdf) (validateRegistrationVdf ctx data) = .ok () := by
  unfold validateRegistrationDataInner RegistrationHolds
  split
  case isTrue hgenesis =>
    simp only [bind_eq_ok, exists_unit, hgenesis, reduceCtorEq, false_implies, and_true]
  case isFalse hlater =>
    simp only [bind_eq_ok, exists_unit, Bool.not_eq_true] at hlater ⊢
    constructor
    · rintro ⟨hbonds, data, hread, hcount, hkey, hvdf, hchain, hnew⟩
      exact ⟨data, hread, ⟨hkey, fun _ => ⟨hbonds, hcount, hchain, hnew⟩⟩, hvdf⟩
    · rintro ⟨data, hread, ⟨hkey, hrest⟩, hvdf⟩
      obtain ⟨hbonds, hcount, hchain, hnew⟩ := hrest hlater
      exact ⟨hbonds, data, hread, hcount, hkey, hvdf, hchain, hnew⟩

end Doli.Validation
