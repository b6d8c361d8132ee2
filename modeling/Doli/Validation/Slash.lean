import Doli.Validation.ProducerAuth

/-!
# Slash evidence

The structural checks of a SlashProducer with its evidence, the state of the accused,
and the rules a block keeps over all its slashes.  The evidence proofs of sequential
work are checked with the rest or left to the caller.
-/

namespace Doli.Validation

open Doli.Core Doli.Lib Doli.Producer

/-! ## Header proofs -/

section

variable (ctx : ValidationContext) (header : BlockHeader)

/-- The producer's signature, carried as the VDF proof of the header. -/
def verifyBlockSignature (crypto : Crypto) : Verdict := do
  refuseIf (header.vdfProof.length ≠ 64) (.invalidBlockSignature "malformed signature")
  refuseIf
    (crypto.verifyStrict (header.signingMessage crypto.blake3) (.fromBytes header.vdfProof)
      header.producer = false)
    (.invalidBlockSignature "verification failed")

def validateVdf : Verdict :=
  if ctx.network.vdfEnabled = false then .ok ()
  else do
    refuseIf (header.vdfOutput.length ≠ 32)
      (.invalidVdfProof s!"VDF output length is {header.vdfOutput.length} bytes, expected 32")
    refuseIf
      (verifyHashChainVdf ctx.crypto.blake3 (header.vdfInput ctx.crypto.blake3)
        (.fromBytes header.vdfOutput) ctx.network.heartbeatVdfIterations = false)
      (.invalidVdfProof "hash-chain VDF recomputation mismatch")

end

/-! ## Evidence -/

def maxSlashDataBytes : Nat := 64 * 1024

section

variable (ctx : ValidationContext)

/-- From the signature gate on the length is bounded.  The reader's own limit then never
binds, because it counts bytes of the same input. -/
def decodeSlashData (bytes : Bytes) : Except ValidationError Validation.SlashData := do
  refuseIf (ctx.signatureRuleActive ∧ maxSlashDataBytes < bytes.length)
    (.invalidSlash s!"slash data is {bytes.length} bytes (max {maxSlashDataBytes})")
  orRefuse (ctx.crypto.decodeSlash bytes) (.invalidSlash "invalid slash data")

def checkCanonical (tx : Transaction) (data : Validation.SlashData) : Verdict := do
  refuseIf (data.evidence.isDoubleProduction = false)
    (.invalidSlash "slash evidence must be DoubleProduction")
  refuseIf ((Wire.slashData ctx.crypto.validKey).encode data ≠ tx.extraData)
    (.invalidSlash "non-canonical slash data encoding")
  refuseIf (data.reporterSignature ≠ ⟨0⟩)
    (.invalidSlash "reporter signature must be the default (all zero)")

def checkHeaderOrigin (number : Nat) (header : BlockHeader) : Verdict := do
  refuseIf (header.genesisHash ≠ ctx.params.genesisHash)
    (.invalidSlash
      s!"evidence header {number} is from a different chain (genesis mismatch)")
  (verifyBlockSignature header ctx.crypto).mapError fun _ =>
    .invalidSlash s!"evidence header {number} lacks a valid producer signature"

def vdfFirst : String :=
  "invalid VDF proof in first block header - evidence may be fabricated"

def vdfSecond : String :=
  "invalid VDF proof in second block header - evidence may be fabricated"

def checkHeaderVdf (header : BlockHeader) (message : String) : Verdict :=
  (validateVdf ctx header).mapError fun _ => .invalidSlash message

/-- Everything about a pair of headers but the proofs of sequential work. -/
def checkDoubleProduction (accused : PublicKey) (first second : BlockHeader) : Verdict := do
  refuseIf (first.producer ≠ second.producer)
    (.invalidSlash "double production evidence must have same producer in both headers")
  refuseIf (first.slot ≠ second.slot)
    (.invalidSlash "double production evidence must have same slot in both headers")
  refuseIf (first.hash ctx.crypto.blake3 = second.hash ctx.crypto.blake3)
    (.invalidSlash "double production evidence must have different block hashes")
  refuseIf (first.producer ≠ accused)
    (.invalidSlash "evidence producer does not match slash target")
  refuseIf (ctx.slashRuleActive ∧ (second.hash ctx.crypto.blake3).word.toNat <
      (first.hash ctx.crypto.blake3).word.toNat)
    (.invalidSlash "double production evidence header order must be ascending by hash")
  checkWhen ctx.signatureRuleActive do
    checkHeaderOrigin ctx 1 first
    checkHeaderOrigin ctx 2 second

def checkEvidenceVdf (first second : BlockHeader) : Verdict := do
  checkHeaderVdf ctx first vdfFirst
  checkHeaderVdf ctx second vdfSecond

def validateDoubleProduction (accused : PublicKey) (first second : BlockHeader)
    (verifyVdf : Bool) : Verdict := do
  checkDoubleProduction ctx accused first second
  checkWhen verifyVdf (checkEvidenceVdf ctx first second)

/-- `validate_price_attestation_equivocation_evidence` -/
def validatePriceEquivocation (accused : PublicKey)
    (first second : PriceAttestationData) : Verdict := do
  refuseIf (ctx.currentHeight < ctx.oracleActivationHeight)
    (.invalidSlash
      "price attestation equivocation evidence rejected: oracle not activated")
  refuseIf (first.signerPubkey ≠ second.signerPubkey)
    (.invalidSlash "price attestation equivocation: attestations have different signers")
  refuseIf (first.signerPubkey ≠ accused)
    (.invalidSlash
      "price attestation equivocation: evidence signer does not match slash target")
  refuseIf (first.epochNumber ≠ second.epochNumber)
    (.invalidSlash
      "price attestation equivocation: attestations are from different epochs")
  refuseIf (first.pairId ≠ second.pairId)
    (.invalidSlash "price attestation equivocation: attestations are for different pairs")
  refuseIf (first.priceCents = second.priceCents)
    (.invalidSlash
      "price attestation equivocation: attestations have identical price_cents")
  refuseIf (ctx.crypto.verifyHash (first.signingMessage ctx.crypto.blake3) first.signature
      first.signerPubkey = false)
    (.invalidSlash
      "price attestation equivocation: first attestation signature invalid")
  refuseIf (ctx.crypto.verifyHash (second.signingMessage ctx.crypto.blake3)
      second.signature second.signerPubkey = false)
    (.invalidSlash
      "price attestation equivocation: second attestation signature invalid")

def checkEvidence (data : Validation.SlashData) (verifyVdf : Bool) : Verdict :=
  match data.evidence with
  | .doubleProduction first second =>
      validateDoubleProduction ctx data.producerPubkey first second verifyVdf
  | .priceAttestationEquivocation first second =>
      validatePriceEquivocation ctx data.producerPubkey first second

def validateSlash (tx : Transaction) (verifyVdf : Bool) :
    Except ValidationError Validation.SlashData := do
  refuseIf (tx.inputs ≠ []) (.invalidSlash "slash transaction must have no inputs")
  refuseIf (tx.outputs ≠ []) (.invalidSlash "slash transaction must have no outputs")
  refuseIf (tx.extraData = []) (.invalidSlash "missing slash data")
  let data ← decodeSlashData ctx tx.extraData
  checkWhen ctx.slashRuleActive (checkCanonical ctx tx data)
  checkEvidence ctx data verifyVdf
  return data

def validateSlashData (tx : Transaction) : Verdict :=
  (validateSlash ctx tx true).map fun _ => ()

def validateSlashDataSkipVdf (tx : Transaction) : Verdict :=
  (validateSlash ctx tx false).map fun _ => ()

end

/-! ## The accused -/

section

variable (ctx : ValidationContext)

/-- Time bounds of the evidence, judged at the slot after the tip. -/
def validateSlashWindow (evidence : SlashingEvidence) (state : SlashTargetState) :
    Verdict :=
  match evidence with
  | .priceAttestationEquivocation .. => .ok ()
  | .doubleProduction first _ => do
      let judged := min (ctx.prevSlot + 1) (2 ^ 32 - 1)
      let age := judged - first.slot.toNat
      refuseIf (ctx.unbondingPeriod ≤ age)
        (.invalidSlash "slash evidence expired: offence older than the unbonding period")
      let gate := ctx.incI255SlashingActivationHeight
      let tenure := ctx.currentHeight - max state.registeredAt gate
      let beforeGate : Bool := ctx.currentHeight - gate < age
      let beforeBonds : Bool := !state.lockedCollateral &&
        state.oldestBondSlot.all fun floor => first.slot.toNat < floor
      refuseIf (tenure = 0 ∨ beforeGate ∨ beforeBonds)
        (.invalidSlash "slash evidence predates the accused's current registration")

def validateSlashTarget (tx : Transaction) : Verdict :=
  if tx.txType ≠ .slashProducer ∨ ctx.slashRuleActive = false then .ok ()
  else do
    let data ← validateSlash ctx tx false
    let state ← orRefuse (ctx.slashTargets data.producerPubkey)
      (.invalidSlash "slash target is not a registered producer")
    refuseIf (state.slashed = true) (.invalidSlash "slash target is already slashed")
    refuseIf (state.slashQueued = true)
      (.invalidSlash "slash target already has a pending slash")
    refuseIf (state.active = false ∧ state.lockedCollateral = false)
      (.invalidSlash "slash target is not an active or unbonding producer")
    validateSlashWindow ctx data.evidence state

/-- The key a Registration registers or the producer an AddBond bonds. -/
def slashRegistrant (tx : Transaction) : Option PublicKey :=
  match tx.txType with
  | .registration => (tx.registrationData ctx.crypto.primitives).map RegistrationData.publicKey
  | .addBond => tx.addBondData.map AddBondData.producerPubkey
  | _ => none

def validateNotSlashedRegistrant (tx : Transaction) : Verdict :=
  if ctx.slashRuleActive = false then .ok ()
  else
    match slashRegistrant ctx tx with
    | none => .ok ()
    | some key =>
        match ctx.slashTargets key with
        | some state => refuseIf (state.slashed = true ∨ state.slashQueued = true)
            (.slashedRegistrant key)
        | none => .ok ()

end

/-! ## The slashes of a block -/

section

variable (ctx : ValidationContext)

def bondWithdrawalProducer (tx : Transaction) : Option PublicKey :=
  tx.withdrawalRequestData.map WithdrawalRequestData.producerPubkey

/-- The accused of a block, read before any evidence check. -/
def accusedKeys (txs : List Transaction) : List PublicKey :=
  (txs.filter fun tx => tx.txType = .slashProducer).filterMap fun tx =>
    (decodeSlashData ctx tx.extraData).toOption.map Validation.SlashData.producerPubkey

def checkSlashCounts (txs : List Transaction) : Verdict := do
  let slashes := txs.countP fun tx => tx.txType = .slashProducer
  refuseIf (maxSlashTxsPerBlock < slashes)
    (.invalidSlash s!"block holds {slashes} slashes (max {maxSlashTxsPerBlock})")
  let accused := accusedKeys ctx txs
  refuseIf (¬accused.Nodup) (.invalidSlash "block holds two slashes for one accused")
  refuseIf ((txs.filterMap bondWithdrawalProducer).any fun key => accused.contains key)
    (.invalidSlash "block holds a slash and a bond withdrawal for one producer")
  match (txs.filterMap (slashRegistrant ctx)).find? fun key => accused.contains key with
  | some key => .error (.slashedRegistrant key)
  | none => .ok ()

def validateBlockSlashes (txs : List Transaction) : Verdict := do
  checkWhen ctx.slashRuleActive (checkSlashCounts ctx txs)
  checkEach (validateSlashTarget ctx) txs

end

end Doli.Validation
