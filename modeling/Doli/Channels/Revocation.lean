import Doli.Channels.Conservation
import Doli.Validation.InputSignature

/-!
# Revocation

The owner of a commitment can be punished for as long as the counterparty holds the
preimage, and cannot take its own output before the dispute height.
-/

namespace Doli.Channels

open Doli.Core Doli.Lib

/-- `HASHLOCK_DOMAIN` -/
def hashlockDomain : Bytes := ascii "DOLI_HASHLOCK"

def revocationDomain : Bytes := ascii "DOLI_CHANNEL_REVOKE"

section

variable (prim : Primitives)

def generateRevocationPreimage (channelSeed : Bytes) (number : Nat) : Bytes :=
  (prim.hashWithDomain revocationDomain (channelSeed ++ leBytes 8 number)).asBytes

def revocationHash (preimage : Bytes) : Hash := prim.hashWithDomain hashlockDomain preimage

/-- `CommitmentPair::new` -/
def CommitmentPair.new (number : Nat) (balance : ChannelBalance) (channelSeed : Bytes) :
    CommitmentPair where
  number := number
  balance := balance
  revocationPreimage := generateRevocationPreimage prim channelSeed number
  revocationHash := Channels.revocationHash prim
    (generateRevocationPreimage prim channelSeed number)
  remoteRevocationHash := none
  htlcs := []

end

/-- The condition of an output, for the types that carry one. -/
def outputCondition (output : Output) : Option (Except ConditionError Condition) :=
  if Validation.isConditioned output.outputType ∧ output.extraData ≠ [] then
    some ((Condition.decodePrefix output.extraData).map Prod.fst)
  else none

/-! ## Witnesses -/

structure KeyPair (PrivateKey : Type) where
  privateKey : PrivateKey
  publicKey : PublicKey

section

variable {PrivateKey : Type} (signHash : Hash → PrivateKey → Signature)

def signedBy (signingHash : Hash) (keypair : KeyPair PrivateKey) (preimage : Option Bytes)
    (orBranches : List Bool) : Witness where
  signatures := [⟨keypair.publicKey, signHash signingHash keypair.privateKey⟩]
  preimage := preimage
  orBranches := orBranches

def buildDelayedClaimWitness (signingHash : Hash) (keypair : KeyPair PrivateKey) : Witness :=
  signedBy signHash signingHash keypair none [true]

def buildPenaltyWitness (signingHash : Hash) (keypair : KeyPair PrivateKey)
    (revocationPreimage : Bytes) : Witness :=
  signedBy signHash signingHash keypair (some revocationPreimage) [false]

def buildHtlcClaimWitness (signingHash : Hash) (keypair : KeyPair PrivateKey)
    (paymentPreimage : Bytes) : Witness :=
  signedBy signHash signingHash keypair (some paymentPreimage) [false]

def buildHtlcTimeoutWitness (signingHash : Hash) (keypair : KeyPair PrivateKey) : Witness :=
  signedBy signHash signingHash keypair none [true]

end

/-! ## The two branches -/

section

variable {env : EvalEnv} {left right : Hash} {leftCondition rightCondition : Condition}

theorem evaluate_signed_and {owner : Hash} {condition : Condition} {cursor : Nat} :
    (env.evaluate (.and (.signature owner) condition) cursor).1 = true ↔
      env.hasSignature owner = true ∧ (env.evaluate condition cursor).1 = true := by
  simp only [EvalEnv.evaluate]
  cases env.hasSignature owner with
  | false => simp
  | true => simp

theorem evaluate_eitherSigned_left {branches : List Bool}
    (hbranch : env.witness.orBranches = false :: branches) :
    (env.evaluate (eitherSigned left right leftCondition rightCondition) 0).1 = true ↔
      env.hasSignature left = true ∧ (env.evaluate leftCondition 1).1 = true := by
  unfold eitherSigned
  rw [EvalEnv.evaluate, hbranch]
  exact evaluate_signed_and

theorem evaluate_eitherSigned_right {branches : List Bool}
    (hbranch : env.witness.orBranches = true :: branches) :
    (env.evaluate (eitherSigned left right leftCondition rightCondition) 0).1 = true ↔
      env.hasSignature right = true ∧ (env.evaluate rightCondition 1).1 = true := by
  unfold eitherSigned
  rw [EvalEnv.evaluate, hbranch]
  exact evaluate_signed_and

theorem met_of_evaluate_eitherSigned {cursor : Nat}
    (htrue : (env.evaluate (eitherSigned left right leftCondition rightCondition) cursor).1 =
      true) :
    (env.hasSignature left = true ∧ env.Satisfied leftCondition) ∨
      (env.hasSignature right = true ∧ env.Satisfied rightCondition) := by
  cases EvalEnv.satisfied_of_evaluate htrue with
  | orLeft hside =>
      cases hside with
      | and hsigned hmet =>
          cases hsigned with
          | signature hsigned => exact .inl ⟨EvalEnv.hasSignature_iff.mpr hsigned, hmet⟩
  | orRight hside =>
      cases hside with
      | and hsigned hmet =>
          cases hsigned with
          | signature hsigned => exact .inr ⟨EvalEnv.hasSignature_iff.mpr hsigned, hmet⟩

theorem preimageMet_iff {expected : Hash} :
    env.preimageMet expected = true ↔
      ∃ preimage, env.witness.preimage = some preimage ∧
        revocationHash env.prim preimage = expected := by
  unfold EvalEnv.preimageMet
  cases env.witness.preimage with
  | none => simp
  | some preimage =>
      rw [decide_eq_true_eq]
      constructor
      · exact fun hhash => ⟨preimage, rfl, hhash⟩
      · rintro ⟨shown, hshown, hhash⟩
        cases hshown
        exact hhash

end

/-! ## The revocable output -/

/-- The key has the address, up to the length to which addresses are compared. -/
def HasAddress (prim : Primitives) (key : PublicKey) (pubkeyHash : Hash) : Prop :=
  (prim.addressOf key).asBytes.take EvalEnv.addressLength =
    pubkeyHash.asBytes.take EvalEnv.addressLength

theorem hasAddress_self (prim : Primitives) (key : PublicKey) :
    HasAddress prim key (prim.addressOf key) :=
  rfl

section

variable {PrivateKey : Type} {signHash : Hash → PrivateKey → Signature} {env : EvalEnv}
  {keypair : KeyPair PrivateKey} {preimage : Option Bytes} {branches : List Bool}

theorem hasSignature_signedBy {pubkeyHash : Hash}
    (hwitness : env.witness =
      signedBy signHash env.signingHash keypair preimage branches)
    (haddress : HasAddress env.prim keypair.publicKey pubkeyHash)
    (hverifies : env.verifyHash env.signingHash
      (signHash env.signingHash keypair.privateKey) keypair.publicKey = true) :
    env.hasSignature pubkeyHash = true := by
  apply EvalEnv.hasSignature_iff.mpr
  refine ⟨⟨keypair.publicKey, signHash env.signingHash keypair.privateKey⟩, ?_, ?_⟩
  · rw [hwitness]
    exact List.mem_singleton_self _
  · unfold EvalEnv.signsFor
    rw [Bool.and_eq_true, decide_eq_true_eq]
    exact ⟨haddress, hverifies⟩

end

section

variable {pair : CommitmentPair} {localPubkeyHash remotePubkeyHash : Hash}
  {disputeHeight localAfterFee : Nat} {outputs : List Output} {output : Output}

theorem outputType_of_htlcOutput {htlc : InFlightHtlc}
    (hok : htlcOutput localPubkeyHash remotePubkeyHash htlc = .ok output) :
    output.outputType = .htlc := by
  unfold htlcOutput at hok
  split at hok
  · obtain ⟨-, -, rfl⟩ := conditioned_eq_ok.mp hok
    rfl
  · obtain ⟨-, -, rfl⟩ := conditioned_eq_ok.mp hok
    rfl

theorem toLocal_of_multisig
    (hok : pair.commitmentOutputs localPubkeyHash remotePubkeyHash disputeHeight
      localAfterFee = .ok outputs) (hmem : output ∈ outputs)
    (htype : output.outputType = .multisig) :
    toLocalOutput localAfterFee localPubkeyHash remotePubkeyHash pair.revocationHash
      disputeHeight = .ok output := by
  obtain ⟨own, hown, hok⟩ := bind_eq_ok.mp hok
  obtain ⟨other, hother, hok⟩ := bind_eq_ok.mp hok
  obtain ⟨pending, hpending, hok⟩ := bind_eq_ok.mp hok
  cases hok
  rw [List.mem_append, List.mem_append] at hmem
  obtain (hours | htheirs) | hhtlc := hmem
  · exact mem_unlessZero hown hours
  · cases mem_unlessZero hother htheirs
    cases htype
  · obtain ⟨htlc, -, hwritten⟩ := exists_of_mem_mapM hpending hhtlc
    rw [outputType_of_htlcOutput hwritten] at htype
    cases htype

theorem outputs_of_buildLocalCommitment {arith : WordArith} {fundingTxHash : Hash}
    {fundingOutputIndex capacity fee : Nat} {tx : Transaction}
    (hbuilt : pair.buildLocalCommitment arith fundingTxHash fundingOutputIndex
      localPubkeyHash remotePubkeyHash disputeHeight capacity fee = some (.ok tx)) :
    ∃ localAfterFee, pair.commitmentOutputs localPubkeyHash remotePubkeyHash disputeHeight
      localAfterFee = .ok tx.outputs := by
  obtain ⟨htlcTotal, -, hok⟩ := Option.bind_eq_some_iff.mp hbuilt
  obtain ⟨total, -, hok⟩ := Option.bind_eq_some_iff.mp hok
  obtain ⟨actual, -, hok⟩ := Option.bind_eq_some_iff.mp hok
  obtain ⟨-, -, localAfterFee, outputs, -, houtputs, rfl⟩ := spendFunding_eq_ok hok
  exact ⟨localAfterFee, houtputs⟩

theorem outputCondition_toLocal {amount : Nat} {revocationHash : Hash}
    (hdispute : disputeHeight < 2 ^ 64)
    (hok : toLocalOutput amount localPubkeyHash remotePubkeyHash revocationHash
      disputeHeight = .ok output) :
    outputCondition output = some (.ok
      (toLocalCondition localPubkeyHash remotePubkeyHash revocationHash disputeHeight)) := by
  obtain ⟨extraData, hencoded, rfl⟩ := conditioned_eq_ok.mp hok
  have hdecoded := Condition.decodePrefix_of_encode
    (show (toLocalCondition localPubkeyHash remotePubkeyHash revocationHash
      disputeHeight).Fits from ⟨⟨trivial, trivial⟩, trivial, hdispute⟩)
    ⟨⟨trivial, trivial⟩, trivial, trivial⟩ hencoded []
  have hwritten : extraData ≠ [] := by
    obtain ⟨-, rfl⟩ := Condition.encode_ok hencoded
    exact List.cons_ne_nil _ _
  rw [List.append_nil] at hdecoded
  unfold outputCondition
  rw [if_pos ⟨rfl, hwritten⟩, hdecoded]
  rfl

end

/-- The revocable output of a commitment: the penalty is open at every height, the owner's
claim from the dispute height on, and nothing else is accepted. -/
theorem revocation_enforceable {PrivateKey : Type} {signHash : Hash → PrivateKey → Signature}
    {arith : WordArith} {pair : CommitmentPair} {fundingTxHash : Hash}
    {fundingOutputIndex : Nat} {localPubkeyHash remotePubkeyHash : Hash}
    {disputeHeight capacity fee : Nat} {tx : Transaction} {output : Output}
    (hdispute : disputeHeight < 2 ^ 64)
    (hbuilt : pair.buildLocalCommitment arith fundingTxHash fundingOutputIndex
      localPubkeyHash remotePubkeyHash disputeHeight capacity fee = some (.ok tx))
    (hmem : output ∈ tx.outputs) (htype : output.outputType = .multisig) :
    ∃ condition, outputCondition output = some (.ok condition) ∧ ∀ env : EvalEnv,
      (∀ (counterparty : KeyPair PrivateKey) (preimage : Bytes),
        HasAddress env.prim counterparty.publicKey remotePubkeyHash →
        env.verifyHash env.signingHash (signHash env.signingHash counterparty.privateKey)
          counterparty.publicKey = true →
        revocationHash env.prim preimage = pair.revocationHash →
        env.witness = buildPenaltyWitness signHash env.signingHash counterparty preimage →
          (env.evaluate condition 0).1 = true) ∧
      (∀ owner : KeyPair PrivateKey,
        HasAddress env.prim owner.publicKey localPubkeyHash →
        env.verifyHash env.signingHash (signHash env.signingHash owner.privateKey)
          owner.publicKey = true →
        env.witness = buildDelayedClaimWitness signHash env.signingHash owner →
          ((env.evaluate condition 0).1 = true ↔ disputeHeight ≤ env.currentHeight)) ∧
      ((env.evaluate condition 0).1 = true →
        (env.hasSignature remotePubkeyHash = true ∧
          ∃ preimage, env.witness.preimage = some preimage ∧
            revocationHash env.prim preimage = pair.revocationHash) ∨
        (env.hasSignature localPubkeyHash = true ∧ disputeHeight ≤ env.currentHeight)) := by
  obtain ⟨localAfterFee, houtputs⟩ := outputs_of_buildLocalCommitment hbuilt
  have htoLocal := toLocal_of_multisig houtputs hmem htype
  refine ⟨_, outputCondition_toLocal hdispute htoLocal, ?_⟩
  intro env
  refine ⟨?_, ?_, ?_⟩
  · intro counterparty preimage haddress hverifies hhash hwitness
    have hbranch : env.witness.orBranches = [false] := by
      rw [hwitness]
      rfl
    refine (evaluate_eitherSigned_left hbranch).mpr
      ⟨hasSignature_signedBy hwitness haddress hverifies, preimageMet_iff.mpr ?_⟩
    rw [hwitness]
    exact ⟨preimage, rfl, hhash⟩
  · intro owner haddress hverifies hwitness
    have hbranch : env.witness.orBranches = [true] := by
      rw [hwitness]
      rfl
    refine (evaluate_eitherSigned_right hbranch).trans ?_
    rw [hasSignature_signedBy hwitness haddress hverifies]
    simp [EvalEnv.evaluate]
  · intro htrue
    rcases met_of_evaluate_eitherSigned htrue with hpenalty | hclaim
    · obtain ⟨hsigned, hmet⟩ := hpenalty
      cases hmet with
      | hashlock hshown hhash => exact .inl ⟨hsigned, _, hshown, hhash⟩
    · obtain ⟨hsigned, hmet⟩ := hclaim
      cases hmet with
      | timelock hreached => exact .inr ⟨hsigned, hreached⟩

/-! ## A punished owner -/

def sampleOwner : KeyPair Unit := ⟨(), ⟨41⟩⟩

def sampleCounterparty : KeyPair Unit := ⟨(), ⟨42⟩⟩

def sampleSign (_ : Hash) (_ : Unit) : Signature := ⟨9⟩

def samplePreimage : Bytes := generateRevocationPreimage samplePrimitives (leBytes 32 5) 4

/-- The owner broadcasts a commitment of the channel of the two. -/
def sampleBroadcast : Option (Except ChannelError Transaction) :=
  (CommitmentPair.new samplePrimitives 4 ⟨700, 300⟩ (leBytes 32 5)).buildLocalCommitment
    (.wrapping (2 ^ 64)) ⟨7⟩ 0 (samplePrimitives.addressOf sampleOwner.publicKey)
      (samplePrimitives.addressOf sampleCounterparty.publicKey) 1144 1000 0

def sampleRevoked : Transaction := builtTransaction sampleBroadcast

def sampleRevocable : Output := sampleRevoked.outputs.headD (toRemoteOutput 0 ⟨0⟩)

def sampleSpending (witness : Witness) (height : Nat) : EvalEnv where
  prim := samplePrimitives
  verifyHash _ signature _ := signature = ⟨9⟩
  witness := witness
  currentHeight := height
  signingHash := ⟨13⟩
  transaction := none

theorem sampleSpending_verifies (witness : Witness) (height : Nat) (message : Hash)
    (key : PublicKey) :
    (sampleSpending witness height).verifyHash message (sampleSign message ()) key = true := by
  simp [sampleSpending, sampleSign]

theorem revocation_enforceable_sample : ∃ condition,
    outputCondition sampleRevocable = some (.ok condition) ∧
      ((sampleSpending (buildPenaltyWitness sampleSign ⟨13⟩ sampleCounterparty
        samplePreimage) 0).evaluate condition 0).1 = true ∧
      (∀ height, ((sampleSpending (buildDelayedClaimWitness sampleSign ⟨13⟩ sampleOwner)
        height).evaluate condition 0).1 = true ↔ 1144 ≤ height) := by
  have hbuilt : sampleBroadcast = some (.ok sampleRevoked) := by decide +kernel
  have hmem : sampleRevocable ∈ sampleRevoked.outputs := by decide +kernel
  have htype : sampleRevocable.outputType = .multisig := by decide +kernel
  obtain ⟨condition, hcondition, hspent⟩ :=
    revocation_enforceable (by decide) hbuilt hmem htype
  refine ⟨condition, hcondition, ?_, ?_⟩
  · have hpenalty := (hspent (sampleSpending (buildPenaltyWitness sampleSign ⟨13⟩
      sampleCounterparty samplePreimage) 0)).1
    exact hpenalty sampleCounterparty samplePreimage (hasAddress_self _ _)
      (sampleSpending_verifies _ _ _ _) rfl rfl
  · intro height
    have hclaim := (hspent (sampleSpending (buildDelayedClaimWitness sampleSign ⟨13⟩
      sampleOwner) height)).2.1
    exact hclaim sampleOwner (hasAddress_self _ _) (sampleSpending_verifies _ _ _ _) rfl

end Doli.Channels
