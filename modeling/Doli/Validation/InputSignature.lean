import Doli.Core.ConditionEval
import Doli.Core.Sighash
import Doli.Core.WitnessCodec
import Doli.Validation.ContentBinding
import Doli.Validation.Spending

/-!
# Who may spend an input

`verify_input_conditions`: the condition of a conditioned output, the signature under the
signing message of the input for every other.  Then which transactions a signature of all
outputs is good for.
-/

namespace Doli.Validation

open Doli.Core Doli.Lib

def isConditioned : OutputType → Bool
  | .multisig => true
  | .hashlock => true
  | .htlc => true
  | .vesting => true
  | .nft => true
  | .fungibleAsset => true
  | .bridgeHtlc => true
  | .lpShare => true
  | _ => false

section

variable (crypto : Crypto) (sigVerificationHeight height : Nat) (tx : Transaction)

def signingMessageForInput (input : Input) : Hash :=
  crypto.blake3 (tx.signingPreimageForInput input)

/-- The keys of unspent outputs are not stored, so only the key of the input counts. -/
def verifyInputSignature (index : Nat) (input : Input) (spent : Output) : Verdict :=
  match input.publicKey with
  | none =>
      refuseIf (sigVerificationHeight ≤ height) (.missingPublicKey index sigVerificationHeight)
  | some key => do
      refuseIf (spent.pubkeyHash ≠ crypto.primitives.addressOf key)
        (.pubkeyHashMismatch spent.pubkeyHash (crypto.primitives.addressOf key))
      refuseIf (crypto.verifyHash (signingMessageForInput crypto tx input) input.signature
          key = false)
        (.invalidSignature index)

def evalEnv (input : Input) (witness : Witness) : EvalEnv where
  prim := crypto.primitives
  verifyHash := crypto.verifyHash
  witness := witness
  currentHeight := height
  signingHash := signingMessageForInput crypto tx input
  transaction := some tx

def verifyCondition (index : Nat) (input : Input) (spent : Output) : Verdict := do
  let condition ← ((Condition.decodePrefix spent.extraData).map Prod.fst).mapError fun _ =>
    .invalidTransaction
      s!"[ERRTX038] input {index} references output with invalid condition"
  refuseIf (maxConditionOps < condition.opsCount)
    (.invalidTransaction
      s!"[ERRTX039] input {index} condition has {condition.opsCount} ops (max {maxConditionOps})")
  let witness ← (Witness.decode crypto.validKey
      ((tx.getCovenantWitness index).getD [])).mapError fun _ =>
    .invalidTransaction s!"[ERRTX040] input {index} has invalid witness data"
  refuseIf (((evalEnv crypto height tx input witness).evaluate condition 0).1 = false)
    (.invalidSignature index)

def verifyInputConditions (index : Nat) (input : Input) (spent : Output) : Verdict :=
  if isConditioned spent.outputType then verifyCondition crypto height tx index input spent
  else verifyInputSignature crypto sigVerificationHeight height tx index input spent

end

/-! ## The transactions a signature is good for -/

section

variable {crypto : Crypto} {first second : Transaction} {signed rewritten : Input}

theorem checkCommittedOutputs_of_extends (hextends : first.Extends second rewritten)
    (index : Nat) : checkCommittedOutputs second index rewritten = .ok () := by
  have hcount := hextends.committedOutputCount
  have hlength := hextends.outputs.length_le
  unfold checkCommittedOutputs
  rw [seq_eq_ok, refuseIf_eq_ok, refuseIf_eq_ok, hextends.sighashType]
  exact ⟨by simp, by omega⟩

/-- A signature of all outputs, given for this message only, is refused with any others but
for an extension of the list that the input declares. -/
theorem signature_refused_iff {key : PublicKey} {signature : Signature}
    (hsigned : signed ∈ first.inputs) (hmode : signed.sighashType = .anyoneCanPay)
    (hall : signed.committedOutputCount = 0) (hrewritten : rewritten ∈ second.inputs)
    (houtpoint : rewritten.outpoint = signed.outpoint)
    (hdiffer : second.outputs ≠ first.outputs)
    (hverified : crypto.verifyHash (signingMessageForInput crypto first signed) signature key =
      true)
    (hunforgeable : ∀ message, crypto.verifyHash message signature key = true →
      message = signingMessageForInput crypto first signed)
    (hinjective : Set.InjOn crypto.blake3
      {first.signingPreimageForInput signed, second.signingPreimageForInput rewritten})
    (hfirst : first.InRange) (hsecond : second.InRange)
    (hlists : first.ShortLists) (hlists' : second.ShortLists)
    (hnone : ¬ OutputsOverlap first.outputs second.outputs) (index : Nat) :
    ¬ (checkCommittedOutputs second index rewritten = .ok () ∧
      crypto.verifyHash (signingMessageForInput crypto second rewritten) signature key =
        true) ↔
      ¬ first.Extends second rewritten := by
  have hmessage := Transaction.signingPreimageForInput_eq_iff hfirst hsecond hlists hlists'
    hnone hsigned hrewritten hmode hall houtpoint hdiffer
  apply not_congr
  constructor
  · rintro ⟨-, hok⟩
    have hsame := hunforgeable _ hok
    exact hmessage.mp (hinjective (by simp) (by simp) hsame.symm)
  · intro hextends
    refine ⟨checkCommittedOutputs_of_extends hextends index, ?_⟩
    unfold signingMessageForInput at hverified ⊢
    rwa [← hmessage.mpr hextends]

end

/-! ## On given inputs -/

/-- A signature that is the message it was given for. -/
def bindingCrypto : Crypto :=
  { sampleCrypto with
    verifyHash := fun message signature _ => signature.word.toNat = message.word.toNat }

theorem bindingCrypto_unforgeable {signature : Signature} {key : PublicKey} {given : Hash}
    (hgiven : bindingCrypto.verifyHash given signature key = true) (message : Hash)
    (hok : bindingCrypto.verifyHash message signature key = true) : message = given := by
  have hfirst : signature.word.toNat = given.word.toNat := of_decide_eq_true hgiven
  have hsecond : signature.word.toNat = message.word.toNat := of_decide_eq_true hok
  have hword := BitVec.eq_of_toNat_eq (hsecond.symm.trans hfirst)
  cases message
  cases given
  exact congrArg Hash.mk hword

def sampleKey : PublicKey := ⟨5⟩

def sampleOfferInput (committedOutputCount : Nat) (signature : Signature) : Input :=
  ⟨⟨41⟩, 0, signature, .anyoneCanPay, committedOutputCount, some sampleKey⟩

/-- A Transfer of one AnyoneCanPay input to Normal outputs of the amounts. -/
def sampleOffer (input : Input) (amounts : List Nat) : Transaction where
  version := 1
  txType := .transfer
  inputs := [input]
  outputs := amounts.map samplePlain
  extraData := []

/-- The signature of all outputs of the offer of 1000. -/
def sampleOfferSignature : Signature :=
  ⟨(signingMessageForInput bindingCrypto (sampleOffer (sampleOfferInput 0 ⟨0⟩) [1000])
    (sampleOfferInput 0 ⟨0⟩)).word.setWidth 512⟩

def sampleOfferSigned : Input := sampleOfferInput 0 sampleOfferSignature

def sampleRewritten : Input := sampleOfferInput 1 sampleOfferSignature

def sampleOwned : Output :=
  ⟨.normal, 2000, bindingCrypto.primitives.addressOf sampleKey, 0, []⟩

theorem sampleOffer_inRange (input : Input) (hinput : input.outputIndex = 0)
    {amounts : List Nat} (hamounts : ∀ amount ∈ amounts, amount < 2 ^ 64) :
    (sampleOffer input amounts).InRange := by
  refine ⟨Nat.one_lt_two_pow (by omega), ?_, ?_⟩
  · intro other hother
    rw [List.mem_singleton.mp hother, hinput]
    exact Nat.two_pow_pos 32
  · unfold sampleOffer
    dsimp only
    rw [List.forall_mem_map]
    exact fun amount hamount =>
      ⟨hamounts amount hamount, Nat.two_pow_pos 64, Nat.two_pow_pos 32⟩

theorem sampleOffer_shortLists (input : Input) (amount : Nat) :
    (sampleOffer input [amount]).ShortLists :=
  ⟨Nat.one_lt_two_pow (by omega), Nat.one_lt_two_pow (by omega)⟩

theorem sampleOfferSignature_verified :
    bindingCrypto.verifyHash
      (signingMessageForInput bindingCrypto (sampleOffer sampleOfferSigned [1000])
        sampleOfferSigned)
      sampleOfferSignature sampleKey = true := by
  decide +kernel

theorem signature_refused_iff_sample :
    ¬ (checkCommittedOutputs (sampleOffer sampleOfferSigned [999]) 0 sampleOfferSigned = .ok () ∧
      bindingCrypto.verifyHash
        (signingMessageForInput bindingCrypto (sampleOffer sampleOfferSigned [999])
          sampleOfferSigned)
        sampleOfferSignature sampleKey = true) ↔
      ¬ (sampleOffer sampleOfferSigned [1000]).Extends (sampleOffer sampleOfferSigned [999])
        sampleOfferSigned := by
  have hdifferent : bindingCrypto.blake3
      ((sampleOffer sampleOfferSigned [1000]).signingPreimageForInput sampleOfferSigned) ≠
        bindingCrypto.blake3
          ((sampleOffer sampleOfferSigned [999]).signingPreimageForInput sampleOfferSigned) := by
    decide +kernel
  have hinjective : Set.InjOn bindingCrypto.blake3
      {(sampleOffer sampleOfferSigned [1000]).signingPreimageForInput sampleOfferSigned,
        (sampleOffer sampleOfferSigned [999]).signingPreimageForInput sampleOfferSigned} :=
    Set.injOn_pair.mpr fun hsame => absurd hsame hdifferent
  exact signature_refused_iff (List.mem_singleton_self _) rfl rfl (List.mem_singleton_self _)
    rfl (by decide)
    sampleOfferSignature_verified (bindingCrypto_unforgeable sampleOfferSignature_verified)
    hinjective (sampleOffer_inRange _ rfl (by simp)) (sampleOffer_inRange _ rfl (by simp))
    (sampleOffer_shortLists _ 1000) (sampleOffer_shortLists _ 999) (by decide +kernel) 0

/-- The buyer appends an output of 500 and declares that the seller signed one output. -/
theorem appended_output_accepted :
    let first := sampleOffer sampleOfferSigned [1000]
    let second := sampleOffer sampleRewritten [1000, 500]
    verifyInputConditions bindingCrypto 0 5 first 0 sampleOfferSigned sampleOwned = .ok () ∧
      (∀ message, bindingCrypto.verifyHash message sampleOfferSignature sampleKey = true →
        message = signingMessageForInput bindingCrypto first sampleOfferSigned) ∧
        Set.InjOn bindingCrypto.blake3
          {first.signingPreimageForInput sampleOfferSigned,
            second.signingPreimageForInput sampleRewritten} ∧
          second.outputs ≠ first.outputs ∧
            checkCommittedOutputs second 0 sampleRewritten = .ok () ∧
              verifyInputConditions bindingCrypto 0 5 second 0 sampleRewritten sampleOwned =
                .ok () := by
  have hsame : (sampleOffer sampleOfferSigned [1000]).signingPreimageForInput sampleOfferSigned =
      (sampleOffer sampleRewritten [1000, 500]).signingPreimageForInput sampleRewritten := by
    decide +kernel
  refine ⟨by decide +kernel, bindingCrypto_unforgeable sampleOfferSignature_verified, ?_,
    by decide, by decide +kernel, by decide +kernel⟩
  exact Set.injOn_pair.mpr fun _ => hsame

end Doli.Validation
