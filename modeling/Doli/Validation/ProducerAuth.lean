import Doli.Validation.Outputs

/-!
# Producer authorization

From its activation height on, Registration, AddBond and RequestWithdrawal carry the
exact encoding of their payload followed by a signature of the producer it names.
-/

namespace Doli.Validation

open Doli.Core Doli.Lib Doli.Producer

def producerAuthDomain : Bytes := ascii "DOLI-PRODUCER-AUTH-V1"

def producerAuthSigLen : Nat := 64

/-- The bytes that `producer_auth_digest` feeds to BLAKE3. -/
def producerAuthPreimage (genesisHash signingMessage : Hash) (payload : Bytes) : Bytes :=
  producerAuthDomain ++ (genesisHash.asBytes ++ (signingMessage.asBytes ++ payload))

def producerAuthDigest (blake3 : Bytes → Hash) (genesisHash : Hash) (tx : Transaction)
    (payload : Bytes) : Hash :=
  blake3 (producerAuthPreimage genesisHash (blake3 tx.signingPreimage) payload)

/-- The producer named by `payload`, only if `payload` is its exact encoding. -/
def canonicalProducer (crypto : Crypto) (kind : TxType) (payload : Bytes) :
    Option PublicKey :=
  match kind with
  | .addBond =>
      (AddBondData.fromBytes payload).bind fun data =>
        if data.toBytes = payload then some data.producerPubkey else none
  | .requestWithdrawal =>
      (WithdrawalRequestData.fromBytes payload).bind fun data =>
        if data.toBytes = payload then some data.producerPubkey else none
  | _ =>
      (crypto.decodeRegistration payload).bind fun data =>
        if (Wire.registrationData crypto.validKey).encode data = payload then
          some data.publicKey
        else none

def isProducerPayload : TxType → Bool
  | .registration => true
  | .addBond => true
  | .requestWithdrawal => true
  | _ => false

/-- The payload, without the signature that follows it. -/
def authPayload (tx : Transaction) : Bytes :=
  tx.extraData.take (tx.extraData.length - producerAuthSigLen)

def authSignature (tx : Transaction) : Bytes :=
  tx.extraData.drop (tx.extraData.length - producerAuthSigLen)

def checkProducerAuth (ctx : ValidationContext) (tx : Transaction) : Verdict :=
  if isProducerPayload tx.txType = false ∨
      ctx.ruleHeight < ctx.incI182ProducerAuthActivationHeight then .ok ()
  else do
    refuseIf (tx.extraData.length < producerAuthSigLen)
      (.invalidTransaction "[ERRTX-PAUTH001] no producer signature")
    let producer ← orRefuse (canonicalProducer ctx.crypto tx.txType (authPayload tx))
      (.invalidTransaction
        "[ERRTX-PAUTH001] extra_data must be the exact payload followed by a 64-byte producer signature")
    let digest :=
      producerAuthDigest ctx.crypto.blake3 ctx.params.genesisHash tx (authPayload tx)
    refuseIf (ctx.crypto.verifyHash digest (.fromBytes (authSignature tx)) producer = false)
      (.invalidTransaction "[ERRTX-PAUTH001] not signed by its producer")

/-! ## The producer a transaction names -/

/-- The producer in the payload of a Registration, an AddBond or a RequestWithdrawal. -/
def namedProducer (prim : Primitives) (tx : Transaction) : Option PublicKey :=
  match tx.txType with
  | .registration => (tx.registrationData prim).map RegistrationData.publicKey
  | .addBond => tx.addBondData.map AddBondData.producerPubkey
  | .requestWithdrawal => tx.withdrawalRequestData.map WithdrawalRequestData.producerPubkey
  | _ => none

theorem slice_append_of_le {front rest : Bytes} {lo hi : Nat} (hhi : hi ≤ front.length) :
    slice (front ++ rest) lo hi = slice front lo hi := by
  have hrest : hi - lo - (front.length - lo) = 0 := by omega
  rw [slice, List.drop_append, List.take_append, List.length_drop, hrest, List.take_zero,
    List.append_nil, slice]

theorem addBondData_append {front : Bytes} {data : AddBondData}
    (hread : AddBondData.fromBytes front = some data) (rest : Bytes) :
    AddBondData.fromBytes (front ++ rest) = some data := by
  unfold AddBondData.fromBytes at hread
  split at hread
  case isTrue => simp at hread
  case isFalse hlong =>
    have hkey := @slice_append_of_le front rest 0 32 (by omega)
    have hcount := @slice_append_of_le front rest 32 36 (by omega)
    rw [AddBondData.fromBytes, if_neg (by rw [List.length_append]; omega), hkey, hcount, hread]

theorem withdrawalRequestData_append {front : Bytes} {data : WithdrawalRequestData}
    (hread : WithdrawalRequestData.fromBytes front = some data) (rest : Bytes) :
    WithdrawalRequestData.fromBytes (front ++ rest) = some data := by
  unfold WithdrawalRequestData.fromBytes at hread
  split at hread
  case isTrue => simp at hread
  case isFalse hlong =>
    have hkey := @slice_append_of_le front rest 0 32 (by omega)
    have hcount := @slice_append_of_le front rest 32 36 (by omega)
    have hdestination := @slice_append_of_le front rest 36 68 (by omega)
    rw [WithdrawalRequestData.fromBytes, if_neg (by rw [List.length_append]; omega), hkey,
      hcount, hdestination, hread]

theorem namedProducer_of_canonical {crypto : Crypto} {tx : Transaction} {payload rest : Bytes}
    {producer : PublicKey} (hkind : isProducerPayload tx.txType = true)
    (hextra : tx.extraData = payload ++ rest)
    (hcanonical : canonicalProducer crypto tx.txType payload = some producer) :
    namedProducer crypto.primitives tx = some producer := by
  unfold canonicalProducer at hcanonical
  split at hcanonical
  case h_1 htype =>
    rw [Option.bind_eq_some_iff] at hcanonical
    obtain ⟨data, hread, hdata⟩ := hcanonical
    rw [Option.ite_none_right_eq_some] at hdata
    simp only [namedProducer, htype, Transaction.addBondData, if_true, hextra,
      addBondData_append hread rest, Option.map_some, hdata.2]
  case h_2 htype =>
    rw [Option.bind_eq_some_iff] at hcanonical
    obtain ⟨data, hread, hdata⟩ := hcanonical
    rw [Option.ite_none_right_eq_some] at hdata
    simp only [namedProducer, htype, Transaction.withdrawalRequestData, if_true, hextra,
      withdrawalRequestData_append hread rest, Option.map_some, hdata.2]
  case h_3 haddBond hwithdrawal =>
    have htype : tx.txType = .registration := by
      cases htype : tx.txType <;> simp_all [isProducerPayload]
    rw [Option.bind_eq_some_iff] at hcanonical
    obtain ⟨data, hread, hdata⟩ := hcanonical
    rw [Option.ite_none_right_eq_some] at hdata
    have hlegal := Crypto.legal_of_decodeRegistration hread
    have hagain := Crypto.decodeRegistration_append hlegal rest
    rw [hdata.1, ← hextra] at hagain
    simp only [namedProducer, htype, Transaction.registrationData, if_true, Crypto.primitives,
      hagain, Option.map_some, hdata.2]

theorem of_checkProducerAuth {ctx : ValidationContext} {tx : Transaction}
    (hkind : isProducerPayload tx.txType = true)
    (hactive : ctx.incI182ProducerAuthActivationHeight ≤ ctx.ruleHeight)
    (hok : checkProducerAuth ctx tx = .ok ()) :
    ∃ producer, namedProducer ctx.crypto.primitives tx = some producer ∧
      canonicalProducer ctx.crypto tx.txType (authPayload tx) = some producer ∧
        ctx.crypto.verifyHash
          (producerAuthDigest ctx.crypto.blake3 ctx.params.genesisHash tx (authPayload tx))
          (.fromBytes (authSignature tx)) producer = true := by
  have hgate : ¬(isProducerPayload tx.txType = false ∨
      ctx.ruleHeight < ctx.incI182ProducerAuthActivationHeight) := by
    simp [hkind, hactive]
  rw [checkProducerAuth, if_neg hgate, seq_eq_ok, bind_eq_ok] at hok
  obtain ⟨-, producer, hcanonical, hverify⟩ := hok
  rw [orRefuse_eq_ok] at hcanonical
  rw [refuseIf_eq_ok, Bool.not_eq_false] at hverify
  have hextra : tx.extraData = authPayload tx ++ authSignature tx :=
    (List.take_append_drop _ _).symm
  exact ⟨producer, namedProducer_of_canonical hkind hextra hcanonical, hcanonical, hverify⟩

end Doli.Validation
