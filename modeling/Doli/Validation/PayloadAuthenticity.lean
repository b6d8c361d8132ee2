import Doli.Validation.TransactionRules

/-!
# Payload authenticity

The input signatures leave `extra_data` out.  From both gates on, the producer's own
signature covers the payload with the inputs and the outputs, and the outputs pin the
producer: a payload the producer has not signed for them is refused.
-/

namespace Doli.Validation

open Doli.Core Doli.Lib

/-! ## What a producer signs -/

def authMessage (ctx : ValidationContext) (tx : Transaction) : Bytes :=
  producerAuthPreimage ctx.params.genesisHash (ctx.crypto.blake3 tx.signingPreimage)
    (authPayload tx)

theorem producerAuthPreimage_inj {genesis genesis' signing signing' : Hash}
    {payload payload' : Bytes}
    (hbytes : producerAuthPreimage genesis signing payload =
      producerAuthPreimage genesis' signing' payload') :
    genesis = genesis' ∧ signing = signing' ∧ payload = payload' := by
  unfold producerAuthPreimage at hbytes
  have hbytes := List.append_cancel_left hbytes
  obtain ⟨hgenesis, hbytes⟩ := List.append_inj hbytes (by simp)
  obtain ⟨hsigning, hpayload⟩ := List.append_inj hbytes (by simp)
  exact ⟨Hash.asBytes_inj hgenesis, Hash.asBytes_inj hsigning, hpayload⟩

/-- A signature that verifies was made by its key, on a message with that hash. -/
def Unforgeable (crypto : Crypto) (signed : PublicKey → Set Bytes) : Prop :=
  ∀ digest signature key, crypto.verifyHash digest signature key = true →
    ∃ message ∈ signed key, crypto.blake3 message = digest

def ownerPreimage (key : PublicKey) : Bytes :=
  leBytes 4 addressDomain.length ++ addressDomain ++ key.asBytes

theorem ownerPreimage_inj {first second : PublicKey}
    (hbytes : ownerPreimage first = ownerPreimage second) : first = second :=
  PublicKey.asBytes_inj (List.append_cancel_left hbytes)

/-- The bytes hashed about the transaction by those who sign, check and own it. -/
def hashedAbout (ctx : ValidationContext) (signed : PublicKey → Set Bytes)
    (tx : Transaction) : Set Bytes :=
  {message | message = authMessage ctx tx ∨
    ∃ key, namedProducer ctx.crypto.primitives tx = some key ∧
      (message ∈ signed key ∨ message = ownerPreimage key)}

/-! ## One transaction -/

section

variable {rules : OpenRules} {ctx : ValidationContext} {tx : Transaction}
  {signed : PublicKey → Set Bytes} {producer : PublicKey}

theorem signed_of_checkProducerAuth {domain : Set Bytes}
    (hunforgeable : Unforgeable ctx.crypto signed)
    (hinjective : Set.InjOn ctx.crypto.blake3 domain)
    (hdomain : hashedAbout ctx signed tx ⊆ domain)
    (hkind : isProducerPayload tx.txType = true)
    (hactive : ctx.incI182ProducerAuthActivationHeight ≤ ctx.ruleHeight)
    (hok : checkProducerAuth ctx tx = .ok ()) :
    ∃ producer, namedProducer ctx.crypto.primitives tx = some producer ∧
      authMessage ctx tx ∈ signed producer := by
  obtain ⟨producer, hnamed, -, hverify⟩ := of_checkProducerAuth hkind hactive hok
  obtain ⟨message, hmessage, hdigest⟩ := hunforgeable _ _ _ hverify
  have hsame : message = authMessage ctx tx :=
    hinjective (hdomain (.inr ⟨producer, hnamed, .inl hmessage⟩)) (hdomain (.inl rfl)) hdigest
  exact ⟨producer, hnamed, hsame ▸ hmessage⟩

/-- The type of the outputs that pay the named producer. -/
def pinnedType (kind : TxType) : OutputType :=
  if kind = .requestWithdrawal then .unbonding else .bond

/-- An output of the pinned type is there, and each one belongs to the producer. -/
def PinnedBy (ctx : ValidationContext) (tx : Transaction) (producer : PublicKey) : Prop :=
  (∃ output ∈ tx.outputs, output.outputType = pinnedType tx.txType) ∧
    ∀ output ∈ tx.outputs, output.outputType = pinnedType tx.txType →
      output.pubkeyHash = ctx.crypto.primitives.addressOf producer

theorem bondProducer_of_named (hkind : tx.txType = .registration ∨ tx.txType = .addBond)
    (hnamed : namedProducer ctx.crypto.primitives tx = some producer) :
    ctx.utxo.bondProducer tx = .ok producer := by
  rcases hkind with htype | htype
  · simp only [namedProducer, htype, Option.map_eq_some_iff] at hnamed
    obtain ⟨data, hdata, rfl⟩ := hnamed
    simp only [UtxoContext.bondProducer, htype, ValidationContext.utxo, hdata]
  · simp only [namedProducer, htype, Option.map_eq_some_iff] at hnamed
    obtain ⟨data, hdata, rfl⟩ := hnamed
    simp only [UtxoContext.bondProducer, htype, hdata]

theorem pinned_of_checkBondOutputs (hkind : tx.txType = .registration ∨ tx.txType = .addBond)
    (hactive : ctx.incI257UnbondingActivationHeight ≤ ctx.ruleHeight)
    (hbond : ∃ output ∈ tx.outputs, output.outputType = .bond)
    (hnamed : namedProducer ctx.crypto.primitives tx = some producer)
    (hok : ctx.utxo.checkBondOutputs ctx.ruleHeight tx = .ok ()) :
    PinnedBy ctx tx producer := by
  have hpinned : pinnedType tx.txType = .bond := by
    rcases hkind with htype | htype <;> simp [pinnedType, htype]
  rw [PinnedBy, hpinned]
  exact ⟨hbond, bond_owner_of_checkBondOutputs hactive (bondProducer_of_named hkind hnamed) hok⟩

theorem pinned_of_checkUnbondingOutputs (htype : tx.txType = .requestWithdrawal)
    (hactive : ctx.incI257UnbondingActivationHeight ≤ ctx.ruleHeight)
    (hnamed : namedProducer ctx.crypto.primitives tx = some producer)
    (hok : ctx.utxo.checkUnbondingOutputs ctx.ruleHeight tx = .ok ()) :
    PinnedBy ctx tx producer := by
  have hgate : ¬ctx.ruleHeight < ctx.utxo.params.incI257UnbondingActivationHeight :=
    Nat.not_lt.mpr hactive
  rw [UtxoContext.checkUnbondingOutputs, if_neg hgate, if_neg (not_not.mpr htype)] at hok
  obtain ⟨output, data, houtputs, hread, hunbonding, howner⟩ :=
    payout_owner_of_checkWithdrawalPayout hok
  have hproducer : data.producerPubkey = producer := by
    simpa [namedProducer, htype, Transaction.withdrawalRequestData, hread] using hnamed
  rw [PinnedBy, pinnedType, if_pos htype, houtputs]
  simp only [List.mem_singleton, exists_eq_left, forall_eq]
  exact ⟨hunbonding, fun _ => hproducer ▸ howner⟩

theorem pinned_of_validateTransaction (hkind : isProducerPayload tx.txType = true)
    (hgenesis : ctx.network.params.isInGenesis ctx.currentHeight = false)
    (hactive : ctx.incI257UnbondingActivationHeight ≤ ctx.ruleHeight)
    (hnamed : namedProducer ctx.crypto.primitives tx = some producer)
    (hok : validateTransaction rules ctx tx = .ok ()) : PinnedBy ctx tx producer := by
  obtain ⟨-, -, -, -, -, -, hplacement, -, -, -, hpayload⟩ := validateTransaction_eq_ok.mp hok
  obtain ⟨hunbonding, hbonds, -⟩ := checkOutputPlacement_eq_ok.mp hplacement
  cases htype : tx.txType with
  | registration =>
      rw [validatePayload] at hpayload
      simp only [htype] at hpayload
      obtain ⟨data, -, hholds, -⟩ := validateRegistrationDataInner_eq_ok.mp hpayload
      obtain ⟨hregistration, -⟩ := hholds.2 hgenesis
      simp only [checkRegistrationBonds, bind_eq_ok, exists_unit, refuseIf_eq_ok]
        at hregistration
      obtain ⟨-, hbond, -⟩ := hregistration
      obtain ⟨output, houtput⟩ := List.exists_mem_of_ne_nil _ hbond
      rw [List.mem_filter, decide_eq_true_iff] at houtput
      exact pinned_of_checkBondOutputs (.inl htype) hactive ⟨output, houtput⟩ hnamed hbonds
  | addBond =>
      simp only [validatePayload, htype, validateAddBondData, bind_eq_ok, exists_unit,
        refuseIf_eq_ok] at hpayload
      obtain ⟨-, hbond, -⟩ := hpayload
      refine pinned_of_checkBondOutputs (.inr htype) hactive ?_ hnamed hbonds
      simpa using hbond
  | requestWithdrawal => exact pinned_of_checkUnbondingOutputs htype hactive hnamed hunbonding
  | _ => simp [isProducerPayload, htype] at hkind

end

/-! ## Two transactions -/

section

variable {rules : OpenRules} {ctx : ValidationContext} {first second : Transaction}
  {signed : PublicKey → Set Bytes}

theorem pinned_unique {left right : PublicKey}
    (hinjective : Set.InjOn ctx.crypto.blake3
      (hashedAbout ctx signed first ∪ hashedAbout ctx signed second))
    (htype : second.txType = first.txType) (houtputs : second.outputs = first.outputs)
    (hleft : namedProducer ctx.crypto.primitives first = some left)
    (hright : namedProducer ctx.crypto.primitives second = some right)
    (hfirst : PinnedBy ctx first left) (hsecond : PinnedBy ctx second right) :
    right = left := by
  obtain ⟨⟨output, houtput, hpinned⟩, howner⟩ := hfirst
  have howned := hsecond.2 output (houtputs ▸ houtput) (htype ▸ hpinned)
  rw [howner output houtput hpinned] at howned
  exact ownerPreimage_inj (hinjective (.inr (.inr ⟨right, hright, .inr rfl⟩))
    (.inl (.inr ⟨left, hleft, .inr rfl⟩)) howned.symm)

/-- Two accepted payloads over the same outputs name one producer, who signed each of
them whole with the inputs, the outputs and the chain; so a rewrite the producer has not
signed for them is refused. -/
theorem payload_authentic (hunforgeable : Unforgeable ctx.crypto signed)
    (hinjective : Set.InjOn ctx.crypto.blake3
      (hashedAbout ctx signed first ∪ hashedAbout ctx signed second))
    (hauth : ctx.incI182ProducerAuthActivationHeight ≤ ctx.ruleHeight)
    (hunbonding : ctx.incI257UnbondingActivationHeight ≤ ctx.ruleHeight)
    (hgenesis : ctx.network.params.isInGenesis ctx.currentHeight = false)
    (hkind : isProducerPayload first.txType = true)
    (htype : second.txType = first.txType) (houtputs : second.outputs = first.outputs)
    (hfirst : validateTransaction rules ctx first = .ok ()) :
    ∃ producer, namedProducer ctx.crypto.primitives first = some producer ∧
      authMessage ctx first ∈ signed producer ∧
      (validateTransaction rules ctx second = .ok () →
        namedProducer ctx.crypto.primitives second = some producer ∧
          authMessage ctx second ∈ signed producer) ∧
      (authMessage ctx second ∉ signed producer →
        validateTransaction rules ctx second ≠ .ok ()) := by
  obtain ⟨-, -, -, -, -, -, -, hcheck, -⟩ := validateTransaction_eq_ok.mp hfirst
  obtain ⟨producer, hnamed, hsigned⟩ := signed_of_checkProducerAuth hunforgeable hinjective
    Set.subset_union_left hkind hauth hcheck
  have hpinned := pinned_of_validateTransaction hkind hgenesis hunbonding hnamed hfirst
  have haccepted : validateTransaction rules ctx second = .ok () →
      namedProducer ctx.crypto.primitives second = some producer ∧
        authMessage ctx second ∈ signed producer := by
    intro hsecond
    have hkind' : isProducerPayload second.txType = true := htype ▸ hkind
    obtain ⟨-, -, -, -, -, -, -, hcheck', -⟩ := validateTransaction_eq_ok.mp hsecond
    obtain ⟨other, hother, hsigned'⟩ := signed_of_checkProducerAuth hunforgeable hinjective
      Set.subset_union_right hkind' hauth hcheck'
    have hpinned' := pinned_of_validateTransaction hkind' hgenesis hunbonding hother hsecond
    obtain rfl := pinned_unique hinjective htype houtputs hnamed hother hpinned hpinned'
    exact ⟨hother, hsigned'⟩
  exact ⟨producer, hnamed, hsigned, haccepted,
    fun hunsigned hsecond => hunsigned (haccepted hsecond).2⟩

end

/-! ## On given inputs -/

def withdrawalPayload (bondCount : Nat) : Bytes :=
  WithdrawalRequestData.toBytes
    { producerPubkey := ⟨5⟩, bondCount, destination := sampleCrypto.primitives.addressOf ⟨5⟩ }

/-- A withdrawal of the producer `⟨5⟩` with a payload and the bytes of a signature. -/
def sampleWithdrawal (bondCount : Nat) : Transaction where
  version := 1
  txType := .requestWithdrawal
  inputs := [⟨⟨3⟩, 0, ⟨1⟩, .all, 0, some ⟨5⟩⟩]
  outputs := [⟨.unbonding, 1000, sampleCrypto.primitives.addressOf ⟨5⟩, 61480, []⟩]
  extraData := withdrawalPayload bondCount ++ Signature.asBytes ⟨1⟩

def sampleMessage (bondCount : Nat) : Bytes :=
  authMessage (sampleContext 1000) (sampleWithdrawal bondCount)

/-- The producer signed the withdrawals of one and of two bonds. -/
def sampleMessages : List Bytes := [sampleMessage 1, sampleMessage 2]

def sampleSigned (key : PublicKey) : Set Bytes :=
  {message | key = ⟨5⟩ ∧ message ∈ sampleMessages}

def signingContext : ValidationContext :=
  { sampleContext 1000 with
    crypto := { sampleCrypto with
      verifyHash := fun digest _ key => key = ⟨5⟩ ∧ digest ∈ sampleMessages.map sampleBlake3 } }

theorem signingContext_injective :
    Set.InjOn sampleBlake3 {message | message ∈ ownerPreimage ⟨5⟩ :: sampleMessages} := by
  have hnodup : ((ownerPreimage ⟨5⟩ :: sampleMessages).map sampleBlake3).Nodup := by
    decide +kernel
  exact fun _ hleft _ hright => List.inj_on_of_nodup_map hnodup hleft hright

theorem hashedAbout_sampleWithdrawal {bondCount : Nat}
    (hmessage : sampleMessage bondCount ∈ sampleMessages)
    (hnamed : namedProducer signingContext.crypto.primitives (sampleWithdrawal bondCount) =
      some ⟨5⟩) :
    hashedAbout signingContext sampleSigned (sampleWithdrawal bondCount) ⊆
      {message | message ∈ ownerPreimage ⟨5⟩ :: sampleMessages} := by
  rintro message (rfl | ⟨key, hkey, hsigned | rfl⟩)
  · exact List.mem_cons_of_mem _ hmessage
  · exact List.mem_cons_of_mem _ hsigned.2
  · rw [hnamed] at hkey
    rw [← Option.some.inj hkey]
    exact List.mem_cons_self

theorem payload_authentic_withdrawals :
    ∃ producer,
      namedProducer signingContext.crypto.primitives (sampleWithdrawal 1) = some producer ∧
      authMessage signingContext (sampleWithdrawal 1) ∈ sampleSigned producer ∧
      (validateTransaction sampleOpenRules signingContext (sampleWithdrawal 2) = .ok () →
        namedProducer signingContext.crypto.primitives (sampleWithdrawal 2) = some producer ∧
          authMessage signingContext (sampleWithdrawal 2) ∈ sampleSigned producer) ∧
      (authMessage signingContext (sampleWithdrawal 2) ∉ sampleSigned producer →
        validateTransaction sampleOpenRules signingContext (sampleWithdrawal 2) ≠ .ok ()) := by
  refine payload_authentic ?_ ?_ (by decide) (by decide) (by decide) rfl rfl rfl
    (by decide +kernel)
  · intro digest signature key hverify
    obtain ⟨hkey, hdigest⟩ := of_decide_eq_true hverify
    obtain ⟨message, hmessage, hhash⟩ := List.mem_map.mp hdigest
    exact ⟨message, ⟨hkey, hmessage⟩, hhash⟩
  · refine signingContext_injective.mono (Set.union_subset ?_ ?_)
    · exact hashedAbout_sampleWithdrawal List.mem_cons_self (by decide +kernel)
    · exact hashedAbout_sampleWithdrawal (List.mem_cons_of_mem _ List.mem_cons_self)
        (by decide +kernel)

end Doli.Validation
