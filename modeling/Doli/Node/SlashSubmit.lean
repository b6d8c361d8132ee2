import Doli.Network.EquivocationRun

/-!
# From a detected double production to its slash

What a node offers for a proof of its detector.  The detector admits headers at
one height and the slash is judged at another one, but both read the same chain
and network, so the slash is accepted.
-/

namespace Doli.Node

open Doli.Core Doli.Lib Doli.Producer Doli.Network
open Doli.Validation (BlockHeader Crypto ValidationContext Evidence newSlashProducer
  evidenceHeaderAdmissible evidenceHeaderAdmissible_congr validateSlash
  validateSlash_doubleProduction sampleCrypto)

/-- What the node reads before it offers a slash: the ledger of its own offers
and the accused of the slashes in the mempool. -/
structure SlashDesk where
  bestHeight : Nat
  slashingGate : Nat
  reported : List PublicKey
  resident : List PublicKey

/-- `submit_equivocation_slash` up to the admission of the slash. -/
def submitEquivocationSlash (crypto : Crypto) (desk : SlashDesk)
    (proof : EquivocationProof) : Option Transaction :=
  if min (desk.bestHeight + 1) (2 ^ 64 - 1) < desk.slashingGate then none
  else if proof.producer ∈ desk.reported then none
  else if proof.producer ∈ desk.resident then none
  else some (newSlashProducer crypto
    (Validation.SlashData.doubleProduction crypto.blake3 proof.producer proof.blockHeader1
      proof.blockHeader2))

theorem submitEquivocationSlash_some {crypto : Crypto} {desk : SlashDesk}
    {proof : EquivocationProof} {tx : Transaction}
    (hsubmit : submitEquivocationSlash crypto desk proof = some tx) :
    tx = newSlashProducer crypto
      (Validation.SlashData.doubleProduction crypto.blake3 proof.producer proof.blockHeader1
        proof.blockHeader2) := by
  unfold submitEquivocationSlash at hsubmit
  split at hsubmit
  · cases hsubmit
  split at hsubmit
  · cases hsubmit
  split at hsubmit
  · cases hsubmit
  exact (Option.some.inj hsubmit).symm

/-- The proof had the headers arrived the other way round. -/
def swapArrival (proof : EquivocationProof) : EquivocationProof :=
  { proof with
    blockHeader1 := proof.blockHeader2
    blockHeader2 := proof.blockHeader1 }

/-- Two contexts of one node: the chain, the network and the crypto crate. -/
structure OneChain (first second : ValidationContext) : Prop where
  crypto : first.crypto = second.crypto
  genesisHash : first.params.genesisHash = second.params.genesisHash
  network : first.network = second.network

section

variable {admitting judging : ValidationContext} {proof : EquivocationProof}

theorem evidence_of_proves (hchain : OneChain admitting judging)
    {from_ : BlockHeader → Prop}
    (hfrom : ∀ header, from_ header →
      evidenceHeaderAdmissible admitting header = .ok () ∧
        (Wire.blockHeader judging.crypto.validKey).Legal header)
    (hproves : EquivocationDetector.Proves judging.crypto from_ proof) :
    Evidence judging proof.producer proof.blockHeader1 proof.blockHeader2 := by
  obtain ⟨hfirst, hlegalFirst⟩ := hfrom _ hproves.first
  obtain ⟨hsecond, hlegalSecond⟩ := hfrom _ hproves.second
  obtain ⟨hproducerFirst, hslotFirst⟩ := Prod.mk.inj hproves.key_first
  obtain ⟨hproducerSecond, hslotSecond⟩ := Prod.mk.inj hproves.key_second
  have hjudged : ∀ header, evidenceHeaderAdmissible admitting header = .ok () →
      evidenceHeaderAdmissible judging header = .ok () :=
    fun header => (evidenceHeaderAdmissible_congr hchain.crypto hchain.genesisHash
      hchain.network).mp
  exact
    { legal := ⟨hlegalFirst, hlegalSecond⟩
      admissible := ⟨hjudged _ hfirst, hjudged _ hsecond⟩
      accused := ⟨hproducerFirst, hproducerSecond⟩
      slot := UInt32.toNat_inj.mp (hslotFirst.trans hslotSecond.symm)
      hash_ne := hproves.hash_ne
      fits := hproves.fits }

end

/-- The slash of a detected double production is accepted, whichever of the two
headers came first. -/
theorem detected_is_punishable {admitting judging : ValidationContext}
    (hchain : OneChain admitting judging) (crossed : Bool) (events : List DetectorEvent)
    (hwire : ∀ header wallSlot, .checkBlock header wallSlot ∈ events →
      (Wire.blockHeader judging.crypto.validKey).Legal header) :
    ∀ proof ∈ (EquivocationDetector.stream judging.crypto
        (EquivocationDetector.admits admitting) (EquivocationDetector.started crossed)
          events).1,
      ∀ desk tx, submitEquivocationSlash judging.crypto desk proof = some tx ∨
          submitEquivocationSlash judging.crypto desk (swapArrival proof) = some tx →
        ∃ data, validateSlash judging tx true = .ok data ∧
          data.producerPubkey = proof.producer := by
  intro proof hproof desk tx hsubmit
  have hproves := (EquivocationDetector.sound_stream crossed events).2 proof hproof
  have hevidence := evidence_of_proves hchain (fun header hheader => ?_) hproves
  case refine_1 =>
    obtain ⟨hpasses, wallSlot, hmem⟩ := EquivocationDetector.mem_admittedHeaders.mp hheader
    exact ⟨EquivocationDetector.admits_iff.mp hpasses, hwire header wallSlot hmem⟩
  have hproducer : ∀ first second,
      (Validation.SlashData.doubleProduction judging.crypto.blake3 proof.producer first
        second).producerPubkey = proof.producer := by
    intro first second
    unfold Validation.SlashData.doubleProduction
    split <;> rfl
  rcases hsubmit with hsubmit | hsubmit
  · rw [submitEquivocationSlash_some hsubmit]
    exact ⟨_, validateSlash_doubleProduction hevidence true, hproducer _ _⟩
  · rw [submitEquivocationSlash_some hsubmit]
    exact ⟨_, validateSlash_doubleProduction hevidence.symm true, hproducer _ _⟩

/-- The sample pair, admitted at height 5 and judged at height 9. -/
theorem detected_is_punishable_pair :
    ∃ data, validateSlash (Validation.sampleContext 9) (newSlashProducer sampleCrypto
        (Validation.SlashData.doubleProduction sampleBlake3 ⟨5⟩
          (EquivocationDetector.sampleProduced ⟨2⟩ ⟨1⟩)
          (EquivocationDetector.sampleProduced ⟨1⟩ ⟨1⟩))) true = .ok data ∧
      data.producerPubkey = ⟨5⟩ := by
  have hwire : ∀ header wallSlot, .checkBlock header wallSlot ∈
      EquivocationDetector.sampleStream (EquivocationDetector.sampleProduced ⟨1⟩ ⟨1⟩)
        (EquivocationDetector.sampleProduced ⟨2⟩ ⟨1⟩) →
      (Wire.blockHeader sampleCrypto.validKey).Legal header := by
    intro header wallSlot hheader
    simp only [EquivocationDetector.sampleStream, List.mem_cons,
      DetectorEvent.checkBlock.injEq, List.not_mem_nil, or_false] at hheader
    rcases hheader with ⟨rfl, -⟩ | ⟨rfl, -⟩
    · exact @Codec.legal_of_decode _ (Wire.blockHeader sampleCrypto.validKey)
        ((Wire.blockHeader sampleCrypto.validKey).encode
          (EquivocationDetector.sampleProduced ⟨1⟩ ⟨1⟩)) _ [] (by decide +kernel)
    · exact @Codec.legal_of_decode _ (Wire.blockHeader sampleCrypto.validKey)
        ((Wire.blockHeader sampleCrypto.validKey).encode
          (EquivocationDetector.sampleProduced ⟨2⟩ ⟨1⟩)) _ [] (by decide +kernel)
  have hproof : (⟨⟨5⟩, EquivocationDetector.sampleProduced ⟨1⟩ ⟨1⟩,
      EquivocationDetector.sampleProduced ⟨2⟩ ⟨1⟩, 5⟩ : EquivocationProof) ∈
        (EquivocationDetector.stream sampleCrypto
          (EquivocationDetector.admits (Validation.sampleContext 5))
          (EquivocationDetector.started true)
          (EquivocationDetector.sampleStream (EquivocationDetector.sampleProduced ⟨1⟩ ⟨1⟩)
            (EquivocationDetector.sampleProduced ⟨2⟩ ⟨1⟩))).1 := by
    decide +kernel
  exact @detected_is_punishable (Validation.sampleContext 5) (Validation.sampleContext 9)
    ⟨rfl, rfl, rfl⟩ true _ hwire _ hproof ⟨8, 0, [], []⟩ _ (.inr rfl)

end Doli.Node
