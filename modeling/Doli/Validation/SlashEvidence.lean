import Doli.Validation.BlockIdentity

/-!
# Evidence of double production

The canonical evidence of a pair of headers and the slash transaction that
carries it.  A pair of admissible headers under different hashes that fits the
limit makes an accepted slash, whichever header came first.
-/

namespace Doli.Validation

open Doli.Core Doli.Lib Doli.Producer

/-- `SlashData::double_production`: headers ascending by hash, no reporter. -/
def SlashData.doubleProduction (blake3 : Bytes → Hash) (producer : PublicKey)
    (first second : BlockHeader) : Validation.SlashData :=
  if (first.hash blake3).word.toNat ≤ (second.hash blake3).word.toNat then
    ⟨producer, .doubleProduction first second, ⟨0⟩⟩
  else ⟨producer, .doubleProduction second first, ⟨0⟩⟩

/-- `serialized_size` -/
def headerSize (crypto : Crypto) (header : BlockHeader) : Nat :=
  ((Wire.blockHeader crypto.validKey).encode header).length

def doubleProductionEvidenceFits (crypto : Crypto) (producer : PublicKey)
    (first second : BlockHeader) : Bool :=
  ((Wire.slashData crypto.validKey).encode
    (SlashData.doubleProduction crypto.blake3 producer first second)).length ≤
      maxSlashDataBytes

def evidenceHeaderAdmissible (ctx : ValidationContext) (header : BlockHeader) : Verdict := do
  checkHeaderOrigin ctx 1 header
  checkHeaderVdf ctx header vdfFirst

/-- `Transaction::new_slash_producer` -/
def newSlashProducer (crypto : Crypto) (data : Validation.SlashData) : Transaction where
  version := 1
  txType := .slashProducer
  inputs := []
  outputs := []
  extraData := (Wire.slashData crypto.validKey).encode data

/-! ## Sizes -/

section Sizes

variable {crypto : Crypto} {producer : PublicKey} {first second : BlockHeader}

theorem length_encode_slashData (first second : BlockHeader) :
    ((Wire.slashData crypto.validKey).encode
      ⟨producer, .doubleProduction first second, ⟨0⟩⟩).length =
        116 + headerSize crypto first + headerSize crypto second := by
  simp only [Wire.slashData, Wire.slashingEvidence, Wire.publicKey, Wire.signature,
    Codec.wrap, Codec.pair, Codec.variant, Codec.refine, Codec.bytes, Option.elim_some,
    List.length_append, leBytes_length, PublicKey.asBytes_length, Signature.asBytes_length,
    headerSize]
  omega

theorem doubleProductionEvidenceFits_iff :
    doubleProductionEvidenceFits crypto producer first second = true ↔
      116 + headerSize crypto first + headerSize crypto second ≤ maxSlashDataBytes := by
  unfold doubleProductionEvidenceFits SlashData.doubleProduction
  rw [decide_eq_true_eq]
  split
  case isTrue hle => rw [length_encode_slashData]
  case isFalse hle =>
    rw [length_encode_slashData]
    omega

theorem length_encode_publicKey (key : PublicKey) :
    ((Wire.publicKey crypto.validKey).encode key).length = 40 := by
  simp [Wire.publicKey, Codec.refine, Codec.bytes]

theorem headerSize_eq (header : BlockHeader) :
    headerSize crypto header =
      320 + header.vdfOutput.length + header.vdfProof.length +
        40 * header.missedProducers.length := by
  simp only [headerSize, Wire.blockHeader, Wire.uint32, Wire.uint64, Wire.hash,
    Codec.wrap, Codec.pair, Codec.list, Codec.refine, Codec.bytes, Codec.word,
    Option.elim_some, List.length_append, leBytes_length, Hash.asBytes_length,
    length_encode_publicKey, length_encodeMany_publicKey]
  omega

end Sizes

/-! ## Admissible headers -/

section Admissible

variable {ctx : ValidationContext} {header first second : BlockHeader}

theorem checkHeaderOrigin_eq_ok {number : Nat} :
    checkHeaderOrigin ctx number header = .ok () ↔
      header.genesisHash = ctx.params.genesisHash ∧
        verifyBlockSignature header ctx.crypto = .ok () := by
  simp only [checkHeaderOrigin, seq_eq_ok, refuseIf_eq_ok, mapError_eq_ok, not_not]

theorem evidenceHeaderAdmissible_eq_ok :
    evidenceHeaderAdmissible ctx header = .ok () ↔
      (header.genesisHash = ctx.params.genesisHash ∧
        verifyBlockSignature header ctx.crypto = .ok ()) ∧
        validateVdf ctx header = .ok () := by
  simp only [evidenceHeaderAdmissible, checkHeaderVdf, seq_eq_ok, mapError_eq_ok,
    checkHeaderOrigin_eq_ok]

theorem vdfProof_length_of_admissible
    (hadmissible : evidenceHeaderAdmissible ctx header = .ok ()) :
    header.vdfProof.length = 64 := by
  have hsigned := (evidenceHeaderAdmissible_eq_ok.mp hadmissible).1.2
  simp only [verifyBlockSignature, seq_eq_ok, refuseIf_eq_ok, not_not] at hsigned
  exact hsigned.1

theorem vdfOutput_length_of_admissible
    (hadmissible : evidenceHeaderAdmissible ctx header = .ok ()) :
    header.vdfOutput.length = 32 := by
  have hvdf := (evidenceHeaderAdmissible_eq_ok.mp hadmissible).2
  have henabled : ctx.network.vdfEnabled ≠ false := by
    unfold Network.vdfEnabled
    cases ctx.network.kind <;> decide
  rw [validateVdf, if_neg henabled] at hvdf
  simp only [seq_eq_ok, refuseIf_eq_ok, not_not] at hvdf
  exact hvdf.1

theorem evidenceHeaderAdmissible_congr {other : ValidationContext}
    (hcrypto : other.crypto = ctx.crypto)
    (hgenesis : other.params.genesisHash = ctx.params.genesisHash)
    (hnetwork : other.network = ctx.network) :
    evidenceHeaderAdmissible other header = .ok () ↔
      evidenceHeaderAdmissible ctx header = .ok () := by
  rw [evidenceHeaderAdmissible_eq_ok, evidenceHeaderAdmissible_eq_ok, hcrypto, hgenesis]
  unfold validateVdf
  rw [hcrypto, hnetwork]

theorem forkBytes_length (header : BlockHeader) :
    header.forkBytes.length = if header.forkId = ⟨0⟩ then 0 else 32 := by
  unfold BlockHeader.forkBytes
  split
  · rfl
  · exact Hash.asBytes_length _

theorem missed_length_eq_of_hashPreimage
    (houtput : first.vdfOutput.length = second.vdfOutput.length)
    (hbytes : first.hashPreimage = second.hashPreimage) :
    first.missedProducers.length = second.missedProducers.length := by
  have hlength := congrArg List.length hbytes
  unfold BlockHeader.hashPreimage at hbytes
  obtain ⟨-, hbytes⟩ := List.append_inj hbytes (by simp)
  obtain ⟨-, hbytes⟩ := List.append_inj hbytes (by simp)
  obtain ⟨-, hbytes⟩ := List.append_inj hbytes (by simp)
  obtain ⟨-, hbytes⟩ := List.append_inj hbytes (by simp)
  obtain ⟨-, hbytes⟩ := List.append_inj hbytes (by simp)
  obtain ⟨hcount, -⟩ := List.append_inj hbytes (by simp)
  have hmod := congrArg leNat hcount
  rw [leNat_leBytes, leNat_leBytes] at hmod
  have hfirst := forkBytes_length first
  have hsecond := forkBytes_length second
  simp only [BlockHeader.hashPreimage, List.length_append, leBytes_length,
    Hash.asBytes_length, PublicKey.asBytes_length, BlockHeader.missedBytes_length,
    hfirst, hsecond] at hlength
  -- the fork id shifts the length by one producer, the count by none
  split at hlength <;> split at hlength <;> omega

theorem headerSize_eq_of_hash
    (hfirst : evidenceHeaderAdmissible ctx first = .ok ())
    (hsecond : evidenceHeaderAdmissible ctx second = .ok ())
    (hbytes : first.hashPreimage = second.hashPreimage) :
    headerSize ctx.crypto first = headerSize ctx.crypto second := by
  have houtput : first.vdfOutput.length = second.vdfOutput.length := by
    rw [vdfOutput_length_of_admissible hfirst, vdfOutput_length_of_admissible hsecond]
  rw [headerSize_eq, headerSize_eq, missed_length_eq_of_hashPreimage houtput hbytes, houtput,
    vdfProof_length_of_admissible hfirst, vdfProof_length_of_admissible hsecond]

end Admissible

/-! ## Acceptance -/

section Acceptance

variable {ctx : ValidationContext} {producer : PublicKey} {first second : BlockHeader}

/-- A pair of headers that proves a double production. -/
structure Evidence (ctx : ValidationContext) (producer : PublicKey)
    (first second : BlockHeader) : Prop where
  legal : (Wire.blockHeader ctx.crypto.validKey).Legal first ∧
    (Wire.blockHeader ctx.crypto.validKey).Legal second
  admissible : evidenceHeaderAdmissible ctx first = .ok () ∧
    evidenceHeaderAdmissible ctx second = .ok ()
  accused : first.producer = producer ∧ second.producer = producer
  slot : first.slot = second.slot
  hash_ne : first.hash ctx.crypto.blake3 ≠ second.hash ctx.crypto.blake3
  fits : doubleProductionEvidenceFits ctx.crypto producer first second = true

theorem Evidence.symm (hevidence : Evidence ctx producer first second) :
    Evidence ctx producer second first where
  legal := hevidence.legal.symm
  admissible := hevidence.admissible.symm
  accused := hevidence.accused.symm
  slot := hevidence.slot.symm
  hash_ne := hevidence.hash_ne.symm
  fits := by
    have hfits := hevidence.fits
    rw [doubleProductionEvidenceFits_iff] at hfits ⊢
    omega

theorem doubleProduction_comm {blake3 : Bytes → Hash}
    (hne : first.hash blake3 ≠ second.hash blake3) :
    SlashData.doubleProduction blake3 producer first second =
      SlashData.doubleProduction blake3 producer second first := by
  have hword : (first.hash blake3).word.toNat ≠ (second.hash blake3).word.toNat := by
    intro hsame
    apply hne
    have hword := BitVec.eq_of_toNat_eq hsame
    cases hfirst : first.hash blake3
    cases hsecond : second.hash blake3
    rw [hfirst, hsecond] at hword
    exact congrArg Hash.mk hword
  unfold SlashData.doubleProduction
  rcases Nat.lt_or_gt_of_ne hword with hlt | hgt
  · rw [if_pos hlt.le, if_neg (Nat.not_le_of_lt hlt)]
  · rw [if_neg (Nat.not_le_of_lt hgt), if_pos hgt.le]

theorem checkDoubleProduction_eq_ok (hevidence : Evidence ctx producer first second)
    (horder : (first.hash ctx.crypto.blake3).word.toNat ≤
      (second.hash ctx.crypto.blake3).word.toNat) :
    checkDoubleProduction ctx producer first second = .ok () := by
  obtain ⟨hfirst, hsecond⟩ := hevidence.admissible
  obtain ⟨haccused, haccusedToo⟩ := hevidence.accused
  simp only [checkDoubleProduction, seq_eq_ok, refuseIf_eq_ok, checkWhen_eq_ok, not_not,
    not_and, not_lt]
  refine ⟨haccused.trans haccusedToo.symm, hevidence.slot, hevidence.hash_ne, haccused,
    fun _ => horder, fun _ => ⟨?_, ?_⟩⟩
  · exact checkHeaderOrigin_eq_ok.mpr (evidenceHeaderAdmissible_eq_ok.mp hfirst).1
  · exact checkHeaderOrigin_eq_ok.mpr (evidenceHeaderAdmissible_eq_ok.mp hsecond).1

theorem checkEvidenceVdf_eq_ok (hevidence : Evidence ctx producer first second) :
    checkEvidenceVdf ctx first second = .ok () := by
  obtain ⟨hfirst, hsecond⟩ := hevidence.admissible
  simp only [checkEvidenceVdf, checkHeaderVdf, seq_eq_ok, mapError_eq_ok]
  exact ⟨(evidenceHeaderAdmissible_eq_ok.mp hfirst).2,
    (evidenceHeaderAdmissible_eq_ok.mp hsecond).2⟩

theorem legal_slashData (hevidence : Evidence ctx producer first second)
    (hkey : ctx.crypto.validKey producer = true) :
    (Wire.slashData ctx.crypto.validKey).Legal
      ⟨producer, .doubleProduction first second, ⟨0⟩⟩ := by
  refine ⟨(producer, .doubleProduction first second, ⟨0⟩), ⟨hkey, ?_, trivial⟩, rfl⟩
  refine ⟨by simp, ?_⟩
  exact ⟨(first, second), hevidence.legal, rfl⟩

theorem validKey_of_legal {header : BlockHeader} {validKey : PublicKey → Bool}
    (hlegal : (Wire.blockHeader validKey).Legal header) :
    validKey header.producer = true := by
  obtain ⟨parts, hparts, rfl⟩ := hlegal
  exact hparts.2.2.2.2.2.2.2.1

theorem decodeSlashData_encode {data : Validation.SlashData}
    (hlegal : (Wire.slashData ctx.crypto.validKey).Legal data)
    (hsize : ((Wire.slashData ctx.crypto.validKey).encode data).length ≤ maxSlashDataBytes) :
    decodeSlashData ctx ((Wire.slashData ctx.crypto.validKey).encode data) = .ok data := by
  have hread := (Wire.slashData ctx.crypto.validKey).roundtrip hlegal []
  rw [List.append_nil] at hread
  rw [decodeSlashData, seq_eq_ok, refuseIf_eq_ok, orRefuse_eq_ok, Crypto.decodeSlash, hread]
  exact ⟨fun hlong => absurd hsize (Nat.not_le_of_lt hlong.2), rfl⟩

theorem validateSlash_ordered (hevidence : Evidence ctx producer first second)
    (horder : (first.hash ctx.crypto.blake3).word.toNat ≤
      (second.hash ctx.crypto.blake3).word.toNat) (verifyVdf : Bool) :
    validateSlash ctx
      (newSlashProducer ctx.crypto ⟨producer, .doubleProduction first second, ⟨0⟩⟩) verifyVdf =
        .ok ⟨producer, .doubleProduction first second, ⟨0⟩⟩ := by
  have hkey : ctx.crypto.validKey producer = true :=
    hevidence.accused.1 ▸ validKey_of_legal hevidence.legal.1
  have hlegal := legal_slashData hevidence hkey
  have hfits := doubleProductionEvidenceFits_iff.mp hevidence.fits
  have hlength := @length_encode_slashData ctx.crypto producer first second
  rw [validateSlash_eq_ok]
  refine ⟨rfl, rfl, ?_, decodeSlashData_encode hlegal (hlength.trans_le hfits), ?_, ?_⟩
  · intro hempty
    have hzero := hlength.symm.trans (congrArg List.length hempty)
    rw [List.length_nil] at hzero
    omega
  · rw [checkWhen_eq_ok]
    intro _
    simp [checkCanonical, seq_eq_ok, SlashingEvidence.isDoubleProduction, newSlashProducer]
  · simp only [checkEvidence, validateDoubleProduction, seq_eq_ok, checkWhen_eq_ok]
    exact ⟨checkDoubleProduction_eq_ok hevidence horder,
      fun _ => checkEvidenceVdf_eq_ok hevidence⟩

theorem validateSlash_doubleProduction (hevidence : Evidence ctx producer first second)
    (verifyVdf : Bool) :
    validateSlash ctx (newSlashProducer ctx.crypto
        (SlashData.doubleProduction ctx.crypto.blake3 producer first second)) verifyVdf =
      .ok (SlashData.doubleProduction ctx.crypto.blake3 producer first second) := by
  unfold SlashData.doubleProduction
  split
  case isTrue hle => exact validateSlash_ordered hevidence hle verifyVdf
  case isFalse hgt => exact validateSlash_ordered hevidence.symm (by omega) verifyVdf

end Acceptance

end Doli.Validation
