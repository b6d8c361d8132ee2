import Doli.Core.ConditionCodec
import Doli.Core.ConditionEval
import Mathlib.Data.Finset.Card
import Mathlib.Data.Finset.Dedup
import Mathlib.Data.List.Nodup

/-!
# The keys behind a multisig

`evaluate` counts the entries of a multisig that have a signature in the witness.  Entries
of one address share their signature, so the count is one of keys only where no address is
listed twice.
-/

namespace Doli.Core

open Doli.Lib

namespace Condition

/-- Some bytes stand for the condition, in one direction of the codec or the other. -/
def Accepted (condition : Condition) : Prop :=
  (∃ encoded, condition.encode = .ok encoded) ∨ ∃ bytes, decode bytes = .ok condition

theorem validate_of_decode {bytes : Bytes} {condition : Condition}
    (hok : decode bytes = .ok condition) : condition.validate = .ok () := by
  cases bytes with
  | nil => contradiction
  | cons version body =>
      simp only [decode] at hok
      split at hok
      · contradiction
      · obtain ⟨⟨found, consumed⟩, -, hok⟩ := bind_eq_ok.mp hok
        split at hok
        · contradiction
        · obtain ⟨hvalid, hok⟩ := seq_eq_ok.mp hok
          cases hok
          exact hvalid

theorem validate_of_decodePrefix {bytes : Bytes} {condition : Condition} {consumed : Nat}
    (hok : decodePrefix bytes = .ok (condition, consumed)) : condition.validate = .ok () := by
  cases bytes with
  | nil => contradiction
  | cons version body =>
      simp only [decodePrefix] at hok
      split at hok
      · contradiction
      · obtain ⟨⟨found, taken⟩, -, hok⟩ := bind_eq_ok.mp hok
        obtain ⟨hvalid, hok⟩ := seq_eq_ok.mp hok
        cases hok
        exact hvalid

theorem Accepted.validate {condition : Condition} (haccepted : condition.Accepted) :
    condition.validate = .ok () := by
  rcases haccepted with ⟨encoded, hencoded⟩ | ⟨bytes, hdecoded⟩
  · exact (encode_ok hencoded).1
  · exact validate_of_decode hdecoded

end Condition

def Hash.address (hash : Hash) : Bytes := hash.asBytes.take EvalEnv.addressLength

namespace EvalEnv

def SignedBy (env : EvalEnv) (key : PublicKey) : Prop :=
  ∃ signed ∈ env.witness.signatures, signed.pubkey = key ∧
    env.verifyHash env.signingHash signed.signature key = true

/-- As many different keys as required, each of them behind a listed hash, have a good
signature in the witness. -/
def SignedByListed (env : EvalEnv) (required : Nat) (listed : List Hash) : Prop :=
  ∃ signers : Finset PublicKey, required ≤ signers.card ∧ ∀ signer ∈ signers,
    env.SignedBy signer ∧ ∃ hash ∈ listed, (env.prim.addressOf signer).address = hash.address

/-- Somebody can sign the message for the address. -/
def HasHolder (prim : Primitives) (verifyHash : Hash → Signature → PublicKey → Bool)
    (message hash : Hash) : Prop :=
  ∃ signed : WitnessSignature, (prim.addressOf signed.pubkey).address = hash.address ∧
    verifyHash message signed.signature signed.pubkey = true

section

variable {env : EvalEnv} {required : Nat} {listed : List Hash} {hash : Hash}

theorem signed_iff {signed : WitnessSignature} :
    env.signsFor hash signed = true ↔
      (env.prim.addressOf signed.pubkey).address = hash.address ∧
        env.verifyHash env.signingHash signed.signature signed.pubkey = true := by
  rw [signsFor, Bool.and_eq_true, decide_eq_true_eq]
  exact Iff.rfl

theorem exists_signer_of_signed (hsigned : env.Signed hash) :
    ∃ key, env.SignedBy key ∧ (env.prim.addressOf key).address = hash.address := by
  obtain ⟨signed, hmem, hgood⟩ := hsigned
  obtain ⟨haddress, hverified⟩ := signed_iff.mp hgood
  exact ⟨signed.pubkey, ⟨signed, hmem, rfl, hverified⟩, haddress⟩

theorem signedByListed_of_distinct {keys : List Hash} (hlisted : keys ⊆ listed)
    (hdistinct : (keys.map Hash.address).Nodup) (hsigned : ∀ hash ∈ keys, env.Signed hash) :
    env.SignedByListed keys.length listed := by
  have hsigner : ∀ hash ∈ keys, ∃ key, env.SignedBy key ∧
      (env.prim.addressOf key).address = hash.address :=
    fun hash hhash => exists_signer_of_signed (hsigned hash hhash)
  have : Inhabited PublicKey := ⟨⟨0⟩⟩
  choose! signer hsignedBy haddress using hsigner
  have haddresses : (keys.map signer).map (fun key => (env.prim.addressOf key).address) =
      keys.map Hash.address := by
    rw [List.map_map]
    exact List.map_congr_left haddress
  have hnodup : (keys.map signer).Nodup := List.Nodup.of_map _ (haddresses ▸ hdistinct)
  refine ⟨(keys.map signer).toFinset, ?_, ?_⟩
  · rw [List.toFinset_card_of_nodup hnodup, List.length_map]
  · intro key hkey
    obtain ⟨hash, hhash, rfl⟩ := List.mem_map.mp (List.mem_toFinset.mp hkey)
    exact ⟨hsignedBy hash hhash, hash, hlisted hhash, haddress hash hhash⟩

theorem SignedByListed.mono {fewer : Nat} (hsigned : env.SignedByListed required listed)
    (hle : fewer ≤ required) : env.SignedByListed fewer listed := by
  obtain ⟨signers, henough, hall⟩ := hsigned
  exact ⟨signers, hle.trans henough, hall⟩

theorem signedByListed_of_evaluate {cursor : Nat}
    (hdistinct : required = 1 ∨ (listed.map Hash.address).Nodup)
    (htrue : (env.evaluate (.multisig required listed) cursor).1 = true) :
    env.SignedByListed required listed := by
  cases satisfied_of_evaluate htrue with
  | @multisig _ _ keys hkeys henough hsigned =>
      rcases hdistinct with rfl | hdistinct
      · obtain ⟨hash, hhash⟩ := List.exists_mem_of_length_pos henough
        have hone := @signedByListed_of_distinct env listed [hash]
          (List.cons_subset.mpr ⟨hkeys.subset hhash, List.nil_subset _⟩) (List.nodup_singleton _)
          (fun other hother => List.mem_singleton.mp hother ▸ hsigned hash hhash)
        exact hone
      · have hnodup := hdistinct.sublist (hkeys.map Hash.address)
        exact (signedByListed_of_distinct hkeys.subset hnodup hsigned).mono henough

end

/-! ## Listed twice -/

theorem exists_sublist_of_length {α : Type} {short items : List α} (hsub : short.Sublist items)
    {count : Nat} (hlow : short.length ≤ count) (hhigh : count ≤ items.length) :
    ∃ chosen : List α, short.Sublist chosen ∧ chosen.Sublist items ∧
      chosen.length = count := by
  induction hsub generalizing count with
  | slnil => exact ⟨[], .slnil, .slnil, (Nat.le_zero.mp hhigh).symm⟩
  | @cons short items item hsub ih =>
      rw [List.length_cons] at hhigh
      by_cases hfull : count = items.length + 1
      · exact ⟨item :: items, hsub.cons item, List.Sublist.refl _, hfull.symm⟩
      · obtain ⟨chosen, hshort, hchosen, hlength⟩ := ih hlow (by omega)
        exact ⟨chosen, hshort, hchosen.cons item, hlength⟩
  | @cons_cons short items item hsub ih =>
      rw [List.length_cons] at hlow hhigh
      obtain ⟨chosen, hshort, hchosen, hlength⟩ := @ih (count - 1) (by omega) (by omega)
      refine ⟨item :: chosen, hshort.cons_cons item, hchosen.cons_cons item, ?_⟩
      rw [List.length_cons, hlength]
      omega

theorem exists_repeated {required : Nat} {listed : List Hash}
    (hrequired : 2 ≤ required) (hle : required ≤ listed.length)
    (hrepeats : ¬(listed.map Hash.address).Nodup) :
    ∃ chosen : List Hash, chosen.Sublist listed ∧ chosen.length = required ∧
      ¬(chosen.map Hash.address).Nodup := by
  simp only [List.nodup_iff_sublist, not_forall, not_not] at hrepeats
  obtain ⟨address, htwice⟩ := hrepeats
  obtain ⟨pair, hpair, hmap⟩ := List.sublist_map_iff.mp htwice
  have hlength : pair.length = 2 := by
    rw [← List.length_map (f := Hash.address), ← hmap]
    rfl
  obtain ⟨chosen, hshort, hchosen, hcount⟩ :=
    exists_sublist_of_length hpair (hlength ▸ hrequired) hle
  refine ⟨chosen, hchosen, hcount, ?_⟩
  rw [List.nodup_iff_sublist]
  intro hnone
  exact hnone address (hmap ▸ hshort.map Hash.address)

/-- One signature for each address of entries that repeat one: enough for `evaluate`, and
fewer keys than required. -/
theorem exists_short_witness {prim : Primitives}
    {verifyHash : Hash → Signature → PublicKey → Bool} {message : Hash} {required : Nat}
    {listed chosen : List Hash} (hholders : ∀ hash ∈ listed,
      HasHolder prim verifyHash message hash)
    (hchosen : chosen.Sublist listed) (hlength : chosen.length = required)
    (hrepeats : ¬(chosen.map Hash.address).Nodup) :
    ∃ witness : Witness, (∀ height transaction, ∀ hash ∈ chosen,
        (⟨prim, verifyHash, witness, height, message, transaction⟩ : EvalEnv).Signed hash) ∧
      ∀ height transaction, ¬(⟨prim, verifyHash, witness, height, message, transaction⟩ :
        EvalEnv).SignedByListed required listed := by
  have hholder : ∀ address ∈ listed.map Hash.address, ∃ signed : WitnessSignature,
      (prim.addressOf signed.pubkey).address = address ∧
        verifyHash message signed.signature signed.pubkey = true := by
    intro address haddress
    obtain ⟨hash, hhash, rfl⟩ := List.mem_map.mp haddress
    exact hholders hash hhash
  have : Inhabited WitnessSignature := ⟨⟨⟨0⟩, ⟨0⟩⟩⟩
  choose! sign haddress hverified using hholder
  have haddresses := (hchosen.map Hash.address).subset
  refine ⟨⟨(chosen.map Hash.address).dedup.map sign, none, []⟩, ?_, ?_⟩
  · intro height transaction hash hhash
    have hmem : hash.address ∈ chosen.map Hash.address := List.mem_map_of_mem hhash
    refine ⟨sign hash.address, List.mem_map_of_mem (List.mem_dedup.mpr hmem), ?_⟩
    exact signed_iff.mpr ⟨haddress _ (haddresses hmem), hverified _ (haddresses hmem)⟩
  · rintro height transaction ⟨signers, henough, hall⟩
    have hsubset : signers ⊆ (((chosen.map Hash.address).dedup.map sign).map
        WitnessSignature.pubkey).toFinset := by
      intro signer hsigner
      obtain ⟨⟨signed, hsigned, rfl, -⟩, -⟩ := hall signer hsigner
      exact List.mem_toFinset.mpr (List.mem_map_of_mem hsigned)
    have hcard := (Finset.card_le_card hsubset).trans (List.toFinset_card_le _)
    rw [List.length_map, List.length_map] at hcard
    have hshort := (List.dedup_sublist (chosen.map Hash.address)).length_le
    have hne : (chosen.map Hash.address).dedup.length ≠ (chosen.map Hash.address).length := by
      intro hsame
      exact hrepeats (List.dedup_eq_self.mp
        ((List.dedup_sublist _).eq_of_length hsame))
    rw [List.length_map, hlength] at hshort hne
    omega

/-- A multisig counts keys if one signature is enough or no address is listed twice, and
only then if there is somebody to sign for each entry. -/
theorem multisig_keys_iff (prim : Primitives)
    (verifyHash : Hash → Signature → PublicKey → Bool) (message : Hash) {required : Nat}
    {listed : List Hash} (haccepted : (Condition.multisig required listed).Accepted) :
    (required = 1 ∨ (listed.map Hash.address).Nodup →
        ∀ env : EvalEnv, ∀ cursor, (env.evaluate (.multisig required listed) cursor).1 = true →
          env.SignedByListed required listed) ∧
      ((∀ hash ∈ listed, HasHolder prim verifyHash message hash) →
        (∀ witness height transaction cursor,
          ((⟨prim, verifyHash, witness, height, message, transaction⟩ : EvalEnv).evaluate
            (.multisig required listed) cursor).1 = true →
          (⟨prim, verifyHash, witness, height, message, transaction⟩ : EvalEnv).SignedByListed
            required listed) →
        required = 1 ∨ (listed.map Hash.address).Nodup) := by
  refine ⟨fun hdistinct env cursor => signedByListed_of_evaluate hdistinct, ?_⟩
  intro hholders hcounts
  obtain ⟨hpositive, hle, -⟩ := Condition.bounds_of_validateStructure_multisig
    (Condition.limits_of_validate haccepted.validate).2
  by_contra hnot
  obtain ⟨hmany, hrepeats⟩ := not_or.mp hnot
  obtain ⟨chosen, hchosen, hlength, hshared⟩ :=
    exists_repeated (by omega : 2 ≤ required) hle hrepeats
  obtain ⟨witness, hsigned, hfew⟩ := exists_short_witness hholders hchosen hlength hshared
  refine hfew 0 none (hcounts witness 0 none 0 ?_)
  have hcount := countP_of_signers hchosen (hsigned 0 none)
  apply multisigMet_iff.mpr
  exact ⟨List.ne_nil_of_length_pos (by omega), by omega⟩

/-- Every signature is good, and the witness holds one of the key 7. -/
def sampleSigned : EvalEnv where
  prim := samplePrimitives
  verifyHash _ _ _ := true
  witness := ⟨[⟨⟨7⟩, ⟨1⟩⟩], none, []⟩
  currentHeight := 10
  signingHash := ⟨0⟩
  transaction := none

def sampleAddress : Hash := samplePrimitives.addressOf ⟨7⟩

theorem multisig_keys_iff_sample :
    sampleSigned.SignedByListed 1 [sampleAddress, sampleAddress] :=
  (multisig_keys_iff samplePrimitives (fun _ _ _ => true) ⟨0⟩
    (.inl ⟨_, rfl⟩ : (Condition.multisig 1 [sampleAddress, sampleAddress]).Accepted)).1
      (.inl rfl) sampleSigned 0 (by decide +kernel)

/-- Both entries of the two that are required are of one key. -/
theorem repeated_entry_counts_twice :
    ¬∀ (env : EvalEnv) (required : Nat) (listed : List Hash) (cursor : Nat),
      (Condition.multisig required listed).Accepted →
        (env.evaluate (.multisig required listed) cursor).1 = true →
          env.SignedByListed required listed := by
  intro hall
  obtain ⟨signers, henough, hsigners⟩ := hall sampleSigned 2 [sampleAddress, sampleAddress] 0
    (.inl ⟨_, rfl⟩) (by decide +kernel)
  have hone : signers ⊆ {⟨7⟩} := by
    intro signer hsigner
    obtain ⟨⟨signed, hmem, rfl, -⟩, -⟩ := hsigners signer hsigner
    rw [List.mem_singleton.mp hmem]
    exact Finset.mem_singleton_self _
  have hcard := Finset.card_le_card hone
  rw [Finset.card_singleton] at hcard
  omega

end EvalEnv

end Doli.Core
