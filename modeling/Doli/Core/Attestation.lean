import Doli.Core.Floor
import Doli.Core.Payload
import Doli.Lib.Bytes
import Doli.Lib.Listing

/-!
# The attestation bitfield

The codecs of the body bitfield, the universe its positions index, and what a
builder commits to.  BLS signatures are the fields of `BlsCodec`.
-/

namespace Doli.Core

open Doli.Lib

/-! ## Codecs -/

def encodeAttestationBitfieldVec (attestedIndices : List Nat) (producerCount : Nat) :
    Bytes :=
  attestedIndices.foldl (fun bytes index =>
    if index < producerCount then setBit bytes index else bytes)
    (List.replicate ((producerCount + 7) / 8) 0)

/-- The scan stops at the end of the bytes. -/
def decodeAttestationBitfieldVec (bitfield : Bytes) (producerCount : Nat) :
    List Nat :=
  ((List.range producerCount).takeWhile fun index =>
    index / 8 < bitfield.length).filter (hasBit bitfield)

/-- The mask of the bits from `remainder` up. -/
def strayMask (remainder : Nat) : UInt8 :=
  ~~~((1 <<< UInt8.ofNat remainder) - 1)

def validateAttestationBitfieldVec (bitfield : Bytes) (producerCount : Nat) : Bool :=
  let expectedBytes := (producerCount + 7) / 8
  let remainder := producerCount % 8
  (bitfield.drop expectedBytes).all (· == 0) &&
    (if 0 < remainder ∧ expectedBytes ≤ bitfield.length then
      match bitfield[expectedBytes - 1]? with
      | none => true
      | some byte => byte &&& strayMask remainder == 0
    else true)

/-- Above the gate one width is accepted; below it any. -/
def bitfieldWidthAcceptedAt (bitfieldLen universeLen height gate : Nat) : Bool :=
  if gate ≤ height then bitfieldLen = (universeLen + 7) / 8 else true

/-! ## The universe -/

def keyBelow (left right : PublicKey) : Bool := left.word.toNat < right.word.toNat

/-- The active producers outside `base`, in key order. -/
def extraKeys (base active : List PublicKey) : List PublicKey :=
  (newKeys base.toFinset active).insertionSort PublicKey.bytesLe

def attestationUniverse (base active : List PublicKey) : List PublicKey :=
  newKeys ∅ base ++ extraKeys base active

/-- Below the gate repeats are kept. -/
def legacyUniverse (base active : List PublicKey) : List PublicKey :=
  base ++ (active.filter fun key => key ∉ base).insertionSort PublicKey.bytesLe

def encoderUniverseAt (gate height : Nat) (base active : List PublicKey) :
    List PublicKey :=
  if gate ≤ height then attestationUniverse base active else legacyUniverse base active

def postCommitUniverseAt (gate height : Nat) (base active : List PublicKey) :
    List PublicKey :=
  encoderUniverseAt gate height base active

def strayBitUniverseWidthAt (gate height : Nat) (base active : List PublicKey) : Nat :=
  if gate ≤ height then (attestationUniverse base active).length else active.length

/-! ## The commitment -/

/-- `BlsSignature::try_from_slice` and `bls_aggregate`. -/
structure BlsCodec where
  accepts : Bytes → Bool
  aggregate : List Bytes → Option Bytes

structure AttestationCommitment where
  bitfield : Bytes
  aggregate : Bytes
  presenceRoot : Hash

/-- The signatures held for each parent. -/
abbrev ParentSignaturePool := Column Hash (Column PublicKey Bytes)

section Commitment

variable (prim : Primitives) (bls : BlsCodec)

def presenceCommitment (bitfield aggregate : Bytes) : Hash :=
  prim.blake3 (leBytes 4 bitfield.length ++ bitfield ++ leBytes 4 aggregate.length ++
    aggregate)

def emptyCommitment : AttestationCommitment :=
  ⟨[], [], presenceCommitment prim [] []⟩

/-- The positions with a usable signature, and the signatures. -/
def pooledSignatures (keys : List PublicKey) (signed : Column PublicKey Bytes) :
    List (Nat × Bytes) :=
  keys.zipIdx.filterMap fun row =>
    ((signed.lookup row.1).filter bls.accepts).map fun raw => (row.2, raw)

def pooledCommitment (keys : List PublicKey) (pool : ParentSignaturePool)
    (parent : Hash) : AttestationCommitment :=
  match pool.lookup parent with
  | none => emptyCommitment prim
  | some signed =>
      let parts := pooledSignatures bls keys signed
      if parts.isEmpty then emptyCommitment prim
      else
        match bls.aggregate (parts.map Prod.snd) with
        | none => emptyCommitment prim
        | some aggregate =>
            let bitfield :=
              encodeAttestationBitfieldVec (parts.map Prod.fst) keys.length
            ⟨bitfield, aggregate, presenceCommitment prim bitfield aggregate⟩

def legacyCommitment (keys attested : List PublicKey) : AttestationCommitment :=
  if attested.isEmpty then ⟨[], [], ⟨0⟩⟩
  else
    let indices := attested.filterMap fun key => keys.idxOf? key
    let bitfield := encodeAttestationBitfieldVec indices keys.length
    ⟨bitfield, [], prim.blake3 bitfield⟩

def buildAttestationCommitmentAt (gate height : Nat)
    (keys attested : List PublicKey) (pool : ParentSignaturePool) (parent : Hash) :
    AttestationCommitment :=
  if gate ≤ height then pooledCommitment prim bls keys pool parent
  else legacyCommitment prim keys attested

end Commitment

/-! ## Universe lemmas -/

theorem mem_extraKeys {base active : List PublicKey} {key : PublicKey} :
    key ∈ extraKeys base active ↔ key ∈ active ∧ key ∉ base := by
  simp [extraKeys, List.mem_insertionSort]

theorem keyBelow_irrefl (key : PublicKey) : keyBelow key key = false := by
  simp [keyBelow]

theorem extraKeys_ascending (base active : List PublicKey) :
    Ascending keyBelow (extraKeys base active) := by
  have hnodup : (extraKeys base active).Nodup :=
    (List.perm_insertionSort _ _).nodup_iff.mpr (nodup_newKeys _ _)
  have hsorted : (extraKeys base active).Pairwise PublicKey.bytesLe :=
    List.pairwise_insertionSort _ _
  refine (hsorted.and hnodup).imp ?_
  rintro first second ⟨hle, hne⟩
  have hlt : first.word.toNat < second.word.toNat := by
    refine lt_of_le_of_ne hle ?_
    intro heq
    exact hne (antisymm (r := PublicKey.bytesLe) hle (le_of_eq heq.symm))
  simp only [keyBelow, decide_eq_true_eq, decide_eq_false_iff_not]
  omega

theorem extraKeys_congr {base active others : List PublicKey}
    (hsame : ∀ key, key ∈ active ↔ key ∈ others) :
    extraKeys base active = extraKeys base others :=
  (extraKeys_ascending base active).eq_of_mem_iff (extraKeys_ascending base others)
    fun key => by rw [mem_extraKeys, mem_extraKeys, hsame]

theorem attestationUniverse_of_nodup {base active : List PublicKey}
    (hnodup : base.Nodup) :
    attestationUniverse base active = base ++ extraKeys base active := by
  rw [attestationUniverse, newKeys_of_nodup hnodup (by simp)]

/-- The active producers outside `base` whose keys come before `key`. -/
def extraRank (base active : List PublicKey) (key : PublicKey) : Nat :=
  (extraKeys base active).countP (keyBelow · key)

/-! ## Codec lemmas -/

@[simp] theorem encode_length (indices : List Nat) (count : Nat) :
    (encodeAttestationBitfieldVec indices count).length = (count + 7) / 8 := by
  unfold encodeAttestationBitfieldVec
  refine foldl_invariant (fun _ (bytes : Bytes) => bytes.length = (count + 7) / 8)
    (by simp) ?_
  intro done index rest bytes _ hlength
  split
  · simpa using hlength
  · exact hlength

theorem hasBit_encode (indices : List Nat) (count index : Nat) :
    hasBit (encodeAttestationBitfieldVec indices count) index = true ↔
      index ∈ indices ∧ index < count := by
  unfold encodeAttestationBitfieldVec
  refine (foldl_invariant (fun done (bytes : Bytes) =>
    bytes.length = (count + 7) / 8 ∧
      (hasBit bytes index = true ↔ index ∈ done ∧ index < count))
    ⟨by simp, by simp [hasBit_replicate]⟩ ?_).2
  rintro done other rest bytes - ⟨hlength, hbit⟩
  split
  case isTrue hother =>
    refine ⟨by simpa using hlength, ?_⟩
    have hin : other / 8 < bytes.length := by omega
    rw [hasBit_setBit, Bool.or_eq_true, hbit, List.mem_append, List.mem_singleton]
    simp only [hin, decide_true, Bool.and_true, decide_eq_true_eq]
    constructor
    · rintro (rfl | ⟨hdone, hindex⟩)
      · exact ⟨.inr rfl, hother⟩
      · exact ⟨.inl hdone, hindex⟩
    · rintro ⟨hdone | rfl, hindex⟩
      · exact .inr ⟨hdone, hindex⟩
      · exact .inl rfl
  case isFalse hother =>
    refine ⟨hlength, ?_⟩
    rw [hbit, List.mem_append, List.mem_singleton]
    constructor
    · exact fun hdone => ⟨.inl hdone.1, hdone.2⟩
    · rintro ⟨hdone | rfl, hindex⟩
      · exact ⟨hdone, hindex⟩
      · contradiction

theorem takeWhile_range (count bytes : Nat) :
    (List.range count).takeWhile (fun index => decide (index / 8 < bytes)) =
      List.range (min count (8 * bytes)) := by
  induction count with
  | zero => simp
  | succ count ih =>
      rw [List.range_succ, List.takeWhile_append, ih, List.length_range,
        List.length_range]
      by_cases hcount : count < 8 * bytes
      · have hmin : min count (8 * bytes) = count := by omega
        have hnext : min (count + 1) (8 * bytes) = count + 1 := by omega
        have hbyte : count / 8 < bytes := by omega
        simp [hmin, hnext, hbyte, List.range_succ]
      · have hnext : min (count + 1) (8 * bytes) = min count (8 * bytes) := by omega
        have hbyte : ¬count / 8 < bytes := by omega
        rw [hnext]
        split
        case isTrue hall => simp [hbyte, hall]
        case isFalse => rfl

theorem mem_decode {bitfield : Bytes} {count index : Nat} :
    index ∈ decodeAttestationBitfieldVec bitfield count ↔
      index < count ∧ hasBit bitfield index = true := by
  unfold decodeAttestationBitfieldVec
  rw [takeWhile_range, List.mem_filter, List.mem_range]
  constructor
  · rintro ⟨hindex, hbit⟩
    exact ⟨by omega, hbit⟩
  · rintro ⟨hindex, hbit⟩
    have hin := hasBit_lt hbit
    exact ⟨by omega, hbit⟩

theorem testBit_strayMask {remainder position : Nat} (hremainder : remainder < 8)
    (hposition : position < 8) :
    (strayMask remainder).toNat.testBit position = decide (remainder ≤ position) := by
  have hall : ∀ remainder < 8, ∀ position < 8,
      (strayMask remainder).toNat.testBit position = decide (remainder ≤ position) := by
    decide
  exact hall remainder hremainder position hposition

theorem validate_encode (indices : List Nat) (count : Nat) :
    validateAttestationBitfieldVec (encodeAttestationBitfieldVec indices count)
      count = true := by
  unfold validateAttestationBitfieldVec
  simp only [Bool.and_eq_true]
  constructor
  · rw [List.drop_eq_nil_of_le (by simp)]
    rfl
  · split
    case isFalse => rfl
    case isTrue hlast =>
      split
      · rfl
      case h_2 byte hbyte =>
        have hclear : ∀ position < 8, count % 8 ≤ position →
            byte.toNat.testBit position = false := by
          intro position hposition hstray
          have hbit := hasBit_encode indices count
            (8 * ((count + 7) / 8 - 1) + position)
          have hindex : (8 * ((count + 7) / 8 - 1) + position) / 8 =
              (count + 7) / 8 - 1 := by omega
          have hmod : (8 * ((count + 7) / 8 - 1) + position) % 8 = position := by omega
          rw [hasBit, hindex, hbyte] at hbit
          simp only [and_bitMask_ne_zero, hmod] at hbit
          rw [Bool.eq_false_iff, ne_eq, hbit]
          omega
        rw [beq_iff_eq, ← UInt8.toNat_inj, UInt8.toNat_and, UInt8.toNat_zero]
        refine Nat.eq_of_testBit_eq fun position => ?_
        rw [Nat.testBit_and, Nat.zero_testBit]
        by_cases hposition : position < 8
        · rw [testBit_strayMask (by omega) hposition]
          by_cases hstray : count % 8 ≤ position
          · simp [hclear position hposition hstray]
          · simp [hstray]
        · have hbig : byte.toNat < 2 ^ position :=
            lt_of_lt_of_le byte.toNat_lt (Nat.pow_le_pow_right (by decide) (by omega))
          simp [Nat.testBit_lt_two_pow hbig]

end Doli.Core
