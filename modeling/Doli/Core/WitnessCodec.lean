import Doli.Core.Transaction
import Doli.Core.Condition

/-!
# The codec of witnesses and the witness map

`Witness::encode` and `Witness::decode`, and the map of one witness per input that
`set_covenant_witnesses` writes into `extra_data`.  The map keeps the low four bytes of a
length, so it gives every witness back exactly when each is shorter than 2^32 bytes.
-/

namespace Doli.Core

open Doli.Lib

namespace Witness

/-! ## Encoding -/

def witnessVersion : Nat := 1

def signaturesSection (signatures : List WitnessSignature) : Bytes :=
  if signatures.isEmpty then []
  else
    0x01 :: UInt8.ofNat signatures.length ::
      signatures.flatMap fun signed => signed.pubkey.asBytes ++ signed.signature.asBytes

def preimageSection : Option Bytes → Bytes
  | none => []
  | some preimage => 0x02 :: preimage

def branchesSection (orBranches : List Bool) : Bytes :=
  if orBranches.isEmpty then []
  else
    0x03 :: UInt8.ofNat orBranches.length :: orBranches.map fun branch => if branch then 1 else 0

def encode (witness : Witness) : Bytes :=
  UInt8.ofNat witnessVersion ::
    (signaturesSection witness.signatures ++ preimageSection witness.preimage ++
      branchesSection witness.orBranches)

/-! ## Decoding -/

section

-- Whether the bytes of a key are a curve point, as `VerifyingKey::from_bytes` finds.
variable (validKey : PublicKey → Bool)

def decodeSignatures :
    Nat → Bytes → Except ConditionError (List WitnessSignature × Bytes)
  | 0, bytes => .ok ([], bytes)
  | count + 1, bytes =>
      if bytes.length < 32 + 64 then .error .bufferTooShort
      else if !validKey (.fromBytes (slice bytes 0 32)) then .error .invalidPublicKey
      else
        match decodeSignatures count (bytes.drop (32 + 64)) with
        | .error error => .error error
        | .ok (signatures, rest) =>
            .ok (⟨.fromBytes (slice bytes 0 32), .fromBytes (slice bytes 32 96)⟩ :: signatures,
              rest)

/-- The loop over the sections; each takes a byte at least, so the length of the bytes is
fuel enough. -/
def decodeSections : Nat → Bytes → Witness → Except ConditionError Witness
  | 0, _, witness => .ok witness
  | _ + 1, [], witness => .ok witness
  | fuel + 1, tag :: body, witness =>
      match tag.toNat with
      | 0x01 =>
          match body with
          | [] => .error .bufferTooShort
          | count :: body =>
              match decodeSignatures validKey count.toNat body with
              | .error error => .error error
              | .ok (signatures, rest) =>
                  decodeSections fuel rest
                    { witness with signatures := witness.signatures ++ signatures }
      | 0x02 =>
          if body.length < 32 then .error .bufferTooShort
          else
            decodeSections fuel (body.drop 32) { witness with preimage := some (slice body 0 32) }
      | 0x03 =>
          match body with
          | [] => .error .bufferTooShort
          | count :: body =>
              if body.length < count.toNat then .error .bufferTooShort
              else
                decodeSections fuel (body.drop count.toNat)
                  { witness with
                    orBranches := witness.orBranches ++
                      (slice body 0 count.toNat).map fun byte => byte != 0 }
      -- An unknown tag ends the witness.
      | _ => .ok witness

def decode : Bytes → Except ConditionError Witness
  | [] => .ok Witness.empty
  | version :: body =>
      if version.toNat ≠ witnessVersion then .error (.unsupportedVersion version.toNat)
      else decodeSections validKey body.length body Witness.empty

end

/-! ## Reading what was written -/

/-- What the fields of the type and the counts of a byte allow. -/
structure Encodable (validKey : PublicKey → Bool) (witness : Witness) : Prop where
  signatures : witness.signatures.length ≤ 255
  keys : ∀ signed ∈ witness.signatures, validKey signed.pubkey = true
  preimage : ∀ preimage, witness.preimage = some preimage → preimage.length = 32
  orBranches : witness.orBranches.length ≤ 255

section

variable (validKey : PublicKey → Bool)

theorem decodeSignatures_append {signatures : List WitnessSignature}
    (hkeys : ∀ signed ∈ signatures, validKey signed.pubkey = true) (tail : Bytes) :
    decodeSignatures validKey signatures.length
        ((signatures.flatMap fun signed =>
          signed.pubkey.asBytes ++ signed.signature.asBytes) ++ tail) =
      .ok (signatures, tail) := by
  induction signatures with
  | nil => rfl
  | cons signed signatures ih =>
      have hrest := ih fun other hother => hkeys other (List.mem_cons_of_mem _ hother)
      have hkey := hkeys signed List.mem_cons_self
      rw [List.flatMap_cons, List.length_cons, decodeSignatures]
      simp only [List.append_assoc]
      rw [if_neg (by simp; omega), slice_append_field (PublicKey.asBytes_length _),
        PublicKey.fromBytes_asBytes, hkey, if_neg (by simp), slice_append_skip (by simp),
        PublicKey.asBytes_length, slice_append_field (Signature.asBytes_length _),
        Signature.fromBytes_asBytes, ← List.append_assoc, List.drop_left' (by simp), hrest]

theorem signaturesSection_read {signatures : List WitnessSignature}
    (hcount : signatures.length ≤ 255)
    (hkeys : ∀ signed ∈ signatures, validKey signed.pubkey = true)
    {fuel : Nat} {tail : Bytes} (witness : Witness) (hnone : witness.signatures = [])
    (hfuel : (signaturesSection signatures ++ tail).length ≤ fuel) :
    ∃ left, tail.length ≤ left ∧
      decodeSections validKey fuel (signaturesSection signatures ++ tail) witness =
        decodeSections validKey left tail { witness with signatures := signatures } := by
  cases signatures with
  | nil =>
      cases witness
      cases hnone
      exact ⟨fuel, hfuel, rfl⟩
  | cons signed signatures =>
      cases fuel with
      | zero => simp [signaturesSection] at hfuel
      | succ fuel =>
          have hread := decodeSignatures_append validKey hkeys tail
          have hbyte := byte_toNat_ofNat (by omega : (signed :: signatures).length < 256)
          refine ⟨fuel, ?_, ?_⟩
          · simp only [signaturesSection, List.isEmpty_cons, Bool.false_eq_true, if_false,
              List.length_append, List.length_cons] at hfuel
            omega
          · change (match decodeSignatures validKey
                (UInt8.ofNat (signed :: signatures).length).toNat
                (((signed :: signatures).flatMap fun signed =>
                  signed.pubkey.asBytes ++ signed.signature.asBytes) ++ tail) with
              | Except.error error => Except.error error
              | Except.ok (signatures, rest) =>
                  decodeSections validKey fuel rest
                    { witness with signatures := witness.signatures ++ signatures }) = _
            rw [hbyte, hread, hnone]
            rfl

theorem preimageSection_read {preimage : Option Bytes}
    (hsize : ∀ bytes, preimage = some bytes → bytes.length = 32)
    {fuel : Nat} {tail : Bytes} (witness : Witness) (hnone : witness.preimage = none)
    (hfuel : (preimageSection preimage ++ tail).length ≤ fuel) :
    ∃ left, tail.length ≤ left ∧
      decodeSections validKey fuel (preimageSection preimage ++ tail) witness =
        decodeSections validKey left tail { witness with preimage := preimage } := by
  cases preimage with
  | none =>
      cases witness
      cases hnone
      exact ⟨fuel, hfuel, rfl⟩
  | some bytes =>
      cases fuel with
      | zero => simp [preimageSection] at hfuel
      | succ fuel =>
          have hlength := hsize bytes rfl
          refine ⟨fuel, ?_, ?_⟩
          · simp only [preimageSection, List.length_append, List.length_cons] at hfuel
            omega
          · change (if (bytes ++ tail).length < 32 then _
              else decodeSections validKey fuel ((bytes ++ tail).drop 32)
                { witness with preimage := some (slice (bytes ++ tail) 0 32) }) = _
            rw [if_neg (by rw [List.length_append]; omega), slice_append_field hlength,
              ← hlength, List.drop_left]

theorem branches_bytes (orBranches : List Bool) :
    (orBranches.map fun branch => if branch then (1 : UInt8) else 0).map
      (fun byte => byte != 0) = orBranches := by
  induction orBranches with
  | nil => rfl
  | cons branch orBranches ih =>
      rw [List.map_cons, List.map_cons, ih]
      cases branch <;> rfl

theorem branchesSection_read {orBranches : List Bool} (hcount : orBranches.length ≤ 255)
    {fuel : Nat} {tail : Bytes} (witness : Witness) (hnone : witness.orBranches = [])
    (hfuel : (branchesSection orBranches ++ tail).length ≤ fuel) :
    ∃ left, tail.length ≤ left ∧
      decodeSections validKey fuel (branchesSection orBranches ++ tail) witness =
        decodeSections validKey left tail { witness with orBranches := orBranches } := by
  cases orBranches with
  | nil =>
      cases witness
      cases hnone
      exact ⟨fuel, hfuel, rfl⟩
  | cons branch orBranches =>
      cases fuel with
      | zero => simp [branchesSection] at hfuel
      | succ fuel =>
          have hbyte := byte_toNat_ofNat (by omega : (branch :: orBranches).length < 256)
          have hmap : ((branch :: orBranches).map fun branch =>
              if branch then (1 : UInt8) else 0).length = (branch :: orBranches).length :=
            List.length_map _
          refine ⟨fuel, ?_, ?_⟩
          · simp only [branchesSection, List.isEmpty_cons, Bool.false_eq_true, if_false,
              List.length_append, List.length_cons] at hfuel
            omega
          · change (if (((branch :: orBranches).map fun branch =>
                  if branch then (1 : UInt8) else 0) ++ tail).length <
                (UInt8.ofNat (branch :: orBranches).length).toNat then _
              else decodeSections validKey fuel
                ((((branch :: orBranches).map fun branch =>
                  if branch then (1 : UInt8) else 0) ++ tail).drop
                  (UInt8.ofNat (branch :: orBranches).length).toNat)
                { witness with
                  orBranches := witness.orBranches ++
                    (slice (((branch :: orBranches).map fun branch =>
                      if branch then (1 : UInt8) else 0) ++ tail) 0
                      (UInt8.ofNat (branch :: orBranches).length).toNat).map
                        fun byte => byte != 0 }) = _
            rw [hbyte, if_neg (by rw [List.length_append, hmap]; omega),
              slice_append_field hmap, branches_bytes, hnone, ← hmap, List.drop_left]
            rfl

theorem decode_encode {witness : Witness} (hw : witness.Encodable validKey) :
    decode validKey witness.encode = .ok witness := by
  have hversion : ¬ (UInt8.ofNat witnessVersion).toNat ≠ witnessVersion := by decide
  unfold encode decode
  dsimp only
  have hparts : signaturesSection witness.signatures ++ preimageSection witness.preimage ++
      branchesSection witness.orBranches = signaturesSection witness.signatures ++
        (preimageSection witness.preimage ++ (branchesSection witness.orBranches ++ [])) := by
    rw [List.append_assoc, List.append_nil]
  rw [if_neg hversion, hparts]
  obtain ⟨first, hfirst, hsignatures⟩ := signaturesSection_read validKey hw.signatures hw.keys
    Witness.empty rfl (Nat.le_refl _)
  obtain ⟨second, hsecond, hpreimage⟩ := preimageSection_read validKey hw.preimage
    { Witness.empty with signatures := witness.signatures } rfl hfirst
  obtain ⟨third, hthird, hbranches⟩ := branchesSection_read validKey hw.orBranches
    ⟨witness.signatures, witness.preimage, []⟩ rfl hsecond
  rw [hsignatures, hpreimage]
  refine hbranches.trans ?_
  cases third <;> rfl

end

end Witness

/-! ## The witness map -/

/-- From 65535 bytes on, the marker 0xFFFF and the length `as u32`. -/
def covenantEntry (witness : Bytes) : Bytes :=
  (if 65535 ≤ witness.length then leBytes 2 0xFFFF ++ leBytes 4 witness.length
    else leBytes 2 witness.length) ++ witness

/-- The length an entry starts with, and the bytes after it. -/
def readEntryLength (data : Bytes) : Option (Nat × Bytes) :=
  if data.length < 2 then none
  else if leNat (slice data 0 2) = 0xFFFF then
    if data.length < 2 + 4 then none
    else some (leNat (slice data 2 6), data.drop 6)
  else some (leNat (slice data 0 2), data.drop 2)

/-- The loop of `get_covenant_witness` from the entry at hand. -/
def covenantWitnessFrom : Nat → Bytes → Option Bytes
  | 0, data =>
      match readEntryLength data with
      | none => none
      | some (len, rest) =>
          if len = 0 then some []
          else if rest.length < len then none
          else some (slice rest 0 len)
  | index + 1, data =>
      match readEntryLength data with
      | none => none
      | some (len, rest) => covenantWitnessFrom index (rest.drop len)

namespace Transaction

/-- `none` where the count of the witnesses fails the assertion. -/
def setCovenantWitnesses (tx : Transaction) (witnesses : List Bytes) : Option Transaction :=
  if witnesses.length = tx.inputs.length then
    some { tx with extraData := witnesses.flatMap covenantEntry }
  else none

def getCovenantWitness (tx : Transaction) (inputIndex : Nat) : Option Bytes :=
  if tx.extraData.isEmpty then none else covenantWitnessFrom inputIndex tx.extraData

end Transaction

/-! ## The entries of the map -/

/-- The length that the entry of a witness starts with. -/
def storedLength (witness : Bytes) : Nat :=
  if 65535 ≤ witness.length then witness.length % 2 ^ 32 else witness.length

theorem storedLength_le (witness : Bytes) : storedLength witness ≤ witness.length := by
  unfold storedLength
  split
  · exact Nat.mod_le _ _
  · exact Nat.le_refl _

theorem storedLength_eq_iff {witness : Bytes} :
    storedLength witness = witness.length ↔ witness.length < 2 ^ 32 := by
  unfold storedLength
  split
  · constructor
    · intro hmod
      rw [← hmod]
      exact Nat.mod_lt _ (by omega)
    · exact Nat.mod_eq_of_lt
  · omega

theorem readEntryLength_append (witness tail : Bytes) :
    readEntryLength (covenantEntry witness ++ tail) =
      some (storedLength witness, witness ++ tail) := by
  unfold covenantEntry storedLength
  split
  case isTrue hlong =>
    have hmarker : leNat (leBytes 2 0xFFFF) = 0xFFFF := leNat_leBytes_of_lt (by omega)
    unfold readEntryLength
    simp only [List.append_assoc]
    have hheld :
        ¬(leBytes 2 0xFFFF ++ (leBytes 4 witness.length ++ (witness ++ tail))).length < 2 := by
      rw [List.length_append, leBytes_length]
      omega
    rw [if_neg hheld, slice_append_field (leBytes_length _ _), if_pos hmarker,
      if_neg (by simp; omega), slice_append_skip (by simp), leBytes_length,
      slice_append_field (leBytes_length _ _), leNat_leBytes, ← List.append_assoc,
      List.drop_left' (by simp)]
    rfl
  case isFalse hshort =>
    have hlength : leNat (leBytes 2 witness.length) = witness.length :=
      leNat_leBytes_of_lt (by omega)
    unfold readEntryLength
    have hheld : ¬(leBytes 2 witness.length ++ (witness ++ tail)).length < 2 := by
      rw [List.length_append, leBytes_length]
      omega
    rw [List.append_assoc, if_neg hheld, slice_append_field (leBytes_length _ _), hlength,
      if_neg (by omega), List.drop_left' (leBytes_length _ _)]

theorem covenantWitnessFrom_zero (witness tail : Bytes) :
    covenantWitnessFrom 0 (covenantEntry witness ++ tail) =
      some (witness.take (storedLength witness)) := by
  have hle := storedLength_le witness
  rw [covenantWitnessFrom, readEntryLength_append]
  dsimp only
  split
  case isTrue hzero => rw [hzero, List.take_zero]
  case isFalse hpositive =>
    rw [if_neg (by rw [List.length_append]; omega)]
    unfold slice
    rw [List.drop_zero, Nat.sub_zero, List.take_append_of_le_length hle]

theorem covenantWitnessFrom_succ {witness : Bytes} (hshort : witness.length < 2 ^ 32)
    (index : Nat) (tail : Bytes) :
    covenantWitnessFrom (index + 1) (covenantEntry witness ++ tail) =
      covenantWitnessFrom index tail := by
  rw [covenantWitnessFrom, readEntryLength_append, storedLength_eq_iff.mpr hshort]
  dsimp only
  rw [List.drop_left]

theorem covenantWitnessFrom_nil (index : Nat) : covenantWitnessFrom index [] = none := by
  cases index <;> rfl

theorem covenantWitnessFrom_flatMap {witnesses : List Bytes}
    (hshort : ∀ witness ∈ witnesses, witness.length < 2 ^ 32) (index : Nat) :
    covenantWitnessFrom index (witnesses.flatMap covenantEntry) = witnesses[index]? := by
  induction witnesses generalizing index with
  | nil => exact covenantWitnessFrom_nil index
  | cons witness witnesses ih =>
      have hfirst := hshort witness List.mem_cons_self
      have hrest := ih fun other hother => hshort other (List.mem_cons_of_mem _ hother)
      rw [List.flatMap_cons]
      cases index with
      | zero =>
          rw [covenantWitnessFrom_zero, storedLength_eq_iff.mpr hfirst, List.take_length]
          rfl
      | succ index => exact (covenantWitnessFrom_succ hfirst index _).trans (hrest index)

theorem short_of_read {witnesses : List Bytes}
    (hread : ∀ index, covenantWitnessFrom index (witnesses.flatMap covenantEntry) =
      witnesses[index]?) :
    ∀ witness ∈ witnesses, witness.length < 2 ^ 32 := by
  induction witnesses with
  | nil => simp
  | cons witness witnesses ih =>
      have hzero := hread 0
      rw [List.flatMap_cons, covenantWitnessFrom_zero] at hzero
      have htake : witness.take (storedLength witness) = witness := Option.some.inj hzero
      have hshort : witness.length < 2 ^ 32 := by
        have hlength := congrArg List.length htake
        rw [List.length_take, Nat.min_eq_left (storedLength_le witness)] at hlength
        exact storedLength_eq_iff.mp hlength
      have hrest := ih fun index => by
        have hnext := hread (index + 1)
        rw [List.flatMap_cons, covenantWitnessFrom_succ hshort] at hnext
        exact hnext
      exact List.forall_mem_cons.mpr ⟨hshort, hrest⟩

namespace Transaction

/-- After the setter, unless it refuses, the getter gives back each witness. -/
def GivesBack (tx : Transaction) (witnesses : List Bytes) : Prop :=
  ∀ set, tx.setCovenantWitnesses witnesses = some set →
    ∀ index, set.getCovenantWitness index = witnesses[index]?

theorem getCovenantWitness_eq (tx : Transaction) (index : Nat) :
    tx.getCovenantWitness index = covenantWitnessFrom index tx.extraData := by
  unfold getCovenantWitness
  split
  case isTrue hempty => rw [List.isEmpty_iff.mp hempty, covenantWitnessFrom_nil]
  case isFalse => rfl

theorem givesBack_iff {tx : Transaction} {witnesses : List Bytes}
    (hcount : witnesses.length = tx.inputs.length) :
    tx.GivesBack witnesses ↔ ∀ witness ∈ witnesses, witness.length < 2 ^ 32 := by
  unfold GivesBack setCovenantWitnesses
  rw [if_pos hcount]
  constructor
  · intro hback
    apply short_of_read
    intro index
    rw [← hback _ rfl index, getCovenantWitness_eq]
  · intro hshort set hset index
    cases hset
    rw [getCovenantWitness_eq]
    exact covenantWitnessFrom_flatMap hshort index

theorem witness_codec (validKey : PublicKey → Bool) :
    (∀ witness : Witness, witness.Encodable validKey →
      Witness.decode validKey witness.encode = .ok witness) ∧
    ∀ (tx : Transaction) (witnesses : List Bytes),
      tx.GivesBack witnesses ↔
        (witnesses.length = tx.inputs.length →
          ∀ witness ∈ witnesses, witness.length < 2 ^ 32) := by
  refine ⟨fun witness => Witness.decode_encode validKey, fun tx witnesses => ⟨?_, ?_⟩⟩
  · exact fun hback hcount => (givesBack_iff hcount).mp hback
  · intro hshort set hset
    have hcount : witnesses.length = tx.inputs.length := by
      unfold setCovenantWitnesses at hset
      split at hset
      case isTrue hcount => exact hcount
      case isFalse => cases hset
    exact (givesBack_iff hcount).mpr (hshort hcount) set hset

/-- A spend of one output. -/
def singleSpend : Transaction :=
  { version := 1
    txType := .transfer
    inputs := [⟨⟨0⟩, 0, ⟨0⟩, .all, 0, none⟩]
    outputs := []
    extraData := [] }

/-- A witness of 2^32 bytes is stored with the length 0. -/
theorem long_witness_lost : ¬ singleSpend.GivesBack [List.replicate (2 ^ 32) 0] := by
  intro hback
  have hshort := (givesBack_iff rfl).mp hback _ List.mem_cons_self
  rw [List.length_replicate] at hshort
  exact Nat.lt_irrefl _ hshort

end Transaction

end Doli.Core
