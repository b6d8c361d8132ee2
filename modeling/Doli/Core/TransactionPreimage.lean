import Doli.Core.Transaction
import Doli.Lib.Codec

/-!
# What a transaction id commits to

The bytes under `Transaction::hash` and `Transaction::signing_message`.  Every field is
read off them but one pair of cases: 65535 bytes of `extra_data` are written behind their
length 0xFFFF, which is also the marker of a longer `extra_data`.
-/

namespace Doli.Core

open Doli.Lib

def TxType.fromU32 (value : Nat) : Option TxType :=
  match value with
  | 0 => some .transfer
  | 1 => some .registration
  | 2 => some .exit
  | 3 => some .claimReward
  | 4 => some .claimBond
  | 5 => some .slashProducer
  | 6 => some .coinbase
  | 7 => some .addBond
  | 8 => some .requestWithdrawal
  | 9 => some .claimWithdrawal
  | 10 => some .epochReward
  | 11 => some .removeMaintainer
  | 12 => some .addMaintainer
  | 13 => some .delegateBond
  | 14 => some .revokeDelegation
  | 15 => some .protocolActivation
  | 16 => some .priceAttestation
  | 17 => some .mintAsset
  | 18 => some .burnAsset
  | 19 => some .createPool
  | 20 => some .addLiquidity
  | 21 => some .removeLiquidity
  | 22 => some .swap
  | 31 => some .zkSettle
  | 32 => some .rotateBlsKey
  | _ => none

theorem TxType.fromU32_toNat (txType : TxType) : TxType.fromU32 txType.toNat = some txType := by
  cases txType <;> rfl

theorem TxType.toNat_inj {first second : TxType} (h : first.toNat = second.toNat) :
    first = second := by
  apply Option.some.inj
  rw [← TxType.fromU32_toNat, h, TxType.fromU32_toNat]

theorem TxType.toNat_lt (txType : TxType) : txType.toNat < 256 ^ 4 := by
  cases txType <;> decide

theorem OutputType.toNat_inj {first second : OutputType} (h : first.toNat = second.toNat) :
    first = second := by
  apply Option.some.inj
  rw [← OutputType.fromU8_toNat, h, OutputType.fromU8_toNat]

theorem OutputType.toNat_lt (outputType : OutputType) : outputType.toNat < 256 := by
  cases outputType <;> decide

theorem leBytes_inj {width m n : Nat} (hm : m < 256 ^ width) (hn : n < 256 ^ width)
    (h : leBytes width m = leBytes width n) : m = n := by
  rw [← leNat_leBytes_of_lt hm, h, leNat_leBytes_of_lt hn]

/-! ## One output -/

namespace Output

/-- The widths of the fields; `extra_data` is shorter than 2^32 bytes. -/
structure InRange (output : Output) : Prop where
  amount : output.amount < 2 ^ 64
  lockUntil : output.lockUntil < 2 ^ 64
  extraData : output.extraData.length < 2 ^ 32

/-- The 65535 bytes of the one start with the length of the other, and go on as the other
does. -/
def Overlaps (short long : Output) : Prop :=
  short.outputType = long.outputType ∧ short.amount = long.amount ∧
    short.pubkeyHash = long.pubkeyHash ∧ short.lockUntil = long.lockUntil ∧
      short.extraData.length = 65535 ∧ 65535 < long.extraData.length ∧
        short.extraData = leBytes 4 long.extraData.length ++ long.extraData.take 65531

instance (short long : Output) : Decidable (short.Overlaps long) :=
  inferInstanceAs (Decidable (_ ∧ _))

/-- The fields of a fixed width. -/
def fixedFields (output : Output) : Bytes :=
  UInt8.ofNat output.outputType.toNat ::
    (leBytes 8 output.amount ++ output.pubkeyHash.asBytes ++ leBytes 8 output.lockUntil)

/-- The length before `extra_data`. -/
def lengthField (output : Output) : Bytes :=
  if output.extraData.length > 65535 then
    leBytes 2 0xFFFF ++ leBytes 4 output.extraData.length
  else leBytes 2 output.extraData.length

theorem serialize_eq (output : Output) :
    output.serialize = output.fixedFields ++ (output.lengthField ++ output.extraData) := by
  simp [serialize, fixedFields, lengthField, List.append_assoc]

theorem fixedFields_length (output : Output) : output.fixedFields.length = 49 := by
  simp [fixedFields]

theorem fixedFields_inj {first second : Output} (hfirst : first.InRange)
    (hsecond : second.InRange) (h : first.fixedFields = second.fixedFields) :
    first.outputType = second.outputType ∧ first.amount = second.amount ∧
      first.pubkeyHash = second.pubkeyHash ∧ first.lockUntil = second.lockUntil := by
  unfold fixedFields at h
  rw [List.append_assoc, List.append_assoc] at h
  obtain ⟨htype, hrest⟩ := List.cons.inj h
  have hkind : first.outputType.toNat = second.outputType.toNat := by
    rw [← byte_toNat_ofNat first.outputType.toNat_lt, htype,
      byte_toNat_ofNat second.outputType.toNat_lt]
  obtain ⟨hamount, hrest⟩ := List.append_inj hrest (by simp)
  obtain ⟨hhash, hlock⟩ := List.append_inj hrest (by simp)
  exact ⟨OutputType.toNat_inj hkind, leBytes_inj hfirst.amount hsecond.amount hamount,
    Hash.asBytes_inj hhash, leBytes_inj hfirst.lockUntil hsecond.lockUntil hlock⟩

/-- A length of two bytes and the same bytes behind the marker: the shorter data are the
first 65535 bytes of what follows the marker. -/
theorem overlap_of_data {short long s t : Bytes} (hshort : short.length ≤ 65535)
    (hlong : 65535 < long.length)
    (h : leBytes 2 short.length ++ (short ++ s) =
      leBytes 2 0xFFFF ++ leBytes 4 long.length ++ (long ++ t)) :
    short.length = 65535 ∧ short = leBytes 4 long.length ++ long.take 65531 := by
  rw [List.append_assoc] at h
  obtain ⟨hlength, hdata⟩ := List.append_inj h (by simp)
  have hlength : short.length = 65535 := leBytes_inj (by omega) (by omega) hlength
  have htake := congrArg (List.take 65535) hdata
  rw [List.take_left' hlength, ← List.append_assoc,
    List.take_append_of_le_length (by simp; omega), List.take_append] at htake
  refine ⟨hlength, ?_⟩
  rw [htake, leBytes_length, List.take_of_length_le (by simp)]

theorem ext_of_data {first second : Output}
    (hfixed : first.outputType = second.outputType ∧ first.amount = second.amount ∧
      first.pubkeyHash = second.pubkeyHash ∧ first.lockUntil = second.lockUntil)
    (hdata : first.extraData = second.extraData) : first = second := by
  cases first
  cases second
  simp_all

theorem eq_or_overlaps {first second : Output} {s t : Bytes} (hfirst : first.InRange)
    (hsecond : second.InRange) (h : first.serialize ++ s = second.serialize ++ t) :
    first = second ∨ first.Overlaps second ∨ second.Overlaps first := by
  rw [serialize_eq, serialize_eq] at h
  simp only [List.append_assoc] at h
  obtain ⟨hfixed, hrest⟩ :=
    List.append_inj h (by rw [fixedFields_length, fixedFields_length])
  have hfields := fixedFields_inj hfirst hsecond hfixed
  unfold lengthField at hrest
  split at hrest <;> split at hrest
  case isTrue.isTrue hlong hlong' =>
    obtain ⟨hlength, hdata⟩ := List.append_inj hrest (by simp)
    have hlength := List.append_cancel_left hlength
    have hlength := leBytes_inj hfirst.extraData hsecond.extraData hlength
    exact .inl (ext_of_data hfields (List.append_inj_left hdata hlength))
  case isTrue.isFalse hlong hshort =>
    have hoverlap := overlap_of_data (Nat.not_lt.mp hshort) hlong hrest.symm
    exact .inr (.inr ⟨hfields.1.symm, hfields.2.1.symm, hfields.2.2.1.symm,
      hfields.2.2.2.symm, hoverlap.1, hlong, hoverlap.2⟩)
  case isFalse.isTrue hshort hlong =>
    have hoverlap := overlap_of_data (Nat.not_lt.mp hshort) hlong hrest
    exact .inr (.inl ⟨hfields.1, hfields.2.1, hfields.2.2.1, hfields.2.2.2, hoverlap.1,
      hlong, hoverlap.2⟩)
  case isFalse.isFalse hshort hshort' =>
    obtain ⟨hlength, hdata⟩ := List.append_inj hrest (by simp)
    have hlength := leBytes_inj (by omega) (by omega) hlength
    exact .inl (ext_of_data hfields (List.append_inj_left hdata hlength))

theorem serialize_of_overlaps {short long : Output} (h : short.Overlaps long) :
    long.serialize = short.serialize ++ long.extraData.drop 65531 := by
  obtain ⟨htype, hamount, hhash, hlock, hlength, hlong, hdata⟩ := h
  have hsplit : long.extraData = long.extraData.take 65531 ++ long.extraData.drop 65531 :=
    (List.take_append_drop 65531 long.extraData).symm
  have hfixed : long.fixedFields = short.fixedFields := by
    unfold fixedFields
    rw [htype, hamount, hhash, hlock]
  have hmarker : short.lengthField = leBytes 2 0xFFFF := by
    unfold lengthField
    rw [if_neg (by omega), hlength]
  have hescape : long.lengthField = leBytes 2 0xFFFF ++ leBytes 4 long.extraData.length :=
    if_pos hlong
  rw [serialize_eq, serialize_eq, hfixed, hmarker, hescape, hdata]
  simp only [List.append_assoc, List.take_append_drop]

theorem separates_serialize_iff {first second : Output} (hfirst : first.InRange)
    (hsecond : second.InRange) :
    Separates Output.serialize first second ↔
      ¬ first.Overlaps second ∧ ¬ second.Overlaps first := by
  constructor
  · intro hsep
    constructor
    · intro hoverlap
      have heq := hsep (second.extraData.drop 65531) []
        (by rw [serialize_of_overlaps hoverlap, List.append_nil])
      obtain ⟨-, -, -, -, hlength, hlong, -⟩ := hoverlap
      rw [heq] at hlength
      omega
    · intro hoverlap
      have heq := hsep [] (first.extraData.drop 65531)
        (by rw [serialize_of_overlaps hoverlap, List.append_nil])
      obtain ⟨-, -, -, -, hlength, hlong, -⟩ := hoverlap
      rw [heq] at hlong
      omega
  · intro hnone s t h
    cases eq_or_overlaps hfirst hsecond h with
    | inl heq => exact heq
    | inr hoverlap =>
        cases hoverlap with
        | inl hleft => exact absurd hleft hnone.1
        | inr hright => exact absurd hright hnone.2

end Output

/-- The first outputs in which the lists differ overlap. -/
def OutputsOverlap : List Output → List Output → Prop
  | a :: as, b :: bs =>
      if a = b then OutputsOverlap as bs else a.Overlaps b ∨ b.Overlaps a
  | _, _ => False

instance decidableOutputsOverlap :
    ∀ first second : List Output, Decidable (OutputsOverlap first second)
  | a :: as, b :: bs =>
      have := decidableOutputsOverlap as bs
      inferInstanceAs
        (Decidable (if a = b then OutputsOverlap as bs else a.Overlaps b ∨ b.Overlaps a))
  | [], _ => isFalse id
  | _ :: _, [] => isFalse id

theorem separatesLists_serialize {first second : List Output}
    (hfirst : ∀ output ∈ first, output.InRange) (hsecond : ∀ output ∈ second, output.InRange)
    (hnone : ¬ OutputsOverlap first second) :
    SeparatesLists Output.serialize first second := by
  induction first generalizing second with
  | nil => trivial
  | cons a as ih =>
      cases second with
      | nil => trivial
      | cons b bs =>
          obtain ⟨ha, has⟩ := List.forall_mem_cons.mp hfirst
          obtain ⟨hb, hbs⟩ := List.forall_mem_cons.mp hsecond
          unfold OutputsOverlap at hnone
          split at hnone
          case isTrue heq => exact ⟨fun _ _ _ => heq, fun _ => ih has hbs hnone⟩
          case isFalse hne =>
            have hsep := (Output.separates_serialize_iff ha hb).mpr (not_or.mp hnone)
            exact ⟨hsep, fun heq => absurd heq hne⟩

/-! ## The transaction -/

namespace Transaction

def outpoints (tx : Transaction) : List (Hash × Nat) :=
  tx.inputs.map fun input => (input.prevTxHash, input.outputIndex)

/-- The widths of the fields. -/
structure InRange (tx : Transaction) : Prop where
  version : tx.version < 2 ^ 32
  outputIndex : ∀ input ∈ tx.inputs, input.outputIndex < 2 ^ 32
  outputs : ∀ output ∈ tx.outputs, output.InRange

/-- The transactions agree on all that a signer of the whole of them sees. -/
structure SameContent (first second : Transaction) : Prop where
  version : first.version = second.version
  txType : first.txType = second.txType
  outpoints : first.outpoints = second.outpoints
  outputs : first.outputs = second.outputs

/-- Counts that differ also do in the four bytes they are written in. -/
structure CountsTold (first second : Transaction) : Prop where
  inputs : first.inputs.length % 2 ^ 32 = second.inputs.length % 2 ^ 32 →
    first.inputs.length = second.inputs.length
  outputs : first.outputs.length % 2 ^ 32 = second.outputs.length % 2 ^ 32 →
    first.outputs.length = second.outputs.length

def outpointBytes (outpoint : Hash × Nat) : Bytes :=
  outpoint.1.asBytes ++ leBytes 4 outpoint.2

theorem outpointBytes_inj {first second : Hash × Nat} (hfirst : first.2 < 2 ^ 32)
    (hsecond : second.2 < 2 ^ 32) (h : outpointBytes first = outpointBytes second) :
    first = second := by
  obtain ⟨hhash, hindex⟩ := List.append_inj h (by simp)
  exact Prod.ext (Hash.asBytes_inj hhash) (leBytes_inj hfirst hsecond hindex)

theorem outpoints_inRange {tx : Transaction} (hrange : tx.InRange) :
    ∀ outpoint ∈ tx.outpoints, outpoint.2 < 2 ^ 32 := by
  unfold outpoints
  rw [List.forall_mem_map]
  exact hrange.outputIndex

theorem separatesLists_outpoints {first second : List (Hash × Nat)}
    (hfirst : ∀ outpoint ∈ first, outpoint.2 < 2 ^ 32)
    (hsecond : ∀ outpoint ∈ second, outpoint.2 < 2 ^ 32) :
    SeparatesLists outpointBytes first second := by
  apply separatesLists_of_forall
  intro a ha b hb
  exact separates_of_length (by simp [outpointBytes])
    (outpointBytes_inj (hfirst a ha) (hsecond b hb))

/-- The lists of a preimage, each behind its count. -/
def listBytes {α : Type} (encode : α → Bytes) (items : List α) : Bytes :=
  leBytes 4 items.length ++ items.flatMap encode

theorem eq_of_listBytes_append {α : Type} {encode : α → Bytes} {first second : List α}
    {s t : Bytes}
    (hcount : first.length % 2 ^ 32 = second.length % 2 ^ 32 → first.length = second.length)
    (hsep : SeparatesLists encode first second)
    (h : listBytes encode first ++ s = listBytes encode second ++ t) :
    first = second ∧ s = t := by
  unfold listBytes at h
  rw [List.append_assoc, List.append_assoc] at h
  obtain ⟨hlength, hitems⟩ := List.append_inj h (by simp)
  have hmod := congrArg leNat hlength
  rw [leNat_leBytes, leNat_leBytes] at hmod
  exact eq_of_flatMap_append (hcount hmod) hsep hitems

theorem signingPreimage_eq (tx : Transaction) :
    tx.signingPreimage = leBytes 4 tx.version ++ (leBytes 4 tx.txType.toNat ++
      (listBytes outpointBytes tx.outpoints ++ listBytes Output.serialize tx.outputs)) := by
  simp [signingPreimage, listBytes, outpoints, outpointBytes, List.flatMap_map,
    List.append_assoc]

theorem hashPreimage_eq (tx : Transaction) :
    tx.hashPreimage = tx.signingPreimage ++ (leBytes 4 tx.extraData.length ++ tx.extraData) := by
  simp [hashPreimage, signingPreimage, List.append_assoc]

variable {first second : Transaction}

theorem signingPreimage_append_inj {s t : Bytes} (hfirst : first.InRange)
    (hsecond : second.InRange) (hcounts : first.CountsTold second)
    (hnone : ¬ OutputsOverlap first.outputs second.outputs)
    (h : first.signingPreimage ++ s = second.signingPreimage ++ t) :
    first.SameContent second ∧ s = t := by
  rw [signingPreimage_eq, signingPreimage_eq] at h
  simp only [List.append_assoc] at h
  obtain ⟨hversion, h⟩ := List.append_inj h (by simp)
  obtain ⟨htype, h⟩ := List.append_inj h (by simp)
  have hinputs : first.outpoints.length % 2 ^ 32 = second.outpoints.length % 2 ^ 32 →
      first.outpoints.length = second.outpoints.length := by
    simpa [outpoints] using hcounts.inputs
  obtain ⟨houtpoints, h⟩ := eq_of_listBytes_append hinputs
    (separatesLists_outpoints (outpoints_inRange hfirst) (outpoints_inRange hsecond)) h
  obtain ⟨houtputs, h⟩ := eq_of_listBytes_append hcounts.outputs
    (separatesLists_serialize hfirst.outputs hsecond.outputs hnone) h
  exact ⟨⟨leBytes_inj hfirst.version hsecond.version hversion,
    TxType.toNat_inj (leBytes_inj first.txType.toNat_lt second.txType.toNat_lt htype),
    houtpoints, houtputs⟩, h⟩

theorem signingPreimage_of_sameContent (h : first.SameContent second) :
    first.signingPreimage = second.signingPreimage := by
  rw [signingPreimage_eq, signingPreimage_eq, h.version, h.txType, h.outpoints, h.outputs]

theorem signingPreimage_eq_iff (hfirst : first.InRange) (hsecond : second.InRange)
    (hcounts : first.CountsTold second)
    (hnone : ¬ OutputsOverlap first.outputs second.outputs) :
    first.signingPreimage = second.signingPreimage ↔ first.SameContent second := by
  constructor
  · intro h
    exact (signingPreimage_append_inj hfirst hsecond hcounts hnone
      (congrArg (· ++ []) h)).1
  · exact signingPreimage_of_sameContent

theorem hashPreimage_eq_iff (hfirst : first.InRange) (hsecond : second.InRange)
    (hcounts : first.CountsTold second)
    (hnone : ¬ OutputsOverlap first.outputs second.outputs) :
    first.hashPreimage = second.hashPreimage ↔
      first.SameContent second ∧ first.extraData = second.extraData := by
  rw [hashPreimage_eq, hashPreimage_eq]
  constructor
  · intro h
    obtain ⟨hsame, htail⟩ := signingPreimage_append_inj hfirst hsecond hcounts hnone h
    exact ⟨hsame, List.append_inj_right htail (by simp)⟩
  · rintro ⟨hsame, hextra⟩
    rw [signingPreimage_of_sameContent hsame, hextra]

end Transaction

end Doli.Core
