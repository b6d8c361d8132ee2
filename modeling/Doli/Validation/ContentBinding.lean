import Doli.Core.TransactionPreimage
import Doli.Validation.TransactionRules

/-!
# What the id of an accepted transaction binds

The rule of EncryptedContent outputs, and when the bytes under the id and under the
signing message of an accepted transaction tell it from every other.
-/

namespace Doli.Validation

open Doli.Core Doli.Lib

/-! ## Encrypted content -/

/-- `EC_MAX_MIME_LEN` -/
def maxMimeLen : Nat := 127

def maxRoyaltyBps : Nat := 5000

/-- The end of the ciphertext, the wrapped key, the nonce and the content hash. -/
def contentEnd (extraData : Bytes) : Nat := 4 + leNat (slice extraData 0 4) + 80 + 12 + 32

/-- The MIME type and the royalties, where bytes are left for them. -/
def checkContentExtension (index : Nat) (extraData : Bytes) : Verdict :=
  let v0End := contentEnd extraData
  if extraData.length ≤ v0End then .ok ()
  else do
    let version := leNat (slice extraData v0End (v0End + 1))
    refuseIf (version ≠ 1)
      (.invalidTransaction
        s!"[ERRTX-EC003] EncryptedContent output {index} unknown metadata version {version} (expected 0 or 1)")
    refuseIf (extraData.length < v0End + 2)
      (.invalidTransaction
        s!"[ERRTX-EC004] EncryptedContent output {index} v1 extension truncated (no mime_len byte)")
    let mimeLen := leNat (slice extraData (v0End + 1) (v0End + 2))
    refuseIf (maxMimeLen < mimeLen)
      (.invalidTransaction
        s!"[ERRTX-EC005] EncryptedContent output {index} MIME type too long ({mimeLen}, max {maxMimeLen})")
    let creatorStart := v0End + 2 + mimeLen
    refuseIf (extraData.length < creatorStart + 32 + 2)
      (.invalidTransaction
        s!"[ERRTX-EC006] EncryptedContent output {index} v1 extension truncated ({extraData.length} bytes, need {creatorStart + 32 + 2})")
    let royaltyBps := leNat (slice extraData (creatorStart + 32) (creatorStart + 34))
    refuseIf (maxRoyaltyBps < royaltyBps)
      (.invalidTransaction
        s!"[ERRTX-EC007] EncryptedContent output {index} royalty_bps {royaltyBps} exceeds max {maxRoyaltyBps}")
    refuseIf (0 < royaltyBps ∧
        Hash.fromBytes (slice extraData creatorStart (creatorStart + 32)) = ⟨0⟩)
      (.invalidTransaction
        s!"[ERRTX-EC008] EncryptedContent output {index} has royalty_bps={royaltyBps} but zero creator_hash")

def checkEncryptedContent (activation v2Activation height index : Nat) (output : Output) :
    Verdict := do
  refuseIf (height < activation)
    (.invalidTransaction
      s!"[ERRTX-EC000] EncryptedContent not active until h={activation}, current h={height}")
  refuseIf (output.extraData.length < 128)
    (.invalidTransaction
      s!"[ERRTX-EC001] EncryptedContent output {index} extra_data too small ({output.extraData.length} bytes, min 128)")
  refuseIf (524288 + 128 < output.extraData.length)
    (.invalidTransaction
      s!"[ERRTX-EC002] EncryptedContent output {index} extra_data too large ({output.extraData.length} bytes, max ~524KB)")
  if height < v2Activation then .ok () else checkContentExtension index output.extraData

/-- The rule of EncryptedContent at its gates; no other conditioned output and no other
payload is accepted. -/
def contentRules (activation v2Activation : Nat) : OpenRules where
  typedOutput ctx _ index output :=
    match output.outputType with
    | .encryptedContent =>
        checkEncryptedContent activation v2Activation ctx.currentHeight index output
    | _ => .error (.invalidTransaction s!"[ERRTX009] conditioned output {index}")
  typedPayload _ _ := .error (.invalidTransaction "type not activated")

theorem checkEncryptedContent_of_long {activation v2Activation height index : Nat}
    {output : Output} (hactive : activation ≤ height) (hmin : 128 ≤ output.extraData.length)
    (hmax : output.extraData.length ≤ 524288 + 128)
    (hend : output.extraData.length ≤ contentEnd output.extraData) :
    checkEncryptedContent activation v2Activation height index output = .ok () := by
  have hextension : checkContentExtension index output.extraData = .ok () := by
    unfold checkContentExtension
    rw [if_pos hend]
  unfold checkEncryptedContent
  simp only [seq_eq_ok, refuseIf_eq_ok, hextension, ite_self]
  exact ⟨by omega, by omega, by omega, trivial⟩

/-! ## Accepted outputs -/

section

variable {rules : OpenRules} {ctx : ValidationContext}

theorem maxExtraDataSize_le (height : Nat) : maxExtraDataSize height ≤ 8388608 := by
  unfold maxExtraDataSize
  split
  case isTrue => exact le_refl _
  case isFalse hera =>
    have hpow : 2 ^ (height / blocksPerEra) ≤ 2 ^ 3 :=
      Nat.pow_le_pow_right (by omega) (by omega)
    omega

theorem extraData_le_of_checkOutput {earlier : List Output} {total next : Nat}
    {output : Output} (hok : checkOutput rules ctx earlier total output = .ok next) :
    output.extraData.length ≤ maxExtraDataSize ctx.currentHeight := by
  unfold checkOutput at hok
  simp only [bind_eq_ok, exists_unit, refuseIf_eq_ok] at hok
  exact Nat.not_lt.mp hok.2.2.2.1

theorem extraData_le_of_validateOutputsFrom {earlier outputs : List Output}
    {total final : Nat} (hok : validateOutputsFrom rules ctx earlier outputs total = .ok final) :
    ∀ output ∈ outputs, output.extraData.length ≤ maxExtraDataSize ctx.currentHeight := by
  induction outputs generalizing earlier total with
  | nil => simp
  | cons output outputs ih =>
      obtain ⟨next, hfirst, hrest⟩ := bind_eq_ok.mp hok
      exact List.forall_mem_cons.mpr ⟨extraData_le_of_checkOutput hfirst, ih hrest⟩

/-- The fields lie within the machine integers that hold them. -/
structure MachineFields (tx : Transaction) : Prop where
  outputIndex : ∀ input ∈ tx.inputs, input.outputIndex < 2 ^ 32
  outputs : ∀ output ∈ tx.outputs, output.amount < 2 ^ 64 ∧ output.lockUntil < 2 ^ 64

theorem inRange_of_accepted {tx : Transaction} (hfields : MachineFields tx)
    (hok : validateTransaction rules ctx tx = .ok ()) : tx.InRange := by
  obtain ⟨hversion, -, -, -, total, houtputs, -⟩ := validateTransaction_eq_ok.mp hok
  have hsize := extraData_le_of_validateOutputsFrom houtputs
  have hmax := maxExtraDataSize_le ctx.currentHeight
  refine ⟨by omega, hfields.outputIndex, ?_⟩
  intro output houtput
  have hwidth := hfields.outputs output houtput
  have hlength := hsize output houtput
  exact ⟨hwidth.1, hwidth.2, by omega⟩

/-- Both preimages tell accepted transactions apart that no output confounds; the
encoding of an output is read off in front of other bytes just when it overlaps with no
other. -/
theorem preimages_bind_content (rules rules' : OpenRules) (ctx ctx' : ValidationContext)
    {first second : Transaction}
    (hfirst : validateTransaction rules ctx first = .ok ())
    (hsecond : validateTransaction rules' ctx' second = .ok ())
    (hfields : MachineFields first) (hfields' : MachineFields second)
    (hcounts : first.CountsTold second) :
    (¬ OutputsOverlap first.outputs second.outputs →
      (first.signingPreimage = second.signingPreimage ↔ first.SameContent second) ∧
      (first.hashPreimage = second.hashPreimage ↔
        first.SameContent second ∧ first.extraData = second.extraData)) ∧
    ∀ output ∈ first.outputs, ∀ other ∈ second.outputs,
      (∀ s t, output.serialize ++ s = other.serialize ++ t → output = other) ↔
        ¬ output.Overlaps other ∧ ¬ other.Overlaps output := by
  have hrange := inRange_of_accepted hfields hfirst
  have hrange' := inRange_of_accepted hfields' hsecond
  constructor
  · intro hnone
    exact ⟨Transaction.signingPreimage_eq_iff hrange hrange' hcounts hnone,
      Transaction.hashPreimage_eq_iff hrange hrange' hcounts hnone⟩
  · intro output houtput other hother
    exact Output.separates_serialize_iff (hrange.outputs output houtput)
      (hrange'.outputs other hother)

end

/-! ## On given inputs -/

/-- A Transfer of one input. -/
def sampleTransfer (outputs : List Output) : Transaction where
  version := 1
  txType := .transfer
  inputs := [⟨⟨41⟩, 0, ⟨1⟩, .all, 0, none⟩]
  outputs := outputs
  extraData := []

def samplePlain (amount : Nat) : Output := ⟨.normal, amount, ⟨21⟩, 0, []⟩

theorem preimages_bind_content_sample :
    let first := sampleTransfer [samplePlain 1000]
    let second := sampleTransfer [samplePlain 1001]
    (¬ OutputsOverlap first.outputs second.outputs →
      (first.signingPreimage = second.signingPreimage ↔ first.SameContent second) ∧
      (first.hashPreimage = second.hashPreimage ↔
        first.SameContent second ∧ first.extraData = second.extraData)) ∧
    ∀ output ∈ first.outputs, ∀ other ∈ second.outputs,
      (∀ s t, output.serialize ++ s = other.serialize ++ t → output = other) ↔
        ¬ output.Overlaps other ∧ ¬ other.Overlaps output :=
  preimages_bind_content sampleOpenRules sampleOpenRules (sampleContext 5) (sampleContext 5)
    (by decide +kernel) (by decide +kernel) ⟨by decide, by decide⟩ ⟨by decide, by decide⟩
    ⟨fun _ => rfl, fun _ => rfl⟩

/-- A ciphertext length of 2^32 - 1 and zeros. -/
def filler (zeros : Nat) : Bytes := leBytes 4 (2 ^ 32 - 1) ++ List.replicate zeros 0

def contentOutput (extraData : Bytes) : Output := ⟨.encryptedContent, 1, ⟨21⟩, 0, extraData⟩

/-- 128 bytes that end with a serialized Normal output. -/
def nestedContent : Output := contentOutput (filler 73 ++ (samplePlain 1).serialize)

/-- 65535 bytes that start with the length of `longContent`. -/
def shortContent : Output := contentOutput (leBytes 4 65659 ++ filler 65527)

def longContent : Output := contentOutput (filler 65527 ++ nestedContent.serialize.take 128)

theorem filler_length (zeros : Nat) : (filler zeros).length = 4 + zeros := by
  simp [filler, -List.reduceReplicate]

theorem nestedContent_serialize :
    nestedContent.serialize = nestedContent.serialize.take 128 ++ (samplePlain 1).serialize := by
  decide +kernel

theorem nestedContent_take_length : (nestedContent.serialize.take 128).length = 128 := by
  decide +kernel

theorem shortContent_overlaps : shortContent.Overlaps longContent := by
  have hlength : longContent.extraData.length = 65659 := by
    change (filler 65527 ++ nestedContent.serialize.take 128).length = 65659
    rw [List.length_append, filler_length, nestedContent_take_length]
  have htake : longContent.extraData.take 65531 = filler 65527 :=
    List.take_left' (filler_length 65527)
  refine ⟨rfl, rfl, rfl, rfl, ?_, by omega, ?_⟩
  · simp [shortContent, contentOutput, filler_length]
  · rw [hlength, htake]
    rfl

theorem contents_serialize :
    [shortContent, nestedContent].flatMap Output.serialize =
      [longContent, samplePlain 1].flatMap Output.serialize := by
  have hlong := Output.serialize_of_overlaps shortContent_overlaps
  have hdrop : longContent.extraData.drop 65531 = nestedContent.serialize.take 128 :=
    List.drop_left' (filler_length 65527)
  rw [hdrop] at hlong
  simp only [List.flatMap_cons, List.flatMap_nil, List.append_nil]
  rw [hlong, List.append_assoc, ← nestedContent_serialize]

theorem contentEnd_filler (zeros : Nat) (tail : Bytes) :
    contentEnd (filler zeros ++ tail) = 4294967423 := by
  unfold contentEnd filler
  rw [List.append_assoc, slice_append_field (leBytes_length _ _)]
  rfl

theorem checkOutput_content {earlier : List Output} {total : Nat} {extraData : Bytes}
    (htotal : total < 10) (hmin : 128 ≤ extraData.length) (hmax : extraData.length ≤ 524288)
    (hend : extraData.length ≤ contentEnd extraData) :
    checkOutput (contentRules 0 0) (sampleContext 5) earlier total (contentOutput extraData) =
      .ok (total + 1) := by
  have hrule : checkOutputType (contentRules 0 0) (sampleContext 5) earlier
      (contentOutput extraData) = .ok () :=
    checkEncryptedContent_of_long (Nat.zero_le _) hmin (Nat.le_trans hmax (by omega)) hend
  have hsize : maxExtraDataSize (sampleContext 5).currentHeight = 524288 := rfl
  have hnative : (contentOutput extraData).outputType.isNativeAmount = true := rfl
  unfold checkOutput
  simp only [bind_eq_ok, exists_unit, refuseIf_eq_ok, hrule, hnative, hsize]
  refine ⟨by simp [contentOutput], by simp [contentOutput, totalSupply], ?_, ?_, trivial, ?_, rfl⟩
  · simp only [contentOutput, if_pos]
    omega
  · exact Nat.not_lt.mpr hmax
  · simp [contentOutput]

theorem validateTransfer {outputs : List Output} {total : Nat} (hsome : outputs ≠ [])
    (houtputs : validateOutputs (contentRules 0 0) (sampleContext 5) outputs = .ok total)
    (htotal : total ≤ totalSupply)
    (hplacement : checkOutputPlacement (sampleContext 5) (sampleTransfer outputs) = .ok ()) :
    validateTransaction (contentRules 0 0) (sampleContext 5) (sampleTransfer outputs) =
      .ok () := by
  rw [validateTransaction_eq_ok]
  refine ⟨rfl, by simp [sampleTransfer], ?_, by simp [sampleTransfer, isAmm], total, houtputs,
    hplacement, rfl, htotal, rfl, rfl⟩
  exact fun hnone => hsome hnone.1

theorem nestedContent_checked {earlier : List Output} {total : Nat} (htotal : total < 10) :
    checkOutput (contentRules 0 0) (sampleContext 5) earlier total nestedContent =
      .ok (total + 1) := by
  have hend := contentEnd_filler 73 (samplePlain 1).serialize
  have hlength : (filler 73 ++ (samplePlain 1).serialize).length = 128 := by decide +kernel
  exact checkOutput_content htotal (by omega) (by omega) (by omega)

theorem shortContent_checked :
    checkOutput (contentRules 0 0) (sampleContext 5) [] 0 shortContent = .ok 1 := by
  have hlength : (leBytes 4 65659 ++ filler 65527).length = 65535 := by
    rw [List.length_append, filler_length, leBytes_length]
  have hend : contentEnd (leBytes 4 65659 ++ filler 65527) = 65787 := by
    unfold contentEnd
    rw [slice_append_field (leBytes_length _ _)]
    rfl
  exact checkOutput_content (by omega) (by omega) (by omega) (by omega)

theorem longContent_checked :
    checkOutput (contentRules 0 0) (sampleContext 5) [] 0 longContent = .ok 1 := by
  have hend := contentEnd_filler 65527 (nestedContent.serialize.take 128)
  have hlength : (filler 65527 ++ nestedContent.serialize.take 128).length = 65659 := by
    rw [List.length_append, filler_length, nestedContent_take_length]
  exact checkOutput_content (by omega) (by omega) (by omega) (by omega)

/-- Two accepted transactions with different outputs under one id. -/
theorem content_collision :
    let first := sampleTransfer [shortContent, nestedContent]
    let second := sampleTransfer [longContent, samplePlain 1]
    validateTransaction (contentRules 0 0) (sampleContext 5) first = .ok () ∧
      validateTransaction (contentRules 0 0) (sampleContext 5) second = .ok () ∧
        first.outputs ≠ second.outputs ∧ first.hashPreimage = second.hashPreimage ∧
          first.signingPreimage = second.signingPreimage := by
  have hbytes := contents_serialize
  have hsigning : (sampleTransfer [shortContent, nestedContent]).signingPreimage =
      (sampleTransfer [longContent, samplePlain 1]).signingPreimage := by
    rw [Transaction.signingPreimage_eq, Transaction.signingPreimage_eq]
    unfold Transaction.listBytes sampleTransfer
    dsimp only
    rw [hbytes]
    rfl
  refine ⟨?_, ?_, ?_, ?_, hsigning⟩
  · have houtputs : validateOutputs (contentRules 0 0) (sampleContext 5)
        [shortContent, nestedContent] = .ok 2 :=
      bind_eq_ok.mpr ⟨1, shortContent_checked,
        bind_eq_ok.mpr ⟨2, nestedContent_checked (by omega), rfl⟩⟩
    exact validateTransfer (by simp) houtputs (by decide) rfl
  · have hplain : checkOutput (contentRules 0 0) (sampleContext 5) ([] ++ [longContent]) 1
        (samplePlain 1) = .ok 2 := rfl
    have houtputs : validateOutputs (contentRules 0 0) (sampleContext 5)
        [longContent, samplePlain 1] = .ok 2 :=
      bind_eq_ok.mpr ⟨1, longContent_checked, bind_eq_ok.mpr ⟨2, hplain, rfl⟩⟩
    exact validateTransfer (by simp) houtputs (by decide) rfl
  · intro hsame
    have hkind := congrArg (fun outputs => outputs.map Output.outputType) hsame
    simp [sampleTransfer, nestedContent, contentOutput, samplePlain] at hkind
  · rw [Transaction.hashPreimage_eq, Transaction.hashPreimage_eq, hsigning]
    rfl

end Doli.Validation
