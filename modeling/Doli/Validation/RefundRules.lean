import Doli.Core.MetadataCodec
import Doli.Core.SignedRefund
import Doli.Validation.TransactionRules

/-!
# The rules of conditioned outputs

Conditioned outputs and bridge HTLCs, with their gates.  From the audit height on the refund
branch of an HTLC has to have a signature in it; what spends the refund needs one only if
every alternative of the branch that can be met has.
-/

namespace Doli.Validation

open Doli.Core Doli.Lib

structure ConditionGates where
  covenantsActivationHeight : Nat
  guardsActivationHeight : Nat
  securityAuditActivationHeight : Nat

def hexByte (byte : Nat) : String :=
  String.ofList ((Nat.toDigits 16 (byte / 16)).take 1 ++ (Nat.toDigits 16 (byte % 16)).take 1)

/-- `ConditionError::fmt` -/
def conditionErrorText : ConditionError → String
  | .bufferTooShort => "buffer too short for condition"
  | .unsupportedVersion version => s!"unsupported condition version: {version}"
  | .unknownTag tag => s!"unknown condition tag: 0x{hexByte tag}"
  | .invalidThreshold threshold keys => s!"threshold {threshold} exceeds key count {keys}"
  | .tooManyKeys count => s!"too many multisig keys: {count} (max {maxMultisigKeys})"
  | .tooManyConditions count =>
      s!"too many threshold conditions: {count} (max {maxThresholdConditions})"
  | .thresholdExceedsCount n count => s!"threshold {n} exceeds condition count {count}"
  | .tooManyOperations ops => s!"condition has {ops} ops (max {maxConditionOps})"
  | .tooDeep depth => s!"condition depth {depth} exceeds max {maxConditionDepth}"
  | .zeroThreshold => "threshold must be at least 1"
  | .invalidTimelockRange lock expiry =>
      s!"lock height {lock} must be less than expiry height {expiry}"
  | .encodingTooLarge size =>
      s!"encoded condition {size} bytes exceeds max {Condition.maxExtraDataSize}"
  | .trailingBytes remaining => s!"unexpected {remaining} trailing bytes after condition"
  | .invalidPublicKey => "invalid public key bytes in witness"

def conditionedName : OutputType → String
  | .multisig => "Multisig"
  | .hashlock => "Hashlock"
  | .htlc => "HTLC"
  | _ => "Vesting"

def checkConditionedOutput (gates : ConditionGates) (height index : Nat) (output : Output) :
    Verdict := do
  let name := conditionedName output.outputType
  refuseIf (height < gates.covenantsActivationHeight)
    (.invalidTransaction
      s!"[ERRTX008] conditioned output {index} (type={name}) rejected: covenants activate at height {gates.covenantsActivationHeight}, current={height}")
  refuseIf (output.extraData = [])
    (.invalidTransaction
      s!"[ERRTX009] conditioned output {index} (type={name}) has empty extra_data")
  let condition ← (Condition.decode output.extraData).mapError fun error =>
    .invalidTransaction
      s!"[ERRTX010] conditioned output {index} (type={name}) has invalid condition: {conditionErrorText error}"
  refuseIf (condition.containsGuard = true ∧ height < gates.guardsActivationHeight)
    (.invalidTransaction
      s!"[ERRTX011] output {index} contains guard condition: guards activate at height {gates.guardsActivationHeight}")
  refuseIf (output.outputType = .htlc ∧ gates.securityAuditActivationHeight ≤ height ∧
      condition.hasSignedRefund = false)
    (.invalidTransaction
      s!"[ERRTX-HTLC001] HTLC output {index} has unsigned refund branch (requires Signature after h={gates.securityAuditActivationHeight})")

def checkBridgeHtlcOutput (gates : ConditionGates) (height index : Nat) (output : Output) :
    Verdict := do
  refuseIf (height < gates.covenantsActivationHeight)
    (.invalidTransaction
      s!"[ERRTX020] BridgeHTLC output {index} rejected: covenants activate at height {gates.covenantsActivationHeight}, current={height}")
  refuseIf (output.extraData = [])
    (.invalidTransaction s!"[ERRTX021] BridgeHTLC output {index} has empty extra_data")
  let (condition, _) ← (Condition.decodePrefix output.extraData).mapError fun error =>
    .invalidTransaction
      s!"[ERRTX022] BridgeHTLC output {index} has invalid condition: {conditionErrorText error}"
  refuseIf (gates.securityAuditActivationHeight ≤ height ∧ condition.hasSignedRefund = false)
    (.invalidTransaction
      s!"[ERRTX-HTLC002] BridgeHTLC output {index} has unsigned refund branch (requires Signature after h={gates.securityAuditActivationHeight})")
  refuseIf output.bridgeHtlcMetadata.isNone
    (.invalidTransaction
      s!"[ERRTX023] BridgeHTLC output {index} has invalid or missing bridge metadata ({output.extraData.length} bytes extra_data)")

/-- The open rules with the rules of this module in their place. -/
def OpenRules.withConditions (rules : OpenRules) (gates : ConditionGates) : OpenRules where
  typedOutput ctx earlier index output :=
    match output.outputType with
    | .multisig => checkConditionedOutput gates ctx.currentHeight index output
    | .hashlock => checkConditionedOutput gates ctx.currentHeight index output
    | .htlc => checkConditionedOutput gates ctx.currentHeight index output
    | .vesting => checkConditionedOutput gates ctx.currentHeight index output
    | .bridgeHtlc => checkBridgeHtlcOutput gates ctx.currentHeight index output
    | _ => rules.typedOutput ctx earlier index output
  typedPayload := rules.typedPayload

/-- The right branch of the condition that an output is spent under. -/
def refundBranch (output : Output) : Option Condition :=
  match Condition.decodePrefix output.extraData with
  | .ok (.or _ right, _) => some right
  | _ => none

/-! ## Accepted outputs -/

section

variable {rules : OpenRules} {ctx : ValidationContext}

theorem checkOutputType_of_validateOutputsFrom {earlier outputs : List Output}
    {total final : Nat} (hok : validateOutputsFrom rules ctx earlier outputs total = .ok final) :
    ∀ output ∈ outputs, ∃ before, checkOutputType rules ctx before output = .ok () := by
  induction outputs generalizing earlier total with
  | nil => simp
  | cons output outputs ih =>
      obtain ⟨next, hfirst, hrest⟩ := bind_eq_ok.mp hok
      simp only [checkOutput, bind_eq_ok, exists_unit, refuseIf_eq_ok] at hfirst
      exact List.forall_mem_cons.mpr ⟨⟨earlier, hfirst.2.2.2.2.1⟩, ih hrest⟩

theorem decodePrefix_of_decode {bytes : Bytes} {condition : Condition}
    (hok : Condition.decode bytes = .ok condition) :
    ∃ consumed, Condition.decodePrefix bytes = .ok (condition, consumed) := by
  have hvalid := Condition.validate_of_decode hok
  cases bytes with
  | nil => contradiction
  | cons version body =>
      simp only [Condition.decode] at hok
      split at hok
      · contradiction
      case isFalse hversion =>
        obtain ⟨⟨found, consumed⟩, hinner, hok⟩ := bind_eq_ok.mp hok
        split at hok
        · contradiction
        · obtain ⟨-, hok⟩ := seq_eq_ok.mp hok
          cases hok
          refine ⟨1 + consumed, ?_⟩
          simp only [Condition.decodePrefix, if_neg hversion]
          rw [bind_eq_ok]
          exact ⟨(found, consumed), hinner, seq_eq_ok.mpr ⟨hvalid, rfl⟩⟩

theorem fits_of_decodePrefix {bytes : Bytes} {condition : Condition} {consumed : Nat}
    (hok : Condition.decodePrefix bytes = .ok (condition, consumed)) : condition.Fits := by
  cases bytes with
  | nil => contradiction
  | cons version body =>
      simp only [Condition.decodePrefix] at hok
      split at hok
      · contradiction
      · obtain ⟨⟨found, taken⟩, hinner, hok⟩ := bind_eq_ok.mp hok
        obtain ⟨-, hok⟩ := seq_eq_ok.mp hok
        cases hok
        exact Condition.fits_of_decodeInner hinner

theorem ok_of_mapError {ε ε' α : Type} {lift : ε → ε'} {result : Except ε α} {value : α}
    (hok : result.mapError lift = .ok value) : result = .ok value := by
  cases result with
  | error error => contradiction
  | ok found =>
      cases hok
      rfl

theorem signedRefund_of_checkOutputType {gates : ConditionGates} {before : List Output}
    {output : Output} (haudit : gates.securityAuditActivationHeight ≤ ctx.currentHeight)
    (htype : output.outputType = .htlc ∨ output.outputType = .bridgeHtlc)
    (hok : checkOutputType (rules.withConditions gates) ctx before output = .ok ()) :
    ∃ condition consumed, Condition.decodePrefix output.extraData = .ok (condition, consumed) ∧
      condition.hasSignedRefund = true := by
  rcases htype with htype | htype
  · simp only [checkOutputType, htype, OpenRules.withConditions, checkConditionedOutput,
      bind_eq_ok, exists_unit, refuseIf_eq_ok] at hok
    obtain ⟨-, -, condition, hdecoded, -, hsigned⟩ := hok
    obtain ⟨consumed, hprefix⟩ := decodePrefix_of_decode (ok_of_mapError hdecoded)
    refine ⟨condition, consumed, hprefix, ?_⟩
    by_contra hunsigned
    exact hsigned ⟨trivial, haudit, Bool.not_eq_true _ ▸ hunsigned⟩
  · simp only [checkOutputType, htype, OpenRules.withConditions, checkBridgeHtlcOutput,
      bind_eq_ok, exists_unit, refuseIf_eq_ok] at hok
    obtain ⟨-, -, ⟨condition, consumed⟩, hdecoded, hsigned, -⟩ := hok
    refine ⟨condition, consumed, ok_of_mapError hdecoded, ?_⟩
    by_contra hunsigned
    exact hsigned ⟨haudit, Bool.not_eq_true _ ▸ hunsigned⟩

end

/-- The refund of an accepted HTLC needs a signature if and only if each alternative of its
branch that can be met has one. -/
theorem signed_refund_iff (rules : OpenRules) (gates : ConditionGates)
    (ctx : ValidationContext) {tx : Transaction}
    (haccepted : validateTransaction (rules.withConditions gates) ctx tx = .ok ())
    (haudit : gates.securityAuditActivationHeight ≤ ctx.currentHeight)
    (prim : Primitives) (verifyHash : Hash → Signature → PublicKey → Bool) :
    ∀ output ∈ tx.outputs, output.outputType = .htlc ∨ output.outputType = .bridgeHtlc →
      ∃ refund, refundBranch output = some refund ∧
        (EvalEnv.NeedsSignature prim verifyHash refund ↔
          ∀ alternative ∈ refund.alternatives,
            (∃ leaf ∈ alternative, leaf.asksSignature = true) ∨
              ¬EvalEnv.Meetable prim alternative) := by
  intro output houtput htype
  obtain ⟨-, -, -, -, total, houtputs, -⟩ := validateTransaction_eq_ok.mp haccepted
  obtain ⟨before, hrule⟩ := checkOutputType_of_validateOutputsFrom houtputs output houtput
  obtain ⟨condition, consumed, hdecoded, hsigned⟩ :=
    signedRefund_of_checkOutputType haudit htype hrule
  have hfits := fits_of_decodePrefix hdecoded
  have hvalid := (Condition.limits_of_validate (Condition.validate_of_decodePrefix hdecoded)).2
  cases condition with
  | or left right =>
      unfold Condition.Fits at hfits
      refine ⟨right, by rw [refundBranch, hdecoded], ?_⟩
      exact EvalEnv.needsSignature_iff hfits.2 (seq_eq_ok.mp hvalid).2
  | _ => contradiction

def refundTransfer (refund : Condition) : Transaction where
  version := 1
  txType := .transfer
  inputs := [⟨⟨41⟩, 0, ⟨1⟩, .all, 0, none⟩]
  outputs := [⟨.htlc, 5, ⟨21⟩, 0, 1 :: (Condition.or (.hashlock ⟨2⟩) refund).encodeInner⟩]
  extraData := []

def openGates : ConditionGates := ⟨0, 0, 0⟩

theorem signed_refund_iff_sample :
    ∃ refund, refundBranch ⟨.htlc, 5, ⟨21⟩, 0,
        1 :: (Condition.or (.hashlock ⟨2⟩)
          (.and (.signature ⟨3⟩) (.timelockExpiry 20))).encodeInner⟩ = some refund ∧
      (EvalEnv.NeedsSignature samplePrimitives (fun _ _ _ => true) refund ↔
        ∀ alternative ∈ refund.alternatives,
          (∃ leaf ∈ alternative, leaf.asksSignature = true) ∨
            ¬EvalEnv.Meetable samplePrimitives alternative) :=
  signed_refund_iff sampleOpenRules openGates (sampleContext 5)
    (show validateTransaction _ _
      (refundTransfer (.and (.signature ⟨3⟩) (.timelockExpiry 20))) = .ok () by decide +kernel)
    (Nat.zero_le 5) samplePrimitives (fun _ _ _ => true) _ (List.mem_singleton.mpr rfl)
    (.inl rfl)

/-- A signature or a height: the scan finds the signature, and the height is enough. -/
def eitherRefund : Condition := .or (.signature ⟨3⟩) (.timelock 5)

theorem unsigned_refund_accepted :
    ¬∀ (rules : OpenRules) (gates : ConditionGates) (ctx : ValidationContext) (tx : Transaction)
      (prim : Primitives) (verifyHash : Hash → Signature → PublicKey → Bool),
      validateTransaction (rules.withConditions gates) ctx tx = .ok () →
        gates.securityAuditActivationHeight ≤ ctx.currentHeight →
          ∀ output ∈ tx.outputs,
            output.outputType = .htlc ∨ output.outputType = .bridgeHtlc →
              ∀ refund, refundBranch output = some refund →
                EvalEnv.NeedsSignature prim verifyHash refund := by
  intro hall
  have hbranch : refundBranch
      ⟨.htlc, 5, ⟨21⟩, 0, 1 :: (Condition.or (.hashlock ⟨2⟩) eitherRefund).encodeInner⟩ =
        some eitherRefund := by
    have hencoded : (Condition.or (.hashlock ⟨2⟩) eitherRefund).encode =
        .ok (1 :: (Condition.or (.hashlock ⟨2⟩) eitherRefund).encodeInner) := rfl
    have hread := Condition.decodePrefix_of_encode (by simp [eitherRefund, Condition.Fits])
      (by simp [eitherRefund, Condition.NamesNoUnbonding]) hencoded []
    rw [List.append_nil] at hread
    rw [refundBranch, hread]
  have hneeds := hall sampleOpenRules openGates (sampleContext 5) (refundTransfer eitherRefund)
    samplePrimitives (fun _ _ _ => true) (by decide +kernel) (Nat.zero_le 5) _
    (List.mem_singleton_self _) (.inl rfl) eitherRefund hbranch
  have hunsigned : (⟨samplePrimitives, fun _ _ _ => true, ⟨[], none, []⟩, 5, ⟨0⟩, none⟩ :
      EvalEnv).Unsigned := by
    constructor
    case height => exact Nat.lt_of_lt_of_le (by decide) (Nat.le_refl (2 ^ 64))
    case preimage => exact fun bytes hshown => absurd hshown (Option.some_ne_none bytes).symm
    case amounts => exact fun other hother => absurd hother (Option.some_ne_none other).symm
    case signatures => exact fun signed hsigned => absurd hsigned List.not_mem_nil
  have hrefused := hneeds _ rfl rfl hunsigned 0
  exact Bool.false_ne_true hrefused.symm

end Doli.Validation
