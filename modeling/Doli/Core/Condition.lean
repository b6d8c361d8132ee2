import Doli.Core.Transaction

/-!
# Spending conditions

The condition trees that conditioned outputs carry in front of their metadata,
and the decoder that finds where the metadata starts, and what the spender provides.
-/

namespace Doli.Core

open Doli.Lib

inductive Condition where
  | signature (pubkeyHash : Hash)
  | multisig (threshold : Nat) (keys : List Hash)
  | hashlock (expected : Hash)
  | timelock (minHeight : Nat)
  | timelockExpiry (maxHeight : Nat)
  | and (left right : Condition)
  | or (left right : Condition)
  | threshold (n : Nat) (conditions : List Condition)
  | amountGuard (minAmount outputIndex : Nat)
  | outputTypeGuard (expectedType : OutputType) (outputIndex : Nat)
  | recipientGuard (expectedPubkeyHash : Hash) (outputIndex : Nat)
  | maxDeltaGuard (maxChangeBps referenceAmount outputIndex : Nat)
  | reserveRatioGuard (minRatioBps reserveOutputIndex debtOutputIndex : Nat)
  deriving Repr

inductive ConditionError where
  | bufferTooShort
  | unsupportedVersion (version : Nat)
  | unknownTag (tag : Nat)
  | invalidThreshold (threshold keys : Nat)
  | tooManyKeys (count : Nat)
  | tooManyConditions (count : Nat)
  | thresholdExceedsCount (n count : Nat)
  | tooManyOperations (ops : Nat)
  | tooDeep (depth : Nat)
  | zeroThreshold
  | invalidTimelockRange (lock expiry : Nat)
  | encodingTooLarge (size : Nat)
  | trailingBytes (remaining : Nat)
  | invalidPublicKey
  deriving DecidableEq, Repr

def conditionVersion : Nat := 1

def maxConditionOps : Nat := 128

def maxConditionDepth : Nat := 4

def maxMultisigKeys : Nat := 127

def maxThresholdConditions : Nat := 5

namespace Condition

/-! ## Structural limits -/

mutual

def opsCount : Condition → Nat
  | .signature _ => 1
  | .multisig _ keys => keys.length
  | .hashlock _ => 1
  | .and left right => opsCount left + opsCount right
  | .or left right => opsCount left + opsCount right
  | .threshold _ conditions => opsCounts conditions
  | _ => 0

def opsCounts : List Condition → Nat
  | [] => 0
  | condition :: conditions => opsCount condition + opsCounts conditions

end

mutual

def depth : Condition → Nat
  | .and left right => 1 + max (depth left) (depth right)
  | .or left right => 1 + max (depth left) (depth right)
  | .threshold _ conditions => 1 + depths conditions
  | _ => 0

def depths : List Condition → Nat
  | [] => 0
  | condition :: conditions => max (depth condition) (depths conditions)

end

mutual

def validateStructure : Condition → Except ConditionError Unit
  | .multisig required keys =>
      if required = 0 then .error .zeroThreshold
      else if required > keys.length % 256 then
        .error (.invalidThreshold required (keys.length % 256))
      else if keys.length > maxMultisigKeys then
        .error (.tooManyKeys (keys.length % 256))
      else .ok ()
  | .threshold n conditions =>
      if n = 0 then .error .zeroThreshold
      else if n > conditions.length % 256 then
        .error (.thresholdExceedsCount n (conditions.length % 256))
      else if conditions.length > maxThresholdConditions then
        .error (.tooManyConditions (conditions.length % 256))
      else validateStructures conditions
  | .and left right => do
      validateStructure left
      validateStructure right
  | .or left right => do
      validateStructure left
      validateStructure right
  | _ => .ok ()

def validateStructures : List Condition → Except ConditionError Unit
  | [] => .ok ()
  | condition :: conditions => do
      validateStructure condition
      validateStructures conditions

end

def validate (condition : Condition) : Except ConditionError Unit :=
  if condition.opsCount > maxConditionOps then
    .error (.tooManyOperations condition.opsCount)
  else if condition.depth > maxConditionDepth then
    .error (.tooDeep condition.depth)
  else condition.validateStructure

theorem bounds_of_validateStructure_multisig {required : Nat} {keys : List Hash}
    (hok : (multisig required keys).validateStructure = .ok ()) :
    0 < required ∧ required ≤ keys.length ∧ keys.length ≤ maxMultisigKeys := by
  unfold validateStructure at hok
  split at hok
  · contradiction
  · split at hok
    · contradiction
    · split at hok
      · contradiction
      · have hmod := Nat.mod_le keys.length 256
        omega

theorem bounds_of_validateStructure_threshold {n : Nat} {conditions : List Condition}
    (hok : (threshold n conditions).validateStructure = .ok ()) :
    0 < n ∧ n ≤ conditions.length ∧ conditions.length ≤ maxThresholdConditions ∧
      validateStructures conditions = .ok () := by
  unfold validateStructure at hok
  split at hok
  · contradiction
  · split at hok
    · contradiction
    · split at hok
      · contradiction
      · have hmod := Nat.mod_le conditions.length 256
        exact ⟨by omega, by omega, by omega, hok⟩

theorem validateStructures_iff {conditions : List Condition} :
    validateStructures conditions = .ok () ↔
      ∀ condition ∈ conditions, condition.validateStructure = .ok () := by
  induction conditions with
  | nil => simp [validateStructures]
  | cons condition conditions ih =>
      rw [validateStructures, List.forall_mem_cons, ← ih]
      cases condition.validateStructure with
      | error error => simp [Bind.bind, Except.bind]
      | ok value => simp [Bind.bind, Except.bind]

theorem limits_of_validate {condition : Condition} (hvalid : condition.validate = .ok ()) :
    condition.depth < maxConditionDepth + 1 ∧ condition.validateStructure = .ok () := by
  unfold validate at hvalid
  split at hvalid
  · contradiction
  · split at hvalid
    · contradiction
    · exact ⟨by omega, hvalid⟩

/-! ## Decoding -/

/-- Decoders answer a condition and the number of bytes it took. -/
abbrev Decoder := Bytes → Except ConditionError (Condition × Nat)

def decodeHashAt (tag : Hash → Condition) : Decoder := fun rest =>
  if rest.length < 32 then .error .bufferTooShort
  else .ok (tag (.fromBytes (slice rest 0 32)), 1 + 32)

def decodeHeightAt (tag : Nat → Condition) : Decoder := fun rest =>
  if rest.length < 8 then .error .bufferTooShort
  else .ok (tag (leNat (slice rest 0 8)), 1 + 8)

def byteAt (bytes : Bytes) (index : Nat) : Nat :=
  (bytes.getD index 0).toNat

def decodeMultisig : Decoder := fun rest =>
  if rest.length < 2 then .error .bufferTooShort
  else
    let required := byteAt rest 0
    let count := byteAt rest 1
    if required = 0 then .error .zeroThreshold
    else if required > count then .error (.invalidThreshold required count)
    else if count > maxMultisigKeys then .error (.tooManyKeys count)
    else if rest.length < 2 + count * 32 then .error .bufferTooShort
    else
      let keys := (List.range count).map fun i =>
        Hash.fromBytes (slice rest (2 + i * 32) (2 + i * 32 + 32))
      .ok (.multisig required keys, 1 + (2 + count * 32))

def decodeGuard (tag : Nat) : Decoder := fun rest =>
  match tag with
  | 0x13 =>
      if rest.length < 9 then .error .bufferTooShort
      else .ok (.amountGuard (leNat (slice rest 0 8)) (byteAt rest 8), 1 + 9)
  | 0x14 =>
      if rest.length < 2 then .error .bufferTooShort
      else
        match (OutputType.fromU8 (byteAt rest 0)).filter (· ≠ .unbonding) with
        | none => .error (.unknownTag (byteAt rest 0))
        | some expectedType =>
            .ok (.outputTypeGuard expectedType (byteAt rest 1), 1 + 2)
  | 0x15 =>
      if rest.length < 33 then .error .bufferTooShort
      else .ok (.recipientGuard (.fromBytes (slice rest 0 32)) (byteAt rest 32),
        1 + 33)
  | 0x16 =>
      if rest.length < 11 then .error .bufferTooShort
      else .ok (.maxDeltaGuard (leNat (slice rest 0 2)) (leNat (slice rest 2 10))
        (byteAt rest 10), 1 + 11)
  | 0x17 =>
      if rest.length < 4 then .error .bufferTooShort
      else .ok (.reserveRatioGuard (leNat (slice rest 0 2)) (byteAt rest 2)
        (byteAt rest 3), 1 + 4)
  | _ => .error (.unknownTag tag)

/-- Run `decode` for `count` consecutive conditions. -/
def decodeMany (decode : Decoder) :
    Nat → Bytes → Except ConditionError (List Condition × Nat)
  | 0, _ => .ok ([], 0)
  | count + 1, bytes => do
      let (condition, consumed) ← decode bytes
      let (conditions, others) ← decodeMany decode count (bytes.drop consumed)
      .ok (condition :: conditions, consumed + others)

def decodeThreshold (decode : Decoder) : Decoder := fun rest =>
  if rest.length < 2 then .error .bufferTooShort
  else
    let n := byteAt rest 0
    let count := byteAt rest 1
    if n = 0 then .error .zeroThreshold
    else if n > count then .error (.thresholdExceedsCount n count)
    else if count > maxThresholdConditions then .error (.tooManyConditions count)
    else do
      let (conditions, consumed) ← decodeMany decode count (rest.drop 2)
      .ok (.threshold n conditions, 1 + (2 + consumed))

def decodeBranches (decode : Decoder)
    (node : Condition → Condition → Condition) : Decoder := fun rest => do
  let (left, consumedLeft) ← decode rest
  let (right, consumedRight) ← decode (rest.drop consumedLeft)
  .ok (node left right, 1 + consumedLeft + consumedRight)

/-- `levels` is the number of levels the depth limit still admits. -/
def decodeInner : Nat → Decoder
  | 0, _ => .error (.tooDeep (maxConditionDepth + 1))
  | _ + 1, [] => .error .bufferTooShort
  | levels + 1, tag :: rest =>
      match tag.toNat with
      | 0x00 => decodeHashAt .signature rest
      | 0x01 => decodeMultisig rest
      | 0x02 => decodeHashAt .hashlock rest
      | 0x03 => decodeHeightAt .timelock rest
      | 0x04 => decodeHeightAt .timelockExpiry rest
      | 0x10 => decodeBranches (decodeInner levels) .and rest
      | 0x11 => decodeBranches (decodeInner levels) .or rest
      | 0x12 => decodeThreshold (decodeInner levels) rest
      | other => decodeGuard other rest

/-- Decode a condition from the start of `bytes`, allowing trailing data. -/
def decodePrefix : Decoder
  | [] => .error .bufferTooShort
  | version :: body =>
      if version.toNat ≠ conditionVersion then
        .error (.unsupportedVersion version.toNat)
      else do
        let (condition, consumed) ← decodeInner (maxConditionDepth + 1) body
        condition.validate
        .ok (condition, 1 + consumed)

end Condition

/-! ## Witnesses -/

/-- A signature with the key of its signer. -/
structure WitnessSignature where
  pubkey : PublicKey
  signature : Signature
  deriving DecidableEq, Repr

/-- The preimage has 32 bytes; a branch is `true` for the right side. -/
structure Witness where
  signatures : List WitnessSignature
  preimage : Option Bytes
  orBranches : List Bool
  deriving DecidableEq, Repr

/-- `Witness::default()` -/
def Witness.empty : Witness := ⟨[], none, []⟩

end Doli.Core
