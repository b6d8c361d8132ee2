import Doli.Core.Condition
import Doli.Lib.Checks
import Doli.Lib.Run

/-!
# The codec of conditions

`Condition::encode` and `Condition::decode`.  The encoder checks the limits of the tree
before it writes, the decoder checks them while it reads and once more afterwards; both
agree on every tree but one that guards an output on the type Unbonding, which the decoder
takes for an unknown tag.
-/

namespace Doli.Core

open Doli.Lib

namespace Condition

/-- `MAX_EXTRA_DATA_SIZE` -/
def maxExtraDataSize : Nat := 524288

/-! ## Encoding -/

mutual

def encodeInner : Condition → Bytes
  | .signature pubkeyHash => 0x00 :: pubkeyHash.asBytes
  | .multisig required keys =>
      0x01 :: UInt8.ofNat required :: UInt8.ofNat keys.length :: keys.flatMap Hash.asBytes
  | .hashlock expected => 0x02 :: expected.asBytes
  | .timelock height => 0x03 :: leBytes 8 height
  | .timelockExpiry height => 0x04 :: leBytes 8 height
  | .and left right => 0x10 :: (encodeInner left ++ encodeInner right)
  | .or left right => 0x11 :: (encodeInner left ++ encodeInner right)
  | .threshold n conditions =>
      0x12 :: UInt8.ofNat n :: UInt8.ofNat conditions.length :: encodeInners conditions
  | .amountGuard minAmount outputIndex =>
      0x13 :: (leBytes 8 minAmount ++ [UInt8.ofNat outputIndex])
  | .outputTypeGuard expectedType outputIndex =>
      [0x14, UInt8.ofNat expectedType.toNat, UInt8.ofNat outputIndex]
  | .recipientGuard expectedPubkeyHash outputIndex =>
      0x15 :: (expectedPubkeyHash.asBytes ++ [UInt8.ofNat outputIndex])
  | .maxDeltaGuard maxChangeBps referenceAmount outputIndex =>
      0x16 :: (leBytes 2 maxChangeBps ++ leBytes 8 referenceAmount ++
        [UInt8.ofNat outputIndex])
  | .reserveRatioGuard minRatioBps reserveOutputIndex debtOutputIndex =>
      0x17 :: (leBytes 2 minRatioBps ++
        [UInt8.ofNat reserveOutputIndex, UInt8.ofNat debtOutputIndex])

def encodeInners : List Condition → Bytes
  | [] => []
  | condition :: conditions => encodeInner condition ++ encodeInners conditions

end

def encode (condition : Condition) : Except ConditionError Bytes :=
  match condition.validate with
  | .error error => .error error
  | .ok () =>
      if maxExtraDataSize < (UInt8.ofNat conditionVersion :: encodeInner condition).length then
        .error (.encodingTooLarge
          (UInt8.ofNat conditionVersion :: encodeInner condition).length)
      else .ok (UInt8.ofNat conditionVersion :: encodeInner condition)

/-- Decode a condition that takes all of `bytes`. -/
def decode : Bytes → Except ConditionError Condition
  | [] => .error .bufferTooShort
  | version :: body =>
      if version.toNat ≠ conditionVersion then
        .error (.unsupportedVersion version.toNat)
      else do
        let (condition, consumed) ← decodeInner (maxConditionDepth + 1) body
        if 0 < body.length - consumed then .error (.trailingBytes (body.length - consumed))
        else do
          condition.validate
          .ok condition

/-! ## Trees within the limits -/

mutual

/-- The widths of the fields. -/
def Fits : Condition → Prop
  | .signature _ => True
  | .multisig required _ => required < 256
  | .hashlock _ => True
  | .timelock height => height < 2 ^ 64
  | .timelockExpiry height => height < 2 ^ 64
  | .and left right => Fits left ∧ Fits right
  | .or left right => Fits left ∧ Fits right
  | .threshold n conditions => n < 256 ∧ AllFit conditions
  | .amountGuard minAmount outputIndex => minAmount < 2 ^ 64 ∧ outputIndex < 256
  | .outputTypeGuard _ outputIndex => outputIndex < 256
  | .recipientGuard _ outputIndex => outputIndex < 256
  | .maxDeltaGuard maxChangeBps referenceAmount outputIndex =>
      maxChangeBps < 2 ^ 16 ∧ referenceAmount < 2 ^ 64 ∧ outputIndex < 256
  | .reserveRatioGuard minRatioBps reserveOutputIndex debtOutputIndex =>
      minRatioBps < 2 ^ 16 ∧ reserveOutputIndex < 256 ∧ debtOutputIndex < 256

def AllFit : List Condition → Prop
  | [] => True
  | condition :: conditions => Fits condition ∧ AllFit conditions

end

mutual

/-- No guard asks for the type Unbonding. -/
def NamesNoUnbonding : Condition → Prop
  | .outputTypeGuard expectedType _ => expectedType ≠ .unbonding
  | .and left right => NamesNoUnbonding left ∧ NamesNoUnbonding right
  | .or left right => NamesNoUnbonding left ∧ NamesNoUnbonding right
  | .threshold _ conditions => NoneNamesUnbonding conditions
  | _ => True

def NoneNamesUnbonding : List Condition → Prop
  | [] => True
  | condition :: conditions => NamesNoUnbonding condition ∧ NoneNamesUnbonding conditions

end

/-- What the decoder needs of a tree in order to read it at `levels` levels. -/
structure Readable (levels : Nat) (condition : Condition) : Prop where
  fits : condition.Fits
  named : condition.NamesNoUnbonding
  limits : condition.validateStructure = .ok ()
  shallow : condition.depth < levels

theorem allFit_iff {conditions : List Condition} :
    AllFit conditions ↔ ∀ condition ∈ conditions, condition.Fits := by
  induction conditions with
  | nil => simp [AllFit]
  | cons condition conditions ih => rw [AllFit, ih, List.forall_mem_cons]

theorem noneNamesUnbonding_iff {conditions : List Condition} :
    NoneNamesUnbonding conditions ↔ ∀ condition ∈ conditions, condition.NamesNoUnbonding := by
  induction conditions with
  | nil => simp [NoneNamesUnbonding]
  | cons condition conditions ih => rw [NoneNamesUnbonding, ih, List.forall_mem_cons]

theorem depths_lt_iff {conditions : List Condition} {levels : Nat} (hlevels : 0 < levels) :
    depths conditions < levels ↔ ∀ condition ∈ conditions, condition.depth < levels := by
  induction conditions with
  | nil => simp [depths, hlevels]
  | cons condition conditions ih => rw [depths, List.forall_mem_cons, ← ih, Nat.max_lt]

theorem readable_of_sides {left right : Condition} {levels : Nat}
    (hfits : left.Fits ∧ right.Fits)
    (hnamed : left.NamesNoUnbonding ∧ right.NamesNoUnbonding)
    (hlimits : (do left.validateStructure; right.validateStructure) = .ok ())
    (hshallow : 1 + max left.depth right.depth < levels + 1) :
    left.Readable levels ∧ right.Readable levels := by
  have hdepth := Nat.max_lt.mp (by omega : max left.depth right.depth < levels)
  cases hleft : left.validateStructure with
  | error error => simp [hleft, Bind.bind, Except.bind] at hlimits
  | ok value =>
      rw [hleft] at hlimits
      exact ⟨⟨hfits.1, hnamed.1, hleft, hdepth.1⟩, ⟨hfits.2, hnamed.2, hlimits, hdepth.2⟩⟩

theorem readable_of_parts {conditions : List Condition} {levels : Nat}
    (hfits : AllFit conditions) (hnamed : NoneNamesUnbonding conditions)
    (hlimits : validateStructures conditions = .ok ())
    (hshallow : 1 + depths conditions < levels + 1) :
    ∀ condition ∈ conditions, condition.Readable levels := by
  have hlevels : 0 < levels := by omega
  have hdepth := (depths_lt_iff hlevels).mp (by omega : depths conditions < levels)
  intro condition hcondition
  exact ⟨allFit_iff.mp hfits condition hcondition,
    noneNamesUnbonding_iff.mp hnamed condition hcondition,
    validateStructures_iff.mp hlimits condition hcondition, hdepth condition hcondition⟩

/-! ## Reading what was written -/

theorem decodeHashAt_append (tag : Hash → Condition) (hash : Hash) (tail : Bytes) :
    decodeHashAt tag (hash.asBytes ++ tail) = .ok (tag hash, 1 + 32) := by
  unfold decodeHashAt
  rw [if_neg (by simp), slice_append_field (Hash.asBytes_length hash), Hash.fromBytes_asBytes]

theorem decodeHeightAt_append (tag : Nat → Condition) {height : Nat} (hlt : height < 2 ^ 64)
    (tail : Bytes) : decodeHeightAt tag (leBytes 8 height ++ tail) = .ok (tag height, 1 + 8) := by
  unfold decodeHeightAt
  rw [if_neg (by simp), slice_append_field (leBytes_length 8 height),
    leNat_leBytes_of_lt hlt]

theorem keys_at (keys : List Hash) (front tail : Bytes) :
    ((List.range keys.length).map fun i =>
      Hash.fromBytes (slice (front ++ (keys.flatMap Hash.asBytes ++ tail))
        (front.length + i * 32) (front.length + i * 32 + 32))) = keys := by
  induction keys generalizing front with
  | nil => rfl
  | cons key keys ih =>
      have hrest := ih (front ++ key.asBytes)
      rw [List.length_cons, List.range_succ_eq_map, List.map_cons, List.map_map]
      congr 1
      · rw [slice_append_skip (by omega), List.flatMap_cons, List.append_assoc]
        simp [slice_append_field]
      · convert hrest using 2
        funext i
        have hat : front.length + (i + 1) * 32 = (front ++ key.asBytes).length + i * 32 := by
          rw [List.length_append, Hash.asBytes_length]
          omega
        rw [Function.comp_apply, hat, List.flatMap_cons, List.append_assoc, List.append_assoc]

theorem flatMap_asBytes_length (keys : List Hash) :
    (keys.flatMap Hash.asBytes).length = keys.length * 32 := by
  induction keys with
  | nil => rfl
  | cons key keys ih =>
      rw [List.flatMap_cons, List.length_append, ih, Hash.asBytes_length, List.length_cons]
      omega

theorem decodeMultisig_append {required : Nat} {keys : List Hash} (hpositive : 0 < required)
    (hrequired : required ≤ keys.length) (hkeys : keys.length ≤ maxMultisigKeys)
    (tail : Bytes) :
    decodeMultisig (UInt8.ofNat required :: UInt8.ofNat keys.length ::
        (keys.flatMap Hash.asBytes ++ tail)) =
      .ok (.multisig required keys, 1 + (2 + keys.length * 32)) := by
  unfold maxMultisigKeys at hkeys
  have hfirst : byteAt (UInt8.ofNat required :: UInt8.ofNat keys.length ::
      (keys.flatMap Hash.asBytes ++ tail)) 0 = required := byte_toNat_ofNat (by omega)
  have hsecond : byteAt (UInt8.ofNat required :: UInt8.ofNat keys.length ::
      (keys.flatMap Hash.asBytes ++ tail)) 1 = keys.length := byte_toNat_ofNat (by omega)
  have hlength : (UInt8.ofNat required :: UInt8.ofNat keys.length ::
      (keys.flatMap Hash.asBytes ++ tail)).length = 2 + keys.length * 32 + tail.length := by
    simp only [List.length_cons, List.length_append, flatMap_asBytes_length]
    omega
  have hlist := keys_at keys [UInt8.ofNat required, UInt8.ofNat keys.length] tail
  unfold decodeMultisig
  rw [hfirst, hsecond, hlength, if_neg (by omega)]
  dsimp only
  rw [if_neg (by omega), if_neg (by omega), if_neg (by unfold maxMultisigKeys; omega),
    if_neg (by omega)]
  exact congrArg (fun keys' => Except.ok (Condition.multisig required keys', _)) hlist

theorem decodeMany_append {decode : Decoder} {conditions : List Condition}
    (hread : ∀ condition ∈ conditions, ∀ tail,
      decode (condition.encodeInner ++ tail) = .ok (condition, condition.encodeInner.length))
    (tail : Bytes) :
    decodeMany decode conditions.length (encodeInners conditions ++ tail) =
      .ok (conditions, (encodeInners conditions).length) := by
  induction conditions with
  | nil => rfl
  | cons condition conditions ih =>
      have hfirst := hread condition List.mem_cons_self (encodeInners conditions ++ tail)
      have hrest := ih fun other hother => hread other (List.mem_cons_of_mem _ hother)
      rw [encodeInners, List.append_assoc, List.length_cons, decodeMany, hfirst]
      dsimp only [bind, Except.bind]
      rw [List.drop_left, hrest, List.length_append]

theorem decodeThreshold_append {decode : Decoder} {n : Nat} {conditions : List Condition}
    (hpositive : 0 < n) (hn : n ≤ conditions.length)
    (hcount : conditions.length ≤ maxThresholdConditions)
    (hread : ∀ condition ∈ conditions, ∀ tail,
      decode (condition.encodeInner ++ tail) = .ok (condition, condition.encodeInner.length))
    (tail : Bytes) :
    decodeThreshold decode (UInt8.ofNat n :: UInt8.ofNat conditions.length ::
        (encodeInners conditions ++ tail)) =
      .ok (.threshold n conditions, 1 + (2 + (encodeInners conditions).length)) := by
  unfold maxThresholdConditions at hcount
  have hfirst : byteAt (UInt8.ofNat n :: UInt8.ofNat conditions.length ::
      (encodeInners conditions ++ tail)) 0 = n := byte_toNat_ofNat (by omega)
  have hsecond : byteAt (UInt8.ofNat n :: UInt8.ofNat conditions.length ::
      (encodeInners conditions ++ tail)) 1 = conditions.length := byte_toNat_ofNat (by omega)
  have hmany := decodeMany_append hread tail
  unfold decodeThreshold
  rw [hfirst, hsecond, if_neg (by simp)]
  dsimp only
  have hrest : (UInt8.ofNat n :: UInt8.ofNat conditions.length ::
      (encodeInners conditions ++ tail)).drop 2 = encodeInners conditions ++ tail := rfl
  rw [if_neg (by omega), if_neg (by omega), if_neg (by unfold maxThresholdConditions; omega),
    hrest, hmany]
  rfl

theorem decodeBranches_append {decode : Decoder} {left right : Condition}
    (node : Condition → Condition → Condition)
    (hleft : ∀ tail, decode (left.encodeInner ++ tail) = .ok (left, left.encodeInner.length))
    (hright : ∀ tail, decode (right.encodeInner ++ tail) =
      .ok (right, right.encodeInner.length)) (tail : Bytes) :
    decodeBranches decode node (left.encodeInner ++ right.encodeInner ++ tail) =
      .ok (node left right, 1 + left.encodeInner.length + right.encodeInner.length) := by
  unfold decodeBranches
  rw [List.append_assoc, hleft]
  change (do
    let (right, consumedRight) ← decode
      ((left.encodeInner ++ (right.encodeInner ++ tail)).drop left.encodeInner.length)
    Except.ok (node left right, 1 + left.encodeInner.length + consumedRight)) = _
  rw [List.drop_left, hright]
  rfl

theorem byteAt_append {front : Bytes} {byte : UInt8} {tail : Bytes} {index : Nat}
    (hindex : front.length = index) : byteAt (front ++ byte :: tail) index = byte.toNat := by
  subst hindex
  simp [byteAt]

section Guards

variable (tail : Bytes)

theorem decodeGuard_amount {minAmount outputIndex : Nat} (hamount : minAmount < 2 ^ 64)
    (hindex : outputIndex < 256) :
    decodeGuard 0x13 (leBytes 8 minAmount ++ UInt8.ofNat outputIndex :: tail) =
      .ok (.amountGuard minAmount outputIndex, 1 + 9) := by
  have hbyte := @byteAt_append (leBytes 8 minAmount) (UInt8.ofNat outputIndex) tail 8 (by simp)
  rw [byte_toNat_ofNat hindex] at hbyte
  simp only [decodeGuard]
  rw [if_neg (by simp; omega), hbyte, slice_append_field (leBytes_length 8 minAmount),
    leNat_leBytes_of_lt hamount]

theorem decodeGuard_outputType {expectedType : OutputType} {outputIndex : Nat}
    (hnamed : expectedType ≠ .unbonding) (hindex : outputIndex < 256) :
    decodeGuard 0x14 (UInt8.ofNat expectedType.toNat :: UInt8.ofNat outputIndex :: tail) =
      .ok (.outputTypeGuard expectedType outputIndex, 1 + 2) := by
  have hlt : expectedType.toNat < 256 := by cases expectedType <;> decide
  have htype : byteAt (UInt8.ofNat expectedType.toNat :: UInt8.ofNat outputIndex :: tail) 0 =
      expectedType.toNat := byte_toNat_ofNat hlt
  have hbyte : byteAt (UInt8.ofNat expectedType.toNat :: UInt8.ofNat outputIndex :: tail) 1 =
      outputIndex := byte_toNat_ofNat hindex
  simp only [decodeGuard]
  rw [if_neg (by simp), htype, hbyte, OutputType.fromU8_toNat, Option.filter_some,
    if_pos (by simpa using hnamed)]

theorem decodeGuard_recipient (hash : Hash) {outputIndex : Nat} (hindex : outputIndex < 256) :
    decodeGuard 0x15 (hash.asBytes ++ UInt8.ofNat outputIndex :: tail) =
      .ok (.recipientGuard hash outputIndex, 1 + 33) := by
  have hbyte := @byteAt_append hash.asBytes (UInt8.ofNat outputIndex) tail 32 (by simp)
  rw [byte_toNat_ofNat hindex] at hbyte
  simp only [decodeGuard]
  rw [if_neg (by simp; omega), hbyte, slice_append_field (Hash.asBytes_length hash),
    Hash.fromBytes_asBytes]

theorem decodeGuard_maxDelta {maxChangeBps referenceAmount outputIndex : Nat}
    (hbps : maxChangeBps < 2 ^ 16) (hamount : referenceAmount < 2 ^ 64)
    (hindex : outputIndex < 256) :
    decodeGuard 0x16 (leBytes 2 maxChangeBps ++
        (leBytes 8 referenceAmount ++ UInt8.ofNat outputIndex :: tail)) =
      .ok (.maxDeltaGuard maxChangeBps referenceAmount outputIndex, 1 + 11) := by
  have hbyte := @byteAt_append (leBytes 2 maxChangeBps ++ leBytes 8 referenceAmount)
    (UInt8.ofNat outputIndex) tail 10 (by simp)
  rw [byte_toNat_ofNat hindex, List.append_assoc] at hbyte
  simp only [decodeGuard]
  rw [if_neg (by simp; omega), hbyte, slice_append_field (leBytes_length 2 maxChangeBps),
    leNat_leBytes_of_lt hbps, slice_append_skip (by simp), leBytes_length,
    slice_append_field (leBytes_length 8 referenceAmount), leNat_leBytes_of_lt hamount]

theorem decodeGuard_reserveRatio {minRatioBps reserveOutputIndex debtOutputIndex : Nat}
    (hbps : minRatioBps < 2 ^ 16) (hreserve : reserveOutputIndex < 256)
    (hdebt : debtOutputIndex < 256) :
    decodeGuard 0x17 (leBytes 2 minRatioBps ++ UInt8.ofNat reserveOutputIndex ::
        UInt8.ofNat debtOutputIndex :: tail) =
      .ok (.reserveRatioGuard minRatioBps reserveOutputIndex debtOutputIndex, 1 + 4) := by
  have hfirst := @byteAt_append (leBytes 2 minRatioBps) (UInt8.ofNat reserveOutputIndex)
    (UInt8.ofNat debtOutputIndex :: tail) 2 (by simp)
  have hsecond := @byteAt_append (leBytes 2 minRatioBps ++ [UInt8.ofNat reserveOutputIndex])
    (UInt8.ofNat debtOutputIndex) tail 3 (by simp)
  rw [byte_toNat_ofNat hreserve] at hfirst
  rw [byte_toNat_ofNat hdebt, List.append_assoc] at hsecond
  simp only [decodeGuard]
  rw [if_neg (by simp; omega), hfirst, slice_append_field (leBytes_length 2 minRatioBps),
    leNat_leBytes_of_lt hbps]
  exact congrArg (fun debt => Except.ok (Condition.reserveRatioGuard _ _ debt, _)) hsecond

end Guards

theorem decodeInner_encodeInner {levels : Nat} {condition : Condition}
    (hreadable : condition.Readable levels) (tail : Bytes) :
    decodeInner levels (condition.encodeInner ++ tail) =
      .ok (condition, condition.encodeInner.length) := by
  induction levels generalizing condition tail with
  | zero => exact absurd hreadable.shallow (Nat.not_lt_zero _)
  | succ levels ih =>
      obtain ⟨hfits, hnamed, hlimits, hshallow⟩ := hreadable
      cases condition with
      | signature pubkeyHash =>
          rw [encodeInner, List.length_cons, Hash.asBytes_length]
          exact decodeHashAt_append .signature pubkeyHash tail
      | multisig required keys =>
          have hbounds := bounds_of_validateStructure_multisig hlimits
          rw [encodeInner, List.length_cons, List.length_cons, List.length_cons,
            flatMap_asBytes_length]
          have hread := decodeMultisig_append hbounds.1 hbounds.2.1 hbounds.2.2 tail
          have hsize : keys.length * 32 + 1 + 1 + 1 = 1 + (2 + keys.length * 32) := by omega
          rw [hsize]
          exact hread
      | hashlock expected =>
          rw [encodeInner, List.length_cons, Hash.asBytes_length]
          exact decodeHashAt_append .hashlock expected tail
      | timelock height =>
          rw [encodeInner, List.length_cons, leBytes_length]
          exact decodeHeightAt_append .timelock hfits tail
      | timelockExpiry height =>
          rw [encodeInner, List.length_cons, leBytes_length]
          exact decodeHeightAt_append .timelockExpiry hfits tail
      | and left right =>
          have hsides := readable_of_sides hfits hnamed hlimits hshallow
          have hread := decodeBranches_append .and (ih hsides.1) (ih hsides.2) tail
          have hsize : (encodeInner (.and left right)).length =
              1 + left.encodeInner.length + right.encodeInner.length := by
            rw [encodeInner, List.length_cons, List.length_append]
            omega
          rw [hsize]
          exact hread
      | or left right =>
          have hsides := readable_of_sides hfits hnamed hlimits hshallow
          have hread := decodeBranches_append .or (ih hsides.1) (ih hsides.2) tail
          have hsize : (encodeInner (.or left right)).length =
              1 + left.encodeInner.length + right.encodeInner.length := by
            rw [encodeInner, List.length_cons, List.length_append]
            omega
          rw [hsize]
          exact hread
      | threshold n conditions =>
          have hbounds := bounds_of_validateStructure_threshold hlimits
          have hparts := readable_of_parts hfits.2 hnamed hbounds.2.2.2 hshallow
          have hread := decodeThreshold_append hbounds.1 hbounds.2.1 hbounds.2.2.1
            (fun condition hcondition => ih (hparts condition hcondition)) tail
          have hsize : (encodeInner (.threshold n conditions)).length =
              1 + (2 + (encodeInners conditions).length) := by
            simp only [encodeInner, List.length_cons]
            omega
          rw [hsize]
          exact hread
      | amountGuard minAmount outputIndex =>
          simp only [encodeInner, List.cons_append, List.append_assoc, List.nil_append,
            List.length_cons, List.length_append, leBytes_length]
          exact decodeGuard_amount tail hfits.1 hfits.2
      | outputTypeGuard expectedType outputIndex =>
          exact decodeGuard_outputType tail hnamed hfits
      | recipientGuard hash outputIndex =>
          simp only [encodeInner, List.cons_append, List.append_assoc, List.nil_append,
            List.length_cons, List.length_append, Hash.asBytes_length]
          exact decodeGuard_recipient tail hash hfits
      | maxDeltaGuard maxChangeBps referenceAmount outputIndex =>
          simp only [encodeInner, List.cons_append, List.append_assoc, List.nil_append,
            List.length_cons, List.length_append, leBytes_length]
          exact decodeGuard_maxDelta tail hfits.1 hfits.2.1 hfits.2.2
      | reserveRatioGuard minRatioBps reserveOutputIndex debtOutputIndex =>
          simp only [encodeInner, List.cons_append, List.append_assoc, List.nil_append,
            List.length_cons, List.length_append, leBytes_length]
          exact decodeGuard_reserveRatio tail hfits.1 hfits.2.1 hfits.2.2

/-! ## Writing what was read -/

/-- The bytes start with the image of the condition, which is what the decoder took. -/
structure Images (bytes : Bytes) (condition : Condition) (consumed : Nat) : Prop where
  starts : ∃ tail, bytes = condition.encodeInner ++ tail
  consumed : consumed = condition.encodeInner.length

theorem toNat_of_fromU8 {value : Nat} {outputType : OutputType}
    (hread : OutputType.fromU8 value = some outputType) : outputType.toNat = value := by
  unfold OutputType.fromU8 at hread
  split at hread <;> first | contradiction | (cases hread; rfl)

theorem asBytes_fromBytes {bytes : Bytes} (hlength : bytes.length = 32) :
    (Hash.fromBytes bytes).asBytes = bytes := by
  have hreverse : bytes.reverse.length = 32 := by rw [List.length_reverse, hlength]
  have hlt := leNat_lt bytes.reverse
  rw [hreverse] at hlt
  have hword : (BitVec.ofNat 256 (leNat bytes.reverse)).toNat = leNat bytes.reverse :=
    Nat.mod_eq_of_lt hlt
  have himage := leBytes_leNat bytes.reverse
  rw [hreverse] at himage
  rw [Hash.fromBytes, Hash.asBytes, hword, himage, List.reverse_reverse]

theorem images_of_decodeHashAt {tag : Hash → Condition} {byte : UInt8} {rest : Bytes}
    {condition : Condition} {consumed : Nat}
    (himage : ∀ hash, (tag hash).encodeInner = byte :: hash.asBytes)
    (hok : decodeHashAt tag rest = .ok (condition, consumed)) :
    Images (byte :: rest) condition consumed := by
  unfold decodeHashAt at hok
  split at hok
  case isTrue => contradiction
  case isFalse hlong =>
    obtain ⟨field, tail, rfl, hfield⟩ := exists_field (Nat.not_lt.mp hlong)
    rw [slice_append_field hfield] at hok
    cases hok
    constructor
    case starts => exact ⟨tail, by rw [himage, asBytes_fromBytes hfield, List.cons_append]⟩
    case consumed => rw [himage, List.length_cons, Hash.asBytes_length]

theorem images_of_decodeHeightAt {tag : Nat → Condition} {byte : UInt8} {rest : Bytes}
    {condition : Condition} {consumed : Nat}
    (himage : ∀ height, (tag height).encodeInner = byte :: leBytes 8 height)
    (hok : decodeHeightAt tag rest = .ok (condition, consumed)) :
    Images (byte :: rest) condition consumed := by
  unfold decodeHeightAt at hok
  split at hok
  case isTrue => contradiction
  case isFalse hlong =>
    obtain ⟨field, tail, rfl, hfield⟩ := exists_field (Nat.not_lt.mp hlong)
    rw [slice_append_field hfield] at hok
    cases hok
    constructor
    case starts => exact ⟨tail, by rw [himage, leBytes_slice hfield, List.cons_append]⟩
    case consumed => rw [himage, List.length_cons, leBytes_length]

theorem flatMap_keys (count : Nat) (front bytes : Bytes) (hlong : count * 32 ≤ bytes.length) :
    ((List.range count).map fun i => Hash.fromBytes (slice (front ++ bytes)
        (front.length + i * 32) (front.length + i * 32 + 32))).flatMap Hash.asBytes =
      bytes.take (count * 32) := by
  induction count generalizing front bytes with
  | zero => simp
  | succ count ih =>
      obtain ⟨field, tail, rfl, hfield⟩ := exists_field (by omega : 32 ≤ bytes.length)
      rw [List.length_append, hfield] at hlong
      have hrest := ih (front ++ field) tail (by omega)
      have hhead : slice (front ++ (field ++ tail)) (front.length + 0 * 32)
          (front.length + 0 * 32 + 32) = field := by
        rw [slice_append_skip (by omega)]
        simp [slice, hfield]
      have htake : (field ++ tail).take ((count + 1) * 32) = field ++ tail.take (count * 32) := by
        rw [List.take_append, hfield, List.take_of_length_le (by omega)]
        congr 2
        omega
      rw [List.range_succ_eq_map, List.map_cons, List.flatMap_cons, hhead,
        asBytes_fromBytes hfield, htake, List.map_map, ← hrest]
      congr 2
      apply List.map_congr_left
      intro i _
      rw [Function.comp_apply, List.append_assoc, List.length_append, hfield]
      congr 2 <;> omega

theorem images_of_decodeMultisig {rest : Bytes} {condition : Condition} {consumed : Nat}
    (hok : decodeMultisig rest = .ok (condition, consumed)) :
    Images (0x01 :: rest) condition consumed := by
  match rest, hok with
  | [], hok => simp [decodeMultisig] at hok
  | [_], hok => simp [decodeMultisig] at hok
  | first :: second :: keys, hok =>
      have hrequired : byteAt (first :: second :: keys) 0 = first.toNat := rfl
      have hcount : byteAt (first :: second :: keys) 1 = second.toNat := rfl
      unfold decodeMultisig at hok
      rw [if_neg (by simp)] at hok
      dsimp only at hok
      rw [hrequired, hcount] at hok
      split at hok
      · contradiction
      · split at hok
        · contradiction
        · split at hok
          · contradiction
          · split at hok
            · contradiction
            case isFalse hlong =>
              have hkeys := flatMap_keys second.toNat [first, second] keys (by
                simp only [List.length_cons] at hlong
                omega)
              cases hok
              constructor
              case starts =>
                refine ⟨keys.drop (second.toNat * 32), ?_⟩
                rw [encodeInner, List.length_map, List.length_range, byte_ofNat_toNat, byte_ofNat_toNat]
                simp only [List.cons_append]
                congr 3
                exact (congrArg (· ++ keys.drop (second.toNat * 32)) hkeys).trans
                  (List.take_append_drop _ _) |>.symm
              case consumed =>
                rw [encodeInner, List.length_cons, List.length_cons, List.length_cons,
                  flatMap_asBytes_length, List.length_map, List.length_range]
                omega

theorem images_of_decodeMany {decode : Decoder}
    (hdecode : ∀ {bytes condition consumed}, decode bytes = .ok (condition, consumed) →
      Images bytes condition consumed)
    {count : Nat} {bytes : Bytes} {conditions : List Condition} {consumed : Nat}
    (hok : decodeMany decode count bytes = .ok (conditions, consumed)) :
    conditions.length = count ∧ consumed = (encodeInners conditions).length ∧
      ∃ tail, bytes = encodeInners conditions ++ tail := by
  induction count generalizing bytes conditions consumed with
  | zero =>
      cases hok
      exact ⟨rfl, rfl, bytes, rfl⟩
  | succ count ih =>
      obtain ⟨⟨first, width⟩, hfirst, hok⟩ := bind_eq_ok.mp hok
      obtain ⟨⟨others, size⟩, hothers, hok⟩ := bind_eq_ok.mp hok
      cases hok
      obtain ⟨⟨tail, htail⟩, hwidth⟩ := hdecode hfirst
      rw [htail, hwidth, List.drop_left] at hothers
      obtain ⟨hcount, hsize, rest, hrest⟩ := ih hothers
      refine ⟨by rw [List.length_cons, hcount], ?_, rest, ?_⟩
      · rw [encodeInners, List.length_append, hwidth, hsize]
      · rw [htail, hrest, encodeInners, List.append_assoc]

theorem images_of_decodeThreshold {decode : Decoder}
    (hdecode : ∀ {bytes condition consumed}, decode bytes = .ok (condition, consumed) →
      Images bytes condition consumed)
    {rest : Bytes} {condition : Condition} {consumed : Nat}
    (hok : decodeThreshold decode rest = .ok (condition, consumed)) :
    Images (0x12 :: rest) condition consumed := by
  match rest, hok with
  | [], hok => simp [decodeThreshold] at hok
  | [_], hok => simp [decodeThreshold] at hok
  | first :: second :: body, hok =>
      have hn : byteAt (first :: second :: body) 0 = first.toNat := rfl
      have hcount : byteAt (first :: second :: body) 1 = second.toNat := rfl
      unfold decodeThreshold at hok
      rw [if_neg (by simp)] at hok
      dsimp only at hok
      rw [hn, hcount] at hok
      split at hok
      · contradiction
      · split at hok
        · contradiction
        · split at hok
          · contradiction
          · obtain ⟨⟨conditions, size⟩, hmany, hok⟩ := bind_eq_ok.mp hok
            cases hok
            obtain ⟨hlength, hsize, tail, htail⟩ := images_of_decodeMany hdecode hmany
            rw [List.drop_succ_cons, List.drop_succ_cons, List.drop_zero] at htail
            constructor
            case starts =>
              refine ⟨tail, ?_⟩
              rw [encodeInner, hlength, byte_ofNat_toNat, byte_ofNat_toNat, htail]
              rfl
            case consumed =>
              rw [encodeInner, List.length_cons, List.length_cons, List.length_cons, ← hsize]
              dsimp only
              omega

theorem images_of_decodeBranches {decode : Decoder}
    (hdecode : ∀ {bytes condition consumed}, decode bytes = .ok (condition, consumed) →
      Images bytes condition consumed)
    {node : Condition → Condition → Condition} {byte : UInt8}
    (himage : ∀ left right,
      (node left right).encodeInner = byte :: (left.encodeInner ++ right.encodeInner))
    {rest : Bytes} {condition : Condition} {consumed : Nat}
    (hok : decodeBranches decode node rest = .ok (condition, consumed)) :
    Images (byte :: rest) condition consumed := by
  obtain ⟨⟨left, leftWidth⟩, hleft, hok⟩ := bind_eq_ok.mp hok
  obtain ⟨⟨right, rightWidth⟩, hright, hok⟩ := bind_eq_ok.mp hok
  cases hok
  obtain ⟨⟨tail, htail⟩, hleftWidth⟩ := hdecode hleft
  rw [htail, hleftWidth, List.drop_left] at hright
  obtain ⟨⟨others, hothers⟩, hrightWidth⟩ := hdecode hright
  constructor
  case starts =>
    refine ⟨others, ?_⟩
    rw [himage, htail, hothers, List.cons_append, List.append_assoc]
  case consumed =>
    rw [himage, List.length_cons, List.length_append]
    omega

theorem images_of_decodeGuard {tag : UInt8} {rest : Bytes} {condition : Condition}
    {consumed : Nat} (hok : decodeGuard tag.toNat rest = .ok (condition, consumed)) :
    Images (tag :: rest) condition consumed := by
  unfold decodeGuard at hok
  split at hok
  case h_1 htag =>
    obtain rfl : tag = 0x13 := UInt8.toNat.inj htag
    split at hok
    · contradiction
    case isFalse hlong =>
      obtain ⟨amount, index, tail, rfl, hamount⟩ :=
        exists_field_byte (by omega : 8 < rest.length)
      rw [slice_append_field hamount, byteAt_append hamount] at hok
      cases hok
      constructor
      case starts =>
        exact ⟨tail, by simp [encodeInner, leBytes_slice hamount]⟩
      case consumed => simp [encodeInner]
  case h_2 htag =>
    obtain rfl : tag = 0x14 := UInt8.toNat.inj htag
    match rest, hok with
    | [], hok => simp at hok
    | [_], hok => simp at hok
    | kind :: index :: tail, hok =>
        have hkind : byteAt (kind :: index :: tail) 0 = kind.toNat := rfl
        have hindex : byteAt (kind :: index :: tail) 1 = index.toNat := rfl
        rw [if_neg (by simp), hkind, hindex] at hok
        split at hok
        · contradiction
        case h_2 expectedType hexpected =>
          cases hok
          have htype := toNat_of_fromU8 (Option.filter_eq_some_iff.mp hexpected).1
          constructor
          case starts =>
            exact ⟨tail, by simp [encodeInner, htype]⟩
          case consumed => rfl
  case h_3 htag =>
    obtain rfl : tag = 0x15 := UInt8.toNat.inj htag
    split at hok
    · contradiction
    case isFalse hlong =>
      obtain ⟨hash, index, tail, rfl, hhash⟩ :=
        exists_field_byte (by omega : 32 < rest.length)
      rw [slice_append_field hhash, byteAt_append hhash] at hok
      cases hok
      constructor
      case starts =>
        exact ⟨tail, by simp [encodeInner, asBytes_fromBytes hhash]⟩
      case consumed => simp [encodeInner]
  case h_4 htag =>
    obtain rfl : tag = 0x16 := UInt8.toNat.inj htag
    split at hok
    · contradiction
    case isFalse hlong =>
      obtain ⟨bps, after, rfl, hbps⟩ := exists_field (by omega : 2 ≤ rest.length)
      rw [List.length_append, hbps] at hlong
      obtain ⟨amount, index, tail, rfl, hamount⟩ :=
        exists_field_byte (by omega : 8 < after.length)
      have hindex := @byteAt_append (bps ++ amount) index tail 10 (by simp [hbps, hamount])
      rw [List.append_assoc] at hindex
      rw [slice_append_field hbps, slice_append_skip (by omega), hbps,
        slice_append_field hamount, hindex] at hok
      cases hok
      constructor
      case starts =>
        refine ⟨tail, ?_⟩
        simp [encodeInner, leBytes_slice hbps, leBytes_slice hamount]
      case consumed => simp [encodeInner]
  case h_5 htag =>
    obtain rfl : tag = 0x17 := UInt8.toNat.inj htag
    split at hok
    · contradiction
    case isFalse hlong =>
      obtain ⟨bps, reserve, after, rfl, hbps⟩ :=
        exists_field_byte (by omega : 2 < rest.length)
      cases after with
      | nil => simp [hbps] at hlong
      | cons debt tail =>
          have hdebt := @byteAt_append (bps ++ [reserve]) debt tail 3 (by simp [hbps])
          rw [List.append_assoc] at hdebt
          change byteAt (bps ++ reserve :: debt :: tail) 3 = _ at hdebt
          rw [slice_append_field hbps, byteAt_append hbps, hdebt] at hok
          cases hok
          constructor
          case starts =>
            exact ⟨tail, by simp [encodeInner, leBytes_slice hbps]⟩
          case consumed => simp [encodeInner]
  case h_6 => contradiction

theorem images_of_decodeInner {levels : Nat} {bytes : Bytes} {condition : Condition}
    {consumed : Nat} (hok : decodeInner levels bytes = .ok (condition, consumed)) :
    Images bytes condition consumed := by
  induction levels generalizing bytes condition consumed with
  | zero => simp [decodeInner] at hok
  | succ levels ih =>
      cases bytes with
      | nil => simp [decodeInner] at hok
      | cons tag rest =>
          unfold decodeInner at hok
          split at hok
          case h_1 htag =>
            obtain rfl : tag = 0x00 := UInt8.toNat.inj htag
            exact images_of_decodeHashAt (fun _ => rfl) hok
          case h_2 htag =>
            obtain rfl : tag = 0x01 := UInt8.toNat.inj htag
            exact images_of_decodeMultisig hok
          case h_3 htag =>
            obtain rfl : tag = 0x02 := UInt8.toNat.inj htag
            exact images_of_decodeHashAt (fun _ => rfl) hok
          case h_4 htag =>
            obtain rfl : tag = 0x03 := UInt8.toNat.inj htag
            exact images_of_decodeHeightAt (fun _ => rfl) hok
          case h_5 htag =>
            obtain rfl : tag = 0x04 := UInt8.toNat.inj htag
            exact images_of_decodeHeightAt (fun _ => rfl) hok
          case h_6 htag =>
            obtain rfl : tag = 0x10 := UInt8.toNat.inj htag
            exact images_of_decodeBranches ih (fun _ _ => rfl) hok
          case h_7 htag =>
            obtain rfl : tag = 0x11 := UInt8.toNat.inj htag
            exact images_of_decodeBranches ih (fun _ _ => rfl) hok
          case h_8 htag =>
            obtain rfl : tag = 0x12 := UInt8.toNat.inj htag
            exact images_of_decodeThreshold ih hok
          case h_9 => exact images_of_decodeGuard hok

/-! ## Round trips -/

theorem encode_ok {condition : Condition} {encoded : Bytes}
    (hok : condition.encode = .ok encoded) :
    condition.validate = .ok () ∧ encoded = 0x01 :: condition.encodeInner := by
  unfold encode at hok
  split at hok
  · contradiction
  case h_2 hvalid =>
    split at hok
    · contradiction
    · cases hok
      exact ⟨hvalid, rfl⟩

theorem decodeInner_of_encode {condition : Condition} {encoded : Bytes}
    (hfits : condition.Fits) (hnamed : condition.NamesNoUnbonding)
    (hok : condition.encode = .ok encoded) (tail : Bytes) :
    decodeInner (maxConditionDepth + 1) (condition.encodeInner ++ tail) =
      .ok (condition, condition.encodeInner.length) := by
  obtain ⟨hvalid, -⟩ := encode_ok hok
  obtain ⟨hshallow, hlimits⟩ := limits_of_validate hvalid
  exact decodeInner_encodeInner ⟨hfits, hnamed, hlimits, hshallow⟩ tail

theorem decode_of_encode {condition : Condition} {encoded : Bytes} (hfits : condition.Fits)
    (hnamed : condition.NamesNoUnbonding) (hok : condition.encode = .ok encoded) :
    decode encoded = .ok condition := by
  have hinner := decodeInner_of_encode hfits hnamed hok []
  obtain ⟨hvalid, rfl⟩ := encode_ok hok
  rw [List.append_nil] at hinner
  have hnone : ¬0 < condition.encodeInner.length - condition.encodeInner.length := by omega
  simp only [decode, hinner, bind, Except.bind, if_neg hnone, hvalid]
  rfl

theorem decodePrefix_of_encode {condition : Condition} {encoded : Bytes}
    (hfits : condition.Fits) (hnamed : condition.NamesNoUnbonding)
    (hok : condition.encode = .ok encoded) (tail : Bytes) :
    decodePrefix (encoded ++ tail) = .ok (condition, encoded.length) := by
  have hinner := decodeInner_of_encode hfits hnamed hok tail
  obtain ⟨hvalid, rfl⟩ := encode_ok hok
  have hlength : (0x01 :: condition.encodeInner).length = 1 + condition.encodeInner.length := by
    rw [List.length_cons, Nat.add_comm]
  rw [hlength, List.cons_append]
  simp only [decodePrefix, hinner, bind, Except.bind, hvalid]
  rfl

theorem encode_of_decode {bytes : Bytes} {condition : Condition}
    (hsize : bytes.length ≤ maxExtraDataSize) (hok : decode bytes = .ok condition) :
    condition.encode = .ok bytes := by
  cases bytes with
  | nil => contradiction
  | cons version body =>
      simp only [decode] at hok
      split at hok
      · contradiction
      case isFalse hversion =>
        obtain ⟨⟨found, consumed⟩, hinner, hok⟩ := bind_eq_ok.mp hok
        split at hok
        · contradiction
        case isFalse hall =>
          obtain ⟨hvalid, hok⟩ := seq_eq_ok.mp hok
          cases hok
          obtain ⟨⟨tail, hbody⟩, hconsumed⟩ := images_of_decodeInner hinner
          rw [hbody, List.length_append] at hall
          have htail : tail = [] := List.length_eq_zero_iff.mp (by omega)
          rw [htail, List.append_nil] at hbody
          have hone : version = UInt8.ofNat conditionVersion :=
            UInt8.toNat.inj (not_not.mp hversion)
          rw [hbody, hone] at hsize
          unfold encode
          rw [hvalid]
          dsimp only
          rw [if_neg (Nat.not_lt.mpr hsize), ← hone, ← hbody]

/-- What `encode` writes is read back, alone and in front of other bytes, and what `decode`
accepts is what `encode` writes: of every tree but one that names Unbonding. -/
theorem condition_codec :
    (∀ (condition : Condition) (encoded : Bytes), condition.Fits →
      condition.NamesNoUnbonding → condition.encode = .ok encoded →
        decode encoded = .ok condition ∧
          ∀ tail, decodePrefix (encoded ++ tail) = .ok (condition, encoded.length)) ∧
      ∀ (bytes : Bytes) (condition : Condition), bytes.length ≤ maxExtraDataSize →
        decode bytes = .ok condition → condition.encode = .ok bytes :=
  ⟨fun _ _ hfits hnamed hok =>
      ⟨decode_of_encode hfits hnamed hok, decodePrefix_of_encode hfits hnamed hok⟩,
    fun _ _ hsize hok => encode_of_decode hsize hok⟩

theorem unbonding_guard_unreadable :
    (outputTypeGuard .unbonding 0).Fits ∧
      (outputTypeGuard .unbonding 0).encode = .ok [0x01, 0x14, 16, 0] ∧
        decode [0x01, 0x14, 16, 0] = .error (.unknownTag 16) :=
  ⟨by unfold Fits; decide, rfl, rfl⟩

/-- A spending limit, or two of three keys after a height. -/
def sampleCondition : Condition :=
  .or (.amountGuard 500 0)
    (.and (.timelock 1000) (.multisig 2 [⟨1⟩, ⟨2⟩, ⟨3⟩]))

theorem condition_codec_sample :
    ∃ encoded, sampleCondition.encode = .ok encoded ∧ decode encoded = .ok sampleCondition := by
  obtain ⟨encoded, hok, -⟩ := @ok_of_any _ _ sampleCondition.encode (fun _ => true)
    (by decide +kernel)
  have hfits : sampleCondition.Fits := by simp [sampleCondition, Fits]
  have hnamed : sampleCondition.NamesNoUnbonding := by
    simp [sampleCondition, NamesNoUnbonding]
  exact ⟨encoded, hok, (condition_codec.1 sampleCondition encoded hfits hnamed hok).1⟩

end Condition

end Doli.Core
