import Mathlib.Data.List.Basic
import Mathlib.Data.Nat.Bitwise
import Mathlib.Tactic.Ring

/-!
# Little-endian byte strings

Fixed-width little-endian encodings of natural numbers and slices of byte
strings, with the round trip a field-by-field record codec needs.
-/

namespace Doli.Lib

abbrev Bytes := List UInt8

def leBytes : Nat → Nat → Bytes
  | 0, _ => []
  | width + 1, n => UInt8.ofNat n :: leBytes width (n / 256)

def leNat : Bytes → Nat
  | [] => 0
  | byte :: bytes => byte.toNat + 256 * leNat bytes

/-- The bytes at the offsets `lo ≤ i < hi`. -/
def slice (bytes : Bytes) (lo hi : Nat) : Bytes :=
  (bytes.drop lo).take (hi - lo)

@[simp] theorem leBytes_length (width n : Nat) :
    (leBytes width n).length = width := by
  induction width generalizing n with
  | zero => rfl
  | succ width ih => simp [leBytes, ih]

theorem leNat_leBytes (width n : Nat) :
    leNat (leBytes width n) = n % 256 ^ width := by
  induction width generalizing n with
  | zero => simp [leBytes, leNat, Nat.mod_one]
  | succ width ih =>
      have hbyte : (UInt8.ofNat n).toNat = n % 256 := by
        simp
      simp only [leBytes, leNat, ih, hbyte]
      rw [pow_succ, Nat.mul_comm (256 ^ width) 256, Nat.mod_mul]

theorem leNat_leBytes_of_lt {width n : Nat} (hlt : n < 256 ^ width) :
    leNat (leBytes width n) = n := by
  rw [leNat_leBytes, Nat.mod_eq_of_lt hlt]

theorem leNat_lt (bytes : Bytes) : leNat bytes < 256 ^ bytes.length := by
  induction bytes with
  | nil => simp [leNat]
  | cons byte bytes ih =>
      have hbyte := byte.toNat_lt
      simp only [leNat, List.length_cons, pow_succ]
      omega

theorem leBytes_leNat (bytes : Bytes) : leBytes bytes.length (leNat bytes) = bytes := by
  induction bytes with
  | nil => rfl
  | cons byte bytes ih =>
      have hbyte : UInt8.ofNat (byte.toNat + 256 * leNat bytes) = byte := by
        apply UInt8.toNat.inj
        simp
      have hrest : (byte.toNat + 256 * leNat bytes) / 256 = leNat bytes := by
        have hlt := byte.toNat_lt
        omega
      rw [leNat, List.length_cons, leBytes, hbyte, hrest, ih]

theorem byte_toNat_ofNat {n : Nat} (hlt : n < 256) : (UInt8.ofNat n).toNat = n := by
  have hbyte : (UInt8.ofNat n).toNat = n % 256 := by simp
  rw [hbyte, Nat.mod_eq_of_lt hlt]

theorem byte_ofNat_toNat (byte : UInt8) : UInt8.ofNat byte.toNat = byte := by
  apply UInt8.toNat.inj
  simp

theorem leBytes_slice {bytes : Bytes} {width : Nat} (hlength : bytes.length = width) :
    leBytes width (leNat bytes) = bytes := by
  subst hlength
  exact leBytes_leNat bytes

/-! ## Reading a concatenation field by field -/

theorem exists_field {bytes : Bytes} {width : Nat} (hlong : width ≤ bytes.length) :
    ∃ field tail, bytes = field ++ tail ∧ field.length = width :=
  ⟨bytes.take width, bytes.drop width, (List.take_append_drop width bytes).symm,
    List.length_take_of_le hlong⟩

theorem exists_field_byte {bytes : Bytes} {width : Nat} (hlong : width < bytes.length) :
    ∃ field byte tail, bytes = field ++ byte :: tail ∧ field.length = width := by
  obtain ⟨field, rest, rfl, hfield⟩ := exists_field hlong.le
  cases rest with
  | nil => simp [hfield] at hlong
  | cons byte tail => exact ⟨field, byte, tail, rfl, hfield⟩

theorem slice_append_skip {front rest : Bytes} {lo hi : Nat}
    (hlo : front.length ≤ lo) :
    slice (front ++ rest) lo hi =
      slice rest (lo - front.length) (hi - front.length) := by
  have hwidth : hi - front.length - (lo - front.length) = hi - lo := by omega
  simp [slice, List.drop_append, List.drop_eq_nil_of_le hlo, hwidth]

theorem slice_cons_skip {byte : UInt8} {rest : Bytes} {lo hi : Nat}
    (hlo : 1 ≤ lo) :
    slice (byte :: rest) lo hi = slice rest (lo - 1) (hi - 1) := by
  have hfront : [byte].length ≤ lo := hlo
  exact slice_append_skip hfront

theorem slice_append_field {field rest : Bytes} {hi : Nat}
    (hhi : field.length = hi) : slice (field ++ rest) 0 hi = field := by
  subst hhi
  simp [slice]

/-!
## Bits in bytes

A byte string as a row of bits: bit `index` is bit `index % 8` of byte `index / 8`.
-/

def bitMask (index : Nat) : UInt8 := 1 <<< UInt8.ofNat (index % 8)

/-- A bit outside the bytes is clear. -/
def hasBit (bytes : Bytes) (index : Nat) : Bool :=
  match bytes[index / 8]? with
  | none => false
  | some byte => byte &&& bitMask index != 0

/-- Outside the bytes there is nothing to set. -/
def setBit (bytes : Bytes) (index : Nat) : Bytes :=
  bytes.modify (index / 8) (· ||| bitMask index)

theorem bitMask_toNat (index : Nat) : (bitMask index).toNat = 2 ^ (index % 8) := by
  have hmask : ∀ k < 8, ((1 : UInt8) <<< UInt8.ofNat k).toNat = 2 ^ k := by decide
  exact hmask _ (Nat.mod_lt _ (by decide))

theorem and_bitMask_ne_zero (byte : UInt8) (index : Nat) :
    (byte &&& bitMask index != 0) = byte.toNat.testBit (index % 8) := by
  have hnat : (byte &&& bitMask index).toNat =
      (byte.toNat.testBit (index % 8)).toNat * 2 ^ (index % 8) := by
    rw [UInt8.toNat_and, bitMask_toNat, Nat.and_two_pow]
  have hzero : (byte &&& bitMask index != 0) =
      ((byte &&& bitMask index).toNat != 0) := by
    rw [Bool.eq_iff_iff, bne_iff_ne, bne_iff_ne, ne_eq, ne_eq, not_iff_not,
      ← UInt8.toNat_inj]
    rfl
  rw [hzero, hnat]
  cases byte.toNat.testBit (index % 8) <;> simp

@[simp] theorem setBit_length (bytes : Bytes) (index : Nat) :
    (setBit bytes index).length = bytes.length := by
  simp [setBit]

theorem hasBit_lt {bytes : Bytes} {index : Nat} (hbit : hasBit bytes index = true) :
    index / 8 < bytes.length := by
  unfold hasBit at hbit
  split at hbit
  · contradiction
  case h_2 byte hbyte => exact (List.getElem?_eq_some_iff.mp hbyte).choose

@[simp] theorem hasBit_setBit (bytes : Bytes) (index other : Nat) :
    hasBit (setBit bytes index) other =
      ((decide (other = index) && decide (index / 8 < bytes.length)) ||
        hasBit bytes other) := by
  unfold hasBit setBit
  rw [List.getElem?_modify]
  by_cases hbyte : index / 8 = other / 8
  · rw [hbyte]
    cases hget : bytes[other / 8]? with
    | none =>
        have hlen := List.getElem?_eq_none_iff.mp hget
        simp [Nat.not_lt.mpr hlen]
    | some byte =>
        have hlen := (List.getElem?_eq_some_iff.mp hget).choose
        have hsame : other = index ↔ index % 8 = other % 8 := by omega
        have hbits : (byte ||| bitMask index).toNat.testBit (other % 8) =
            (byte.toNat.testBit (other % 8) || decide (index % 8 = other % 8)) := by
          rw [UInt8.toNat_or, Nat.testBit_or, bitMask_toNat, Nat.testBit_two_pow]
        simp only [if_true, Option.map_eq_map, Option.map_some, and_bitMask_ne_zero,
          hbits, hlen, hsame, decide_true, Bool.and_true]
        exact Bool.or_comm _ _
  · have hother : other ≠ index := fun heq => hbyte (heq ▸ rfl)
    simp [hbyte, hother]

theorem hasBit_replicate (count index : Nat) :
    hasBit (List.replicate count 0) index = false := by
  unfold hasBit
  rw [List.getElem?_replicate]
  split
  · rfl
  case h_2 byte hbyte =>
    split at hbyte
    · obtain rfl := Option.some.inj hbyte
      simp
    · contradiction

end Doli.Lib
