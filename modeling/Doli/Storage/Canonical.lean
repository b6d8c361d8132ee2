import Doli.Lib.RangeReader
import Doli.Lib.Listing
import Doli.Storage.StateDb
import Mathlib.Data.Prod.Lex

/-!
# The canonical UTXO codec

The image of a store is a count followed by a key and a value for every row,
in ascending order of the keys.  Two readers measure a value: the length rule of
the stream and the parser of the entry.
-/

namespace Doli.Storage

open Doli.Core Doli.Lib

def keyLen : Nat := 36

/-- An entry value without its extra data. -/
def valueBaseLen : Nat := 61

/-! ## Keys and values -/

def Outpoint.toBytes (outpoint : Outpoint) : Bytes :=
  outpoint.txHash.asBytes ++ leBytes 4 outpoint.index

def Outpoint.fromBytes (bytes : Bytes) : Option Outpoint :=
  if bytes.length ≠ keyLen then none
  else some ⟨.fromBytes (slice bytes 0 32), leNat (slice bytes 32 36)⟩

/-- A `u16`, or the marker `0xFFFF` and a `u32`. -/
def extraLenBytes (extraLen : Nat) : Bytes :=
  if 65535 ≤ extraLen then leBytes 2 0xFFFF ++ leBytes 4 extraLen
  else leBytes 2 extraLen

namespace UtxoEntry

/-- The fields of fixed width, in front of the length. -/
def fixedBytes (entry : UtxoEntry) : Bytes :=
  leBytes 1 entry.output.outputType.toNat ++ (leBytes 8 entry.output.amount ++
    (entry.output.pubkeyHash.asBytes ++ (leBytes 8 entry.output.lockUntil ++
      (leBytes 8 entry.height ++ (leBytes 1 entry.isCoinbase.toNat ++
        leBytes 1 entry.isEpochReward.toNat)))))

def serializeCanonicalBytes (entry : UtxoEntry) : Bytes :=
  entry.fixedBytes ++ (extraLenBytes entry.output.extraData.length ++
    entry.output.extraData)

def deserializeCanonicalBytes (bytes : Bytes) : Option UtxoEntry :=
  if bytes.length < 61 then none
  else
    match OutputType.fromU8 (leNat (slice bytes 0 1)) with
    | none => none
    | some outputType =>
        let rawLen := leNat (slice bytes 59 61)
        if rawLen = 0xFFFF ∧ bytes.length < 65 then none
        else
          let extraLen := if rawLen = 0xFFFF then leNat (slice bytes 61 65) else rawLen
          let dataStart := if rawLen = 0xFFFF then 65 else 61
          if 0 < extraLen ∧ bytes.length < dataStart + extraLen then none
          else
            some
              { output :=
                  { outputType := outputType
                    amount := leNat (slice bytes 1 9)
                    pubkeyHash := .fromBytes (slice bytes 9 41)
                    lockUntil := leNat (slice bytes 41 49)
                    extraData := slice bytes dataStart (dataStart + extraLen) }
                height := leNat (slice bytes 49 57)
                isCoinbase := leNat (slice bytes 57 58) ≠ 0
                isEpochReward := leNat (slice bytes 58 59) ≠ 0 }

end UtxoEntry

/-- The length of the value at `pos`, if the bytes hold all of it. -/
def valueLen (bytes : Bytes) (pos : Nat) : Option Nat :=
  if bytes.length < pos + valueBaseLen then none
  else
    let rawLen := leNat (slice bytes (pos + 59) (pos + 61))
    if rawLen = 0xFFFF ∧ bytes.length < pos + 65 then none
    else
      let extraLen :=
        if rawLen = 0xFFFF then leNat (slice bytes (pos + 61) (pos + 65)) else rawLen
      let headerOverhead := if rawLen = 0xFFFF then 65 else valueBaseLen
      let size := headerOverhead + extraLen
      if bytes.length < pos + size then none else some size

/-! ## The image of a store -/

def Outpoint.byteKey (outpoint : Outpoint) : ByteKey := ⟨outpoint.toBytes⟩

/-- The key bytes; a `u32` index leaves no ties. -/
def Outpoint.rank (outpoint : Outpoint) : ByteKey ×ₗ Nat :=
  toLex (outpoint.byteKey, outpoint.index)

def Outpoint.keyLe (left right : Outpoint) : Prop := left.rank ≤ right.rank

instance : DecidableRel Outpoint.keyLe := fun left right =>
  inferInstanceAs (Decidable (left.rank ≤ right.rank))

instance : Std.Total Outpoint.keyLe := ⟨fun left right => le_total left.rank right.rank⟩

instance : IsTrans Outpoint Outpoint.keyLe := ⟨fun _ _ _ => le_trans⟩

theorem Outpoint.txHash_of_toBytes {left right : Outpoint}
    (hbytes : left.toBytes = right.toBytes) : left.txHash = right.txHash :=
  Hash.asBytes_inj (List.append_inj hbytes (by simp)).1

instance : Std.Antisymm Outpoint.keyLe where
  antisymm left right hle hge := by
    have hrank : left.rank = right.rank := le_antisymm hle hge
    obtain ⟨hkey, hindex⟩ := Prod.mk.inj hrank
    have hhash := Outpoint.txHash_of_toBytes (ByteKey.mk.inj hkey)
    cases left
    cases right
    simp_all

/-- The rows of a store, ascending. -/
def canonicalRows (store : UtxoColumn) : List (Outpoint × UtxoEntry) :=
  sortedRows Outpoint.keyLe store

def rowBytes (row : Outpoint × UtxoEntry) : Bytes :=
  row.1.toBytes ++ row.2.serializeCanonicalBytes

/-- The rows as the fold emits them. -/
def emittedRows (store : UtxoColumn) : List (ByteKey × Bytes) :=
  (canonicalRows store).map fun row => (row.1.byteKey, rowBytes row)

def canonicalBody (store : UtxoColumn) : Bytes := rowsImage (emittedRows store)

/-- `UtxoSet::serialize_canonical` -/
def serializeCanonical (store : UtxoColumn) : Bytes :=
  leBytes 8 (canonicalRows store).length ++ canonicalBody store

/-- `UtxoSet::canonical_range` -/
def canonicalRange (store : UtxoColumn) (start : Option ByteKey) (maxBytes : Nat) :
    Bytes × Option ByteKey :=
  readRange (emittedRows store) start maxBytes

inductive CanonicalError where
  | tooShort (length : Nat)
  | truncatedOutpoint (pos length : Nat)
  | invalidOutpoint (pos : Nat)
  | truncatedEntry (pos length : Nat)
  | invalidEntry (pos entrySize : Nat)
  deriving DecidableEq, Repr

/-- The key and the value at `pos`, and where they end. -/
def readEntry (bytes : Bytes) (pos : Nat) :
    Except CanonicalError ((Outpoint × UtxoEntry) × Nat) :=
  if bytes.length < pos + keyLen then .error (.truncatedOutpoint pos bytes.length)
  else
    match Outpoint.fromBytes (slice bytes pos (pos + keyLen)) with
    | none => .error (.invalidOutpoint pos)
    | some outpoint =>
        match valueLen bytes (pos + keyLen) with
        | none => .error (.truncatedEntry (pos + keyLen) bytes.length)
        | some entrySize =>
            match UtxoEntry.deserializeCanonicalBytes
                (slice bytes (pos + keyLen) (pos + keyLen + entrySize)) with
            | none => .error (.invalidEntry (pos + keyLen) entrySize)
            | some entry => .ok ((outpoint, entry), pos + keyLen + entrySize)

def readEntries (bytes : Bytes) :
    Nat → Nat → UtxoColumn → Except CanonicalError UtxoColumn
  | 0, _, store => .ok store
  | count + 1, pos, store =>
      match readEntry bytes pos with
      | .error error => .error error
      | .ok (row, next) => readEntries bytes count next (store.insert row.1 row.2)

/-- `UtxoSet::deserialize_canonical` -/
def deserializeCanonical (bytes : Bytes) : Except CanonicalError UtxoColumn :=
  if bytes.length < 8 then .error (.tooShort bytes.length)
  else readEntries bytes (leNat (slice bytes 0 8)) 8 ∅

/-! ## The entry parser and the length rule -/

/-- The fields fit the types of the source. -/
structure UtxoEntry.Fits (entry : UtxoEntry) : Prop where
  amount : entry.output.amount < 2 ^ 64
  lockUntil : entry.output.lockUntil < 2 ^ 64
  height : entry.height < 2 ^ 64

/-- What a value of the stream declares: the extra length and the header. -/
def declaredLen (value : Bytes) : Nat × Nat :=
  if leNat (slice value 59 61) = 0xFFFF then (leNat (slice value 61 65), 65)
  else (leNat (slice value 59 61), 61)

theorem slice_add (bytes : Bytes) (pos lo hi : Nat) :
    slice bytes (pos + lo) (pos + hi) = slice (bytes.drop pos) lo hi := by
  unfold slice
  rw [List.drop_drop, Nat.add_sub_add_left]

theorem slice_append_left {bytes rest : Bytes} {lo hi : Nat}
    (hhi : hi ≤ bytes.length) : slice (bytes ++ rest) lo hi = slice bytes lo hi := by
  unfold slice
  by_cases hlo : lo ≤ bytes.length
  · rw [List.drop_append_of_le_length hlo, List.take_append_of_le_length]
    rw [List.length_drop]
    omega
  · rw [show hi - lo = 0 by omega]
    simp

theorem valueLen_eq_some_iff {bytes : Bytes} {pos size : Nat} :
    valueLen bytes pos = some size ↔
      61 ≤ (bytes.drop pos).length ∧
        size = (declaredLen (bytes.drop pos)).2 + (declaredLen (bytes.drop pos)).1 ∧
        size ≤ (bytes.drop pos).length := by
  unfold valueLen declaredLen
  simp only [slice_add, List.length_drop, valueBaseLen]
  generalize leNat (slice (bytes.drop pos) 59 61) = rawLen
  generalize leNat (slice (bytes.drop pos) 61 65) = longLen
  by_cases hmarker : rawLen = 0xFFFF
  · simp only [hmarker, true_and, if_true]
    split_ifs <;> simp <;> omega
  · simp only [hmarker, false_and, if_false]
    split_ifs <;> simp <;> omega

theorem valueLen_append {bytes rest : Bytes} {pos size : Nat}
    (hsize : valueLen bytes pos = some size) :
    valueLen (bytes ++ rest) pos = some size := by
  rw [valueLen_eq_some_iff] at hsize ⊢
  obtain ⟨hbase, hdeclared, hfull⟩ := hsize
  have hpos : pos ≤ bytes.length := by
    rw [List.length_drop] at hbase
    omega
  have hsame : declaredLen (bytes.drop pos ++ rest) = declaredLen (bytes.drop pos) := by
    unfold declaredLen at hdeclared ⊢
    rw [slice_append_left hbase]
    split
    case isTrue hmarker =>
      rw [if_pos hmarker] at hdeclared
      rw [slice_append_left (by omega)]
    case isFalse => rfl
  rw [List.drop_append_of_le_length hpos, hsame, List.length_append]
  exact ⟨by omega, hdeclared, by omega⟩

/-- What the parser takes from the bytes of a measured value. -/
def UtxoEntry.ofBytes (value : Bytes) (outputType : OutputType) : UtxoEntry :=
  { output :=
      { outputType := outputType
        amount := leNat (slice value 1 9)
        pubkeyHash := .fromBytes (slice value 9 41)
        lockUntil := leNat (slice value 41 49)
        extraData := slice value (declaredLen value).2
          ((declaredLen value).2 + (declaredLen value).1) }
    height := leNat (slice value 49 57)
    isCoinbase := leNat (slice value 57 58) ≠ 0
    isEpochReward := leNat (slice value 58 59) ≠ 0 }

theorem deserializeCanonicalBytes_eq (value : Bytes) :
    UtxoEntry.deserializeCanonicalBytes value = (valueLen value 0).bind fun _ =>
      (OutputType.fromU8 (leNat (slice value 0 1))).map (UtxoEntry.ofBytes value) := by
  unfold UtxoEntry.deserializeCanonicalBytes valueLen UtxoEntry.ofBytes declaredLen
  simp only [Nat.zero_add, valueBaseLen]
  generalize leNat (slice value 59 61) = rawLen
  generalize leNat (slice value 61 65) = longLen
  cases OutputType.fromU8 (leNat (slice value 0 1)) with
  | none => split_ifs <;> simp
  | some outputType =>
      by_cases hmarker : rawLen = 0xFFFF
      · simp only [hmarker, true_and, if_true]
        split_ifs <;> first | rfl | omega
      · simp only [hmarker, false_and, if_false]
        split_ifs <;> first | rfl | omega

/-! ## An encoded entry -/

/-- The length a value announces; the `u32` wraps. -/
def wireLen (extraLen : Nat) : Nat := if 65535 ≤ extraLen then extraLen % 2 ^ 32 else extraLen

def headerLen (extraLen : Nat) : Nat := if 65535 ≤ extraLen then 65 else 61

theorem UtxoEntry.serializeCanonicalBytes_length (entry : UtxoEntry) :
    entry.serializeCanonicalBytes.length =
      headerLen entry.output.extraData.length + entry.output.extraData.length := by
  unfold UtxoEntry.serializeCanonicalBytes extraLenBytes headerLen
  split_ifs <;> simp [UtxoEntry.fixedBytes] <;> omega

theorem declaredLen_serializeCanonicalBytes (entry : UtxoEntry) (rest : Bytes) :
    declaredLen (entry.serializeCanonicalBytes ++ rest) =
      (wireLen entry.output.extraData.length, headerLen entry.output.extraData.length) := by
  have hfixed : entry.fixedBytes.length = 59 := by simp [UtxoEntry.fixedBytes]
  unfold UtxoEntry.serializeCanonicalBytes declaredLen wireLen headerLen extraLenBytes
  by_cases hlong : 65535 ≤ entry.output.extraData.length
  · simp (disch := simp [hfixed]) only [hlong, if_true, List.append_assoc, slice_append_skip,
      slice_append_field, hfixed, leBytes_length, Nat.reduceSub, leNat_leBytes]
    simp
  · have hshort : entry.output.extraData.length % 256 ^ 2 = entry.output.extraData.length :=
      Nat.mod_eq_of_lt (by omega)
    simp (disch := simp [hfixed]) only [hlong, if_false, List.append_assoc, slice_append_skip,
      slice_append_field, hfixed, leBytes_length, Nat.reduceSub, leNat_leBytes, hshort]
    rw [if_neg (by omega)]

theorem wireLen_le (extraLen : Nat) : wireLen extraLen ≤ extraLen := by
  unfold wireLen
  split
  · exact Nat.mod_le _ _
  · exact le_refl _

theorem wireLen_of_lt {extraLen : Nat} (hlt : extraLen < 2 ^ 32) : wireLen extraLen = extraLen := by
  unfold wireLen
  split
  · exact Nat.mod_eq_of_lt hlt
  · rfl

theorem valueLen_serializeCanonicalBytes (front : Bytes) (entry : UtxoEntry) (rest : Bytes) :
    valueLen (front ++ (entry.serializeCanonicalBytes ++ rest)) front.length =
      some (headerLen entry.output.extraData.length +
        wireLen entry.output.extraData.length) := by
  rw [valueLen_eq_some_iff, List.drop_left, declaredLen_serializeCanonicalBytes,
    List.length_append, UtxoEntry.serializeCanonicalBytes_length]
  have hle := wireLen_le entry.output.extraData.length
  have hheader : 61 ≤ headerLen entry.output.extraData.length := by
    unfold headerLen
    split <;> omega
  exact ⟨by omega, rfl, by omega⟩

theorem slice_extraData (entry : UtxoEntry) (rest : Bytes) (count : Nat) :
    slice (entry.serializeCanonicalBytes ++ rest) (headerLen entry.output.extraData.length)
        (headerLen entry.output.extraData.length + count) =
      (entry.output.extraData ++ rest).take count := by
  have hheader : (entry.fixedBytes ++ extraLenBytes entry.output.extraData.length).length =
      headerLen entry.output.extraData.length := by
    unfold extraLenBytes headerLen
    split <;> simp [UtxoEntry.fixedBytes]
  rw [← hheader, UtxoEntry.serializeCanonicalBytes, ← List.append_assoc, List.append_assoc,
    slice_append_skip (le_refl _)]
  simp [slice]

theorem deserializeCanonicalBytes_append {entry : UtxoEntry} (hfits : entry.Fits)
    (rest : Bytes) :
    UtxoEntry.deserializeCanonicalBytes (entry.serializeCanonicalBytes ++ rest) =
      some { entry with output := { entry.output with
        extraData := (entry.output.extraData ++ rest).take
          (wireLen entry.output.extraData.length) } } := by
  obtain ⟨hamount, hlock, hheight⟩ := hfits
  have hmeasure := valueLen_serializeCanonicalBytes [] entry rest
  rw [List.nil_append, List.length_nil] at hmeasure
  rw [deserializeCanonicalBytes_eq, hmeasure, Option.bind_some]
  unfold UtxoEntry.ofBytes
  rw [declaredLen_serializeCanonicalBytes, slice_extraData]
  have htype : leNat (leBytes 1 entry.output.outputType.toNat) =
      entry.output.outputType.toNat := by
    cases entry.output.outputType <;> rfl
  have hbool : ∀ flag : Bool, decide (leNat (leBytes 1 flag.toNat) ≠ 0) = flag := by decide
  have hword : ∀ {word : Nat}, word < 2 ^ 64 → leNat (leBytes 8 word) = word :=
    fun hlt => leNat_leBytes_of_lt (by simpa using hlt)
  unfold UtxoEntry.serializeCanonicalBytes UtxoEntry.fixedBytes
  simp (disch := simp) only [List.append_assoc, slice_append_skip, slice_append_field,
    Hash.asBytes_length, leBytes_length, Hash.fromBytes_asBytes, Nat.reduceSub, Nat.sub_self,
    htype, hbool, hword hamount, hword hlock, hword hheight, OutputType.fromU8_toNat, Option.map_some]

/-! ## The two readers agree -/

theorem slice_take {bytes : Bytes} {size lo hi : Nat} (hhi : hi ≤ size) :
    slice (bytes.take size) lo hi = slice bytes lo hi := by
  unfold slice
  rw [List.drop_take, List.take_take, Nat.min_eq_left (by omega)]

theorem valueLen_drop (bytes : Bytes) (pos : Nat) :
    valueLen bytes pos = valueLen (bytes.drop pos) 0 := by
  refine Option.ext fun size => ?_
  rw [valueLen_eq_some_iff, valueLen_eq_some_iff, List.drop_zero]

theorem valueLen_take {value : Bytes} {size : Nat} (hsize : valueLen value 0 = some size) :
    valueLen (value.take size) 0 = some size ∧
      declaredLen (value.take size) = declaredLen value := by
  have hmeasure := valueLen_eq_some_iff.mp hsize
  rw [List.drop_zero] at hmeasure
  obtain ⟨hbase, hdeclared, hfull⟩ := hmeasure
  have hsame : declaredLen (value.take size) = declaredLen value := by
    unfold declaredLen at hdeclared ⊢
    split at hdeclared
    case isTrue hmarker =>
      rw [slice_take (by omega), slice_take (by omega)]
    case isFalse hmarker =>
      rw [slice_take (by omega), if_neg hmarker, if_neg hmarker]
  have hheader : 61 ≤ (declaredLen value).2 := by
    unfold declaredLen
    split <;> simp
  refine ⟨?_, hsame⟩
  rw [valueLen_eq_some_iff, List.drop_zero, hsame, List.length_take, Nat.min_eq_left hfull]
  exact ⟨by omega, hdeclared, le_refl _⟩

/-- On any bytes, the parser reads the value that the length rule cuts out, and
nothing where the rule finds no value. -/
theorem deserializeCanonicalBytes_drop (bytes : Bytes) (pos : Nat) :
    UtxoEntry.deserializeCanonicalBytes (bytes.drop pos) =
      (valueLen bytes pos).bind fun size =>
        UtxoEntry.deserializeCanonicalBytes (slice bytes pos (pos + size)) := by
  rw [deserializeCanonicalBytes_eq, valueLen_drop bytes pos]
  cases hsize : valueLen (bytes.drop pos) 0 with
  | none => rfl
  | some size =>
      have hcut : slice bytes pos (pos + size) = (bytes.drop pos).take size := by
        unfold slice
        rw [Nat.add_sub_cancel_left]
      obtain ⟨htake, hsame⟩ := valueLen_take hsize
      have hdeclared := (valueLen_eq_some_iff.mp hsize).2.1
      have hheader : 61 ≤ (declaredLen (bytes.drop pos)).2 := by
        unfold declaredLen
        split <;> simp
      rw [List.drop_zero] at hdeclared
      rw [Option.bind_some, Option.bind_some, hcut, deserializeCanonicalBytes_eq, htake,
        Option.bind_some, slice_take (by omega)]
      refine congrArg (fun parse => Option.map parse _) (funext fun outputType => ?_)
      unfold UtxoEntry.ofBytes
      rw [hsame]
      simp (disch := omega) only [slice_take]

end Doli.Storage
