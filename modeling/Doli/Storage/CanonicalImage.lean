import Doli.Storage.Canonical

/-!
# The image of a UTXO store

A store comes back from its image, a proper part of the image is refused, and
the chunks of the body are the body.
-/

namespace Doli.Storage

open Doli.Core Doli.Lib

/-- The store fits the types of the source. -/
structure StoreFits (store : UtxoColumn) : Prop where
  count : store.keys.card < 2 ^ 64
  index : ∀ {outpoint entry}, store.lookup outpoint = some entry → outpoint.index < 2 ^ 32
  entry : ∀ {outpoint entry}, store.lookup outpoint = some entry → entry.Fits

/-! ## The rows -/

theorem Outpoint.fromBytes_append {outpoint : Outpoint} (hindex : outpoint.index < 2 ^ 32) :
    Outpoint.fromBytes outpoint.toBytes = some outpoint := by
  have hword : leNat (leBytes 4 outpoint.index) = outpoint.index :=
    leNat_leBytes_of_lt (by simpa using hindex)
  unfold Outpoint.fromBytes Outpoint.toBytes
  rw [slice_append_field (by simp), slice_append_skip (by simp)]
  simp [keyLen, slice, List.take_of_length_le, hword]

theorem Outpoint.byteKey_injective {left right : Outpoint} (hleft : left.index < 2 ^ 32)
    (hright : right.index < 2 ^ 32) (hkey : left.byteKey = right.byteKey) : left = right := by
  have hbytes : left.toBytes = right.toBytes := ByteKey.mk.inj hkey
  have hparse := Outpoint.fromBytes_append hleft
  rw [hbytes, Outpoint.fromBytes_append hright] at hparse
  exact (Option.some.inj hparse).symm

theorem pairwise_emittedRows {store : UtxoColumn} (hfits : StoreFits store) :
    (emittedRows store).Pairwise fun left right => left.1 < right.1 := by
  have hsorted := (pairwise_listing Outpoint.keyLe store.keys).and
    (nodup_listing Outpoint.keyLe store.keys)
  rw [← sortedRows_keys, List.pairwise_map] at hsorted
  unfold emittedRows
  rw [List.pairwise_map]
  refine hsorted.imp_of_mem fun {left right} hleft hright hboth => ?_
  have hle : left.1.byteKey ≤ right.1.byteKey := by
    rcases Prod.Lex.toLex_le_toLex.mp hboth.1 with hlt | ⟨heq, -⟩
    · exact hlt.le
    · exact heq.le
  refine lt_of_le_of_ne hle fun hkey => hboth.2 ?_
  exact Outpoint.byteKey_injective (hfits.index ((mem_sortedRows _).mp hleft))
    (hfits.index ((mem_sortedRows _).mp hright)) hkey

/-! ## Reading rows back -/

theorem slice_left (front field rest : Bytes) :
    slice (front ++ (field ++ rest)) front.length (front.length + field.length) = field := by
  rw [slice_append_skip (le_refl _)]
  simp [slice]

/-- The row fits, and its extra data fits the length field. -/
structure RowFits (row : Outpoint × UtxoEntry) : Prop where
  index : row.1.index < 2 ^ 32
  entry : row.2.Fits
  extra : row.2.output.extraData.length < 2 ^ 32

def rowsBytes (rows : List (Outpoint × UtxoEntry)) : Bytes := (rows.map rowBytes).flatten

theorem canonicalBody_eq (store : UtxoColumn) :
    canonicalBody store = rowsBytes (canonicalRows store) := by
  unfold canonicalBody rowsBytes rowsImage emittedRows
  rw [List.map_map]
  rfl

theorem valueLen_entry {entry : UtxoEntry} (hextra : entry.output.extraData.length < 2 ^ 32)
    (front rest : Bytes) :
    valueLen (front ++ (entry.serializeCanonicalBytes ++ rest)) front.length =
      some entry.serializeCanonicalBytes.length := by
  rw [valueLen_serializeCanonicalBytes, wireLen_of_lt hextra,
    UtxoEntry.serializeCanonicalBytes_length]

theorem deserializeCanonicalBytes_entry {entry : UtxoEntry} (hentry : entry.Fits)
    (hextra : entry.output.extraData.length < 2 ^ 32) :
    UtxoEntry.deserializeCanonicalBytes entry.serializeCanonicalBytes = some entry := by
  have hparse := deserializeCanonicalBytes_append hentry []
  rw [List.append_nil, List.append_nil, wireLen_of_lt hextra, List.take_length] at hparse
  exact hparse

theorem readEntry_wire {row : Outpoint × UtxoEntry} (hindex : row.1.index < 2 ^ 32)
    (hentry : row.2.Fits) (front rest : Bytes) :
    readEntry (front ++ (rowBytes row ++ rest)) front.length =
      .ok ((row.1, { row.2 with output := { row.2.output with
          extraData := (row.2.output.extraData ++ rest).take
            (wireLen row.2.output.extraData.length) } }),
        front.length + keyLen + (headerLen row.2.output.extraData.length +
          wireLen row.2.output.extraData.length)) := by
  have hkey : row.1.toBytes.length = keyLen := by simp [Outpoint.toBytes, keyLen]
  have hsplit : front ++ (rowBytes row ++ rest) =
      (front ++ row.1.toBytes) ++ (row.2.serializeCanonicalBytes ++ rest) := by
    simp [rowBytes, List.append_assoc]
  have hvalue : front.length + keyLen = (front ++ row.1.toBytes).length := by
    rw [List.length_append, hkey]
  have houtpoint : slice (front ++ (rowBytes row ++ rest)) front.length
      (front.length + keyLen) = row.1.toBytes := by
    rw [← hkey, rowBytes, List.append_assoc, slice_left]
  have hsize := valueLen_serializeCanonicalBytes (front ++ row.1.toBytes) row.2 rest
  have hparse := deserializeCanonicalBytes_drop
    ((front ++ row.1.toBytes) ++ (row.2.serializeCanonicalBytes ++ rest))
    (front ++ row.1.toBytes).length
  rw [List.drop_left, hsize, Option.bind_some, deserializeCanonicalBytes_append hentry] at hparse
  unfold readEntry
  rw [if_neg, houtpoint, Outpoint.fromBytes_append hindex]
  · dsimp only
    rw [hvalue, hsplit, hsize]
    dsimp only
    rw [← hparse]
  · rw [hvalue, hsplit, @List.length_append _ (front ++ row.1.toBytes)]
    omega

theorem readEntry_row {row : Outpoint × UtxoEntry} (hrow : RowFits row) (front rest : Bytes) :
    readEntry (front ++ (rowBytes row ++ rest)) front.length =
      .ok (row, front.length + (rowBytes row).length) := by
  have hlength : (rowBytes row).length = keyLen +
      (headerLen row.2.output.extraData.length + row.2.output.extraData.length) := by
    rw [rowBytes, List.length_append, UtxoEntry.serializeCanonicalBytes_length]
    simp [Outpoint.toBytes, keyLen]
  rw [readEntry_wire hrow.index hrow.entry, wireLen_of_lt hrow.extra, List.take_left, hlength,
    Nat.add_assoc]

theorem readEntries_row {row : Outpoint × UtxoEntry} (hrow : RowFits row)
    (front rest : Bytes) (count : Nat) (store : UtxoColumn) :
    readEntries (front ++ (rowBytes row ++ rest)) (count + 1) front.length store =
      readEntries (front ++ (rowBytes row ++ rest)) count
        (front.length + (rowBytes row).length) (store.insert row.1 row.2) := by
  rw [readEntries, readEntry_row hrow]

theorem readEntries_rows (rows : List (Outpoint × UtxoEntry)) (front rest : Bytes)
    (store : UtxoColumn) (hrows : ∀ row ∈ rows, RowFits row) :
    readEntries (front ++ (rowsBytes rows ++ rest)) rows.length front.length store =
      .ok (Journal.insertAll rows store) := by
  induction rows generalizing front store with
  | nil => rfl
  | cons row rows ih =>
      have hsplit : rowsBytes (row :: rows) ++ rest = rowBytes row ++ (rowsBytes rows ++ rest) := by
        simp [rowsBytes, List.append_assoc]
      have hrest := ih (front ++ rowBytes row) (store.insert row.1 row.2)
        fun other hother => hrows other (List.mem_cons_of_mem _ hother)
      rw [List.append_assoc, List.length_append] at hrest
      rw [hsplit, List.length_cons, readEntries_row (hrows row List.mem_cons_self), hrest]
      rfl

/-! ## A proper part is refused -/

theorem readEntry_short {row : Outpoint × UtxoEntry} (hrow : RowFits row)
    {front bytes rest : Bytes} (hpart : bytes <+: rowBytes row ++ rest)
    (hshort : bytes.length < (rowBytes row).length) :
    ∃ error, readEntry (front ++ bytes) front.length = .error error := by
  have hkey : row.1.toBytes.length = keyLen := by simp [Outpoint.toBytes, keyLen]
  unfold readEntry
  split
  case isTrue => exact ⟨_, rfl⟩
  case isFalse hlong =>
    cases Outpoint.fromBytes (slice (front ++ bytes) front.length (front.length + keyLen)) with
    | none => exact ⟨_, rfl⟩
    | some outpoint =>
        cases hsize : valueLen (front ++ bytes) (front.length + keyLen) with
        | none => exact ⟨_, rfl⟩
        | some size =>
            obtain ⟨tail, htail⟩ := hpart
            have hfull := @valueLen_append _ tail _ _ hsize
            have hsplit : front ++ bytes ++ tail =
                (front ++ row.1.toBytes) ++ (row.2.serializeCanonicalBytes ++ rest) := by
              rw [List.append_assoc, htail]
              simp [rowBytes, List.append_assoc]
            have hvalue : front.length + keyLen = (front ++ row.1.toBytes).length := by
              rw [List.length_append, hkey]
            rw [hsplit, hvalue, valueLen_entry hrow.extra] at hfull
            have hheld := (valueLen_eq_some_iff.mp hsize).2.2
            have hlength := Option.some.inj hfull
            rw [rowBytes, List.length_append, hkey] at hshort
            rw [List.length_append] at hlong
            rw [List.length_drop, List.length_append] at hheld
            omega

theorem readEntries_short (rows : List (Outpoint × UtxoEntry)) (front bytes : Bytes)
    (store : UtxoColumn) (hrows : ∀ row ∈ rows, RowFits row)
    (hpart : front ++ bytes <+: front ++ rowsBytes rows)
    (hshort : bytes.length < (rowsBytes rows).length) :
    ∃ error, readEntries (front ++ bytes) rows.length front.length store = .error error := by
  induction rows generalizing front bytes store with
  | nil => simp [rowsBytes] at hshort
  | cons row rows ih =>
      have hrow := hrows row List.mem_cons_self
      have hkey : row.1.toBytes.length = keyLen := by simp [Outpoint.toBytes, keyLen]
      rw [List.prefix_append_right_inj] at hpart
      have hcons : rowsBytes (row :: rows) = rowBytes row ++ rowsBytes rows := by
        simp [rowsBytes]
      rw [hcons] at hpart hshort
      by_cases hwhole : (rowBytes row).length ≤ bytes.length
      · obtain ⟨tail, rfl⟩ : rowBytes row <+: bytes :=
          List.prefix_of_prefix_length_le (List.prefix_append _ _) hpart hwhole
        rw [List.prefix_append_right_inj] at hpart
        rw [List.length_cons, readEntries_row hrow]
        rw [List.length_append, List.length_append] at hshort
        have hrest := ih (front ++ rowBytes row) tail (store.insert row.1 row.2)
          (fun other hother => hrows other (List.mem_cons_of_mem _ hother))
          (by rwa [List.prefix_append_right_inj]) (by omega)
        rw [List.append_assoc, List.length_append] at hrest
        exact hrest
      · obtain ⟨error, herror⟩ := @readEntry_short row hrow front bytes _ hpart (by omega)
        rw [List.length_cons, readEntries, herror]
        exact ⟨error, rfl⟩

/-! ## The codec -/

theorem serializeCanonical_eq (store : UtxoColumn) :
    serializeCanonical store =
      leBytes 8 (canonicalRows store).length ++ rowsBytes (canonicalRows store) := by
  rw [serializeCanonical, canonicalBody_eq]

theorem rowFits_of_mem {store : UtxoColumn} (hfits : StoreFits store)
    (hextra : ∀ {outpoint entry}, store.lookup outpoint = some entry →
      entry.output.extraData.length < 2 ^ 32) :
    ∀ row ∈ canonicalRows store, RowFits row := by
  intro row hrow
  have hlookup := (mem_sortedRows _).mp hrow
  exact ⟨hfits.index hlookup, hfits.entry hlookup, hextra hlookup⟩

theorem leNat_count {store : UtxoColumn} (hfits : StoreFits store) (rest : Bytes) :
    leNat (slice (leBytes 8 (canonicalRows store).length ++ rest) 0 8) =
      (canonicalRows store).length := by
  rw [slice_append_field (by simp)]
  apply leNat_leBytes_of_lt
  rw [canonicalRows, sortedRows_length]
  simpa using hfits.count

theorem deserializeCanonical_serializeCanonical {store : UtxoColumn} (hfits : StoreFits store)
    (hrows : ∀ row ∈ canonicalRows store, RowFits row) :
    deserializeCanonical (serializeCanonical store) = .ok store := by
  have hread := readEntries_rows (canonicalRows store)
    (leBytes 8 (canonicalRows store).length) [] ∅ hrows
  have hback : Journal.insertAll (canonicalRows store) ∅ = store := insertAll_sortedRows _ store
  rw [List.append_nil, leBytes_length, hback] at hread
  rw [serializeCanonical_eq, deserializeCanonical, if_neg (by simp), leNat_count hfits, hread]

theorem deserializeCanonical_part {store : UtxoColumn} (hfits : StoreFits store)
    (hrows : ∀ row ∈ canonicalRows store, RowFits row) {bytes : Bytes}
    (hpart : bytes <+: serializeCanonical store) (hproper : bytes ≠ serializeCanonical store) :
    ∃ error, deserializeCanonical bytes = .error error := by
  rw [serializeCanonical_eq] at hpart hproper
  unfold deserializeCanonical
  split
  case isTrue => exact ⟨_, rfl⟩
  case isFalse hlong =>
    obtain ⟨tail, rfl⟩ : leBytes 8 (canonicalRows store).length <+: bytes := by
      refine List.prefix_of_prefix_length_le (List.prefix_append _ _) hpart ?_
      rw [leBytes_length]
      omega
    have hshort : tail.length < (rowsBytes (canonicalRows store)).length := by
      have hlength := hpart.length_le
      have hne : tail.length ≠ (rowsBytes (canonicalRows store)).length := fun heq =>
        hproper (hpart.eq_of_length (by simp [heq]))
      rw [List.length_append, List.length_append] at hlength
      omega
    rw [leNat_count hfits]
    have hread := readEntries_short (canonicalRows store) _ tail ∅ hrows hpart hshort
    rwa [leBytes_length] at hread

/-! ## What a decoded store fits -/

theorem leNat_slice_lt (bytes : Bytes) (lo width : Nat) :
    leNat (slice bytes lo (lo + width)) < 256 ^ width := by
  refine (leNat_lt _).trans_le (Nat.pow_le_pow_right (by norm_num) ?_)
  unfold slice
  rw [List.length_take, Nat.add_sub_cancel_left]
  exact Nat.min_le_left _ _

theorem declaredLen_lt (value : Bytes) : (declaredLen value).1 < 2 ^ 32 := by
  unfold declaredLen
  split
  · exact (leNat_slice_lt value 61 4).trans_le (by norm_num)
  · exact (leNat_slice_lt value 59 2).trans (by decide)

theorem fits_ofBytes (value : Bytes) (outputType : OutputType) :
    (UtxoEntry.ofBytes value outputType).Fits where
  amount := (leNat_slice_lt value 1 8).trans_le (by norm_num)
  lockUntil := (leNat_slice_lt value 41 8).trans_le (by norm_num)
  height := (leNat_slice_lt value 49 8).trans_le (by norm_num)

theorem extraData_ofBytes_lt (value : Bytes) (outputType : OutputType) :
    (UtxoEntry.ofBytes value outputType).output.extraData.length < 2 ^ 32 := by
  refine lt_of_le_of_lt ?_ (declaredLen_lt value)
  simp only [UtxoEntry.ofBytes, slice, List.length_take]
  omega

theorem rowFits_of_readEntry {bytes : Bytes} {pos next : Nat} {row : Outpoint × UtxoEntry}
    (hread : readEntry bytes pos = .ok (row, next)) : RowFits row := by
  unfold readEntry at hread
  split at hread
  case isTrue => simp at hread
  case isFalse =>
    cases hkey : Outpoint.fromBytes (slice bytes pos (pos + keyLen)) with
    | none => simp [hkey] at hread
    | some outpoint =>
        cases hsize : valueLen bytes (pos + keyLen) with
        | none => simp [hkey, hsize] at hread
        | some size =>
            cases hparse : UtxoEntry.deserializeCanonicalBytes
                (slice bytes (pos + keyLen) (pos + keyLen + size)) with
            | none => simp [hkey, hsize, hparse] at hread
            | some entry =>
                simp only [hkey, hsize, hparse, Except.ok.injEq, Prod.mk.injEq] at hread
                obtain ⟨rfl, -⟩ := hread
                unfold Outpoint.fromBytes at hkey
                split at hkey
                case isTrue => simp at hkey
                case isFalse =>
                  rw [deserializeCanonicalBytes_eq, Option.bind_eq_some_iff] at hparse
                  obtain ⟨_, -, hparse⟩ := hparse
                  rw [Option.map_eq_some_iff] at hparse
                  obtain ⟨outputType, -, rfl⟩ := hparse
                  rw [← Option.some.inj hkey]
                  exact ⟨(leNat_slice_lt _ 32 4).trans_le (by norm_num), fits_ofBytes _ _,
                    extraData_ofBytes_lt _ _⟩

theorem readEntries_fits {bytes : Bytes} {count pos : Nat} {store final : UtxoColumn}
    (hread : readEntries bytes count pos store = .ok final) :
    final.keys.card ≤ store.keys.card + count ∧
      ∀ outpoint entry, final.lookup outpoint = some entry →
        RowFits (outpoint, entry) ∨ store.lookup outpoint = some entry := by
  induction count generalizing pos store with
  | zero =>
      obtain rfl : store = final := Except.ok.inj hread
      exact ⟨le_refl _, fun _ _ => .inr⟩
  | succ count ih =>
      rw [readEntries] at hread
      cases hentry : readEntry bytes pos with
      | error error => simp [hentry] at hread
      | ok read =>
          obtain ⟨row, next⟩ := read
          rw [hentry] at hread
          obtain ⟨hcard, hrows⟩ := ih hread
          have hgrow : (store.insert row.1 row.2).keys.card ≤ store.keys.card + 1 := by
            have hsub : (store.insert row.1 row.2).keys ⊆ insert row.1 store.keys := by
              intro key hkey
              rw [Finmap.mem_keys, Finmap.mem_insert] at hkey
              rwa [Finset.mem_insert, Finmap.mem_keys]
            exact (Finset.card_le_card hsub).trans (Finset.card_insert_le _ _)
          refine ⟨by omega, fun outpoint entry hlookup => ?_⟩
          rcases hrows outpoint entry hlookup with hfits | hother
          · exact .inl hfits
          · by_cases hkey : outpoint = row.1
            · subst hkey
              rw [Finmap.lookup_insert] at hother
              obtain rfl := Option.some.inj hother
              exact .inl (rowFits_of_readEntry hentry)
            · rw [Finmap.lookup_insert_of_ne _ hkey] at hother
              exact .inr hother

theorem fits_of_deserializeCanonical {bytes : Bytes} {store : UtxoColumn}
    (hread : deserializeCanonical bytes = .ok store) :
    StoreFits store ∧ ∀ row ∈ canonicalRows store, RowFits row := by
  unfold deserializeCanonical at hread
  split at hread
  case isTrue => simp at hread
  case isFalse hlong =>
    obtain ⟨hcard, hrows⟩ := readEntries_fits hread
    have hfits : ∀ {outpoint entry}, store.lookup outpoint = some entry →
        RowFits (outpoint, entry) := by
      intro outpoint entry hlookup
      rcases hrows outpoint entry hlookup with hfits | hother
      · exact hfits
      · simp at hother
    have hcount := leNat_slice_lt bytes 0 8
    refine ⟨⟨?_, fun hlookup => (hfits hlookup).index, fun hlookup => (hfits hlookup).entry⟩,
      fun row hrow => hfits ((mem_sortedRows _).mp hrow)⟩
    simp only [Finmap.keys_empty, Finset.card_empty, Nat.zero_add] at hcard hcount
    exact lt_of_le_of_lt hcard (hcount.trans_le (by norm_num))

theorem serializeCanonical_inj {first second : UtxoColumn} (hfirst : StoreFits first)
    (hfirstRows : ∀ row ∈ canonicalRows first, RowFits row) (hsecond : StoreFits second)
    (hsecondRows : ∀ row ∈ canonicalRows second, RowFits row)
    (himage : serializeCanonical first = serializeCanonical second) : first = second := by
  have hread := deserializeCanonical_serializeCanonical hfirst hfirstRows
  rw [himage, deserializeCanonical_serializeCanonical hsecond hsecondRows] at hread
  exact (Except.ok.inj hread).symm

/-! ## The chunks -/

theorem emittedRows_ne_nil {store : UtxoColumn} (hrows : canonicalRows store ≠ []) :
    rowsFrom (emittedRows store) none ≠ [] := by
  rw [rowsFrom_none]
  unfold emittedRows
  simpa using hrows

theorem canonicalRange_follows {store : UtxoColumn} (hfits : StoreFits store)
    {budgets : List Nat} {chunks : List Bytes}
    (hfollows : Follows (canonicalRange store) none budgets chunks) :
    chunks.flatten = canonicalBody store ∧
      (canonicalRows store ≠ [] → ∀ chunk ∈ chunks, chunk ≠ []) := by
  have hsorted := pairwise_emittedRows hfits
  have hbytes : ∀ row ∈ emittedRows store, row.2 ≠ [] := by
    intro row hrow
    obtain ⟨source, -, rfl⟩ := List.mem_map.mp hrow
    apply List.ne_nil_of_length_pos
    simp [rowBytes, Outpoint.toBytes]
  refine ⟨?_, fun hrows => ?_⟩
  · rw [Follows.flatten hsorted hfollows, rowsFrom_none, canonicalBody]
  · exact Follows.progress hsorted hbytes hfollows (emittedRows_ne_nil hrows)

/-- A store whose extra data fit the length field comes back from its image, and
from no proper part of it.  The length rule cuts out what the parser reads.  The
chunks of any budgets come to an end, none is empty, and together they are the
body. -/
theorem canonical_codec {store : UtxoColumn} (hfits : StoreFits store)
    (hextra : ∀ {outpoint entry}, store.lookup outpoint = some entry →
      entry.output.extraData.length < 2 ^ 32) :
    deserializeCanonical (serializeCanonical store) = .ok store ∧
      (∀ (front rest : Bytes) (entry : UtxoEntry), entry.Fits →
        entry.output.extraData.length < 2 ^ 32 →
          valueLen (front ++ (entry.serializeCanonicalBytes ++ rest)) front.length =
              some entry.serializeCanonicalBytes.length ∧
            UtxoEntry.deserializeCanonicalBytes entry.serializeCanonicalBytes = some entry) ∧
      (∀ bytes pos, UtxoEntry.deserializeCanonicalBytes (bytes.drop pos) =
        (valueLen bytes pos).bind fun size =>
          UtxoEntry.deserializeCanonicalBytes (slice bytes pos (pos + size))) ∧
      (∀ bytes, bytes <+: serializeCanonical store → bytes ≠ serializeCanonical store →
        ∃ error, deserializeCanonical bytes = .error error) ∧
      (∀ budget : Nat → Nat, ∃ count chunks,
        Follows (canonicalRange store) none ((List.range count).map budget) chunks) ∧
      (∀ budgets chunks, Follows (canonicalRange store) none budgets chunks →
        serializeCanonical store = leBytes 8 (canonicalRows store).length ++ chunks.flatten ∧
          (canonicalRows store ≠ [] → ∀ chunk ∈ chunks, chunk ≠ [])) := by
  have hrows := rowFits_of_mem hfits hextra
  refine ⟨deserializeCanonical_serializeCanonical hfits hrows, ?_, deserializeCanonicalBytes_drop,
    fun bytes => deserializeCanonical_part hfits hrows, fun budget => ?_,
    fun budgets chunks hfollows => ?_⟩
  · intro front rest entry hentry hlt
    exact ⟨valueLen_entry hlt front rest, deserializeCanonicalBytes_entry hentry hlt⟩
  · obtain ⟨count, chunks, -, hfollows⟩ := exists_follows (pairwise_emittedRows hfits) budget none
    exact ⟨count, chunks, hfollows⟩
  · obtain ⟨hflatten, hprogress⟩ := canonicalRange_follows hfits hfollows
    exact ⟨by rw [hflatten]; rfl, hprogress⟩

def zeroKey : Outpoint := ⟨.fromBytes [], 0⟩

def wideEntry (extraLen : Nat) : UtxoEntry :=
  { output := ⟨.nft, 0, .fromBytes [], 0, List.replicate extraLen 0⟩
    height := 0
    isCoinbase := false
    isEpochReward := false }

def wideStore (extraLen : Nat) : UtxoColumn := Finmap.singleton zeroKey (wideEntry extraLen)

theorem wideStore_lookup {extraLen : Nat} {outpoint : Outpoint} {entry : UtxoEntry}
    (hlookup : (wideStore extraLen).lookup outpoint = some entry) :
    outpoint = zeroKey ∧ entry = wideEntry extraLen := by
  obtain ⟨hkey, hvalue⟩ := lookup_singleton_eq_some.mp hlookup
  exact ⟨hkey, hvalue⟩

theorem wideStore_fits (extraLen : Nat) : StoreFits (wideStore extraLen) where
  count := by
    rw [wideStore, Finmap.keys_singleton, Finset.card_singleton]
    norm_num
  index hlookup := by
    rw [(wideStore_lookup hlookup).1]
    norm_num [zeroKey]
  entry hlookup := by
    rw [(wideStore_lookup hlookup).2]
    constructor <;> norm_num [wideEntry]

theorem canonical_codec_sample :
    deserializeCanonical (serializeCanonical (wideStore 3)) = .ok (wideStore 3) := by
  refine (canonical_codec (wideStore_fits 3) fun hlookup => ?_).1
  rw [(wideStore_lookup hlookup).2]
  decide

theorem canonicalRows_wideStore (extraLen : Nat) :
    canonicalRows (wideStore extraLen) = [(zeroKey, wideEntry extraLen)] := by
  have hlength : (canonicalRows (wideStore extraLen)).length = 1 := by
    rw [canonicalRows, sortedRows_length, wideStore, Finmap.keys_singleton, Finset.card_singleton]
  obtain ⟨row, hrow⟩ := List.length_eq_one_iff.mp hlength
  have hmem : row ∈ canonicalRows (wideStore extraLen) := by simp [hrow]
  obtain ⟨hkey, hvalue⟩ := wideStore_lookup ((mem_sortedRows _).mp hmem)
  rw [hrow, ← hkey, ← hvalue]

theorem wideStore_wraps {extraLen : Nat} (hwide : 2 ^ 32 ≤ extraLen) :
    deserializeCanonical (serializeCanonical (wideStore extraLen)) ≠ .ok (wideStore extraLen) := by
  intro hread
  have hfits := wideStore_fits extraLen
  have hcount := leNat_count hfits (rowBytes (zeroKey, wideEntry extraLen))
  have himage : serializeCanonical (wideStore extraLen) =
      leBytes 8 (canonicalRows (wideStore extraLen)).length ++
        rowBytes (zeroKey, wideEntry extraLen) := by
    rw [serializeCanonical_eq]
    simp [rowsBytes, canonicalRows_wideStore]
  have hentry : (wideEntry extraLen).Fits := by constructor <;> norm_num [wideEntry]
  have hindex : zeroKey.index < 2 ^ 32 := by norm_num [zeroKey]
  have hturn := @readEntry_wire (zeroKey, wideEntry extraLen) hindex hentry
    (leBytes 8 (canonicalRows (wideStore extraLen)).length) []
  rw [List.append_nil, List.append_nil, leBytes_length] at hturn
  have hlength : (wideEntry extraLen).output.extraData.length = extraLen :=
    List.length_replicate
  rw [himage, deserializeCanonical, if_neg (by simp), hcount, canonicalRows_wideStore,
    List.length_singleton, readEntries] at hread
  rw [canonicalRows_wideStore, List.length_singleton] at hturn
  rw [hturn] at hread
  have hstore := Except.ok.inj hread
  have hlookup := congrArg (Finmap.lookup zeroKey) hstore
  rw [Finmap.lookup_insert] at hlookup
  have hvalue := (wideStore_lookup hlookup.symm).2
  have hextra := congrArg (fun entry => entry.output.extraData.length) hvalue
  dsimp only at hextra
  rw [List.length_take, hlength] at hextra
  have hwrap : wireLen extraLen < 2 ^ 32 := by
    unfold wireLen
    rw [if_pos (by omega)]
    exact Nat.mod_lt _ (by norm_num)
  omega

theorem canonical_codec_wraps :
    StoreFits (wideStore (2 ^ 32)) ∧
      deserializeCanonical (serializeCanonical (wideStore (2 ^ 32))) ≠
        .ok (wideStore (2 ^ 32)) :=
  ⟨wideStore_fits _, wideStore_wraps (le_refl _)⟩

end Doli.Storage
