import Doli.Core.ChainState
import Doli.Lib.Stream
import Doli.Producer.Set
import Doli.Storage.CanonicalImage
import Doli.Validation.Block

/-!
# The staged UTXO transfer

The bodies of a transfer land in a staging family, whole records as rows and the tail as a
residual, and a promotion moves the rows into the live families in bounded batches.
-/

namespace Doli.Storage

open Doli.Core Doli.Lib
open Doli.Producer (ProducerSet)

/-- `PROMOTE_BATCH_MAX_BYTES` -/
def promoteBatchMaxBytes : Nat := 128 * 1024

/-- One record at `pos` and its length, or nothing where the bytes end inside it. -/
def parseRecord (bytes : Bytes) (pos : Nat) :
    Except CanonicalError (Option ((Outpoint × UtxoEntry) × Nat)) :=
  if bytes.length < pos + keyLen then .ok none
  else
    match Outpoint.fromBytes (slice bytes pos (pos + keyLen)) with
    | none => .error (.invalidOutpoint pos)
    | some outpoint =>
        match valueLen bytes (pos + keyLen) with
        | none => .ok none
        | some entrySize =>
            match UtxoEntry.deserializeCanonicalBytes
                (slice bytes (pos + keyLen) (pos + keyLen + entrySize)) with
            | none => .error (.invalidEntry (pos + keyLen) entrySize)
            | some entry => .ok (some ((outpoint, entry), keyLen + entrySize))

theorem parseRecord_size {bytes : Bytes} {pos size : Nat} {row : Outpoint × UtxoEntry}
    (hparse : parseRecord bytes pos = .ok (some (row, size))) :
    0 < size ∧ pos + size ≤ bytes.length := by
  unfold parseRecord at hparse
  split at hparse
  · simp at hparse
  · split at hparse
    · simp at hparse
    · split at hparse
      · simp at hparse
      case h_2 entrySize hvalue =>
        split at hparse
        · simp at hparse
        · obtain ⟨-, rfl⟩ := Prod.mk.inj (Option.some.inj (Except.ok.inj hparse))
          have hfull := (valueLen_eq_some_iff.mp hvalue).2.2
          have hbase := (valueLen_eq_some_iff.mp hvalue).1
          rw [List.length_drop] at hfull hbase
          simp only [keyLen] at hfull hbase ⊢
          omega

/-! ## The store of a transfer -/

/-- The families of the state database that a transfer touches. -/
structure TransferDb where
  live : StateDb
  utxoCount : Nat
  staging : UtxoColumn
  residual : Option Bytes
  chainState : ChainState
  producerSet : ProducerSet
  /-- The target height of the armed marker. -/
  rebuildInProgress : Option Nat

/-- The loop of `stage_utxo_bytes`: the batch, and where it stopped. -/
def stageRecords (buf : Bytes) (pos : Nat) (batch : UtxoColumn) :
    Except CanonicalError (UtxoColumn × Nat) :=
  match _hparse : parseRecord buf pos with
  | .error error => .error error
  | .ok none => .ok (batch, pos)
  | .ok (some (row, size)) => stageRecords buf (pos + size) (batch.insert row.1 row.2)
termination_by buf.length - pos
decreasing_by
  have hsize := parseRecord_size _hparse
  omega

namespace TransferDb

def stageUtxoBytes (db : TransferDb) (body : Bytes) : Except CanonicalError TransferDb :=
  let buf := db.residual.getD [] ++ body
  match stageRecords buf 0 db.staging with
  | .error error => .error error
  | .ok (staging, pos) =>
      .ok { db with
        staging := staging
        residual := if pos = buf.length then none else some (buf.drop pos) }

def stagedUtxoLen (db : TransferDb) : Nat := db.staging.keys.card

def clearStagedUtxos (db : TransferDb) : TransferDb :=
  { db with staging := ∅, residual := none }

end TransferDb

/-! ## Staging is a scan -/

/-- The record at the head of the bytes. -/
def recordHead (stream : Bytes) : Head (Outpoint × UtxoEntry) Unit :=
  match parseRecord stream 0 with
  | .error _ => .bad ()
  | .ok none => .short
  | .ok (some (row, size)) => .record row size

theorem parseRecord_drop (bytes : Bytes) (pos : Nat) :
    (parseRecord (bytes.drop pos) 0).toOption = (parseRecord bytes pos).toOption := by
  have hslice : ∀ lo hi, slice (bytes.drop pos) lo hi = slice bytes (pos + lo) (pos + hi) :=
    fun lo hi => (slice_add bytes pos lo hi).symm
  have hvalue : valueLen (bytes.drop pos) keyLen = valueLen bytes (pos + keyLen) := by
    rw [valueLen_drop, List.drop_drop, ← valueLen_drop]
  unfold parseRecord
  simp only [Nat.zero_add, hslice, hvalue, List.length_drop, Nat.add_zero, ← Nat.add_assoc]
  have hkey : keyLen = 36 := rfl
  by_cases hshort : bytes.length < pos + keyLen
  · rw [if_pos hshort, if_pos (by omega)]
  · rw [if_neg hshort, if_neg (by omega)]
    split
    · rfl
    · split
      · rfl
      · split <;> rfl

theorem parseRecord_append {stream : Bytes} (rest : Bytes)
    (hwhole : parseRecord stream 0 ≠ .ok none) :
    parseRecord (stream ++ rest) 0 = parseRecord stream 0 := by
  unfold parseRecord at hwhole ⊢
  simp only [Nat.zero_add] at hwhole ⊢
  split at hwhole
  · exact absurd rfl hwhole
  case isFalse hlong =>
    rw [if_neg (by rw [List.length_append]; omega), if_neg hlong, slice_append_left (by omega)]
    split
    · rfl
    case h_2 outpoint hkey =>
      rw [hkey] at hwhole
      cases hvalue : valueLen stream keyLen with
      | none => simp [hvalue] at hwhole
      | some entrySize =>
          have hsize := (valueLen_eq_some_iff.mp hvalue).2.2
          rw [List.length_drop] at hsize
          rw [valueLen_append hvalue]
          dsimp only
          rw [slice_append_left (by omega)]

theorem recordHead_eq_record {stream : Bytes} {row : Outpoint × UtxoEntry} {size : Nat} :
    recordHead stream = .record row size ↔ parseRecord stream 0 = .ok (some (row, size)) := by
  unfold recordHead
  split <;> simp_all

theorem recordHead_eq_bad {stream : Bytes} :
    recordHead stream = .bad () ↔ ∃ error, parseRecord stream 0 = .error error := by
  unfold recordHead
  split <;> simp_all

/-- The records of a transfer, as a stream. -/
def recordReader : StreamReader UInt8 (Outpoint × UtxoEntry) Unit where
  head := recordHead
  record_size := by
    intro stream row size hhead
    have hsize := parseRecord_size (recordHead_eq_record.mp hhead)
    omega
  record_append := by
    intro stream row size rest hhead
    have hparse := recordHead_eq_record.mp hhead
    rw [recordHead_eq_record, parseRecord_append rest (by simp [hparse]), hparse]
  bad_append := by
    intro stream error rest hhead
    obtain ⟨fault, hparse⟩ := recordHead_eq_bad.mp hhead
    rw [recordHead_eq_bad, parseRecord_append rest (by simp [hparse]), hparse]
    exact ⟨fault, rfl⟩

theorem stageRecords_eq_scan (buf : Bytes) (pos : Nat) (batch : UtxoColumn)
    (hpos : pos ≤ buf.length) :
    (stageRecords buf pos batch).toOption =
      (recordReader.scan (buf.drop pos)).toOption.map fun scanned =>
        (Journal.insertAll scanned.1 batch, buf.length - scanned.2.length) := by
  fun_induction stageRecords buf pos batch with
  | case1 pos batch error hparse =>
      have hhead : recordReader.head (buf.drop pos) = .bad () := by
        have hdrop := parseRecord_drop buf pos
        rw [hparse] at hdrop
        refine recordHead_eq_bad.mpr ?_
        cases hcut : parseRecord (buf.drop pos) 0 with
        | error fault => exact ⟨fault, rfl⟩
        | ok found => simp [hcut, Except.toOption] at hdrop
      rw [StreamReader.scan_bad hhead]
      rfl
  | case2 pos batch hparse =>
      have hhead : recordReader.head (buf.drop pos) = .short := by
        have hdrop := parseRecord_drop buf pos
        rw [hparse] at hdrop
        change recordHead _ = _
        unfold recordHead
        split <;> simp_all [Except.toOption]
      rw [StreamReader.scan_short hhead]
      simp [Except.toOption, Journal.insertAll]
      omega
  | case3 pos batch row size hparse ih =>
      have hhead : recordReader.head (buf.drop pos) = .record row size := by
        have hdrop := parseRecord_drop buf pos
        rw [hparse] at hdrop
        refine recordHead_eq_record.mpr ?_
        cases hcut : parseRecord (buf.drop pos) 0 with
        | error fault => simp [hcut, Except.toOption] at hdrop
        | ok found => simpa [hcut, Except.toOption] using hdrop
      rw [ih (parseRecord_size hparse).2, StreamReader.scan_record hhead, List.drop_drop]
      cases recordReader.scan (buf.drop (pos + size)) with
      | error error => rfl
      | ok scanned => rfl

namespace TransferDb

/-- The store with the scanned records staged and the tail behind them. -/
def withStaged (db : TransferDb) (scanned : List (Outpoint × UtxoEntry) × Bytes) : TransferDb :=
  { db with
    staging := Journal.insertAll scanned.1 ∅
    residual := if scanned.2 = [] then none else some scanned.2 }

theorem clearStagedUtxos_eq (db : TransferDb) : db.clearStagedUtxos = db.withStaged ([], []) :=
  rfl

theorem stageUtxoBytes_withStaged (db : TransferDb)
    (scanned : List (Outpoint × UtxoEntry) × Bytes) (body : Bytes) :
    ((db.withStaged scanned).stageUtxoBytes body).toOption =
      (recordReader.feed scanned body).toOption.map db.withStaged := by
  obtain ⟨rows, rest⟩ := scanned
  have hbuf : (db.withStaged (rows, rest)).residual.getD [] ++ body = rest ++ body := by
    by_cases hrest : rest = [] <;> simp [withStaged, hrest]
  have hscan := stageRecords_eq_scan (rest ++ body) 0 (Journal.insertAll rows ∅) (Nat.zero_le _)
  rw [List.drop_zero] at hscan
  simp only [stageUtxoBytes, hbuf, StreamReader.feed]
  change (match stageRecords (rest ++ body) 0 (Journal.insertAll rows ∅) with
    | .error error => _
    | .ok (staging, pos) => _ : Except CanonicalError TransferDb).toOption = _
  cases hloop : stageRecords (rest ++ body) 0 (Journal.insertAll rows ∅) with
  | error error =>
      cases hread : recordReader.scan (rest ++ body) with
      | error fault => rfl
      | ok found => simp [hloop, hread, Except.toOption] at hscan
  | ok loop =>
      cases hread : recordReader.scan (rest ++ body) with
      | error fault => simp [hloop, hread, Except.toOption] at hscan
      | ok found =>
          obtain ⟨later, left⟩ := found
          obtain rfl : loop = (Journal.insertAll later (Journal.insertAll rows ∅),
              (rest ++ body).length - left.length) := by
            simpa [hloop, hread, Except.toOption] using hscan
          obtain ⟨front, hfront⟩ := StreamReader.scan_suffix hread
          have hpos : (rest ++ body).length - left.length = front.length := by
            rw [← hfront, List.length_append]
            omega
          have hdrop : (rest ++ body).drop front.length = left := by rw [← hfront, List.drop_left]
          have hwhole : front.length = (rest ++ body).length ↔ left = [] := by
            rw [← hfront, List.length_append, ← List.length_eq_zero_iff]
            omega
          simp only [hpos, hdrop, hwhole, Except.toOption, Option.map_some, withStaged,
            Journal.insertAll, List.foldl_append]

theorem run_stageUtxoBytes (db : TransferDb) (bodies : List Bytes)
    (scanned : List (Outpoint × UtxoEntry) × Bytes) :
    (run stageUtxoBytes bodies (db.withStaged scanned)).toOption =
      (run recordReader.feed bodies scanned).toOption.map db.withStaged := by
  induction bodies generalizing scanned with
  | nil => rfl
  | cons body bodies ih =>
      have hstep := stageUtxoBytes_withStaged db scanned body
      rw [run, run]
      cases hfeed : recordReader.feed scanned body with
      | error fault =>
          cases hstage : (db.withStaged scanned).stageUtxoBytes body with
          | error error => rfl
          | ok next => simp [hfeed, hstage, Except.toOption] at hstep
      | ok next =>
          cases hstage : (db.withStaged scanned).stageUtxoBytes body with
          | error error => simp [hfeed, hstage, Except.toOption] at hstep
          | ok staged =>
              obtain rfl : staged = db.withStaged next := by
                simpa [hfeed, hstage, Except.toOption] using hstep
              exact ih next

theorem run_stage_cleared (db : TransferDb) (bodies : List Bytes) :
    (run stageUtxoBytes bodies db.clearStagedUtxos).toOption =
      (recordReader.scan bodies.flatten).toOption.map db.withStaged := by
  have hshort : recordReader.head ([] : Bytes) = .short := by decide
  rw [clearStagedUtxos_eq, run_stageUtxoBytes, StreamReader.run_feed bodies [] [] hshort]
  simp only [StreamReader.feed, List.nil_append]
  cases recordReader.scan bodies.flatten <;> rfl

/-- However a transfer is cut into bodies, inside a record or not, they stage what they
stage as one body. -/
theorem stage_any_cut (db : TransferDb) (bodies : List Bytes) :
    (run stageUtxoBytes bodies db.clearStagedUtxos).toOption =
      (db.clearStagedUtxos.stageUtxoBytes bodies.flatten).toOption := by
  have hone := run_stage_cleared db [bodies.flatten]
  rw [List.flatten_singleton] at hone
  rw [run_stage_cleared, ← hone, run]
  cases db.clearStagedUtxos.stageUtxoBytes bodies.flatten <;> rfl

end TransferDb

/-! ## A served set -/

theorem recordHead_row {row : Outpoint × UtxoEntry} (hrow : RowFits row) (rest : Bytes) :
    recordReader.head (rowBytes row ++ rest) = .record row (rowBytes row).length := by
  refine recordHead_eq_record.mpr ?_
  have hread := readEntry_row hrow [] rest
  rw [List.nil_append, List.length_nil, Nat.zero_add] at hread
  unfold readEntry at hread
  unfold parseRecord
  simp only [Nat.zero_add] at hread ⊢
  by_cases hshort : (rowBytes row ++ rest).length < keyLen
  · rw [if_pos hshort] at hread
    simp at hread
  rw [if_neg hshort] at hread ⊢
  cases hkey : Outpoint.fromBytes (slice (rowBytes row ++ rest) 0 keyLen) with
  | none => simp [hkey] at hread
  | some outpoint =>
      simp only [hkey] at hread ⊢
      cases hvalue : valueLen (rowBytes row ++ rest) keyLen with
      | none => simp [hvalue] at hread
      | some entrySize =>
          simp only [hvalue] at hread ⊢
          cases hentry : UtxoEntry.deserializeCanonicalBytes
              (slice (rowBytes row ++ rest) keyLen (keyLen + entrySize)) with
          | none => simp [hentry] at hread
          | some entry =>
              simp only [hentry] at hread ⊢
              obtain ⟨hrow, hlength⟩ := Prod.mk.inj (Except.ok.inj hread)
              rw [hrow, hlength]

theorem scan_rows {rows : List (Outpoint × UtxoEntry)} (hrows : ∀ row ∈ rows, RowFits row) :
    recordReader.scan (rowsBytes rows) = .ok (rows, []) := by
  induction rows with
  | nil => exact StreamReader.scan_short (by decide)
  | cons row rows ih =>
      have hcons : rowsBytes (row :: rows) = rowBytes row ++ rowsBytes rows := by
        simp [rowsBytes]
      rw [hcons, StreamReader.scan_record (recordHead_row (hrows row List.mem_cons_self) _),
        List.drop_left, ih fun other hother => hrows other (List.mem_cons_of_mem _ hother)]

/-- The chunks that a server hands out, whatever their budgets, stage the served set and
leave nothing behind. -/
theorem transfer_stages_store {store : UtxoColumn} (hfits : StoreFits store)
    (hextra : ∀ {outpoint entry}, store.lookup outpoint = some entry →
      entry.output.extraData.length < 2 ^ 32)
    {budgets : List Nat} {chunks : List Bytes}
    (hfollows : Follows (canonicalRange store) none budgets chunks) (db : TransferDb) :
    run TransferDb.stageUtxoBytes chunks db.clearStagedUtxos =
      .ok { db with staging := store, residual := none } := by
  have hstaged := db.run_stage_cleared chunks
  rw [(canonicalRange_follows hfits hfollows).1, canonicalBody_eq,
    scan_rows (rowFits_of_mem hfits hextra)] at hstaged
  have hback : Journal.insertAll (canonicalRows store) ∅ = store := insertAll_sortedRows _ store
  cases hrun : run TransferDb.stageUtxoBytes chunks db.clearStagedUtxos with
  | error error => simp [hrun, Except.toOption] at hstaged
  | ok staged =>
      simp only [hrun, Except.toOption, Option.map_some, TransferDb.withStaged, hback, if_true,
        Option.some.injEq] at hstaged
      rw [hstaged]

/-! ## The promotion -/

def UtxoEntry.bincodeLen (entry : UtxoEntry) : Nat :=
  Doli.Validation.outputSize entry.output + 8 + 1 + 1

/-- The key and the value of a row, and its row in the owner index. -/
def rowPayload (row : Outpoint × UtxoEntry) : Nat :=
  keyLen + row.2.bincodeLen + (32 + keyLen) + 1

/-- The rows in batches, each closed by the row that reaches the byte budget. -/
def subBatches : List (Outpoint × UtxoEntry) → List (Outpoint × UtxoEntry) → Nat →
    List (List (Outpoint × UtxoEntry))
  | [], batch, pending => if 0 < pending then [batch] else []
  | row :: rows, batch, pending =>
      if promoteBatchMaxBytes ≤ pending + rowPayload row then
        (batch ++ [row]) :: subBatches rows [] 0
      else subBatches rows (batch ++ [row]) (pending + rowPayload row)

namespace TransferDb

def clearLiveUtxoFamilies (db : TransferDb) : TransferDb :=
  { db with live := db.live.clearUtxos, utxoCount := 0 }

/-- One batch, and the count of the rows so far. -/
def commitSubBatch (batch : List (Outpoint × UtxoEntry)) (rows : Nat) (db : TransferDb) :
    TransferDb :=
  { db with
    live := batch.foldl (fun live row => live.insertUtxo row.1 row.2) db.live
    utxoCount := rows }

def writeStateLabels (chainState : ChainState) (producerSet : ProducerSet) (db : TransferDb) :
    TransferDb :=
  { db with chainState := chainState, producerSet := producerSet }

def commitBatches : Nat → List (List (Outpoint × UtxoEntry)) → List (TransferDb → TransferDb)
  | _, [] => []
  | rows, batch :: batches =>
      commitSubBatch batch (rows + batch.length) ::
        commitBatches (rows + batch.length) batches

/-- The writes of `promote_staged_utxos`, in the order in which they are committed. -/
def promoteWrites (db : TransferDb) (chainState : ChainState) (producerSet : ProducerSet) :
    List (TransferDb → TransferDb) :=
  clearLiveUtxoFamilies :: (commitBatches 0 (subBatches (canonicalRows db.staging) [] 0) ++
    [writeStateLabels chainState producerSet, clearStagedUtxos])

def applyWrites (writes : List (TransferDb → TransferDb)) (db : TransferDb) : TransferDb :=
  writes.foldl (fun db write => write db) db

def promoteStagedUtxos (db : TransferDb) (chainState : ChainState) (producerSet : ProducerSet) :
    TransferDb :=
  applyWrites (db.promoteWrites chainState producerSet) db

/-- The promotion that ends after `committed` of its writes. -/
def promoteAborted (db : TransferDb) (chainState : ChainState) (producerSet : ProducerSet)
    (committed : Nat) : TransferDb :=
  applyWrites ((db.promoteWrites chainState producerSet).take committed) db

end TransferDb

theorem rowPayload_pos (row : Outpoint × UtxoEntry) : 0 < rowPayload row := by
  unfold rowPayload
  omega

theorem subBatches_flatten (rows batch : List (Outpoint × UtxoEntry)) (pending : Nat)
    (hpending : pending = 0 → batch = []) :
    (subBatches rows batch pending).flatten = batch ++ rows := by
  induction rows generalizing batch pending with
  | nil =>
      unfold subBatches
      split
      · simp
      case isFalse hzero => simp [hpending (by omega)]
  | cons row rows ih =>
      have hrow := rowPayload_pos row
      unfold subBatches
      split
      · simp [ih [] 0 fun _ => rfl]
      · rw [ih _ _ fun hzero => by omega]
        simp

namespace TransferDb

variable {db : TransferDb}

/-- The live families hold these rows and no others, with their index and their count. -/
structure Holds (rows : List (Outpoint × UtxoEntry)) (db : TransferDb) : Prop where
  utxo : db.live.utxo = Journal.insertAll rows ∅
  indexed : db.live.Indexed
  count : db.utxoCount = rows.length

theorem insertAll_snoc (rows : List (Outpoint × UtxoEntry)) (row : Outpoint × UtxoEntry) :
    Journal.insertAll (rows ++ [row]) (∅ : UtxoColumn) =
      (Journal.insertAll rows (∅ : UtxoColumn)).insert row.1 row.2 := by
  simp [Journal.insertAll, List.foldl_append]

theorem holds_clearLive (db : TransferDb) : db.clearLiveUtxoFamilies.Holds [] :=
  ⟨rfl, indexExact_empty, rfl⟩

theorem insertRows {live : StateDb} {done batch : List (Outpoint × UtxoEntry)}
    (hutxo : live.utxo = Journal.insertAll done ∅) (hindexed : live.Indexed)
    (hnodup : ((done ++ batch).map Prod.fst).Nodup) :
    (batch.foldl (fun live row => live.insertUtxo row.1 row.2) live).utxo =
        Journal.insertAll (done ++ batch) ∅ ∧
      (batch.foldl (fun live row => live.insertUtxo row.1 row.2) live).Indexed := by
  induction batch generalizing live done with
  | nil => simpa using ⟨hutxo, hindexed⟩
  | cons row batch ih =>
      have hnew : row.1 ∉ done.map Prod.fst := by
        rw [List.map_append, List.nodup_append] at hnodup
        exact fun hmem => hnodup.2.2 _ hmem row.1 (by simp) rfl
      have hnone : live.utxo.lookup row.1 = none := by
        rw [hutxo, Journal.lookup_insertAll_of_notMem hnew, Finmap.lookup_empty]
      have hsplit : done ++ row :: batch = (done ++ [row]) ++ batch := by simp
      rw [List.foldl_cons, hsplit]
      refine ih ?_ (hindexed.insertUtxo (ownedBy_of_lookup_none hnone _)) (hsplit ▸ hnodup)
      rw [StateDb.insertUtxo_utxo, hutxo, insertAll_snoc]

theorem Holds.commitSubBatch {done batch : List (Outpoint × UtxoEntry)} (hholds : db.Holds done)
    (hnodup : ((done ++ batch).map Prod.fst).Nodup) :
    (db.commitSubBatch batch (done.length + batch.length)).Holds (done ++ batch) := by
  obtain ⟨hutxo, hindexed⟩ := insertRows hholds.utxo hholds.indexed hnodup
  exact ⟨hutxo, hindexed, by simp [TransferDb.commitSubBatch]⟩

/-- The live UTXO families apart, the two are the same. -/
structure SameBeside (first second : TransferDb) : Prop where
  uniqueIds : second.live.uniqueIds = first.live.uniqueIds
  staging : second.staging = first.staging
  residual : second.residual = first.residual
  chainState : second.chainState = first.chainState
  producerSet : second.producerSet = first.producerSet
  rebuildInProgress : second.rebuildInProgress = first.rebuildInProgress

theorem SameBeside.trans {first second third : TransferDb} (hfirst : SameBeside first second)
    (hsecond : SameBeside second third) : SameBeside first third :=
  ⟨hsecond.1.trans hfirst.1, hsecond.2.trans hfirst.2, hsecond.3.trans hfirst.3,
    hsecond.4.trans hfirst.4, hsecond.5.trans hfirst.5, hsecond.6.trans hfirst.6⟩

theorem sameBeside_commitSubBatch (batch : List (Outpoint × UtxoEntry)) (rows : Nat)
    (db : TransferDb) : SameBeside db (db.commitSubBatch batch rows) := by
  refine ⟨?_, rfl, rfl, rfl, rfl, rfl⟩
  change (batch.foldl (fun live row => live.insertUtxo row.1 row.2) db.live).uniqueIds = _
  generalize db.live = live
  induction batch generalizing live with
  | nil => rfl
  | cons row batch ih => rw [List.foldl_cons, ih, StateDb.insertUtxo_uniqueIds]

theorem applyWrites_batches {done : List (Outpoint × UtxoEntry)} (hholds : db.Holds done)
    (batches : List (List (Outpoint × UtxoEntry)))
    (hnodup : ((done ++ batches.flatten).map Prod.fst).Nodup) (committed : Nat) :
    ∃ front, front <+: batches.flatten ∧
      (applyWrites ((commitBatches done.length batches).take committed) db).Holds (done ++ front) ∧
      SameBeside db (applyWrites ((commitBatches done.length batches).take committed) db) ∧
      (batches.length ≤ committed → front = batches.flatten) := by
  induction batches generalizing db done committed with
  | nil =>
      have hnone : (commitBatches done.length []).take committed = [] := List.take_nil
      rw [hnone]
      exact ⟨[], List.prefix_refl _, by simpa [applyWrites] using hholds,
        ⟨rfl, rfl, rfl, rfl, rfl, rfl⟩, fun _ => rfl⟩
  | cons batch batches ih =>
      cases committed with
      | zero =>
          exact ⟨[], List.nil_prefix, by simpa [applyWrites] using hholds,
            ⟨rfl, rfl, rfl, rfl, rfl, rfl⟩, fun hall => by simp at hall⟩
      | succ committed =>
          rw [List.flatten_cons, ← List.append_assoc] at hnodup
          have hfirst : ((done ++ batch).map Prod.fst).Nodup := by
            rw [List.map_append] at hnodup
            exact hnodup.of_append_left
          obtain ⟨front, hfront, hafter, hbeside, hall⟩ :=
            ih (hholds.commitSubBatch hfirst) hnodup committed
          rw [List.length_append] at hafter hbeside
          rw [commitBatches, List.take_succ_cons, List.flatten_cons]
          refine ⟨batch ++ front, (List.prefix_append_right_inj batch).mpr hfront, ?_,
            (sameBeside_commitSubBatch _ _ db).trans hbeside, fun hlength => ?_⟩
          · rw [← List.append_assoc]
            exact hafter
          · rw [hall (by simpa using hlength)]

theorem commitBatches_length (rows : Nat) (batches : List (List (Outpoint × UtxoEntry))) :
    (commitBatches rows batches).length = batches.length := by
  induction batches generalizing rows with
  | nil => rfl
  | cons batch batches ih => simp [commitBatches, ih]

theorem nodup_canonicalRows (store : UtxoColumn) :
    ((canonicalRows store).map Prod.fst).Nodup := by
  rw [canonicalRows, sortedRows_keys]
  exact nodup_listing _ _

theorem promote_batches (db : TransferDb) (committed : Nat) :
    ∃ front, front <+: canonicalRows db.staging ∧
      (applyWrites ((commitBatches 0 (subBatches (canonicalRows db.staging) [] 0)).take committed)
        db.clearLiveUtxoFamilies).Holds front ∧
      SameBeside db (applyWrites
        ((commitBatches 0 (subBatches (canonicalRows db.staging) [] 0)).take committed)
          db.clearLiveUtxoFamilies) ∧
      ((subBatches (canonicalRows db.staging) [] 0).length ≤ committed →
        front = canonicalRows db.staging) := by
  have hrows := subBatches_flatten (canonicalRows db.staging) [] 0 fun _ => rfl
  rw [List.nil_append] at hrows
  have hnodup : (([] ++ (subBatches (canonicalRows db.staging) [] 0).flatten).map
      Prod.fst).Nodup := by
    rw [hrows]
    exact nodup_canonicalRows db.staging
  have hbatches := applyWrites_batches (holds_clearLive db)
    (subBatches (canonicalRows db.staging) [] 0) hnodup committed
  rw [hrows] at hbatches
  obtain ⟨front, hfront, hholds, hbeside, hall⟩ := hbatches
  exact ⟨front, hfront, hholds,
    ⟨hbeside.1, hbeside.2, hbeside.3, hbeside.4, hbeside.5, hbeside.6⟩, hall⟩

theorem Holds.writeStateLabels {rows : List (Outpoint × UtxoEntry)} (hholds : db.Holds rows)
    (chainState : ChainState) (producerSet : ProducerSet) :
    (db.writeStateLabels chainState producerSet).Holds rows :=
  ⟨hholds.1, hholds.2, hholds.3⟩

theorem Holds.clearStagedUtxos {rows : List (Outpoint × UtxoEntry)} (hholds : db.Holds rows) :
    db.clearStagedUtxos.Holds rows :=
  ⟨hholds.1, hholds.2, hholds.3⟩

theorem promoteAborted_succ (db : TransferDb) (chainState : ChainState)
    (producerSet : ProducerSet) (committed : Nat) :
    db.promoteAborted chainState producerSet (committed + 1) =
      applyWrites (([TransferDb.writeStateLabels chainState producerSet,
          TransferDb.clearStagedUtxos] : List (TransferDb → TransferDb)).take
            (committed - (subBatches (canonicalRows db.staging) [] 0).length))
        (applyWrites ((commitBatches 0
          (subBatches (canonicalRows db.staging) [] 0)).take committed)
            db.clearLiveUtxoFamilies) := by
  rw [promoteAborted, promoteWrites, List.take_succ_cons, List.take_append,
    commitBatches_length]
  simp only [applyWrites, List.foldl_cons, List.foldl_append]

theorem promoteAborted_holds (db : TransferDb) (chainState : ChainState)
    (producerSet : ProducerSet) (committed : Nat) :
    ∃ front, front <+: canonicalRows db.staging ∧
      (db.promoteAborted chainState producerSet (committed + 1)).Holds front := by
  rw [promoteAborted_succ]
  obtain ⟨front, hfront, hholds, -, -⟩ := db.promote_batches committed
  refine ⟨front, hfront, ?_⟩
  generalize committed - (subBatches (canonicalRows db.staging) [] 0).length = more
  rcases more with _ | _ | more
  · exact hholds
  · exact hholds.writeStateLabels chainState producerSet
  · rw [List.take_of_length_le (by simp)]
    exact (hholds.writeStateLabels chainState producerSet).clearStagedUtxos

theorem promoteAborted_indexed {db : TransferDb} (hindexed : db.live.Indexed)
    (chainState : ChainState) (producerSet : ProducerSet) (committed : Nat) :
    (db.promoteAborted chainState producerSet committed).live.Indexed := by
  cases committed with
  | zero => exact hindexed
  | succ committed =>
      obtain ⟨front, -, hholds⟩ := db.promoteAborted_holds chainState producerSet committed
      exact hholds.indexed

theorem applyWrites_rebuildInProgress {writes : List (TransferDb → TransferDb)}
    (hkeep : ∀ write ∈ writes, ∀ db : TransferDb,
      (write db).rebuildInProgress = db.rebuildInProgress) (db : TransferDb) :
    (applyWrites writes db).rebuildInProgress = db.rebuildInProgress := by
  induction writes generalizing db with
  | nil => rfl
  | cons write writes ih =>
      have hrest := ih (fun other hother => hkeep other (List.mem_cons_of_mem _ hother)) (write db)
      exact hrest.trans (hkeep write List.mem_cons_self db)

theorem commitBatches_rebuildInProgress {rows : Nat}
    {batches : List (List (Outpoint × UtxoEntry))} :
    ∀ write ∈ commitBatches rows batches, ∀ db : TransferDb,
      (write db).rebuildInProgress = db.rebuildInProgress := by
  induction batches generalizing rows with
  | nil => simp [commitBatches]
  | cons batch batches ih =>
      intro write hwrite db
      rcases List.mem_cons.mp hwrite with rfl | hwrite
      · rfl
      · exact ih write hwrite db

theorem promoteAborted_rebuildInProgress (db : TransferDb) (chainState : ChainState)
    (producerSet : ProducerSet) (committed : Nat) :
    (db.promoteAborted chainState producerSet committed).rebuildInProgress =
      db.rebuildInProgress := by
  refine applyWrites_rebuildInProgress (fun write hwrite other => ?_) db
  rcases List.mem_cons.mp (List.mem_of_mem_take hwrite) with rfl | hwrite
  · rfl
  · rcases List.mem_append.mp hwrite with hwrite | hwrite
    · exact commitBatches_rebuildInProgress write hwrite other
    · rcases List.mem_cons.mp hwrite with rfl | hwrite
      · rfl
      · obtain rfl := List.mem_singleton.mp hwrite
        rfl

/-- A promotion that comes to its end. -/
structure Promoted (db next : TransferDb) (chainState : ChainState)
    (producerSet : ProducerSet) : Prop where
  utxo : next.live.utxo = db.staging
  indexed : next.live.Indexed
  count : next.utxoCount = db.stagedUtxoLen
  staging : next.staging = ∅
  residual : next.residual = none
  chainState : next.chainState = chainState
  producerSet : next.producerSet = producerSet
  rebuildInProgress : next.rebuildInProgress = db.rebuildInProgress

theorem promoteStagedUtxos_promoted (db : TransferDb) (chainState : ChainState)
    (producerSet : ProducerSet) :
    Promoted db (db.promoteStagedUtxos chainState producerSet) chainState producerSet := by
  obtain ⟨front, -, hholds, hbeside, hall⟩ :=
    db.promote_batches (subBatches (canonicalRows db.staging) [] 0).length
  rw [List.take_of_length_le (commitBatches_length _ _).le] at hholds hbeside
  obtain rfl := hall (le_refl _)
  have hend : db.promoteStagedUtxos chainState producerSet =
      ((applyWrites (commitBatches 0 (subBatches (canonicalRows db.staging) [] 0))
        db.clearLiveUtxoFamilies).writeStateLabels chainState producerSet).clearStagedUtxos := by
    rw [promoteStagedUtxos, promoteWrites]
    simp only [applyWrites, List.foldl_cons, List.foldl_append, List.foldl_nil]
  rw [hend]
  exact
    { utxo := hholds.utxo.trans (insertAll_sortedRows _ db.staging)
      indexed := hholds.indexed
      count := hholds.count.trans (sortedRows_length _ db.staging)
      staging := rfl
      residual := rfl
      chainState := rfl
      producerSet := rfl
      rebuildInProgress := hbeside.rebuildInProgress }

end TransferDb

/-! ## One batch for everything -/

namespace TransferDb

/-- `StateDb::atomic_replace` -/
def atomicReplace (db : TransferDb) (chainState : ChainState) (producerSet : ProducerSet)
    (rows : List (Outpoint × UtxoEntry)) : TransferDb :=
  (db.clearLiveUtxoFamilies.commitSubBatch rows rows.length).writeStateLabels chainState
    producerSet

theorem atomicReplace_holds (db : TransferDb) (chainState : ChainState)
    (producerSet : ProducerSet) {rows : List (Outpoint × UtxoEntry)}
    (hnodup : (rows.map Prod.fst).Nodup) :
    (db.atomicReplace chainState producerSet rows).Holds rows := by
  have hholds := (holds_clearLive db).commitSubBatch hnodup
  rw [List.length_nil, Nat.zero_add] at hholds
  exact hholds.writeStateLabels chainState producerSet

/-- The staging family is what these bytes stage. -/
def StagesStream (stream : Bytes) (db : TransferDb) : Prop :=
  ∃ scanned, recordReader.scan stream = .ok scanned ∧ db.withStaged scanned = db

theorem stagesStream_cleared (db : TransferDb) : db.clearStagedUtxos.StagesStream [] :=
  ⟨([], []), StreamReader.scan_short (by decide), rfl⟩

theorem StagesStream.congr {db other : TransferDb} {stream : Bytes}
    (hstages : db.StagesStream stream) (hstaging : other.staging = db.staging)
    (hresidual : other.residual = db.residual) : other.StagesStream stream := by
  obtain ⟨scanned, hscan, hsame⟩ := hstages
  refine ⟨scanned, hscan, ?_⟩
  have hrows : Journal.insertAll scanned.1 ∅ = other.staging :=
    (congrArg TransferDb.staging hsame).trans hstaging.symm
  have hrest : (if scanned.2 = [] then none else some scanned.2) = other.residual :=
    (congrArg TransferDb.residual hsame).trans hresidual.symm
  rw [withStaged, hrows, hrest]

theorem StagesStream.stage {db next : TransferDb} {stream body : Bytes}
    (hstages : db.StagesStream stream) (hstage : db.stageUtxoBytes body = .ok next) :
    next.StagesStream (stream ++ body) ∧ ∃ scanned, next = db.withStaged scanned := by
  obtain ⟨scanned, hscan, hsame⟩ := hstages
  have hfeed := stageUtxoBytes_withStaged db scanned body
  rw [hsame, hstage] at hfeed
  have hwhole := recordReader.scan_append stream body
  rw [hscan] at hwhole
  dsimp only at hwhole
  simp only [StreamReader.feed] at hfeed
  cases hrest : recordReader.scan (scanned.2 ++ body) with
  | error fault => simp [hrest, Except.toOption] at hfeed
  | ok later =>
      rw [hrest] at hwhole
      obtain rfl : next = db.withStaged (scanned.1 ++ later.1, later.2) := by
        simpa [hrest, Except.toOption] using hfeed
      exact ⟨⟨_, hwhole, rfl⟩, _, rfl⟩

theorem StagesStream.eq_store {db : TransferDb} {store : UtxoColumn}
    (hstages : db.StagesStream (canonicalBody store)) (hfits : StoreFits store)
    (hextra : ∀ {outpoint entry}, store.lookup outpoint = some entry →
      entry.output.extraData.length < 2 ^ 32) : db.staging = store := by
  obtain ⟨scanned, hscan, hsame⟩ := hstages
  rw [canonicalBody_eq, scan_rows (rowFits_of_mem hfits hextra)] at hscan
  obtain rfl := Except.ok.inj hscan
  rw [← hsame]
  exact insertAll_sortedRows _ store

end TransferDb

/-! ## On a store of one row -/

def sampleTransferDb : TransferDb where
  live := .empty
  utxoCount := 0
  staging := wideStore 3
  residual := none
  chainState :=
    { bestHash := ⟨0⟩
      bestHeight := 0
      bestSlot := 0
      totalWork := 0
      genesisHash := ⟨0⟩
      genesisTimestamp := 0
      snapSyncHeight := none
      activeProtocolVersion := 1
      pendingProtocolActivation := none }
  producerSet := .new
  rebuildInProgress := some 7

end Doli.Storage
