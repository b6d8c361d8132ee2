import Doli.Lib.Run
import Doli.Storage.Overlay

/-!
# The overlay reads its own writes

Runs of `BlockBatch` operations, and what the overlay shows in every state they
reach compared with what a commit of that state leaves.
-/

namespace Doli.Storage

open Doli.Core Doli.Lib

inductive BatchOp where
  | addUtxo (outpoint : Outpoint) (entry : UtxoEntry)
  | spendUtxo (outpoint : Outpoint)
  | spendTransactionUtxos (tx : Transaction)
  | addTransactionUtxos (tx : Transaction) (height : Nat) (isCoinbase : Bool) (slot : Nat)
  | addPendingUniqueId (uid : UidKey)
  | removePendingUniqueId (uid : UidKey)

namespace BlockBatch

/-- The counter moves by one with every row that is queued. -/
def utxoDelta (batch : BlockBatch) : Int :=
  (batch.utxoOps.map fun op =>
    match op with
    | .put _ _ => (1 : Int)
    | .delete _ => -1).sum

/-- The cached `u64` count once the batch is committed. -/
def commitCount (batch : BlockBatch) (utxoCount : Nat) : Nat :=
  ((utxoCount + batch.utxoDelta) % 2 ^ 64).toNat

/-- A failed spend leaves the batch as far as it got. -/
def applyOp (prim : Primitives) (batch : BlockBatch) : BatchOp → BlockBatch
  | .addUtxo outpoint entry => batch.addUtxo outpoint entry
  | .spendUtxo outpoint =>
      match batch.spendUtxo outpoint with
      | .ok (next, _) => next
      | .error _ => batch
  | .spendTransactionUtxos tx => (batch.spendTransactionUtxos tx).1
  | .addTransactionUtxos tx height isCoinbase slot =>
      batch.addTransactionUtxos prim tx height isCoinbase slot
  | .addPendingUniqueId uid => batch.addPendingUniqueId uid
  | .removePendingUniqueId uid => batch.removePendingUniqueId uid

def applyOps (prim : Primitives) (ops : List BatchOp) (batch : BlockBatch) : BlockBatch :=
  ops.foldl (applyOp prim) batch

/-- What the overlay shows is what a commit leaves. -/
structure ReadsOwnWrites (batch : BlockBatch) (utxoCount : Nat) : Prop where
  get : ∀ outpoint, batch.getUtxo outpoint = batch.commit.getUtxo outpoint
  contains : ∀ outpoint,
    batch.containsUtxo outpoint = (batch.commit.getUtxo outpoint).isSome
  byPubkey : ∀ pubkeyHash, (batch.getUtxosByPubkey pubkeyHash).Perm
    (batch.commit.getUtxosByPubkey pubkeyHash)
  uniqueId : ∀ uid, batch.hasUniqueIdCheck uid = batch.commit.hasUniqueId uid
  count : batch.commitCount utxoCount = batch.commit.utxo.keys.card % 2 ^ 64

/-! ## Operations that stay clear of spent outpoints -/

/-- Neither stored nor pending nor spent by the batch. -/
structure Fresh (batch : BlockBatch) (outpoint : Outpoint) : Prop where
  stored : batch.db.getUtxo outpoint = none
  pending : batch.pendingUtxos.lookup outpoint = none
  unspent : outpoint ∉ batch.spentInBatch

/-- The batch spends each stored outpoint of the list for the first time. -/
def SpendsOnce (batch : BlockBatch) (outpoints : List Outpoint) : Prop :=
  ∀ outpoint ∈ outpoints, (batch.db.getUtxo outpoint).isSome →
    outpoint ∉ batch.spentInBatch ∧ outpoints.count outpoint = 1

end BlockBatch

def BatchOp.Clear (prim : Primitives) (batch : BlockBatch) : BatchOp → Prop
  | .addUtxo outpoint _ => batch.Fresh outpoint
  | .spendUtxo outpoint => batch.SpendsOnce [outpoint]
  | .spendTransactionUtxos tx => batch.SpendsOnce (tx.inputs.map inputOutpoint)
  | .addTransactionUtxos tx _ _ _ =>
      let outpoints :=
        (List.range tx.outputs.length).map (Outpoint.ofOutput (prim.txHash tx))
      outpoints.Nodup ∧ ∀ outpoint ∈ outpoints, batch.Fresh outpoint
  | .addPendingUniqueId _ => True
  | .removePendingUniqueId _ => True

namespace BlockBatch

/-- The invariant of clear runs: a pending row hides no stored one, a spent
outpoint is not pending, and the counter is exact. -/
structure Clean (batch : BlockBatch) : Prop where
  coherent : Coherent batch
  stored : batch.db.Indexed
  indexed : IndexExact batch.view batch.indexView
  overlap : ∀ outpoint, (batch.pendingUtxos.lookup outpoint).isSome →
    batch.db.getUtxo outpoint = none
  respent : ∀ outpoint ∈ batch.spentInBatch,
    batch.pendingUtxos.lookup outpoint = none
  count : (batch.view.keys.card : Int) = batch.db.utxo.keys.card + batch.utxoDelta

variable {batch : BlockBatch}

theorem clean_beginBatch {db : StateDb} (hindexed : db.Indexed) : Clean db.beginBatch where
  coherent := coherent_beginBatch db
  stored := hindexed
  indexed := hindexed
  overlap outpoint hpending := by simp [StateDb.beginBatch] at hpending
  respent outpoint hspent := by simp [StateDb.beginBatch] at hspent
  count := by simp [utxoDelta, view, StateDb.beginBatch]

theorem Clean.enumerable (hclean : Clean batch) : Enumerable batch where
  indexed := hclean.stored
  overlap outpoint pending stored hpending hstored := by
    rw [hclean.overlap outpoint (by simp [hpending])] at hstored
    contradiction
  respent := hclean.respent

/-! ## What a clean batch shows -/

theorem Clean.getUtxo_eq (hclean : Clean batch) (outpoint : Outpoint) :
    batch.getUtxo outpoint = batch.commit.getUtxo outpoint := by
  have hview := hclean.coherent.lookup outpoint
  change batch.getUtxo outpoint = batch.view.lookup outpoint
  rw [hview, getUtxo]
  by_cases hspent : outpoint ∈ batch.spentInBatch
  · simp [hspent, hclean.respent outpoint hspent]
  · cases hpending : batch.pendingUtxos.lookup outpoint with
    | none => simp [hspent, StateDb.getUtxo]
    | some entry => simp [hspent]

theorem containsUtxo_eq (batch : BlockBatch) (outpoint : Outpoint) :
    batch.containsUtxo outpoint = (batch.getUtxo outpoint).isSome := by
  unfold containsUtxo getUtxo
  by_cases hspent : outpoint ∈ batch.spentInBatch
  · simp [hspent]
  · cases hpending : batch.pendingUtxos.lookup outpoint with
    | none =>
        have hnot : outpoint ∉ batch.pendingUtxos := by
          rwa [← AList.lookup_eq_none]
        simp [hspent, hnot]
    | some entry =>
        have hmem : outpoint ∈ batch.pendingUtxos := by
          rw [← AList.lookup_isSome, hpending]
          rfl
        simp [hspent, hmem]

theorem Clean.getUtxosByPubkey_perm (hclean : Clean batch) (pubkeyHash : Hash) :
    (batch.getUtxosByPubkey pubkeyHash).Perm
      (batch.commit.getUtxosByPubkey pubkeyHash) := by
  have hcommit : batch.commit.Indexed := hclean.indexed
  apply (List.perm_ext_iff_of_nodup ?_ ?_).mpr
  · rintro ⟨outpoint, entry⟩
    rw [hclean.enumerable.mem_getUtxosByPubkey_iff, hcommit.mem_getUtxosByPubkey,
      hclean.getUtxo_eq]
  · exact (hclean.enumerable.getUtxosByPubkey_nodup pubkeyHash).of_map
  · exact (hcommit.getUtxosByPubkey_nodup pubkeyHash).of_map

theorem Clean.readsOwnWrites (hclean : Clean batch) {utxoCount : Nat}
    (hcount : utxoCount = batch.db.utxo.keys.card % 2 ^ 64) :
    ReadsOwnWrites batch utxoCount where
  get := hclean.getUtxo_eq
  contains outpoint := by rw [containsUtxo_eq, hclean.getUtxo_eq]
  byPubkey := hclean.getUtxosByPubkey_perm
  uniqueId uid := by
    rw [Bool.eq_iff_iff, hclean.coherent.uniqueId]
    exact decide_eq_true_iff.symm
  count := by
    have hview := hclean.count
    rw [commitCount, commit_utxo]
    omega

/-- A spend of an absent outpoint fails unless the batch took it from the store
before. -/
theorem Clean.spendUtxo_absent (hclean : Clean batch) {outpoint : Outpoint}
    (habsent : batch.getUtxo outpoint = none) :
    batch.spendUtxo outpoint = .error (.notFound outpoint) ↔
      ¬ (outpoint ∈ batch.spentInBatch ∧ (batch.db.getUtxo outpoint).isSome) := by
  have hpending : batch.pendingUtxos.lookup outpoint = none := by
    by_cases hspent : outpoint ∈ batch.spentInBatch
    · exact hclean.respent outpoint hspent
    · cases hlookup : batch.pendingUtxos.lookup outpoint with
      | none => rfl
      | some entry => simp [getUtxo, hspent, hlookup] at habsent
  cases hstored : batch.db.getUtxo outpoint with
  | none => simp [spendUtxo, spendableEntry, hpending, hstored]
  | some entry =>
      have hspent : outpoint ∈ batch.spentInBatch := by
        by_contra hunspent
        simp [getUtxo, hunspent, hpending, hstored] at habsent
      simp [spendUtxo, spendableEntry, hpending, hstored, hspent]

/-! ## What a clear operation keeps -/

theorem addUtxo_utxoDelta (batch : BlockBatch) (outpoint : Outpoint) (entry : UtxoEntry) :
    (batch.addUtxo outpoint entry).utxoDelta = batch.utxoDelta + 1 := by
  simp [utxoDelta, addUtxo]

theorem recordSpend_utxoDelta (batch : BlockBatch) (outpoint : Outpoint)
    (entry : UtxoEntry) :
    (batch.recordSpend outpoint entry).utxoDelta = batch.utxoDelta - 1 := by
  unfold recordSpend removeUniqueIdForEntry
  split <;> simp [utxoDelta, removePendingUniqueId] <;> omega

theorem Clean.addUtxo (hclean : Clean batch) {outpoint : Outpoint}
    (hfresh : batch.Fresh outpoint) (entry : UtxoEntry) :
    Clean (batch.addUtxo outpoint entry) := by
  have hview : batch.view.lookup outpoint = none := by
    rw [hclean.coherent.lookup, hfresh.pending, if_neg hfresh.unspent]
    exact hfresh.stored
  constructor
  case coherent => exact hclean.coherent.addUtxo outpoint entry
  case stored => exact hclean.stored
  case indexed =>
    rw [addUtxo_view, addUtxo_indexView]
    exact hclean.indexed.insert (ownedBy_of_lookup_none hview _)
  case overlap =>
    intro other hpending
    by_cases hother : other = outpoint
    · exact hother ▸ hfresh.stored
    · apply hclean.overlap other
      rwa [addUtxo_pendingUtxos, AList.lookup_insert_ne hother] at hpending
  case respent =>
    intro other hspent
    have hother : other ≠ outpoint := by
      rintro rfl
      exact hfresh.unspent hspent
    rw [addUtxo_pendingUtxos, AList.lookup_insert_ne hother]
    exact hclean.respent other hspent
  case count =>
    have hkeys : (batch.view.insert outpoint entry).keys =
        insert outpoint batch.view.keys := by
      ext other
      simp [Finmap.mem_keys]
    have hnew : outpoint ∉ batch.view.keys := by
      rwa [Finmap.mem_keys, ← Finmap.lookup_eq_none]
    have hcount := hclean.count
    rw [addUtxo_view, hkeys, Finset.card_insert_of_notMem hnew, addUtxo_utxoDelta,
      addUtxo_db]
    omega

theorem Clean.recordSpend (hclean : Clean batch) {outpoint : Outpoint} {entry : UtxoEntry}
    (hentry : batch.spendableEntry outpoint = some entry)
    (honce : batch.SpendsOnce [outpoint]) : Clean (batch.recordSpend outpoint entry) := by
  have hspends := Spends.single hentry
  have hview : batch.view.lookup outpoint = some entry := by
    rw [hclean.coherent.lookup]
    unfold spendableEntry at hentry
    split at hentry
    case h_1 pending hpending => rw [hpending, Option.some_or, hentry]
    case h_2 hpending =>
      have hunspent := (honce outpoint List.mem_cons_self (by simp [hentry])).1
      rw [hpending, Option.none_or, if_neg hunspent]
      exact hentry
  constructor
  case coherent => exact hspends.coherent hclean.coherent
  case stored => rw [recordSpend_db]; exact hclean.stored
  case indexed => exact hspends.indexed hclean.coherent hclean.indexed
  case overlap =>
    intro other hpending
    rw [recordSpend_db]
    apply hclean.overlap other
    rw [hspends.pending] at hpending
    split at hpending
    · contradiction
    · exact hpending
  case respent =>
    intro other hspent
    rw [recordSpend_spentInBatch, List.mem_append, List.mem_singleton] at hspent
    rw [hspends.pending]
    rcases hspent with hspent | rfl
    · simp [hclean.respent other hspent]
    · simp
  case count =>
    have hmem : outpoint ∈ batch.view.keys := by
      rw [Finmap.mem_keys, ← Finmap.lookup_isSome, hview]
      rfl
    have hcount := hclean.count
    have hpos := Finset.card_pos.mpr ⟨outpoint, hmem⟩
    rw [recordSpend_view, Finmap.keys_erase, Finset.card_erase_of_mem hmem,
      recordSpend_utxoDelta, recordSpend_db]
    omega

theorem Clean.of_uids (hclean : Clean batch) {next : BlockBatch}
    (hcoherent : Coherent next) (hdb : next.db = batch.db)
    (hutxo : next.utxoOps = batch.utxoOps) (hindex : next.indexOps = batch.indexOps)
    (hpending : next.pendingUtxos = batch.pendingUtxos)
    (hspent : next.spentInBatch = batch.spentInBatch) : Clean next := by
  have hview : next.view = batch.view := by rw [view, hutxo, hdb, view]
  have hindexView : next.indexView = batch.indexView := by
    rw [indexView, hindex, hdb, indexView]
  constructor
  case coherent => exact hcoherent
  case stored => rw [hdb]; exact hclean.stored
  case indexed => rw [hview, hindexView]; exact hclean.indexed
  case overlap => rw [hdb, hpending]; exact hclean.overlap
  case respent => rw [hspent, hpending]; exact hclean.respent
  case count => rw [hview, hdb, utxoDelta, hutxo]; exact hclean.count

theorem Clean.addPendingUniqueId (hclean : Clean batch) (uid : UidKey) :
    Clean (batch.addPendingUniqueId uid) := by
  refine hclean.of_uids ⟨hclean.coherent.lookup, fun other => ?_⟩ rfl rfl rfl rfl rfl
  have hother := hclean.coherent.uniqueId other
  by_cases heq : other = uid
  · simp [heq, hasUniqueIdCheck, uidView, BlockBatch.addPendingUniqueId]
  · simpa [heq, hasUniqueIdCheck, uidView, BlockBatch.addPendingUniqueId] using hother

theorem Clean.removePendingUniqueId (hclean : Clean batch) (uid : UidKey) :
    Clean (batch.removePendingUniqueId uid) := by
  refine hclean.of_uids ⟨hclean.coherent.lookup, fun other => ?_⟩ rfl rfl rfl rfl rfl
  have hother := hclean.coherent.uniqueId other
  by_cases heq : other = uid
  · simp [heq, hasUniqueIdCheck, uidView, BlockBatch.removePendingUniqueId]
  · simpa [heq, hasUniqueIdCheck, uidView, BlockBatch.removePendingUniqueId] using hother

theorem Clean.addUniqueIdForEntry (hclean : Clean batch) (entry : UtxoEntry) :
    Clean (batch.addUniqueIdForEntry entry) := by
  unfold BlockBatch.addUniqueIdForEntry
  split
  · exact hclean.addPendingUniqueId _
  · exact hclean

theorem SpendsOnce.tail {outpoint : Outpoint} {outpoints : List Outpoint}
    {entry : UtxoEntry} (honce : batch.SpendsOnce (outpoint :: outpoints)) :
    (batch.recordSpend outpoint entry).SpendsOnce outpoints := by
  intro other hother hstored
  rw [recordSpend_db] at hstored
  obtain ⟨hunspent, hcount⟩ := honce other (List.mem_cons_of_mem _ hother) hstored
  have hpos := List.count_pos_iff.mpr hother
  rw [List.count_cons] at hcount
  have hne : outpoint ≠ other := by
    rintro rfl
    simp at hcount
    omega
  rw [recordSpend_spentInBatch, List.mem_append, List.mem_singleton, not_or]
  refine ⟨⟨hunspent, fun heq => hne heq.symm⟩, ?_⟩
  simpa [hne] using hcount

theorem SpendsOnce.head {outpoint : Outpoint} {outpoints : List Outpoint}
    (honce : batch.SpendsOnce (outpoint :: outpoints)) : batch.SpendsOnce [outpoint] := by
  intro other hother hstored
  obtain rfl := List.mem_singleton.mp hother
  exact ⟨(honce other List.mem_cons_self hstored).1, by simp⟩

theorem Clean.spendInputs {inputs : List Input} (hclean : Clean batch)
    (honce : batch.SpendsOnce (inputs.map inputOutpoint)) (total : Nat) :
    Clean (BlockBatch.spendInputs inputs batch total).1 := by
  induction inputs generalizing batch total with
  | nil => exact hclean
  | cons input inputs ih =>
      cases hspend : batch.spendUtxo (inputOutpoint input) with
      | error error => simpa [BlockBatch.spendInputs, hspend] using hclean
      | ok pair =>
          obtain ⟨next, entry⟩ := pair
          obtain ⟨hentry, rfl⟩ := spendUtxo_ok_iff.mp hspend
          simp only [BlockBatch.spendInputs, hspend]
          exact ih (hclean.recordSpend hentry honce.head) honce.tail _

theorem Clean.addRows {rows : List (Outpoint × UtxoEntry)} (hclean : Clean batch)
    (hdistinct : (rows.map Prod.fst).Nodup)
    (hfresh : ∀ outpoint ∈ rows.map Prod.fst, batch.Fresh outpoint) :
    Clean (BlockBatch.addRows rows batch) := by
  induction rows generalizing batch with
  | nil => exact hclean
  | cons row rows ih =>
      rw [List.map_cons, List.nodup_cons] at hdistinct
      rw [addRows_cons]
      have hfirst := hfresh row.1 (by simp)
      apply ih
      · refine (hclean.addUniqueIdForEntry row.2).addUtxo ⟨?_, ?_, ?_⟩ row.2
        · simpa using hfirst.stored
        · simpa using hfirst.pending
        · simpa using hfirst.unspent
      · exact hdistinct.2
      · intro outpoint hmem
        have hrest := hfresh outpoint (by simp [hmem])
        have hne : outpoint ≠ row.1 := by
          rintro rfl
          exact hdistinct.1 hmem
        constructor
        case stored => simpa using hrest.stored
        case pending => simpa [AList.lookup_insert_ne hne] using hrest.pending
        case unspent => simpa using hrest.unspent

theorem Clean.applyOp {prim : Primitives} {op : BatchOp} (hclean : Clean batch)
    (hclear : op.Clear prim batch) : Clean (batch.applyOp prim op) := by
  cases op with
  | addUtxo outpoint entry => exact hclean.addUtxo hclear entry
  | spendUtxo outpoint =>
      simp only [BlockBatch.applyOp]
      split
      case h_1 next entry hspend =>
        obtain ⟨hentry, rfl⟩ := spendUtxo_ok_iff.mp hspend
        exact hclean.recordSpend hentry hclear
      case h_2 => exact hclean
  | spendTransactionUtxos tx => exact hclean.spendInputs hclear 0
  | addTransactionUtxos tx height isCoinbase slot =>
      simp only [BlockBatch.applyOp, addTransactionUtxos, addOutputs_eq_addRows]
      have hkeys := newRows_keys (prim.txHash tx) height slot isCoinbase tx.isEpochReward
        tx.outputs 0
      rw [← List.range_eq_range'] at hkeys
      apply hclean.addRows
      · rw [hkeys]; exact hclear.1
      · rw [hkeys]; exact hclear.2
  | addPendingUniqueId uid => exact hclean.addPendingUniqueId uid
  | removePendingUniqueId uid => exact hclean.removePendingUniqueId uid

@[simp] theorem applyOp_db (prim : Primitives) (batch : BlockBatch) (op : BatchOp) :
    (batch.applyOp prim op).db = batch.db := by
  cases op with
  | spendUtxo outpoint =>
      simp only [applyOp]
      split
      case h_1 next entry hspend =>
        obtain ⟨-, rfl⟩ := spendUtxo_ok_iff.mp hspend
        exact recordSpend_db ..
      case h_2 => rfl
  | spendTransactionUtxos tx =>
      obtain ⟨rows, -, hspends, -⟩ := spendInputs_spends tx.inputs batch 0
      exact hspends.db
  | addTransactionUtxos tx height isCoinbase slot =>
      simp [applyOp, addTransactionUtxos, addOutputs_eq_addRows]
  | _ => rfl

theorem applyOps_concat (prim : Primitives) (ops : List BatchOp) (op : BatchOp)
    (batch : BlockBatch) :
    applyOps prim (ops ++ [op]) batch = (applyOps prim ops batch).applyOp prim op :=
  List.foldl_concat ..

theorem applyOps_clean {prim : Primitives} {db : StateDb} (hindexed : db.Indexed)
    {ops : List BatchOp}
    (hclear : ∀ done op rest, ops = done ++ op :: rest →
      op.Clear prim (applyOps prim done db.beginBatch)) :
    Clean (applyOps prim ops db.beginBatch) ∧
      (applyOps prim ops db.beginBatch).db = db := by
  induction ops using List.reverseRecOn with
  | nil => exact ⟨clean_beginBatch hindexed, rfl⟩
  | append_singleton ops op ih =>
      obtain ⟨hclean, hdb⟩ := ih fun done other rest hops =>
        hclear done other (rest ++ [op]) (by simp [hops])
      rw [applyOps_concat]
      constructor
      · exact hclean.applyOp (hclear ops op [] rfl)
      · rw [applyOp_db, hdb]

/-- In every run of clear operations the overlay reads its own writes, and a spend
of an absent outpoint fails unless the batch took it from the store before. -/
theorem run_readsOwnWrites {prim : Primitives} {db : StateDb} (hindexed : db.Indexed)
    {utxoCount : Nat} (hcount : utxoCount = db.utxo.keys.card % 2 ^ 64)
    {ops : List BatchOp}
    (hclear : ∀ done op rest, ops = done ++ op :: rest →
      op.Clear prim (applyOps prim done db.beginBatch)) :
    ReadsOwnWrites (applyOps prim ops db.beginBatch) utxoCount ∧
    ∀ outpoint, (applyOps prim ops db.beginBatch).getUtxo outpoint = none →
      ((applyOps prim ops db.beginBatch).spendUtxo outpoint =
          .error (.notFound outpoint) ↔
        ¬ (outpoint ∈ (applyOps prim ops db.beginBatch).spentInBatch ∧
          (db.getUtxo outpoint).isSome)) := by
  obtain ⟨hclean, hdb⟩ := applyOps_clean hindexed hclear
  constructor
  · exact hclean.readsOwnWrites (hdb.symm ▸ hcount)
  · intro outpoint habsent
    rw [hclean.spendUtxo_absent habsent, hdb]

/-! ## One stored row -/

def sampleStoredEntry : UtxoEntry where
  output :=
    { outputType := .normal
      amount := 7
      pubkeyHash := ⟨1⟩
      lockUntil := 0
      extraData := [] }
  height := 5
  isCoinbase := false
  isEpochReward := false

def sampleStore : StateDb := StateDb.empty.insertUtxo ⟨⟨2⟩, 0⟩ sampleStoredEntry

theorem sampleStore_indexed : sampleStore.Indexed :=
  StateDb.indexed_empty.insertUtxo fun _ hentry => by simp [StateDb.empty] at hentry

/-- The stored row is spent and another one added. -/
theorem run_readsOwnWrites_sample :
    ReadsOwnWrites (applyOps samplePrimitives
      [.spendUtxo ⟨⟨2⟩, 0⟩, .addUtxo ⟨⟨3⟩, 0⟩ sampleStoredEntry] sampleStore.beginBatch) 1 := by
  refine (run_readsOwnWrites sampleStore_indexed (by decide +kernel) ?_).1
  intro done op rest hops
  rcases done with _ | ⟨first, _ | ⟨second, done⟩⟩
  · obtain ⟨rfl, -⟩ := List.cons.inj hops
    intro outpoint houtpoint _
    obtain rfl := List.mem_singleton.mp houtpoint
    decide +kernel
  · obtain ⟨rfl, hrest⟩ := List.cons.inj hops
    obtain ⟨rfl, -⟩ := List.cons.inj hrest
    exact ⟨by decide +kernel, by decide +kernel, by decide +kernel⟩
  · have hlength := congrArg List.length hops
    simp at hlength

/-- A second spend of the stored row is accepted, and a row added again at the
spent outpoint stays invisible; either way the count is off or the read is. -/
theorem respent_accepted :
    (applyOps samplePrimitives [.spendUtxo ⟨⟨2⟩, 0⟩] sampleStore.beginBatch).getUtxo
      ⟨⟨2⟩, 0⟩ = none ∧
    ((applyOps samplePrimitives [.spendUtxo ⟨⟨2⟩, 0⟩] sampleStore.beginBatch).spendUtxo
      ⟨⟨2⟩, 0⟩).toOption.isSome ∧
    (applyOps samplePrimitives [.spendUtxo ⟨⟨2⟩, 0⟩, .spendUtxo ⟨⟨2⟩, 0⟩]
      sampleStore.beginBatch).commitCount 1 = 2 ^ 64 - 1 ∧
    (applyOps samplePrimitives
      [.spendUtxo ⟨⟨2⟩, 0⟩, .addUtxo ⟨⟨2⟩, 0⟩ sampleStoredEntry]
        sampleStore.beginBatch).getUtxo ⟨⟨2⟩, 0⟩ = none ∧
    (applyOps samplePrimitives
      [.spendUtxo ⟨⟨2⟩, 0⟩, .addUtxo ⟨⟨2⟩, 0⟩ sampleStoredEntry]
        sampleStore.beginBatch).commit.getUtxo ⟨⟨2⟩, 0⟩ = some sampleStoredEntry := by
  decide +kernel

end BlockBatch

end Doli.Storage
