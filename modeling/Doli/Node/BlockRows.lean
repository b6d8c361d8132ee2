import Doli.Node.UndoInverts

/-!
# The rows of a block

Which rows the transactions of a block add, what its inputs resolve to, and
where every pending, spent and recorded row of a run comes from.
-/

namespace Doli.Node

open Doli.Core Doli.Lib Doli.Storage

/-- The rows a transaction of the block adds. -/
def txRows (ctx : BlockContext) (item : Transaction × Nat) :
    List (Outpoint × UtxoEntry) :=
  BlockBatch.newRows (ctx.utxo.prim.txHash item.1) ctx.height ctx.slot
    (isRewardTx item.2 item.1) item.1.isEpochReward item.1.outputs 0

def blockRows (ctx : BlockContext) (items : List (Transaction × Nat)) :
    List (Outpoint × UtxoEntry) :=
  items.flatMap (txRows ctx)

theorem txRows_keys (ctx : BlockContext) (item : Transaction × Nat) :
    (txRows ctx item).map Prod.fst = createdOutpoints ctx.utxo.prim item.1 :=
  createdOutpoints_eq_newRows ..

theorem blockRows_keys (ctx : BlockContext) (items : List (Transaction × Nat)) :
    (blockRows ctx items).map Prod.fst =
      items.flatMap fun item => createdOutpoints ctx.utxo.prim item.1 := by
  simp [blockRows, List.map_flatMap, txRows_keys]

theorem zipIdx_mem {txs : List Transaction} {item : Transaction × Nat}
    (hitem : item ∈ txs.zipIdx) :
    ∃ i : Fin txs.length, item = (txs.get i, (i : Nat)) := by
  obtain ⟨tx, index⟩ := item
  have hget := List.mem_zipIdx_iff_getElem?.mp hitem
  obtain ⟨hlt, htx⟩ := List.getElem?_eq_some_iff.mp hget
  exact ⟨⟨index, hlt⟩, Prod.ext htx.symm rfl⟩

theorem zipIdx_mem_later {txs : List Transaction}
    {done rest : List (Transaction × Nat)} (hsplit : txs.zipIdx = done ++ rest)
    {item : Transaction × Nat} (hitem : item ∈ rest) :
    ∃ j : Fin txs.length, done.length ≤ j ∧ item = (txs.get j, (j : Nat)) := by
  obtain ⟨k, hk, rfl⟩ := List.mem_iff_getElem.mp hitem
  have hlen : done.length + k < txs.length := by
    have := congrArg List.length hsplit
    simp at this
    omega
  refine ⟨⟨done.length + k, hlen⟩, Nat.le_add_right _ _, ?_⟩
  have hhere : txs.zipIdx[done.length + k]? = rest[k]? := by
    rw [hsplit, List.getElem?_append_right (Nat.le_add_right _ _),
      Nat.add_sub_cancel_left]
  rw [List.getElem?_eq_getElem hk, List.getElem?_zipIdx,
    List.getElem?_eq_getElem hlen] at hhere
  simpa using hhere.symm

theorem zipIdx_split_position {txs : List Transaction}
    {done rest : List (Transaction × Nat)} {tx : Transaction} {txIndex : Nat}
    (hsplit : txs.zipIdx = done ++ (tx, txIndex) :: rest) :
    ∃ i : Fin txs.length, done = txs.zipIdx.take i ∧ (i : Nat) = done.length ∧
      (tx, txIndex) = (txs.get i, (i : Nat)) := by
  have hlen : done.length < txs.length := by
    have := congrArg List.length hsplit
    simp at this
    omega
  have htake : done = txs.zipIdx.take done.length := by
    rw [hsplit, List.take_left]
  have hhere := congrArg (·[done.length]?) hsplit
  simp only [List.getElem?_append_right (le_refl _), Nat.sub_self,
    List.getElem?_cons_zero, List.getElem?_zipIdx, List.getElem?_eq_getElem hlen] at hhere
  refine ⟨⟨done.length, hlen⟩, htake, rfl, ?_⟩
  simpa using hhere.symm

theorem blockRows_keys_eq (ctx : BlockContext) (txs : List Transaction) :
    (blockRows ctx txs.zipIdx).map Prod.fst =
      txs.flatMap (createdOutpoints ctx.utxo.prim) := by
  rw [blockRows_keys]
  conv_rhs => rw [← List.zipIdx_map_fst 0 txs, List.flatMap_map]

theorem blockRows_append (ctx : BlockContext)
    (items others : List (Transaction × Nat)) :
    blockRows ctx (items ++ others) = blockRows ctx items ++ blockRows ctx others :=
  List.flatMap_append ..

/-- New rows stand at distinct outpoints, none of them occupied. -/
structure NewRows (db : StateDb) (rows : List (Outpoint × UtxoEntry)) : Prop where
  distinct : (rows.map Prod.fst).Nodup
  unstored : ∀ outpoint ∈ rows.map Prod.fst, db.getUtxo outpoint = none

theorem NewRows.left {db : StateDb} {rows others : List (Outpoint × UtxoEntry)}
    (hnew : NewRows db (rows ++ others)) : NewRows db rows where
  distinct := by
    have hdistinct := hnew.distinct
    rw [List.map_append] at hdistinct
    exact hdistinct.of_append_left
  unstored outpoint hmem := hnew.unstored outpoint (by
    rw [List.map_append]
    exact List.mem_append_left _ hmem)

theorem NewRows.entry_unique {db : StateDb} {rows : List (Outpoint × UtxoEntry)}
    (hnew : NewRows db rows) {outpoint : Outpoint} {entry other : UtxoEntry}
    (hentry : (outpoint, entry) ∈ rows) (hother : (outpoint, other) ∈ rows) :
    entry = other := by
  have hsame := List.inj_on_of_nodup_map hnew.distinct hentry hother rfl
  exact (Prod.mk.inj hsame).2

theorem NewRows.lookup_row {db : StateDb} {rows : List (Outpoint × UtxoEntry)}
    (hnew : NewRows db rows) {outpoint : Outpoint} {entry : UtxoEntry}
    (hrow : (outpoint, entry) ∈ rows) :
    (Journal.insertAll rows db.utxo).lookup outpoint = some entry := by
  obtain ⟨value, hvalue, hlookup⟩ :=
    Journal.lookup_insertAll_of_mem (List.mem_map_of_mem hrow) db.utxo
  rw [hlookup, hnew.entry_unique hvalue hrow]

theorem NewRows.lookup_stored {db : StateDb} {rows : List (Outpoint × UtxoEntry)}
    (hnew : NewRows db rows) {outpoint : Outpoint} {entry : UtxoEntry}
    (hstored : db.getUtxo outpoint = some entry) :
    (Journal.insertAll rows db.utxo).lookup outpoint = some entry := by
  rw [Journal.lookup_insertAll_of_notMem]
  · exact hstored
  · intro hmem
    rw [hnew.unstored outpoint hmem] at hstored
    contradiction

/-- What an outpoint names for the transactions of a block: a row of the store
or one that the block adds. -/
def inputEntry (ctx : BlockContext) (txs : List Transaction) (db : StateDb)
    (outpoint : Outpoint) : Option UtxoEntry :=
  (Journal.insertAll (blockRows ctx txs.zipIdx) db.utxo).lookup outpoint

section InputEntry

variable {ctx : BlockContext} {txs : List Transaction} {db : StateDb}
  {outpoint : Outpoint} {entry : UtxoEntry}

theorem inputEntry_of_row (hnew : NewRows db (blockRows ctx txs.zipIdx))
    (hrow : (outpoint, entry) ∈ blockRows ctx txs.zipIdx) :
    inputEntry ctx txs db outpoint = some entry :=
  hnew.lookup_row hrow

theorem inputEntry_of_stored (hnew : NewRows db (blockRows ctx txs.zipIdx))
    (hstored : db.getUtxo outpoint = some entry) :
    inputEntry ctx txs db outpoint = some entry :=
  hnew.lookup_stored hstored

end InputEntry

/-- Every row the overlay can read is the one `known` names. -/
def Known (known : Outpoint → Option UtxoEntry) (batch : BlockBatch) : Prop :=
  ∀ outpoint entry, batch.pendingUtxos.lookup outpoint = some entry ∨
    batch.db.getUtxo outpoint = some entry → known outpoint = some entry

theorem enumerable_of_known {known : Outpoint → Option UtxoEntry}
    {batch : BlockBatch} (hindexed : batch.db.Indexed)
    (hknown : Known known batch)
    (hrespent : ∀ outpoint ∈ batch.spentInBatch,
      batch.pendingUtxos.lookup outpoint = none) : batch.Enumerable where
  indexed := hindexed
  overlap outpoint pending stored hpending hstored := by
    have hleft := hknown outpoint pending (.inl hpending)
    have hright := hknown outpoint stored (.inr hstored)
    rw [hleft, Option.some.injEq] at hright
    exact hright.symm
  respent := hrespent

theorem uniqueIdOf_of_isSlashBurnable {output : Output} {height : Nat}
    (hburnable : isSlashBurnable output height = true) :
    uniqueIdOf output = none := by
  unfold isSlashBurnable at hburnable
  unfold uniqueIdOf
  split at hburnable <;> simp_all

/-! ## Where the rows of a run come from -/

section Located

variable {ctx : BlockContext} {txIndex : Nat} {tx : Transaction}
  {state next : UtxoState} {spent : BlockBatch}
  {burned consumed : List (Outpoint × UtxoEntry)}

theorem TxEffect.batch_eq
    (heffect : TxEffect ctx txIndex tx state next spent burned consumed) :
    next.batch = BlockBatch.addRows (txRows ctx (tx, txIndex)) spent := by
  rw [heffect.batch, addTransactionUtxos_eq]
  rfl

theorem TxEffect.entry
    (heffect : TxEffect ctx txIndex tx state next spent burned consumed)
    {known : Outpoint → Option UtxoEntry} (hknown : Known known state.batch) :
    ∀ row ∈ burned ++ consumed, known row.1 = some row.2 :=
  fun row hrow => hknown row.1 row.2 (heffect.spends.entries row hrow)

theorem burned_deleteUid {batch : BlockBatch}
    {known : Outpoint → Option UtxoEntry} (hknown : Known known batch)
    (hkeys : burned.map Prod.fst = (burnableRows ctx tx batch).map Prod.fst)
    (hentries : ∀ row ∈ burned, known row.1 = some row.2) :
    (burned.flatMap fun row => BlockBatch.deleteUid row.2) = [] := by
  rw [List.flatMap_eq_nil_iff]
  intro row hrow
  have hkey : row.1 ∈ (burnableRows ctx tx batch).map Prod.fst := by
    rw [← hkeys]
    exact List.mem_map_of_mem hrow
  obtain ⟨listed, hlisted, hsame⟩ := List.mem_map.mp hkey
  have hother := hknown listed.1 listed.2 (mem_burnableRows hlisted).symm
  rw [hsame, hentries row hrow, Option.some.injEq] at hother
  rw [BlockBatch.deleteUid, hother,
    uniqueIdOf_of_isSlashBurnable (isSlashBurnable_of_mem hlisted)]
  rfl

theorem TxEffect.pending_mem
    (heffect : TxEffect ctx txIndex tx state next spent burned consumed)
    {outpoint : Outpoint} {entry : UtxoEntry}
    (hlookup : next.batch.pendingUtxos.lookup outpoint = some entry) :
    (outpoint, entry) ∈ txRows ctx (tx, txIndex) ∨
      state.batch.pendingUtxos.lookup outpoint = some entry := by
  rw [heffect.batch_eq] at hlookup
  rcases BlockBatch.addRows_pendingUtxos_mem hlookup with hmem | hpending
  · exact .inl hmem
  · rw [heffect.spends.pending] at hpending
    split at hpending
    · contradiction
    · exact .inr hpending

theorem TxEffect.spentInBatch
    (heffect : TxEffect ctx txIndex tx state next spent burned consumed) :
    next.batch.spentInBatch =
      state.batch.spentInBatch ++ (burned ++ consumed).map Prod.fst := by
  rw [heffect.batch_eq, BlockBatch.addRows_spentInBatch, heffect.spends.spent]

/-- Pending rows are rows of the block so far. -/
def PendingRows (ctx : BlockContext) (done : List (Transaction × Nat))
    (state : UtxoState) : Prop :=
  ∀ outpoint entry, state.batch.pendingUtxos.lookup outpoint = some entry →
    (outpoint, entry) ∈ blockRows ctx done

theorem pendingRows_initial (ctx : BlockContext) (db : StateDb) :
    PendingRows ctx [] (.initial db) := by
  intro outpoint entry hpending
  simp [UtxoState.initial, StateDb.beginBatch] at hpending

theorem PendingRows.step {done : List (Transaction × Nat)}
    (hpending : PendingRows ctx done state)
    (heffect : TxEffect ctx txIndex tx state next spent burned consumed) :
    PendingRows ctx (done ++ [(tx, txIndex)]) next := by
  intro outpoint entry hlookup
  rw [blockRows_append, List.mem_append]
  rcases heffect.pending_mem hlookup with hmem | hold
  · exact .inr (by simpa [blockRows] using hmem)
  · exact .inl (hpending outpoint entry hold)

/-- Over a store without the rows of the block, a row of the block is pending
until it is spent, and nothing else is ever spent but stored rows. -/
structure Located (ctx : BlockContext) (db : StateDb)
    (done : List (Transaction × Nat)) (state : UtxoState) : Prop where
  pending : PendingRows ctx done state
  placed : ∀ row ∈ blockRows ctx done,
    state.batch.pendingUtxos.lookup row.1 = some row.2 ∨
      row.1 ∈ state.batch.spentInBatch
  respent : ∀ outpoint ∈ state.batch.spentInBatch,
    state.batch.pendingUtxos.lookup outpoint = none
  origin : ∀ outpoint ∈ state.batch.spentInBatch,
    (db.getUtxo outpoint).isSome ∨ outpoint ∈ (blockRows ctx done).map Prod.fst

theorem located_initial (ctx : BlockContext) (db : StateDb) :
    Located ctx db [] (.initial db) where
  pending := pendingRows_initial ctx db
  placed := by simp [blockRows]
  respent := by simp [UtxoState.initial, StateDb.beginBatch]
  origin := by simp [UtxoState.initial, StateDb.beginBatch]

theorem Located.step {db : StateDb} {done : List (Transaction × Nat)}
    (hlocated : Located ctx db done state) (hdb : state.batch.db = db)
    (heffect : TxEffect ctx txIndex tx state next spent burned consumed)
    (hnew : NewRows db (blockRows ctx (done ++ [(tx, txIndex)]))) :
    Located ctx db (done ++ [(tx, txIndex)]) next := by
  have hsplit : blockRows ctx (done ++ [(tx, txIndex)]) =
      blockRows ctx done ++ txRows ctx (tx, txIndex) := by
    rw [blockRows_append]
    simp [blockRows]
  rw [hsplit] at hnew
  have hdistinct := hnew.distinct
  rw [List.map_append] at hdistinct
  obtain ⟨-, hadded, hdisjoint⟩ := List.nodup_append.mp hdistinct
  have hspentOrigin : ∀ outpoint ∈ (burned ++ consumed).map Prod.fst,
      (db.getUtxo outpoint).isSome ∨
        outpoint ∈ (blockRows ctx done).map Prod.fst := by
    intro outpoint hmem
    obtain ⟨row, hrow, rfl⟩ := List.mem_map.mp hmem
    rcases heffect.spends.entries row hrow with hpending | hstored
    · exact .inr (List.mem_map_of_mem (hlocated.pending _ _ hpending))
    · rw [hdb] at hstored
      exact .inl (by simp [hstored])
  have horigin : ∀ outpoint ∈ next.batch.spentInBatch,
      (db.getUtxo outpoint).isSome ∨
        outpoint ∈ (blockRows ctx done).map Prod.fst := by
    intro outpoint hmem
    rw [heffect.spentInBatch, List.mem_append] at hmem
    exact hmem.elim (hlocated.origin outpoint) (hspentOrigin outpoint)
  refine ⟨hlocated.pending.step heffect, ?_, ?_, ?_⟩
  · intro row hrow
    rw [hsplit, List.mem_append] at hrow
    rw [heffect.spentInBatch, heffect.batch_eq, List.mem_append]
    rcases hrow with hold | hadd
    · have hother : row.1 ∉ (txRows ctx (tx, txIndex)).map Prod.fst :=
        fun hmem => hdisjoint _ (List.mem_map_of_mem hold) _ hmem rfl
      rw [BlockBatch.addRows_pendingUtxos_of_notMem hother, heffect.spends.pending]
      by_cases hspent : row.1 ∈ (burned ++ consumed).map Prod.fst
      · exact .inr (.inr hspent)
      · rw [if_neg hspent]
        exact (hlocated.placed row hold).imp id .inl
    · exact .inl (BlockBatch.addRows_pendingUtxos_of_mem hadded hadd)
  · intro outpoint hmem
    have hother : outpoint ∉ (txRows ctx (tx, txIndex)).map Prod.fst := by
      intro hadd
      rcases horigin outpoint hmem with hstored | hold
      · have hnone := hnew.unstored outpoint (by
          rw [List.map_append]
          exact List.mem_append_right _ hadd)
        simp [hnone] at hstored
      · exact hdisjoint _ hold _ hadd rfl
    rw [heffect.spentInBatch, List.mem_append] at hmem
    rw [heffect.batch_eq, BlockBatch.addRows_pendingUtxos_of_notMem hother,
      heffect.spends.pending]
    split
    · rfl
    case isFalse hspent =>
      exact hlocated.respent outpoint (hmem.resolve_right hspent)
  · intro outpoint hmem
    rw [hsplit, List.map_append, List.mem_append]
    exact (horigin outpoint hmem).imp id .inl

end Located

/-! ## Unique ids -/

/-- The ids the duplicate check of a transaction looks at. -/
def gatedIds (tx : Transaction) : List UidKey :=
  tx.outputs.filterMap (mintedId tx.txType)

theorem checkDuplicateIds_ok_iff {batch : BlockBatch} {txType : TxType}
    {outputs : List Output} :
    checkDuplicateIds batch txType outputs = .ok () ↔
      ∀ uid ∈ outputs.filterMap (mintedId txType),
        batch.hasUniqueIdCheck uid = false := by
  induction outputs with
  | nil => simp [checkDuplicateIds]
  | cons output outputs ih =>
      cases hminted : mintedId txType output with
      | none => simpa [checkDuplicateIds, hminted] using ih
      | some uid =>
          cases hcheck : batch.hasUniqueIdCheck uid with
          | true => simp [checkDuplicateIds, hminted, hcheck]
          | false => simpa [checkDuplicateIds, hminted, hcheck] using ih

/-- The id writes of a transaction: what it spends, then what it adds. -/
def idOps (ctx : BlockContext) (txs : List Transaction) (db : StateDb)
    (item : Transaction × Nat) : List (WriteOp UidKey Unit) :=
  ((spentInputs item.1 (isRewardTx item.2 item.1)).filterMap
    (inputEntry ctx txs db)).flatMap BlockBatch.deleteUid ++
  (txRows ctx item).flatMap fun row => BlockBatch.putUid row.2

def blockIdOps (ctx : BlockContext) (txs : List Transaction) (db : StateDb)
    (items : List (Transaction × Nat)) : List (WriteOp UidKey Unit) :=
  items.flatMap (idOps ctx txs db)

theorem flatMap_deleteUid {known : Outpoint → Option UtxoEntry}
    {rows : List (Outpoint × UtxoEntry)}
    (hentries : ∀ row ∈ rows, known row.1 = some row.2) :
    (rows.flatMap fun row => BlockBatch.deleteUid row.2) =
      ((rows.map Prod.fst).filterMap known).flatMap BlockBatch.deleteUid := by
  induction rows with
  | nil => rfl
  | cons row rows ih =>
      have hrow := hentries row List.mem_cons_self
      have hrest := ih fun other hother =>
        hentries other (List.mem_cons_of_mem _ hother)
      simp [hrow, hrest]

theorem TxEffect.uids {ctx : BlockContext} {txIndex : Nat} {tx : Transaction}
    {state next : UtxoState} {spent : BlockBatch}
    {burned consumed : List (Outpoint × UtxoEntry)}
    (heffect : TxEffect ctx txIndex tx state next spent burned consumed)
    (hmode : ctx.mode ≠ .replay) {txs : List Transaction} {db : StateDb}
    (hknown : Known (inputEntry ctx txs db) state.batch) :
    next.batch.uids =
      state.batch.uids.writeAll (idOps ctx txs db (tx, txIndex)) := by
  have hentry := heffect.entry hknown
  have hburned := burned_deleteUid hknown heffect.burned_keys
    fun row hrow => hentry row (List.mem_append_left _ hrow)
  have hconsumed := flatMap_deleteUid
    fun row hrow => hentry row (List.mem_append_right _ hrow)
  rw [heffect.batch_eq, BlockBatch.addRows_uids, heffect.spends.uids,
    List.flatMap_append, hburned, List.nil_append, hconsumed,
    heffect.consumed_keys hmode, ← BlockBatch.UidState.writeAll_append]
  rfl

section Runs

variable {ctx : BlockContext} {txs : List Transaction} {db start : StateDb}
  {done rest : List (Transaction × Nat)} {state : UtxoState}

theorem known_of_pendingRows (hnew : NewRows db (blockRows ctx txs.zipIdx))
    (hstart : ∀ outpoint entry, start.getUtxo outpoint = some entry →
      inputEntry ctx txs db outpoint = some entry)
    (hsplit : txs.zipIdx = done ++ rest) (hdb : state.batch.db = start)
    (hpending : PendingRows ctx done state) :
    Known (inputEntry ctx txs db) state.batch := by
  rintro outpoint entry (hlookup | hstored)
  · refine inputEntry_of_row hnew ?_
    rw [hsplit, blockRows_append]
    exact List.mem_append_left _ (hpending outpoint entry hlookup)
  · rw [hdb] at hstored
    exact hstart outpoint entry hstored

theorem pending_none_of_later (hnew : NewRows db (blockRows ctx txs.zipIdx))
    (hsplit : txs.zipIdx = done ++ rest) (hpending : PendingRows ctx done state)
    {row : Outpoint × UtxoEntry} (hrow : row ∈ blockRows ctx rest) :
    state.batch.pendingUtxos.lookup row.1 = none := by
  cases hlookup : state.batch.pendingUtxos.lookup row.1 with
  | none => rfl
  | some entry =>
      have hearlier := List.mem_map_of_mem (f := Prod.fst)
        (hpending row.1 entry hlookup)
      have hdistinct := hnew.distinct
      rw [hsplit, blockRows_append, List.map_append] at hdistinct
      have hdisjoint := (List.nodup_append.mp hdistinct).2.2
      have hlater := List.mem_map_of_mem (f := Prod.fst) hrow
      exact absurd rfl (hdisjoint _ hearlier _ hlater)

theorem run_uids (hmode : ctx.mode ≠ .replay)
    (hnew : NewRows db (blockRows ctx txs.zipIdx))
    (hstart : ∀ outpoint entry, start.getUtxo outpoint = some entry →
      inputEntry ctx txs db outpoint = some entry)
    (hsplit : txs.zipIdx = done ++ rest)
    (hrun : run (processStep ctx) done (.initial start) = .ok state) :
    state.batch.db = start ∧ PendingRows ctx done state ∧
      state.batch.uids =
        start.beginBatch.uids.writeAll (blockIdOps ctx txs db done) := by
  refine run_invariant (fun done state => state.batch.db = start ∧
    PendingRows ctx done state ∧ state.batch.uids =
      start.beginBatch.uids.writeAll (blockIdOps ctx txs db done))
    ⟨rfl, pendingRows_initial ctx start, rfl⟩ ?_ hrun
  rintro earlier ⟨tx, txIndex⟩ later current next hitems ⟨hdb, hpending, huids⟩ hstep
  obtain ⟨spent, burned, consumed, heffect⟩ := processTransactionUtxos_effect hstep
  have hinitial : txs.zipIdx = earlier ++ ((tx, txIndex) :: later ++ rest) := by
    rw [hsplit, hitems]
    simp
  have hknown := known_of_pendingRows hnew hstart hinitial hdb hpending
  refine ⟨?_, hpending.step heffect, ?_⟩
  · rw [heffect.batch_eq, BlockBatch.addRows_db, heffect.spends.db, hdb]
  · rw [heffect.uids hmode hknown, huids, ← BlockBatch.UidState.writeAll_append]
    simp [blockIdOps]

end Runs

end Doli.Node
