import Doli.Node.AgreeStep

/-!
# The store after a rollback

The rollback puts every old row back, and with them the rows that the block
created and spent; it keeps the owner index exact and does not touch the
unique-id index.
-/

namespace Doli.Node

open Doli.Core Doli.Lib Doli.Storage

/-! ## What a block leaves -/

/-- Everything recorded is spent. -/
def RecordedSpent (state : UtxoState) : Prop :=
  ∀ outpoint ∈ state.recordedKeys, outpoint ∈ state.batch.spentInBatch

theorem RecordedSpent.step {ctx : BlockContext} {txIndex : Nat} {tx : Transaction}
    {state next : UtxoState} {spent : BlockBatch}
    {burned consumed : List (Outpoint × UtxoEntry)}
    (hrecorded : RecordedSpent state) (hmode : ctx.mode ≠ .replay)
    (heffect : TxEffect ctx txIndex tx state next spent burned consumed) :
    RecordedSpent next := by
  intro outpoint hmem
  rw [heffect.spentInBatch, List.map_append, List.mem_append, List.mem_append]
  simp only [UtxoState.recordedKeys, heffect.recorded, List.map_append,
    List.mem_append] at hmem
  rcases hmem with (hold | hcaptured) | hburned
  · exact .inl (hrecorded outpoint hold)
  · obtain ⟨row, hrow, rfl⟩ := List.mem_map.mp hcaptured
    refine .inr (.inr ?_)
    rw [heffect.consumed_keys hmode]
    unfold capturedRows at hrow
    split at hrow
    · simp at hrow
    case isFalse hreward =>
      exact mem_spentInputs.mpr
        ⟨by simpa using hreward, (captureInputs_mem hrow).1⟩
  · obtain ⟨row, hrow, rfl⟩ := List.mem_map.mp hburned
    refine .inr (.inl ?_)
    rw [heffect.burned_keys]
    exact List.mem_map_of_mem (List.mem_filter.mp hrow).1

theorem RecordedSpent.replaceOraclePrice {ctx : BlockContext} {state : UtxoState}
    (hrecorded : RecordedSpent state) (price : PairPrice) :
    RecordedSpent (replaceOraclePrice ctx state price) := by
  intro outpoint hmem
  have hspends := consumeOraclePrice_spends state
    (oraclePriceOutpoint ctx.utxo.prim price.pairId)
  simp only [UtxoState.recordedKeys, replaceOraclePrice_undoSpent,
    List.map_append, List.mem_append] at hmem
  simp only [Doli.Node.replaceOraclePrice, BlockBatch.addUtxo_spentInBatch,
    hspends.spent, List.mem_append]
  exact hmem.imp (hrecorded outpoint) id

theorem TxEffect.indexed {ctx : BlockContext} {txIndex : Nat} {tx : Transaction}
    {state next : UtxoState} {spent : BlockBatch} {db : StateDb}
    {burned consumed : List (Outpoint × UtxoEntry)}
    (heffect : TxEffect ctx txIndex tx state next spent burned consumed)
    (htracked : Tracked db state)
    (hnew : NewRows db (txRows ctx (tx, txIndex)))
    (hunknown : ∀ outpoint ∈ (txRows ctx (tx, txIndex)).map Prod.fst,
      state.batch.pendingUtxos.lookup outpoint = none)
    (hexact : IndexExact state.batch.view state.batch.indexView) :
    IndexExact next.batch.view next.batch.indexView := by
  rw [heffect.batch_eq]
  refine BlockBatch.addRows_indexed
    (heffect.spends.indexed htracked.coherent hexact) hnew.distinct ?_
  intro outpoint hmem
  rw [(heffect.spends.coherent htracked.coherent).lookup, heffect.spends.pending,
    hunknown outpoint hmem, heffect.spends.db, htracked.db_eq]
  have hunstored : db.utxo.lookup outpoint = none := hnew.unstored outpoint hmem
  simp [hunstored]

/-- A row of the block that some transaction of it spends. -/
def Consumed (ctx : BlockContext) (txs : List Transaction) (outpoint : Outpoint)
    (entry : UtxoEntry) : Prop :=
  (outpoint, entry) ∈ blockRows ctx txs.zipIdx ∧
    ∃ item ∈ txs.zipIdx, outpoint ∈ spentInputs item.1 (isRewardTx item.2 item.1)

/-- The transaction ids and oracle addresses of a block are hashes: what it
creates is new, and only oracle prices stand at the oracle addresses.  The
owner index of the store is exact. -/
structure FreshBlock (ctx : BlockContext) (txs : List Transaction)
    (prices : List PairPrice) (db : StateDb) : Prop where
  outpoints : FreshOutpoints ctx.utxo.prim txs prices db
  nodup : (txs.flatMap (createdOutpoints ctx.utxo.prim)).Nodup
  indexed : db.Indexed
  oracle : ∀ price ∈ prices, ∀ entry,
    db.getUtxo (oraclePriceOutpoint ctx.utxo.prim price.pairId) = some entry →
      entry.output.outputType = .oraclePrice

/-- What holds between a store and the state of a block over it. -/
structure Journaled (ctx : BlockContext) (txs : List Transaction) (db : StateDb)
    (state : UtxoState) : Prop where
  tracked : Tracked db state
  faithful : Faithful (Consumed ctx txs) db state
  recorded : ctx.mode ≠ .replay → RecordedSpent state
  indexed : IndexExact state.batch.view state.batch.indexView

section Block

variable {ctx : BlockContext} {txs : List Transaction} {prices : List PairPrice}
  {db : StateDb} {state : UtxoState}

theorem FreshBlock.newRows (hfresh : FreshBlock ctx txs prices db) :
    NewRows db (blockRows ctx txs.zipIdx) := by
  have hkeys := blockRows_keys_eq ctx txs
  refine ⟨by rw [hkeys]; exact hfresh.nodup, fun outpoint hmem => ?_⟩
  rw [hkeys] at hmem
  obtain ⟨tx, htx, hout⟩ := List.mem_flatMap.mp hmem
  exact hfresh.outpoints.created tx htx outpoint hout

theorem journaled_initial (ctx : BlockContext) (txs : List Transaction)
    (hindexed : db.Indexed) : Journaled ctx txs db (.initial db) where
  tracked := tracked_initial db
  faithful := faithful_initial _ db
  recorded := by
    intro _ outpoint hmem
    simp [UtxoState.recordedKeys, UtxoState.initial] at hmem
  indexed := hindexed

theorem Journaled.step {done rest : List (Transaction × Nat)} {txIndex : Nat}
    {tx : Transaction} {next : UtxoState}
    (hjournaled : Journaled ctx txs db state)
    (hlocated : Located ctx db done state)
    (hnew : NewRows db (blockRows ctx txs.zipIdx))
    (hsplit : txs.zipIdx = done ++ (tx, txIndex) :: rest)
    (hprocess : processTransactionUtxos ctx txIndex tx state = .ok next) :
    Journaled ctx txs db next ∧
      Located ctx db (done ++ [(tx, txIndex)]) next := by
  obtain ⟨spent, burned, consumed, heffect⟩ :=
    processTransactionUtxos_effect hprocess
  have hblock : blockRows ctx txs.zipIdx =
      blockRows ctx (done ++ [(tx, txIndex)]) ++ blockRows ctx rest := by
    rw [hsplit, ← blockRows_append]
    simp
  have hinitial : NewRows db (blockRows ctx (done ++ [(tx, txIndex)])) := by
    rw [hblock] at hnew
    exact hnew.left
  have hrows : blockRows ctx (done ++ [(tx, txIndex)]) =
      blockRows ctx done ++ txRows ctx (tx, txIndex) := by
    simp [blockRows]
  have hdistinct := hinitial.distinct
  rw [hrows, List.map_append] at hdistinct
  obtain ⟨-, hadded, -⟩ := List.nodup_append.mp hdistinct
  have hadds : NewRows db (txRows ctx (tx, txIndex)) :=
    ⟨hadded, fun outpoint hmem => hinitial.unstored outpoint (by
      rw [hrows, List.map_append]
      exact List.mem_append_right _ hmem)⟩
  refine ⟨⟨hjournaled.tracked.step heffect,
    hjournaled.faithful.step hjournaled.tracked heffect ?_ ?_,
    fun hmode => (hjournaled.recorded hmode).step hmode heffect,
    heffect.indexed hjournaled.tracked hadds ?_ hjournaled.indexed⟩,
    hlocated.step hjournaled.tracked.db_eq heffect hinitial⟩
  · intro outpoint hinput entry hpending
    refine ⟨?_, (tx, txIndex), by simp [hsplit], hinput⟩
    rw [hblock, hrows, List.append_assoc]
    exact List.mem_append_left _ (hlocated.pending outpoint entry hpending)
  · intro outpoint hmem
    exact hadds.unstored outpoint (by rwa [txRows_keys])
  · intro outpoint hmem
    obtain ⟨row, hrow, rfl⟩ := List.mem_map.mp hmem
    exact pending_none_of_later hnew hsplit hlocated.pending
      (List.mem_flatMap.mpr ⟨(tx, txIndex), List.mem_cons_self, hrow⟩)

theorem Journaled.view_none_of_later {done rest : List (Transaction × Nat)}
    (hjournaled : Journaled ctx txs db state)
    (hlocated : Located ctx db done state)
    (hnew : NewRows db (blockRows ctx txs.zipIdx))
    (hsplit : txs.zipIdx = done ++ rest)
    {row : Outpoint × UtxoEntry} (hrow : row ∈ blockRows ctx rest) :
    state.batch.view.lookup row.1 = none := by
  have hmem : row ∈ blockRows ctx txs.zipIdx := by
    rw [hsplit, blockRows_append]
    exact List.mem_append_right _ hrow
  have hunstored : db.utxo.lookup row.1 = none :=
    hnew.unstored row.1 (List.mem_map_of_mem hmem)
  rw [hjournaled.tracked.coherent.lookup, hjournaled.tracked.db_eq, hunstored,
    pending_none_of_later hnew hsplit hlocated.pending hrow]
  simp

theorem Journaled.enumerable {done rest : List (Transaction × Nat)}
    (hjournaled : Journaled ctx txs db state)
    (hlocated : Located ctx db done state) (hindexed : db.Indexed)
    (hnew : NewRows db (blockRows ctx txs.zipIdx))
    (hsplit : txs.zipIdx = done ++ rest) : state.batch.Enumerable :=
  enumerable_of_known (hjournaled.tracked.db_eq ▸ hindexed)
    (known_of_pendingRows hnew (fun _ _ => inputEntry_of_stored hnew) hsplit
      hjournaled.tracked.db_eq hlocated.pending)
    hlocated.respent

theorem processTransactions_journaled
    (hindexed : db.Indexed) (hnew : NewRows db (blockRows ctx txs.zipIdx))
    (hprocess : processTransactions ctx txs db = .ok state) :
    Journaled ctx txs db state ∧ Located ctx db txs.zipIdx state := by
  refine run_invariant (fun done state => Journaled ctx txs db state ∧
    Located ctx db done state)
    ⟨journaled_initial ctx txs hindexed, located_initial ctx db⟩ ?_ hprocess
  rintro done ⟨tx, txIndex⟩ rest current next hitems ⟨hjournaled, hlocated⟩ hstep
  exact hjournaled.step hlocated hnew hitems hstep

theorem Journaled.replaceOraclePrice {price : PairPrice}
    (hjournaled : Journaled ctx txs db state)
    (hnew : oraclePriceOutpoint ctx.utxo.prim price.pairId ∉ state.undoCreated) :
    Journaled ctx txs db (replaceOraclePrice ctx state price) where
  tracked := hjournaled.tracked.replaceOraclePrice ctx price
  faithful := hjournaled.faithful.replaceOraclePrice hjournaled.tracked hnew
  recorded hmode := (hjournaled.recorded hmode).replaceOraclePrice price
  indexed := replaceOraclePrice_indexed hjournaled.tracked hnew hjournaled.indexed

theorem replaceOraclePrices_journaled {prices : List PairPrice}
    (hjournaled : Journaled ctx txs db state)
    (hdistinct : (prices.map fun price =>
      oraclePriceOutpoint ctx.utxo.prim price.pairId).Nodup)
    (hnew : ∀ price ∈ prices,
      oraclePriceOutpoint ctx.utxo.prim price.pairId ∉ state.undoCreated) :
    Journaled ctx txs db (replaceOraclePrices ctx prices state) := by
  apply replaceOraclePrices_invariant _ hjournaled hdistinct hnew
  exact fun _ _ hstate habsent => hstate.replaceOraclePrice habsent

end Block

/-! ## The store after the rollback -/

def UtxoState.undo (state : UtxoState) : UndoData :=
  ⟨state.undoSpent, state.undoCreated⟩

section Rollback

variable {ctx : BlockContext} {txs : List Transaction} {db : StateDb}
  {state : UtxoState} {outpoint : Outpoint} {entry : UtxoEntry}

theorem rollbackUtxos_uniqueIds (undo : UndoData) (db : StateDb) :
    (rollbackUtxos undo db).uniqueIds = db.uniqueIds := by
  have hinsert : ∀ (rows : List (Outpoint × UtxoEntry)) (db : StateDb),
      (rows.foldl (fun db row => db.insertUtxo row.1 row.2) db).uniqueIds =
        db.uniqueIds := by
    intro rows
    induction rows with
    | nil => exact fun _ => rfl
    | cons row rows ih => exact fun db => by simp [ih]
  rw [rollbackUtxos, hinsert]
  induction undo.createdUtxos generalizing db with
  | nil => rfl
  | cons key keys ih => simp [ih]

theorem getUtxo_rollback_of_recorded
    (hkey : outpoint ∈ state.recordedKeys) :
    ∃ entry, (outpoint, entry) ∈ state.undoSpent ∧
      (rollbackUtxos state.undo state.batch.commit).getUtxo outpoint =
        some entry := by
  rw [StateDb.getUtxo, rollbackUtxos_utxo]
  have hspent : outpoint ∈
      Journal.spentKeys ⟨state.undoCreated, state.undoSpent⟩ := hkey
  exact Journal.lookup_restore_of_mem hspent _

theorem Journaled.getUtxo_rollback_of_notMem
    (hjournaled : Journaled ctx txs db state)
    (hkey : outpoint ∉ state.recordedKeys) :
    (rollbackUtxos state.undo state.batch.commit).getUtxo outpoint =
      db.getUtxo outpoint := by
  rw [StateDb.getUtxo, rollbackUtxos_utxo]
  exact Journal.lookup_restore_of_notMem hjournaled.tracked.covers
    (fun key hmem hother => (hjournaled.faithful.fresh key hmem).resolve_right hother)
    hkey

theorem Journaled.stored (hjournaled : Journaled ctx txs db state)
    (hnew : NewRows db (blockRows ctx txs.zipIdx))
    (hstored : db.getUtxo outpoint = some entry) :
    (rollbackUtxos state.undo state.batch.commit).getUtxo outpoint =
      some entry := by
  by_cases hkey : outpoint ∈ state.recordedKeys
  · obtain ⟨found, hmem, hlookup⟩ := getUtxo_rollback_of_recorded hkey
    rcases hjournaled.faithful.recorded _ hmem with hold | ⟨hrow, -⟩
    · rw [hlookup, ← hstored, ← hold]
    · rw [hnew.unstored outpoint (List.mem_map_of_mem hrow)] at hstored
      contradiction
  · rw [hjournaled.getUtxo_rollback_of_notMem hkey, hstored]

theorem Journaled.origin (hjournaled : Journaled ctx txs db state)
    (hback : (rollbackUtxos state.undo state.batch.commit).getUtxo outpoint =
      some entry) :
    db.getUtxo outpoint = some entry ∨
      Consumed ctx txs outpoint entry ∧ outpoint ∈ state.recordedKeys := by
  by_cases hkey : outpoint ∈ state.recordedKeys
  · obtain ⟨found, hmem, hlookup⟩ := getUtxo_rollback_of_recorded hkey
    rw [hlookup, Option.some.injEq] at hback
    subst hback
    exact (hjournaled.faithful.recorded _ hmem).imp id fun hsource => ⟨hsource, hkey⟩
  · rw [hjournaled.getUtxo_rollback_of_notMem hkey] at hback
    exact .inl hback

theorem insertAll_indexed {known : Outpoint → Option UtxoEntry}
    {rows : List (Outpoint × UtxoEntry)} {db : StateDb}
    (hindexed : db.Indexed)
    (hdb : ∀ outpoint entry, db.getUtxo outpoint = some entry →
      known outpoint = some entry)
    (hrows : ∀ row ∈ rows, known row.1 = some row.2) :
    (rows.foldl (fun db row => db.insertUtxo row.1 row.2) db).Indexed := by
  induction rows generalizing db with
  | nil => exact hindexed
  | cons row rows ih =>
      have hrow := hrows row List.mem_cons_self
      refine ih (hindexed.insertUtxo fun other hother => ?_) ?_
        fun later hlater => hrows later (List.mem_cons_of_mem _ hlater)
      · have hsame := hdb row.1 other hother
        rw [hrow, Option.some.injEq] at hsame
        rw [hsame]
      · intro outpoint entry hget
        rw [StateDb.getUtxo, StateDb.insertUtxo_utxo] at hget
        by_cases hkey : outpoint = row.1
        · subst hkey
          rw [Finmap.lookup_insert, Option.some.injEq] at hget
          rw [hrow, hget]
        · rw [Finmap.lookup_insert_of_ne _ hkey] at hget
          exact hdb outpoint entry hget

theorem eraseAll_indexed {keys : List Outpoint} {db : StateDb}
    (hindexed : db.Indexed) : (keys.foldl StateDb.removeUtxo db).Indexed := by
  induction keys generalizing db with
  | nil => exact hindexed
  | cons key keys ih => exact ih (hindexed.removeUtxo key)

theorem Journaled.rollback_indexed (hjournaled : Journaled ctx txs db state)
    (hnew : NewRows db (blockRows ctx txs.zipIdx)) :
    (rollbackUtxos state.undo state.batch.commit).Indexed := by
  have hcommit : state.batch.commit.Indexed := hjournaled.indexed
  have herased : ∀ outpoint entry,
      (state.undoCreated.foldl StateDb.removeUtxo state.batch.commit).getUtxo
        outpoint = some entry → inputEntry ctx txs db outpoint = some entry := by
    intro outpoint entry hget
    rw [StateDb.getUtxo, foldl_removeUtxo_utxo, Journal.lookup_eraseAll] at hget
    split at hget
    · contradiction
    case isFalse hcreated =>
      have hpending : state.batch.pendingUtxos.lookup outpoint = none := by
        cases hlookup : state.batch.pendingUtxos.lookup outpoint with
        | none => rfl
        | some pending =>
            exact absurd (hjournaled.tracked.pending _ pending hlookup) hcreated
      rw [BlockBatch.commit_utxo, hjournaled.tracked.coherent.lookup, hpending,
        Option.none_or, hjournaled.tracked.db_eq] at hget
      split at hget
      · contradiction
      · exact inputEntry_of_stored hnew hget
  have hrecorded : ∀ row ∈ state.undoSpent,
      inputEntry ctx txs db row.1 = some row.2 := by
    intro row hrow
    rcases hjournaled.faithful.recorded row hrow with hstored | ⟨hmem, -⟩
    · exact inputEntry_of_stored hnew hstored
    · exact inputEntry_of_row hnew hmem
  exact insertAll_indexed (eraseAll_indexed hcommit) herased hrecorded

end Rollback

end Doli.Node
