import Doli.Lib.Checks
import Doli.Node.Stages

/-!
# Undo and apply

`rollbackUtxos` restores the journal that `applyBlockUtxos` recorded.  The
journal covers every row the block touched; it gives the old column back
unless the block spent an output of its own, which the rollback puts back
although it never stood in the old column.
-/

namespace Doli.Node

open Doli.Core Doli.Lib Doli.Storage

/-! ## The journal of a block -/

def UtxoState.recordedKeys (state : UtxoState) : List Outpoint :=
  state.undoSpent.map Prod.fst

/-- Every row the overlay touched is created by the block or recorded. -/
structure Tracked (db : StateDb) (state : UtxoState) : Prop where
  db_eq : state.batch.db = db
  coherent : state.batch.Coherent
  pending : ∀ outpoint entry,
    state.batch.pendingUtxos.lookup outpoint = some entry →
      outpoint ∈ state.undoCreated
  spent : ∀ outpoint ∈ state.batch.spentInBatch,
    outpoint ∈ state.undoCreated ∨ outpoint ∈ state.recordedKeys

/-- Every recorded row stood in the old column or comes from `source`, and a
created outpoint that was occupied is recorded. -/
structure Faithful (source : Outpoint → UtxoEntry → Prop) (db : StateDb)
    (state : UtxoState) : Prop where
  recorded : ∀ row ∈ state.undoSpent,
    db.getUtxo row.1 = some row.2 ∨ source row.1 row.2
  fresh : ∀ outpoint ∈ state.undoCreated,
    db.getUtxo outpoint = none ∨ outpoint ∈ state.recordedKeys

theorem tracked_initial (db : StateDb) : Tracked db (.initial db) where
  db_eq := rfl
  coherent := BlockBatch.coherent_beginBatch db
  pending outpoint entry hpending := by
    simp [UtxoState.initial, StateDb.beginBatch] at hpending
  spent := by simp [UtxoState.initial, StateDb.beginBatch]

theorem faithful_initial (source : Outpoint → UtxoEntry → Prop) (db : StateDb) :
    Faithful source db (.initial db) where
  recorded := by simp [UtxoState.initial]
  fresh := by simp [UtxoState.initial]

theorem Tracked.getUtxo_eq {db : StateDb} {state : UtxoState}
    (htracked : Tracked db state) {outpoint : Outpoint} {entry : UtxoEntry}
    (hget : state.batch.getUtxo outpoint = some entry)
    (hnew : outpoint ∉ state.undoCreated) : db.getUtxo outpoint = some entry := by
  unfold BlockBatch.getUtxo at hget
  split at hget
  · contradiction
  · split at hget
    case h_1 pending hpending =>
      exact absurd (htracked.pending outpoint pending hpending) hnew
    case h_2 => rwa [htracked.db_eq] at hget

theorem BlockBatch.getUtxo_cases {batch : BlockBatch} {outpoint : Outpoint}
    {entry : UtxoEntry} (hget : batch.getUtxo outpoint = some entry) :
    batch.pendingUtxos.lookup outpoint = some entry ∨
      batch.db.getUtxo outpoint = some entry := by
  unfold Storage.BlockBatch.getUtxo at hget
  split at hget
  · contradiction
  · split at hget
    case h_1 pending hpending => exact .inl (hpending.trans hget)
    case h_2 => exact .inr hget

theorem BlockBatch.getUtxo_of_spendable {batch : BlockBatch}
    {outpoint : Outpoint} (hspendable : (batch.spendableEntry outpoint).isSome)
    (hspent : outpoint ∉ batch.spentInBatch) :
    (batch.getUtxo outpoint).isSome := by
  unfold Storage.BlockBatch.getUtxo
  unfold Storage.BlockBatch.spendableEntry at hspendable
  rw [if_neg hspent]
  exact hspendable

theorem Tracked.covers {db : StateDb} {state : UtxoState}
    (htracked : Tracked db state) :
    Journal.Covers ⟨state.undoCreated, state.undoSpent⟩ db.utxo
      state.batch.view := by
  intro outpoint hnew hrecorded
  rw [htracked.coherent.lookup, htracked.db_eq]
  have hpending : state.batch.pendingUtxos.lookup outpoint = none := by
    cases hlookup : state.batch.pendingUtxos.lookup outpoint with
    | none => rfl
    | some entry => exact absurd (htracked.pending outpoint entry hlookup) hnew
  have hspent : outpoint ∉ state.batch.spentInBatch := by
    intro hmem
    rcases htracked.spent outpoint hmem with hcreated | hkey
    · exact hnew hcreated
    · exact hrecorded hkey
  simp [hpending, hspent]

theorem foldl_removeUtxo_utxo (keys : List Outpoint) (db : StateDb) :
    (keys.foldl StateDb.removeUtxo db).utxo = Journal.eraseAll keys db.utxo := by
  induction keys generalizing db with
  | nil => rfl
  | cons key keys ih => simp [ih, Journal.eraseAll]

theorem foldl_insertUtxo_utxo (rows : List (Outpoint × UtxoEntry)) (db : StateDb) :
    (rows.foldl (fun db row => db.insertUtxo row.1 row.2) db).utxo =
      Journal.insertAll rows db.utxo := by
  induction rows generalizing db with
  | nil => rfl
  | cons row rows ih => simp [ih, Journal.insertAll]

theorem rollbackUtxos_utxo (undo : UndoData) (db : StateDb) :
    (rollbackUtxos undo db).utxo =
      Journal.restore ⟨undo.createdUtxos, undo.spentUtxos⟩ db.utxo := by
  rw [rollbackUtxos, foldl_insertUtxo_utxo, foldl_removeUtxo_utxo, Journal.restore]

/-! ## One transaction -/

theorem Tracked.step {db : StateDb} {ctx : BlockContext} {txIndex : Nat}
    {tx : Transaction} {state next : UtxoState} {spent : BlockBatch}
    {burned consumed : List (Outpoint × UtxoEntry)}
    (htracked : Tracked db state)
    (heffect : TxEffect ctx txIndex tx state next spent burned consumed) :
    Tracked db next := by
  obtain ⟨hcreated, hrecorded, hburned, hinitial, -, hspends, hbatch⟩ := heffect
  rw [addTransactionUtxos_eq] at hbatch
  have hkept : ∀ key ∈ state.recordedKeys, key ∈ next.recordedKeys := by
    intro key hkey
    simp only [UtxoState.recordedKeys, hrecorded, List.map_append, List.mem_append]
    exact .inl (.inl hkey)
  have hold : ∀ key, key ∈ state.undoCreated ∨ key ∈ state.recordedKeys →
      key ∈ next.undoCreated ∨ key ∈ next.recordedKeys := by
    rintro key (hnew | hkey)
    · exact .inl (by simp [hcreated, hnew])
    · exact .inr (hkept key hkey)
  refine ⟨?_, ?_, ?_, ?_⟩
  · rw [hbatch, BlockBatch.addRows_db, hspends.db, htracked.db_eq]
  · rw [hbatch]
    exact (hspends.coherent htracked.coherent).addRows
  · intro outpoint entry hpending
    rw [hcreated, List.mem_append]
    by_cases hnew : outpoint ∈ createdOutpoints ctx.utxo.prim tx
    · exact .inr hnew
    · rw [hbatch, BlockBatch.addRows_pendingUtxos_of_notMem
        (by rwa [createdOutpoints_eq_newRows]), hspends.pending] at hpending
      split at hpending
      · contradiction
      · exact .inl (htracked.pending outpoint entry hpending)
  · intro outpoint hmem
    rw [hbatch, BlockBatch.addRows_spentInBatch, hspends.spent,
      List.mem_append] at hmem
    rcases hmem with hmem | hmem
    · exact hold outpoint (htracked.spent outpoint hmem)
    · rw [List.map_append, List.mem_append, hburned] at hmem
      rcases hmem with hburn | hconsumed
      · by_cases hnew : outpoint ∈ state.undoCreated
        · exact hold outpoint (.inl hnew)
        · obtain ⟨row, hrow, rfl⟩ := List.mem_map.mp hburn
          refine .inr ?_
          simp only [UtxoState.recordedKeys, hrecorded, List.map_append,
            List.mem_append]
          exact .inr (List.mem_map_of_mem (List.mem_filter.mpr
            ⟨hrow, decide_eq_true hnew⟩))
      · obtain ⟨hreward, hinput⟩ := mem_spentInputs.mp (hinitial.subset hconsumed)
        by_cases hspent : outpoint ∈ state.batch.spentInBatch
        · exact hold outpoint (htracked.spent outpoint hspent)
        · refine .inr ?_
          have hget := BlockBatch.getUtxo_of_spendable
            (hspends.spendable outpoint (by simp [hconsumed])) hspent
          simp only [UtxoState.recordedKeys, hrecorded, List.map_append,
            List.mem_append, capturedRows, hreward, Bool.false_eq_true, if_false]
          exact .inl (.inr (captureInputs_key hinput hget))

/-- The journal stays faithful while `source` has the pending rows that the
inputs name. -/
theorem Faithful.step {source : Outpoint → UtxoEntry → Prop} {db : StateDb}
    {ctx : BlockContext} {txIndex : Nat}
    {tx : Transaction} {state next : UtxoState} {spent : BlockBatch}
    {burned consumed : List (Outpoint × UtxoEntry)}
    (htracked : Tracked db state) (hfaithful : Faithful source db state)
    (heffect : TxEffect ctx txIndex tx state next spent burned consumed)
    (hinputs : ∀ outpoint ∈ spentInputs tx (isRewardTx txIndex tx),
      ∀ entry, state.batch.pendingUtxos.lookup outpoint = some entry →
        source outpoint entry)
    (hfresh : ∀ outpoint ∈ createdOutpoints ctx.utxo.prim tx,
      db.getUtxo outpoint = none) : Faithful source db next := by
  obtain ⟨hcreated, hrecorded, -, -, -, -, -⟩ := heffect
  refine ⟨?_, ?_⟩
  · intro row hrow
    rw [hrecorded] at hrow
    rcases List.mem_append.mp hrow with hrow | hburn
    · rcases List.mem_append.mp hrow with hold | hcaptured
      · exact hfaithful.recorded row hold
      · unfold capturedRows at hcaptured
        split at hcaptured
        · simp at hcaptured
        case isFalse hreward =>
          obtain ⟨hinput, hget⟩ := captureInputs_mem hcaptured
          rcases BlockBatch.getUtxo_cases hget with hpending | hstored
          · exact .inr (hinputs row.1
              (mem_spentInputs.mpr ⟨by simpa using hreward, hinput⟩) row.2 hpending)
          · rw [htracked.db_eq] at hstored
            exact .inl hstored
    · obtain ⟨hmem, hnew⟩ := List.mem_filter.mp hburn
      rcases mem_burnableRows hmem with hstored | hpending
      · rw [htracked.db_eq] at hstored
        exact .inl hstored
      · exact absurd (htracked.pending _ _ hpending) (of_decide_eq_true hnew)
  · intro outpoint hnew
    rw [hcreated] at hnew
    rcases List.mem_append.mp hnew with hold | hadded
    · rcases hfaithful.fresh outpoint hold with hnone | hkey
      · exact .inl hnone
      · refine .inr ?_
        simp only [UtxoState.recordedKeys, hrecorded, List.map_append,
          List.mem_append]
        exact .inl (.inl hkey)
    · exact .inl (hfresh outpoint hadded)

/-! ## The oracle boundary -/

theorem spendOrKeep_spends {batch : BlockBatch} {outpoint : Outpoint}
    {entry : UtxoEntry} (hget : batch.getUtxo outpoint = some entry) :
    BlockBatch.Spends batch (spendOrKeep batch outpoint) [(outpoint, entry)] := by
  have hentry : batch.spendableEntry outpoint = some entry := by
    unfold BlockBatch.getUtxo at hget
    split at hget
    · contradiction
    · exact hget
  simpa [spendOrKeep, BlockBatch.spendUtxo, hentry] using
    BlockBatch.Spends.single hentry

@[simp] theorem consumeOraclePrice_undoCreated (state : UtxoState)
    (outpoint : Outpoint) :
    (consumeOraclePrice state outpoint).undoCreated = state.undoCreated := by
  unfold consumeOraclePrice
  split <;> rfl

theorem consumeOraclePrice_undoSpent (state : UtxoState) (outpoint : Outpoint) :
    (consumeOraclePrice state outpoint).undoSpent =
      state.undoSpent ++
        ((state.batch.getUtxo outpoint).map fun previous =>
          (outpoint, previous)).toList := by
  unfold consumeOraclePrice
  split
  case h_1 hget => simp [hget]
  case h_2 previous hget => simp [hget]

theorem Tracked.consumeOraclePrice {db : StateDb} {state : UtxoState}
    (htracked : Tracked db state) (outpoint : Outpoint) :
    Tracked db (consumeOraclePrice state outpoint) := by
  unfold Doli.Node.consumeOraclePrice
  split
  · exact htracked
  case h_2 previous hget =>
    have hspends := spendOrKeep_spends hget
    refine ⟨hspends.db.trans htracked.db_eq,
      hspends.coherent htracked.coherent, ?_, ?_⟩
    · intro other entry hpending
      rw [hspends.pending] at hpending
      split at hpending
      · contradiction
      · exact htracked.pending other entry hpending
    · intro other hmem
      simp only [hspends.spent, List.mem_append] at hmem
      simp only [UtxoState.recordedKeys, List.map_append, List.mem_append]
      rcases hmem with hmem | hmem
      · rcases htracked.spent other hmem with hnew | hkey
        · exact .inl hnew
        · exact .inr (.inl hkey)
      · exact .inr (.inr hmem)

theorem Tracked.replaceOraclePrice {db : StateDb} {state : UtxoState}
    (htracked : Tracked db state) (ctx : BlockContext) (price : PairPrice) :
    Tracked db (replaceOraclePrice ctx state price) := by
  have hconsumed := htracked.consumeOraclePrice
    (oraclePriceOutpoint ctx.utxo.prim price.pairId)
  refine ⟨hconsumed.db_eq, hconsumed.coherent.addUtxo _ _, ?_, ?_⟩
  · intro outpoint entry hpending
    simp only [Doli.Node.replaceOraclePrice,
      BlockBatch.addUtxo_pendingUtxos] at hpending ⊢
    rw [List.mem_append, List.mem_singleton]
    by_cases hsame : outpoint = oraclePriceOutpoint ctx.utxo.prim price.pairId
    · exact .inr hsame
    · rw [AList.lookup_insert_ne hsame] at hpending
      exact .inl (hconsumed.pending outpoint entry hpending)
  · intro outpoint hmem
    simp only [Doli.Node.replaceOraclePrice, List.mem_append]
    rcases hconsumed.spent outpoint hmem with hnew | hkey
    · exact .inl (.inl hnew)
    · exact .inr hkey

theorem replaceOraclePrice_undoCreated (ctx : BlockContext) (state : UtxoState)
    (price : PairPrice) :
    (replaceOraclePrice ctx state price).undoCreated =
      state.undoCreated ++ [oraclePriceOutpoint ctx.utxo.prim price.pairId] := by
  simp [replaceOraclePrice]

theorem replaceOraclePrice_undoSpent (ctx : BlockContext) (state : UtxoState)
    (price : PairPrice) :
    (replaceOraclePrice ctx state price).undoSpent =
      state.undoSpent ++
        ((state.batch.getUtxo
          (oraclePriceOutpoint ctx.utxo.prim price.pairId)).map fun previous =>
            (oraclePriceOutpoint ctx.utxo.prim price.pairId, previous)).toList :=
  consumeOraclePrice_undoSpent state _

theorem Faithful.replaceOraclePrice {source : Outpoint → UtxoEntry → Prop}
    {db : StateDb} {ctx : BlockContext} {state : UtxoState} {price : PairPrice}
    (htracked : Tracked db state) (hfaithful : Faithful source db state)
    (hnew : oraclePriceOutpoint ctx.utxo.prim price.pairId ∉ state.undoCreated) :
    Faithful source db (replaceOraclePrice ctx state price) := by
  refine ⟨?_, ?_⟩
  · intro row hrow
    rw [replaceOraclePrice_undoSpent, List.mem_append] at hrow
    rcases hrow with hold | hrecorded
    · exact hfaithful.recorded row hold
    · simp only [Option.mem_toList, Option.map_eq_some_iff] at hrecorded
      obtain ⟨previous, hget, rfl⟩ := hrecorded
      exact .inl (htracked.getUtxo_eq hget hnew)
  · intro outpoint hmem
    rw [replaceOraclePrice_undoCreated, List.mem_append,
      List.mem_singleton] at hmem
    simp only [UtxoState.recordedKeys, replaceOraclePrice_undoSpent,
      List.map_append, List.mem_append]
    rcases hmem with hold | rfl
    · rcases hfaithful.fresh outpoint hold with hnone | hkey
      · exact .inl hnone
      · exact .inr (.inl hkey)
    · cases hstored : db.getUtxo (oraclePriceOutpoint ctx.utxo.prim price.pairId) with
      | none => exact .inl rfl
      | some entry =>
          refine .inr ?_
          by_cases hspent :
              oraclePriceOutpoint ctx.utxo.prim price.pairId ∈ state.batch.spentInBatch
          · rcases htracked.spent _ hspent with hcreated | hkey
            · exact absurd hcreated hnew
            · exact .inl hkey
          · refine .inr ?_
            have hget : (state.batch.getUtxo
                (oraclePriceOutpoint ctx.utxo.prim price.pairId)).isSome := by
              refine BlockBatch.getUtxo_of_spendable ?_ hspent
              unfold BlockBatch.spendableEntry
              split
              · rfl
              · simp [htracked.db_eq, hstored]
            obtain ⟨previous, hprevious⟩ := Option.isSome_iff_exists.mp hget
            simp [hprevious]

/-! ## Whole blocks -/

/-- No transaction spends an output that an earlier transaction of the block
created; the inputs of the reward transaction are never spent. -/
def NoInBlockSpend (prim : Primitives) (txs : List Transaction) : Prop :=
  ∀ i j : Fin txs.length, j < i → isRewardTx i (txs.get i) = false →
    ∀ input ∈ (txs.get i).inputs,
      inputOutpoint input ∉ createdOutpoints prim (txs.get j)

instance (prim : Primitives) (txs : List Transaction) :
    Decidable (NoInBlockSpend prim txs) :=
  inferInstanceAs (Decidable (∀ i j : Fin txs.length, j < i → _ → _))

theorem zipIdx_split {txs : List Transaction}
    {earlier later : List (Transaction × Nat)} {tx : Transaction} {txIndex : Nat}
    (hsplit : txs.zipIdx = earlier ++ (tx, txIndex) :: later) :
    ∃ i : Fin txs.length, (i : Nat) = txIndex ∧ txs.get i = tx ∧
      ∀ item ∈ earlier, ∃ j : Fin txs.length, j < i ∧ txs.get j = item.1 := by
  have hlen : earlier.length < txs.length := by
    have := congrArg List.length hsplit
    simp at this
    omega
  have hget : ∀ k (hk : k < txs.length), txs.zipIdx[k]? = some (txs.get ⟨k, hk⟩, k) := by
    intro k hk
    simp [hk]
  have hhere := hget earlier.length hlen
  rw [hsplit, List.getElem?_append_right (le_refl _), Nat.sub_self,
    List.getElem?_cons_zero, Option.some.injEq, Prod.mk.injEq] at hhere
  refine ⟨⟨earlier.length, hlen⟩, hhere.2.symm, hhere.1.symm, ?_⟩
  intro item hitem
  obtain ⟨k, hk, hkitem⟩ := List.mem_iff_getElem.mp hitem
  have hthere := hget k (hk.trans hlen)
  rw [hsplit, List.getElem?_append_left hk, List.getElem?_eq_getElem hk, hkitem,
    Option.some.injEq] at hthere
  exact ⟨⟨k, hk.trans hlen⟩, hk, by rw [hthere]⟩

theorem zipIdx_take_split (txs : List Transaction) (i : Fin txs.length) {k : Nat}
    (hlt : i < k) :
    txs.zipIdx.take k = txs.zipIdx.take i ++
      (txs.get i, (i : Nat)) :: (txs.zipIdx.take k).drop (i + 1) := by
  have hi : (i : Nat) < (txs.zipIdx.take k).length := by
    simp
    omega
  have hdrop := List.drop_eq_getElem_cons hi
  rw [List.getElem_take, List.getElem_zipIdx] at hdrop
  simp only [Nat.zero_add] at hdrop
  have htake : txs.zipIdx.take i = (txs.zipIdx.take k).take i := by
    rw [List.take_take, Nat.min_eq_left (Nat.le_of_lt hlt)]
  rw [List.get_eq_getElem, ← hdrop, htake, List.take_append_drop]

theorem zipIdx_eq_split (txs : List Transaction) (i : Fin txs.length) :
    txs.zipIdx = txs.zipIdx.take i ++
      (txs.get i, (i : Nat)) :: txs.zipIdx.drop (i + 1) := by
  have hsplit := zipIdx_take_split txs i i.isLt
  have hall : txs.zipIdx.take txs.length = txs.zipIdx :=
    List.take_of_length_le (by simp)
  rwa [hall] at hsplit

/-- Transaction ids and oracle addresses are hashes: the outpoints a block
creates are not occupied, and the oracle's are distinct from the others. -/
structure FreshOutpoints (prim : Primitives) (txs : List Transaction)
    (prices : List PairPrice) (db : StateDb) : Prop where
  created : ∀ tx ∈ txs, ∀ outpoint ∈ createdOutpoints prim tx,
    db.getUtxo outpoint = none
  distinct : (prices.map fun price =>
    oraclePriceOutpoint prim price.pairId).Nodup
  disjoint : ∀ price ∈ prices, ∀ tx ∈ txs,
    oraclePriceOutpoint prim price.pairId ∉ createdOutpoints prim tx

section Block

variable {ctx : BlockContext} {txs : List Transaction} {db : StateDb}
  {final : UtxoState}

theorem processTransactions_created
    (hprocess : processTransactions ctx txs db = .ok final) :
    final.undoCreated =
      txs.zipIdx.flatMap fun item => createdOutpoints ctx.utxo.prim item.1 := by
  refine run_invariant (fun done state => state.undoCreated =
    done.flatMap fun item => createdOutpoints ctx.utxo.prim item.1) rfl ?_ hprocess
  intro done item rest current next hitems hinv hstep
  obtain ⟨spent, burned, consumed, heffect⟩ := processTransactionUtxos_effect hstep
  simp [heffect.created, hinv]

theorem processTransactions_tracked
    (hprocess : processTransactions ctx txs db = .ok final) :
    Tracked db final := by
  refine run_invariant (fun _ state => Tracked db state)
    (tracked_initial db) ?_ hprocess
  intro done item rest current next hitems hinv hstep
  obtain ⟨spent, burned, consumed, heffect⟩ := processTransactionUtxos_effect hstep
  exact hinv.step heffect

theorem processTransactions_faithful
    (hprocess : processTransactions ctx txs db = .ok final)
    (hfresh : ∀ tx ∈ txs, ∀ outpoint ∈ createdOutpoints ctx.utxo.prim tx,
      db.getUtxo outpoint = none)
    (hspends : NoInBlockSpend ctx.utxo.prim txs) :
    Faithful (fun _ _ => False) db final := by
  have hinv := run_invariant (fun done state =>
    (Tracked db state ∧ state.undoCreated =
      done.flatMap fun item => createdOutpoints ctx.utxo.prim item.1) ∧
      Faithful (fun _ _ => False) db state)
    ⟨⟨tracked_initial db, rfl⟩, faithful_initial _ db⟩ ?_ hprocess
  · exact hinv.2
  · rintro done ⟨tx, txIndex⟩ rest current next hitems
      ⟨⟨htracked, hcreated⟩, hfaithful⟩ hstep
    obtain ⟨spent, burned, consumed, heffect⟩ :=
      processTransactionUtxos_effect hstep
    obtain ⟨i, rfl, rfl, hearlier⟩ := zipIdx_split hitems
    refine ⟨⟨htracked.step heffect, by simp [heffect.created, hcreated]⟩,
      hfaithful.step htracked heffect ?_ (hfresh _ (List.get_mem txs i))⟩
    intro outpoint hinput entry hpending
    have hmem := htracked.pending outpoint entry hpending
    rw [hcreated] at hmem
    obtain ⟨item, hitem, hout⟩ := List.mem_flatMap.mp hmem
    obtain ⟨j, hlt, hj⟩ := hearlier item hitem
    obtain ⟨hreward, hinput⟩ := mem_spentInputs.mp hinput
    obtain ⟨input, hnamed, rfl⟩ := List.mem_map.mp hinput
    exact hspends i j hlt hreward input hnamed (hj ▸ hout)

theorem run_recordedKeys_subset {items : List (Transaction × Nat)}
    {state : UtxoState} (hrun : run (processStep ctx) items state = .ok final) :
    state.recordedKeys ⊆ final.recordedKeys := by
  refine run_invariant (fun _ current =>
    state.recordedKeys ⊆ current.recordedKeys) (List.Subset.refl _) ?_ hrun
  intro done item rest current next hitems hinv hstep key hkey
  obtain ⟨spent, burned, consumed, heffect⟩ := processTransactionUtxos_effect hstep
  simp only [UtxoState.recordedKeys, heffect.recorded, List.map_append,
    List.mem_append]
  exact .inl (.inl (hinv hkey))

theorem processTransactionUtxos_records {txIndex : Nat} {tx : Transaction}
    {state next : UtxoState} (hmode : ctx.mode ≠ .replay)
    (hreward : isRewardTx txIndex tx = false)
    (hprocess : processTransactionUtxos ctx txIndex tx state = .ok next) :
    ∀ input ∈ tx.inputs, inputOutpoint input ∈ next.recordedKeys := by
  obtain ⟨middle, spent, haccepted⟩ := processTransactionUtxos_ok hprocess
  obtain ⟨burned, consumed, heffect⟩ := haccepted.effect
  have hvalid : ctx.utxo.validateTransactionWithUtxos ctx.height tx
      state.batch.getUtxo = .ok () := by
    have hvalidated := haccepted.validate_ok
    simp only [validateStage, hreward, Bool.false_eq_true, if_false,
      hmode] at hvalidated
    split at hvalidated
    case h_1 hok => exact hok
    case h_2 => contradiction
  intro input hinput
  have hget := UtxoContext.validateTransactionWithUtxos_inputs hvalid input hinput
  simp only [UtxoState.recordedKeys, heffect.recorded, List.map_append,
    List.mem_append, capturedRows, hreward, Bool.false_eq_true, if_false]
  exact .inl (.inr (captureInputs_key (List.mem_map_of_mem hinput) hget))

theorem processTransactions_records_of_spend (hmode : ctx.mode ≠ .replay)
    (hprocess : processTransactions ctx txs db = .ok final)
    (hspends : ¬ NoInBlockSpend ctx.utxo.prim txs) :
    ∃ tx ∈ txs, ∃ outpoint ∈ createdOutpoints ctx.utxo.prim tx,
      outpoint ∈ final.recordedKeys := by
  simp only [NoInBlockSpend, not_forall, not_not] at hspends
  obtain ⟨i, j, hlt, hreward, input, hinput, hout⟩ := hspends
  refine ⟨txs.get j, List.get_mem txs j, inputOutpoint input, hout, ?_⟩
  rw [processTransactions, zipIdx_eq_split txs i] at hprocess
  obtain ⟨middle, -, hrest⟩ := run_append_ok.mp hprocess
  obtain ⟨next, hstep, hlater⟩ := run_cons_ok.mp hrest
  exact run_recordedKeys_subset hlater
    (processTransactionUtxos_records hmode hreward hstep input hinput)

theorem replaceOraclePrices_tracked (prices : List PairPrice)
    {state : UtxoState} (htracked : Tracked db state) :
    Tracked db (replaceOraclePrices ctx prices state) := by
  induction prices generalizing state with
  | nil => exact htracked
  | cons price prices ih => exact ih (htracked.replaceOraclePrice ctx price)

theorem replaceOraclePrices_invariant {motive : UtxoState → Prop}
    (hstep : ∀ state price, motive state →
      oraclePriceOutpoint ctx.utxo.prim price.pairId ∉ state.undoCreated →
        motive (replaceOraclePrice ctx state price))
    {prices : List PairPrice} {state : UtxoState} (hstart : motive state)
    (hdistinct : (prices.map fun price =>
      oraclePriceOutpoint ctx.utxo.prim price.pairId).Nodup)
    (hnew : ∀ price ∈ prices,
      oraclePriceOutpoint ctx.utxo.prim price.pairId ∉ state.undoCreated) :
    motive (replaceOraclePrices ctx prices state) := by
  induction prices generalizing state with
  | nil => exact hstart
  | cons price prices ih =>
      simp only [List.map_cons, List.nodup_cons] at hdistinct
      refine ih (hstep state price hstart (hnew price List.mem_cons_self)) hdistinct.2 ?_
      intro other hother hmem
      rw [replaceOraclePrice_undoCreated, List.mem_append,
        List.mem_singleton] at hmem
      rcases hmem with hmem | hsame
      · exact hnew other (List.mem_cons_of_mem _ hother) hmem
      · exact hdistinct.1 (List.mem_map.mpr ⟨other, hother, hsame⟩)

theorem replaceOraclePrices_faithful {source : Outpoint → UtxoEntry → Prop}
    {prices : List PairPrice} {state : UtxoState} (htracked : Tracked db state)
    (hfaithful : Faithful source db state)
    (hdistinct : (prices.map fun price =>
      oraclePriceOutpoint ctx.utxo.prim price.pairId).Nodup)
    (hnew : ∀ price ∈ prices,
      oraclePriceOutpoint ctx.utxo.prim price.pairId ∉ state.undoCreated) :
    Faithful source db (replaceOraclePrices ctx prices state) := by
  have hboth : Tracked db (replaceOraclePrices ctx prices state) ∧
      Faithful source db (replaceOraclePrices ctx prices state) := by
    apply replaceOraclePrices_invariant
      (motive := fun state => Tracked db state ∧ Faithful source db state)
      _ ⟨htracked, hfaithful⟩ hdistinct hnew
    intro state price hstate habsent
    exact ⟨hstate.1.replaceOraclePrice ctx price, hstate.2.replaceOraclePrice hstate.1 habsent⟩
  exact hboth.2

theorem replaceOraclePrices_recordedKeys_subset (prices : List PairPrice)
    (state : UtxoState) :
    state.recordedKeys ⊆ (replaceOraclePrices ctx prices state).recordedKeys := by
  induction prices generalizing state with
  | nil => exact List.Subset.refl _
  | cons price prices ih =>
      refine List.Subset.trans ?_ (ih (replaceOraclePrice ctx state price))
      intro key hkey
      simp only [UtxoState.recordedKeys, replaceOraclePrice_undoSpent,
        List.map_append, List.mem_append]
      exact .inl hkey

theorem FreshOutpoints.notCreated {prices : List PairPrice}
    (hfresh : FreshOutpoints ctx.utxo.prim txs prices db)
    (hprocess : processTransactions ctx txs db = .ok final) :
    ∀ price ∈ prices,
      oraclePriceOutpoint ctx.utxo.prim price.pairId ∉ final.undoCreated := by
  intro price hprice hmem
  rw [processTransactions_created hprocess] at hmem
  obtain ⟨item, hitem, hout⟩ := List.mem_flatMap.mp hmem
  exact hfresh.disjoint price hprice item.1 (List.fst_mem_of_mem_zipIdx hitem) hout

theorem rollbackUtxos_restores {prices : List PairPrice} {after : StateDb}
    {undo : UndoData}
    (hfresh : FreshOutpoints ctx.utxo.prim txs prices db)
    (hspends : NoInBlockSpend ctx.utxo.prim txs)
    (happly : applyBlockUtxos ctx txs prices db = .ok (after, undo)) :
    (rollbackUtxos undo after).utxo = db.utxo := by
  unfold applyBlockUtxos at happly
  split at happly
  · contradiction
  case h_2 state hprocess =>
    obtain ⟨rfl, rfl⟩ := Prod.mk.inj (Except.ok.inj happly)
    have htracked := processTransactions_tracked hprocess
    have hfaithful := replaceOraclePrices_faithful htracked
      (processTransactions_faithful hprocess hfresh.created hspends)
      hfresh.distinct (hfresh.notCreated hprocess)
    rw [rollbackUtxos_utxo]
    refine Journal.restore_eq (replaceOraclePrices_tracked prices htracked).covers
      (fun row hrow => (hfaithful.recorded row hrow).resolve_right id)
      fun outpoint hmem hkey => ?_
    exact (hfaithful.fresh outpoint hmem).resolve_right hkey

/-- Rolling a block back gives the old UTXO column exactly when no transaction
of the block spends an output of an earlier one. -/
theorem rollback_restores_iff {prices : List PairPrice} {after : StateDb}
    {undo : UndoData}
    (hfresh : FreshOutpoints ctx.utxo.prim txs prices db)
    (happly : applyBlockUtxos ctx txs prices db = .ok (after, undo)) :
    (NoInBlockSpend ctx.utxo.prim txs →
      (rollbackUtxos undo after).utxo = db.utxo) ∧
    (ctx.mode ≠ .replay → (rollbackUtxos undo after).utxo = db.utxo →
      NoInBlockSpend ctx.utxo.prim txs) := by
  refine ⟨fun hspends => rollbackUtxos_restores hfresh hspends happly,
    fun hmode hrestored => ?_⟩
  unfold applyBlockUtxos at happly
  split at happly
  · contradiction
  case h_2 state hprocess =>
    obtain ⟨rfl, rfl⟩ := Prod.mk.inj (Except.ok.inj happly)
    rw [rollbackUtxos_utxo] at hrestored
    by_contra hspends
    obtain ⟨tx, htx, outpoint, hout, hkey⟩ :=
      processTransactions_records_of_spend hmode hprocess hspends
    exact Journal.restore_ne
      (replaceOraclePrices_recordedKeys_subset prices state hkey)
      (hfresh.created tx htx outpoint hout) hrestored

end Block

/-! ## A block that spends its own output -/

def paidOutpoint : Outpoint := ⟨⟨7⟩, 0⟩

def paidDb : StateDb :=
  sampleDb [(paidOutpoint, sampleEntry (sampleOutput 100 ⟨5⟩))]

def firstTransfer : Transaction :=
  sampleTransfer [paidOutpoint] [sampleOutput 90 ⟨6⟩]

def chainedOutpoint : Outpoint :=
  .ofOutput (samplePrimitives.txHash firstTransfer) 0

def secondTransfer : Transaction :=
  sampleTransfer [chainedOutpoint] [sampleOutput 80 ⟨8⟩]

theorem rollback_restores_paid :
    ∃ after undo,
      applyBlockUtxos sampleBlockContext [sampleCoinbase, firstTransfer] []
        paidDb = .ok (after, undo) ∧
      (rollbackUtxos undo after).utxo = paidDb.utxo := by
  have hfresh : FreshOutpoints samplePrimitives [sampleCoinbase, firstTransfer]
      [] paidDb :=
    ⟨by decide +kernel, by decide, by simp⟩
  have hok : (applyBlockUtxos sampleBlockContext
      [sampleCoinbase, firstTransfer] [] paidDb).isOk = true := by
    decide +kernel
  obtain ⟨⟨after, undo⟩, happly⟩ := exists_eq_ok hok
  exact ⟨after, undo, happly,
    (rollback_restores_iff hfresh happly).1 (by decide +kernel)⟩

/-- The output that the second transfer spends is back after the rollback,
although it did not exist before the block. -/
theorem rollback_resurrects_chained :
    ∃ after undo,
      applyBlockUtxos sampleBlockContext
        [sampleCoinbase, firstTransfer, secondTransfer] [] paidDb =
          .ok (after, undo) ∧
      paidDb.utxo.lookup chainedOutpoint = none ∧
      (rollbackUtxos undo after).utxo ≠ paidDb.utxo := by
  have hok : (applyBlockUtxos sampleBlockContext
      [sampleCoinbase, firstTransfer, secondTransfer] [] paidDb).isOk = true := by
    decide +kernel
  obtain ⟨⟨after, undo⟩, happly⟩ := exists_eq_ok hok
  refine ⟨after, undo, happly, by decide +kernel, fun hrestored => ?_⟩
  have hlookup : ((applyBlockUtxos sampleBlockContext
      [sampleCoinbase, firstTransfer, secondTransfer] [] paidDb).toOption.map
        fun result => ((rollbackUtxos result.2 result.1).utxo.lookup
          chainedOutpoint).isSome) = some true := by
    decide +kernel
  have hnone : paidDb.utxo.lookup chainedOutpoint = none := by
    decide +kernel
  simp [happly, Except.toOption, hrestored, hnone] at hlookup

end Doli.Node
