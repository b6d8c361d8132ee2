import Doli.Node.RolledBack

/-!
# Applying a block again after its rollback

Run over the store that a rollback leaves, a block meets its own ids and its
own rows.  The two runs agree step by step as long as neither matters, and
outside replay the block is accepted again in no other case.
-/

namespace Doli.Node

open Doli.Core Doli.Lib Doli.Storage

/-- Every id that the duplicate check of a transaction looks at and that is in
the index after the block was written by an earlier transaction already. -/
def UniqueIdsFree (ctx : BlockContext) (txs : List Transaction) (db : StateDb) :
    Prop :=
  ∀ i : Fin txs.length, ∀ uid ∈ gatedIds (txs.get i),
    uid ∈ commitSet (blockIdOps ctx txs db txs.zipIdx) db.uniqueIds →
      uid ∈ (blockIdOps ctx txs db (txs.zipIdx.take i)).map WriteOp.key

/-- No slash transaction accuses the owner of collateral that is added at or
after it and spent in the block. -/
def NoRevivedCollateral (ctx : BlockContext) (txs : List Transaction) : Prop :=
  ∀ i j k : Fin txs.length, i ≤ j → ∀ row ∈ txRows ctx (txs.get j, (j : Nat)),
    slashBurnOwner ctx.utxo ctx.height (txs.get i) =
        some row.2.output.pubkeyHash →
      isSlashBurnable row.2.output ctx.height = true →
        row.1 ∉ spentInputs (txs.get k) (isRewardTx k (txs.get k))

/-- The block is accepted over the store and leaves the same rows and ids. -/
def Reappliable (ctx : BlockContext) (txs : List Transaction)
    (prices : List PairPrice) (after : StateDb) (undo : UndoData) : Prop :=
  ∃ again undo', applyBlockUtxos ctx txs prices (rollbackUtxos undo after) =
      .ok (again, undo') ∧
    again.utxo = after.utxo ∧ again.uniqueIds = after.uniqueIds

section Simulation

variable {ctx : BlockContext} {txs : List Transaction} {db back : StateDb}
  {state : UtxoState}

/-- The two runs after the items `done`. -/
structure Shadow (ctx : BlockContext) (txs : List Transaction) (db back : StateDb)
    (done : List (Transaction × Nat)) (state other : UtxoState) : Prop where
  ran : run (processStep ctx) done (.initial db) = .ok state
  journaled : Journaled ctx txs db state
  located : Located ctx db done state
  tracked : Tracked back other
  agree : BlockBatch.Agree state.batch other.batch

/-- What the simulation needs of the rolled-back store. -/
structure Larger (ctx : BlockContext) (txs : List Transaction)
    (db back : StateDb) : Prop where
  indexed : back.Indexed
  stored : ∀ outpoint entry, db.getUtxo outpoint = some entry →
    back.getUtxo outpoint = some entry
  origin : ∀ outpoint entry, back.getUtxo outpoint = some entry →
    db.getUtxo outpoint = some entry ∨ Consumed ctx txs outpoint entry

theorem Larger.known (hlarger : Larger ctx txs db back)
    (hnew : NewRows db (blockRows ctx txs.zipIdx)) :
    ∀ outpoint entry, back.getUtxo outpoint = some entry →
      inputEntry ctx txs db outpoint = some entry := by
  intro outpoint entry hback
  rcases hlarger.origin outpoint entry hback with hstored | ⟨hrow, -⟩
  · exact inputEntry_of_stored hnew hstored
  · exact inputEntry_of_row hnew hrow

theorem Shadow.burnable {done rest : List (Transaction × Nat)} {txIndex : Nat}
    {tx : Transaction} {state other : UtxoState}
    (hshadow : Shadow ctx txs db back done state other)
    (hlarger : Larger ctx txs db back)
    (hrevived : NoRevivedCollateral ctx txs ∨
      ∀ outpoint, back.getUtxo outpoint = db.getUtxo outpoint)
    (hsplit : txs.zipIdx = done ++ (tx, txIndex) :: rest)
    (henum : state.batch.Enumerable) (hotherEnum : other.batch.Enumerable) :
    ∀ row ∈ burnableRows ctx tx other.batch,
      row ∈ burnableRows ctx tx state.batch := by
  rintro ⟨outpoint, entry⟩ hrow
  obtain ⟨howner, hget, hburnable⟩ := (mem_burnableRows_iff hotherEnum).mp hrow
  refine (mem_burnableRows_iff henum).mpr ⟨howner, ?_, hburnable⟩
  unfold BlockBatch.getUtxo at hget ⊢
  split at hget
  · contradiction
  case isFalse hspent =>
    have hunspent : outpoint ∉ state.batch.spentInBatch :=
      fun hmem => hspent ((hshadow.agree.spent outpoint).mpr hmem)
    rw [if_neg hunspent]
    rw [hshadow.agree.pending] at hget
    cases hpending : state.batch.pendingUtxos.lookup outpoint with
    | some pending => simpa [hpending] using hget
    | none =>
        simp only [hpending, hshadow.tracked.db_eq] at hget
        rw [hshadow.journaled.tracked.db_eq]
        rcases hrevived with hrevived | hsame
        · rcases hlarger.origin outpoint entry hget with hstored | hconsumed
          · exact hstored
          · obtain ⟨hmem, item, hitem, hspends⟩ := hconsumed
            rw [hsplit, blockRows_append, List.mem_append] at hmem
            rcases hmem with hearlier | hlater
            · rcases hshadow.located.placed _ hearlier with hplaced | hplaced
              · simp [hpending] at hplaced
              · exact absurd hplaced hunspent
            · obtain ⟨adder, hadder, hadded⟩ := List.mem_flatMap.mp hlater
              obtain ⟨i, -, hi, htx⟩ := zipIdx_split_position hsplit
              obtain ⟨rfl, -⟩ := Prod.mk.inj htx
              obtain ⟨j, hj, rfl⟩ := zipIdx_mem_later hsplit hadder
              obtain ⟨k, rfl⟩ := zipIdx_mem hitem
              exact absurd hspends
                (hrevived i j k (by rw [Fin.le_def, hi]; exact hj) _ hadded howner
                  hburnable)
        · rw [← hsame]
          exact hget

/-- Ids that the index keeps were written by the overlay before they are
checked. -/
def GateTouched (ctx : BlockContext) (txs : List Transaction)
    (db back : StateDb) : Prop :=
  ∀ done item rest state, txs.zipIdx = done ++ item :: rest →
    run (processStep ctx) done (.initial db) = .ok state →
      ∀ uid ∈ gatedIds item.1, uid ∈ back.uniqueIds →
        uid ∈ state.batch.uids.pending ∨ uid ∈ state.batch.uids.removed

theorem hasUniqueIdCheck_of_touched {batch shadow : BlockBatch} {uid : UidKey}
    (huids : shadow.uids = batch.uids)
    (htouched : uid ∈ shadow.db.uniqueIds →
      uid ∈ batch.uids.pending ∨ uid ∈ batch.uids.removed)
    (hcheck : batch.hasUniqueIdCheck uid = false) :
    shadow.hasUniqueIdCheck uid = false := by
  have hpending : shadow.pendingUniqueIds = batch.pendingUniqueIds :=
    congrArg BlockBatch.UidState.pending huids
  have hremoved : shadow.removedUniqueIds = batch.removedUniqueIds :=
    congrArg BlockBatch.UidState.removed huids
  simp only [BlockBatch.hasUniqueIdCheck] at hcheck ⊢
  rw [hpending, hremoved]
  split at hcheck
  · contradiction
  case isFalse hunpending =>
    rw [if_neg hunpending]
    split
    · rfl
    case isFalse hkept =>
      rw [StateDb.hasUniqueId, decide_eq_false_iff_not]
      intro hmem
      exact (htouched hmem).elim hunpending hkept

theorem Shadow.step {done rest : List (Transaction × Nat)}
    {item : Transaction × Nat} {state next other : UtxoState}
    (hshadow : Shadow ctx txs db back done state other)
    (hindexed : db.Indexed) (hnew : NewRows db (blockRows ctx txs.zipIdx))
    (hlarger : Larger ctx txs db back)
    (hsame : ctx.mode ≠ .replay ∨
      ∀ outpoint, back.getUtxo outpoint = db.getUtxo outpoint)
    (hrevived : NoRevivedCollateral ctx txs ∨
      ∀ outpoint, back.getUtxo outpoint = db.getUtxo outpoint)
    (hgate : GateTouched ctx txs db back)
    (hsplit : txs.zipIdx = done ++ item :: rest)
    (hstep : processStep ctx state item = .ok next) :
    ∃ moved, processStep ctx other item = .ok moved ∧
      Shadow ctx txs db back (done ++ [item]) next moved := by
  obtain ⟨tx, txIndex⟩ := item
  have hdb := hshadow.journaled.tracked.db_eq
  have hback := hshadow.tracked.db_eq
  have hknown := known_of_pendingRows hnew
    (fun _ _ => inputEntry_of_stored hnew) hsplit hdb hshadow.located.pending
  have hotherPending : PendingRows ctx done other := fun outpoint entry hlookup =>
    hshadow.located.pending outpoint entry
      ((hshadow.agree.pending outpoint).symm.trans hlookup)
  have hotherKnown := known_of_pendingRows hnew (hlarger.known hnew) hsplit hback
    hotherPending
  have henum : state.batch.Enumerable :=
    enumerable_of_known (hdb ▸ hindexed) hknown hshadow.located.respent
  have hotherEnum : other.batch.Enumerable := by
    refine enumerable_of_known (hback ▸ hlarger.indexed) hotherKnown ?_
    intro outpoint hmem
    rw [hshadow.agree.pending]
    exact hshadow.located.respent outpoint ((hshadow.agree.spent outpoint).mp hmem)
  obtain ⟨moved, hmoved, hagree⟩ := processTransactionUtxos_agree hstep
    hshadow.agree henum hotherEnum hknown hotherKnown
    (by rw [hdb, hback]; exact hlarger.stored) (by rw [hdb, hback]; exact hsame)
    (hshadow.burnable hlarger hrevived hsplit henum hotherEnum) fun uid huid =>
      hasUniqueIdCheck_of_touched hshadow.agree.uids
        (by rw [hback]; exact hgate _ _ _ _ hsplit hshadow.ran uid huid)
  obtain ⟨spent, burned, consumed, heffect⟩ := processTransactionUtxos_effect hmoved
  obtain ⟨hjournaled, hlocated⟩ :=
    hshadow.journaled.step hshadow.located hnew hsplit hstep
  exact ⟨moved, hmoved,
    { ran := run_append_ok.mpr
        ⟨state, hshadow.ran, run_cons_ok.mpr ⟨next, hstep, rfl⟩⟩
      journaled := hjournaled
      located := hlocated
      tracked := hshadow.tracked.step heffect
      agree := hagree }⟩

theorem processTransactions_shadow (hindexed : db.Indexed)
    (hnew : NewRows db (blockRows ctx txs.zipIdx))
    (hlarger : Larger ctx txs db back)
    (hsame : ctx.mode ≠ .replay ∨
      ∀ outpoint, back.getUtxo outpoint = db.getUtxo outpoint)
    (hrevived : NoRevivedCollateral ctx txs ∨
      ∀ outpoint, back.getUtxo outpoint = db.getUtxo outpoint)
    (hgate : GateTouched ctx txs db back)
    (hprocess : processTransactions ctx txs db = .ok state) :
    ∃ other, processTransactions ctx txs back = .ok other ∧
      Shadow ctx txs db back txs.zipIdx state other := by
  refine run_simulates (fun done state other =>
    Shadow ctx txs db back done state other) ?_ ?_ hprocess
  · exact
      { ran := rfl
        journaled := journaled_initial ctx txs hindexed
        located := located_initial ctx db
        tracked := tracked_initial back
        agree := .beginBatch db back }
  · intro done item rest current next shadow hsplit hshadow hstep
    exact hshadow.step hindexed hnew hlarger hsame hrevived hgate hsplit hstep

end Simulation

/-! ## The two commits -/

section Commit

variable {ctx : BlockContext} {txs : List Transaction} {prices : List PairPrice}
  {db : StateDb} {state other : UtxoState}

/-- States that agree over a store and over its rollback commit the same rows
and ids. -/
theorem commit_agree (hjournaled : Journaled ctx txs db state)
    (hsame : ctx.mode ≠ .replay ∨ ∀ outpoint,
      (rollbackUtxos state.undo state.batch.commit).getUtxo outpoint =
        db.getUtxo outpoint)
    (htracked : Tracked (rollbackUtxos state.undo state.batch.commit) other)
    (hagree : BlockBatch.Agree state.batch other.batch) :
    other.batch.commit.utxo = state.batch.commit.utxo ∧
      other.batch.commit.uniqueIds = state.batch.commit.uniqueIds := by
  constructor
  · refine Finmap.ext_lookup fun outpoint => ?_
    rw [BlockBatch.commit_utxo, BlockBatch.commit_utxo, htracked.coherent.lookup,
      hjournaled.tracked.coherent.lookup, hagree.pending]
    by_cases hspent : outpoint ∈ state.batch.spentInBatch
    · rw [if_pos hspent, if_pos ((hagree.spent outpoint).mpr hspent)]
    · rw [if_neg hspent, if_neg fun hmem => hspent ((hagree.spent outpoint).mp hmem),
        htracked.db_eq, hjournaled.tracked.db_eq]
      congr 1
      change (rollbackUtxos state.undo state.batch.commit).getUtxo outpoint =
        db.getUtxo outpoint
      rcases hsame with hmode | hsame
      · by_cases hkey : outpoint ∈ state.recordedKeys
        · exact absurd (hjournaled.recorded hmode outpoint hkey) hspent
        · exact hjournaled.getUtxo_rollback_of_notMem hkey
      · exact hsame outpoint
  · have hops : other.batch.uniqueIdOps = state.batch.uniqueIdOps :=
      congrArg BlockBatch.UidState.ops hagree.uids
    rw [BlockBatch.commit_uniqueIds, BlockBatch.commit_uniqueIds,
      BlockBatch.uidView, htracked.db_eq, rollbackUtxos_uniqueIds, hops,
      BlockBatch.commit_uniqueIds, BlockBatch.uidView, commitSet_idem]

end Commit

/-! ## The first run -/

section First

variable {ctx : BlockContext} {txs : List Transaction} {prices : List PairPrice}
  {db : StateDb} {state : UtxoState}

theorem FreshBlock.journaled (hfresh : FreshBlock ctx txs prices db)
    (hprocess : processTransactions ctx txs db = .ok state) :
    Journaled ctx txs db (replaceOraclePrices ctx prices state) :=
  replaceOraclePrices_journaled
    (processTransactions_journaled hfresh.indexed hfresh.newRows hprocess).1
    hfresh.outpoints.distinct (hfresh.outpoints.notCreated hprocess)

theorem replaceOraclePrices_uids (htracked : Tracked db state)
    (hdistinct : (prices.map fun price =>
      oraclePriceOutpoint ctx.utxo.prim price.pairId).Nodup)
    (hnew : ∀ price ∈ prices,
      oraclePriceOutpoint ctx.utxo.prim price.pairId ∉ state.undoCreated)
    (horacle : ∀ price ∈ prices, ∀ entry,
      db.getUtxo (oraclePriceOutpoint ctx.utxo.prim price.pairId) = some entry →
        entry.output.outputType = .oraclePrice) :
    (replaceOraclePrices ctx prices state).batch.uids = state.batch.uids := by
  induction prices generalizing state with
  | nil => rfl
  | cons price prices ih =>
      simp only [List.map_cons, List.nodup_cons] at hdistinct
      have hfirst : (replaceOraclePrice ctx state price).batch.uids =
          state.batch.uids := by
        have hspends := consumeOraclePrice_spends state
          (oraclePriceOutpoint ctx.utxo.prim price.pairId)
        simp only [replaceOraclePrice, BlockBatch.addUtxo_uids, hspends.uids]
        cases hget : state.batch.getUtxo
            (oraclePriceOutpoint ctx.utxo.prim price.pairId) with
        | none => rfl
        | some previous =>
            have hstored := htracked.getUtxo_eq hget (hnew price List.mem_cons_self)
            have htype := horacle price List.mem_cons_self previous hstored
            have hnone : BlockBatch.deleteUid previous = [] := by
              simp [BlockBatch.deleteUid, uniqueIdOf, htype]
            simp [hnone, BlockBatch.UidState.writeAll]
      refine Eq.trans (ih (htracked.replaceOraclePrice ctx price) hdistinct.2 ?_
        fun later hlater => horacle later (List.mem_cons_of_mem _ hlater)) hfirst
      intro later hlater hmem
      rw [replaceOraclePrice_undoCreated, List.mem_append,
        List.mem_singleton] at hmem
      rcases hmem with hmem | hsame
      · exact hnew later (List.mem_cons_of_mem _ hlater) hmem
      · exact hdistinct.1 (List.mem_map.mpr ⟨later, hlater, hsame⟩)

theorem FreshBlock.uidView (hfresh : FreshBlock ctx txs prices db)
    (hmode : ctx.mode ≠ .replay)
    (hprocess : processTransactions ctx txs db = .ok state) :
    (replaceOraclePrices ctx prices state).batch.uidView =
      commitSet (blockIdOps ctx txs db txs.zipIdx) db.uniqueIds := by
  have hsplit : txs.zipIdx = txs.zipIdx ++ [] := by simp
  obtain ⟨-, -, huids⟩ := run_uids hmode hfresh.newRows
    (fun _ _ => inputEntry_of_stored hfresh.newRows) hsplit hprocess
  have htracked := processTransactions_tracked hprocess
  have hfinal := replaceOraclePrices_uids htracked hfresh.outpoints.distinct
    (hfresh.outpoints.notCreated hprocess) hfresh.oracle
  have hops := congrArg BlockBatch.UidState.ops (hfinal.trans huids)
  rw [BlockBatch.UidState.writeAll_ops] at hops
  have hdb := (hfresh.journaled hprocess).tracked.db_eq
  change commitSet (replaceOraclePrices ctx prices state).batch.uids.ops
    (replaceOraclePrices ctx prices state).batch.db.uniqueIds = _
  rw [hops, hdb]
  rfl

theorem FreshBlock.larger (hfresh : FreshBlock ctx txs prices db)
    (hprocess : processTransactions ctx txs db = .ok state) :
    Larger ctx txs db
      (rollbackUtxos (replaceOraclePrices ctx prices state).undo
        (replaceOraclePrices ctx prices state).batch.commit) where
  indexed := (hfresh.journaled hprocess).rollback_indexed hfresh.newRows
  stored _ _ := (hfresh.journaled hprocess).stored hfresh.newRows
  origin _ _ hback := ((hfresh.journaled hprocess).origin hback).imp id And.left

theorem Larger.oracle {back : StateDb} (hlarger : Larger ctx txs db back)
    (hfresh : FreshBlock ctx txs prices db) {price : PairPrice}
    (hprice : price ∈ prices) :
    back.getUtxo (oraclePriceOutpoint ctx.utxo.prim price.pairId) =
      db.getUtxo (oraclePriceOutpoint ctx.utxo.prim price.pairId) := by
  cases hback : back.getUtxo (oraclePriceOutpoint ctx.utxo.prim price.pairId) with
  | some entry =>
      rcases hlarger.origin _ entry hback with hstored | ⟨hrow, -⟩
      · exact hstored.symm
      · obtain ⟨item, hitem, hmem⟩ := List.mem_flatMap.mp hrow
        have hkey := List.mem_map_of_mem (f := Prod.fst) hmem
        rw [txRows_keys] at hkey
        exact absurd hkey (hfresh.outpoints.disjoint price hprice item.1
          (List.fst_mem_of_mem_zipIdx hitem))
  | none =>
      cases hstored : db.getUtxo
          (oraclePriceOutpoint ctx.utxo.prim price.pairId) with
      | none => rfl
      | some entry =>
          rw [hlarger.stored _ entry hstored] at hback
          contradiction

theorem FreshBlock.reappliable (hfresh : FreshBlock ctx txs prices db)
    (hprocess : processTransactions ctx txs db = .ok state)
    (hsame : ctx.mode ≠ .replay ∨ ∀ outpoint,
      (rollbackUtxos (replaceOraclePrices ctx prices state).undo
        (replaceOraclePrices ctx prices state).batch.commit).getUtxo outpoint =
          db.getUtxo outpoint)
    (hrevived : NoRevivedCollateral ctx txs ∨ ∀ outpoint,
      (rollbackUtxos (replaceOraclePrices ctx prices state).undo
        (replaceOraclePrices ctx prices state).batch.commit).getUtxo outpoint =
          db.getUtxo outpoint)
    (hgate : GateTouched ctx txs db
      (rollbackUtxos (replaceOraclePrices ctx prices state).undo
        (replaceOraclePrices ctx prices state).batch.commit)) :
    Reappliable ctx txs prices
      (replaceOraclePrices ctx prices state).batch.commit
      (replaceOraclePrices ctx prices state).undo := by
  have hlarger := hfresh.larger hprocess
  obtain ⟨other, hother, hshadow⟩ := processTransactions_shadow hfresh.indexed
    hfresh.newRows hlarger hsame hrevived hgate hprocess
  have hagree : BlockBatch.Agree (replaceOraclePrices ctx prices state).batch
      (replaceOraclePrices ctx prices other).batch := by
    refine replaceOraclePrices_agree hshadow.agree fun price hprice => ?_
    rw [hshadow.tracked.db_eq, hshadow.journaled.tracked.db_eq]
    exact hlarger.oracle hfresh hprice
  obtain ⟨hutxo, huniqueIds⟩ := commit_agree (hfresh.journaled hprocess) hsame
    (replaceOraclePrices_tracked prices hshadow.tracked) hagree
  exact ⟨_, _, by rw [applyBlockUtxos, hother], hutxo, huniqueIds⟩

theorem UniqueIdsFree.gateTouched (hfree : UniqueIdsFree ctx txs db)
    (hfresh : FreshBlock ctx txs prices db) (hmode : ctx.mode ≠ .replay)
    (hprocess : processTransactions ctx txs db = .ok state) :
    GateTouched ctx txs db
      (rollbackUtxos (replaceOraclePrices ctx prices state).undo
        (replaceOraclePrices ctx prices state).batch.commit) := by
  rintro done ⟨tx, txIndex⟩ rest current hsplit hrun uid huid hkept
  rw [rollbackUtxos_uniqueIds, BlockBatch.commit_uniqueIds,
    hfresh.uidView hmode hprocess] at hkept
  obtain ⟨i, htake, -, hitem⟩ := zipIdx_split_position hsplit
  obtain ⟨rfl, -⟩ := Prod.mk.inj hitem
  have hearlier := hfree i uid huid hkept
  rw [← htake] at hearlier
  obtain ⟨-, -, huids⟩ := run_uids hmode hfresh.newRows
    (fun _ _ => inputEntry_of_stored hfresh.newRows) hsplit hrun
  rw [huids]
  exact (BlockBatch.UidState.writeAll_touched _ _ uid).mpr (.inr hearlier)

end First

/-! ## The second run -/

section Second

variable {ctx : BlockContext} {txs : List Transaction} {db back : StateDb}
  {other : UtxoState}

theorem run_at {items : List (Transaction × Nat)} {start final : UtxoState}
    {i : Fin txs.length}
    (hsplit : items = txs.zipIdx.take i ++ (txs.get i, (i : Nat)) ::
      items.drop (i + 1))
    (hrun : run (processStep ctx) items start = .ok final) :
    ∃ middle next, run (processStep ctx) (txs.zipIdx.take i) start = .ok middle ∧
      processTransactionUtxos ctx i (txs.get i) middle = .ok next ∧
      run (processStep ctx) (items.drop (i + 1)) next = .ok final := by
  rw [hsplit] at hrun
  obtain ⟨middle, hfirst, hrest⟩ := run_append_ok.mp hrun
  obtain ⟨next, hstep, hlater⟩ := run_cons_ok.mp hrest
  refine ⟨middle, next, hfirst, hstep, ?_⟩
  have hdrop : (items.drop (i + 1)) = (txs.zipIdx.take i ++
      (txs.get i, (i : Nat)) :: items.drop (i + 1)).drop (i + 1) := by
    rw [← hsplit]
  rwa [hdrop, ← hsplit]

theorem run_spentInBatch_subset {items : List (Transaction × Nat)}
    {start final : UtxoState} (hrun : run (processStep ctx) items start = .ok final) :
    start.batch.spentInBatch ⊆ final.batch.spentInBatch := by
  refine run_invariant (fun _ current =>
    start.batch.spentInBatch ⊆ current.batch.spentInBatch) (List.Subset.refl _)
    ?_ hrun
  intro done item rest current next hitems hsubset hstep
  obtain ⟨spent, burned, consumed, heffect⟩ := processTransactionUtxos_effect hstep
  rw [heffect.spentInBatch]
  exact List.Subset.trans hsubset (List.subset_append_left _ _)

theorem getUtxo_of_accepted {txIndex : Nat} {tx : Transaction}
    {state next : UtxoState} (hmode : ctx.mode ≠ .replay)
    (hprocess : processTransactionUtxos ctx txIndex tx state = .ok next)
    {outpoint : Outpoint}
    (hinput : outpoint ∈ spentInputs tx (isRewardTx txIndex tx)) :
    (state.batch.getUtxo outpoint).isSome := by
  obtain ⟨middle, spent, haccepted⟩ := processTransactionUtxos_ok hprocess
  obtain ⟨hreward, hmem⟩ := mem_spentInputs.mp hinput
  obtain ⟨input, hnamed, rfl⟩ := List.mem_map.mp hmem
  have hvalidated := haccepted.validate_ok
  simp only [validateStage, hreward, Bool.false_eq_true, if_false,
    hmode] at hvalidated
  split at hvalidated
  case h_1 hok =>
    exact UtxoContext.validateTransactionWithUtxos_inputs hok input hnamed
  case h_2 => contradiction

theorem gate_of_accepted (hmode : ctx.mode ≠ .replay)
    (hnew : NewRows db (blockRows ctx txs.zipIdx))
    (hlarger : Larger ctx txs db back)
    (hprocess : processTransactions ctx txs back = .ok other)
    (i : Fin txs.length) {uid : UidKey} (huid : uid ∈ gatedIds (txs.get i))
    (hkept : uid ∈ back.uniqueIds) :
    uid ∈ (blockIdOps ctx txs db (txs.zipIdx.take i)).map WriteOp.key := by
  have hsplit := zipIdx_eq_split txs i
  obtain ⟨middle, next, hrun, hstep, -⟩ := run_at hsplit hprocess
  obtain ⟨hdb, hpending, huids⟩ :=
    run_uids hmode hnew (hlarger.known hnew) hsplit hrun
  have hknown := known_of_pendingRows hnew (hlarger.known hnew) hsplit hdb hpending
  obtain ⟨burnedState, spent, haccepted⟩ := processTransactionUtxos_ok hstep
  obtain ⟨burned, hburned⟩ := slashBurnInBatch_burned haccepted.burn_ok
  have hspends := hburned.spends
  have hkeys := hburned.keys
  rw [captureStage_batch] at hspends hkeys
  have hnoUid := burned_deleteUid hknown hkeys
    fun row hrow => hknown row.1 row.2 (hspends.entries row hrow)
  have hcheck := checkDuplicateIds_ok_iff.mp haccepted.unique_ok uid huid
  rw [hasUniqueIdCheck_eq (by rw [hspends.uids, hnoUid]; rfl) hspends.db] at hcheck
  by_contra hearlier
  have huntouched : ¬(uid ∈ middle.batch.uids.pending ∨
      uid ∈ middle.batch.uids.removed) := by
    rw [huids, BlockBatch.UidState.writeAll_touched]
    rintro (hempty | hwritten)
    · simp [BlockBatch.uids, StateDb.beginBatch] at hempty
    · exact hearlier hwritten
  obtain ⟨hunpending, hunremoved⟩ := not_or.mp huntouched
  have hstore : middle.batch.hasUniqueIdCheck uid = true := by
    have hdirty : uid ∉ middle.batch.pendingUniqueIds ∧
        uid ∉ middle.batch.removedUniqueIds := ⟨hunpending, hunremoved⟩
    unfold BlockBatch.hasUniqueIdCheck
    rw [if_neg hdirty.1, if_neg hdirty.2, hdb, StateDb.hasUniqueId]
    exact decide_eq_true hkept
  rw [hstore] at hcheck
  contradiction

theorem mem_blockRows_drop {i j : Fin txs.length} (hle : i ≤ j)
    {row : Outpoint × UtxoEntry}
    (hrow : row ∈ txRows ctx (txs.get j, (j : Nat))) :
    row ∈ blockRows ctx (txs.zipIdx.drop i) := by
  refine List.mem_flatMap.mpr ⟨(txs.get j, (j : Nat)), ?_, hrow⟩
  have hget : (txs.zipIdx.drop i)[(j : Nat) - i]? = some (txs.get j, (j : Nat)) := by
    have hsum : (i : Nat) + (j - i) = j := Nat.add_sub_cancel' hle
    rw [List.getElem?_drop, hsum]
    simp
  exact List.mem_of_getElem? hget

theorem noRevivedCollateral_of_accepted (hmode : ctx.mode ≠ .replay)
    (hnew : NewRows db (blockRows ctx txs.zipIdx))
    (hlarger : Larger ctx txs db back) {state : UtxoState}
    (hprocess : processTransactions ctx txs db = .ok state)
    (hrecorded : ∀ outpoint ∈ state.recordedKeys,
      (back.getUtxo outpoint).isSome)
    (hagain : processTransactions ctx txs back = .ok other) :
    NoRevivedCollateral ctx txs := by
  intro i j k hle row hrow howner hburnable hspends
  have hmem : row ∈ blockRows ctx txs.zipIdx := List.mem_flatMap.mpr
    ⟨(txs.get j, (j : Nat)), List.mem_zipIdx_iff_getElem?.mpr (by simp), hrow⟩
  have hunstored := hnew.unstored row.1 (List.mem_map_of_mem hmem)
  have hsplitAt : ∀ position : Nat,
      txs.zipIdx = txs.zipIdx.take position ++ txs.zipIdx.drop position :=
    fun position => (List.take_append_drop position txs.zipIdx).symm
  -- the first run has the row when `k` spends it, so `k` stands after `j`
  obtain ⟨middle, next, hrun, hstep, hlater⟩ := run_at (zipIdx_eq_split txs k) hprocess
  obtain ⟨hdb, hpending, -⟩ := run_uids hmode hnew
    (fun _ _ => inputEntry_of_stored hnew) (hsplitAt k) hrun
  have hlt : j < k := by
    by_contra hge
    have hback : k ≤ j := by
      rw [Fin.lt_def] at hge
      exact Fin.le_def.mpr (Nat.not_lt.mp hge)
    have hnone := pending_none_of_later hnew (hsplitAt k) hpending
      (mem_blockRows_drop hback hrow)
    obtain ⟨entry, hget⟩ :=
      Option.isSome_iff_exists.mp (getUtxo_of_accepted hmode hstep hspends)
    rcases BlockBatch.getUtxo_cases hget with hfound | hfound
    · simp [hnone] at hfound
    · rw [hdb, hunstored] at hfound
      contradiction
  -- so it is recorded, and back in the store
  have hkey : row.1 ∈ state.recordedKeys := by
    obtain ⟨hreward, hinput⟩ := mem_spentInputs.mp hspends
    obtain ⟨input, hnamed, hsame⟩ := List.mem_map.mp hinput
    rw [← hsame]
    exact run_recordedKeys_subset hlater
      (processTransactionUtxos_records hmode hreward hstep input hnamed)
  obtain ⟨entry, hback⟩ := Option.isSome_iff_exists.mp (hrecorded row.1 hkey)
  obtain rfl : entry = row.2 := by
    have hleft := hlarger.known hnew row.1 entry hback
    rw [inputEntry_of_row hnew hmem, Option.some.injEq] at hleft
    exact hleft.symm
  -- the second run burns it at `i` at the latest
  obtain ⟨before, final, hbefore, haccepted, -⟩ :=
    run_at (zipIdx_eq_split txs k) hagain
  obtain ⟨early, afterBurn, hearly, hburn, hbetween⟩ := run_at
    (zipIdx_take_split txs i (lt_of_le_of_lt hle hlt)) hbefore
  obtain ⟨hearlyDb, hearlyPending, -⟩ := run_uids hmode hnew
    (hlarger.known hnew) (hsplitAt i) hearly
  have hspent : row.1 ∈ afterBurn.batch.spentInBatch := by
    obtain ⟨spent, burned, consumed, heffect⟩ := processTransactionUtxos_effect hburn
    rw [heffect.spentInBatch, List.map_append, List.mem_append, List.mem_append,
      heffect.burned_keys]
    by_cases hold : row.1 ∈ early.batch.spentInBatch
    · exact .inl hold
    · refine .inr (.inl (List.mem_map_of_mem ?_))
      have hindexed : early.batch.db.Indexed := hearlyDb ▸ hlarger.indexed
      have hlisted := BlockBatch.mem_getUtxosByPubkey_of_stored hindexed
        (hearlyDb ▸ hback) hold
      unfold burnableRows
      rw [howner]
      exact List.mem_filter.mpr ⟨hlisted, hburnable⟩
  have hmissing := getUtxo_of_accepted hmode haccepted hspends
  rw [BlockBatch.getUtxo, if_pos (run_spentInBatch_subset hbetween hspent)] at hmissing
  contradiction

end Second

/-- A rolled-back block is accepted again, with the same rows and ids, exactly
when it leaves no id in the index that it asks for again and revives no
collateral that it burns too early. -/
theorem reapply_iff {ctx : BlockContext} {txs : List Transaction}
    {prices : List PairPrice} {db after : StateDb} {undo : UndoData}
    (hfresh : FreshBlock ctx txs prices db)
    (happly : applyBlockUtxos ctx txs prices db = .ok (after, undo)) :
    (ctx.mode ≠ .replay → (Reappliable ctx txs prices after undo ↔
      UniqueIdsFree ctx txs db ∧ NoRevivedCollateral ctx txs)) ∧
    (NoInBlockSpend ctx.utxo.prim txs → (∀ tx ∈ txs, gatedIds tx = []) →
      Reappliable ctx txs prices after undo) := by
  have hrestored : NoInBlockSpend ctx.utxo.prim txs →
      (rollbackUtxos undo after).utxo = db.utxo :=
    fun hspends => rollbackUtxos_restores hfresh.outpoints hspends happly
  unfold applyBlockUtxos at happly
  split at happly
  · contradiction
  case h_2 state hprocess =>
    obtain ⟨rfl, rfl⟩ := Prod.mk.inj (Except.ok.inj happly)
    have hlarger := hfresh.larger hprocess
    refine ⟨fun hmode => ⟨?_, ?_⟩, fun hchain hungated => ?_⟩
    · rintro ⟨again, undo', hagain, -, -⟩
      unfold applyBlockUtxos at hagain
      split at hagain
      · contradiction
      case h_2 other hother =>
        refine ⟨fun i uid huid hkept => ?_, ?_⟩
        · refine gate_of_accepted hmode hfresh.newRows hlarger hother i huid ?_
          rw [rollbackUtxos_uniqueIds, BlockBatch.commit_uniqueIds,
            hfresh.uidView hmode hprocess]
          exact hkept
        · refine noRevivedCollateral_of_accepted hmode hfresh.newRows hlarger
            hprocess (fun outpoint hkey => ?_) hother
          obtain ⟨entry, -, hback⟩ := getUtxo_rollback_of_recorded
            (replaceOraclePrices_recordedKeys_subset prices state hkey)
          rw [hback]
          rfl
    · rintro ⟨hfree, hrevived⟩
      exact hfresh.reappliable hprocess (.inl hmode) (.inl hrevived)
        (hfree.gateTouched hfresh hmode hprocess)
    · have hsame : ∀ outpoint,
          (rollbackUtxos (replaceOraclePrices ctx prices state).undo
            (replaceOraclePrices ctx prices state).batch.commit).getUtxo outpoint =
              db.getUtxo outpoint :=
        fun outpoint => congrArg (·.lookup outpoint) (hrestored hchain)
      refine hfresh.reappliable hprocess (.inr hsame) (.inr hsame) ?_
      intro done item rest current hsplit hrun uid huid hkept
      have hmem : item ∈ txs.zipIdx := by simp [hsplit]
      rw [hungated item.1 (List.fst_mem_of_mem_zipIdx hmem)] at huid
      simp at huid

/-! ## A block that creates a pool -/

theorem reapply_paid :
    ∃ after undo,
      applyBlockUtxos sampleBlockContext [sampleCoinbase, firstTransfer] []
        paidDb = .ok (after, undo) ∧
      Reappliable sampleBlockContext [sampleCoinbase, firstTransfer] [] after
        undo := by
  have hfresh : FreshBlock sampleBlockContext [sampleCoinbase, firstTransfer] []
      paidDb :=
    { outpoints := ⟨by decide +kernel, by decide, by simp⟩
      nodup := by decide +kernel
      indexed := StateDb.indexed_empty.insertUtxo
        (ownedBy_of_lookup_none (Finmap.lookup_empty _) _)
      oracle := by simp }
  have hok : (applyBlockUtxos sampleBlockContext
      [sampleCoinbase, firstTransfer] [] paidDb).isOk = true := by
    decide +kernel
  obtain ⟨⟨after, undo⟩, happly⟩ := exists_eq_ok hok
  exact ⟨after, undo, happly,
    (reapply_iff hfresh happly).2 (by decide +kernel) (by decide +kernel)⟩

def sampleAsset : Hash := ⟨77⟩

/-- `[version][Signature][owner]` in front of the metadata. -/
def signatureCondition (owner : Hash) : Bytes :=
  1 :: 0 :: owner.asBytes

def assetOutpoint : Outpoint := ⟨⟨9⟩, 0⟩

def assetOutput : Output where
  outputType := .fungibleAsset
  amount := 10
  pubkeyHash := ⟨5⟩
  lockUntil := 0
  extraData := signatureCondition ⟨5⟩ ++
    (1 :: sampleAsset.asBytes ++ leBytes 8 10 ++ [1, 65])

def pairDb : StateDb :=
  sampleDb [(paidOutpoint, sampleEntry (sampleOutput 100 ⟨5⟩)),
    (assetOutpoint, sampleEntry assetOutput)]

def pairPoolId : Hash :=
  samplePrimitives.hashWithDomain (ascii "DOLI_POOL_V2")
    (leBytes 2 30 ++ (⟨0⟩ : Hash).asBytes ++ sampleAsset.asBytes)

def pairPool : Output :=
  .pool
    { poolId := pairPoolId
      assetBId := sampleAsset
      reserveA := 90
      reserveB := 10
      totalLpShares := 1030
      cumulativePrice := 0
      lastUpdateSlot := 0
      feeBps := 30
      creationSlot := 0
      status := 0 }

def pairShare : Output where
  outputType := .lpShare
  amount := 30
  pubkeyHash := ⟨5⟩
  lockUntil := 0
  extraData := signatureCondition ⟨5⟩ ++ (1 :: pairPoolId.asBytes)

def createPair : Transaction where
  version := 1
  txType := .createPool
  inputs := [paidOutpoint, assetOutpoint].map sampleInput
  outputs := [pairPool, pairShare]
  extraData := []

/-- After the rollback the index still holds the pool id, so the block that
created the pool is refused. -/
theorem reapply_refuses_pool :
    ∃ after undo,
      applyBlockUtxos sampleBlockContext [sampleCoinbase, createPair] [] pairDb =
        .ok (after, undo) ∧
      applyBlockUtxos sampleBlockContext [sampleCoinbase, createPair] []
        (rollbackUtxos undo after) = .error (.poolExists pairPoolId) ∧
      ¬ Reappliable sampleBlockContext [sampleCoinbase, createPair] [] after
        undo := by
  have hok : (applyBlockUtxos sampleBlockContext
      [sampleCoinbase, createPair] [] pairDb).isOk = true := by
    decide +kernel
  obtain ⟨⟨after, undo⟩, happly⟩ := exists_eq_ok hok
  have hrefused : ((applyBlockUtxos sampleBlockContext
      [sampleCoinbase, createPair] [] pairDb).toOption.bind fun result =>
        match applyBlockUtxos sampleBlockContext [sampleCoinbase, createPair] []
          (rollbackUtxos result.2 result.1) with
        | .error error => some error
        | .ok _ => none) = some (.poolExists pairPoolId) := by
    decide +kernel
  simp only [happly, Except.toOption, Option.bind_some] at hrefused
  split at hrefused
  case h_1 error hagain =>
    rw [Option.some.inj hrefused] at hagain
    refine ⟨after, undo, happly, hagain, ?_⟩
    rintro ⟨again, undo', haccepted, -, -⟩
    simp only [hagain, reduceCtorEq] at haccepted
  case h_2 => simp at hrefused

end Doli.Node
