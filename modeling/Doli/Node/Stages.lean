import Doli.Node.ProcessUtxos
import Doli.Storage.Overlay

/-!
# What an accepted transaction does

Inversion of `processTransactionUtxos` into its stages, and one specification
for each stage: which rows the burn and the spends consume, which of them the
undo data records, and which rows are added.
-/

namespace Doli.Node

open Doli.Core Doli.Lib Doli.Storage

/-! ## Inversion -/

theorem consumeEpochPool_eq (ctx : BlockContext) (tx : Transaction)
    (state : UtxoState) : consumeEpochPool ctx tx state = state := by
  simp [consumeEpochPool, epochRewardExplicitInputsHeight]

/-- The stages an accepted transaction went through. -/
structure Accepted (ctx : BlockContext) (txIndex : Nat) (tx : Transaction)
    (state next : UtxoState) (burned : UtxoState) (spent : BlockBatch) :
    Prop where
  validate_ok : validateStage ctx tx (isRewardTx txIndex tx) state.batch = .ok ()
  burn_ok : slashBurnInBatch ctx tx
    (captureStage tx (isRewardTx txIndex tx) state) = .ok burned
  unique_ok : checkDuplicateIds burned.batch tx.txType tx.outputs = .ok ()
  spend_ok : spendStage ctx tx (isRewardTx txIndex tx) burned.batch = .ok spent
  next_eq : next = addStage ctx tx (isRewardTx txIndex tx) burned spent

@[simp] theorem captureStage_batch (tx : Transaction) (reward : Bool)
    (state : UtxoState) : (captureStage tx reward state).batch = state.batch := by
  unfold captureStage
  split <;> rfl

@[simp] theorem captureStage_undoCreated (tx : Transaction) (reward : Bool)
    (state : UtxoState) :
    (captureStage tx reward state).undoCreated = state.undoCreated := by
  unfold captureStage
  split <;> rfl

theorem Accepted.process {ctx : BlockContext} {txIndex : Nat} {tx : Transaction}
    {state next burned : UtxoState} {spent : BlockBatch}
    (haccepted : Accepted ctx txIndex tx state next burned spent) :
    processTransactionUtxos ctx txIndex tx state = .ok next := by
  simp only [processTransactionUtxos, consumeEpochPool_eq, captureStage_batch,
    haccepted.validate_ok, haccepted.burn_ok, haccepted.unique_ok,
    haccepted.spend_ok, haccepted.next_eq]

theorem processTransactionUtxos_ok {ctx : BlockContext} {txIndex : Nat}
    {tx : Transaction} {state next : UtxoState}
    (hprocess : processTransactionUtxos ctx txIndex tx state = .ok next) :
    ∃ burned spent, Accepted ctx txIndex tx state next burned spent := by
  simp only [processTransactionUtxos, consumeEpochPool_eq] at hprocess
  split at hprocess
  · contradiction
  case h_2 hvalidated =>
    split at hprocess
    · contradiction
    case h_2 burned hburned =>
      split at hprocess
      · contradiction
      case h_2 hunique =>
        split at hprocess
        · contradiction
        case h_2 spent hspent =>
          refine ⟨burned, spent, ?_, hburned, hunique, hspent, ?_⟩
          · simpa using hvalidated
          · exact (Except.ok.inj hprocess).symm

/-! ## Slash burns -/

/-- The rows a slash burns: what the overlay enumerates of the accused. -/
def burnableRows (ctx : BlockContext) (tx : Transaction) (batch : BlockBatch) :
    List (Outpoint × UtxoEntry) :=
  match slashBurnOwner ctx.utxo ctx.height tx with
  | none => []
  | some owner =>
      (batch.getUtxosByPubkey owner).filter fun row =>
        isSlashBurnable row.2.output ctx.height

/-- The effect of a burn of `rows`: all of them are spent, and those the block
did not create are recorded. -/
structure Burned (rows : List (Outpoint × UtxoEntry))
    (before after : UtxoState) (burned : List (Outpoint × UtxoEntry)) : Prop where
  created : after.undoCreated = before.undoCreated
  spends : BlockBatch.Spends before.batch after.batch burned
  keys : burned.map Prod.fst = rows.map Prod.fst
  recorded : after.undoSpent =
    before.undoSpent ++ rows.filter fun row => row.1 ∉ before.undoCreated

theorem burnRows_burned {height : Nat} {rows : List (Outpoint × UtxoEntry)}
    {state next : UtxoState} (hburn : burnRows height rows state = .ok next) :
    ∃ burned, Burned (rows.filter fun row => isSlashBurnable row.2.output height)
      state next burned := by
  induction rows generalizing state with
  | nil =>
      obtain rfl := Except.ok.inj hburn
      exact ⟨[], rfl, .refl _, rfl, by simp⟩
  | cons row rows ih =>
      obtain ⟨outpoint, entry⟩ := row
      simp only [burnRows] at hburn
      split at hburn
      case isFalse hkept =>
        obtain ⟨burned, heffect⟩ := ih hburn
        exact ⟨burned, by simpa [hkept] using heffect⟩
      case isTrue hburnable =>
        split at hburn
        · contradiction
        case h_2 spentBatch spentEntry hspend =>
          obtain ⟨hentry, rfl⟩ := BlockBatch.spendUtxo_ok_iff.mp hspend
          obtain ⟨burned, hcreated, hspends, hkeys, hundo⟩ := ih hburn
          refine ⟨(outpoint, spentEntry) :: burned, hcreated,
            (BlockBatch.Spends.single hentry).trans hspends, ?_, ?_⟩
          · simp [hburnable, hkeys]
          · rw [hundo]
            by_cases hnew : outpoint ∈ state.undoCreated
            · simp [hburnable, hnew]
            · simp [hburnable, hnew]

theorem burnRows_ok {height : Nat} {rows : List (Outpoint × UtxoEntry)}
    {state : UtxoState} (hdistinct : (rows.map Prod.fst).Nodup)
    (hspendable : ∀ row ∈ rows, (state.batch.spendableEntry row.1).isSome) :
    ∃ next, burnRows height rows state = .ok next := by
  induction rows generalizing state with
  | nil => exact ⟨state, rfl⟩
  | cons row rows ih =>
      obtain ⟨outpoint, entry⟩ := row
      simp only [List.map_cons, List.nodup_cons] at hdistinct
      simp only [burnRows]
      split
      case isFalse =>
        exact ih hdistinct.2 fun row hrow => hspendable row (by simp [hrow])
      case isTrue =>
        obtain ⟨found, hfound⟩ := Option.isSome_iff_exists.mp
          (hspendable (outpoint, entry) (by simp))
        rw [BlockBatch.spendUtxo_ok_iff.mpr ⟨hfound, rfl⟩]
        refine ih hdistinct.2 fun row hrow => ?_
        have hother : row.1 ≠ outpoint := by
          rintro rfl
          exact hdistinct.1 (List.mem_map_of_mem hrow)
        have hkept := hspendable row (by simp [hrow])
        simpa [BlockBatch.spendableEntry, AList.lookup_erase_ne hother] using hkept

theorem mem_getUtxosByPubkey {batch : BlockBatch} {pubkeyHash : Hash}
    {row : Outpoint × UtxoEntry}
    (hmem : row ∈ batch.getUtxosByPubkey pubkeyHash) :
    batch.db.getUtxo row.1 = some row.2 ∨
      batch.pendingUtxos.lookup row.1 = some row.2 := by
  simp only [BlockBatch.getUtxosByPubkey, List.mem_append, List.mem_filter] at hmem
  rcases hmem with ⟨hstored, -⟩ | ⟨hpending, -⟩
  · exact .inl (StateDb.getUtxo_of_mem_getUtxosByPubkey hstored)
  · exact .inr (BlockBatch.mem_pendingOf.mp hpending).1

theorem mem_burnableRows {ctx : BlockContext} {tx : Transaction}
    {batch : BlockBatch} {row : Outpoint × UtxoEntry}
    (hmem : row ∈ burnableRows ctx tx batch) :
    batch.db.getUtxo row.1 = some row.2 ∨
      batch.pendingUtxos.lookup row.1 = some row.2 := by
  unfold burnableRows at hmem
  split at hmem
  · simp at hmem
  · exact mem_getUtxosByPubkey (List.mem_filter.mp hmem).1

theorem isSlashBurnable_of_mem {ctx : BlockContext} {tx : Transaction}
    {batch : BlockBatch} {row : Outpoint × UtxoEntry}
    (hmem : row ∈ burnableRows ctx tx batch) :
    isSlashBurnable row.2.output ctx.height = true := by
  unfold burnableRows at hmem
  split at hmem
  · simp at hmem
  · exact (List.mem_filter.mp hmem).2

theorem slashBurnInBatch_burned {ctx : BlockContext} {tx : Transaction}
    {state next : UtxoState}
    (hburn : slashBurnInBatch ctx tx state = .ok next) :
    ∃ burned, Burned (burnableRows ctx tx state.batch) state next burned := by
  unfold slashBurnInBatch at hburn
  unfold burnableRows
  cases howner : slashBurnOwner ctx.utxo ctx.height tx with
  | none =>
      rw [howner] at hburn
      obtain rfl := Except.ok.inj hburn
      exact ⟨[], rfl, .refl _, rfl, by simp⟩
  | some owner =>
      rw [howner] at hburn
      exact burnRows_burned hburn

/-! ## Spends -/

/-- The outpoints a transaction spends; the reward transaction spends none. -/
def spentInputs (tx : Transaction) (reward : Bool) : List Outpoint :=
  if reward then [] else tx.inputs.map inputOutpoint

theorem mem_spentInputs {tx : Transaction} {reward : Bool} {outpoint : Outpoint} :
    outpoint ∈ spentInputs tx reward ↔
      reward = false ∧ outpoint ∈ tx.inputs.map inputOutpoint := by
  unfold spentInputs
  cases reward <;> simp

theorem spendStage_spends {ctx : BlockContext} {tx : Transaction}
    {reward : Bool} {batch next : BlockBatch}
    (hspend : spendStage ctx tx reward batch = .ok next) :
    ∃ rows, BlockBatch.Spends batch next rows ∧
      rows.map Prod.fst <+: spentInputs tx reward ∧
      (ctx.mode ≠ .replay → rows.map Prod.fst = spentInputs tx reward) := by
  unfold spendStage at hspend
  unfold spentInputs
  split at hspend
  case isTrue hreward =>
    obtain rfl := Except.ok.inj hspend
    exact ⟨[], .refl _, by simp, by simp [hreward]⟩
  case isFalse hreward =>
    obtain ⟨rows, hinitial, hspends, hall⟩ :=
      BlockBatch.spendInputs_spends tx.inputs batch 0
    rw [if_neg hreward]
    unfold BlockBatch.spendTransactionUtxos at hspend
    generalize BlockBatch.spendInputs tx.inputs batch 0 = result
      at hspend hspends hall
    obtain ⟨after, outcome⟩ := result
    cases outcome with
    | ok amount =>
        obtain rfl := Except.ok.inj hspend
        exact ⟨rows, hspends, hinitial, fun _ => hall amount rfl⟩
    | error error =>
        simp only at hspend
        split at hspend
        case isTrue hreplay =>
          obtain rfl := Except.ok.inj hspend
          exact ⟨rows, hspends, hinitial, fun hmode => absurd hreplay hmode⟩
        · contradiction

/-! ## The whole transaction -/

theorem captureInputs_mem {batch : BlockBatch} {tx : Transaction}
    {row : Outpoint × UtxoEntry} (hrow : row ∈ captureInputs batch tx) :
    row.1 ∈ tx.inputs.map inputOutpoint ∧ batch.getUtxo row.1 = some row.2 := by
  obtain ⟨input, hinput, hmap⟩ := List.mem_filterMap.mp hrow
  obtain ⟨entry, hentry, rfl⟩ := Option.map_eq_some_iff.mp hmap
  exact ⟨List.mem_map_of_mem hinput, hentry⟩

theorem captureInputs_key {batch : BlockBatch} {tx : Transaction}
    {outpoint : Outpoint} (hinput : outpoint ∈ tx.inputs.map inputOutpoint)
    (hget : (batch.getUtxo outpoint).isSome) :
    outpoint ∈ (captureInputs batch tx).map Prod.fst := by
  obtain ⟨input, hmem, rfl⟩ := List.mem_map.mp hinput
  obtain ⟨entry, hentry⟩ := Option.isSome_iff_exists.mp hget
  refine List.mem_map.mpr ⟨(inputOutpoint input, entry), ?_, rfl⟩
  exact List.mem_filterMap.mpr ⟨input, hmem, by simp [hentry]⟩

/-- What the capture stage records. -/
def capturedRows (tx : Transaction) (reward : Bool) (state : UtxoState) :
    List (Outpoint × UtxoEntry) :=
  if reward then [] else captureInputs state.batch tx

theorem captureStage_undoSpent (tx : Transaction) (reward : Bool)
    (state : UtxoState) :
    (captureStage tx reward state).undoSpent =
      state.undoSpent ++ capturedRows tx reward state := by
  unfold captureStage capturedRows
  split <;> simp

theorem createdOutpoints_eq_newRows (prim : Primitives) (tx : Transaction)
    (height slot : Nat) (isCoinbase : Bool) :
    (BlockBatch.newRows (prim.txHash tx) height slot isCoinbase tx.isEpochReward
      tx.outputs 0).map Prod.fst = createdOutpoints prim tx := by
  rw [BlockBatch.newRows_keys, createdOutpoints, List.range_eq_range']

theorem addTransactionUtxos_eq (prim : Primitives) (batch : BlockBatch)
    (tx : Transaction) (height : Nat) (isCoinbase : Bool) (slot : Nat) :
    batch.addTransactionUtxos prim tx height isCoinbase slot =
      BlockBatch.addRows (BlockBatch.newRows (prim.txHash tx) height slot
        isCoinbase tx.isEpochReward tx.outputs 0) batch :=
  BlockBatch.addOutputs_eq_addRows ..

/-- The net effect of an accepted transaction: it burns the rows `burned`,
spends the rows `consumed` at its inputs and adds its outputs. -/
structure TxEffect (ctx : BlockContext) (txIndex : Nat) (tx : Transaction)
    (state next : UtxoState) (spent : BlockBatch)
    (burned consumed : List (Outpoint × UtxoEntry)) : Prop where
  created : next.undoCreated =
    state.undoCreated ++ createdOutpoints ctx.utxo.prim tx
  recorded : next.undoSpent =
    state.undoSpent ++ capturedRows tx (isRewardTx txIndex tx) state ++
      (burnableRows ctx tx state.batch).filter fun row =>
        row.1 ∉ state.undoCreated
  burned_keys : burned.map Prod.fst =
    (burnableRows ctx tx state.batch).map Prod.fst
  consumed_initial : consumed.map Prod.fst <+:
    spentInputs tx (isRewardTx txIndex tx)
  consumed_keys : ctx.mode ≠ .replay →
    consumed.map Prod.fst = spentInputs tx (isRewardTx txIndex tx)
  spends : BlockBatch.Spends state.batch spent (burned ++ consumed)
  batch : next.batch = spent.addTransactionUtxos ctx.utxo.prim tx ctx.height
    (isRewardTx txIndex tx) ctx.slot

theorem Accepted.effect {ctx : BlockContext} {txIndex : Nat} {tx : Transaction}
    {state next middle : UtxoState} {spent : BlockBatch}
    (haccepted : Accepted ctx txIndex tx state next middle spent) :
    ∃ burned consumed,
      TxEffect ctx txIndex tx state next spent burned consumed := by
  obtain ⟨burned, hcreated, hburns, hburned, hundo⟩ :=
    slashBurnInBatch_burned haccepted.burn_ok
  obtain ⟨consumed, hspends, hinitial, hall⟩ := spendStage_spends haccepted.spend_ok
  simp only [captureStage_batch, captureStage_undoCreated,
    captureStage_undoSpent] at hcreated hburns hburned hundo
  have hnext := haccepted.next_eq
  subst hnext
  exact ⟨burned, consumed,
    { created := by simp [addStage, hcreated]
      recorded := by simp [addStage, hundo]
      burned_keys := hburned
      consumed_initial := hinitial
      consumed_keys := hall
      spends := hburns.trans hspends
      batch := rfl }⟩

theorem processTransactionUtxos_effect {ctx : BlockContext} {txIndex : Nat}
    {tx : Transaction} {state next : UtxoState}
    (hprocess : processTransactionUtxos ctx txIndex tx state = .ok next) :
    ∃ spent burned consumed,
      TxEffect ctx txIndex tx state next spent burned consumed := by
  obtain ⟨middle, spent, haccepted⟩ := processTransactionUtxos_ok hprocess
  obtain ⟨burned, consumed, heffect⟩ := haccepted.effect
  exact ⟨spent, burned, consumed, heffect⟩

end Doli.Node
