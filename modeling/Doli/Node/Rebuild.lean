import Doli.Node.RolledBack
import Doli.Storage.UtxoSet

/-!
# Rebuilding the UTXO set from blocks

The rebuild replays stored blocks through the direct writes.  It keeps the
rows of the live path as long as the two paths stamp alike, no slash adds
collateral of its own accused, and no oracle price is due.
-/

namespace Doli.Node

open Doli.Core Doli.Lib Doli.Storage

/-! ## The two paths -/

/-- `slash_burn_in_utxo_set` -/
def slashBurnInUtxoSet (ctx : BlockContext) (tx : Transaction) (db : StateDb) :
    StateDb :=
  match slashBurnOwner ctx.utxo ctx.height tx with
  | none => db
  | some owner =>
      (db.getUtxosByPubkey owner).foldl
        (fun db row =>
          if isSlashBurnable row.2.output ctx.height then db.removeUtxo row.1
          else db) db

def rebuildTransaction (ctx : BlockContext) (db : StateDb)
    (item : Transaction × Nat) : StateDb :=
  let reward := isRewardTx item.2 item.1
  let spent := if reward then db else (db.spendTransaction item.1).1
  slashBurnInUtxoSet ctx item.1
    (spent.addTransaction ctx.utxo.prim item.1 ctx.height reward ctx.slot)

def rebuildBlock (ctx : BlockContext) (txs : List Transaction) (db : StateDb) :
    StateDb :=
  txs.zipIdx.foldl (rebuildTransaction ctx) db

def applyChainStep (utxo : UtxoContext) (db : StateDb) (block : ChainBlock) :
    Except ApplyError StateDb :=
  match applyBlockUtxos (block.context utxo) block.txs block.prices db with
  | .error error => .error error
  | .ok (after, _) => .ok after

/-- The live path over a chain. -/
def applyChain (utxo : UtxoContext) (blocks : List ChainBlock) :
    Except ApplyError StateDb :=
  run (applyChainStep utxo) blocks .empty

/-- The rebuild: clear the set, then replay every block. -/
def rebuildChain (utxo : UtxoContext) (blocks : List ChainBlock) (db : StateDb) :
    StateDb :=
  blocks.foldl (fun db block => rebuildBlock (block.context utxo) block.txs db)
    db.clearUtxos

/-- Both paths treat the block alike: it is not a replay, replaces no oracle
price, its outputs are stored as declared or stamped the same way, and no slash
adds collateral of its own accused. -/
structure RebuildsAlike (utxo : UtxoContext) (block : ChainBlock) : Prop where
  mode : block.mode ≠ .replay
  prices : block.prices = []
  stamps : ∀ tx ∈ block.txs, ∀ output ∈ tx.outputs, tx.isEpochReward = false ∧
    directStamp output block.slot = stampOutput output block.slot
  slashes : ∀ tx ∈ block.txs, ∀ output ∈ tx.outputs,
    slashBurnOwner utxo block.height tx =
        some (stampOutput output block.slot).pubkeyHash →
      isSlashBurnable (stampOutput output block.slot) block.height = false

/-! ## One transaction -/

/-- The outpoints that the burn of the rebuild removes. -/
def directBurn (ctx : BlockContext) (tx : Transaction) (db : StateDb) :
    List Outpoint :=
  match slashBurnOwner ctx.utxo ctx.height tx with
  | none => []
  | some owner =>
      ((db.getUtxosByPubkey owner).filter fun row =>
        isSlashBurnable row.2.output ctx.height).map Prod.fst

theorem slashBurnInUtxoSet_eq (ctx : BlockContext) (tx : Transaction)
    (db : StateDb) :
    slashBurnInUtxoSet ctx tx db =
      (directBurn ctx tx db).foldl StateDb.removeUtxo db := by
  have hfold : ∀ (rows : List (Outpoint × UtxoEntry)) (db : StateDb),
      rows.foldl (fun db row =>
        if isSlashBurnable row.2.output ctx.height then db.removeUtxo row.1
        else db) db =
      ((rows.filter fun row => isSlashBurnable row.2.output ctx.height).map
        Prod.fst).foldl StateDb.removeUtxo db := by
    intro rows
    induction rows with
    | nil => exact fun _ => rfl
    | cons row rows ih =>
        intro db
        by_cases hburnable : isSlashBurnable row.2.output ctx.height = true
        · simp [hburnable, ih]
        · simp [hburnable, ih]
  unfold slashBurnInUtxoSet directBurn
  cases slashBurnOwner ctx.utxo ctx.height tx with
  | none => rfl
  | some owner => exact hfold _ db

theorem mem_directBurn_iff {ctx : BlockContext} {tx : Transaction} {db : StateDb}
    (hindexed : db.Indexed) {outpoint : Outpoint} :
    outpoint ∈ directBurn ctx tx db ↔
      ∃ entry, db.getUtxo outpoint = some entry ∧
        slashBurnOwner ctx.utxo ctx.height tx = some entry.output.pubkeyHash ∧
          isSlashBurnable entry.output ctx.height = true := by
  unfold directBurn
  cases howner : slashBurnOwner ctx.utxo ctx.height tx with
  | none => simp
  | some owner =>
      constructor
      · intro hmem
        obtain ⟨⟨key, entry⟩, hrow, rfl⟩ := List.mem_map.mp hmem
        obtain ⟨hlisted, hburnable⟩ := List.mem_filter.mp hrow
        obtain ⟨hget, rfl⟩ := hindexed.mem_getUtxosByPubkey.mp hlisted
        exact ⟨entry, hget, rfl, hburnable⟩
      · rintro ⟨entry, hget, hsame, hburnable⟩
        obtain rfl := Option.some.inj hsame
        exact List.mem_map.mpr ⟨(outpoint, entry), List.mem_filter.mpr
          ⟨hindexed.mem_getUtxosByPubkey.mpr ⟨hget, rfl⟩, hburnable⟩, rfl⟩

theorem rebuildTransaction_eq (ctx : BlockContext) (db : StateDb)
    (tx : Transaction) (txIndex : Nat) :
    ∃ added, added = (directRows (ctx.utxo.prim.txHash tx) ctx.height ctx.slot
        (isRewardTx txIndex tx) tx.outputs 0).foldl
          (fun db row => db.insertUtxo row.1 row.2)
          ((spentInputs tx (isRewardTx txIndex tx)).foldl StateDb.removeUtxo db) ∧
      rebuildTransaction ctx db (tx, txIndex) =
        (directBurn ctx tx added).foldl StateDb.removeUtxo added := by
  refine ⟨_, rfl, ?_⟩
  unfold rebuildTransaction StateDb.addTransaction StateDb.spendTransaction
    spentInputs
  rw [slashBurnInUtxoSet_eq, StateDb.addOutputs_eq]
  cases isRewardTx txIndex tx with
  | true => rfl
  | false => simp only [Bool.false_eq_true, if_false, StateDb.spendDirect_eq]

theorem getUtxo_eq_view {batch : BlockBatch} (hcoherent : batch.Coherent)
    (hrespent : ∀ outpoint ∈ batch.spentInBatch,
      batch.pendingUtxos.lookup outpoint = none) (outpoint : Outpoint) :
    batch.getUtxo outpoint = batch.view.lookup outpoint := by
  rw [hcoherent.lookup, BlockBatch.getUtxo]
  by_cases hspent : outpoint ∈ batch.spentInBatch
  · simp [hspent, hrespent outpoint hspent]
  · cases hpending : batch.pendingUtxos.lookup outpoint with
    | none => simp [hspent, StateDb.getUtxo]
    | some entry => simp [hspent]

theorem insertNew_indexed {db : StateDb} {rows : List (Outpoint × UtxoEntry)}
    (hindexed : db.Indexed) (hnew : NewRows db rows) :
    (rows.foldl (fun db row => db.insertUtxo row.1 row.2) db).Indexed := by
  have hdb : ∀ outpoint entry, db.getUtxo outpoint = some entry →
      (Journal.insertAll rows db.utxo).lookup outpoint = some entry :=
    fun _ _ => hnew.lookup_stored
  exact insertAll_indexed hindexed hdb fun row hrow => hnew.lookup_row hrow

theorem newRows_outputs (txHash : Hash) (height slot : Nat) (isCoinbase isEpochReward : Bool)
    (outputs : List Output) (position : Nat) :
    (BlockBatch.newRows txHash height slot isCoinbase isEpochReward outputs position).map
        (fun row => row.2.output) =
      outputs.map fun output => stampOutput output slot := by
  induction outputs generalizing position with
  | nil => rfl
  | cons output outputs ih => simp [BlockBatch.newRows, ih]

theorem mem_newRows {txHash : Hash} {height slot : Nat}
    {isCoinbase isEpochReward : Bool} {outputs : List Output} {position : Nat}
    {row : Outpoint × UtxoEntry}
    (hrow : row ∈ BlockBatch.newRows txHash height slot isCoinbase isEpochReward
      outputs position) :
    ∃ output ∈ outputs, row.2.output = stampOutput output slot := by
  have houtput := @List.mem_map_of_mem _ _ _ _ (fun row => row.2.output) hrow
  rw [newRows_outputs] at houtput
  obtain ⟨output, hout, hsame⟩ := List.mem_map.mp houtput
  exact ⟨output, hout, hsame.symm⟩

theorem txRows_eq_directRows {ctx : BlockContext} {tx : Transaction}
    {txIndex : Nat} (hstamps : ∀ output ∈ tx.outputs, tx.isEpochReward = false ∧
      directStamp output ctx.slot = stampOutput output ctx.slot) :
    directRows (ctx.utxo.prim.txHash tx) ctx.height ctx.slot
      (isRewardTx txIndex tx) tx.outputs 0 = txRows ctx (tx, txIndex) := by
  rw [StateDb.directRows_eq_newRows fun output hout => (hstamps output hout).2]
  unfold txRows
  cases houtputs : tx.outputs with
  | nil => rfl
  | cons output outputs =>
      have hflag := (hstamps output (by simp [houtputs])).1
      rw [hflag]

section Transaction

variable {utxo : UtxoContext} {block : ChainBlock} {txIndex : Nat}
  {tx : Transaction} {state next : UtxoState} {spent : BlockBatch}
  {burned consumed : List (Outpoint × UtxoEntry)} {start db : StateDb}

/-- One transaction keeps the rebuilt rows equal to those the overlay would
commit. -/
theorem rebuildTransaction_view (halike : RebuildsAlike utxo block)
    (htx : tx ∈ block.txs) (henum : state.batch.Enumerable)
    (hcoherent : state.batch.Coherent)
    (hnew : NewRows db (txRows (block.context utxo) (tx, txIndex)))
    (heffect : TxEffect (block.context utxo) txIndex tx state next spent burned
      consumed)
    (hindexed : db.Indexed) (hview : db.utxo = state.batch.view) :
    (rebuildTransaction (block.context utxo) db (tx, txIndex)).utxo =
        next.batch.view ∧
      (rebuildTransaction (block.context utxo) db (tx, txIndex)).Indexed := by
  obtain ⟨added, hadded, hrebuild⟩ :=
    rebuildTransaction_eq (block.context utxo) db tx txIndex
  rw [txRows_eq_directRows (halike.stamps tx htx)] at hadded
  have hspentIndexed : ((spentInputs tx (isRewardTx txIndex tx)).foldl
      StateDb.removeUtxo db).Indexed := eraseAll_indexed hindexed
  have hspentNew : NewRows
      ((spentInputs tx (isRewardTx txIndex tx)).foldl StateDb.removeUtxo db)
      (txRows (block.context utxo) (tx, txIndex)) := by
    refine ⟨hnew.distinct, fun outpoint hmem => ?_⟩
    rw [StateDb.getUtxo, foldl_removeUtxo_utxo, Journal.lookup_eraseAll]
    have hnone : db.utxo.lookup outpoint = none := hnew.unstored outpoint hmem
    simp [hnone]
  have haddedIndexed : added.Indexed :=
    hadded ▸ insertNew_indexed hspentIndexed hspentNew
  have haddedUtxo : added.utxo =
      Journal.insertAll (txRows (block.context utxo) (tx, txIndex))
        (Journal.eraseAll (spentInputs tx (isRewardTx txIndex tx)) db.utxo) := by
    rw [hadded, foldl_insertUtxo_utxo, foldl_removeUtxo_utxo]
  rw [hrebuild]
  refine ⟨?_, eraseAll_indexed haddedIndexed⟩
  -- the burn of the rebuild never takes a row of the transaction itself
  have hown : ∀ outpoint ∈ directBurn (block.context utxo) tx added,
      outpoint ∉ (txRows (block.context utxo) (tx, txIndex)).map Prod.fst := by
    intro outpoint hburn hmem
    obtain ⟨entry, hget, howner, hburnable⟩ :=
      (mem_directBurn_iff haddedIndexed).mp hburn
    obtain ⟨⟨key, row⟩, hrow, rfl⟩ := List.mem_map.mp hmem
    have hlookup := hspentNew.lookup_row hrow
    rw [StateDb.getUtxo, haddedUtxo, ← foldl_removeUtxo_utxo, hlookup,
      Option.some.injEq] at hget
    subst hget
    obtain ⟨output, hout, hsame⟩ := mem_newRows hrow
    simp only at hsame
    rw [hsame] at howner hburnable
    have hkept := halike.slashes tx htx output hout howner
    rw [show isSlashBurnable (stampOutput output (block.context utxo).slot)
      (block.context utxo).height = false from hkept] at hburnable
    contradiction
  rw [foldl_removeUtxo_utxo, haddedUtxo, Journal.eraseAll_insertAll hown,
    ← Journal.eraseAll_append, heffect.batch_eq, BlockBatch.addRows_view,
    heffect.spends.view, List.map_append, hview]
  congr 1
  refine Journal.eraseAll_congr fun outpoint entry hlookup => ?_
  have hother : outpoint ∉ (txRows (block.context utxo) (tx, txIndex)).map
      Prod.fst := by
    intro hmem
    have hnone := hnew.unstored outpoint hmem
    rw [StateDb.getUtxo, hview, hlookup] at hnone
    contradiction
  have hshown : state.batch.getUtxo outpoint = some entry := by
    rw [getUtxo_eq_view hcoherent henum.respent, hlookup]
  have hburned : outpoint ∈ burned.map Prod.fst ↔
      slashBurnOwner utxo block.height tx = some entry.output.pubkeyHash ∧
        isSlashBurnable entry.output block.height = true := by
    rw [heffect.burned_keys, List.mem_map]
    constructor
    · rintro ⟨row, hrow, rfl⟩
      obtain ⟨howner, hget, hburnable⟩ := (mem_burnableRows_iff henum).mp hrow
      rw [hshown, Option.some.injEq] at hget
      rw [hget]
      exact ⟨howner, hburnable⟩
    · rintro ⟨howner, hburnable⟩
      exact ⟨(outpoint, entry),
        (mem_burnableRows_iff henum).mpr ⟨howner, hshown, hburnable⟩, rfl⟩
  rw [List.mem_append, List.mem_append, heffect.consumed_keys halike.mode, hburned,
    mem_directBurn_iff haddedIndexed]
  by_cases hinput : outpoint ∈ spentInputs tx (isRewardTx txIndex tx)
  · simp [hinput]
  · have hget : added.getUtxo outpoint = some entry := by
      rw [StateDb.getUtxo, haddedUtxo, Journal.lookup_insertAll_of_notMem hother,
        Journal.lookup_eraseAll, if_neg hinput, hview, hlookup]
    simp only [hinput, false_or, or_false, hget, Option.some.injEq, exists_eq_left']
    exact Iff.rfl

end Transaction

/-! ## Blocks and chains -/

section Chain

variable {utxo : UtxoContext} {block : ChainBlock} {state : UtxoState}
  {start db : StateDb}

theorem rebuildBlock_view (halike : RebuildsAlike utxo block)
    (hstart : start.Indexed)
    (hnew : NewRows start (blockRows (block.context utxo) block.txs.zipIdx))
    (hprocess : processTransactions (block.context utxo) block.txs start =
      .ok state)
    (hindexed : db.Indexed) (hsame : db.utxo = start.utxo) :
    (rebuildBlock (block.context utxo) block.txs db).utxo = state.batch.view ∧
      (rebuildBlock (block.context utxo) block.txs db).Indexed := by
  have hinv := run_invariant (fun done state =>
    Journaled (block.context utxo) block.txs start state ∧
      Located (block.context utxo) start done state ∧
      (done.foldl (rebuildTransaction (block.context utxo)) db).utxo =
        state.batch.view ∧
      (done.foldl (rebuildTransaction (block.context utxo)) db).Indexed)
    ⟨journaled_initial _ _ hstart, located_initial _ start, hsame, hindexed⟩
    ?_ hprocess
  · exact hinv.2.2
  · rintro done ⟨tx, txIndex⟩ rest current next hsplit
      ⟨hjournaled, hlocated, hview, hdone⟩ hstep
    obtain ⟨hnext, hnextLocated⟩ := hjournaled.step hlocated hnew hsplit hstep
    obtain ⟨spent, burned, consumed, heffect⟩ := processTransactionUtxos_effect hstep
    have hitem : (tx, txIndex) ∈ block.txs.zipIdx := by simp [hsplit]
    have hitemNew : NewRows
        (done.foldl (rebuildTransaction (block.context utxo)) db)
        (txRows (block.context utxo) (tx, txIndex)) := by
      refine ⟨?_, fun outpoint hmem => ?_⟩
      · have hdistinct := hnew.distinct
        rw [hsplit, blockRows_append, List.map_append] at hdistinct
        have hlater := hdistinct.of_append_right
        simp only [blockRows, List.flatMap_cons, List.map_append] at hlater
        exact hlater.of_append_left
      · obtain ⟨row, hrow, rfl⟩ := List.mem_map.mp hmem
        rw [StateDb.getUtxo, hview]
        exact hjournaled.view_none_of_later hlocated hnew hsplit
          (List.mem_flatMap.mpr ⟨(tx, txIndex), List.mem_cons_self, hrow⟩)
    obtain ⟨hnextView, hnextIndexed⟩ := rebuildTransaction_view halike
      (List.fst_mem_of_mem_zipIdx hitem)
      (hjournaled.enumerable hlocated hstart hnew hsplit)
      hjournaled.tracked.coherent hitemNew heffect hdone hview
    rw [List.foldl_append]
    exact ⟨hnext, hnextLocated, hnextView, hnextIndexed⟩

def chainOutpoints (prim : Primitives) (blocks : List ChainBlock) :
    List Outpoint :=
  blocks.flatMap fun block => block.txs.flatMap (createdOutpoints prim)

/-- What holds of the live store and of the rebuilt one after `done`. -/
structure SameChain (utxo : UtxoContext) (prior : StateDb)
    (done : List ChainBlock) (db : StateDb) : Prop where
  indexed : db.Indexed
  known : ∀ outpoint entry, db.getUtxo outpoint = some entry →
    outpoint ∈ chainOutpoints utxo.prim done
  rebuilt : (rebuildChain utxo done prior).utxo = db.utxo
  rebuiltIndexed : (rebuildChain utxo done prior).Indexed

theorem SameChain.step {prior : StateDb} {done rest : List ChainBlock}
    {next : StateDb} (hsame : SameChain utxo prior done db)
    (halike : RebuildsAlike utxo block)
    (hdistinct : (chainOutpoints utxo.prim (done ++ block :: rest)).Nodup)
    (hstep : applyChainStep utxo db block = .ok next) :
    SameChain utxo prior (done ++ [block]) next := by
  have hkeys : (blockRows (block.context utxo) block.txs.zipIdx).map Prod.fst =
      block.txs.flatMap (createdOutpoints utxo.prim) := blockRows_keys_eq _ _
  simp only [chainOutpoints, List.flatMap_append, List.flatMap_cons] at hdistinct
  obtain ⟨-, hlater, hdisjoint⟩ := List.nodup_append.mp hdistinct
  have hnew : NewRows db (blockRows (block.context utxo) block.txs.zipIdx) := by
    rw [← hkeys] at hlater hdisjoint
    refine ⟨hlater.of_append_left, fun outpoint hmem => ?_⟩
    cases hget : db.getUtxo outpoint with
    | none => rfl
    | some entry =>
        exact absurd rfl (hdisjoint outpoint (hsame.known outpoint entry hget)
          outpoint (List.mem_append_left _ hmem))
  unfold applyChainStep applyBlockUtxos at hstep
  rw [halike.prices] at hstep
  cases hprocess : processTransactions (block.context utxo) block.txs db with
  | error error => simp [hprocess] at hstep
  | ok state =>
      simp only [hprocess, replaceOraclePrices, List.foldl_nil,
        Except.ok.injEq] at hstep
      subst hstep
      obtain ⟨hview, hindexed⟩ := rebuildBlock_view halike hsame.indexed hnew
        hprocess hsame.rebuiltIndexed hsame.rebuilt
      obtain ⟨hjournaled, hlocated⟩ :=
        processTransactions_journaled hsame.indexed hnew hprocess
      have hrebuild : rebuildChain utxo (done ++ [block]) prior =
          rebuildBlock (block.context utxo) block.txs
            (rebuildChain utxo done prior) := by
        simp [rebuildChain]
      refine ⟨hjournaled.indexed, ?_, by rw [hrebuild]; exact hview,
        by rw [hrebuild]; exact hindexed⟩
      intro outpoint entry hget
      rw [StateDb.getUtxo, BlockBatch.commit_utxo,
        hjournaled.tracked.coherent.lookup, hjournaled.tracked.db_eq] at hget
      simp only [chainOutpoints, List.flatMap_append, List.flatMap_cons,
        List.flatMap_nil, List.append_nil, List.mem_append]
      cases hpending : state.batch.pendingUtxos.lookup outpoint with
      | some pending =>
          have hmem := List.mem_map_of_mem (f := Prod.fst)
            (hlocated.pending outpoint pending hpending)
          rw [hkeys] at hmem
          exact .inr hmem
      | none =>
          rw [hpending, Option.none_or] at hget
          split at hget
          · contradiction
          · exact .inl (hsame.known outpoint entry hget)

/-- Over a chain whose blocks both paths treat alike, the rebuild gives the
rows of the live path, whatever stood in the set before. -/
theorem rebuildChain_eq_live {blocks : List ChainBlock} {live : StateDb}
    (hdistinct : (chainOutpoints utxo.prim blocks).Nodup)
    (halike : ∀ block ∈ blocks, RebuildsAlike utxo block)
    (hlive : applyChain utxo blocks = .ok live) (prior : StateDb) :
    (rebuildChain utxo blocks prior).utxo = live.utxo := by
  have hinv := run_invariant (fun done db => SameChain utxo prior done db)
    ⟨StateDb.indexed_empty, by simp [StateDb.getUtxo, StateDb.empty], rfl,
      StateDb.indexed_empty⟩ ?_ hlive
  · exact hinv.rebuilt
  · intro done block rest current next hblocks hsame hstep
    rw [hblocks] at hdistinct
    exact hsame.step (halike block (by simp [hblocks])) hdistinct hstep

end Chain

/-! ## A chain that pays an epoch reward -/

def coinbaseAt (height : Nat) : Transaction :=
  { sampleCoinbase with extraData := leBytes 8 height ++ leBytes 4 height }

def coinbaseBlock (height : Nat) : ChainBlock where
  height := height
  slot := height
  mode := .full
  txs := [coinbaseAt height]
  prices := []

theorem rebuildChain_eq_live_coinbases :
    ∃ live, applyChain sampleUtxoContext [coinbaseBlock 9, coinbaseBlock 10] =
        .ok live ∧
      (rebuildChain sampleUtxoContext [coinbaseBlock 9, coinbaseBlock 10]
        .empty).utxo = live.utxo := by
  have halike : ∀ block ∈ [coinbaseBlock 9, coinbaseBlock 10],
      RebuildsAlike sampleUtxoContext block := by
    intro block hblock
    simp only [List.mem_cons, List.not_mem_nil, or_false] at hblock
    rcases hblock with rfl | rfl <;>
      exact ⟨by decide, rfl, by decide, by decide⟩
  have hok : (applyChain sampleUtxoContext
      [coinbaseBlock 9, coinbaseBlock 10]).isOk = true := by
    decide +kernel
  obtain ⟨live, hlive⟩ := exists_eq_ok hok
  exact ⟨live, hlive, rebuildChain_eq_live (by decide +kernel) halike hlive _⟩

/-- The reward of the epoch that ended, paid from the pool. -/
def epochReward : Transaction where
  version := 1
  txType := .epochReward
  inputs := [sampleInput (.ofOutput (samplePrimitives.txHash (coinbaseAt 9)) 0)]
  outputs := [sampleOutput 1 ⟨6⟩]
  extraData := leBytes 8 10

def rewardOutpoint : Outpoint :=
  .ofOutput (samplePrimitives.txHash epochReward) 0

def rewardBlock : ChainBlock :=
  { coinbaseBlock 10 with txs := [coinbaseAt 10, epochReward] }

/-- The live path flags the reward output; the rebuild never does. -/
theorem rebuildChain_drops_reward_flag :
    ∃ live, applyChain sampleUtxoContext [coinbaseBlock 9, rewardBlock] =
        .ok live ∧
      (live.utxo.lookup rewardOutpoint).map UtxoEntry.isEpochReward = some true ∧
      ((rebuildChain sampleUtxoContext [coinbaseBlock 9, rewardBlock]
        .empty).utxo.lookup rewardOutpoint).map UtxoEntry.isEpochReward =
          some false ∧
      (rebuildChain sampleUtxoContext [coinbaseBlock 9, rewardBlock]
        .empty).utxo ≠ live.utxo := by
  have hok : (applyChain sampleUtxoContext
      [coinbaseBlock 9, rewardBlock]).isOk = true := by
    decide +kernel
  obtain ⟨live, hlive⟩ := exists_eq_ok hok
  have hrebuilt : ((rebuildChain sampleUtxoContext
      [coinbaseBlock 9, rewardBlock] .empty).utxo.lookup rewardOutpoint).map
        UtxoEntry.isEpochReward = some false := by
    decide +kernel
  have hflag : (applyChain sampleUtxoContext
      [coinbaseBlock 9, rewardBlock]).toOption.bind (fun live =>
        (live.utxo.lookup rewardOutpoint).map UtxoEntry.isEpochReward) =
          some true := by
    decide +kernel
  simp only [hlive, Except.toOption, Option.bind_some] at hflag
  refine ⟨live, hlive, hflag, hrebuilt, fun hsame => ?_⟩
  simp [hsame, hflag] at hrebuilt

end Doli.Node
