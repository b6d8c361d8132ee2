import Doli.Node.NftIdentity
import Doli.Validation.Prepass
import Doli.Validation.ShareChange

/-!
# The share ledger

What an overlay holds of every pool.  Its rows are outputs of the transactions applied so
far, its pools and share outputs are backed, and the unique-id index lists the pools.  An
accepted transaction keeps all three.
-/

namespace Doli.Node

open Doli.Core Doli.Lib Doli.Storage
open Doli.Validation (SpendingContext Founds ChangesPools lpIssuance issuer_stampOutput
  change_stampOutput consumedOutputs declaredPool validateTransactionSkipRegistrationVdf)

def entryShares : Issuance Hash UtxoEntry :=
  lpIssuance.comap UtxoEntry.output

/-! ## Where rows come from -/

/-- An output that one of the transactions declared at the outpoint, as a block stores it. -/
def Born (prim : Primitives) (txs : List Transaction) (outpoint : Outpoint) (output : Output) :
    Prop :=
  ∃ tx ∈ txs, ∃ position declared slot, tx.outputs[position]? = some declared ∧
    outpoint = .ofOutput (prim.txHash tx) position ∧ output = stampOutput declared slot

/-- BLAKE3 tells transactions apart by their ids, and no pool gets the address of the
reward pool for its id. -/
structure HashesApart (prim : Primitives) (txs : List Transaction) : Prop where
  ids : ∀ first ∈ txs, ∀ second ∈ txs, prim.txHash first = prim.txHash second →
    first.outputs = second.outputs
  pools : ∀ tx ∈ txs, ∀ pool, declaredPool tx = some pool →
    Output.computePoolId prim ⟨0⟩ pool.assetBId pool.feeBps ≠ rewardPoolPubkeyHash prim

theorem HashesApart.mono {prim : Primitives} {txs others : List Transaction}
    (hapart : HashesApart prim others) (hsubset : txs ⊆ others) : HashesApart prim txs where
  ids first hfirst second hsecond := hapart.ids first (hsubset hfirst) second (hsubset hsecond)
  pools tx htx := hapart.pools tx (hsubset htx)

section Born

variable {prim : Primitives} {txs others : List Transaction} {outpoint : Outpoint}
  {output other : Output}

theorem Born.mono (hborn : Born prim txs outpoint output) (hsubset : txs ⊆ others) :
    Born prim others outpoint output := by
  obtain ⟨tx, htx, hrest⟩ := hborn
  exact ⟨tx, hsubset htx, hrest⟩

theorem Born.same (happart : HashesApart prim txs)
    (hfits : ∀ tx ∈ txs, tx.outputs.length ≤ 2 ^ 32) (hborn : Born prim txs outpoint output)
    (hother : Born prim txs outpoint other) :
    ∃ declared slot slot', output = stampOutput declared slot ∧
      other = stampOutput declared slot' := by
  obtain ⟨tx, htx, position, declared, slot, hdeclared, hat, rfl⟩ := hborn
  obtain ⟨tx', htx', position', declared', slot', hdeclared', hat', rfl⟩ := hother
  rw [hat] at hat'
  obtain ⟨hhash, hposition⟩ := Outpoint.mk.inj hat'
  have hsame := happart.ids tx htx tx' htx' hhash
  have hlt := (List.getElem?_eq_some_iff.mp hdeclared).1
  have hlt' := (List.getElem?_eq_some_iff.mp hdeclared').1
  have hfit := hfits tx htx
  have hfit' := hfits tx' htx'
  have hindex : position = position' := by omega
  rw [hsame, hindex, hdeclared'] at hdeclared
  cases hdeclared
  exact ⟨declared, slot, slot', rfl, rfl⟩

theorem Born.issuer_eq (happart : HashesApart prim txs)
    (hfits : ∀ tx ∈ txs, tx.outputs.length ≤ 2 ^ 32) (hborn : Born prim txs outpoint output)
    (hother : Born prim txs outpoint other) :
    lpIssuance.issuer output = lpIssuance.issuer other := by
  obtain ⟨declared, slot, slot', rfl, rfl⟩ := hborn.same happart hfits hother
  rw [issuer_stampOutput, issuer_stampOutput]

theorem Born.outputType_eq (happart : HashesApart prim txs)
    (hfits : ∀ tx ∈ txs, tx.outputs.length ≤ 2 ^ 32) (hborn : Born prim txs outpoint output)
    (hother : Born prim txs outpoint other) : output.outputType = other.outputType := by
  obtain ⟨declared, slot, slot', rfl, rfl⟩ := hborn.same happart hfits hother
  rw [outputType_stampOutput, outputType_stampOutput]

theorem Born.owner {poolId : Hash} {count : Nat} (hborn : Born prim txs outpoint output)
    (hissues : lpIssuance.issuer output = some (poolId, count)) : output.pubkeyHash = poolId := by
  obtain ⟨tx, -, position, declared, slot, -, -, rfl⟩ := hborn
  rw [issuer_stampOutput] at hissues
  obtain ⟨record, hrecord, hsame⟩ := Option.map_eq_some_iff.mp hissues
  cases hsame
  have htype := Output.outputType_of_poolMetadata hrecord
  simp [stampOutput, htype, hrecord, stampPool]

end Born

theorem outputType_of_issuer {output : Output} {issued : Hash × Nat}
    (hissues : lpIssuance.issuer output = some issued) : output.outputType = .pool := by
  obtain ⟨record, hrecord, -⟩ := Option.map_eq_some_iff.mp hissues
  exact Output.outputType_of_poolMetadata hrecord

theorem uniqueIdOf_eq_pool {output : Output} {poolId : Hash} :
    uniqueIdOf output = some (.pool, poolId) ↔
      ∃ count, lpIssuance.issuer output = some (poolId, count) := by
  constructor
  · intro huid
    unfold uniqueIdOf at huid
    split at huid
    case h_2 =>
      obtain ⟨record, hrecord, hsame⟩ := Option.map_eq_some_iff.mp huid
      cases hsame
      exact ⟨record.totalLpShares, by simp [lpIssuance, hrecord]⟩
    case h_1 => simp at huid
    case h_3 => simp at huid
    case h_4 => contradiction
  · rintro ⟨count, hissues⟩
    have htype := outputType_of_issuer hissues
    obtain ⟨record, hrecord, hsame⟩ := Option.map_eq_some_iff.mp hissues
    cases hsame
    simp [uniqueIdOf, htype, hrecord]

/-! ## Overlay facts -/

theorem mem_commitSet_deleteUid {rows : List (Outpoint × UtxoEntry)} {keys : Finset UidKey}
    {uid : UidKey} :
    uid ∈ commitSet (rows.flatMap fun row => BlockBatch.deleteUid row.2) keys ↔
      uid ∈ keys ∧ ∀ row ∈ rows, uniqueIdOf row.2.output ≠ some uid := by
  induction rows generalizing keys with
  | nil => simp [commitSet]
  | cons row rows ih =>
      have hsplit : commitSet ((row :: rows).flatMap fun row => BlockBatch.deleteUid row.2) keys =
          commitSet (rows.flatMap fun row => BlockBatch.deleteUid row.2)
            (commitSet (BlockBatch.deleteUid row.2) keys) := by
        simp [commitSet]
      have hhead : uid ∈ commitSet (BlockBatch.deleteUid row.2) keys ↔
          uid ∈ keys ∧ uniqueIdOf row.2.output ≠ some uid := by
        cases hcarried : uniqueIdOf row.2.output with
        | none => simp [BlockBatch.deleteUid, hcarried, commitSet]
        | some carried =>
            simp only [BlockBatch.deleteUid, hcarried, commitSet, Option.toList_some,
              List.map_cons, List.map_nil, List.foldl_cons, List.foldl_nil, WriteOp.applySet,
              Finset.mem_erase, ne_eq, Option.some.injEq]
            rw [and_comm, eq_comm]
      rw [hsplit, ih, hhead, List.forall_mem_cons, and_assoc]

theorem mem_uidView_of_spends {before after : BlockBatch}
    {rows : List (Outpoint × UtxoEntry)} (hspends : BlockBatch.Spends before after rows)
    {uid : UidKey} :
    uid ∈ after.uidView ↔
      uid ∈ before.uidView ∧ ∀ row ∈ rows, uniqueIdOf row.2.output ≠ some uid := by
  have hops : after.uniqueIdOps =
      before.uniqueIdOps ++ rows.flatMap fun row => BlockBatch.deleteUid row.2 := by
    have huids := congrArg BlockBatch.UidState.ops hspends.uids
    rw [BlockBatch.UidState.writeAll_ops] at huids
    exact huids
  have hview : after.uidView =
      commitSet (rows.flatMap fun row => BlockBatch.deleteUid row.2) before.uidView := by
    rw [BlockBatch.uidView, hops, hspends.db, commitSet, List.foldl_append]
    rfl
  rw [hview]
  exact mem_commitSet_deleteUid

theorem born_of_newRows {prim : Primitives} {tx : Transaction} {height slot : Nat}
    {isCoinbase isEpochReward : Bool} {outputs : List Output} {position : Nat}
    (htail : outputs = tx.outputs.drop position) {row : Outpoint × UtxoEntry}
    (hrow : row ∈ BlockBatch.newRows (prim.txHash tx) height slot isCoinbase isEpochReward
      outputs position) : Born prim [tx] row.1 row.2.output := by
  induction outputs generalizing position with
  | nil => simp [BlockBatch.newRows] at hrow
  | cons output outputs ih =>
      rcases List.mem_cons.mp hrow with rfl | hrow
      · refine ⟨tx, List.mem_singleton_self tx, position, output, slot, ?_, rfl, rfl⟩
        have hhead := congrArg List.head? htail
        rw [List.head?_drop] at hhead
        exact hhead.symm
      · refine ih ?_ hrow
        have hrest := congrArg List.tail htail
        rwa [List.tail_drop] at hrest

/-! ## The ledger -/

/-- What holds of an overlay once the transactions are applied. -/
structure ShareLedger (prim : Primitives) (applied : List Transaction) (batch : BlockBatch) :
    Prop where
  coherent : BlockBatch.Coherent batch
  fits : ∀ tx ∈ applied, tx.outputs.length ≤ 2 ^ 32
  born : ∀ outpoint entry, batch.pendingUtxos.lookup outpoint = some entry ∨
    batch.db.getUtxo outpoint = some entry → Born prim applied outpoint entry.output
  backed : entryShares.Backed batch.view
  listed : ∀ outpoint poolId count,
    entryShares.issuerAt batch.view outpoint = some (poolId, count) →
      (.pool, poolId) ∈ batch.uidView
  apart : ∀ outpoint poolId count,
    entryShares.issuerAt batch.view outpoint = some (poolId, count) →
      poolId ≠ rewardPoolPubkeyHash prim

theorem ShareLedger.initial (prim : Primitives) :
    ShareLedger prim [] StateDb.empty.beginBatch where
  coherent := BlockBatch.coherent_beginBatch _
  fits := by simp
  born outpoint entry hrow := by
    simp [StateDb.beginBatch, StateDb.empty, StateDb.getUtxo] at hrow
  backed := Issuance.backed_empty
  listed outpoint poolId count hissuer := by
    simp [BlockBatch.view, StateDb.beginBatch, StateDb.empty, Issuance.issuerAt] at hissuer
  apart outpoint poolId count hissuer := by
    simp [BlockBatch.view, StateDb.beginBatch, StateDb.empty, Issuance.issuerAt] at hissuer

section Ledger

variable {prim : Primitives} {applied : List Transaction} {batch : BlockBatch}
  {outpoint : Outpoint} {entry : UtxoEntry}

theorem ShareLedger.born_view (hledger : ShareLedger prim applied batch)
    (hlookup : batch.view.lookup outpoint = some entry) :
    Born prim applied outpoint entry.output := by
  rw [hledger.coherent.lookup, Option.or_eq_some_iff] at hlookup
  rcases hlookup with hpending | ⟨-, hstored⟩
  · exact hledger.born outpoint entry (.inl hpending)
  · split at hstored
    case isTrue => contradiction
    case isFalse => exact hledger.born outpoint entry (.inr hstored)

theorem ShareLedger.issuer_of_reached (hledger : ShareLedger prim applied batch)
    (happart : HashesApart prim applied)
    (hreached : batch.pendingUtxos.lookup outpoint = some entry ∨
      batch.db.getUtxo outpoint = some entry)
    {found : UtxoEntry} (hlookup : batch.view.lookup outpoint = some found) :
    lpIssuance.issuer entry.output = lpIssuance.issuer found.output :=
  (hledger.born outpoint entry hreached).issuer_eq happart hledger.fits
    (hledger.born_view hlookup)

theorem ShareLedger.commit (hledger : ShareLedger prim applied batch) :
    ShareLedger prim applied batch.commit.beginBatch where
  coherent := BlockBatch.coherent_beginBatch _
  fits := hledger.fits
  born outpoint entry hrow := by
    rcases hrow with hpending | hstored
    · simp [StateDb.beginBatch] at hpending
    · exact hledger.born_view hstored
  backed := hledger.backed
  listed := hledger.listed
  apart := hledger.apart

end Ledger

/-! ## One transaction -/

/-- A transaction of a block that the node accepts with every gate open. -/
structure LedgerStep (ctx : SpendingContext) (block : BlockContext) (txIndex : Nat)
    (tx : Transaction) (state next : UtxoState) : Prop where
  opened : ctx.GatesOpen
  utxo : block.utxo = ctx.utxo
  height : block.height = ctx.base.currentHeight
  live : block.mode ≠ .replay
  structural : validateTransactionSkipRegistrationVdf ctx.rules.withPools ctx.base tx = .ok ()
  distinct : (tx.inputs.map inputOutpoint).Nodup
  fits : tx.outputs.length ≤ 2 ^ 32
  process : processTransactionUtxos block txIndex tx state = .ok next

section Step

variable {ctx : SpendingContext} {block : BlockContext} {txIndex : Nat} {tx : Transaction}
  {state next : UtxoState} {applied : List Transaction}

theorem LedgerStep.prim (hstep : LedgerStep ctx block txIndex tx state next) :
    block.utxo.prim = ctx.base.crypto.primitives := by
  rw [hstep.utxo]
  rfl

theorem LedgerStep.validated (hstep : LedgerStep ctx block txIndex tx state next)
    (hreward : isRewardTx txIndex tx = false) :
    ctx.validateTransactionWithUtxos tx state.batch.getUtxo = .ok () := by
  obtain ⟨burned, spent, haccepted⟩ := processTransactionUtxos_ok hstep.process
  have hvalidated := haccepted.validate_ok
  simp only [validateStage, hreward, Bool.false_eq_true, if_false, hstep.live, hstep.utxo,
    hstep.height] at hvalidated
  split at hvalidated
  case h_1 hok => exact hok
  case h_2 => contradiction

theorem LedgerStep.shown (hstep : LedgerStep ctx block txIndex tx state next)
    (hcoherent : BlockBatch.Coherent state.batch) {outpoint : Outpoint}
    (hinput : outpoint ∈ spentInputs tx (isRewardTx txIndex tx)) :
    ∃ entry, state.batch.getUtxo outpoint = some entry ∧
      state.batch.view.lookup outpoint = some entry := by
  obtain ⟨entry, hentry⟩ :=
    Option.isSome_iff_exists.mp (getUtxo_of_accepted hstep.live hstep.process hinput)
  exact ⟨entry, hentry, hcoherent.lookup_of_getUtxo hentry⟩

/-- The rows that a transaction consumes. -/
def consumedRows (batch : BlockBatch) (tx : Transaction) (txIndex : Nat) : List UtxoEntry :=
  (spentInputs tx (isRewardTx txIndex tx)).filterMap batch.view.lookup

theorem LedgerStep.consumedRows_eq (hstep : LedgerStep ctx block txIndex tx state next)
    (hcoherent : BlockBatch.Coherent state.batch) (hreward : isRewardTx txIndex tx = false) :
    (consumedRows state.batch tx txIndex).map UtxoEntry.output =
      consumedOutputs tx state.batch.getUtxo := by
  have hshown : ∀ input ∈ tx.inputs, (state.batch.view.lookup (inputOutpoint input)).map
      UtxoEntry.output = (state.batch.getUtxo (inputOutpoint input)).map UtxoEntry.output := by
    intro input hinput
    obtain ⟨entry, hentry, hview⟩ := hstep.shown hcoherent
      (mem_spentInputs.mpr ⟨hreward, List.mem_map_of_mem hinput⟩)
    rw [hentry, hview]
  rw [consumedRows, spentInputs, hreward, if_neg Bool.false_ne_true, List.filterMap_map,
    List.map_filterMap]
  exact List.filterMap_congr hshown

theorem LedgerStep.changesPools (hstep : LedgerStep ctx block txIndex tx state next)
    (hledger : ShareLedger ctx.base.crypto.primitives applied state.batch) :
    ∃ old new, ChangesPools ctx.base.crypto.primitives tx
      ((consumedRows state.batch tx txIndex).map UtxoEntry.output) old new := by
  cases hreward : isRewardTx txIndex tx with
  | true =>
      have hkind : tx.isCoinbase = true ∨ tx.isEpochReward = true := by
        simp only [isRewardTx, Transaction.isRewardMinting, Bool.and_eq_true, Bool.or_eq_true,
          Transaction.isEpochRewardCoinbase] at hreward
        exact hreward.2.imp id And.left
      have hnormal := Validation.normal_of_reward hstep.opened hkind hstep.structural
      refine ⟨none, none, .still (Validation.change_of_normal ?_ hnormal)⟩
      simp [consumedRows, spentInputs, hreward]
  | false =>
      rw [hstep.consumedRows_eq hledger.coherent hreward]
      apply Validation.changesPools_of_accepted hstep.opened (hstep.validated hreward)
      intro input hinput entry hentry hpool
      obtain ⟨record, hrecord⟩ := Option.isSome_iff_exists.mp hpool
      have hview := hledger.coherent.lookup_of_getUtxo hentry
      have hissues : lpIssuance.issuer entry.output =
          some (record.poolId, record.totalLpShares) := by
        simp [lpIssuance, hrecord]
      rw [(hledger.born_view hview).owner hissues]
      exact hledger.apart (inputOutpoint input) record.poolId record.totalLpShares
        (Issuance.issuerAt_eq_some.mpr ⟨entry, hview, hissues⟩)

/-! ### What every transaction keeps -/

theorem TxEffect.db_eq {spent : BlockBatch} {burned consumed : List (Outpoint × UtxoEntry)}
    (heffect : TxEffect block txIndex tx state next spent burned consumed) :
    next.batch.db = state.batch.db := by
  rw [heffect.batch_eq, BlockBatch.addRows_db, heffect.spends.db]

theorem LedgerStep.born (hstep : LedgerStep ctx block txIndex tx state next)
    (hledger : ShareLedger ctx.base.crypto.primitives applied state.batch) :
    ∀ outpoint entry, next.batch.pendingUtxos.lookup outpoint = some entry ∨
      next.batch.db.getUtxo outpoint = some entry →
        Born ctx.base.crypto.primitives (applied ++ [tx]) outpoint entry.output := by
  obtain ⟨spent, burned, consumed, heffect⟩ := processTransactionUtxos_effect hstep.process
  have hearlier : ∀ outpoint entry, state.batch.pendingUtxos.lookup outpoint = some entry ∨
      state.batch.db.getUtxo outpoint = some entry →
        Born ctx.base.crypto.primitives (applied ++ [tx]) outpoint entry.output :=
    fun outpoint entry hrow => (hledger.born outpoint entry hrow).mono (by simp)
  rintro outpoint entry (hpending | hstored)
  · rcases heffect.pending_mem hpending with hrow | hold
    · rw [txRows, hstep.prim] at hrow
      exact (born_of_newRows (List.drop_zero).symm hrow).mono (by simp)
    · exact hearlier outpoint entry (.inl hold)
  · rw [heffect.db_eq] at hstored
    exact hearlier outpoint entry (.inr hstored)

/-- What the step has to add: the claims stay backed and the pools listed. -/
structure PoolsKept (prim : Primitives) (batch : BlockBatch) : Prop where
  backed : entryShares.Backed batch.view
  listed : ∀ outpoint poolId count,
    entryShares.issuerAt batch.view outpoint = some (poolId, count) →
      (.pool, poolId) ∈ batch.uidView ∧ poolId ≠ rewardPoolPubkeyHash prim

theorem LedgerStep.ledger (hstep : LedgerStep ctx block txIndex tx state next)
    (hledger : ShareLedger ctx.base.crypto.primitives applied state.batch)
    (hkept : PoolsKept ctx.base.crypto.primitives next.batch) :
    ShareLedger ctx.base.crypto.primitives (applied ++ [tx]) next.batch := by
  obtain ⟨spent, burned, consumed, heffect⟩ := processTransactionUtxos_effect hstep.process
  constructor
  case coherent =>
    rw [heffect.batch_eq]
    exact (heffect.spends.coherent hledger.coherent).addRows
  case fits =>
    intro other hother
    rcases List.mem_append.mp hother with hearlier | hlast
    · exact hledger.fits other hearlier
    · rw [List.mem_singleton.mp hlast]
      exact hstep.fits
  case born => exact hstep.born hledger
  case backed => exact hkept.backed
  case listed =>
    intro outpoint poolId count hissuer
    exact (hkept.listed outpoint poolId count hissuer).1
  case apart =>
    intro outpoint poolId count hissuer
    exact (hkept.listed outpoint poolId count hissuer).2

/-! ### Slashes -/

theorem LedgerStep.slash_moves_nothing (hstep : LedgerStep ctx block txIndex tx state next)
    (htype : tx.txType = .slashProducer) : tx.inputs = [] ∧ tx.outputs = [] := by
  have hstructure := hstep.structural
  simp only [validateTransactionSkipRegistrationVdf, htype, bind_eq_ok, exists_unit] at hstructure
  obtain ⟨data, hdata⟩ := Validation.map_eq_ok.mp hstructure.2.2
  have hslash := Validation.validateSlash_eq_ok.mp hdata
  exact ⟨hslash.1, hslash.2.1⟩

theorem burnableRows_of_ne (block : BlockContext) (batch : BlockBatch)
    (htype : tx.txType ≠ .slashProducer) : burnableRows block tx batch = [] := by
  simp [burnableRows, slashBurnOwner, htype]

theorem TxEffect.burned_not_pool {prim : Primitives} {spent : BlockBatch}
    {burned consumed : List (Outpoint × UtxoEntry)}
    (heffect : TxEffect block txIndex tx state next spent burned consumed)
    (hledger : ShareLedger prim applied state.batch) (happart : HashesApart prim applied)
    {row : Outpoint × UtxoEntry} (hrow : row ∈ burned) {output : Output}
    (hborn : Born prim applied row.1 output) : lpIssuance.issuer output = none := by
  have hkey : row.1 ∈ (burnableRows block tx state.batch).map Prod.fst := by
    rw [← heffect.burned_keys]
    exact List.mem_map_of_mem hrow
  obtain ⟨listed, hlisted, hsame⟩ := List.mem_map.mp hkey
  have hother := hledger.born listed.1 listed.2 (mem_burnableRows hlisted).symm
  rw [hsame] at hother
  have htype := hborn.outputType_eq happart hledger.fits hother
  have hburnable := isSlashBurnable_of_mem hlisted
  apply Validation.issuer_of_ne
  intro hpool
  rw [hpool] at htype
  simp [isSlashBurnable, ← htype] at hburnable

theorem LedgerStep.slash (hstep : LedgerStep ctx block txIndex tx state next)
    (hledger : ShareLedger ctx.base.crypto.primitives applied state.batch)
    (happart : HashesApart ctx.base.crypto.primitives applied)
    (htype : tx.txType = .slashProducer) :
    PoolsKept ctx.base.crypto.primitives next.batch := by
  obtain ⟨hinputs, houtputs⟩ := hstep.slash_moves_nothing htype
  obtain ⟨spent, burned, consumed, heffect⟩ := processTransactionUtxos_effect hstep.process
  have hconsumed : consumed = [] := by
    have hkeys := heffect.consumed_keys hstep.live
    simpa [spentInputs, hinputs] using hkeys
  have hbatch : next.batch = spent := by
    rw [heffect.batch_eq]
    simp [txRows, houtputs, BlockBatch.newRows, BlockBatch.addRows]
  have hview := heffect.spends.view
  rw [hconsumed, List.append_nil, ← hbatch] at hview
  have hnone : ∀ outpoint ∈ burned.map Prod.fst,
      entryShares.issuerAt state.batch.view outpoint = none := by
    intro outpoint hmem
    obtain ⟨row, hrow, rfl⟩ := List.mem_map.mp hmem
    rw [Option.eq_none_iff_forall_ne_some]
    intro issued hissuer
    obtain ⟨entry, hlookup, hissues⟩ := Issuance.issuerAt_eq_some.mp hissuer
    have hnot := heffect.burned_not_pool hledger happart hrow (hledger.born_view hlookup)
    exact absurd (hissues.symm.trans hnot) (by simp)
  constructor
  case backed =>
    rw [hview]
    exact hledger.backed.eraseAll hnone
  case listed =>
    intro outpoint poolId count hissuer
    rw [hview, Issuance.issuerAt_eraseAll] at hissuer
    split at hissuer
    case isTrue => contradiction
    case isFalse =>
      refine ⟨?_, hledger.apart outpoint poolId count hissuer⟩
      rw [hbatch, mem_uidView_of_spends heffect.spends]
      refine ⟨hledger.listed outpoint poolId count hissuer, ?_⟩
      intro row hrow huid
      rw [hconsumed, List.append_nil] at hrow
      obtain ⟨found, hissues⟩ := uniqueIdOf_eq_pool.mp huid
      have hreached := heffect.spends.entries row (List.mem_append_left _ hrow)
      have hnot := heffect.burned_not_pool hledger happart hrow
        (hledger.born row.1 row.2 hreached)
      exact absurd (hissues.symm.trans hnot) (by simp)

/-! ### The other types -/

theorem nodup_createdOutpoints (prim : Primitives) (hfits : tx.outputs.length ≤ 2 ^ 32) :
    (createdOutpoints prim tx).Nodup := by
  refine List.Nodup.map_on ?_ List.nodup_range
  intro first hfirst second hsecond hsame
  rw [List.mem_range] at hfirst hsecond
  have hindex := (Outpoint.mk.inj hsame).2
  omega

theorem LedgerStep.view_eq (hstep : LedgerStep ctx block txIndex tx state next)
    (htype : tx.txType ≠ .slashProducer) {spent : BlockBatch}
    {burned consumed : List (Outpoint × UtxoEntry)}
    (heffect : TxEffect block txIndex tx state next spent burned consumed) :
    burned = [] ∧ next.batch.view = Journal.insertAll (txRows block (tx, txIndex))
      (Journal.eraseAll (spentInputs tx (isRewardTx txIndex tx)) state.batch.view) := by
  have hburned : burned = [] := by
    have hkeys := heffect.burned_keys
    rw [burnableRows_of_ne block state.batch htype] at hkeys
    simpa using hkeys
  refine ⟨hburned, ?_⟩
  rw [heffect.batch_eq, BlockBatch.addRows_view, heffect.spends.view, hburned, List.nil_append,
    heffect.consumed_keys hstep.live]

theorem LedgerStep.founds_new (hstep : LedgerStep ctx block txIndex tx state next)
    (hledger : ShareLedger ctx.base.crypto.primitives applied state.batch) {poolId : Hash}
    (hfounds : Founds ctx.base.crypto.primitives tx poolId) (outpoint : Outpoint)
    (found : Nat) : entryShares.issuerAt state.batch.view outpoint ≠ some (poolId, found) := by
  intro hissuer
  obtain ⟨htype, pool, hdeclared, hid, -⟩ := hfounds
  obtain ⟨burned, spent, haccepted⟩ := processTransactionUtxos_ok hstep.process
  have hburned : burned.batch = state.batch := by
    have hburn := haccepted.burn_ok
    have howner : slashBurnOwner block.utxo block.height tx = none := by
      simp [slashBurnOwner, htype]
    rw [slashBurnInBatch, howner] at hburn
    cases hburn
    exact captureStage_batch tx _ state
  have hgated : (.pool, poolId) ∈ tx.outputs.filterMap (mintedId tx.txType) := by
    obtain ⟨output, houtput, hrecord⟩ := Option.bind_eq_some_iff.mp hdeclared
    refine List.mem_filterMap.mpr ⟨output, List.mem_of_getElem? houtput, ?_⟩
    simp [mintedId, Output.outputType_of_poolMetadata hrecord, htype, hrecord, hid]
  have hfree := checkDuplicateIds_ok_iff.mp haccepted.unique_ok _ hgated
  rw [hburned] at hfree
  have hlisted := (hledger.coherent.uniqueId _).mpr
    (hledger.listed outpoint poolId found hissuer)
  rw [hfree] at hlisted
  contradiction

theorem map_lookup_filterMap {column : UtxoColumn} {keys : List Outpoint}
    (hshown : ∀ key ∈ keys, ∃ entry, column.lookup key = some entry) :
    keys.map column.lookup = (keys.filterMap column.lookup).map some := by
  induction keys with
  | nil => rfl
  | cons key keys ih =>
      obtain ⟨entry, hentry⟩ := hshown key List.mem_cons_self
      have hrest := ih fun other hother => hshown other (List.mem_cons_of_mem _ hother)
      rw [List.map_cons, List.filterMap_cons, hentry, hrest]
      rfl

theorem LedgerStep.applies (hstep : LedgerStep ctx block txIndex tx state next)
    (hledger : ShareLedger ctx.base.crypto.primitives applied state.batch)
    (happart : HashesApart ctx.base.crypto.primitives (applied ++ [tx])) {old new}
    (hchanges : ChangesPools ctx.base.crypto.primitives tx
      ((consumedRows state.batch tx txIndex).map UtxoEntry.output) old new) :
    Issuance.Applies entryShares state.batch.view (spentInputs tx (isRewardTx txIndex tx))
      (txRows block (tx, txIndex)) (consumedRows state.batch tx txIndex)
      ((txRows block (tx, txIndex)).map Prod.snd) old new := by
  have hfits : ∀ other ∈ applied ++ [tx], other.outputs.length ≤ 2 ^ 32 := by
    intro other hother
    rcases List.mem_append.mp hother with hearlier | hlast
    · exact hledger.fits other hearlier
    · rw [List.mem_singleton.mp hlast]
      exact hstep.fits
  constructor
  case change =>
    apply Issuance.Change.comap
    rw [List.map_map]
    have hstored := newRows_outputs (block.utxo.prim.txHash tx) block.height block.slot
      (isRewardTx txIndex tx) tx.isEpochReward tx.outputs 0
    have hchange := change_stampOutput hchanges.change block.slot
    rw [← hstored] at hchange
    exact hchange
  case distinct =>
    unfold spentInputs
    split
    · exact List.nodup_nil
    · exact hstep.distinct
  case consumed =>
    apply map_lookup_filterMap
    intro outpoint hinput
    obtain ⟨entry, -, hview⟩ := hstep.shown hledger.coherent hinput
    exact ⟨entry, hview⟩
  case created => rfl
  case places =>
    rw [txRows_keys]
    exact nodup_createdOutpoints _ hstep.fits
  case replaced =>
    intro row hrow issued hissuer
    right
    obtain ⟨entry, hlookup, hissues⟩ := Issuance.issuerAt_eq_some.mp hissuer
    rw [txRows, hstep.prim] at hrow
    have hnew : Born ctx.base.crypto.primitives (applied ++ [tx]) row.1 row.2.output :=
      (born_of_newRows (List.drop_zero).symm hrow).mono (by simp)
    have hold := (hledger.born_view hlookup).mono (List.subset_append_left applied [tx])
    exact (hnew.issuer_eq happart hfits hold).trans hissues
  case founds =>
    intro hnone poolId count hnew outpoint found
    exact hstep.founds_new hledger (hchanges.founds hnone poolId count hnew) outpoint found

theorem LedgerStep.moves (hstep : LedgerStep ctx block txIndex tx state next)
    (hledger : ShareLedger ctx.base.crypto.primitives applied state.batch)
    (happart : HashesApart ctx.base.crypto.primitives (applied ++ [tx]))
    (htype : tx.txType ≠ .slashProducer) :
    PoolsKept ctx.base.crypto.primitives next.batch := by
  obtain ⟨old, new, hchanges⟩ := hstep.changesPools hledger
  have happlies := hstep.applies hledger happart hchanges
  obtain ⟨spent, burned, consumed, heffect⟩ := processTransactionUtxos_effect hstep.process
  obtain ⟨hburned, hview⟩ := hstep.view_eq htype heffect
  have hbefore := happart.mono (List.subset_append_left applied [tx])
  constructor
  case backed =>
    rw [hview]
    exact hledger.backed.change happlies
  case listed =>
    intro outpoint poolId count hissuer
    rw [hview] at hissuer
    rw [heffect.batch_eq, mem_uidView_addRows, mem_uidView_of_spends heffect.spends]
    rcases (happlies.issuerAt_after hledger.backed).mp hissuer with
      ⟨entry, hrow, hissues, hnew⟩ | ⟨hkept, hold⟩
    · refine ⟨.inl ⟨(outpoint, entry), hrow, uniqueIdOf_eq_pool.mpr ⟨count, hissues⟩⟩, ?_⟩
      cases holdPool : old with
      | none =>
          obtain ⟨-, pool, hdeclared, -, hderived⟩ := hchanges.founds holdPool poolId count hnew
          rw [hderived]
          exact happart.pools tx (by simp) pool hdeclared
      | some issued =>
          obtain ⟨moved, before⟩ := issued
          obtain ⟨after, hmoved, -⟩ := hchanges.change.moved moved before holdPool
          rw [hnew] at hmoved
          cases hmoved
          obtain ⟨other, -, hat⟩ := happlies.old_at holdPool
          exact hledger.apart other poolId before hat
    · refine ⟨.inr ⟨hledger.listed outpoint poolId count hold, ?_⟩,
        hledger.apart outpoint poolId count hold⟩
      -- a spent row under the same id would be the pool that was kept
      intro row hrow huid
      rw [hburned, List.nil_append] at hrow
      obtain ⟨found, hissues⟩ := uniqueIdOf_eq_pool.mp huid
      have hinput : row.1 ∈ spentInputs tx (isRewardTx txIndex tx) := by
        rw [← heffect.consumed_keys hstep.live]
        exact List.mem_map_of_mem hrow
      obtain ⟨entry, -, hlookup⟩ := hstep.shown hledger.coherent hinput
      have hreached := heffect.spends.entries row (List.mem_append_right _ hrow)
      have hsame := hledger.issuer_of_reached hbefore hreached hlookup
      have hissuerAt : entryShares.issuerAt state.batch.view row.1 = some (poolId, found) :=
        Issuance.issuerAt_eq_some.mpr ⟨entry, hlookup, hsame.symm.trans hissues⟩
      have hplace := hledger.backed.unique outpoint row.1 poolId count found hold hissuerAt
      exact hkept (hplace ▸ hinput)

theorem LedgerStep.keeps (hstep : LedgerStep ctx block txIndex tx state next)
    (hledger : ShareLedger ctx.base.crypto.primitives applied state.batch)
    (happart : HashesApart ctx.base.crypto.primitives (applied ++ [tx])) :
    ShareLedger ctx.base.crypto.primitives (applied ++ [tx]) next.batch := by
  apply hstep.ledger hledger
  by_cases htype : tx.txType = .slashProducer
  · exact hstep.slash hledger (happart.mono (List.subset_append_left applied [tx])) htype
  · exact hstep.moves hledger happart htype

end Step

end Doli.Node
