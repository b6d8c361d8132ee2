import Doli.Node.BlockRows
import Doli.Storage.Agree

/-!
# One transaction over two overlays

A transaction accepted over one store is accepted over a larger one that shows
it no more collateral and no id it mints; the overlays stay in agreement, also
across the oracle boundary.
-/

namespace Doli.Node

open Doli.Core Doli.Lib Doli.Storage

/-! ## One transaction over two overlays -/

section Step

variable {ctx : BlockContext} {txIndex : Nat} {tx : Transaction}
  {state next other : UtxoState}

theorem slashBurnInBatch_ok (henum : state.batch.Enumerable) :
    ∃ burned, slashBurnInBatch ctx tx state = .ok burned := by
  unfold slashBurnInBatch
  cases howner : slashBurnOwner ctx.utxo ctx.height tx with
  | none => exact ⟨state, rfl⟩
  | some owner =>
      refine burnRows_ok (henum.getUtxosByPubkey_nodup owner) fun row hrow => ?_
      obtain ⟨hget, -⟩ := henum.mem_getUtxosByPubkey_iff.mp hrow
      unfold BlockBatch.spendableEntry
      rcases BlockBatch.getUtxo_cases hget with hpending | hstored
      · simp [hpending]
      · split <;> simp [hstored]

theorem getUtxo_of_agree {batch shadow : BlockBatch}
    (hagree : BlockBatch.Agree batch shadow)
    (hstored : ∀ outpoint entry, batch.db.getUtxo outpoint = some entry →
      shadow.db.getUtxo outpoint = some entry)
    {outpoint : Outpoint} {entry : UtxoEntry}
    (hget : batch.getUtxo outpoint = some entry) :
    shadow.getUtxo outpoint = some entry := by
  unfold BlockBatch.getUtxo at hget ⊢
  by_cases hspent : outpoint ∈ batch.spentInBatch
  · rw [if_pos hspent] at hget
    contradiction
  · rw [if_neg hspent] at hget
    rw [if_neg fun hmem => hspent ((hagree.spent outpoint).mp hmem),
      hagree.pending]
    split at hget
    case h_1 pending hpending => simpa [hpending] using hget
    case h_2 hnone => simpa [hnone] using hstored outpoint entry hget

theorem validateStage_agree (hagree : BlockBatch.Agree state.batch other.batch)
    (hstored : ∀ outpoint entry, state.batch.db.getUtxo outpoint = some entry →
      other.batch.db.getUtxo outpoint = some entry)
    (hvalid : validateStage ctx tx (isRewardTx txIndex tx) state.batch = .ok ()) :
    validateStage ctx tx (isRewardTx txIndex tx) other.batch = .ok () := by
  unfold validateStage at hvalid ⊢
  split at hvalid
  case isTrue hreward => rw [if_pos hreward]
  case isFalse hreward =>
    rw [if_neg hreward]
    by_cases hmode : ctx.mode = .replay
    · split <;> simp [hmode]
    · split at hvalid
      case h_2 => simp [hmode] at hvalid
      case h_1 hok =>
        have hinputs := UtxoContext.validateTransactionWithUtxos_inputs hok
        have hsame : ∀ input ∈ tx.inputs,
            other.batch.getUtxo (inputOutpoint input) =
              state.batch.getUtxo (inputOutpoint input) := by
          intro input hinput
          obtain ⟨entry, hentry⟩ := Option.isSome_iff_exists.mp (hinputs input hinput)
          rw [hentry, getUtxo_of_agree hagree hstored hentry]
        rw [UtxoContext.validateTransactionWithUtxos_congr hsame, hok]

theorem hasUniqueIdCheck_eq {batch shadow : BlockBatch}
    (huids : shadow.uids = batch.uids) (hdb : shadow.db = batch.db)
    (uid : UidKey) :
    shadow.hasUniqueIdCheck uid = batch.hasUniqueIdCheck uid := by
  have hpending : shadow.pendingUniqueIds = batch.pendingUniqueIds :=
    congrArg BlockBatch.UidState.pending huids
  have hremoved : shadow.removedUniqueIds = batch.removedUniqueIds :=
    congrArg BlockBatch.UidState.removed huids
  simp only [BlockBatch.hasUniqueIdCheck, hpending, hremoved, hdb]

theorem spendStage_agree {reward : Bool} {batch shadow after : BlockBatch}
    (hagree : BlockBatch.Agree batch shadow)
    (hextends : BlockBatch.Extends batch shadow)
    (hsame : ctx.mode ≠ .replay ∨
      ∀ outpoint, shadow.db.getUtxo outpoint = batch.db.getUtxo outpoint)
    (hspend : spendStage ctx tx reward batch = .ok after) :
    ∃ moved, spendStage ctx tx reward shadow = .ok moved ∧
      BlockBatch.Agree after moved := by
  unfold spendStage at hspend ⊢
  split at hspend
  case isTrue hreward =>
    obtain rfl := Except.ok.inj hspend
    exact ⟨shadow, by rw [if_pos hreward], hagree⟩
  case isFalse hreward =>
    rw [if_neg hreward]
    unfold BlockBatch.spendTransactionUtxos at hspend ⊢
    have hcases : (∃ amount,
          (BlockBatch.spendInputs tx.inputs batch 0).2 = .ok amount) ∨
        ∀ outpoint, shadow.db.getUtxo outpoint = batch.db.getUtxo outpoint := by
      refine hsame.imp (fun hmode => ?_) id
      split at hspend
      case h_1 moved amount heq => exact ⟨amount, by rw [heq]⟩
      case h_2 => simp [hmode] at hspend
    obtain ⟨houtcome, rows, hrows, hshadow⟩ := hextends.spendInputs 0 hcases
    have hmoved := hagree.spends hrows hshadow (fun _ => Iff.rfl) rfl
    generalize BlockBatch.spendInputs tx.inputs batch 0 = first at *
    generalize BlockBatch.spendInputs tx.inputs shadow 0 = second at *
    obtain ⟨firstBatch, outcome⟩ := first
    obtain ⟨secondBatch, shadowOutcome⟩ := second
    simp only at houtcome
    subst houtcome
    cases shadowOutcome with
    | ok amount =>
        obtain rfl := Except.ok.inj hspend
        exact ⟨secondBatch, rfl, hmoved⟩
    | error error =>
        simp only at hspend ⊢
        split at hspend
        case isTrue hreplay =>
          obtain rfl := Except.ok.inj hspend
          exact ⟨secondBatch, by rw [if_pos hreplay], hmoved⟩
        · contradiction

theorem mem_burnableRows_iff {batch : BlockBatch} (henum : batch.Enumerable)
    {row : Outpoint × UtxoEntry} :
    row ∈ burnableRows ctx tx batch ↔
      slashBurnOwner ctx.utxo ctx.height tx = some row.2.output.pubkeyHash ∧
        batch.getUtxo row.1 = some row.2 ∧
          isSlashBurnable row.2.output ctx.height = true := by
  unfold burnableRows
  cases howner : slashBurnOwner ctx.utxo ctx.height tx with
  | none => simp
  | some owner =>
      simp only [List.mem_filter, henum.mem_getUtxosByPubkey_iff,
        Option.some.injEq]
      constructor
      · rintro ⟨⟨hget, rfl⟩, hburnable⟩
        exact ⟨rfl, hget, hburnable⟩
      · rintro ⟨rfl, hget, hburnable⟩
        exact ⟨⟨hget, rfl⟩, hburnable⟩

/-- A transaction accepted over one store is accepted over a larger one that
shows it no more collateral to burn and no id it mints. -/
theorem processTransactionUtxos_agree {known : Outpoint → Option UtxoEntry}
    (hprocess : processTransactionUtxos ctx txIndex tx state = .ok next)
    (hagree : BlockBatch.Agree state.batch other.batch)
    (henum : state.batch.Enumerable) (hotherEnum : other.batch.Enumerable)
    (hknown : Known known state.batch) (hotherKnown : Known known other.batch)
    (hstored : ∀ outpoint entry, state.batch.db.getUtxo outpoint = some entry →
      other.batch.db.getUtxo outpoint = some entry)
    (hsame : ctx.mode ≠ .replay ∨ ∀ outpoint,
      other.batch.db.getUtxo outpoint = state.batch.db.getUtxo outpoint)
    (hburn : ∀ row ∈ burnableRows ctx tx other.batch,
      row ∈ burnableRows ctx tx state.batch)
    (hgate : ∀ uid ∈ gatedIds tx, state.batch.hasUniqueIdCheck uid = false →
      other.batch.hasUniqueIdCheck uid = false) :
    ∃ moved, processTransactionUtxos ctx txIndex tx other = .ok moved ∧
      BlockBatch.Agree next.batch moved.batch := by
  obtain ⟨middle, spent, haccepted⟩ := processTransactionUtxos_ok hprocess
  have hvalid := validateStage_agree hagree hstored haccepted.validate_ok
  have hburns : ∃ burned, slashBurnInBatch ctx tx
      (captureStage tx (isRewardTx txIndex tx) other) = .ok burned :=
    slashBurnInBatch_ok (by simpa using hotherEnum)
  obtain ⟨otherMiddle, hotherBurn⟩ := hburns
  obtain ⟨burned, hburned⟩ := slashBurnInBatch_burned haccepted.burn_ok
  obtain ⟨otherBurned, hotherBurned⟩ := slashBurnInBatch_burned hotherBurn
  have hspends := hburned.spends
  have hotherSpends := hotherBurned.spends
  have hkeys := hburned.keys
  have hotherKeys := hotherBurned.keys
  rw [captureStage_batch] at hspends hotherSpends hkeys hotherKeys
  -- both burns take the same rows, none of which carries an id
  have hrows : ∀ row, row ∈ burnableRows ctx tx other.batch ↔
      row ∈ burnableRows ctx tx state.batch := by
    refine fun row => ⟨hburn row, fun hrow => ?_⟩
    obtain ⟨howner, hget, hburnable⟩ := (mem_burnableRows_iff henum).mp hrow
    exact (mem_burnableRows_iff hotherEnum).mpr
      ⟨howner, getUtxo_of_agree hagree hstored hget, hburnable⟩
  have hsameKeys : ∀ outpoint, outpoint ∈ otherBurned.map Prod.fst ↔
      outpoint ∈ burned.map Prod.fst := by
    intro outpoint
    rw [hotherKeys, hkeys]
    simp only [List.mem_map, hrows]
  have hnoUid := burned_deleteUid hknown hkeys
    fun row hrow => hknown row.1 row.2 (hspends.entries row hrow)
  have hotherNoUid := burned_deleteUid hotherKnown hotherKeys
    fun row hrow => hotherKnown row.1 row.2 (hotherSpends.entries row hrow)
  have hmiddle := hagree.spends hspends hotherSpends hsameKeys
    (hotherNoUid.trans hnoUid.symm)
  -- the duplicate check reads the ids as they were before the burn
  have hunique : checkDuplicateIds otherMiddle.batch tx.txType tx.outputs =
      .ok () := by
    rw [checkDuplicateIds_ok_iff]
    intro uid huid
    have hchecked := checkDuplicateIds_ok_iff.mp haccepted.unique_ok uid huid
    rw [hasUniqueIdCheck_eq (by rw [hspends.uids, hnoUid]; rfl) hspends.db] at hchecked
    rw [hasUniqueIdCheck_eq (by rw [hotherSpends.uids, hotherNoUid]; rfl)
      hotherSpends.db]
    exact hgate uid huid hchecked
  have hextends : BlockBatch.Extends middle.batch otherMiddle.batch :=
    ⟨hmiddle.pending, by rw [hspends.db, hotherSpends.db]; exact hstored⟩
  obtain ⟨otherSpent, hotherSpent, hafter⟩ := spendStage_agree hmiddle hextends
    (by rw [hspends.db, hotherSpends.db]; exact hsame) haccepted.spend_ok
  refine ⟨_, Accepted.process ⟨hvalid, hotherBurn, hunique, hotherSpent, rfl⟩, ?_⟩
  rw [haccepted.next_eq]
  simp only [addStage, addTransactionUtxos_eq]
  exact hafter.addRows _

end Step

/-! ## The oracle boundary -/

section Oracle

variable {ctx : BlockContext} {price : PairPrice} {state other : UtxoState}

theorem consumeOraclePrice_spends (state : UtxoState) (outpoint : Outpoint) :
    BlockBatch.Spends state.batch (consumeOraclePrice state outpoint).batch
      ((state.batch.getUtxo outpoint).map fun previous =>
        (outpoint, previous)).toList := by
  unfold consumeOraclePrice
  cases hget : state.batch.getUtxo outpoint with
  | none => exact .refl _
  | some previous => exact spendOrKeep_spends hget

theorem getUtxo_eq_of_agree {batch shadow : BlockBatch} {outpoint : Outpoint}
    (hagree : BlockBatch.Agree batch shadow)
    (hsame : shadow.db.getUtxo outpoint = batch.db.getUtxo outpoint) :
    shadow.getUtxo outpoint = batch.getUtxo outpoint := by
  simp only [BlockBatch.getUtxo, hagree.spent, hagree.pending, hsame]

@[simp] theorem replaceOraclePrice_db :
    (replaceOraclePrice ctx state price).batch.db = state.batch.db := by
  have hspends := consumeOraclePrice_spends state
    (oraclePriceOutpoint ctx.utxo.prim price.pairId)
  simp [replaceOraclePrice, hspends.db]

theorem replaceOraclePrice_agree
    (hagree : BlockBatch.Agree state.batch other.batch)
    (hsame : other.batch.db.getUtxo
        (oraclePriceOutpoint ctx.utxo.prim price.pairId) =
      state.batch.db.getUtxo (oraclePriceOutpoint ctx.utxo.prim price.pairId)) :
    BlockBatch.Agree (replaceOraclePrice ctx state price).batch
      (replaceOraclePrice ctx other price).batch := by
  have hspends := consumeOraclePrice_spends state
    (oraclePriceOutpoint ctx.utxo.prim price.pairId)
  have hother := consumeOraclePrice_spends other
    (oraclePriceOutpoint ctx.utxo.prim price.pairId)
  rw [getUtxo_eq_of_agree hagree hsame] at hother
  exact (hagree.spends hspends hother (fun _ => Iff.rfl) rfl).addUtxo _ _

theorem replaceOraclePrices_agree {prices : List PairPrice}
    (hagree : BlockBatch.Agree state.batch other.batch)
    (hsame : ∀ price ∈ prices, other.batch.db.getUtxo
        (oraclePriceOutpoint ctx.utxo.prim price.pairId) =
      state.batch.db.getUtxo (oraclePriceOutpoint ctx.utxo.prim price.pairId)) :
    BlockBatch.Agree (replaceOraclePrices ctx prices state).batch
      (replaceOraclePrices ctx prices other).batch := by
  induction prices generalizing state other with
  | nil => exact hagree
  | cons price prices ih =>
      refine ih (replaceOraclePrice_agree hagree (hsame price List.mem_cons_self)) ?_
      intro later hlater
      rw [replaceOraclePrice_db, replaceOraclePrice_db]
      exact hsame later (List.mem_cons_of_mem _ hlater)

theorem replaceOraclePrice_indexed {db : StateDb} (htracked : Tracked db state)
    (hnew : oraclePriceOutpoint ctx.utxo.prim price.pairId ∉ state.undoCreated)
    (hexact : IndexExact state.batch.view state.batch.indexView) :
    IndexExact (replaceOraclePrice ctx state price).batch.view
      (replaceOraclePrice ctx state price).batch.indexView := by
  have hspends := consumeOraclePrice_spends state
    (oraclePriceOutpoint ctx.utxo.prim price.pairId)
  have hnone : (consumeOraclePrice state
      (oraclePriceOutpoint ctx.utxo.prim price.pairId)).batch.view.lookup
        (oraclePriceOutpoint ctx.utxo.prim price.pairId) = none := by
    rw [hspends.view, Journal.lookup_eraseAll]
    cases hget : state.batch.getUtxo
        (oraclePriceOutpoint ctx.utxo.prim price.pairId) with
    | some previous => simp
    | none =>
        have hpending : state.batch.pendingUtxos.lookup
            (oraclePriceOutpoint ctx.utxo.prim price.pairId) = none := by
          cases hlookup : state.batch.pendingUtxos.lookup
              (oraclePriceOutpoint ctx.utxo.prim price.pairId) with
          | none => rfl
          | some entry => exact absurd (htracked.pending _ entry hlookup) hnew
        simp only [BlockBatch.getUtxo, hpending] at hget
        simp only [Option.map_none, Option.toList_none, List.map_nil,
          List.not_mem_nil, if_false, htracked.coherent.lookup, hpending,
          Option.none_or]
        exact hget
  simp only [replaceOraclePrice, BlockBatch.addUtxo_view,
    BlockBatch.addUtxo_indexView]
  exact (hspends.indexed htracked.coherent hexact).insert
    (ownedBy_of_lookup_none hnone _)

end Oracle

end Doli.Node
