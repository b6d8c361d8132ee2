import Doli.Storage.BlockBatch
import Doli.Storage.StateDb

/-!
# What the overlay shows and what a commit leaves

`view` is the UTXO column a commit would leave, `indexView` its owner index and
`uidView` the unique-id index.  `Coherent` ties the overlay's bookkeeping to
the views; `Spends` and `addRows` say what spending and adding rows do to all
of them.
-/

namespace Doli.Storage

open Doli.Core Doli.Lib

namespace BlockBatch

def view (batch : BlockBatch) : UtxoColumn :=
  Lib.commit batch.utxoOps batch.db.utxo

def uidView (batch : BlockBatch) : Finset UidKey :=
  commitSet batch.uniqueIdOps batch.db.uniqueIds

def indexView (batch : BlockBatch) : List (Hash × Outpoint) :=
  commitRows batch.indexOps batch.db.utxoByPubkey

/-- The part of a batch that tracks unique ids. -/
structure UidState where
  ops : List (WriteOp UidKey Unit)
  pending : Finset UidKey
  removed : Finset UidKey

def uids (batch : BlockBatch) : UidState :=
  ⟨batch.uniqueIdOps, batch.pendingUniqueIds, batch.removedUniqueIds⟩

def UidState.write (state : UidState) : WriteOp UidKey Unit → UidState
  | .put uid _ =>
      ⟨state.ops ++ [.put uid ()], insert uid state.pending, state.removed.erase uid⟩
  | .delete uid =>
      ⟨state.ops ++ [.delete uid], state.pending.erase uid, insert uid state.removed⟩

def UidState.writeAll (state : UidState) (ops : List (WriteOp UidKey Unit)) :
    UidState :=
  ops.foldl UidState.write state

def putUid (entry : UtxoEntry) : List (WriteOp UidKey Unit) :=
  (uniqueIdOf entry.output).toList.map fun uid => .put uid ()

def deleteUid (entry : UtxoEntry) : List (WriteOp UidKey Unit) :=
  (uniqueIdOf entry.output).toList.map .delete

theorem UidState.writeAll_append (state : UidState)
    (first second : List (WriteOp UidKey Unit)) :
    state.writeAll (first ++ second) = (state.writeAll first).writeAll second := by
  simp [writeAll]

@[simp] theorem UidState.writeAll_ops (state : UidState)
    (ops : List (WriteOp UidKey Unit)) :
    (state.writeAll ops).ops = state.ops ++ ops := by
  induction ops generalizing state with
  | nil => simp [writeAll]
  | cons op ops ih =>
      have hwrite : (state.write op).ops = state.ops ++ [op] := by
        cases op <;> rfl
      calc (state.writeAll (op :: ops)).ops
          = ((state.write op).writeAll ops).ops := rfl
        _ = state.ops ++ op :: ops := by rw [ih, hwrite]; simp

theorem UidState.writeAll_touched (state : UidState)
    (ops : List (WriteOp UidKey Unit)) (uid : UidKey) :
    (uid ∈ (state.writeAll ops).pending ∨ uid ∈ (state.writeAll ops).removed) ↔
      (uid ∈ state.pending ∨ uid ∈ state.removed) ∨ uid ∈ ops.map WriteOp.key := by
  induction ops generalizing state with
  | nil => simp [writeAll]
  | cons op ops ih =>
      have hwrite : (uid ∈ (state.write op).pending ∨
          uid ∈ (state.write op).removed) ↔
          (uid ∈ state.pending ∨ uid ∈ state.removed) ∨ uid = op.key := by
        cases op with
        | put other value =>
            by_cases hother : uid = other <;> simp [write, WriteOp.key, hother]
        | delete other =>
            by_cases hother : uid = other <;> simp [write, WriteOp.key, hother]
      change (uid ∈ ((state.write op).writeAll ops).pending ∨
        uid ∈ ((state.write op).writeAll ops).removed) ↔ _
      rw [ih, hwrite, List.map_cons, List.mem_cons]
      exact or_assoc

@[simp] theorem commit_utxo (batch : BlockBatch) :
    batch.commit.utxo = batch.view := rfl

@[simp] theorem commit_uniqueIds (batch : BlockBatch) :
    batch.commit.uniqueIds = batch.uidView := rfl

/-! ## Fields after each write -/

section Fields

variable (batch : BlockBatch) (uid : UidKey) (outpoint : Outpoint)
  (entry : UtxoEntry)

@[simp] theorem addUniqueIdForEntry_db :
    (batch.addUniqueIdForEntry entry).db = batch.db := by
  unfold addUniqueIdForEntry
  split <;> rfl

@[simp] theorem addUniqueIdForEntry_view :
    (batch.addUniqueIdForEntry entry).view = batch.view := by
  unfold addUniqueIdForEntry
  split <;> rfl

@[simp] theorem addUniqueIdForEntry_pendingUtxos :
    (batch.addUniqueIdForEntry entry).pendingUtxos = batch.pendingUtxos := by
  unfold addUniqueIdForEntry
  split <;> rfl

@[simp] theorem addUniqueIdForEntry_spentInBatch :
    (batch.addUniqueIdForEntry entry).spentInBatch = batch.spentInBatch := by
  unfold addUniqueIdForEntry
  split <;> rfl

@[simp] theorem addUniqueIdForEntry_indexView :
    (batch.addUniqueIdForEntry entry).indexView = batch.indexView := by
  unfold addUniqueIdForEntry
  split <;> rfl

theorem addUniqueIdForEntry_uids :
    (batch.addUniqueIdForEntry entry).uids =
      batch.uids.writeAll (putUid entry) := by
  unfold addUniqueIdForEntry putUid
  cases uniqueIdOf entry.output <;> rfl

@[simp] theorem addUtxo_uids :
    (batch.addUtxo outpoint entry).uids = batch.uids := rfl

@[simp] theorem addUtxo_indexView :
    (batch.addUtxo outpoint entry).indexView =
      (WriteOp.put (entry.output.pubkeyHash, outpoint) ()).applyRows
        batch.indexView := by
  simp [indexView, addUtxo, commitRows]

@[simp] theorem addUtxo_db : (batch.addUtxo outpoint entry).db = batch.db := rfl

@[simp] theorem addUtxo_view :
    (batch.addUtxo outpoint entry).view = batch.view.insert outpoint entry := by
  simp [view, addUtxo]

@[simp] theorem addUtxo_uidView :
    (batch.addUtxo outpoint entry).uidView = batch.uidView := rfl

@[simp] theorem addUtxo_pendingUtxos :
    (batch.addUtxo outpoint entry).pendingUtxos =
      batch.pendingUtxos.insert outpoint entry := rfl

@[simp] theorem addUtxo_spentInBatch :
    (batch.addUtxo outpoint entry).spentInBatch = batch.spentInBatch := rfl

@[simp] theorem addUtxo_hasUniqueIdCheck :
    (batch.addUtxo outpoint entry).hasUniqueIdCheck uid =
      batch.hasUniqueIdCheck uid := rfl

@[simp] theorem recordSpend_db :
    (batch.recordSpend outpoint entry).db = batch.db := by
  unfold recordSpend removeUniqueIdForEntry
  split <;> rfl

@[simp] theorem recordSpend_view :
    (batch.recordSpend outpoint entry).view = batch.view.erase outpoint := by
  unfold recordSpend removeUniqueIdForEntry
  split <;> simp [view, removePendingUniqueId]

@[simp] theorem recordSpend_pendingUtxos :
    (batch.recordSpend outpoint entry).pendingUtxos =
      batch.pendingUtxos.erase outpoint := by
  unfold recordSpend removeUniqueIdForEntry
  split <;> rfl

@[simp] theorem recordSpend_spentInBatch :
    (batch.recordSpend outpoint entry).spentInBatch =
      batch.spentInBatch ++ [outpoint] := by
  unfold recordSpend removeUniqueIdForEntry
  split <;> rfl

@[simp] theorem recordSpend_indexView :
    (batch.recordSpend outpoint entry).indexView =
      (WriteOp.delete (entry.output.pubkeyHash, outpoint) :
        WriteOp (Hash × Outpoint) Unit).applyRows batch.indexView := by
  unfold recordSpend removeUniqueIdForEntry
  split <;> simp [indexView, removePendingUniqueId, commitRows]

theorem recordSpend_uids :
    (batch.recordSpend outpoint entry).uids =
      batch.uids.writeAll (deleteUid entry) := by
  unfold recordSpend removeUniqueIdForEntry deleteUid
  cases uniqueIdOf entry.output <;> rfl

theorem mem_uidView_addUniqueIdForEntry :
    uid ∈ (batch.addUniqueIdForEntry entry).uidView ↔
      uniqueIdOf entry.output = some uid ∨ uid ∈ batch.uidView := by
  unfold addUniqueIdForEntry
  cases hminted : uniqueIdOf entry.output with
  | none => simp
  | some minted => simp [uidView, addPendingUniqueId, eq_comm]

theorem hasUniqueIdCheck_addUniqueIdForEntry :
    (batch.addUniqueIdForEntry entry).hasUniqueIdCheck uid = true ↔
      uniqueIdOf entry.output = some uid ∨
        batch.hasUniqueIdCheck uid = true := by
  unfold addUniqueIdForEntry
  cases hminted : uniqueIdOf entry.output with
  | none => simp
  | some minted =>
      by_cases huid : uid = minted
      · simp [huid, hasUniqueIdCheck, addPendingUniqueId]
      · simp [huid, hasUniqueIdCheck, addPendingUniqueId, Ne.symm huid]

theorem mem_uidView_recordSpend :
    uid ∈ (batch.recordSpend outpoint entry).uidView ↔
      uniqueIdOf entry.output ≠ some uid ∧ uid ∈ batch.uidView := by
  unfold recordSpend removeUniqueIdForEntry
  cases hspent : uniqueIdOf entry.output with
  | none => simp [uidView]
  | some spent => simp [uidView, removePendingUniqueId, eq_comm]

theorem hasUniqueIdCheck_recordSpend :
    (batch.recordSpend outpoint entry).hasUniqueIdCheck uid = true ↔
      uniqueIdOf entry.output ≠ some uid ∧
        batch.hasUniqueIdCheck uid = true := by
  unfold recordSpend removeUniqueIdForEntry
  cases hspent : uniqueIdOf entry.output with
  | none => simp [hasUniqueIdCheck]
  | some spent =>
      by_cases huid : uid = spent
      · simp [huid, hasUniqueIdCheck, removePendingUniqueId]
      · simp [huid, hasUniqueIdCheck, removePendingUniqueId, Ne.symm huid]

end Fields

/-! ## Coherence -/

/-- The overlay's bookkeeping describes what the queued writes do. -/
structure Coherent (batch : BlockBatch) : Prop where
  lookup : ∀ outpoint, batch.view.lookup outpoint =
    (batch.pendingUtxos.lookup outpoint).or
      (if outpoint ∈ batch.spentInBatch then none
      else batch.db.utxo.lookup outpoint)
  uniqueId : ∀ uid, batch.hasUniqueIdCheck uid = true ↔ uid ∈ batch.uidView

theorem coherent_beginBatch (db : StateDb) : Coherent db.beginBatch where
  lookup outpoint := by simp [view, StateDb.beginBatch]
  uniqueId uid := by
    simp only [hasUniqueIdCheck, uidView, StateDb.beginBatch, commitSet,
      StateDb.hasUniqueId, Finset.notMem_empty, if_false, List.foldl_nil]
    exact decide_eq_true_iff

theorem Coherent.addUtxo {batch : BlockBatch} (hcoherent : Coherent batch)
    (outpoint : Outpoint) (entry : UtxoEntry) :
    Coherent (batch.addUtxo outpoint entry) where
  lookup other := by
    by_cases hother : other = outpoint
    · subst hother
      simp
    · rw [addUtxo_view, Finmap.lookup_insert_of_ne _ hother, hcoherent.lookup,
        addUtxo_pendingUtxos, AList.lookup_insert_ne hother]
      rfl
  uniqueId := hcoherent.uniqueId

theorem Coherent.addUniqueIdForEntry {batch : BlockBatch}
    (hcoherent : Coherent batch) (entry : UtxoEntry) :
    Coherent (batch.addUniqueIdForEntry entry) where
  lookup outpoint := by simpa using hcoherent.lookup outpoint
  uniqueId uid := by
    rw [hasUniqueIdCheck_addUniqueIdForEntry, mem_uidView_addUniqueIdForEntry,
      hcoherent.uniqueId]

theorem Coherent.recordSpend {batch : BlockBatch}
    (hcoherent : Coherent batch) (outpoint : Outpoint) (entry : UtxoEntry) :
    Coherent (batch.recordSpend outpoint entry) where
  lookup other := by
    by_cases hother : other = outpoint
    · subst hother
      simp
    · simp [Finmap.lookup_erase_ne hother, AList.lookup_erase_ne hother, hother,
        hcoherent.lookup other]
  uniqueId uid := by
    rw [hasUniqueIdCheck_recordSpend, mem_uidView_recordSpend,
      hcoherent.uniqueId]

theorem Coherent.lookup_of_getUtxo {batch : BlockBatch}
    (hcoherent : Coherent batch) {outpoint : Outpoint} {entry : UtxoEntry}
    (hget : batch.getUtxo outpoint = some entry) :
    batch.view.lookup outpoint = some entry := by
  rw [hcoherent.lookup]
  unfold getUtxo at hget
  split at hget
  · contradiction
  case isFalse hspent =>
    cases hpending : batch.pendingUtxos.lookup outpoint with
    | some pending => simpa [hpending] using hget
    | none => simpa [hpending, hspent, StateDb.getUtxo] using hget

/-! ## Spends -/

theorem spendUtxo_ok_iff {batch next : BlockBatch} {outpoint : Outpoint}
    {entry : UtxoEntry} :
    batch.spendUtxo outpoint = .ok (next, entry) ↔
      batch.spendableEntry outpoint = some entry ∧
        next = batch.recordSpend outpoint entry := by
  unfold spendUtxo
  cases hentry : batch.spendableEntry outpoint with
  | none => simp
  | some found =>
      simp only [Except.ok.injEq, Prod.mk.injEq, Option.some.injEq]
      constructor
      · rintro ⟨rfl, rfl⟩
        exact ⟨rfl, rfl⟩
      · rintro ⟨rfl, rfl⟩
        exact ⟨rfl, rfl⟩

theorem Coherent.ownedBy_of_spendable {batch : BlockBatch}
    (hcoherent : Coherent batch) {outpoint : Outpoint} {entry : UtxoEntry}
    (hentry : batch.spendableEntry outpoint = some entry) :
    OwnedBy batch.view outpoint entry.output.pubkeyHash := by
  intro stored hstored
  rw [hcoherent.lookup] at hstored
  unfold spendableEntry at hentry
  cases hpending : batch.pendingUtxos.lookup outpoint with
  | some pending =>
      simp only [hpending, Option.some_or] at hstored hentry
      rw [← Option.some.inj hstored, ← Option.some.inj hentry]
  | none =>
      simp only [hpending, Option.none_or] at hstored hentry
      split at hstored
      · contradiction
      · rw [StateDb.getUtxo, hstored] at hentry
        rw [Option.some.inj hentry]

/-- `after` is `before` with exactly the given rows spent, in order. -/
structure Spends (before after : BlockBatch)
    (rows : List (Outpoint × UtxoEntry)) : Prop where
  db : after.db = before.db
  spent : after.spentInBatch = before.spentInBatch ++ rows.map Prod.fst
  pending : ∀ outpoint, after.pendingUtxos.lookup outpoint =
    if outpoint ∈ rows.map Prod.fst then none
    else before.pendingUtxos.lookup outpoint
  view : after.view = Journal.eraseAll (rows.map Prod.fst) before.view
  uids : after.uids = before.uids.writeAll (rows.flatMap fun row => deleteUid row.2)
  entries : ∀ row ∈ rows, before.pendingUtxos.lookup row.1 = some row.2 ∨
    before.db.getUtxo row.1 = some row.2
  spendable : ∀ outpoint ∈ rows.map Prod.fst,
    (before.spendableEntry outpoint).isSome
  coherent : Coherent before → Coherent after
  indexed : Coherent before → IndexExact before.view before.indexView →
    IndexExact after.view after.indexView

theorem Spends.refl (batch : BlockBatch) : Spends batch batch [] where
  db := rfl
  spent := by simp
  pending := by simp
  view := rfl
  uids := rfl
  entries := by simp
  spendable := by simp
  coherent := id
  indexed _ := id

theorem Spends.single {batch : BlockBatch} {outpoint : Outpoint}
    {entry : UtxoEntry} (hentry : batch.spendableEntry outpoint = some entry) :
    Spends batch (batch.recordSpend outpoint entry) [(outpoint, entry)] where
  db := by simp
  spent := by simp
  pending other := by
    by_cases hother : other = outpoint
    · subst hother
      simp
    · simp [hother, AList.lookup_erase_ne hother]
  view := by simp [Journal.eraseAll]
  uids := by simpa using recordSpend_uids batch outpoint entry
  entries row hrow := by
    obtain rfl := List.mem_singleton.mp hrow
    unfold spendableEntry at hentry
    split at hentry
    case h_1 pending hpending => exact .inl (hpending.trans hentry)
    case h_2 => exact .inr hentry
  spendable := by simp [hentry]
  coherent hcoherent := hcoherent.recordSpend outpoint entry
  indexed hcoherent hexact := by
    rw [recordSpend_view, recordSpend_indexView]
    exact hexact.erase (hcoherent.ownedBy_of_spendable hentry)

theorem Spends.spendable_of_after {before after : BlockBatch}
    {rows : List (Outpoint × UtxoEntry)} (hspends : Spends before after rows)
    {outpoint : Outpoint} (hafter : (after.spendableEntry outpoint).isSome) :
    (before.spendableEntry outpoint).isSome := by
  unfold spendableEntry at hafter ⊢
  rw [hspends.pending, hspends.db] at hafter
  by_cases hkey : outpoint ∈ rows.map Prod.fst
  · exact hspends.spendable outpoint hkey
  · simpa only [hkey, if_false] using hafter

theorem Spends.trans {first second third : BlockBatch}
    {rows others : List (Outpoint × UtxoEntry)}
    (hfirst : Spends first second rows) (hsecond : Spends second third others) :
    Spends first third (rows ++ others) where
  db := hsecond.db.trans hfirst.db
  spent := by rw [hsecond.spent, hfirst.spent, List.map_append, List.append_assoc]
  pending outpoint := by
    rw [hsecond.pending, List.map_append]
    by_cases hother : outpoint ∈ others.map Prod.fst
    · simp only [hother, if_true, List.mem_append, or_true]
    · simp only [hother, if_false, List.mem_append, or_false]
      exact hfirst.pending outpoint
  view := by
    rw [hsecond.view, hfirst.view, List.map_append]
    simp [Journal.eraseAll]
  uids := by
    rw [hsecond.uids, hfirst.uids, List.flatMap_append, UidState.writeAll_append]
  entries row hmem := by
    rcases List.mem_append.mp hmem with hrow | hother
    · exact hfirst.entries row hrow
    · rcases hsecond.entries row hother with hpending | hstored
      · rw [hfirst.pending] at hpending
        split at hpending
        · contradiction
        · exact .inl hpending
      · rw [hfirst.db] at hstored
        exact .inr hstored
  spendable outpoint hmem := by
    rw [List.map_append] at hmem
    rcases List.mem_append.mp hmem with hrow | hother
    · exact hfirst.spendable outpoint hrow
    · exact hfirst.spendable_of_after (hsecond.spendable outpoint hother)
  coherent hcoherent := hsecond.coherent (hfirst.coherent hcoherent)
  indexed hcoherent hexact :=
    hsecond.indexed (hfirst.coherent hcoherent) (hfirst.indexed hcoherent hexact)

theorem spendInputs_spends (inputs : List Input) (batch : BlockBatch)
    (total : Nat) :
    ∃ rows, rows.map Prod.fst <+: inputs.map inputOutpoint ∧
      Spends batch (spendInputs inputs batch total).1 rows ∧
      ∀ amount, (spendInputs inputs batch total).2 = .ok amount →
        rows.map Prod.fst = inputs.map inputOutpoint := by
  induction inputs generalizing batch total with
  | nil => exact ⟨[], List.prefix_rfl, Spends.refl batch, fun _ _ => rfl⟩
  | cons input inputs ih =>
      cases hspend : batch.spendUtxo (inputOutpoint input) with
      | error error =>
          refine ⟨[], List.nil_prefix, ?_, ?_⟩
          · simpa [spendInputs, hspend] using Spends.refl batch
          · simp [spendInputs, hspend]
      | ok pair =>
          obtain ⟨next, entry⟩ := pair
          obtain ⟨hentry, rfl⟩ := spendUtxo_ok_iff.mp hspend
          obtain ⟨rows, hinitial, hspends, hall⟩ :=
            ih (batch.recordSpend (inputOutpoint input) entry)
              (if entry.output.outputType.isNativeAmount then
                (total + entry.output.amount) % 2 ^ 64
              else total)
          refine ⟨(inputOutpoint input, entry) :: rows, ?_, ?_, ?_⟩
          · simpa using hinitial
          · simpa [spendInputs, hspend] using (Spends.single hentry).trans hspends
          · intro amount hamount
            have hkeys := hall amount (by simpa [spendInputs, hspend] using hamount)
            simp [hkeys]

/-! ## Additions -/

/-- The rows a transaction adds, in output order. -/
def newRows (txHash : Hash) (height slot : Nat)
    (isCoinbase isEpochReward : Bool) :
    List Output → Nat → List (Outpoint × UtxoEntry)
  | [], _ => []
  | output :: outputs, position =>
      (.ofOutput txHash position,
        { output := stampOutput output slot
          height := height
          isCoinbase := isCoinbase
          isEpochReward := isEpochReward }) ::
        newRows txHash height slot isCoinbase isEpochReward outputs (position + 1)

def addRows (rows : List (Outpoint × UtxoEntry)) (batch : BlockBatch) :
    BlockBatch :=
  rows.foldl
    (fun batch row => (batch.addUniqueIdForEntry row.2).addUtxo row.1 row.2) batch

theorem addOutputs_eq_addRows (txHash : Hash) (height slot : Nat)
    (isCoinbase isEpochReward : Bool) (outputs : List Output) (position : Nat)
    (batch : BlockBatch) :
    addOutputs txHash height slot isCoinbase isEpochReward outputs position batch =
      addRows (newRows txHash height slot isCoinbase isEpochReward outputs position)
        batch := by
  induction outputs generalizing position batch with
  | nil => rfl
  | cons output outputs ih => simp [addOutputs, newRows, addRows, ih]

theorem newRows_keys (txHash : Hash) (height slot : Nat)
    (isCoinbase isEpochReward : Bool) (outputs : List Output) (position : Nat) :
    (newRows txHash height slot isCoinbase isEpochReward outputs position).map
        Prod.fst =
      (List.range' position outputs.length).map (Outpoint.ofOutput txHash) := by
  induction outputs generalizing position with
  | nil => rfl
  | cons output outputs ih => simp [newRows, ih, List.range'_succ]

section AddRows

variable (rows : List (Outpoint × UtxoEntry)) (batch : BlockBatch)

theorem addRows_cons (row : Outpoint × UtxoEntry) :
    addRows (row :: rows) batch =
      addRows rows ((batch.addUniqueIdForEntry row.2).addUtxo row.1 row.2) := rfl

@[simp] theorem addRows_db : (addRows rows batch).db = batch.db := by
  induction rows generalizing batch with
  | nil => rfl
  | cons row rows ih => rw [addRows_cons, ih]; simp

@[simp] theorem addRows_spentInBatch :
    (addRows rows batch).spentInBatch = batch.spentInBatch := by
  induction rows generalizing batch with
  | nil => rfl
  | cons row rows ih => rw [addRows_cons, ih]; simp

theorem addRows_view :
    (addRows rows batch).view = Journal.insertAll rows batch.view := by
  induction rows generalizing batch with
  | nil => rfl
  | cons row rows ih =>
      rw [addRows_cons, ih]
      simp [Journal.insertAll]

theorem addRows_uids :
    (addRows rows batch).uids =
      batch.uids.writeAll (rows.flatMap fun row => putUid row.2) := by
  induction rows generalizing batch with
  | nil => rfl
  | cons row rows ih =>
      rw [addRows_cons, ih, addUtxo_uids, addUniqueIdForEntry_uids,
        List.flatMap_cons, UidState.writeAll_append]

variable {rows batch}

theorem addRows_pendingUtxos_of_notMem {outpoint : Outpoint}
    (hkey : outpoint ∉ rows.map Prod.fst) :
    (addRows rows batch).pendingUtxos.lookup outpoint =
      batch.pendingUtxos.lookup outpoint := by
  induction rows generalizing batch with
  | nil => rfl
  | cons row rows ih =>
      simp only [List.map_cons, List.mem_cons, not_or] at hkey
      rw [addRows_cons, ih hkey.2, addUtxo_pendingUtxos,
        addUniqueIdForEntry_pendingUtxos, AList.lookup_insert_ne hkey.1]

theorem addRows_pendingUtxos_mem {outpoint : Outpoint} {entry : UtxoEntry}
    (hlookup : (addRows rows batch).pendingUtxos.lookup outpoint = some entry) :
    (outpoint, entry) ∈ rows ∨ batch.pendingUtxos.lookup outpoint = some entry := by
  induction rows generalizing batch with
  | nil => exact .inr hlookup
  | cons row rows ih =>
      rw [addRows_cons] at hlookup
      rcases ih hlookup with hmem | hpending
      · exact .inl (List.mem_cons_of_mem _ hmem)
      · rw [addUtxo_pendingUtxos, addUniqueIdForEntry_pendingUtxos] at hpending
        by_cases hhead : outpoint = row.1
        · subst hhead
          rw [AList.lookup_insert, Option.some.injEq] at hpending
          exact .inl (by simp [← hpending])
        · rw [AList.lookup_insert_ne hhead] at hpending
          exact .inr hpending

theorem Coherent.addRows (hcoherent : Coherent batch) :
    Coherent (addRows rows batch) := by
  induction rows generalizing batch with
  | nil => exact hcoherent
  | cons row rows ih =>
      exact ih ((hcoherent.addUniqueIdForEntry row.2).addUtxo row.1 row.2)

theorem addRows_indexed (hexact : IndexExact batch.view batch.indexView)
    (hdistinct : (rows.map Prod.fst).Nodup)
    (hnew : ∀ outpoint ∈ rows.map Prod.fst, batch.view.lookup outpoint = none) :
    IndexExact (addRows rows batch).view (addRows rows batch).indexView := by
  induction rows generalizing batch with
  | nil => exact hexact
  | cons row rows ih =>
      simp only [List.map_cons, List.nodup_cons] at hdistinct
      rw [addRows_cons]
      refine ih ?_ hdistinct.2 fun outpoint hmem => ?_
      · rw [addUtxo_view, addUtxo_indexView, addUniqueIdForEntry_view,
          addUniqueIdForEntry_indexView]
        exact hexact.insert (ownedBy_of_lookup_none (hnew row.1 (by simp)) _)
      · rw [addUtxo_view, addUniqueIdForEntry_view, Finmap.lookup_insert_of_ne]
        · exact hnew outpoint (by simp [hmem])
        · rintro rfl
          exact hdistinct.1 hmem

theorem addRows_pendingUtxos_of_mem (hdistinct : (rows.map Prod.fst).Nodup)
    {outpoint : Outpoint} {entry : UtxoEntry} (hrow : (outpoint, entry) ∈ rows) :
    (addRows rows batch).pendingUtxos.lookup outpoint = some entry := by
  induction rows generalizing batch with
  | nil => simp at hrow
  | cons row rows ih =>
      simp only [List.map_cons, List.nodup_cons] at hdistinct
      rw [addRows_cons]
      rcases List.mem_cons.mp hrow with rfl | hrow
      · rw [addRows_pendingUtxos_of_notMem hdistinct.1, addUtxo_pendingUtxos,
          AList.lookup_insert]
      · exact ih hdistinct.2 hrow

end AddRows

/-! ## The owner enumeration of the overlay -/

/-- The enumeration is meaningful: the committed index is exact, a pending row
does not contradict a stored one, and a spent outpoint is not pending again. -/
structure Enumerable (batch : BlockBatch) : Prop where
  indexed : batch.db.Indexed
  overlap : ∀ outpoint pending stored,
    batch.pendingUtxos.lookup outpoint = some pending →
      batch.db.getUtxo outpoint = some stored → stored = pending
  respent : ∀ outpoint ∈ batch.spentInBatch,
    batch.pendingUtxos.lookup outpoint = none

theorem mem_pendingOf {batch : BlockBatch} {owner : Hash} {outpoint : Outpoint}
    {entry : UtxoEntry} :
    (outpoint, entry) ∈ batch.pendingOf owner ↔
      batch.pendingUtxos.lookup outpoint = some entry ∧
        entry.output.pubkeyHash = owner := by
  unfold pendingOf
  rw [List.mem_filterMap]
  constructor
  · rintro ⟨row, hrow, hmap⟩
    split at hmap
    case isTrue howner =>
      obtain ⟨rfl, rfl⟩ := Prod.mk.inj (Option.some.inj hmap)
      exact ⟨AList.mem_lookup_iff.mpr hrow, howner⟩
    · contradiction
  · rintro ⟨hlookup, howner⟩
    exact ⟨⟨outpoint, entry⟩, AList.mem_lookup_iff.mp hlookup, by simp [howner]⟩

theorem pendingOf_nodup (batch : BlockBatch) (owner : Hash) :
    ((batch.pendingOf owner).map Prod.fst).Nodup := by
  have hsub : ((batch.pendingOf owner).map Prod.fst).Sublist
      batch.pendingUtxos.entries.keys := by
    unfold pendingOf
    induction batch.pendingUtxos.entries with
    | nil => simp
    | cons row rows ih =>
        by_cases howner : row.2.output.pubkeyHash = owner
        · simpa [howner] using ih
        · simpa [howner] using ih.trans (List.sublist_cons_self _ _)
  exact List.Sublist.nodup hsub batch.pendingUtxos.nodupKeys

theorem Enumerable.mem_getUtxosByPubkey_iff {batch : BlockBatch}
    (henum : Enumerable batch) {owner : Hash} {outpoint : Outpoint}
    {entry : UtxoEntry} :
    (outpoint, entry) ∈ batch.getUtxosByPubkey owner ↔
      batch.getUtxo outpoint = some entry ∧ entry.output.pubkeyHash = owner := by
  simp only [getUtxosByPubkey, List.mem_append, List.mem_filter,
    decide_eq_true_eq, henum.indexed.mem_getUtxosByPubkey, mem_pendingOf, getUtxo]
  constructor
  · rintro (⟨⟨hstored, howner⟩, hspent⟩ | ⟨⟨hpending, howner⟩, -⟩)
    · refine ⟨?_, howner⟩
      rw [if_neg hspent]
      cases hpending : batch.pendingUtxos.lookup outpoint with
      | none => exact hstored
      | some pending => rw [henum.overlap outpoint pending entry hpending hstored]
    · have hspent : outpoint ∉ batch.spentInBatch := fun hmem => by
        simp [henum.respent outpoint hmem] at hpending
      simp [hspent, hpending, howner]
  · rintro ⟨hget, howner⟩
    split at hget
    · contradiction
    case isFalse hspent =>
      cases hpending : batch.pendingUtxos.lookup outpoint with
      | none =>
          rw [hpending] at hget
          exact .inl ⟨⟨hget, howner⟩, hspent⟩
      | some pending =>
          rw [hpending] at hget
          obtain rfl := Option.some.inj hget
          by_cases hstored : batch.db.getUtxo outpoint = some pending
          · exact .inl ⟨⟨hstored, howner⟩, hspent⟩
          · refine .inr ⟨⟨rfl, howner⟩, ?_⟩
            intro hmem
            obtain ⟨⟨key, stored⟩, hrow, rfl⟩ := List.mem_map.mp hmem
            obtain ⟨hrow, -⟩ := List.mem_filter.mp hrow
            obtain ⟨hlookup, -⟩ := henum.indexed.mem_getUtxosByPubkey.mp hrow
            rw [henum.overlap key pending stored hpending hlookup] at hlookup
            exact hstored hlookup

theorem mem_getUtxosByPubkey_of_stored {batch : BlockBatch}
    (hindexed : batch.db.Indexed) {outpoint : Outpoint} {entry : UtxoEntry}
    (hstored : batch.db.getUtxo outpoint = some entry)
    (hspent : outpoint ∉ batch.spentInBatch) :
    (outpoint, entry) ∈ batch.getUtxosByPubkey entry.output.pubkeyHash := by
  simp only [getUtxosByPubkey, List.mem_append, List.mem_filter,
    decide_eq_true_eq, hindexed.mem_getUtxosByPubkey]
  exact .inl ⟨⟨hstored, trivial⟩, hspent⟩

theorem Enumerable.getUtxosByPubkey_nodup {batch : BlockBatch}
    (henum : Enumerable batch) (owner : Hash) :
    ((batch.getUtxosByPubkey owner).map Prod.fst).Nodup := by
  have hstored := henum.indexed.getUtxosByPubkey_nodup owner
  have hpending := pendingOf_nodup batch owner
  simp only [getUtxosByPubkey, List.map_append]
  refine List.Nodup.append ?_ ?_ ?_
  · exact List.Sublist.nodup (List.Sublist.map _ List.filter_sublist) hstored
  · exact List.Sublist.nodup (List.Sublist.map _ List.filter_sublist) hpending
  · intro outpoint hleft hright
    obtain ⟨row, hrow, rfl⟩ := List.mem_map.mp hright
    obtain ⟨-, hnew⟩ := List.mem_filter.mp hrow
    exact of_decide_eq_true hnew hleft

end BlockBatch

end Doli.Storage
