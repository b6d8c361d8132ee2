import Doli.Storage.Overlay

/-!
# Overlays over two stores

Two overlays agree when they show the same pending rows, the same spends and
the same unique-id writes.  Spending and adding the same rows keeps them in
agreement, and a spend that succeeds over one store succeeds over any store
that extends it.
-/

namespace Doli.Storage

open Doli.Core Doli.Lib

namespace BlockBatch

structure Agree (batch other : BlockBatch) : Prop where
  pending : ∀ outpoint,
    other.pendingUtxos.lookup outpoint = batch.pendingUtxos.lookup outpoint
  spent : ∀ outpoint, outpoint ∈ other.spentInBatch ↔ outpoint ∈ batch.spentInBatch
  uids : other.uids = batch.uids

theorem Agree.beginBatch (db other : StateDb) :
    Agree db.beginBatch other.beginBatch where
  pending _ := rfl
  spent _ := Iff.rfl
  uids := rfl

theorem Agree.spends {batch other after otherAfter : BlockBatch}
    {rows otherRows : List (Outpoint × UtxoEntry)} (hagree : Agree batch other)
    (hspends : Spends batch after rows)
    (hother : Spends other otherAfter otherRows)
    (hkeys : ∀ outpoint,
      outpoint ∈ otherRows.map Prod.fst ↔ outpoint ∈ rows.map Prod.fst)
    (huids : (otherRows.flatMap fun row => deleteUid row.2) =
      rows.flatMap fun row => deleteUid row.2) : Agree after otherAfter where
  pending outpoint := by
    rw [hother.pending, hspends.pending, hagree.pending]
    by_cases hkey : outpoint ∈ rows.map Prod.fst
    · rw [if_pos hkey, if_pos ((hkeys outpoint).mpr hkey)]
    · rw [if_neg hkey, if_neg fun hmem => hkey ((hkeys outpoint).mp hmem)]
  spent outpoint := by
    rw [hother.spent, hspends.spent, List.mem_append, List.mem_append,
      hagree.spent, hkeys]
  uids := by rw [hother.uids, hspends.uids, hagree.uids, huids]

theorem Agree.addUtxo {batch other : BlockBatch} (hagree : Agree batch other)
    (outpoint : Outpoint) (entry : UtxoEntry) :
    Agree (batch.addUtxo outpoint entry) (other.addUtxo outpoint entry) where
  pending key := by
    rw [addUtxo_pendingUtxos, addUtxo_pendingUtxos]
    by_cases hkey : key = outpoint
    · rw [hkey, AList.lookup_insert, AList.lookup_insert]
    · rw [AList.lookup_insert_ne hkey, AList.lookup_insert_ne hkey, hagree.pending]
  spent := hagree.spent
  uids := hagree.uids

theorem Agree.addUniqueIdForEntry {batch other : BlockBatch}
    (hagree : Agree batch other) (entry : UtxoEntry) :
    Agree (batch.addUniqueIdForEntry entry) (other.addUniqueIdForEntry entry) where
  pending key := by simpa using hagree.pending key
  spent key := by simpa using hagree.spent key
  uids := by
    rw [addUniqueIdForEntry_uids, addUniqueIdForEntry_uids, hagree.uids]

theorem Agree.addRows {batch other : BlockBatch} (hagree : Agree batch other)
    (rows : List (Outpoint × UtxoEntry)) :
    Agree (addRows rows batch) (addRows rows other) := by
  induction rows generalizing batch other with
  | nil => exact hagree
  | cons row rows ih =>
      exact ih ((hagree.addUniqueIdForEntry row.2).addUtxo row.1 row.2)

/-! ## Spends over an extended store -/

/-- The second store extends the first under the same pending rows. -/
structure Extends (batch other : BlockBatch) : Prop where
  pending : ∀ outpoint,
    other.pendingUtxos.lookup outpoint = batch.pendingUtxos.lookup outpoint
  stored : ∀ outpoint entry, batch.db.getUtxo outpoint = some entry →
    other.db.getUtxo outpoint = some entry

theorem Extends.spendable {batch other : BlockBatch}
    (hextends : Extends batch other) {outpoint : Outpoint} {entry : UtxoEntry}
    (hentry : batch.spendableEntry outpoint = some entry) :
    other.spendableEntry outpoint = some entry := by
  unfold spendableEntry at hentry ⊢
  rw [hextends.pending]
  split at hentry
  case h_1 pending hpending => simpa [hpending] using hentry
  case h_2 hnone => simpa [hnone] using hextends.stored _ _ hentry

theorem Extends.recordSpend {batch other : BlockBatch}
    (hextends : Extends batch other) (outpoint : Outpoint) (entry : UtxoEntry) :
    Extends (batch.recordSpend outpoint entry)
      (other.recordSpend outpoint entry) where
  pending key := by
    rw [recordSpend_pendingUtxos, recordSpend_pendingUtxos]
    by_cases hkey : key = outpoint
    · rw [hkey, AList.lookup_erase, AList.lookup_erase]
    · rw [AList.lookup_erase_ne hkey, AList.lookup_erase_ne hkey,
        hextends.pending]
  stored key found := by
    rw [recordSpend_db, recordSpend_db]
    exact hextends.stored key found

/-- The inputs spend the same rows over both stores when they all spend over
the first, or when the stores show the same rows. -/
theorem Extends.spendInputs {inputs : List Input} {batch other : BlockBatch}
    (hextends : Extends batch other) (total : Nat)
    (hsame : (∃ amount, (spendInputs inputs batch total).2 = .ok amount) ∨
      ∀ outpoint, other.db.getUtxo outpoint = batch.db.getUtxo outpoint) :
    (spendInputs inputs other total).2 = (spendInputs inputs batch total).2 ∧
      ∃ rows, Spends batch (spendInputs inputs batch total).1 rows ∧
        Spends other (spendInputs inputs other total).1 rows := by
  induction inputs generalizing batch other total with
  | nil => exact ⟨rfl, [], .refl _, .refl _⟩
  | cons input inputs ih =>
      cases hentry : batch.spendableEntry (inputOutpoint input) with
      | none =>
          have hspend : batch.spendUtxo (inputOutpoint input) =
              .error (.notFound (inputOutpoint input)) := by
            simp [spendUtxo, hentry]
          have hstored : ∀ outpoint,
              other.db.getUtxo outpoint = batch.db.getUtxo outpoint := by
            rcases hsame with ⟨amount, hamount⟩ | hstored
            · simp [BlockBatch.spendInputs, hspend] at hamount
            · exact hstored
          have hother : other.spendUtxo (inputOutpoint input) =
              .error (.notFound (inputOutpoint input)) := by
            have hnone : other.spendableEntry (inputOutpoint input) = none := by
              unfold spendableEntry at hentry ⊢
              rw [hextends.pending, hstored]
              exact hentry
            simp [spendUtxo, hnone]
          simp only [BlockBatch.spendInputs, hspend, hother]
          exact ⟨trivial, [], .refl _, .refl _⟩
      | some entry =>
          have hspend := spendUtxo_ok_iff.mpr ⟨hentry, rfl⟩
          have hshadow := hextends.spendable hentry
          have hother := spendUtxo_ok_iff.mpr ⟨hshadow, rfl⟩
          simp only [BlockBatch.spendInputs, hspend, hother] at hsame ⊢
          obtain ⟨houtcome, rows, hrows, hotherRows⟩ :=
            ih (hextends.recordSpend (inputOutpoint input) entry) _
              (hsame.imp id fun hstored outpoint => by
                simpa using hstored outpoint)
          exact ⟨houtcome, (inputOutpoint input, entry) :: rows,
            (Spends.single hentry).trans hrows,
            (Spends.single hshadow).trans hotherRows⟩

end BlockBatch

end Doli.Storage
