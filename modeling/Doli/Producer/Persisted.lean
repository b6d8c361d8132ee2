import Doli.Lib.Listing
import Doli.Producer.Set

/-!
# The producer set on disk

The parts of a producer set that serde and the state database keep, the
unbonding index that every load rebuilds from them, and the two ways a block
batch writes them.
-/

namespace Doli.Core

/-- Order of the hash bytes. -/
def Hash.bytesLe (left right : Hash) : Prop :=
  left.word.toNat ≤ right.word.toNat

instance : DecidableRel Hash.bytesLe := fun left right =>
  inferInstanceAs (Decidable (left.word.toNat ≤ right.word.toNat))

instance : Std.Total Hash.bytesLe :=
  ⟨fun left right => Nat.le_total left.word.toNat right.word.toNat⟩

instance : IsTrans Hash Hash.bytesLe := ⟨fun _ _ _ => Nat.le_trans⟩

instance : Std.Antisymm Hash.bytesLe where
  antisymm left right hle hge := by
    have hword : left.word = right.word := BitVec.eq_of_toNat_eq (Nat.le_antisymm hle hge)
    cases left
    cases right
    exact congrArg Hash.mk hword

end Doli.Core

namespace Doli.Producer

open Doli.Core Doli.Lib

/-- `as_parts`: the index and the cache are skipped. -/
structure ProducerParts where
  producers : Column Hash ProducerInfo
  exitHistory : Column Hash Nat
  pendingUpdates : List PendingProducerUpdate
  deriving DecidableEq

namespace ProducerSet

def asParts (set : ProducerSet) : ProducerParts :=
  ⟨set.producers, set.exitHistory, set.pendingUpdates⟩

/-- One producer of the rebuild. -/
def indexRow (producers : Column Hash ProducerInfo) (index : List (Nat × Hash))
    (key : Hash) : List (Nat × Hash) :=
  match (producers.lookup key).map ProducerInfo.status with
  | some (.unbonding startedAt) => insertUnbonding startedAt key index
  | _ => index

/-- The keys of one bucket come in hash order. -/
def rebuildUnbondingIndex (producers : Column Hash ProducerInfo) : List (Nat × Hash) :=
  (listing Hash.bytesLe producers.keys).foldl (indexRow producers) []

def fromParts (parts : ProducerParts) : ProducerSet where
  producers := parts.producers
  exitHistory := parts.exitHistory
  unbondingIndex := rebuildUnbondingIndex parts.producers
  pendingUpdates := parts.pendingUpdates

@[simp] theorem asParts_fromParts (parts : ProducerParts) :
    (fromParts parts).asParts = parts := rfl

theorem mem_indexRow {producers : Column Hash ProducerInfo}
    {index : List (Nat × Hash)} {key : Hash} {row : Nat × Hash} :
    row ∈ indexRow producers index key ↔ row ∈ index ∨ row.2 = key ∧
      (producers.lookup key).map ProducerInfo.status = some (.unbonding row.1) := by
  unfold indexRow
  split
  case h_1 startedAt hstatus =>
    rw [mem_insertUnbonding, hstatus]
    constructor
    · rintro (rfl | hrow)
      · exact .inr ⟨rfl, rfl⟩
      · exact .inl hrow
    · rintro (hrow | ⟨hkey, hstarted⟩)
      · exact .inr hrow
      · obtain rfl : startedAt = row.1 := by simpa using hstarted
        exact .inl (Prod.ext rfl hkey)
  case h_2 status hother =>
    refine ⟨.inl, ?_⟩
    rintro (hrow | ⟨-, hstarted⟩)
    · exact hrow
    · exact absurd hstarted (hother row.1)

theorem mem_foldl_indexRow {producers : Column Hash ProducerInfo} (keys : List Hash)
    {index : List (Nat × Hash)} {row : Nat × Hash} :
    row ∈ keys.foldl (indexRow producers) index ↔ row ∈ index ∨ row.2 ∈ keys ∧
      (producers.lookup row.2).map ProducerInfo.status = some (.unbonding row.1) := by
  induction keys generalizing index with
  | nil => simp
  | cons key keys ih =>
      rw [List.foldl_cons, ih, mem_indexRow, List.mem_cons]
      constructor
      · rintro ((hrow | ⟨hkey, hstatus⟩) | ⟨hkey, hstatus⟩)
        · exact .inl hrow
        · exact .inr ⟨.inl hkey, hkey ▸ hstatus⟩
        · exact .inr ⟨.inr hkey, hstatus⟩
      · rintro (hrow | ⟨hkey | hkey, hstatus⟩)
        · exact .inl (.inl hrow)
        · exact .inl (.inr ⟨hkey, hkey ▸ hstatus⟩)
        · exact .inr ⟨hkey, hstatus⟩

end ProducerSet

/-! ## The batch writes -/

open ProducerSet

namespace ProducerParts

/-- `write_dirty_producers`: the queue is always written whole. -/
def writeDirtyProducers (rows : ProducerParts) (set : ProducerSet)
    (dirtyKeys removedKeys dirtyExitKeys : Finset Hash) : ProducerParts where
  producers := commit (puts (listing Hash.bytesLe dirtyKeys) set.producers ++
    deletes (listing Hash.bytesLe removedKeys)) rows.producers
  exitHistory := commit (puts (listing Hash.bytesLe dirtyExitKeys) set.exitHistory)
    rows.exitHistory
  pendingUpdates := set.pendingUpdates

theorem writeDirtyProducers_eq (rows : ProducerParts) (set : ProducerSet)
    (dirtyKeys : Finset Hash) :
    rows.writeDirtyProducers set dirtyKeys ∅ ∅ =
      ⟨commit (puts (listing Hash.bytesLe dirtyKeys) set.producers) rows.producers,
        rows.exitHistory, set.pendingUpdates⟩ := by
  have hnone : listing Hash.bytesLe (∅ : Finset Hash) = [] := rfl
  simp [writeDirtyProducers, hnone, deletes, puts]

/-- `write_full_producer_set`: what is stored is deleted first. -/
def writeFullProducerSet (rows : ProducerParts) (set : ProducerSet) :
    ProducerParts where
  producers := commit (deletes (listing Hash.bytesLe rows.producers.keys) ++
    puts (listing Hash.bytesLe set.producers.keys) set.producers) rows.producers
  exitHistory := commit (deletes (listing Hash.bytesLe rows.exitHistory.keys) ++
    puts (listing Hash.bytesLe set.exitHistory.keys) set.exitHistory) rows.exitHistory
  pendingUpdates := set.pendingUpdates

@[simp] theorem writeFullProducerSet_eq (rows : ProducerParts) (set : ProducerSet) :
    rows.writeFullProducerSet set = set.asParts := by
  have hlisted : ∀ {ν : Type} (column : Column Hash ν) (key : Hash),
      (column.lookup key).isSome → key ∈ listing Hash.bytesLe column.keys := by
    intro ν column key hsome
    rw [mem_listing, Finmap.mem_keys]
    exact Finmap.lookup_isSome.mp hsome
  unfold writeFullProducerSet asParts
  rw [commit_replace (hlisted _) (hlisted _), commit_replace (hlisted _) (hlisted _)]

def loadProducerSet (rows : ProducerParts) : ProducerSet := fromParts rows

end ProducerParts

end Doli.Producer
