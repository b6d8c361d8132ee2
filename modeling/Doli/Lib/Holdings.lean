import Doli.Lib.Column
import Doli.Lib.Listing
import Doli.Lib.Worth
import Mathlib.Algebra.BigOperators.Group.Finset.Basic

/-!
# The worth of a column

What the rows of a column are worth together, and what erasing and inserting rows does to
it.
-/

namespace Doli.Lib

variable {κ ν : Type} [DecidableEq κ] {worth : ν → Nat} {column : Column κ ν} {key : κ}
  {value : ν}

/-- The worth of the row at a key, if there is one. -/
def worthAt (worth : ν → Nat) (column : Column κ ν) (key : κ) : Nat :=
  (column.lookup key).elim 0 worth

def holdings (worth : ν → Nat) (column : Column κ ν) : Nat :=
  ∑ key ∈ column.keys, worthAt worth column key

theorem worthAt_of_lookup (hlookup : column.lookup key = some value) :
    worthAt worth column key = worth value := by
  simp [worthAt, hlookup]

theorem worthAt_of_notMem (hkey : key ∉ column.keys) : worthAt worth column key = 0 := by
  rw [Finmap.mem_keys, ← Finmap.lookup_eq_none] at hkey
  simp [worthAt, hkey]

theorem total_worthAt (worth : ν → Nat) (column : Column κ ν) (keys : List κ) :
    total (worthAt worth column) keys = total worth (keys.filterMap column.lookup) :=
  (total_filterMap worth column.lookup keys).symm

@[simp] theorem holdings_empty : holdings worth (∅ : Column κ ν) = 0 := rfl

theorem holdings_eq_sum {keys : Finset κ} (hkeys : column.keys ⊆ keys) :
    holdings worth column = ∑ key ∈ keys, worthAt worth column key :=
  Finset.sum_subset hkeys fun _ _ hkey => worthAt_of_notMem hkey

theorem holdings_congr {other : Column κ ν}
    (hsame : ∀ key, worthAt worth column key = worthAt worth other key) :
    holdings worth column = holdings worth other := by
  have hleft : column.keys ⊆ column.keys ∪ other.keys := Finset.subset_union_left
  have hright : other.keys ⊆ column.keys ∪ other.keys := Finset.subset_union_right
  rw [holdings_eq_sum hleft, holdings_eq_sum hright]
  exact Finset.sum_congr rfl fun key _ => hsame key

theorem holdings_one (column : Column κ ν) : holdings (fun _ => 1) column = column.keys.card := by
  have hone : ∀ key ∈ column.keys, worthAt (fun _ => 1) column key = 1 := by
    intro key hkey
    obtain ⟨value, hvalue⟩ := Finmap.mem_iff.mp (Finmap.mem_keys.mp hkey)
    exact worthAt_of_lookup hvalue
  rw [holdings, Finset.sum_congr rfl hone, ← Finset.card_eq_sum_ones]

omit [DecidableEq κ] in
theorem total_listing (le : κ → κ → Prop) [DecidableRel le] [IsTrans κ le] [Std.Antisymm le]
    [Std.Total le] (worth : κ → Nat) (keys : Finset κ) :
    total worth (listing le keys) = ∑ key ∈ keys, worth key := by
  have hsum : (Multiset.map worth (listing le keys : Multiset κ)).sum =
      (Multiset.map worth keys.val).sum := by
    rw [coe_listing]
  rwa [Multiset.map_coe, Multiset.sum_coe] at hsum

/-! ## Erasing -/

theorem worthAt_erase (column : Column κ ν) (key other : κ) :
    worthAt worth (column.erase key) other =
      if other = key then 0 else worthAt worth column other := by
  by_cases hother : other = key
  · subst hother
    simp [worthAt]
  · simp [worthAt, hother, Finmap.lookup_erase_ne hother]

theorem holdings_erase (worth : ν → Nat) (column : Column κ ν) (key : κ) :
    holdings worth (column.erase key) + worthAt worth column key = holdings worth column := by
  have herased : (column.erase key).keys ⊆ insert key column.keys := by
    intro other hother
    rw [Finmap.mem_keys, Finmap.mem_erase] at hother
    exact Finset.mem_insert_of_mem (Finmap.mem_keys.mpr hother.2)
  rw [holdings_eq_sum herased, holdings_eq_sum (Finset.subset_insert key column.keys)]
  simp only [worthAt_erase]
  rw [← Finset.sum_erase_add _ _ (Finset.mem_insert_self key column.keys),
    ← Finset.sum_erase_add _ _ (Finset.mem_insert_self key column.keys), if_pos rfl,
    Nat.add_zero]
  congr 1
  apply Finset.sum_congr rfl
  intro other hother
  rw [if_neg (Finset.ne_of_mem_erase hother)]

theorem worthAt_erase_of_ne {other : κ} (hother : other ≠ key) :
    worthAt worth (column.erase key) other = worthAt worth column other := by
  rw [worthAt_erase, if_neg hother]

theorem holdings_eraseAll (worth : ν → Nat) {keys : List κ} (hdistinct : keys.Nodup)
    (column : Column κ ν) :
    holdings worth (Journal.eraseAll keys column) + total (worthAt worth column) keys =
      holdings worth column := by
  induction keys generalizing column with
  | nil => rfl
  | cons key keys ih =>
      obtain ⟨hkey, hrest⟩ := List.nodup_cons.mp hdistinct
      have hsame : total (worthAt worth (column.erase key)) keys =
          total (worthAt worth column) keys :=
        total_congr fun other hother => worthAt_erase_of_ne fun heq => hkey (heq ▸ hother)
      have herase := holdings_erase worth column key
      have htail := ih hrest (column.erase key)
      rw [hsame] at htail
      change holdings worth (Journal.eraseAll keys (column.erase key)) + _ = _
      rw [total_cons]
      omega

theorem holdings_eraseAll_le (worth : ν → Nat) (keys : List κ) (column : Column κ ν) :
    holdings worth (Journal.eraseAll keys column) ≤ holdings worth column := by
  induction keys generalizing column with
  | nil => exact Nat.le_refl _
  | cons key keys ih =>
      have herase := holdings_erase worth column key
      have htail := ih (column.erase key)
      change holdings worth (Journal.eraseAll keys (column.erase key)) ≤ _
      omega

/-! ## Inserting -/

theorem holdings_insert (worth : ν → Nat) (column : Column κ ν) (key : κ) (value : ν) :
    holdings worth (column.insert key value) =
      holdings worth (column.erase key) + worth value := by
  rw [← holdings_erase worth (column.insert key value) key,
    worthAt_of_lookup (Finmap.lookup_insert column)]
  congr 2
  refine Finmap.ext_lookup fun other => ?_
  by_cases hother : other = key
  · rw [hother, Finmap.lookup_erase, Finmap.lookup_erase]
  · rw [Finmap.lookup_erase_ne hother, Finmap.lookup_erase_ne hother,
      Finmap.lookup_insert_of_ne _ hother]

theorem holdings_insertAll_le (worth : ν → Nat) (rows : List (κ × ν)) (column : Column κ ν) :
    holdings worth (Journal.insertAll rows column) ≤
      holdings worth column + total (fun row => worth row.2) rows := by
  induction rows generalizing column with
  | nil => exact Nat.le_refl _
  | cons row rows ih =>
      have hinsert := holdings_insert worth column row.1 row.2
      have herase := holdings_erase worth column row.1
      have htail := ih (column.insert row.1 row.2)
      change holdings worth (Journal.insertAll rows (column.insert row.1 row.2)) ≤ _
      rw [total_cons]
      omega

end Doli.Lib
