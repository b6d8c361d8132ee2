import Mathlib.Algebra.BigOperators.Group.List.Basic
import Mathlib.Algebra.GroupWithZero.Nat
import Mathlib.Algebra.Order.BigOperators.Group.List
import Mathlib.Data.List.GetD

/-!
# The worth of a list

What the items of a list are worth together, where every item has a worth of its own.
-/

namespace Doli.Lib

variable {α : Type}

def total (worth : α → Nat) (items : List α) : Nat :=
  (items.map worth).sum

variable {worth other : α → Nat} {item : α} {items : List α}

@[simp] theorem total_nil : total worth [] = 0 := rfl

@[simp] theorem total_cons : total worth (item :: items) = worth item + total worth items := by
  simp [total]

@[simp] theorem total_append (front rest : List α) :
    total worth (front ++ rest) = total worth front + total worth rest := by
  simp [total]

theorem total_add : total (fun item => worth item + other item) items =
    total worth items + total other items := by
  simp [total, List.sum_map_add]

theorem total_congr (hsame : ∀ item ∈ items, worth item = other item) :
    total worth items = total other items := by
  unfold total
  rw [List.map_congr_left hsame]

theorem total_eq_zero (hnone : ∀ item ∈ items, worth item = 0) : total worth items = 0 := by
  rw [total_congr hnone]
  simp [total]

theorem total_filterMap {β : Type} (worth : β → Nat) (pick : α → Option β) (items : List α) :
    total worth (items.filterMap pick) = total (fun item => (pick item).elim 0 worth) items := by
  induction items with
  | nil => rfl
  | cons item items ih =>
      cases hpick : pick item with
      | none => simp [hpick, ih]
      | some value => simp [hpick, ih]

theorem total_filter (keep : α → Bool) :
    total worth (items.filter keep) = total (fun item => if keep item then worth item else 0) items := by
  induction items with
  | nil => rfl
  | cons item items ih =>
      cases hkeep : keep item with
      | false => simp [hkeep, ih]
      | true => simp [hkeep, ih]

theorem total_le_total (hle : ∀ item ∈ items, worth item ≤ other item) :
    total worth items ≤ total other items := by
  induction items with
  | nil => exact Nat.le_refl _
  | cons item items ih =>
      have hhead := hle item List.mem_cons_self
      have htail := ih fun next hnext => hle next (List.mem_cons_of_mem _ hnext)
      rw [total_cons, total_cons]
      omega

theorem le_total_of_mem (hitem : item ∈ items) : worth item ≤ total worth items := by
  induction hitem with
  | head rest =>
      rw [total_cons]
      exact Nat.le_add_right _ _
  | tail first _ ih =>
      rw [total_cons]
      exact ih.trans (Nat.le_add_left _ _)

theorem total_mul (factor : Nat) (worth : α → Nat) (items : List α) :
    total (fun item => factor * worth item) items = factor * total worth items := by
  induction items with
  | nil => rfl
  | cons item items ih => rw [total_cons, total_cons, ih, Nat.mul_add]

theorem total_filter_le (worth : α → Nat) (keep : α → Bool) (items : List α) :
    total worth (items.filter keep) ≤ total worth items := by
  rw [total_filter]
  apply total_le_total
  intro item _
  split
  · exact Nat.le_refl _
  · exact Nat.zero_le _

theorem total_div_le (worth : α → Nat) (divisor : Nat) (items : List α) :
    total (fun item => worth item / divisor) items ≤ total worth items / divisor := by
  induction items with
  | nil => exact Nat.zero_le _
  | cons item items ih =>
      rw [total_cons, total_cons]
      exact (Nat.add_le_add_left ih _).trans Nat.div_add_div_le_add_div

end Doli.Lib
