import Mathlib.Data.List.Nodup

/-!
# Changing the first match

A search that changes what it finds.  The change shows in a filter at most at the key that was
searched for, where no two items have one key.
-/

namespace Doli.Lib

variable {α κ : Type} {found : α → Bool} {change : α → α} {key : α → κ} {item : α}
  {items : List α}

def changeFirst (found : α → Bool) (change : α → α) : List α → List α
  | [] => []
  | item :: items =>
      if found item then change item :: items else item :: changeFirst found change items

theorem map_changeFirst (hkeeps : ∀ item, key (change item) = key item) (items : List α) :
    (changeFirst found change items).map key = items.map key := by
  induction items with
  | nil => rfl
  | cons item items ih =>
      unfold changeFirst
      split
      · rw [List.map_cons, List.map_cons, hkeeps]
      · rw [List.map_cons, List.map_cons, ih]

theorem forall₂_changeFirst {rel : α → α → Prop} (hrefl : ∀ item, rel item item)
    (hchange : ∀ item, found item = true → rel item (change item)) (items : List α) :
    List.Forall₂ rel items (changeFirst found change items) := by
  induction items with
  | nil => exact .nil
  | cons item items ih =>
      unfold changeFirst
      split
      case isTrue hfound =>
        exact .cons (hchange item hfound) (List.forall₂_same.mpr fun _ _ => hrefl _)
      case isFalse => exact .cons (hrefl item) ih

theorem filter_changeFirst_of_find? {keep : α → Bool} (hfind : items.find? found = some item)
    (hbefore : keep item = false) (hafter : keep (change item) = false) :
    (changeFirst found change items).filter keep = items.filter keep := by
  induction items with
  | nil => contradiction
  | cons head items ih =>
      unfold changeFirst
      split
      case isTrue hfound =>
        rw [List.find?_cons_of_pos hfound] at hfind
        obtain rfl := Option.some.inj hfind
        rw [List.filter_cons_of_neg (by simp [hafter]), List.filter_cons_of_neg (by simp [hbefore])]
      case isFalse hother =>
        rw [List.find?_cons_of_neg hother] at hfind
        rw [List.filter_cons, List.filter_cons, ih hfind]

theorem filter_changeFirst_of_drop [DecidableEq κ] {keep : α → Bool} {label : κ}
    (hnodup : (items.map key).Nodup) (hfind : items.find? found = some item)
    (hlabel : ∀ item, found item = true → key item = label)
    (hafter : ∀ item, keep (change item) = false) :
    (changeFirst found change items).filter keep =
      (items.filter keep).filter fun item => decide (key item ≠ label) := by
  induction items with
  | nil => contradiction
  | cons head items ih =>
      obtain ⟨hnew, hrest⟩ := List.nodup_cons.mp hnodup
      unfold changeFirst
      split
      case isTrue hfound =>
        have hothers : ∀ other ∈ items.filter keep, decide (key other ≠ label) = true := by
          intro other hother
          rw [decide_eq_true_eq]
          rintro rfl
          rw [hlabel head hfound] at hnew
          exact hnew (List.mem_map_of_mem (List.mem_of_mem_filter hother))
        rw [List.filter_cons_of_neg (by simp [hafter]), List.filter_cons]
        split
        · rw [List.filter_cons_of_neg (by simp [hlabel head hfound]),
            List.filter_eq_self.mpr hothers]
        · rw [List.filter_eq_self.mpr hothers]
      case isFalse hother =>
        rw [List.find?_cons_of_neg hother] at hfind
        have hkey : key head ≠ label := by
          rw [← hlabel item (List.find?_some hfind)]
          intro heq
          exact hnew (heq ▸ List.mem_map_of_mem (List.mem_of_find?_eq_some hfind))
        rw [List.filter_cons, List.filter_cons, ih hrest hfind]
        split
        · rw [List.filter_cons_of_pos (by simpa using hkey)]
        · rfl

end Doli.Lib
