import Mathlib.Data.List.Sort

/-!
# Sorting and cutting

What sorts as one list sorts piece by piece, where each piece stands before the next:
a stable sort by a number is its buckets, and an order that a cut respects sorts either side.
The leaders of a list are the first few of it in an order: as many as asked, each at most
once, and none of those left out is ahead of one of them.
-/

namespace Doli.Lib

variable {α : Type}

/-! ## Buckets -/

section Buckets

variable (key : α → Nat)

def keyLe (left right : α) : Prop := key left ≤ key right

instance : DecidableRel (keyLe key) := fun left right =>
  inferInstanceAs (Decidable (key left ≤ key right))

variable {key}

theorem orderedInsert_append {item : α} {before after : List α}
    (hbefore : ∀ other ∈ before, key other < key item)
    (hafter : ∀ other ∈ after, key item ≤ key other) :
    (before ++ after).orderedInsert (keyLe key) item = before ++ item :: after := by
  induction before with
  | nil =>
      cases after with
      | nil => rfl
      | cons other after =>
          exact List.orderedInsert_cons_of_le _ after (hafter other List.mem_cons_self)
  | cons other before ih =>
      have hless : ¬ keyLe key item other :=
        Nat.not_le.mpr (hbefore other List.mem_cons_self)
      rw [List.cons_append, List.orderedInsert_of_not_le _ _ hless,
        ih fun held hheld => hbefore held (List.mem_cons_of_mem _ hheld)]
      rfl

/-- The items of each key, in the order in which they stand. -/
def bucketsFrom (key : α → Nat) (items : List α) (start count : Nat) : List α :=
  (List.range' start count).flatMap fun number => items.filter (key · = number)

theorem mem_bucketsFrom {items : List α} {start count : Nat} {item : α}
    (hmem : item ∈ bucketsFrom key items start count) :
    start ≤ key item ∧ key item < start + count := by
  obtain ⟨number, hnumber, hitem⟩ := List.mem_flatMap.mp hmem
  rw [List.mem_filter, decide_eq_true_eq] at hitem
  rw [List.mem_range'_1] at hnumber
  rwa [hitem.2]

theorem bucketsFrom_append (items : List α) (start first second : Nat) :
    bucketsFrom key items start (first + second) =
      bucketsFrom key items start first ++ bucketsFrom key items (start + first) second := by
  unfold bucketsFrom
  rw [← List.flatMap_append, List.range'_append_1]

theorem bucketsFrom_cons_of_ne {item : α} {items : List α} {start count : Nat}
    (hout : key item < start ∨ start + count ≤ key item) :
    bucketsFrom key (item :: items) start count = bucketsFrom key items start count := by
  unfold bucketsFrom
  apply List.flatMap_congr
  intro number hnumber
  rw [List.mem_range'_1] at hnumber
  exact List.filter_cons_of_neg (by rw [decide_eq_true_eq]; omega)

theorem insertionSort_eq_bucketsFrom {items : List α} {count : Nat}
    (hcount : ∀ item ∈ items, key item < count) :
    items.insertionSort (keyLe key) = bucketsFrom key items 0 count := by
  induction items with
  | nil => simp [bucketsFrom]
  | cons item items ih =>
      have hitem := hcount item List.mem_cons_self
      have hcut : count = key item + (1 + (count - key item - 1)) := by omega
      have hone : bucketsFrom key (item :: items) (0 + key item) 1 =
          item :: bucketsFrom key items (0 + key item) 1 := by
        simp [bucketsFrom]
      rw [List.insertionSort_cons, ih fun held hheld => hcount held (List.mem_cons_of_mem _ hheld),
        hcut, bucketsFrom_append, bucketsFrom_append, bucketsFrom_append, bucketsFrom_append, hone,
        bucketsFrom_cons_of_ne (.inr (by omega)), bucketsFrom_cons_of_ne (.inl (by omega))]
      apply orderedInsert_append
      · intro other hother
        have hrange := mem_bucketsFrom hother
        omega
      · intro other hother
        rcases List.mem_append.mp hother with hother | hother
        · have hrange := mem_bucketsFrom hother
          omega
        · have hrange := mem_bucketsFrom hother
          omega

end Buckets

/-! ## Cuts -/

section Cut

variable {le : α → α → Prop} [DecidableRel le] [Std.Total le] [IsTrans α le]
  [Std.Antisymm le]

theorem insertionSort_eq_of_perm {first second : List α} (hperm : first.Perm second) :
    first.insertionSort le = second.insertionSort le := by
  have hsame : (first.insertionSort le).Perm (second.insertionSort le) :=
    (List.perm_insertionSort le first).trans
      (hperm.trans (List.perm_insertionSort le second).symm)
  exact hsame.eq_of_pairwise' (List.pairwise_insertionSort le first)
    (List.pairwise_insertionSort le second)

/-- Where everything that passes stands before everything else, the two sides are sorted
apart. -/
theorem insertionSort_cut (keep : α → Bool) {items : List α}
    (hcut : ∀ first ∈ items, ∀ second ∈ items, keep first = true → keep second = false →
      le first second) :
    items.insertionSort le = (items.filter keep).insertionSort le ++
      (items.filter (!keep ·)).insertionSort le := by
  have hperm : (items.insertionSort le).Perm ((items.filter keep).insertionSort le ++
      (items.filter (!keep ·)).insertionSort le) :=
    (List.perm_insertionSort le items).trans
      ((List.filter_append_perm keep items).symm.trans
        (((List.perm_insertionSort le _).symm).append (List.perm_insertionSort le _).symm))
  refine hperm.eq_of_pairwise' (List.pairwise_insertionSort le items) ?_
  refine List.pairwise_append.mpr ⟨List.pairwise_insertionSort le _,
    List.pairwise_insertionSort le _, ?_⟩
  intro first hfirst second hsecond
  rw [List.mem_insertionSort, List.mem_filter] at hfirst hsecond
  exact hcut first hfirst.1 second hsecond.1 hfirst.2 (by simpa using hsecond.2)

end Cut

/-! ## The leaders of a list -/

section

variable (r : α → α → Prop)

/-- `chosen` are the `count` leaders of `candidates`, in order. -/
structure Leads (candidates chosen : List α) (count : Nat) : Prop where
  nodup : chosen.Nodup
  candidate : ∀ leader ∈ chosen, leader ∈ candidates
  count : chosen.length = count
  ordered : chosen.Pairwise r
  ahead : ∀ leader ∈ chosen, ∀ other ∈ candidates, other ∉ chosen → r leader other

variable [DecidableRel r] [Std.Total r] [IsTrans α r]

theorem leads_take_insertionSort {candidates : List α} (hnodup : candidates.Nodup)
    {count : Nat} (hcount : count ≤ candidates.length) :
    Leads r candidates ((candidates.insertionSort r).take count) count := by
  have hperm := List.perm_insertionSort r candidates
  have hsorted : (candidates.insertionSort r).Pairwise r := List.pairwise_insertionSort r _
  constructor
  case nodup => exact (hperm.nodup_iff.mpr hnodup).sublist (List.take_sublist count _)
  case candidate => exact fun leader hleader => hperm.mem_iff.mp (List.mem_of_mem_take hleader)
  case count => rw [List.length_take, hperm.length_eq, Nat.min_eq_left hcount]
  case ordered => exact hsorted.sublist (List.take_sublist count _)
  case ahead =>
    intro leader hleader other hother hleft
    rw [← hperm.mem_iff, ← List.take_append_drop count (candidates.insertionSort r)] at hother
    rw [← List.take_append_drop count (candidates.insertionSort r)] at hsorted
    rcases List.mem_append.mp hother with htaken | hdropped
    · exact absurd htaken hleft
    · exact (List.pairwise_append.mp hsorted).2.2 leader hleader other hdropped

end

end Doli.Lib
