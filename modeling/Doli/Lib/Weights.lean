import Mathlib.Algebra.BigOperators.Group.List.Basic
import Mathlib.Algebra.GroupWithZero.Nat
import Mathlib.Data.List.Sort
import Mathlib.Order.Basic

/-!
# Weighted rows

What the rows of a list weigh together and by a test of their values, and lists of given
values in which two of the rows have a weight of their own.  The weighted median is the value
at which the weights of an ordered list first reach a threshold.  It does not depend on the
order of equal values, and with half the weight as the threshold a majority keeps it between
any bounds that the majority keeps.
-/

namespace Doli.Lib

section

variable {α : Type}

def totalWeight (rows : List (α × Nat)) : Nat := (rows.map Prod.snd).sum

def weightWhere (rows : List (α × Nat)) (test : α → Prop) [DecidablePred test] : Nat :=
  totalWeight (rows.filter fun row => test row.1)

variable {rows others : List (α × Nat)} {test other : α → Prop} [DecidablePred test]
  [DecidablePred other]

theorem totalWeight_cons (row : α × Nat) (rows : List (α × Nat)) :
    totalWeight (row :: rows) = row.2 + totalWeight rows := rfl

theorem weightWhere_cons (row : α × Nat) (rows : List (α × Nat)) :
    weightWhere (row :: rows) test = (if test row.1 then row.2 else 0) + weightWhere rows test := by
  unfold weightWhere
  rw [List.filter_cons]
  by_cases hrow : test row.1
  · rw [if_pos (decide_eq_true hrow), if_pos hrow, totalWeight_cons]
  · rw [if_neg (by simpa using hrow), if_neg hrow, Nat.zero_add]

theorem totalWeight_perm (hperm : rows.Perm others) : totalWeight rows = totalWeight others :=
  (hperm.map Prod.snd).sum_eq

theorem weightWhere_perm (hperm : rows.Perm others) :
    weightWhere rows test = weightWhere others test :=
  totalWeight_perm (hperm.filter _)

theorem weightWhere_mono (hmono : ∀ value, test value → other value) :
    weightWhere rows test ≤ weightWhere rows other := by
  induction rows with
  | nil => exact Nat.le_refl _
  | cons row rows ih =>
      rw [weightWhere_cons, weightWhere_cons]
      have hrow := hmono row.1
      split_ifs with hfirst hsecond
      · omega
      · exact absurd (hrow hfirst) hsecond
      · omega
      · omega

theorem weightWhere_add_le (hapart : ∀ value, test value → ¬other value) :
    weightWhere rows test + weightWhere rows other ≤ totalWeight rows := by
  induction rows with
  | nil => exact Nat.le_refl _
  | cons row rows ih =>
      rw [weightWhere_cons, weightWhere_cons, totalWeight_cons]
      have hrow := hapart row.1
      split_ifs with hfirst hsecond
      · exact absurd hsecond (hrow hfirst)
      · omega
      · omega
      · omega

theorem weightWhere_le : weightWhere rows test ≤ totalWeight rows := by
  have hall : weightWhere rows test + weightWhere rows (fun _ => False) ≤ totalWeight rows :=
    weightWhere_add_le fun _ _ => id
  omega

theorem weightWhere_eq_zero (hnone : ∀ row ∈ rows, ¬test row.1) : weightWhere rows test = 0 := by
  have hempty : rows.filter (fun row => test row.1) = [] := by
    rw [List.filter_eq_nil_iff]
    intro row hrow
    simpa using hnone row hrow
  rw [weightWhere, hempty]
  rfl

theorem weightWhere_congr (hsame : ∀ row ∈ rows, test row.1 ↔ other row.1) :
    weightWhere rows test = weightWhere rows other := by
  unfold weightWhere
  rw [List.filter_congr fun row hrow => decide_eq_decide.mpr (hsame row hrow)]

theorem countP_le_weightWhere (hpositive : ∀ row ∈ rows, test row.1 → 0 < row.2) :
    (rows.map Prod.fst).countP (fun value => test value) ≤ weightWhere rows test := by
  induction rows with
  | nil => exact Nat.le_refl _
  | cons row rows ih =>
      have hrest := ih fun next hnext => hpositive next (List.mem_cons_of_mem row hnext)
      have hfirst := hpositive row List.mem_cons_self
      rw [List.map_cons, List.countP_cons, weightWhere_cons]
      simp only [decide_eq_true_eq]
      split
      case isTrue hpasses =>
        have hrow := hfirst hpasses
        omega
      case isFalse => omega

end

/-! ## Given values -/

section

variable {α : Type} [DecidableEq α] {rows : List (α × Nat)} {value : α} {weight : Nat}

def withFirst (value : α) (weight : Nat) : List (α × Nat) → List (α × Nat)
  | [] => []
  | row :: rows =>
      if row.1 = value then (value, weight) :: rows else row :: withFirst value weight rows

theorem values_withFirst : (withFirst value weight rows).map Prod.fst = rows.map Prod.fst := by
  induction rows with
  | nil => rfl
  | cons row rows ih =>
      unfold withFirst
      split
      case isTrue hvalue => rw [List.map_cons, List.map_cons, hvalue]
      case isFalse => rw [List.map_cons, List.map_cons, ih]

theorem mem_withFirst {row : α × Nat} (hrow : row ∈ withFirst value weight rows) :
    row ∈ rows ∨ row = (value, weight) := by
  induction rows with
  | nil => cases hrow
  | cons next rows ih =>
      unfold withFirst at hrow
      split at hrow
      · rcases List.mem_cons.mp hrow with hhere | hrest
        · exact .inr hhere
        · exact .inl (List.mem_cons_of_mem next hrest)
      · rcases List.mem_cons.mp hrow with rfl | hrest
        · exact .inl List.mem_cons_self
        · exact (ih hrest).imp (List.mem_cons_of_mem next) id

theorem weightWhere_withFirst (hmem : value ∈ rows.map Prod.fst)
    (hone : ∀ row ∈ rows, row.1 = value → row.2 = 1) (test : α → Prop) [DecidablePred test] :
    weightWhere (withFirst value weight rows) test + (if test value then 1 else 0) =
      weightWhere rows test + if test value then weight else 0 := by
  induction rows with
  | nil => cases hmem
  | cons row rows ih =>
      have hfirst := hone row List.mem_cons_self
      unfold withFirst
      split
      case isTrue hvalue =>
        rw [weightWhere_cons, weightWhere_cons, hvalue, hfirst hvalue]
        dsimp only
        omega
      case isFalse hother =>
        have hrest := ih ((List.mem_cons.mp hmem).resolve_left (Ne.symm hother))
          fun next hnext => hone next (List.mem_cons_of_mem row hnext)
        rw [weightWhere_cons, weightWhere_cons]
        omega

theorem exists_weights {values : List α} {first second : α} (hfirst : first ∈ values)
    (hsecond : second ∈ values) (hne : first ≠ second) (x y : Nat) :
    ∃ rows : List (α × Nat), rows.map Prod.fst = values ∧
      (∀ row ∈ rows, row.2 = 1 ∨ row.2 = x ∨ row.2 = y) ∧
        ∀ (test : α → Prop) [DecidablePred test],
          weightWhere rows test + (if test first then 1 else 0) +
              (if test second then 1 else 0) =
            values.countP (fun value => test value) + (if test first then x else 0) +
              if test second then y else 0 := by
  let ones := values.map fun value => (value, 1)
  have hvalues : ones.map Prod.fst = values := by
    rw [List.map_map]
    exact List.map_id _
  have hones : ∀ row ∈ ones, row.2 = 1 := by
    intro row hrow
    obtain ⟨value, -, rfl⟩ := List.mem_map.mp hrow
    rfl
  have hcount : ∀ (test : α → Prop) [DecidablePred test],
      weightWhere ones test = values.countP fun value => test value := by
    intro test _
    change weightWhere (values.map fun value => (value, 1)) test = _
    clear hvalues hones hfirst hsecond
    induction values with
    | nil => rfl
    | cons value values ih =>
        rw [List.map_cons, weightWhere_cons, ih, List.countP_cons, Nat.add_comm]
        simp only [decide_eq_true_eq]
  have hkept : ∀ row ∈ withFirst first x ones, row.1 = second → row.2 = 1 := by
    intro row hrow hvalue
    rcases mem_withFirst hrow with hold | rfl
    · exact hones row hold
    · exact absurd hvalue hne
  refine ⟨withFirst second y (withFirst first x ones), ?_, ?_, ?_⟩
  · rw [values_withFirst, values_withFirst, hvalues]
  · intro row hrow
    rcases mem_withFirst hrow with hrest | rfl
    · rcases mem_withFirst hrest with hold | rfl
      · exact .inl (hones row hold)
      · exact .inr (.inl rfl)
    · exact .inr (.inr rfl)
  · intro test _
    have hinner := @weightWhere_withFirst α _ ones first x (by rwa [hvalues])
      (fun row hrow _ => hones row hrow) test _
    have houter := @weightWhere_withFirst α _ (withFirst first x ones) second y
      (by rwa [values_withFirst, hvalues]) hkept test _
    rw [hcount test] at hinner
    omega

end

/-! ## Weighted medians -/

section

variable {α : Type}

/-- The first value up to which the weights reach the threshold. -/
def crossing (threshold : Nat) : List (α × Nat) → Nat → Option α
  | [], _ => none
  | (value, weight) :: rows, reached =>
      if threshold ≤ reached + weight then some value
      else crossing threshold rows (reached + weight)

theorem exists_crossing {threshold : Nat} {rows : List (α × Nat)} {reached : Nat}
    (hopen : reached < threshold) (henough : threshold ≤ reached + totalWeight rows) :
    ∃ value, crossing threshold rows reached = some value := by
  induction rows generalizing reached with
  | nil =>
      rw [totalWeight, List.map_nil, List.sum_nil] at henough
      omega
  | cons row rows ih =>
      rw [totalWeight_cons] at henough
      unfold crossing
      split
      · exact ⟨row.1, rfl⟩
      · exact ih (by omega) (by omega)

theorem mem_of_crossing {threshold : Nat} {rows : List (α × Nat)} {reached : Nat} {value : α}
    (hcrossing : crossing threshold rows reached = some value) :
    ∃ row ∈ rows, row.1 = value := by
  induction rows generalizing reached with
  | nil => contradiction
  | cons row rows ih =>
      unfold crossing at hcrossing
      split at hcrossing
      · exact ⟨row, List.mem_cons_self, Option.some.inj hcrossing⟩
      · obtain ⟨found, hfound, hvalue⟩ := ih hcrossing
        exact ⟨found, List.mem_cons_of_mem row hfound, hvalue⟩

end

/-! ## Where the threshold is crossed -/

section

variable {α : Type} [LinearOrder α]

/-- What lies below the value misses the threshold, what lies up to it reaches it. -/
structure Crosses (rows : List (α × Nat)) (threshold : Nat) (value : α) : Prop where
  below : weightWhere rows (· < value) < threshold
  upTo : threshold ≤ weightWhere rows (· ≤ value)

variable {rows others : List (α × Nat)} {threshold : Nat} {value : α}

theorem Crosses.perm (hcrosses : Crosses rows threshold value) (hperm : rows.Perm others) :
    Crosses others threshold value := by
  constructor
  · rw [← weightWhere_perm hperm]
    exact hcrosses.below
  · rw [← weightWhere_perm hperm]
    exact hcrosses.upTo

theorem crosses_from {reached : Nat} (hsorted : rows.Pairwise fun row next => row.1 ≤ next.1)
    (hopen : reached < threshold) (hcrossing : crossing threshold rows reached = some value) :
    reached + weightWhere rows (· < value) < threshold ∧
      threshold ≤ reached + weightWhere rows (· ≤ value) := by
  induction rows generalizing reached with
  | nil => contradiction
  | cons row rows ih =>
      obtain ⟨hfirst, hrest⟩ := List.pairwise_cons.mp hsorted
      unfold crossing at hcrossing
      split at hcrossing
      case isTrue hreached =>
        obtain rfl : row.1 = value := Option.some.inj hcrossing
        have hnone : weightWhere rows (· < row.1) = 0 :=
          weightWhere_eq_zero fun next hnext => (hfirst next hnext).not_gt
        rw [weightWhere_cons, weightWhere_cons, if_neg (lt_irrefl row.1),
          if_pos (le_refl row.1), hnone]
        omega
      case isFalse hmissed =>
        obtain ⟨next, hnext, hvalue⟩ := mem_of_crossing hcrossing
        have hle : row.1 ≤ value := hvalue ▸ hfirst next hnext
        obtain ⟨hbelow, hupTo⟩ := ih hrest (Nat.not_le.mp hmissed) hcrossing
        rw [weightWhere_cons, weightWhere_cons, if_pos hle]
        split <;> omega

theorem crosses_of_crossing (hsorted : rows.Pairwise fun row next => row.1 ≤ next.1)
    (hopen : 0 < threshold) (hcrossing : crossing threshold rows 0 = some value) :
    Crosses rows threshold value := by
  obtain ⟨hbelow, hupTo⟩ := crosses_from hsorted hopen hcrossing
  rw [Nat.zero_add] at hbelow hupTo
  exact ⟨hbelow, hupTo⟩

theorem Crosses.between {low high : α}
    (hcrosses : Crosses rows ((totalWeight rows + 1) / 2) value)
    (hmajority : totalWeight rows < 2 * weightWhere rows fun item => low ≤ item ∧ item ≤ high) :
    low ≤ value ∧ value ≤ high := by
  have hbelow := hcrosses.below
  have hupTo := hcrosses.upTo
  constructor
  · by_contra hlow
    have hapart : weightWhere rows (· ≤ value) +
        weightWhere rows (fun item => low ≤ item ∧ item ≤ high) ≤ totalWeight rows :=
      weightWhere_add_le fun item hle hbounds =>
        hlow (hbounds.1.trans hle)
    omega
  · by_contra hhigh
    have hinside : weightWhere rows (fun item => low ≤ item ∧ item ≤ high) ≤
        weightWhere rows (· < value) :=
      weightWhere_mono fun item hbounds => hbounds.2.trans_lt (not_le.mp hhigh)
    omega

end

end Doli.Lib
