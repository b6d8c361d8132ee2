import Mathlib.Algebra.BigOperators.Group.Finset.Basic
import Mathlib.Algebra.BigOperators.Group.Finset.Piecewise
import Mathlib.Algebra.BigOperators.Group.Finset.Sigma
import Mathlib.Algebra.GroupWithZero.Nat

/-!
# Pledges kept at both ends

Every source may pledge an amount to one target, and each target keeps the
list of what it received.  While the lists hold exactly the pledges, nothing is
counted twice: all that is received is all that is given.
-/

namespace Doli.Lib

variable {κ : Type} [DecidableEq κ]

/-- Where a source pledges, and how much. -/
abbrev Pledges (κ : Type) := κ → Option (κ × Nat)

namespace Pledges

/-- The rows that `target` owes to `source`. -/
def rowsFrom (pledges : Pledges κ) (target source : κ) : List (κ × Nat) :=
  match pledges source with
  | some (aimed, amount) => if aimed = target then [(source, amount)] else []
  | none => []

def given (pledges : Pledges κ) (source : κ) : Nat :=
  (pledges source).elim 0 Prod.snd

def withdraw (pledges : Pledges κ) (source : κ) : Pledges κ :=
  Function.update pledges source none

def pledge (pledges : Pledges κ) (source target : κ) (amount : Nat) : Pledges κ :=
  Function.update pledges source (some (target, amount))

/-- Drop the pledges from `key` and those to it. -/
def isolate (pledges : Pledges κ) (key : κ) : Pledges κ := fun source =>
  if source = key ∨ (pledges source).map Prod.fst = some key then none
  else pledges source

/-- `rows` is what `target` received. -/
def Received (pledges : Pledges κ) (target : κ) (rows : List (κ × Nat)) : Prop :=
  ∀ source, (rows.filter fun row => row.1 = source) = pledges.rowsFrom target source

variable {pledges : Pledges κ} {target source key : κ} {rows : List (κ × Nat)}

theorem rowsFrom_eq_nil (haim : (pledges source).map Prod.fst ≠ some target) :
    pledges.rowsFrom target source = [] := by
  unfold rowsFrom
  cases hpledge : pledges source with
  | none => rfl
  | some pledged =>
      simp only [hpledge, Option.map_some, ne_eq, Option.some.injEq] at haim
      simp [haim]

theorem rowsFrom_of_none (hnone : pledges source = none) :
    pledges.rowsFrom target source = [] := by
  simp [rowsFrom, hnone]

theorem rowsFrom_congr {other : Pledges κ} (hsame : other source = pledges source) :
    other.rowsFrom target source = pledges.rowsFrom target source := by
  simp [rowsFrom, hsame]

namespace Received

theorem mem_keys_iff (hreceived : pledges.Received target rows) :
    source ∈ rows.map Prod.fst ↔ (pledges source).map Prod.fst = some target := by
  constructor
  · intro hmem
    obtain ⟨row, hrow, rfl⟩ := List.mem_map.mp hmem
    by_contra haim
    have hnil := hreceived row.1
    rw [rowsFrom_eq_nil haim] at hnil
    have hin : row ∈ rows.filter fun other => other.1 = row.1 := by simp [hrow]
    rw [hnil] at hin
    exact List.not_mem_nil hin
  · intro haim
    have hrows := hreceived source
    cases hpledge : pledges source with
    | none => simp [hpledge] at haim
    | some pledged =>
        simp only [hpledge, Option.map_some, Option.some.injEq] at haim
        simp only [rowsFrom, hpledge, haim, if_true] at hrows
        have hin : (source, pledged.2) ∈ rows.filter fun row => row.1 = source := by
          rw [hrows]
          simp
        exact List.mem_map.mpr ⟨_, (List.mem_filter.mp hin).1, rfl⟩

theorem filter_eq_singleton_iff (hreceived : pledges.Received target rows)
    {amount : Nat} :
    (rows.filter fun row => row.1 = source) = [(source, amount)] ↔
      pledges source = some (target, amount) := by
  rw [hreceived source]
  unfold rowsFrom
  cases pledges source with
  | none => simp
  | some pledged =>
      by_cases haim : pledged.1 = target
      · simp [haim, Prod.ext_iff]
      · simp [haim, Prod.ext_iff]

theorem filter_ne_eq (hreceived : pledges.Received target rows)
    (haim : (pledges source).map Prod.fst ≠ some target) :
    (rows.filter fun row => row.1 ≠ source) = rows := by
  refine List.filter_eq_self.mpr fun row hrow => ?_
  simp only [ne_eq, decide_not, Bool.not_eq_eq_eq_not, Bool.not_true,
    decide_eq_false_iff_not]
  rintro rfl
  exact haim ((mem_keys_iff hreceived).mp (List.mem_map_of_mem hrow))

theorem filter_filter (rows : List (κ × Nat)) (key source : κ) :
    ((rows.filter fun row => row.1 ≠ key).filter fun row => row.1 = source) =
      if source = key then [] else rows.filter fun row => row.1 = source := by
  rw [List.filter_filter]
  split
  case isTrue hkey =>
    subst hkey
    refine List.filter_eq_nil_iff.mpr fun row _ => ?_
    simp
  case isFalse hkey =>
    refine List.filter_congr fun row _ => ?_
    by_cases hrow : row.1 = source
    · simp [hrow, hkey]
    · simp [hrow]

theorem withdraw (hreceived : pledges.Received target rows) (source : κ) :
    (pledges.withdraw source).Received target
      (rows.filter fun row => row.1 ≠ source) := by
  intro other
  rw [filter_filter]
  split
  case isTrue hother =>
    subst hother
    exact (rowsFrom_of_none (by simp [Pledges.withdraw])).symm
  case isFalse hother =>
    rw [hreceived other]
    exact (rowsFrom_congr (by simp [Pledges.withdraw, hother])).symm

theorem pledge_self (hreceived : pledges.Received target rows)
    (hnone : pledges source = none) (amount : Nat) :
    (pledges.pledge source target amount).Received target
      (rows ++ [(source, amount)]) := by
  intro other
  rw [List.filter_append, hreceived other]
  by_cases hother : other = source
  · subst hother
    simp [hnone, rowsFrom, Pledges.pledge]
  · have hne : source ≠ other := fun heq => hother heq.symm
    simp [rowsFrom, Pledges.pledge, hother, hne]

theorem pledge_ne (hreceived : pledges.Received key rows)
    (hnone : pledges source = none) (hne : key ≠ target) (amount : Nat) :
    (pledges.pledge source target amount).Received key rows := by
  intro other
  rw [hreceived other]
  by_cases hother : other = source
  · subst hother
    have haim : target ≠ key := fun heq => hne heq.symm
    simp [hnone, rowsFrom, Pledges.pledge, haim]
  · exact (rowsFrom_congr (by simp [Pledges.pledge, hother])).symm

theorem isolate_ne (hreceived : pledges.Received target rows) (hne : target ≠ key) :
    (pledges.isolate key).Received target
      (rows.filter fun row => row.1 ≠ key) := by
  intro other
  rw [filter_filter]
  split
  case isTrue hother =>
    exact (rowsFrom_of_none (by simp [isolate, hother])).symm
  case isFalse hother =>
    rw [hreceived other]
    by_cases haim : (pledges other).map Prod.fst = some key
    · rw [rowsFrom_eq_nil, rowsFrom_of_none]
      · simp [isolate, haim]
      · rw [haim]
        exact fun heq => hne (Option.some.inj heq).symm
    · exact (rowsFrom_congr (by simp [isolate, hother, haim])).symm

theorem isolate_self (pledges : Pledges κ) (key : κ) :
    (pledges.isolate key).Received key [] := by
  intro other
  refine (rowsFrom_eq_nil ?_).symm
  unfold isolate
  split
  · simp
  case isFalse hkeep =>
    exact fun haim => hkeep (.inr haim)

theorem sum_snd (keys : Finset κ) (hkeys : ∀ row ∈ rows, row.1 ∈ keys) :
    (rows.map Prod.snd).sum =
      ∑ source ∈ keys, ((rows.filter fun row => row.1 = source).map Prod.snd).sum := by
  induction rows with
  | nil => simp
  | cons row rows ih =>
      have hrest := ih fun other hother => hkeys other (List.mem_cons_of_mem _ hother)
      have hsplit : ∀ source,
          (((row :: rows).filter fun other => other.1 = source).map Prod.snd).sum =
            (if row.1 = source then row.2 else 0) +
              ((rows.filter fun other => other.1 = source).map Prod.snd).sum := by
        intro source
        by_cases hsource : row.1 = source
        · simp [hsource]
        · simp [hsource]
      simp only [hsplit, Finset.sum_add_distrib, List.map_cons, List.sum_cons, hrest]
      rw [Finset.sum_ite_eq, if_pos (hkeys row List.mem_cons_self)]

end Received

theorem sum_received (keys : Finset κ) (rows : κ → List (κ × Nat))
    (hreceived : ∀ target ∈ keys, pledges.Received target (rows target))
    (hsource : ∀ source, (pledges source).isSome → source ∈ keys)
    (htarget : ∀ source target, (pledges source).map Prod.fst = some target →
      target ∈ keys) :
    ∑ target ∈ keys, ((rows target).map Prod.snd).sum =
      ∑ source ∈ keys, pledges.given source := by
  have hrows : ∀ target ∈ keys, ((rows target).map Prod.snd).sum =
      ∑ source ∈ keys, ((pledges.rowsFrom target source).map Prod.snd).sum := by
    intro target hkey
    rw [Received.sum_snd keys]
    · exact Finset.sum_congr rfl fun source _ => by rw [hreceived target hkey source]
    · intro row hrow
      refine hsource row.1 ?_
      have haim := (hreceived target hkey).mem_keys_iff.mp (List.mem_map_of_mem hrow)
      cases hpledge : pledges row.1 with
      | none => simp [hpledge] at haim
      | some pledged => rfl
  rw [Finset.sum_congr rfl hrows, Finset.sum_comm]
  refine Finset.sum_congr rfl fun source _ => ?_
  cases hpledge : pledges source with
  | none => simp [rowsFrom, given, hpledge]
  | some pledged =>
      have hin : pledged.1 ∈ keys := htarget source pledged.1 (by simp [hpledge])
      have hterm : ∀ target,
          ((pledges.rowsFrom target source).map Prod.snd).sum =
            if pledged.1 = target then pledged.2 else 0 := by
        intro target
        simp only [rowsFrom, hpledge]
        split <;> simp
      simp only [hterm, Finset.sum_ite_eq, given, hpledge, Option.elim_some]
      rw [if_pos hin]

end Pledges

end Doli.Lib
