import Mathlib.Algebra.BigOperators.Group.List.Basic
import Mathlib.Algebra.GroupWithZero.Nat
import Mathlib.Data.List.Basic

/-!
# Arithmetic of a word

A result that does not fit its word is reduced by one build of a program and ends the run
of another.  What holds of every sound arithmetic holds of both builds, and where every
exact result fits they compute the same.
-/

namespace Doli.Lib

/-- `fit` takes the exact result of an addition or of a product. -/
structure WordArith where
  fit : Nat → Option Nat
  sub : Nat → Nat → Option Nat

namespace WordArith

section

variable (arith : WordArith)

def add (left right : Nat) : Option Nat := arith.fit (left + right)

def mul (left right : Nat) : Option Nat := arith.fit (left * right)

def sum : List Nat → Nat → Option Nat
  | [], front => some front
  | item :: items, front => (arith.add front item).bind (sum items)

end

/-- Division by zero ends every run. -/
def divide (left right : Nat) : Option Nat :=
  if right = 0 then none else some (left / right)

theorem divide_eq_some {left right result : Nat} :
    divide left right = some result ↔ right ≠ 0 ∧ result = left / right := by
  unfold divide
  split
  case isTrue hzero => simp [hzero]
  case isFalse hpos => simp [hpos, eq_comm]

/-- Overflow wraps around. -/
def wrapping (limit : Nat) : WordArith where
  fit result := some (result % limit)
  sub left right := some ((left + (limit - right % limit)) % limit)

/-- Overflow ends the run. -/
def checked (limit : Nat) : WordArith where
  fit result := if result < limit then some result else none
  sub left right := if right ≤ left then some (left - right) else none

/-- No result is above the exact one, and an exact result that fits is the result. -/
structure Sound (limit : Nat) (arith : WordArith) : Prop where
  fit_le : ∀ {exact result}, arith.fit exact = some result → result ≤ exact
  fit_exact : ∀ {exact}, exact < limit → arith.fit exact = some exact
  sub_exact : ∀ {left right}, right ≤ left → left < limit →
    arith.sub left right = some (left - right)

theorem wrapping_sound (limit : Nat) : (wrapping limit).Sound limit where
  fit_le := by
    intro exact result hfit
    obtain rfl := Option.some.inj hfit
    exact Nat.mod_le _ _
  fit_exact := by
    intro exact hfits
    simp [wrapping, Nat.mod_eq_of_lt hfits]
  sub_exact := by
    intro left right hle hfits
    have hright : right % limit = right := Nat.mod_eq_of_lt (by omega)
    have hsum : left + (limit - right) = left - right + limit := by omega
    simp only [wrapping, hright, hsum, Nat.add_mod_right]
    rw [Nat.mod_eq_of_lt (by omega)]

theorem checked_fit {limit exact result : Nat} :
    (checked limit).fit exact = some result ↔ exact < limit ∧ result = exact := by
  simp only [checked]
  split
  case isTrue hfits => simp [hfits, eq_comm]
  case isFalse hover => simp [hover]

theorem checked_sub {limit left right result : Nat} :
    (checked limit).sub left right = some result ↔ right ≤ left ∧ result = left - right := by
  simp only [checked]
  split
  case isTrue hle => simp [hle, eq_comm]
  case isFalse hlt => simp [hlt]

theorem checked_sound (limit : Nat) : (checked limit).Sound limit where
  fit_le hfit := Nat.le_of_eq (checked_fit.mp hfit).2
  fit_exact hfits := checked_fit.mpr ⟨hfits, rfl⟩
  sub_exact hle _ := checked_sub.mpr ⟨hle, rfl⟩

section

variable {limit : Nat} {arith : WordArith}

theorem Sound.add_exact (hsound : arith.Sound limit) {left right : Nat}
    (hfits : left + right < limit) : arith.add left right = some (left + right) :=
  hsound.fit_exact hfits

theorem Sound.mul_exact (hsound : arith.Sound limit) {left right : Nat}
    (hfits : left * right < limit) : arith.mul left right = some (left * right) :=
  hsound.fit_exact hfits

theorem Sound.sum_exact (hsound : arith.Sound limit) {items : List Nat} {front : Nat}
    (hfits : front + items.sum < limit) :
    arith.sum items front = some (front + items.sum) := by
  induction items generalizing front with
  | nil => rfl
  | cons item items ih =>
      rw [List.sum_cons] at hfits
      rw [sum, hsound.add_exact (by omega), Option.bind_some, ih (by omega), List.sum_cons,
        Nat.add_assoc]

theorem checked_sum {items : List Nat} {front result : Nat} (hfront : front < limit)
    (hsum : (checked limit).sum items front = some result) :
    front + items.sum < limit ∧ result = front + items.sum := by
  induction items generalizing front with
  | nil =>
      obtain rfl := Option.some.inj hsum
      exact ⟨hfront, rfl⟩
  | cons item items ih =>
      obtain ⟨next, hnext, hrest⟩ := Option.bind_eq_some_iff.mp hsum
      obtain ⟨hfits, rfl⟩ := checked_fit.mp hnext
      rw [List.sum_cons, ← Nat.add_assoc]
      exact ih hfits hrest

end

theorem wrapping_sum {limit front : Nat} (items : List Nat) (hfront : front < limit) :
    (wrapping limit).sum items front = some ((front + items.sum) % limit) := by
  induction items generalizing front with
  | nil => simp [sum, Nat.mod_eq_of_lt hfront]
  | cons item items ih =>
      have hnext : (front + item) % limit < limit := Nat.mod_lt _ (by omega)
      change (wrapping limit).sum items ((front + item) % limit) = _
      rw [ih hnext, Nat.mod_add_mod, List.sum_cons, Nat.add_assoc]

theorem isSome_checked_sum {limit : Nat} {items : List Nat} (hpositive : 0 < limit) :
    ((checked limit).sum items 0).isSome ↔ items.sum < limit := by
  constructor
  · intro hsome
    obtain ⟨result, hresult⟩ := Option.isSome_iff_exists.mp hsome
    have hfits := (checked_sum hpositive hresult).1
    rwa [Nat.zero_add] at hfits
  · intro hfits
    rw [(checked_sound limit).sum_exact (by omega)]
    rfl

theorem isSome_checked_sub {limit left right : Nat} :
    ((checked limit).sub left right).isSome ↔ right ≤ left := by
  simp only [checked]
  split
  case isTrue hle => simp [hle]
  case isFalse hlt => simp [hlt]

end WordArith

end Doli.Lib
