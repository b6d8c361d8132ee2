import Mathlib.Tactic.Linarith
import Mathlib.Tactic.Ring

/-!
# Integer square roots by Newton's iteration

A guess that is no smaller than the root is averaged with the quotient by it.  The average
is again no smaller than the root, and a guess that the average does not improve is the root.
-/

namespace Doli.Lib

/-- The mean of a guess and of the quotient by it, rounded down. -/
def newtonStep (n guess : Nat) : Nat :=
  (guess + n / guess) / 2

section

variable {n guess : Nat}

theorem lt_succ_sq_newtonStep (hguess : 0 < guess) :
    n < (newtonStep n guess + 1) * (newtonStep n guess + 1) := by
  have hquotient : n < guess * (n / guess + 1) := Nat.lt_mul_div_succ n hguess
  have hmean : 4 * (guess * (n / guess + 1)) ≤
      (guess + (n / guess + 1)) * (guess + (n / guess + 1)) := by
    calc 4 * (guess * (n / guess + 1))
        = 4 * guess * (n / guess + 1) := by ring
      _ ≤ (guess + (n / guess + 1)) ^ 2 := four_mul_le_sq_add _ _
      _ = (guess + (n / guess + 1)) * (guess + (n / guess + 1)) := sq _
  have hround : guess + (n / guess + 1) ≤ 2 * (newtonStep n guess + 1) := by
    unfold newtonStep
    omega
  have hsquare := Nat.mul_le_mul hround hround
  have hdouble : 2 * (newtonStep n guess + 1) * (2 * (newtonStep n guess + 1)) =
      4 * ((newtonStep n guess + 1) * (newtonStep n guess + 1)) := by ring
  omega

theorem sq_le_of_le_newtonStep (hstay : guess ≤ newtonStep n guess) : guess * guess ≤ n := by
  have hquotient : guess ≤ n / guess := by
    unfold newtonStep at hstay
    omega
  exact (Nat.mul_le_mul_left guess hquotient).trans (Nat.mul_div_le n guess)

theorem newtonStep_pos (hn : 0 < n) (hguess : 0 < guess) : 0 < newtonStep n guess := by
  have habove := lt_succ_sq_newtonStep (n := n) hguess
  rcases Nat.eq_zero_or_pos (newtonStep n guess) with hzero | hpos
  · simp only [hzero] at habove
    omega
  · exact hpos

/-- The sum of a guess below the number and of its quotient is at most the number, once
the number is not tiny. -/
theorem add_div_le (hbelow : guess < n) (habove : n < (guess + 1) * (guess + 1)) :
    guess + n / guess ≤ max n 4 := by
  have hproduct := Nat.mul_div_le n guess
  rcases Nat.lt_or_ge guess 2 with hsmall | hguess
  · have hsucc : guess + 1 ≤ 2 := by omega
    have hn : n < 2 * 2 := habove.trans_le (Nat.mul_le_mul hsucc hsucc)
    have hquotient := Nat.div_le_self n guess
    omega
  · rcases Nat.lt_or_ge (n / guess) 2 with hquotient | hquotient
    · omega
    · have hsum : guess + n / guess ≤ guess * (n / guess) := by nlinarith
      omega

end

end Doli.Lib
