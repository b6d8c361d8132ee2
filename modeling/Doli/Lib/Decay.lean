import Mathlib.Algebra.BigOperators.Intervals
import Mathlib.Algebra.Order.BigOperators.Group.Finset
import Mathlib.Algebra.Order.Ring.GeomSum

/-!
# Payments that decay

A payment is made at every step, and its amount is divided by a base, rounding down, after
each period of steps.  All payments together stay below the sum of the geometric series.
-/

namespace Doli.Lib

open Finset

def decayed (amount base period step : Nat) : Nat :=
  amount / base ^ (step / period)

section

variable {amount base period : Nat}

theorem decayed_antitone (hbase : 0 < base) : Antitone (decayed amount base period) :=
  fun _ _ hle => Nat.div_le_div_left
    (Nat.pow_le_pow_right hbase (Nat.div_le_div_right hle)) (Nat.pow_pos hbase)

theorem decayed_within {era offset : Nat} (hoffset : offset < period) :
    decayed amount base period (era * period + offset) = amount / base ^ era := by
  have hperiod : 0 < period := Nat.zero_lt_of_lt hoffset
  unfold decayed
  rw [Nat.add_comm, Nat.add_mul_div_right _ _ hperiod, Nat.div_eq_of_lt hoffset, Nat.zero_add]

theorem sum_decayed_eras (eras : Nat) :
    ∑ step ∈ range (eras * period), decayed amount base period step =
      period * ∑ era ∈ range eras, amount / base ^ era := by
  induction eras with
  | zero => simp
  | succ eras ih =>
      have hera : ∀ offset ∈ range period,
          decayed amount base period (eras * period + offset) = amount / base ^ eras :=
        fun offset hoffset => decayed_within (mem_range.mp hoffset)
      rw [Nat.succ_mul, sum_range_add, ih, sum_const_nat hera, card_range, sum_range_succ,
        Nat.mul_add]

theorem sum_decayed_le (hbase : 2 ≤ base) (hperiod : 0 < period) (steps : Nat) :
    ∑ step ∈ range steps, decayed amount base period step ≤
      period * (amount * base / (base - 1)) := by
  have hwhole : steps ≤ (steps / period + 1) * period := by
    have hlast := Nat.lt_mul_div_succ steps hperiod
    rw [Nat.mul_comm]
    exact hlast.le
  calc ∑ step ∈ range steps, decayed amount base period step
      ≤ ∑ step ∈ range ((steps / period + 1) * period), decayed amount base period step :=
        sum_le_sum_of_subset (range_mono hwhole)
    _ = period * ∑ era ∈ range (steps / period + 1), amount / base ^ era :=
        sum_decayed_eras _
    _ ≤ period * (amount * base / (base - 1)) :=
        Nat.mul_le_mul_left _ (Nat.geom_sum_le hbase _ _)

end

end Doli.Lib
