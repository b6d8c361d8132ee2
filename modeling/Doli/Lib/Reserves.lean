import Mathlib.Algebra.Order.Ring.Canonical
import Mathlib.Algebra.Order.Ring.Nat
import Mathlib.Tactic.Ring

/-!
# Shares of two reserves

Two reserves are held against a number of shares.  A share is worth the product of the
reserves over the square of the number of shares, compared here without dividing.  Whoever
adds to the one reserve may take from the other as long as their product does not fall.
-/

namespace Doli.Lib

structure Reserves (α : Type) where
  first : α
  second : α
  shares : α

namespace Reserves

section Order

variable {α : Type} [CommSemiring α] [LinearOrder α] {before middle after : Reserves α}

def product (reserves : Reserves α) : α :=
  reserves.first * reserves.second

/-- A share is worth no less after than before. -/
def Undiluted (before after : Reserves α) : Prop :=
  before.product * after.shares ^ 2 ≤ after.product * before.shares ^ 2

variable [CanonicallyOrderedAdd α]

theorem Undiluted.of_product (hshares : after.shares = before.shares)
    (hproduct : before.product ≤ after.product) : before.Undiluted after := by
  unfold Undiluted
  rw [hshares]
  exact mul_le_mul_left hproduct _

theorem Undiluted.of_legs (hfirst : before.first * after.shares ≤ after.first * before.shares)
    (hsecond : before.second * after.shares ≤ after.second * before.shares) :
    before.Undiluted after := by
  calc before.product * after.shares ^ 2
      = before.first * after.shares * (before.second * after.shares) := by
        unfold product
        ring
    _ ≤ after.first * before.shares * (after.second * before.shares) :=
        mul_le_mul' hfirst hsecond
    _ = after.product * before.shares ^ 2 := by
        unfold product
        ring

variable [IsStrictOrderedRing α]

theorem Undiluted.trans (hfirst : before.Undiluted middle) (hsecond : middle.Undiluted after)
    (hkept : middle.shares = 0 → after.shares = 0) : before.Undiluted after := by
  by_cases hmiddle : middle.shares = 0
  · unfold Undiluted
    rw [hkept hmiddle, zero_pow two_ne_zero, mul_zero]
    exact zero_le
  · have hpositive : 0 < middle.shares ^ 2 := pow_pos (pos_iff_ne_zero.mpr hmiddle) 2
    apply le_of_mul_le_mul_right _ hpositive
    calc before.product * after.shares ^ 2 * middle.shares ^ 2
        = before.product * middle.shares ^ 2 * after.shares ^ 2 := by ring
      _ ≤ middle.product * before.shares ^ 2 * after.shares ^ 2 :=
          mul_le_mul_left hfirst _
      _ = middle.product * after.shares ^ 2 * before.shares ^ 2 := by ring
      _ ≤ after.product * middle.shares ^ 2 * before.shares ^ 2 :=
          mul_le_mul_left hsecond _
      _ = after.product * before.shares ^ 2 * middle.shares ^ 2 := by ring

/-- A change after which no share is worth less, and none has come back from nothing. -/
structure Keeps (before after : Reserves α) : Prop where
  undiluted : before.Undiluted after
  gone : before.shares = 0 → after.shares = 0

theorem Keeps.trans (hfirst : before.Keeps middle) (hsecond : middle.Keeps after) :
    before.Keeps after where
  undiluted := hfirst.undiluted.trans hsecond.undiluted hsecond.gone
  gone := hsecond.gone ∘ hfirst.gone

end Order

/-! ## Rounding -/

theorem leg_of_minted {reserve added shares minted : Nat}
    (hminted : minted ≤ added * shares / reserve) :
    reserve * (shares + minted) ≤ (reserve + added) * shares := by
  have hfloor : minted * reserve ≤ added * shares :=
    (Nat.mul_le_mul_right reserve hminted).trans (Nat.div_mul_le_self _ _)
  calc reserve * (shares + minted) = reserve * shares + minted * reserve := by ring
    _ ≤ reserve * shares + added * shares := Nat.add_le_add_left hfloor _
    _ = (reserve + added) * shares := by ring

theorem leg_of_burned {reserve taken shares burned : Nat}
    (htaken : taken ≤ burned * reserve / shares) :
    reserve * (shares - burned) ≤ (reserve - taken) * shares := by
  have hfloor : taken * shares ≤ burned * reserve :=
    (Nat.mul_le_mul_right shares htaken).trans (Nat.div_mul_le_self _ _)
  calc reserve * (shares - burned) = reserve * shares - burned * reserve := by
        rw [Nat.mul_sub, Nat.mul_comm burned]
    _ ≤ reserve * shares - taken * shares := Nat.sub_le_sub_left hfloor _
    _ = (reserve - taken) * shares := (Nat.sub_mul _ _ _).symm

end Reserves

/-! ## Exchange at a constant product -/

/-- The most that an input takes out, rounded down. -/
def payout (into out input : Nat) : Nat :=
  out * input / (into + input)

section

variable {into out input taken : Nat}

theorem le_payout_iff (hpositive : 0 < into + input) :
    taken ≤ payout into out input ↔ taken * (into + input) ≤ out * input :=
  Nat.le_div_iff_mul_le hpositive

theorem payout_le (into out input : Nat) : payout into out input ≤ out := by
  apply Nat.div_le_of_le_mul
  rw [Nat.mul_comm out]
  exact Nat.mul_le_mul_right out (Nat.le_add_left input into)

theorem product_le_iff (hpositive : 0 < into + input) (htaken : taken ≤ out) :
    into * out ≤ (into + input) * (out - taken) ↔ taken ≤ payout into out input := by
  obtain ⟨left, rfl⟩ := Nat.exists_eq_add_of_le htaken
  have hbefore : into * (taken + left) = into * taken + into * left := by ring
  have hafter : (into + input) * left = into * left + input * left := by ring
  have hbound : taken * (into + input) = into * taken + input * taken := by ring
  have hgiven : (taken + left) * input = input * taken + input * left := by ring
  rw [le_payout_iff hpositive, Nat.add_sub_cancel_left, hbefore, hafter, hbound, hgiven]
  omega

theorem payout_mono {more : Nat} (hinto : 0 < into) (hle : input ≤ more) :
    payout into out input ≤ payout into out more := by
  rw [le_payout_iff (Nat.add_pos_left hinto more)]
  obtain ⟨rest, rfl⟩ := Nat.exists_eq_add_of_le hle
  have hfirst : payout into out input * (into + input) ≤ out * input :=
    (le_payout_iff (Nat.add_pos_left hinto input)).mp (Nat.le_refl _)
  calc payout into out input * (into + (input + rest))
      = payout into out input * (into + input) + payout into out input * rest := by ring
    _ ≤ out * input + out * rest :=
        Nat.add_le_add hfirst (Nat.mul_le_mul_right rest (payout_le into out input))
    _ = out * (input + rest) := by ring

theorem payout_back {back : Nat} (hinto : 0 < into) (hout : taken < out)
    (htaken : taken ≤ payout into out input) (hback : back ≤ taken) :
    payout (out - taken) (into + input) back ≤ input := by
  have hleft : 0 < out - taken := Nat.sub_pos_of_lt hout
  calc payout (out - taken) (into + input) back
      ≤ payout (out - taken) (into + input) taken := payout_mono hleft hback
    _ ≤ input := by
        apply Nat.div_le_of_le_mul
        rw [Nat.sub_add_cancel hout.le, Nat.mul_comm (into + input)]
        exact (le_payout_iff (Nat.add_pos_left hinto input)).mp htaken

end

end Doli.Lib
