import Mathlib.Data.List.Nodup
import Mathlib.Order.Interval.Finset.Nat

/-!
# Rotations

Whose turn a slot is.  The members of a list take the slots one after the other, or the first
few of them share a longer period at even distances.
-/

namespace Doli.Lib

section

variable {α : Type}

def turn (members : List α) (slot : Nat) : Option α :=
  members[slot % members.length]?

/-- The first `count` members, each at a multiple of the same spacing. -/
def spacedTurn (members : List α) (period count slot : Nat) : Option α :=
  if slot % period % (period / count) = 0 ∧ slot % period / (period / count) < count then
    members[slot % period / (period / count)]?
  else none

end

/-! ## Windows -/

/-- A window of one period meets each residue at one slot. -/
theorem existsUnique_slot {period index : Nat} (hindex : index < period) (start : Nat) :
    ∃! slot, (start ≤ slot ∧ slot < start + period) ∧ slot % period = index := by
  have hmem : index ∈ (Finset.Ico start (start + period)).image (· % period) := by
    rw [Nat.image_Ico_mod, Finset.mem_range]
    exact hindex
  obtain ⟨slot, hslot, hresidue⟩ := Finset.mem_image.mp hmem
  refine ⟨slot, ⟨Finset.mem_Ico.mp hslot, hresidue⟩, ?_⟩
  rintro other ⟨hother, hsame⟩
  exact Nat.mod_injOn_Ico start period (Finset.mem_coe.mpr (Finset.mem_Ico.mpr hother))
    (Finset.mem_coe.mpr hslot) (hsame.trans hresidue.symm)

section

variable {α : Type} {members : List α} {member : α}

theorem turn_eq_some_iff (hnodup : members.Nodup) {index : Nat} (hindex : index < members.length)
    (slot : Nat) : turn members slot = some members[index] ↔ slot % members.length = index := by
  unfold turn
  have hresidue := Nat.mod_lt slot (Nat.zero_lt_of_lt hindex)
  rw [List.getElem?_eq_getElem hresidue, Option.some.injEq]
  exact hnodup.getElem_inj_iff

/-- In a window as long as the list every member has one turn. -/
theorem turn_once (hnodup : members.Nodup) (hmember : member ∈ members) (start : Nat) :
    ∃! slot, (start ≤ slot ∧ slot < start + members.length) ∧
      turn members slot = some member := by
  obtain ⟨index, hindex, rfl⟩ := List.mem_iff_getElem.mp hmember
  simpa only [turn_eq_some_iff hnodup hindex] using existsUnique_slot hindex start

theorem turn_mem {slot : Nat} (hturn : turn members slot = some member) : member ∈ members :=
  List.mem_of_getElem? hturn

/-! ## At even distances -/

variable {period count : Nat}

theorem spacedTurn_mem_take {slot : Nat}
    (hturn : spacedTurn members period count slot = some member) :
    member ∈ members.take count := by
  unfold spacedTurn at hturn
  split at hturn
  · rename_i hin
    refine List.mem_of_getElem? (i := slot % period / (period / count)) ?_
    rw [List.getElem?_take_of_lt hin.2, hturn]
  · simp at hturn

theorem spacedTurn_eq_some_iff (hnodup : members.Nodup) (hperiod : count ≤ period)
    {index : Nat} (hindex : index < members.length) (hcount : index < count) (slot : Nat) :
    spacedTurn members period count slot = some members[index] ↔
      slot % period = index * (period / count) := by
  have hspacing : 0 < period / count := Nat.div_pos hperiod (Nat.zero_lt_of_lt hcount)
  unfold spacedTurn
  constructor
  · intro hturn
    split at hturn
    · rename_i hin
      obtain ⟨hlt, hvalue⟩ := List.getElem?_eq_some_iff.mp hturn
      have hquotient := hnodup.getElem_inj_iff.mp hvalue
      rw [← hquotient]
      exact (Nat.div_mul_cancel (Nat.dvd_of_mod_eq_zero hin.1)).symm
    · simp at hturn
  · intro hphase
    rw [hphase, Nat.mul_mod_left, Nat.mul_div_cancel _ hspacing, if_pos ⟨rfl, hcount⟩,
      List.getElem?_eq_getElem hindex]

/-- In a window of one period each of the first members has one turn. -/
theorem spacedTurn_once (hnodup : members.Nodup) (hperiod : count ≤ period) {index : Nat}
    (hindex : index < members.length) (hcount : index < count) (start : Nat) :
    ∃! slot, (start ≤ slot ∧ slot < start + period) ∧
      spacedTurn members period count slot = some members[index] := by
  simp only [spacedTurn_eq_some_iff hnodup hperiod hindex hcount]
  refine existsUnique_slot ?_ start
  have hspacing : 0 < period / count := Nat.div_pos hperiod (Nat.zero_lt_of_lt hcount)
  calc index * (period / count) < count * (period / count) :=
        Nat.mul_lt_mul_of_pos_right hcount hspacing
    _ ≤ period := Nat.mul_div_le period count

end

end Doli.Lib
