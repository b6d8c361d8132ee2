import Doli.Lib.Column
import Mathlib.Algebra.Order.BigOperators.Group.Finset
import Mathlib.Data.List.Nodup
import Mathlib.Data.List.Perm.Subperm

/-!
# Quorums and tallies

A quorum is a number of distinct members that all back something.  Two quorums
of more than half of the members have a member in common.  A tally gives every voter
its last reported weight; a partial tally agrees with a larger one wherever it has a
row, and so never weighs more.
-/

namespace Doli.Lib

variable {α : Type}

/-- `threshold` distinct members back it. -/
def QuorumOf (members : List α) (threshold : Nat) (backs : α → Prop) : Prop :=
  ∃ signers : List α, signers.Nodup ∧ (∀ signer ∈ signers, signer ∈ members ∧ backs signer) ∧
    threshold ≤ signers.length

namespace QuorumOf

variable {members : List α} {threshold : Nat} {backs others : α → Prop}

theorem of_countP {accepts : α → Bool} (hmembers : members.Nodup)
    (hcount : threshold ≤ members.countP accepts)
    (hbacks : ∀ member, accepts member = true → backs member) :
    QuorumOf members threshold backs := by
  refine ⟨members.filter accepts, hmembers.filter accepts, ?_, ?_⟩
  · intro signer hsigner
    obtain ⟨hmember, haccepts⟩ := List.mem_filter.mp hsigner
    exact ⟨hmember, hbacks signer haccepts⟩
  · rw [← List.countP_eq_length_filter]
    exact hcount

theorem mono (hquorum : QuorumOf members threshold backs)
    (hbacks : ∀ member, backs member → others member) :
    QuorumOf members threshold others := by
  obtain ⟨signers, hnodup, hsigners, hlength⟩ := hquorum
  refine ⟨signers, hnodup, ?_, hlength⟩
  intro signer hsigner
  exact ⟨(hsigners signer hsigner).1, hbacks signer (hsigners signer hsigner).2⟩

theorem common (hmajority : members.length < 2 * threshold)
    (hfirst : QuorumOf members threshold backs)
    (hsecond : QuorumOf members threshold others) :
    ∃ member ∈ members, backs member ∧ others member := by
  obtain ⟨first, hfirstNodup, hfirstBacks, hfirstLength⟩ := hfirst
  obtain ⟨second, hsecondNodup, hsecondBacks, hsecondLength⟩ := hsecond
  by_contra hnone
  have hdisjoint : first.Disjoint second := by
    intro signer hone htwo
    exact hnone ⟨signer, (hfirstBacks signer hone).1, (hfirstBacks signer hone).2,
      (hsecondBacks signer htwo).2⟩
  have hsubset : first ++ second ⊆ members := by
    intro signer hsigner
    rcases List.mem_append.mp hsigner with hone | htwo
    · exact (hfirstBacks signer hone).1
    · exact (hsecondBacks signer htwo).1
  -- together the two would be more members than there are
  have hlength : (first ++ second).length ≤ members.length :=
    (List.subperm_of_subset (hfirstNodup.append hsecondNodup hdisjoint) hsubset).length_le
  rw [List.length_append] at hlength
  omega

end QuorumOf

/-! ## Tallies -/

abbrev Tally (κ : Type) := Column κ Nat

namespace Tally

variable {κ : Type} [DecidableEq κ]

def weight (tally : Tally κ) : Nat :=
  ∑ voter ∈ tally.keys, (tally.lookup voter).getD 0

/-- Every row of `tally` is a row of `other`. -/
def PartOf (tally other : Tally κ) : Prop :=
  ∀ voter weight, tally.lookup voter = some weight →
    other.lookup voter = some weight

theorem PartOf.empty (other : Tally κ) : PartOf ∅ other := by
  intro voter weight hrow
  simp at hrow

theorem PartOf.insert {tally other : Tally κ} (hpart : tally.PartOf other)
    (voter : κ) (weight : Nat) :
    Tally.PartOf (Finmap.insert voter weight tally)
      (Finmap.insert voter weight other) := by
  intro reporter row hrow
  by_cases hvoter : reporter = voter
  · subst hvoter
    rw [Finmap.lookup_insert] at hrow ⊢
    exact hrow
  · rw [Finmap.lookup_insert_of_ne _ hvoter] at hrow ⊢
    exact hpart reporter row hrow

theorem PartOf.weight_le {tally other : Tally κ} (hpart : tally.PartOf other) :
    tally.weight ≤ other.weight := by
  have hkeys : tally.keys ⊆ other.keys := by
    intro voter hvoter
    obtain ⟨weight, hweight⟩ := Finmap.mem_iff.mp (Finmap.mem_keys.mp hvoter)
    exact Finmap.mem_keys.mpr (Finmap.mem_iff.mpr ⟨weight, hpart voter weight hweight⟩)
  calc tally.weight = ∑ voter ∈ tally.keys, (other.lookup voter).getD 0 := by
        refine Finset.sum_congr rfl fun voter hvoter => ?_
        obtain ⟨weight, hweight⟩ := Finmap.mem_iff.mp (Finmap.mem_keys.mp hvoter)
        rw [hweight, hpart voter weight hweight]
    _ ≤ other.weight := Finset.sum_le_sum_of_subset hkeys

end Tally

end Doli.Lib
