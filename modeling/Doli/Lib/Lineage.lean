import Mathlib.Algebra.BigOperators.Group.Finset.Basic
import Mathlib.Data.Finset.Basic

/-!
# Lineages

The members of a set keep their ancestors and their descendants in the set.  Taking a
member out and putting one in at the end keep the two relations inverse and transitive,
and a sum over the ancestors can be kept beside each member.
-/

namespace Doli.Lib

structure Lineage (κ : Type) where
  nodes : Finset κ
  up : κ → Finset κ
  down : κ → Finset κ

namespace Lineage

variable {κ : Type}

structure Closed (line : Lineage κ) : Prop where
  mem : ∀ {first second}, first ∈ line.up second →
    first ∈ line.nodes ∧ second ∈ line.nodes
  inverse : ∀ {first second}, first ∈ line.up second ↔ second ∈ line.down first
  trans : ∀ {first second third}, first ∈ line.up second → second ∈ line.up third →
    first ∈ line.up third
  irrefl : ∀ {key}, key ∉ line.up key

/-- Every member keeps its own worth and that of its ancestors. -/
def Summed (line : Lineage κ) (own sum : κ → Nat) : Prop :=
  ∀ key ∈ line.nodes, sum key = own key + ∑ ancestor ∈ line.up key, own ancestor

variable {line next : Lineage κ} {key : κ} {parents : Finset κ} {own sum own' sum' : κ → Nat}

theorem closed_empty : (⟨∅, fun _ => ∅, fun _ => ∅⟩ : Lineage κ).Closed where
  mem h := by simp at h
  inverse := by simp
  trans h := by simp at h
  irrefl := by simp

/-! ## A member goes -/

/-- One member is taken out of the set and of every relation. -/
structure Without (line next : Lineage κ) (key : κ) : Prop where
  nodes : ∀ {other}, other ∈ next.nodes ↔ other ∈ line.nodes ∧ other ≠ key
  up : ∀ {first second}, first ∈ next.up second ↔
    first ∈ line.up second ∧ first ≠ key ∧ second ≠ key
  down : ∀ {first second}, second ∈ next.down first ↔
    second ∈ line.down first ∧ first ≠ key ∧ second ≠ key

theorem Closed.without (hclosed : line.Closed) (hout : line.Without next key) :
    next.Closed where
  mem := by
    intro first second hmem
    obtain ⟨hup, hfirst, hsecond⟩ := hout.up.mp hmem
    obtain ⟨hin, hin'⟩ := hclosed.mem hup
    exact ⟨hout.nodes.mpr ⟨hin, hfirst⟩, hout.nodes.mpr ⟨hin', hsecond⟩⟩
  inverse := by
    intro first second
    rw [hout.up, hout.down, hclosed.inverse]
  trans := by
    intro first second third hfirst hsecond
    have hone := hout.up.mp hfirst
    have htwo := hout.up.mp hsecond
    exact hout.up.mpr ⟨hclosed.trans hone.1 htwo.1, hone.2.1, htwo.2.2⟩
  irrefl := fun hmem => hclosed.irrefl (hout.up.mp hmem).1

theorem Summed.without [DecidableEq κ] (hsummed : line.Summed own sum) (hclosed : line.Closed)
    (hout : line.Without next key) (hown : ∀ other ≠ key, own' other = own other)
    (hsum : ∀ other ≠ key, sum' other =
      if other ∈ line.down key then sum other - own key else sum other) :
    next.Summed own' sum' := by
  intro other hother
  obtain ⟨hmem, hne⟩ := hout.nodes.mp hother
  have hup : next.up other = (line.up other).erase key := by
    ext first
    rw [hout.up, Finset.mem_erase]
    tauto
  have hsame : ∑ ancestor ∈ (line.up other).erase key, own' ancestor =
      ∑ ancestor ∈ (line.up other).erase key, own ancestor :=
    Finset.sum_congr rfl fun ancestor hancestor =>
      hown ancestor (Finset.ne_of_mem_erase hancestor)
  rw [hup, hsame, hown other hne, hsum other hne, hsummed other hmem]
  split
  case isTrue hdown =>
    rw [← Finset.add_sum_erase _ _ (hclosed.inverse.mpr hdown)]
    omega
  case isFalse hnot =>
    rw [Finset.erase_eq_of_notMem fun hkey => hnot (hclosed.inverse.mp hkey)]

/-! ## A member comes -/

/-- A new member is put below `parents`. -/
structure Below (line next : Lineage κ) (key : κ) (parents : Finset κ) : Prop where
  nodes : ∀ {other}, other ∈ next.nodes ↔ other ∈ line.nodes ∨ other = key
  up : ∀ {first second}, first ∈ next.up second ↔
    (second ≠ key ∧ first ∈ line.up second) ∨ (second = key ∧ first ∈ parents)
  down : ∀ {first second}, second ∈ next.down first ↔
    (first ≠ key ∧ second ∈ line.down first) ∨ (second = key ∧ first ∈ parents)

theorem Closed.below (hclosed : line.Closed) (hin : line.Below next key parents)
    (hnew : key ∉ line.nodes) (hparents : ∀ parent ∈ parents, parent ∈ line.nodes)
    (hup : ∀ parent ∈ parents, ∀ ancestor ∈ line.up parent, ancestor ∈ parents) :
    next.Closed where
  mem := by
    intro first second hmem
    rcases hin.up.mp hmem with ⟨-, hold⟩ | ⟨rfl, hparent⟩
    · obtain ⟨hone, htwo⟩ := hclosed.mem hold
      exact ⟨hin.nodes.mpr (.inl hone), hin.nodes.mpr (.inl htwo)⟩
    · exact ⟨hin.nodes.mpr (.inl (hparents first hparent)), hin.nodes.mpr (.inr rfl)⟩
  inverse := by
    intro first second
    have hfirst : first ∈ line.up second → first ≠ key ∧ second ≠ key := by
      intro hold
      obtain ⟨hone, htwo⟩ := hclosed.mem hold
      exact ⟨fun heq => hnew (heq ▸ hone), fun heq => hnew (heq ▸ htwo)⟩
    rw [hin.up, hin.down, ← hclosed.inverse]
    tauto
  trans := by
    intro first second third hfirst hsecond
    rcases hin.up.mp hsecond with ⟨hthird, hold⟩ | ⟨hthird, hparent⟩
    · rcases hin.up.mp hfirst with ⟨-, hold'⟩ | ⟨rfl, -⟩
      · exact hin.up.mpr (.inl ⟨hthird, hclosed.trans hold' hold⟩)
      · exact absurd (hclosed.mem hold).1 hnew
    · rcases hin.up.mp hfirst with ⟨-, hold'⟩ | ⟨rfl, -⟩
      · exact hin.up.mpr (.inr ⟨hthird, hup second hparent first hold'⟩)
      · exact absurd (hparents second hparent) hnew
  irrefl := by
    intro other hmem
    rcases hin.up.mp hmem with ⟨-, hold⟩ | ⟨rfl, hparent⟩
    · exact hclosed.irrefl hold
    · exact hnew (hparents other hparent)

theorem Summed.below [DecidableEq κ] (hsummed : line.Summed own sum) (hclosed : line.Closed)
    (hin : line.Below next key parents)
    (hnew : key ∉ line.nodes) (hparents : ∀ parent ∈ parents, parent ∈ line.nodes)
    (hown : ∀ other ≠ key, own' other = own other)
    (hsum : ∀ other ≠ key, sum' other = sum other)
    (hkey : sum' key = own' key + ∑ parent ∈ parents, own parent) :
    next.Summed own' sum' := by
  have hkept : ∀ keys : Finset κ, key ∉ keys →
      ∑ ancestor ∈ keys, own' ancestor = ∑ ancestor ∈ keys, own ancestor :=
    fun keys hnot => Finset.sum_congr rfl fun ancestor hancestor =>
      hown ancestor fun heq => hnot (heq ▸ hancestor)
  intro other hother
  by_cases hsame : other = key
  · subst hsame
    have hup : next.up other = parents := by
      ext first
      rw [hin.up]
      simp
    rw [hup, hkept parents fun hmem => hnew (hparents other hmem), hkey]
  · have hmem : other ∈ line.nodes := (hin.nodes.mp hother).resolve_right hsame
    have hup : next.up other = line.up other := by
      ext first
      rw [hin.up]
      simp [hsame]
    have hnot : key ∉ line.up other := fun hkey => hnew (hclosed.mem hkey).1
    rw [hup, hkept _ hnot, hown other hsame, hsum other hsame, hsummed other hmem]

end Lineage

end Doli.Lib
