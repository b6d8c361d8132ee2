import Doli.Core.MaintainerQuorum
import Doli.Lib.SortedCut

/-!
# Deriving the maintainers from any height on

Once five keys are registered the seats are taken for good, and the stream of changes and
slashes is the heights one after the other.  What is derived up to a height is what was
derived up to an earlier one and the heights in between.
-/

namespace Doli.Core

open Doli.Lib

namespace MaintainerSet

/-! ## Height by height -/

section Heights

variable (codec : GovernanceCodec) (activationHeight : Nat) (reader : BlockchainReader)

/-- The changes of a height, each judged by the set that it finds. -/
def applyChanges (set : MaintainerSet) (height : Nat) : MaintainerSet :=
  (reader.maintainerChanges.filter (·.1 = height)).foldl
    (fun current entry => replayAction codec activationHeight current (height, .change entry.2))
    set

def applySlashes (set : MaintainerSet) (height : Nat) : MaintainerSet :=
  (reader.slashedProducers.filter (·.1 = height)).foldl
    (fun current entry => (current.forceRemoveMaintainer entry.2 height).1) set

def applyHeight (set : MaintainerSet) (height : Nat) : MaintainerSet :=
  applySlashes reader (applyChanges codec activationHeight reader set height) height

/-- The heights above `first` up to `last`, in order. -/
def applyHeights (set : MaintainerSet) (first last : Nat) : MaintainerSet :=
  (List.range' (first + 1) (last - first)).foldl
    (applyHeight codec activationHeight reader) set

end Heights

/-! ## The stream of actions -/

section Stream

variable {codec : GovernanceCodec} {activationHeight : Nat} {reader : BlockchainReader}

/-- The actions of a height. -/
def actionsAt (reader : BlockchainReader) (height : Nat) : List (Nat × ReplayAction) :=
  (reader.maintainerChanges.filter (·.1 = height)).map
      (fun entry => (entry.1, ReplayAction.change entry.2)) ++
    (reader.slashedProducers.filter (·.1 = height)).map
      (fun entry => (entry.1, ReplayAction.slash entry.2))

theorem filter_map_le {α : Type} (action : α → ReplayAction) (entries : List (Nat × α))
    {height bound : Nat} (hle : height ≤ bound) :
    ((entries.filter (·.1 ≤ bound)).map fun entry => (entry.1, action entry.2)).filter
        (·.1 = height) =
      (entries.filter (·.1 = height)).map fun entry => (entry.1, action entry.2) := by
  rw [List.filter_map, List.filter_filter]
  congr 1
  apply List.filter_congr
  intro entry _
  simp only [Function.comp_apply, ← Bool.decide_and, decide_eq_decide]
  omega

theorem replayActions_eq (reader : BlockchainReader) (bound : Nat) :
    reader.replayActions bound = (List.range (bound + 1)).flatMap (actionsAt reader) := by
  unfold BlockchainReader.replayActions
  set entries := (reader.maintainerChanges.filter (·.1 ≤ bound)).map
      (fun entry => (entry.1, ReplayAction.change entry.2)) ++
    (reader.slashedProducers.filter (·.1 ≤ bound)).map
      (fun entry => (entry.1, ReplayAction.slash entry.2)) with hentries
  have hbound : ∀ entry ∈ entries, entry.1 < bound + 1 := by
    intro entry hentry
    rw [hentries, List.mem_append, List.mem_map, List.mem_map] at hentry
    rcases hentry with ⟨held, hheld, rfl⟩ | ⟨held, hheld, rfl⟩
    · rw [List.mem_filter, decide_eq_true_eq] at hheld
      exact Nat.lt_succ_of_le hheld.2
    · rw [List.mem_filter, decide_eq_true_eq] at hheld
      exact Nat.lt_succ_of_le hheld.2
  have hsorted : entries.insertionSort actionLe = bucketsFrom Prod.fst entries 0 (bound + 1) :=
    insertionSort_eq_bucketsFrom hbound
  rw [hsorted, bucketsFrom, ← List.range_eq_range']
  apply List.flatMap_congr
  intro height hheight
  have hle : height ≤ bound := Nat.le_of_lt_succ (List.mem_range.mp hheight)
  rw [hentries, List.filter_append, filter_map_le _ _ hle, filter_map_le _ _ hle, actionsAt]

theorem foldl_actionsAt (set : MaintainerSet) (height : Nat) :
    (actionsAt reader height).foldl (replayAction codec activationHeight) set =
      applyHeight codec activationHeight reader set height := by
  have hchanges : ∀ set : MaintainerSet,
      ((reader.maintainerChanges.filter (·.1 = height)).map
        (fun entry => (entry.1, ReplayAction.change entry.2))).foldl
          (replayAction codec activationHeight) set =
        applyChanges codec activationHeight reader set height := by
    intro set
    rw [List.foldl_map]
    apply List.foldl_ext
    intro current entry hentry
    rw [List.mem_filter, decide_eq_true_eq] at hentry
    rw [hentry.2]
  have hslashes : ∀ set : MaintainerSet,
      ((reader.slashedProducers.filter (·.1 = height)).map
        (fun entry => (entry.1, ReplayAction.slash entry.2))).foldl
          (replayAction codec activationHeight) set = applySlashes reader set height := by
    intro set
    rw [List.foldl_map]
    apply List.foldl_ext
    intro current entry hentry
    rw [List.mem_filter, decide_eq_true_eq] at hentry
    rw [hentry.2]
    rfl
  rw [actionsAt, List.foldl_append, hchanges, hslashes]
  rfl

theorem foldl_replayActions (set : MaintainerSet) (bound : Nat) :
    (reader.replayActions bound).foldl (replayAction codec activationHeight) set =
      (List.range (bound + 1)).foldl (applyHeight codec activationHeight reader) set := by
  rw [replayActions_eq, List.foldl_flatMap]
  apply List.foldl_ext
  intro current height _
  exact foldl_actionsAt current height

end Stream

end MaintainerSet

/-! ## The seats -/

section Seats

theorem foldl_takeSeat_of_full {seated : List (PublicKey × Nat)}
    (hfull : initialMaintainerCount ≤ seated.length) (rest : List (PublicKey × Nat)) :
    rest.foldl takeSeat seated = seated := by
  induction rest with
  | nil => rfl
  | cons registration rest ih =>
      rw [List.foldl_cons, takeSeat, if_pos hfull]
      exact ih

theorem mem_takeSeat {seated : List (PublicKey × Nat)} {registration : PublicKey × Nat}
    (hroom : seated.length < initialMaintainerCount) {key : PublicKey}
    (hkey : key ∈ seated.map Prod.fst ∨ key = registration.1) :
    key ∈ (takeSeat seated registration).map Prod.fst := by
  rw [takeSeat, if_neg (Nat.not_le.mpr hroom)]
  split
  case isTrue hseen =>
    rcases hkey with hkey | rfl
    · exact hkey
    · obtain ⟨seen, hmem, hsame⟩ := List.any_eq_true.mp hseen
      exact List.mem_map.mpr ⟨seen, hmem, of_decide_eq_true hsame⟩
  case isFalse hnew =>
    rw [List.map_append, List.mem_append, List.map_singleton, List.mem_singleton]
    exact hkey

theorem foldl_takeSeat_covers (rest seated : List (PublicKey × Nat)) :
    initialMaintainerCount ≤ (rest.foldl takeSeat seated).length ∨
      ∀ key, key ∈ seated.map Prod.fst ∨ key ∈ rest.map Prod.fst →
        key ∈ (rest.foldl takeSeat seated).map Prod.fst := by
  induction rest generalizing seated with
  | nil =>
      refine .inr fun key hkey => ?_
      simpa using hkey
  | cons registration rest ih =>
      by_cases hfull : initialMaintainerCount ≤ seated.length
      · rw [foldl_takeSeat_of_full hfull]
        exact .inl hfull
      · rw [List.foldl_cons]
        refine (ih (takeSeat seated registration)).imp id fun hcovers key hkey => ?_
        rw [List.map_cons, List.mem_cons, ← or_assoc] at hkey
        exact hcovers key (hkey.imp (mem_takeSeat (Nat.lt_of_not_le hfull)) id)

theorem seats_taken {registrations : List (PublicKey × Nat)}
    (hmany : initialMaintainerCount ≤ (registrations.map Prod.fst).dedup.length) :
    initialMaintainerCount ≤ (seatedRegistrations registrations).length := by
  rcases foldl_takeSeat_covers (registrations.insertionSort seniorLe) [] with hfull | hcovers
  · exact hfull
  · have hsubset : (registrations.map Prod.fst).dedup ⊆
        (seatedRegistrations registrations).map Prod.fst := by
      intro key hkey
      obtain ⟨registration, hmem, rfl⟩ := List.mem_map.mp (List.mem_dedup.mp hkey)
      refine hcovers registration.1 (.inr (List.mem_map_of_mem ?_))
      exact (List.mem_insertionSort seniorLe).mpr hmem
    have hlength := (List.subperm_of_subset (List.nodup_dedup _) hsubset).length_le
    rw [List.length_map] at hlength
    exact hmany.trans hlength

theorem seatedRegistrations_perm {first second : List (PublicKey × Nat)}
    (hperm : first.Perm second) : seatedRegistrations first = seatedRegistrations second := by
  unfold seatedRegistrations
  rw [insertionSort_eq_of_perm hperm]

theorem seatedRegistrations_later (registrations : List (Nat × PublicKey)) {first last : Nat}
    (hle : first ≤ last)
    (hmany : initialMaintainerCount ≤
      (((registrations.filter (·.1 ≤ first)).map Prod.swap).map Prod.fst).dedup.length) :
    seatedRegistrations ((registrations.filter (·.1 ≤ last)).map Prod.swap) =
      seatedRegistrations ((registrations.filter (·.1 ≤ first)).map Prod.swap) := by
  have hearly : ((registrations.filter (·.1 ≤ last)).map Prod.swap).filter
      (fun registration => registration.2 ≤ first) =
        (registrations.filter (·.1 ≤ first)).map Prod.swap := by
    rw [List.filter_map, List.filter_filter]
    congr 1
    apply List.filter_congr
    intro registration _
    simp only [Function.comp_apply, Prod.snd_swap, ← Bool.decide_and, decide_eq_decide]
    omega
  have hcut : ∀ early ∈ (registrations.filter (·.1 ≤ last)).map Prod.swap,
      ∀ late ∈ (registrations.filter (·.1 ≤ last)).map Prod.swap,
        decide (early.2 ≤ first) = true → decide (late.2 ≤ first) = false →
          seniorLe early late := by
    intro early _ late _ hearly hlate
    rw [decide_eq_true_eq] at hearly
    rw [decide_eq_false_iff_not, not_le] at hlate
    exact .inl (hearly.trans_lt hlate)
  have hsorted := insertionSort_cut
    (fun registration : PublicKey × Nat => decide (registration.2 ≤ first)) hcut
  have htaken := seats_taken hmany
  unfold seatedRegistrations at htaken ⊢
  rw [hsorted, hearly, List.foldl_append]
  exact foldl_takeSeat_of_full htaken _

end Seats

/-! ## The derivation -/

section Derivation

variable (codec : GovernanceCodec) (activationHeight : Nat) (reader : BlockchainReader)

/-- The keys registered up to a height. -/
def registeredKeys (height : Nat) : List PublicKey :=
  (reader.registrationsInOrder.filter (·.1 ≤ height)).map Prod.snd

/-- The derivation does not depend on the order of the registrations, goes on from any height
at which the seats are taken, and never lists a key twice. -/
theorem maintainer_derivation :
    (∀ registrations : List (Nat × PublicKey), registrations.Perm reader.registrationsInOrder →
      ∀ height, deriveMaintainerSet codec activationHeight
          { reader with registrationsInOrder := registrations } height =
        deriveMaintainerSet codec activationHeight reader height) ∧
    (∀ first last, first ≤ last →
      initialMaintainerCount ≤ (registeredKeys reader first).dedup.length →
        deriveMaintainerSet codec activationHeight reader last =
          MaintainerSet.applyHeights codec activationHeight reader
            (deriveMaintainerSet codec activationHeight reader first) first last) ∧
    ∀ height, (deriveMaintainerSet codec activationHeight reader height).members.Nodup := by
  refine ⟨?order, ?onward, ?distinct⟩
  case order =>
    intro registrations hperm height
    have hcandidates := (hperm.filter (·.1 ≤ height)).map Prod.swap
    unfold deriveMaintainerSet
    simp only
    rw [seatedRegistrations_perm hcandidates]
    rfl
  case onward =>
    intro first last hle hmany
    have hsame := seatedRegistrations_later reader.registrationsInOrder hle (by
      rw [List.map_map]
      exact hmany)
    have hheights : last + 1 = (first + 1) + (last - first) := by omega
    unfold deriveMaintainerSet MaintainerSet.applyHeights
    simp only
    rw [hsame, MaintainerSet.foldl_replayActions, MaintainerSet.foldl_replayActions,
      ← List.foldl_append, hheights, List.range_eq_range', List.range_eq_range',
      ← List.range'_append_1, Nat.zero_add]
  case distinct =>
    intro height
    exact (MaintainerSet.balanced_of_reachable
      (MaintainerSet.reachable_deriveMaintainerSet codec activationHeight reader height)).nodup

end Derivation

/-- Five keys registered in no order, a later one, a slash, and an addition before a slash. -/
def sampleReader : BlockchainReader where
  registrationsInOrder := [(2, ⟨4⟩), (0, ⟨2⟩), (0, ⟨1⟩), (1, ⟨3⟩), (0, ⟨2⟩), (3, ⟨6⟩), (2, ⟨5⟩)]
  maintainerChanges := [(5, .add ⟨⟨7⟩, [⟨⟨2⟩, ⟨2⟩⟩, ⟨⟨3⟩, ⟨3⟩⟩, ⟨⟨4⟩, ⟨4⟩⟩]⟩)]
  slashedProducers := [(5, ⟨2⟩), (4, ⟨1⟩)]

theorem maintainer_derivation_sample :
    MaintainerSet.applyHeights MaintainerSet.sampleGovernanceCodec 0 sampleReader
        ⟨[⟨1⟩, ⟨2⟩, ⟨3⟩, ⟨4⟩, ⟨5⟩], 3, 2⟩ 2 9 =
      ⟨[⟨3⟩, ⟨4⟩, ⟨5⟩, ⟨7⟩], 3, 5⟩ := by
  have honward := (maintainer_derivation MaintainerSet.sampleGovernanceCodec 0
    sampleReader).2.1 2 9 (by decide) (by decide +kernel)
  have hfirst : deriveMaintainerSet MaintainerSet.sampleGovernanceCodec 0 sampleReader 2 =
      ⟨[⟨1⟩, ⟨2⟩, ⟨3⟩, ⟨4⟩, ⟨5⟩], 3, 2⟩ := by decide +kernel
  rw [← hfirst, ← honward]
  decide +kernel

end Doli.Core
