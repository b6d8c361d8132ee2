import Doli.Core.EpochState
import Doli.Lib.SortedCut

/-!
# The cap of the active list

Above the cap the active list is cut to the most senior of the producers that meet the
promotion criterion, unless fewer than a third of the list are left: then everybody stays.
-/

namespace Doli.Core

open Doli.Lib

namespace EpochDerivationInput

def registration (input : EpochDerivationInput) (key : PublicKey) : Nat :=
  (input.registeredAt.lookup key).getD 0

/-- Registered earlier, or as early with the smaller key. -/
def Senior (input : EpochDerivationInput) (left right : PublicKey) : Prop :=
  seniorLe (left, input.registration left) (right, input.registration right)

variable (input : EpochDerivationInput)

instance : DecidableRel input.Senior := fun left right =>
  inferInstanceAs (Decidable
    (seniorLe (left, input.registration left) (right, input.registration right)))

instance : Std.Total input.Senior :=
  ⟨fun left right => Std.Total.total (r := seniorLe) (left, input.registration left)
    (right, input.registration right)⟩

instance : IsTrans PublicKey input.Senior :=
  ⟨fun _ _ _ hfirst hsecond => IsTrans.trans (r := seniorLe) _ _ _ hfirst hsecond⟩

end EpochDerivationInput

namespace EpochState

variable {state : EpochState} {input : EpochDerivationInput}

def promoted (state : EpochState) (input : EpochDerivationInput) (newList : List PublicKey) :
    List PublicKey :=
  newList.filter (state.keepsTier input newList.length)

/-! ## Where the list comes from -/

theorem mem_boundedFallback {activeProducers : List PublicKey}
    {registeredAt : Column PublicKey Nat} {prev : Option (List PublicKey)}
    {isGhost : PublicKey → Bool} {key : PublicKey}
    (hkey : key ∈ (boundedFallback activeProducers registeredAt prev isGhost).1) :
    key ∈ activeProducers := by
  simp only [boundedFallback] at hkey
  split at hkey
  · exact previousCandidates_spec.2 key (mem_of_mem_senioritySortedCapped hkey)
  · split at hkey
    · exact mem_of_mem_senioritySortedCapped hkey
    · exact List.mem_of_mem_filter (mem_of_mem_senioritySortedCapped hkey)

theorem mem_legacyFallback {activeProducers : List PublicKey} {hasGhosts : Bool}
    {isGhost : PublicKey → Bool} {key : PublicKey}
    (hkey : key ∈ legacyFallback activeProducers hasGhosts isGhost) :
    key ∈ activeProducers := by
  unfold legacyFallback at hkey
  split at hkey
  · exact List.mem_of_mem_filter hkey
  · exact hkey

theorem mem_liveProducers {key : PublicKey} (hkey : key ∈ (state.liveProducers input).1) :
    key ∈ input.activeProducers := by
  unfold liveProducers at hkey
  split at hkey
  · exact hkey
  · split at hkey
    · simp only [computeLiveProducerList] at hkey
      split_ifs at hkey
      · exact mem_boundedFallback hkey
      · exact mem_legacyFallback hkey
      · exact List.mem_of_mem_filter hkey
      · exact mem_legacyFallback hkey
      · exact List.mem_of_mem_filter hkey
    · exact hkey

theorem mem_producerList {key : PublicKey}
    (hkey : key ∈ (state.deriveAtBoundary input).producerList) : key ∈ input.activeProducers :=
  mem_liveProducers ((List.perm_insertionSort PublicKey.bytesLe _).mem_iff.mp hkey)

/-! ## The candidates -/

section

variable {newList : List PublicKey}

theorem tierCandidates_eq (hepoch : 1 < input.epoch)
    (hknown : ∀ key ∈ newList, (input.registeredAt.lookup key).isSome) :
    state.tierCandidates input newList =
      (state.promoted input newList).map fun key => (key, input.registration key) := by
  have hrows : newList.filterMap (fun key =>
      (input.registeredAt.lookup key).map fun registration => (key, registration)) =
        newList.map fun key => (key, input.registration key) := by
    rw [List.filterMap_eq_map_iff_forall_eq_some]
    intro key hkey
    obtain ⟨registration, hregistration⟩ := Option.isSome_iff_exists.mp (hknown key hkey)
    rw [EpochDerivationInput.registration, hregistration]
    rfl
  have hgate : tierPromotionActivationHeight ≤ input.height ∧ 1 < input.epoch :=
    ⟨Nat.zero_le _, hepoch⟩
  simp only [tierCandidates, if_pos hgate, hrows, promoted, List.filter_map]
  rfl

theorem cut_eq (hepoch : 1 < input.epoch)
    (hknown : ∀ key ∈ newList, (input.registeredAt.lookup key).isSome) :
    (((state.tierCandidates input newList).insertionSort seniorLe).take
        activeProducersCap).map Prod.fst =
      ((state.promoted input newList).insertionSort input.Senior).take activeProducersCap := by
  rw [tierCandidates_eq hepoch hknown,
    ← List.map_insertionSort (r := input.Senior) (s := seniorLe), ← List.map_take, List.map_map]
  · exact List.map_id _
  · exact fun _ _ _ _ => Iff.rfl

theorem deriveActiveList_of_short (hshort : newList.length ≤ activeProducersCap) :
    state.deriveActiveList input newList = newList := by
  have hcap : ¬(tierSystemActivationHeight ≤ input.height ∧
      activeProducersCap < newList.length) := by omega
  rw [deriveActiveList, if_neg hcap]

theorem deriveActiveList_of_third (hepoch : 1 < input.epoch)
    (hknown : ∀ key ∈ newList, (input.registeredAt.lookup key).isSome)
    (hlong : activeProducersCap < newList.length)
    (hthird : newList.length / 3 ≤ min activeProducersCap (state.promoted input newList).length) :
    state.deriveActiveList input newList =
      ((state.promoted input newList).insertionSort input.Senior).take activeProducersCap := by
  have hgate : tierSystemActivationHeight ≤ input.height ∧ activeProducersCap < newList.length :=
    ⟨Nat.zero_le _, hlong⟩
  have hlength : (((state.promoted input newList).insertionSort input.Senior).take
      activeProducersCap).length =
        min activeProducersCap (state.promoted input newList).length := by
    rw [List.length_take, List.length_insertionSort]
  rw [deriveActiveList, if_pos hgate, cut_eq hepoch hknown]
  dsimp only
  rw [if_neg]
  rw [hlength, List.isEmpty_iff_length_eq_zero, hlength]
  rw [activeProducersCap] at hlong hthird ⊢
  omega

end

/-- After a boundary, a short list is active as a whole; of a longer one, but no longer than
three times the cap, the most senior of those that are promoted, or all of these if they are
fewer than the cap and a third at least. -/
theorem tier_cap (state : EpochState) {input : EpochDerivationInput}
    (hnodup : input.activeProducers.Nodup)
    (hknown : ∀ key ∈ input.activeProducers, (input.registeredAt.lookup key).isSome)
    (hepoch : 1 < input.epoch) :
    let next := state.deriveAtBoundary input
    let promoted := state.promoted input next.producerList
    (next.producerList.length ≤ activeProducersCap → next.activeList = next.producerList) ∧
      (activeProducersCap < next.producerList.length →
        next.producerList.length ≤ 3 * activeProducersCap + 2 →
          activeProducersCap ≤ promoted.length →
            Leads input.Senior promoted next.activeList activeProducersCap) ∧
      (activeProducersCap < next.producerList.length →
        promoted.length < activeProducersCap →
          next.producerList.length ≤ 3 * promoted.length →
            next.activeList.Perm promoted) := by
  intro next promoted
  have hlisted : ∀ key ∈ next.producerList, (input.registeredAt.lookup key).isSome :=
    fun key hkey => hknown key (mem_producerList hkey)
  have hpromoted : promoted.Nodup := (deriveAtBoundary_nodup hnodup).filter _
  refine ⟨deriveActiveList_of_short, fun hlong hbounded hmany => ?_, fun hlong hfew hthird => ?_⟩
  · have hthird : next.producerList.length / 3 ≤ min activeProducersCap promoted.length := by
      omega
    change Leads input.Senior promoted (state.deriveActiveList input next.producerList) _
    rw [deriveActiveList_of_third hepoch hlisted hlong hthird]
    exact leads_take_insertionSort input.Senior hpromoted hmany
  · have hcut : next.producerList.length / 3 ≤ min activeProducersCap promoted.length := by
      omega
    change (state.deriveActiveList input next.producerList).Perm promoted
    rw [deriveActiveList_of_third hepoch hlisted hlong hcut, List.take_of_length_le]
    · exact List.perm_insertionSort input.Senior promoted
    · rw [List.length_insertionSort]
      exact Nat.le_of_lt hfew

/-! ## Three producers, one of them promoted -/

/-- Everybody attested in the finished epoch, the first of them in 30 minutes. -/
def sampleTiers : EpochState where
  epoch := 9
  bondSnapshot := ∅
  producerList := [⟨1⟩, ⟨2⟩, ⟨3⟩]
  activeList := [⟨1⟩, ⟨2⟩, ⟨3⟩]
  attestedSets := ⟨{⟨1⟩, ⟨2⟩, ⟨3⟩}, ∅, ∅⟩
  attestationAccum := ⟨(∅ : Column PublicKey (Finset Nat)).insert ⟨1⟩ (Finset.range 30), ∅, ∅⟩
  blocksProduced := ∅

def sampleThree : EpochDerivationInput :=
  { sampleBoundary [⟨1⟩, ⟨2⟩, ⟨3⟩] with
    registeredAt :=
      (((∅ : Column PublicKey Nat).insert ⟨1⟩ 1).insert ⟨2⟩ 2).insert ⟨3⟩ 3 }

theorem tier_cap_sample :
    let next := sampleTiers.deriveAtBoundary sampleThree
    let promoted := sampleTiers.promoted sampleThree next.producerList
    (next.producerList.length ≤ activeProducersCap → next.activeList = next.producerList) ∧
      (activeProducersCap < next.producerList.length →
        next.producerList.length ≤ 3 * activeProducersCap + 2 →
          activeProducersCap ≤ promoted.length →
            Leads sampleThree.Senior promoted next.activeList activeProducersCap) ∧
      (activeProducersCap < next.producerList.length →
        promoted.length < activeProducersCap →
          next.producerList.length ≤ 3 * promoted.length →
            next.activeList.Perm promoted) :=
  @tier_cap sampleTiers sampleThree (by decide) (by decide +kernel) (by decide)

/-- A third of the list is promoted, and all of it is active. -/
theorem short_list_uncut :
    ¬∀ (state : EpochState) (input : EpochDerivationInput), input.activeProducers.Nodup →
      (∀ key ∈ input.activeProducers, (input.registeredAt.lookup key).isSome) →
        1 < input.epoch →
          let next := state.deriveAtBoundary input
          let promoted := state.promoted input next.producerList
          promoted.length < activeProducersCap →
            next.producerList.length ≤ 3 * promoted.length →
              next.activeList.Perm promoted := by
  intro hall
  have hperm := hall sampleTiers sampleThree (by decide) (by decide +kernel) (by decide)
    (by decide +kernel) (by decide +kernel)
  have hactive : (sampleTiers.deriveAtBoundary sampleThree).activeList.length = 3 := by
    decide +kernel
  have hpromoted : (sampleTiers.promoted sampleThree
      (sampleTiers.deriveAtBoundary sampleThree).producerList).length = 1 := by
    decide +kernel
  have hlength := hperm.length_eq
  rw [hactive, hpromoted] at hlength
  contradiction

end EpochState

end Doli.Core
