import Doli.Core.Floor

/-!
# The epoch schedule

`EpochState`: what the round-robin scheduler reads, the tracking of one block,
and the derivation at an epoch boundary.
-/

namespace Doli.Core

open Doli.Lib

def minAttestationMinutes : Nat := 30

def tierSystemActivationHeight : Nat := 0

def tierPromotionActivationHeight : Nat := 0

def slotsPerAttestationMinute : Nat := 6

def attestationMinute (slot : Nat) : Nat := slot / slotsPerAttestationMinute

/-- The running epoch and the two before it. -/
structure Lookback (α : Type) where
  current : α
  previous : α
  beforePrevious : α

namespace Lookback

variable {α : Type}

/-- The oldest epoch is dropped. -/
def rotate (fresh : α) (lookback : Lookback α) : Lookback α :=
  ⟨fresh, lookback.current, lookback.previous⟩

end Lookback

structure EpochState where
  epoch : Nat
  bondSnapshot : Column Hash Nat
  producerList : List PublicKey
  activeList : List PublicKey
  attestedSets : Lookback (Finset PublicKey)
  attestationAccum : Lookback (Column PublicKey (Finset Nat))
  blocksProduced : Column PublicKey Nat

structure EpochDerivationInput where
  activeProducers : List PublicKey
  bondCounts : Column Hash Nat
  blocksPerEpoch : Nat
  snapAttestationSkipHeight : Nat
  height : Nat
  epoch : Nat
  registeredAt : Column PublicKey Nat
  ghostExclusionActivationHeight : Nat
  epochPruneActivationHeight : Nat
  incI190FloorBoundActivationHeight : Nat
  incI193AttestorRefillActivationHeight : Nat

structure BlockAccumulationInput where
  producer : PublicKey
  slot : Nat
  hasAttestationData : Bool
  attestedIndices : List Nat

namespace EpochState

def genesis : EpochState where
  epoch := 0
  bondSnapshot := ∅
  producerList := []
  activeList := []
  attestedSets := ⟨∅, ∅, ∅⟩
  attestationAccum := ⟨∅, ∅, ∅⟩
  blocksProduced := ∅

variable (state : EpochState)

/-- One attestation in the running epoch, by the producer or by a set bit. -/
def attest (key : PublicKey) (minute : Nat) : EpochState :=
  { state with
    attestedSets := { state.attestedSets with
      current := insert key state.attestedSets.current }
    attestationAccum := { state.attestationAccum with
      current := state.attestationAccum.current.insert key
        (insert minute ((state.attestationAccum.current.lookup key).getD ∅)) } }

def accumulateBlock (input : BlockAccumulationInput) : EpochState :=
  let minute := attestationMinute input.slot
  let produced := { state.attest input.producer minute with
    blocksProduced := state.blocksProduced.insert input.producer
      (((state.blocksProduced.lookup input.producer).getD 0 + 1) % 2 ^ 32) }
  if input.hasAttestationData then
    input.attestedIndices.foldl (fun state index =>
      match state.producerList[index]? with
      | some key => state.attest key minute
      | none => state) produced
  else produced

def attestedUnion : Finset PublicKey :=
  state.attestedSets.current ∪ state.attestedSets.previous ∪
    state.attestedSets.beforePrevious

/-- The producers of the new epoch before they are sorted, and the branch the
floor took. -/
def liveProducers (input : EpochDerivationInput) : List PublicKey × FloorOutcome :=
  if input.epoch ≤ 1 then (input.activeProducers, .notTriggered)
  else if state.attestedSets.current.Nonempty ∨
      input.height < input.snapAttestationSkipHeight then
    computeLiveProducerList input.activeProducers state.attestedUnion
      input.registeredAt input.blocksPerEpoch input.epoch input.height
      input.ghostExclusionActivationHeight input.epochPruneActivationHeight
      input.incI190FloorBoundActivationHeight (some state.producerList)
  else (input.activeProducers, .notTriggered)

/-- Whether a producer of the finished epoch attested and produced enough. -/
def keepsTier (input : EpochDerivationInput) (listed : Nat) (key : PublicKey) :
    Bool :=
  let expectedPerProducer := input.blocksPerEpoch / max listed 1
  let minProduced := max (expectedPerProducer * 80 % 2 ^ 64 / 100) 1
  let minutes := ((state.attestationAccum.current.lookup key).getD ∅).card
  let produced := (state.blocksProduced.lookup key).getD 0
  decide (minAttestationMinutes ≤ minutes) &&
    (decide (input.incI193AttestorRefillActivationHeight ≤ input.height) ||
      decide (minProduced ≤ produced))

/-- The candidates for the active list: registration known, and from the
promotion height on a good record. -/
def tierCandidates (input : EpochDerivationInput) (newList : List PublicKey) :
    List (PublicKey × Nat) :=
  let withReg := newList.filterMap fun key =>
    (input.registeredAt.lookup key).map fun registration => (key, registration)
  if tierPromotionActivationHeight ≤ input.height ∧ 1 < input.epoch then
    withReg.filter fun row => state.keepsTier input newList.length row.1
  else withReg

/-- The most senior candidates; everybody when they are too few. -/
def deriveActiveList (input : EpochDerivationInput) (newList : List PublicKey) :
    List PublicKey :=
  if tierSystemActivationHeight ≤ input.height ∧
      activeProducersCap < newList.length then
    let result := (((state.tierCandidates input newList).insertionSort
      seniorLe).take activeProducersCap).map Prod.fst
    if result.length < newList.length / 3 ∨ result.isEmpty then newList else result
  else newList

def deriveAtBoundaryWithOutcome (input : EpochDerivationInput) :
    EpochState × FloorOutcome :=
  let live := state.liveProducers input
  let newList := live.1.insertionSort PublicKey.bytesLe
  ({ epoch := input.epoch
     bondSnapshot := input.bondCounts
     producerList := newList
     activeList := state.deriveActiveList input newList
     attestedSets := state.attestedSets.rotate ∅
     attestationAccum := state.attestationAccum.rotate ∅
     blocksProduced := ∅ },
    live.2)

def deriveAtBoundary (input : EpochDerivationInput) : EpochState :=
  (state.deriveAtBoundaryWithOutcome input).1

/-- `active_list[slot % len]`; with an empty list nobody may produce. -/
def expectedProducer (slot : Nat) : Option PublicKey :=
  state.activeList[slot % state.activeList.length]?

end EpochState

/-! ## The schedule after a boundary -/

/-- A boundary above both gates, with producers to schedule. -/
structure EpochDerivationInput.Sound (input : EpochDerivationInput) : Prop where
  some : input.activeProducers ≠ []
  nodup : input.activeProducers.Nodup
  pruned : input.epochPruneActivationHeight ≤ input.height
  bounded : input.incI190FloorBoundActivationHeight ≤ input.height

/-- What a boundary owes the scheduler. -/
structure Scheduled (activeProducers : List PublicKey) (state : EpochState) : Prop
    where
  drawn : DrawnFrom activeProducers state.producerList
  sorted : state.producerList.Pairwise PublicKey.bytesLe
  activeSome : state.activeList ≠ []
  activeNodup : state.activeList.Nodup
  activeListed : ∀ key ∈ state.activeList, key ∈ state.producerList

namespace EpochState

variable {state : EpochState} {input : EpochDerivationInput}

theorem liveProducers_drawnFrom (hsound : input.Sound) :
    DrawnFrom input.activeProducers (state.liveProducers input).1 := by
  have hall := DrawnFrom.all hsound.some hsound.nodup
  unfold liveProducers
  split
  · exact hall
  · split
    · exact computeLiveProducerList_drawnFrom hsound.some hsound.nodup hsound.pruned
        hsound.bounded
    · exact hall

theorem mem_of_mem_tierCandidates {newList : List PublicKey}
    {row : PublicKey × Nat} (hrow : row ∈ state.tierCandidates input newList) :
    row.1 ∈ newList := by
  have hreg : ∀ row ∈ newList.filterMap fun key =>
      (input.registeredAt.lookup key).map fun registration => (key, registration),
      row.1 ∈ newList := by
    intro row hrow
    obtain ⟨key, hkey, heq⟩ := List.mem_filterMap.mp hrow
    obtain ⟨registration, -, rfl⟩ := Option.map_eq_some_iff.mp heq
    exact hkey
  simp only [tierCandidates] at hrow
  split at hrow
  · exact hreg row (List.mem_of_mem_filter hrow)
  · exact hreg row hrow

theorem nodup_tierCandidates {newList : List PublicKey} (hnodup : newList.Nodup) :
    ((state.tierCandidates input newList).map Prod.fst).Nodup := by
  have hreg : ((newList.filterMap fun key =>
      (input.registeredAt.lookup key).map fun registration =>
        (key, registration)).map Prod.fst).Nodup := by
    refine List.Nodup.sublist ?_ hnodup
    clear hnodup
    induction newList with
    | nil => simp
    | cons key keys ih =>
        rw [List.filterMap_cons]
        cases input.registeredAt.lookup key with
        | none => exact ih.cons key
        | some registration => exact ih.cons_cons key
  simp only [tierCandidates]
  split
  · exact hreg.sublist (List.filter_sublist.map _)
  · exact hreg

theorem deriveActiveList_spec {newList : List PublicKey} (hsome : newList ≠ [])
    (hnodup : newList.Nodup) :
    DrawnFrom newList (state.deriveActiveList input newList) := by
  have hall := DrawnFrom.all hsome hnodup
  simp only [deriveActiveList]
  split
  · split
    · exact hall
    case isFalse henough =>
      refine ⟨fun hempty => henough (.inr ?_), ?_, fun key hkey => ?_⟩
      · simp [hempty]
      · refine List.Nodup.sublist (List.Sublist.map _ (List.take_sublist _ _)) ?_
        exact ((List.perm_insertionSort seniorLe _).map Prod.fst).nodup_iff.mpr
          (nodup_tierCandidates hnodup)
      · obtain ⟨row, hrow, rfl⟩ := List.mem_map.mp hkey
        have hsorted := List.mem_of_mem_take hrow
        rw [List.mem_insertionSort] at hsorted
        exact mem_of_mem_tierCandidates hsorted
  · exact hall

theorem deriveAtBoundary_scheduled (state : EpochState) (hsound : input.Sound) :
    Scheduled input.activeProducers (state.deriveAtBoundary input) := by
  have hlive : DrawnFrom input.activeProducers (state.liveProducers input).1 :=
    liveProducers_drawnFrom hsound
  have hperm := List.perm_insertionSort PublicKey.bytesLe (state.liveProducers input).1
  have hlist : DrawnFrom input.activeProducers
      (state.deriveAtBoundary input).producerList :=
    ⟨fun hempty => hlive.some (List.perm_nil.mp (hempty ▸ hperm.symm)),
      hperm.nodup_iff.mpr hlive.nodup,
      fun key hkey => hlive.active key (hperm.mem_iff.mp hkey)⟩
  have hactive : DrawnFrom (state.deriveAtBoundary input).producerList
      (state.deriveAtBoundary input).activeList :=
    deriveActiveList_spec hlist.some hlist.nodup
  exact ⟨hlist, List.pairwise_insertionSort _ _, hactive.some, hactive.nodup,
    hactive.active⟩

@[simp] theorem attest_lists (key : PublicKey) (minute : Nat) :
    (state.attest key minute).producerList = state.producerList ∧
      (state.attest key minute).activeList = state.activeList := ⟨rfl, rfl⟩

theorem accumulateBlock_lists (block : BlockAccumulationInput) :
    (state.accumulateBlock block).producerList = state.producerList ∧
      (state.accumulateBlock block).activeList = state.activeList := by
  simp only [accumulateBlock]
  split
  · refine foldl_invariant (fun _ (current : EpochState) =>
      current.producerList = state.producerList ∧
        current.activeList = state.activeList) ⟨rfl, rfl⟩ ?_
    intro done index rest current _ hcurrent
    split <;> exact hcurrent
  · exact ⟨rfl, rfl⟩

theorem deriveAtBoundary_nodup (hnodup : input.activeProducers.Nodup) :
    (state.deriveAtBoundary input).producerList.Nodup := by
  have hlive : (state.liveProducers input).1.Nodup := by
    unfold liveProducers
    split_ifs
    · exact hnodup
    · exact nodup_computeLiveProducerList hnodup
    · exact hnodup
  exact (List.perm_insertionSort PublicKey.bytesLe _).nodup_iff.mpr hlive

/-! ### Who is credited -/

theorem foldl_attest_listed {indices : List Nat} {minute : Nat}
    {listed : List PublicKey} (hlisted : state.producerList = listed) :
    indices.foldl (fun state index =>
        match state.producerList[index]? with
        | some key => state.attest key minute
        | none => state) state =
      indices.foldl (fun state index =>
        match listed[index]? with
        | some key => state.attest key minute
        | none => state) state := by
  induction indices generalizing state with
  | nil => rfl
  | cons index indices ih =>
      rw [List.foldl_cons, List.foldl_cons, hlisted]
      apply ih
      split <;> exact hlisted

end EpochState

section

variable {state : EpochState}

theorem Scheduled.accumulateBlock {activeProducers : List PublicKey}
    (hscheduled : Scheduled activeProducers state) (block : BlockAccumulationInput) :
    Scheduled activeProducers (state.accumulateBlock block) := by
  obtain ⟨hproducers, hactive⟩ := @EpochState.accumulateBlock_lists state block
  obtain ⟨hdrawn, hsorted, hsome, hnodup, hlisted⟩ := hscheduled
  constructor
  · rwa [hproducers]
  · rwa [hproducers]
  · rwa [hactive]
  · rwa [hactive]
  · rwa [hactive, hproducers]

theorem Scheduled.expectedProducer {activeProducers : List PublicKey}
    (hscheduled : Scheduled activeProducers state) (slot : Nat) :
    ∃ leader ∈ state.producerList, state.expectedProducer slot = some leader := by
  have hlt : slot % state.activeList.length < state.activeList.length :=
    Nat.mod_lt _ (List.length_pos_iff.mpr hscheduled.activeSome)
  exact ⟨state.activeList[slot % state.activeList.length],
    hscheduled.activeListed _ (List.getElem_mem hlt), List.getElem?_eq_getElem hlt⟩

end

/-! ## Runs of epochs -/

inductive EpochStep where
  | accumulate (block : BlockAccumulationInput)
  | boundary (input : EpochDerivationInput)

def EpochState.step (state : EpochState) : EpochStep → EpochState
  | .accumulate block => state.accumulateBlock block
  | .boundary input => state.deriveAtBoundary input

/-- The input of the last boundary of a run. -/
def lastBoundary (steps : List EpochStep) : Option EpochDerivationInput :=
  steps.foldl (fun last step =>
    match step with
    | .accumulate _ => last
    | .boundary input => some input) none

/-- From any state and over any attendance, the lists are those of the last
boundary and every slot has an eligible producer. -/
theorem EpochState.run_scheduled (state : EpochState) {steps : List EpochStep}
    (hsound : ∀ input, .boundary input ∈ steps → input.Sound)
    {input : EpochDerivationInput} (hlast : lastBoundary steps = some input) :
    Scheduled input.activeProducers (steps.foldl EpochState.step state) ∧
      ∀ slot, ∃ leader ∈ (steps.foldl EpochState.step state).producerList,
        (steps.foldl EpochState.step state).expectedProducer slot = some leader := by
  have hscheduled : Scheduled input.activeProducers
      (steps.foldl EpochState.step state) := by
    refine foldl_invariant (fun done (current : EpochState) =>
      ∀ input, lastBoundary done = some input →
        Scheduled input.activeProducers current) ?_ ?_ input hlast
    · intro input hnone
      contradiction
    · intro done step rest current hsteps hinv input hdone
      have hstep : step ∈ steps := by simp [hsteps]
      cases step with
      | accumulate block =>
          have hbefore : lastBoundary done = some input := by
            simpa [lastBoundary] using hdone
          exact (hinv input hbefore).accumulateBlock block
      | boundary other =>
          have hother : other = input := by
            simpa [lastBoundary] using hdone
          exact hother ▸ current.deriveAtBoundary_scheduled (hsound other hstep)
  exact ⟨hscheduled, hscheduled.expectedProducer⟩

/-! ## An epoch nobody attested in -/

def sampleBoundary (activeProducers : List PublicKey) : EpochDerivationInput where
  activeProducers := activeProducers
  bondCounts := ∅
  blocksPerEpoch := 10
  snapAttestationSkipHeight := 2 ^ 64 - 1
  height := 100
  epoch := 10
  registeredAt := (∅ : Column PublicKey Nat).insert ⟨3⟩ 1
  ghostExclusionActivationHeight := 0
  epochPruneActivationHeight := 0
  incI190FloorBoundActivationHeight := 0
  incI193AttestorRefillActivationHeight := 0

theorem EpochState.run_scheduled_ghost :
    Scheduled [⟨3⟩]
      ([.boundary (sampleBoundary [⟨3⟩])].foldl EpochState.step .genesis) := by
  have hlast : lastBoundary [.boundary (sampleBoundary [⟨3⟩])] =
      some (sampleBoundary [⟨3⟩]) := rfl
  refine (EpochState.run_scheduled .genesis (fun input hinput => ?_) hlast).1
  obtain rfl : input = sampleBoundary [⟨3⟩] := by simpa using hinput
  exact ⟨by decide, by decide, by decide, by decide⟩

end Doli.Core
