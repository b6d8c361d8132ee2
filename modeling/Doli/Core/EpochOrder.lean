import Doli.Core.EpochState

/-!
# The schedule depends only on the chain

Nodes may track the blocks of an epoch in different orders and list the active
producers in different orders.  What they track is one credit for each block,
and credits commute; what they list is sorted by a total order.
-/

namespace Doli.Core

open Doli.Lib

section Sorting

variable {α : Type} {le : α → α → Prop} [DecidableRel le] [Std.Total le] [IsTrans α le]
  [Std.Antisymm le]

theorem insertionSort_eq_of_perm {first second : List α} (hperm : first.Perm second) :
    first.insertionSort le = second.insertionSort le := by
  have hsorted : (first.insertionSort le).Perm (second.insertionSort le) :=
    (List.perm_insertionSort le first).trans
      (hperm.trans (List.perm_insertionSort le second).symm)
  exact hsorted.eq_of_pairwise' (List.pairwise_insertionSort le first)
    (List.pairwise_insertionSort le second)

end Sorting

/-! ## What a block credits -/

/-- What the tracking reads of a block: the names behind the positions, as a
set. -/
structure BlockCredit where
  producer : PublicKey
  slot : Nat
  attesters : Finset PublicKey
  deriving DecidableEq

def BlockCredit.members (credit : BlockCredit) : Finset PublicKey :=
  insert credit.producer credit.attesters

def BlockAccumulationInput.credit (listed : List PublicKey)
    (block : BlockAccumulationInput) : BlockCredit where
  producer := block.producer
  slot := block.slot
  attesters :=
    if block.hasAttestationData then
      (block.attestedIndices.filterMap fun index => listed[index]?).toFinset
    else ∅

namespace EpochState

/-- Attestations of the same minute, one after the other. -/
def attestAll (state : EpochState) (keys : List PublicKey) (minute : Nat) : EpochState :=
  keys.foldl (fun state key => state.attest key minute) state

def countBlock (state : EpochState) (producer : PublicKey) : EpochState :=
  { state with
    blocksProduced := state.blocksProduced.insert producer
      (((state.blocksProduced.lookup producer).getD 0 + 1) % 2 ^ 32) }

/-- The tracking of a credit, in any order of its members. -/
noncomputable def creditBlock (state : EpochState) (credit : BlockCredit) : EpochState :=
  (state.countBlock credit.producer).attestAll credit.members.toList
    (attestationMinute credit.slot)

/-- What the tracking of an epoch leaves alone. -/
structure SameEpoch (first second : EpochState) : Prop where
  epoch : first.epoch = second.epoch
  bonds : first.bondSnapshot = second.bondSnapshot
  listed : first.producerList = second.producerList
  active : first.activeList = second.activeList
  attestedPrevious : first.attestedSets.previous = second.attestedSets.previous
  attestedBefore : first.attestedSets.beforePrevious = second.attestedSets.beforePrevious
  minutesPrevious : first.attestationAccum.previous = second.attestationAccum.previous
  minutesBefore :
    first.attestationAccum.beforePrevious = second.attestationAccum.beforePrevious

theorem SameEpoch.rfl {state : EpochState} : SameEpoch state state :=
  ⟨Eq.refl _, Eq.refl _, Eq.refl _, Eq.refl _, Eq.refl _, Eq.refl _, Eq.refl _, Eq.refl _⟩

theorem SameEpoch.trans {first second third : EpochState} (hfirst : SameEpoch first second)
    (hsecond : SameEpoch second third) : SameEpoch first third where
  epoch := hfirst.epoch.trans hsecond.epoch
  bonds := hfirst.bonds.trans hsecond.bonds
  listed := hfirst.listed.trans hsecond.listed
  active := hfirst.active.trans hsecond.active
  attestedPrevious := hfirst.attestedPrevious.trans hsecond.attestedPrevious
  attestedBefore := hfirst.attestedBefore.trans hsecond.attestedBefore
  minutesPrevious := hfirst.minutesPrevious.trans hsecond.minutesPrevious
  minutesBefore := hfirst.minutesBefore.trans hsecond.minutesBefore

theorem SameEpoch.symm {first second : EpochState} (hsame : SameEpoch first second) :
    SameEpoch second first :=
  ⟨hsame.epoch.symm, hsame.bonds.symm, hsame.listed.symm, hsame.active.symm,
    hsame.attestedPrevious.symm, hsame.attestedBefore.symm, hsame.minutesPrevious.symm,
    hsame.minutesBefore.symm⟩

theorem SameEpoch.eq {first second : EpochState} (hsame : SameEpoch first second)
    (hset : ∀ key, key ∈ first.attestedSets.current ↔ key ∈ second.attestedSets.current)
    (hminutes : ∀ key, first.attestationAccum.current.lookup key =
      second.attestationAccum.current.lookup key)
    (hproduced : ∀ key, first.blocksProduced.lookup key = second.blocksProduced.lookup key) :
    first = second := by
  have hset : first.attestedSets.current = second.attestedSets.current :=
    Finset.ext hset
  have hminutes : first.attestationAccum.current = second.attestationAccum.current :=
    Finmap.ext_lookup hminutes
  have hproduced : first.blocksProduced = second.blocksProduced :=
    Finmap.ext_lookup hproduced
  obtain ⟨hepoch, hbonds, hlisted, hactive, hone, htwo, hthree, hfour⟩ := hsame
  cases first with
  | mk epoch bonds listed active sets accum produced =>
      cases sets
      cases accum
      cases second with
      | mk epoch bonds listed active sets accum produced =>
          cases sets
          cases accum
          simp_all

/-! ## Credits commute -/

section Credits

variable {state : EpochState} {keys : List PublicKey} {minute : Nat} {key : PublicKey}

theorem attestAll_sameEpoch : SameEpoch (state.attestAll keys minute) state := by
  induction keys generalizing state with
  | nil => exact .rfl
  | cons first keys ih => exact ih.trans ⟨rfl, rfl, rfl, rfl, rfl, rfl, rfl, rfl⟩

theorem attestAll_blocksProduced :
    (state.attestAll keys minute).blocksProduced = state.blocksProduced := by
  induction keys generalizing state with
  | nil => rfl
  | cons first keys ih => exact ih.trans rfl

theorem mem_attestAll :
    key ∈ (state.attestAll keys minute).attestedSets.current ↔
      key ∈ keys ∨ key ∈ state.attestedSets.current := by
  induction keys generalizing state with
  | nil => simp [attestAll]
  | cons first keys ih =>
      rw [attestAll, List.foldl_cons, ← attestAll, ih]
      simp only [attest, Finset.mem_insert, List.mem_cons]
      tauto

theorem lookup_attestAll :
    (state.attestAll keys minute).attestationAccum.current.lookup key =
      if key ∈ keys then
        some (insert minute ((state.attestationAccum.current.lookup key).getD ∅))
      else state.attestationAccum.current.lookup key := by
  induction keys generalizing state with
  | nil => simp [attestAll]
  | cons first keys ih =>
      rw [attestAll, List.foldl_cons, ← attestAll, ih]
      by_cases hfirst : key = first
      · subst hfirst
        simp [attest]
      · simp [attest, hfirst, Finmap.lookup_insert_of_ne _ hfirst]

theorem attestAll_congr {others : List PublicKey}
    (hkeys : ∀ key, key ∈ keys ↔ key ∈ others) :
    state.attestAll keys minute = state.attestAll others minute := by
  refine SameEpoch.eq ?_ (fun key => ?_) (fun key => ?_) (fun key => ?_)
  · exact attestAll_sameEpoch.trans attestAll_sameEpoch.symm
  · rw [mem_attestAll, mem_attestAll, hkeys]
  · simp only [lookup_attestAll, hkeys]
  · rw [attestAll_blocksProduced, attestAll_blocksProduced]

variable {credit other : BlockCredit}

theorem creditBlock_sameEpoch : SameEpoch (state.creditBlock credit) state :=
  attestAll_sameEpoch.trans ⟨rfl, rfl, rfl, rfl, rfl, rfl, rfl, rfl⟩

theorem mem_creditBlock :
    key ∈ (state.creditBlock credit).attestedSets.current ↔
      key ∈ credit.members ∨ key ∈ state.attestedSets.current := by
  rw [creditBlock, mem_attestAll, Finset.mem_toList]
  rfl

theorem lookup_creditBlock :
    (state.creditBlock credit).attestationAccum.current.lookup key =
      if key ∈ credit.members then
        some (insert (attestationMinute credit.slot)
          ((state.attestationAccum.current.lookup key).getD ∅))
      else state.attestationAccum.current.lookup key := by
  simp only [creditBlock, lookup_attestAll, Finset.mem_toList]
  rfl

theorem blocksProduced_creditBlock :
    (state.creditBlock credit).blocksProduced.lookup key =
      if key = credit.producer then
        some (((state.blocksProduced.lookup key).getD 0 + 1) % 2 ^ 32)
      else state.blocksProduced.lookup key := by
  rw [creditBlock, attestAll_blocksProduced]
  by_cases hkey : key = credit.producer
  · subst hkey
    simp [countBlock]
  · simp [countBlock, hkey, Finmap.lookup_insert_of_ne _ hkey]

theorem creditBlock_comm :
    (state.creditBlock credit).creditBlock other =
      (state.creditBlock other).creditBlock credit := by
  refine SameEpoch.eq ?_ (fun key => ?_) (fun key => ?_) (fun key => ?_)
  · exact (creditBlock_sameEpoch.trans creditBlock_sameEpoch).trans
      (creditBlock_sameEpoch.trans creditBlock_sameEpoch).symm
  · simp only [mem_creditBlock]
    tauto
  · simp only [lookup_creditBlock]
    split_ifs
    · simp [Finset.insert_comm]
    · rfl
    · rfl
    · rfl
  · simp only [blocksProduced_creditBlock]
    split_ifs <;> rfl

theorem accumulateBlock_eq (state : EpochState) (block : BlockAccumulationInput) :
    state.accumulateBlock block = state.creditBlock (block.credit state.producerList) := by
  have hpass : state.accumulateBlock block =
      (state.countBlock block.producer).attestAll (block.producer ::
        (if block.hasAttestationData then
          block.attestedIndices.filterMap fun index => state.producerList[index]?
        else [])) (attestationMinute block.slot) := by
    unfold accumulateBlock
    dsimp only
    split
    · rw [attestAll, List.foldl_cons, List.foldl_filterMap]
      refine (@foldl_attest_listed ((state.countBlock block.producer).attest block.producer
        (attestationMinute block.slot)) block.attestedIndices _ state.producerList rfl).trans ?_
      congr 1
      funext current index
      cases state.producerList[index]? with
      | none => rfl
      | some key => rfl
    · rfl
  rw [hpass]
  refine attestAll_congr fun key => ?_
  rw [Finset.mem_toList, BlockCredit.members, Finset.mem_insert, List.mem_cons]
  unfold BlockAccumulationInput.credit
  dsimp only
  split <;> simp

theorem foldl_accumulateBlock_eq (blocks : List BlockAccumulationInput) :
    blocks.foldl accumulateBlock state =
      (blocks.map (·.credit state.producerList)).foldl creditBlock state := by
  have hlisted : ∀ current : EpochState, current.producerList = state.producerList →
      blocks.foldl accumulateBlock current =
        (blocks.map (·.credit state.producerList)).foldl creditBlock current := by
    induction blocks with
    | nil => exact fun _ _ => rfl
    | cons block blocks ih =>
        intro current hcurrent
        rw [List.foldl_cons, List.map_cons, List.foldl_cons, ih, accumulateBlock_eq, hcurrent]
        rw [(accumulateBlock_lists block).1, hcurrent]
  exact hlisted state rfl

theorem foldl_accumulateBlock_perm {first second : List BlockAccumulationInput}
    (hblocks : (first.map (·.credit state.producerList)).Perm
      (second.map (·.credit state.producerList))) :
    first.foldl accumulateBlock state = second.foldl accumulateBlock state := by
  rw [foldl_accumulateBlock_eq, foldl_accumulateBlock_eq]
  refine hblocks.foldl_eq' (fun credit _ other _ current => ?_) state
  exact creditBlock_comm

end Credits

/-! ## The lists of a boundary -/

section Boundary

variable {active others : List PublicKey} {registeredAt : Column PublicKey Nat}

theorem senioritySortedCapped_perm (hactive : active.Perm others) :
    senioritySortedCapped active registeredAt =
      senioritySortedCapped others registeredAt := by
  rw [senioritySortedCapped, insertionSort_eq_of_perm (hactive.map _)]
  rfl

theorem previousCandidates_perm (hactive : active.Perm others)
    (prev : Option (List PublicKey)) (isGhost : PublicKey → Bool) :
    previousCandidates active prev isGhost = previousCandidates others prev isGhost := by
  simp only [previousCandidates, hactive.mem_iff]

theorem boundedFallback_perm (hactive : active.Perm others)
    (prev : Option (List PublicKey)) (isGhost : PublicKey → Bool) :
    boundedFallback active registeredAt prev isGhost =
      boundedFallback others registeredAt prev isGhost := by
  have hempty : active.isEmpty = others.isEmpty := by
    rw [Bool.eq_iff_iff, List.isEmpty_iff_length_eq_zero, List.isEmpty_iff_length_eq_zero,
      hactive.length_eq]
  simp only [boundedFallback, previousCandidates_perm hactive, hempty,
    senioritySortedCapped_perm hactive, senioritySortedCapped_perm (hactive.filter _)]

theorem legacyFallback_perm (hactive : active.Perm others) (hasGhosts : Bool)
    (isGhost : PublicKey → Bool) :
    (legacyFallback active hasGhosts isGhost).Perm
      (legacyFallback others hasGhosts isGhost) := by
  unfold legacyFallback
  split
  · exact hactive.filter _
  · exact hactive

variable {attestedUnion : Finset PublicKey} {prev : Option (List PublicKey)}
  {blocksPerEpoch epoch height ghostExclusionActivationHeight epochPruneActivationHeight
    incI190FloorBoundActivationHeight : Nat}

theorem computeLiveProducerList_perm (hactive : active.Perm others) :
    let live := fun active => computeLiveProducerList active attestedUnion registeredAt
      blocksPerEpoch epoch height ghostExclusionActivationHeight epochPruneActivationHeight
      incI190FloorBoundActivationHeight prev
    (live active).1.Perm (live others).1 ∧ (live active).2 = (live others).2 := by
  have hattested := hactive.filter fun key => decide (key ∈ attestedUnion)
  have hempty : (active.filter fun key => decide (key ∈ attestedUnion)).isEmpty =
      (others.filter fun key => decide (key ∈ attestedUnion)).isEmpty := by
    rw [Bool.eq_iff_iff, List.isEmpty_iff_length_eq_zero, List.isEmpty_iff_length_eq_zero,
      hattested.length_eq]
  simp only [computeLiveProducerList, hattested.length_eq, hempty, hactive.length_eq,
    hactive.countP_eq, boundedFallback_perm hactive]
  split_ifs
  · exact ⟨.refl _, rfl⟩
  · exact ⟨legacyFallback_perm hactive _ _, rfl⟩
  · exact ⟨hattested, rfl⟩
  · exact ⟨legacyFallback_perm hactive _ _, rfl⟩
  · exact ⟨hattested, rfl⟩

theorem deriveAtBoundary_perm (state : EpochState) (input : EpochDerivationInput)
    (hactive : input.activeProducers.Perm others) :
    state.deriveAtBoundaryWithOutcome { input with activeProducers := others } =
      state.deriveAtBoundaryWithOutcome input := by
  have hlive : (state.liveProducers input).1.Perm
        (state.liveProducers { input with activeProducers := others }).1 ∧
      (state.liveProducers input).2 =
        (state.liveProducers { input with activeProducers := others }).2 := by
    unfold liveProducers
    dsimp only
    split_ifs
    · exact ⟨hactive, rfl⟩
    · exact computeLiveProducerList_perm hactive
    · exact ⟨hactive, rfl⟩
  unfold deriveAtBoundaryWithOutcome
  dsimp only
  rw [hlive.2, insertionSort_eq_of_perm hlive.1]
  rfl

end Boundary

/-- Two nodes that track the same blocks of an epoch, in any order and with the same
credited attesters, derive the same epoch state from any order of the active
producers: the lists, the counters carried over and the branch of the floor. -/
theorem schedule_of_chain (state : EpochState)
    {first second : List BlockAccumulationInput} {input : EpochDerivationInput}
    {others : List PublicKey}
    (hblocks : (first.map (·.credit state.producerList)).Perm
      (second.map (·.credit state.producerList)))
    (hactive : input.activeProducers.Perm others) :
    first.foldl accumulateBlock state = second.foldl accumulateBlock state ∧
      (first.foldl accumulateBlock state).deriveAtBoundaryWithOutcome input =
        (second.foldl accumulateBlock state).deriveAtBoundaryWithOutcome
          { input with activeProducers := others } := by
  have htracked := foldl_accumulateBlock_perm hblocks
  exact ⟨htracked, by rw [htracked, deriveAtBoundary_perm _ input hactive]⟩

/-! ## Two orders of one epoch -/

def sampleTracked (producer slot : Nat) (indices : List Nat) : BlockAccumulationInput where
  producer := ⟨.ofNat 256 producer⟩
  slot := slot
  hasAttestationData := true
  attestedIndices := indices

def sampleEpoch : EpochState :=
  { genesis with producerList := [⟨1⟩, ⟨2⟩, ⟨3⟩] }

theorem schedule_of_chain_sample :
    [sampleTracked 1 60 [0, 2], sampleTracked 2 61 [1]].foldl accumulateBlock sampleEpoch =
        [sampleTracked 2 61 [1], sampleTracked 1 60 [0, 2]].foldl accumulateBlock
          sampleEpoch ∧
      ([sampleTracked 1 60 [0, 2], sampleTracked 2 61 [1]].foldl accumulateBlock
          sampleEpoch).deriveAtBoundaryWithOutcome (sampleBoundary [⟨3⟩, ⟨1⟩]) =
        ([sampleTracked 2 61 [1], sampleTracked 1 60 [0, 2]].foldl accumulateBlock
          sampleEpoch).deriveAtBoundaryWithOutcome (sampleBoundary [⟨1⟩, ⟨3⟩]) :=
  @schedule_of_chain sampleEpoch _ _ (sampleBoundary [⟨3⟩, ⟨1⟩]) _
    (List.Perm.swap _ _ _) (List.Perm.swap _ _ _)

end EpochState

end Doli.Core
