import Mathlib.Data.List.Sort
import Doli.Core.Transaction
import Doli.Lib.Column
import Doli.Lib.Run

/-!
# The floor of the producer list

The attestation filter of an epoch boundary and the fallbacks that run when too
few producers attested.
-/

namespace Doli.Core

open Doli.Lib

def activeProducersCap : Nat := 50

def ghostExclusionGraceEpochs : Nat := 3

def minProducersFloor : Nat := 3

/-- Order of the key bytes. -/
def PublicKey.bytesLe (left right : PublicKey) : Prop :=
  left.word.toNat ≤ right.word.toNat

instance : DecidableRel PublicKey.bytesLe := fun left right =>
  inferInstanceAs (Decidable (left.word.toNat ≤ right.word.toNat))

instance : Std.Total PublicKey.bytesLe :=
  ⟨fun left right => Nat.le_total left.word.toNat right.word.toNat⟩

instance : IsTrans PublicKey PublicKey.bytesLe := ⟨fun _ _ _ => Nat.le_trans⟩

instance : Std.Antisymm PublicKey.bytesLe where
  antisymm left right hle hge := by
    have hword : left.word = right.word := BitVec.eq_of_toNat_eq (Nat.le_antisymm hle hge)
    cases left
    cases right
    exact congrArg PublicKey.mk hword

/-- Registration height first, then the key bytes. -/
def seniorLe (left right : PublicKey × Nat) : Prop :=
  left.2 < right.2 ∨ left.2 = right.2 ∧ left.1.bytesLe right.1

instance : DecidableRel seniorLe := fun left right =>
  inferInstanceAs (Decidable (left.2 < right.2 ∨
    left.2 = right.2 ∧ left.1.bytesLe right.1))

instance : Std.Total seniorLe where
  total left right := by
    unfold seniorLe
    have hkeys := Nat.le_total left.1.word.toNat right.1.word.toNat
    unfold PublicKey.bytesLe
    omega

instance : IsTrans (PublicKey × Nat) seniorLe where
  trans first second third hfirst hsecond := by
    unfold seniorLe PublicKey.bytesLe at *
    omega

instance : Std.Antisymm seniorLe where
  antisymm left right hle hge := by
    have hreg : left.2 = right.2 := by
      unfold seniorLe at hle hge
      omega
    have hkey : left.1 = right.1 := by
      refine antisymm (r := PublicKey.bytesLe) ?_ ?_
      · rcases hle with hlt | ⟨-, hkeys⟩
        · omega
        · exact hkeys
      · rcases hge with hlt | ⟨-, hkeys⟩
        · omega
        · exact hkeys
    exact Prod.ext hkey hreg

inductive FloorOutcome where
  | notTriggered
  | previousEpochList
  | boundedActiveSet
  | legacyUnbounded
  deriving DecidableEq, Repr

/-- By seniority, at most the cap; an unknown registration sorts last. -/
def senioritySortedCapped (candidates : List PublicKey)
    (registeredAt : Column PublicKey Nat) : List PublicKey :=
  (((candidates.map fun key =>
    (key, (registeredAt.lookup key).getD (2 ^ 64 - 1))).insertionSort seniorLe).take
      activeProducersCap).map Prod.fst

section Ghosts

variable (attestedUnion : Finset PublicKey) (registeredAt : Column PublicKey Nat)
  (blocksPerEpoch epoch : Nat)

/-- Registered for longer than the grace period, and never attested. -/
def isGhost (ghostExclusionActive : Bool) (key : PublicKey) : Bool :=
  ghostExclusionActive && !decide (key ∈ attestedUnion) &&
    (registeredAt.lookup key).any fun registration =>
      ghostExclusionGraceEpochs < epoch - registration / blocksPerEpoch

end Ghosts

def legacyFallback (activeProducers : List PublicKey) (hasGhosts : Bool)
    (isGhost : PublicKey → Bool) : List PublicKey :=
  if hasGhosts then activeProducers.filter fun key => !isGhost key
  else activeProducers

/-- The members of the previous list that are still active, each once. -/
def previousCandidates (activeProducers : List PublicKey)
    (prev : Option (List PublicKey)) (isGhost : PublicKey → Bool) :
    List PublicKey :=
  let survivors := (prev.getD []).filter fun key =>
    decide (key ∈ activeProducers) && !isGhost key
  survivors.foldl (fun seen key => if key ∈ seen then seen else seen ++ [key]) []

def boundedFallback (activeProducers : List PublicKey)
    (registeredAt : Column PublicKey Nat) (prev : Option (List PublicKey))
    (isGhost : PublicKey → Bool) : List PublicKey × FloorOutcome :=
  let fromPrev := senioritySortedCapped
    (previousCandidates activeProducers prev isGhost) registeredAt
  if minProducersFloor ≤ fromPrev.length then (fromPrev, .previousEpochList)
  else
    let fromActive := senioritySortedCapped
      (activeProducers.filter fun key => !isGhost key) registeredAt
    if fromActive.isEmpty && !activeProducers.isEmpty then
      (senioritySortedCapped activeProducers registeredAt, .boundedActiveSet)
    else (fromActive, .boundedActiveSet)

def computeLiveProducerList (activeProducers : List PublicKey)
    (attestedUnion : Finset PublicKey) (registeredAt : Column PublicKey Nat)
    (blocksPerEpoch epoch height ghostExclusionActivationHeight
      epochPruneActivationHeight incI190FloorBoundActivationHeight : Nat)
    (prev : Option (List PublicKey)) : List PublicKey × FloorOutcome :=
  let attested := activeProducers.filter fun key => decide (key ∈ attestedUnion)
  let ghostExclusionActive :=
    decide (ghostExclusionActivationHeight ≤ height ∧ 1 < epoch)
  let ghost := isGhost attestedUnion registeredAt blocksPerEpoch epoch
    ghostExclusionActive
  let ghostCount := activeProducers.countP ghost
  let effectiveActive := activeProducers.length - ghostCount
  if epochPruneActivationHeight ≤ height then
    if attested.length < minProducersFloor then
      if incI190FloorBoundActivationHeight ≤ height then
        boundedFallback activeProducers registeredAt prev ghost
      else
        (legacyFallback activeProducers (0 < ghostCount) ghost, .legacyUnbounded)
    else (attested, .notTriggered)
  else if attested.length < effectiveActive * 2 / 3 ∨
      (attested.isEmpty ∧ 0 < effectiveActive) then
    (legacyFallback activeProducers (0 < ghostCount) ghost, .legacyUnbounded)
  else (attested, .notTriggered)

/-! ## What the fallbacks return -/

variable {activeProducers : List PublicKey} {registeredAt : Column PublicKey Nat}

theorem mem_of_mem_senioritySortedCapped {candidates : List PublicKey}
    {key : PublicKey} (hkey : key ∈ senioritySortedCapped candidates registeredAt) :
    key ∈ candidates := by
  obtain ⟨row, hrow, rfl⟩ := List.mem_map.mp hkey
  have hsorted := List.mem_of_mem_take hrow
  rw [List.mem_insertionSort] at hsorted
  obtain ⟨candidate, hcandidate, rfl⟩ := List.mem_map.mp hsorted
  exact hcandidate

theorem nodup_senioritySortedCapped {candidates : List PublicKey}
    (hnodup : candidates.Nodup) :
    (senioritySortedCapped candidates registeredAt).Nodup := by
  have hrows : ((candidates.map fun key =>
      (key, (registeredAt.lookup key).getD (2 ^ 64 - 1))).map Prod.fst).Nodup := by
    rw [List.map_map]
    exact (List.map_id candidates).symm ▸ hnodup
  refine List.Nodup.sublist (List.Sublist.map _ (List.take_sublist _ _)) ?_
  exact ((List.perm_insertionSort seniorLe _).map Prod.fst).nodup_iff.mpr hrows

theorem senioritySortedCapped_ne_nil {candidates : List PublicKey}
    (hsome : candidates ≠ []) :
    senioritySortedCapped candidates registeredAt ≠ [] := by
  intro hempty
  have hlength := congrArg List.length hempty
  have hpos := List.length_pos_iff.mpr hsome
  simp only [senioritySortedCapped, List.length_map, List.length_take,
    List.length_insertionSort, activeProducersCap, List.length_nil] at hlength
  omega

theorem previousCandidates_spec {prev : Option (List PublicKey)}
    {isGhost : PublicKey → Bool} :
    (previousCandidates activeProducers prev isGhost).Nodup ∧
      ∀ key ∈ previousCandidates activeProducers prev isGhost,
        key ∈ activeProducers := by
  have hkept : ∀ survivors : List PublicKey,
      (survivors.foldl (fun seen key => if key ∈ seen then seen else seen ++ [key])
        []).Nodup ∧
      ∀ key ∈ survivors.foldl (fun seen key =>
        if key ∈ seen then seen else seen ++ [key]) [], key ∈ survivors := by
    intro survivors
    refine foldl_invariant (fun done (seen : List PublicKey) =>
      seen.Nodup ∧ ∀ key ∈ seen, key ∈ done) (by simp) ?_
    rintro done key rest seen - ⟨hnodup, hdone⟩
    split
    · exact ⟨hnodup, fun other hother => List.mem_append_left _ (hdone other hother)⟩
    case isFalse hnew =>
      refine ⟨hnodup.append (List.nodup_singleton _) ?_, fun other hother => ?_⟩
      · intro other hother hkey
        exact hnew (List.mem_singleton.mp hkey ▸ hother)
      · rcases List.mem_append.mp hother with hold | hkey
        · exact List.mem_append_left _ (hdone other hold)
        · exact List.mem_append_right _ hkey
  obtain ⟨hnodup, hmem⟩ := hkept ((prev.getD []).filter fun key =>
    decide (key ∈ activeProducers) && !isGhost key)
  refine ⟨hnodup, fun key hkey => ?_⟩
  have hsurvivor := (List.mem_filter.mp (hmem key hkey)).2
  simp only [Bool.and_eq_true, decide_eq_true_eq] at hsurvivor
  exact hsurvivor.1

/-- A list that can be scheduled: some of the active producers, each once. -/
structure DrawnFrom (activeProducers list : List PublicKey) : Prop where
  some : list ≠ []
  nodup : list.Nodup
  active : ∀ key ∈ list, key ∈ activeProducers

theorem DrawnFrom.all (hsome : activeProducers ≠ []) (hnodup : activeProducers.Nodup) :
    DrawnFrom activeProducers activeProducers :=
  ⟨hsome, hnodup, fun _ => id⟩

theorem DrawnFrom.senioritySortedCapped {candidates : List PublicKey}
    (hdrawn : DrawnFrom activeProducers candidates) :
    DrawnFrom activeProducers (senioritySortedCapped candidates registeredAt) where
  some := senioritySortedCapped_ne_nil hdrawn.some
  nodup := nodup_senioritySortedCapped hdrawn.nodup
  active key hkey := hdrawn.active key (mem_of_mem_senioritySortedCapped hkey)

theorem boundedFallback_drawnFrom (hsome : activeProducers ≠ [])
    (hnodup : activeProducers.Nodup) (prev : Option (List PublicKey))
    (isGhost : PublicKey → Bool) :
    DrawnFrom activeProducers
      (boundedFallback activeProducers registeredAt prev isGhost).1 := by
  have hprev : (previousCandidates activeProducers prev isGhost).Nodup ∧
      ∀ key ∈ previousCandidates activeProducers prev isGhost,
        key ∈ activeProducers := previousCandidates_spec
  simp only [boundedFallback]
  split
  case isTrue hfloor =>
    refine ⟨fun hempty => ?_, nodup_senioritySortedCapped hprev.1, fun key hkey =>
      hprev.2 key (mem_of_mem_senioritySortedCapped hkey)⟩
    dsimp only at hempty
    rw [hempty] at hfloor
    simp [minProducersFloor] at hfloor
  · split
    · exact (DrawnFrom.all hsome hnodup).senioritySortedCapped
    case isFalse hfound =>
      refine ⟨fun hempty => hfound ?_,
        nodup_senioritySortedCapped (hnodup.sublist List.filter_sublist),
        fun key hkey => List.mem_of_mem_filter (mem_of_mem_senioritySortedCapped hkey)⟩
      dsimp only at hempty
      simp [hempty, hsome]

theorem computeLiveProducerList_drawnFrom (hsome : activeProducers ≠ [])
    (hnodup : activeProducers.Nodup) {attestedUnion : Finset PublicKey}
    {blocksPerEpoch epoch height ghostExclusionActivationHeight
      epochPruneActivationHeight incI190FloorBoundActivationHeight : Nat}
    {prev : Option (List PublicKey)} (hprune : epochPruneActivationHeight ≤ height)
    (hbound : incI190FloorBoundActivationHeight ≤ height) :
    DrawnFrom activeProducers
      (computeLiveProducerList activeProducers attestedUnion registeredAt
        blocksPerEpoch epoch height ghostExclusionActivationHeight
        epochPruneActivationHeight incI190FloorBoundActivationHeight prev).1 := by
  simp only [computeLiveProducerList, hprune, hbound, if_true]
  split
  · exact boundedFallback_drawnFrom hsome hnodup _ _
  case isFalse hfloor =>
    refine ⟨fun hempty => hfloor ?_, hnodup.sublist List.filter_sublist,
      fun key hkey => List.mem_of_mem_filter hkey⟩
    dsimp only at hempty
    rw [hempty]
    exact Nat.zero_lt_succ _

theorem nodup_computeLiveProducerList (hnodup : activeProducers.Nodup)
    {attestedUnion : Finset PublicKey}
    {blocksPerEpoch epoch height ghostExclusionActivationHeight
      epochPruneActivationHeight incI190FloorBoundActivationHeight : Nat}
    {prev : Option (List PublicKey)} :
    (computeLiveProducerList activeProducers attestedUnion registeredAt
      blocksPerEpoch epoch height ghostExclusionActivationHeight
      epochPruneActivationHeight incI190FloorBoundActivationHeight prev).1.Nodup := by
  have hattested : (activeProducers.filter
      fun key => decide (key ∈ attestedUnion)).Nodup := hnodup.filter _
  have hlegacy : ∀ (ghost : PublicKey → Bool) (hasGhosts : Bool),
      (legacyFallback activeProducers hasGhosts ghost).Nodup := by
    intro ghost hasGhosts
    unfold legacyFallback
    split
    · exact hnodup.filter _
    · exact hnodup
  simp only [computeLiveProducerList]
  split_ifs
  · cases activeProducers with
    | nil =>
        unfold boundedFallback
        dsimp only
        split
        · exact nodup_senioritySortedCapped previousCandidates_spec.1
        · split <;> exact nodup_senioritySortedCapped (by simp)
    | cons first rest => exact (boundedFallback_drawnFrom (by simp) hnodup _ _).nodup
  · exact hlegacy _ _
  · exact hattested
  · exact hlegacy _ _
  · exact hattested

end Doli.Core
