import Doli.Core.Transaction

/-!
# The chain state

The tip, the genesis data and the protocol version.  No step of the block path
reads or writes the registration chain and the minted total.
-/

namespace Doli.Core

structure ChainState where
  bestHash : Hash
  bestHeight : Nat
  bestSlot : Nat
  totalWork : Nat
  genesisHash : Hash
  genesisTimestamp : Nat
  lastRegistrationHash : Hash := ⟨0⟩
  registrationSequence : Nat := 0
  totalMinted : Nat := 0
  snapSyncHeight : Option Nat
  activeProtocolVersion : Nat
  pendingProtocolActivation : Option (Nat × Nat)
  deriving DecidableEq, Repr

namespace ChainState

def initialProtocolVersion : Nat := 1

def new (genesisHash : Hash) : ChainState where
  bestHash := genesisHash
  bestHeight := 0
  bestSlot := 0
  totalWork := 0
  genesisHash := genesisHash
  genesisTimestamp := 0
  snapSyncHeight := none
  activeProtocolVersion := initialProtocolVersion
  pendingProtocolActivation := none

variable (state : ChainState)

/-- Every block adds one unit of work. -/
def update (hash : Hash) (height slot : Nat) : ChainState :=
  { state with
    bestHash := hash, bestHeight := height, bestSlot := slot, totalWork := height }

def clearSnapSync : ChainState := { state with snapSyncHeight := none }

/-- The registration chain and the minted total. -/
def registration : Hash × Nat × Nat :=
  (state.lastRegistrationHash, state.registrationSequence, state.totalMinted)

/-! ## Protocol activation -/

/-- An activation is scheduled for a later epoch and a newer version only. -/
def scheduleActivation (currentEpoch : Nat) (verified : Option (Nat × Nat)) :
    ChainState :=
  match verified with
  | none => state
  | some (version, activationEpoch) =>
      if currentEpoch < activationEpoch ∧ state.activeProtocolVersion < version then
        { state with pendingProtocolActivation := some (version, activationEpoch) }
      else state

def activatePending (currentEpoch : Nat) : ChainState :=
  match state.pendingProtocolActivation with
  | none => state
  | some (version, activationEpoch) =>
      if activationEpoch ≤ currentEpoch then
        { state with
          activeProtocolVersion := version, pendingProtocolActivation := none }
      else state

/-- The genesis time of a chainspec, or the first block's own, cut to a slot. -/
def stampGenesis (override : Option Nat) (timestamp slotDuration height : Nat) :
    ChainState :=
  if state.genesisTimestamp = 0 ∧ height ≤ 1 then
    { state with
      genesisTimestamp := override.getD (timestamp - timestamp % slotDuration) }
  else state

/-! ## What the steps leave alone -/

variable {state}

@[simp] theorem scheduleActivation_registration {epoch : Nat} {verified : Option (Nat × Nat)} :
    (state.scheduleActivation epoch verified).registration = state.registration := by
  unfold scheduleActivation
  split
  · rfl
  · split <;> rfl

@[simp] theorem activatePending_registration {epoch : Nat} :
    (state.activatePending epoch).registration = state.registration := by
  unfold activatePending
  split
  · rfl
  · split <;> rfl

@[simp] theorem stampGenesis_registration {override : Option Nat}
    {timestamp slotDuration height : Nat} :
    (state.stampGenesis override timestamp slotDuration height).registration =
      state.registration := by
  unfold stampGenesis
  split <;> rfl

@[simp] theorem scheduleActivation_frame {epoch : Nat} {verified : Option (Nat × Nat)} :
    (state.scheduleActivation epoch verified).bestHeight = state.bestHeight ∧
      (state.scheduleActivation epoch verified).totalWork = state.totalWork ∧
      (state.scheduleActivation epoch verified).snapSyncHeight =
        state.snapSyncHeight ∧
      (state.scheduleActivation epoch verified).genesisHash = state.genesisHash ∧
      (state.scheduleActivation epoch verified).genesisTimestamp =
        state.genesisTimestamp ∧
      (state.scheduleActivation epoch verified).activeProtocolVersion =
        state.activeProtocolVersion := by
  unfold scheduleActivation
  split
  · simp
  · split <;> simp

@[simp] theorem activatePending_frame {epoch : Nat} :
    (state.activatePending epoch).bestHeight = state.bestHeight ∧
      (state.activatePending epoch).totalWork = state.totalWork ∧
      (state.activatePending epoch).snapSyncHeight = state.snapSyncHeight ∧
      (state.activatePending epoch).genesisHash = state.genesisHash ∧
      (state.activatePending epoch).genesisTimestamp = state.genesisTimestamp := by
  unfold activatePending
  split
  · simp
  · split <;> simp

@[simp] theorem stampGenesis_frame {override : Option Nat}
    {timestamp slotDuration height : Nat} :
    (state.stampGenesis override timestamp slotDuration height).bestHeight =
        state.bestHeight ∧
      (state.stampGenesis override timestamp slotDuration height).totalWork =
        state.totalWork ∧
      (state.stampGenesis override timestamp slotDuration height).snapSyncHeight =
        state.snapSyncHeight ∧
      (state.stampGenesis override timestamp slotDuration height).genesisHash =
        state.genesisHash ∧
      (state.stampGenesis override timestamp slotDuration
        height).activeProtocolVersion = state.activeProtocolVersion ∧
      (state.stampGenesis override timestamp slotDuration
        height).pendingProtocolActivation = state.pendingProtocolActivation := by
  unfold stampGenesis
  split <;> simp

theorem scheduleActivation_pending_iff {epoch : Nat} {verified : Option (Nat × Nat)} :
    (state.scheduleActivation epoch verified).pendingProtocolActivation =
        state.pendingProtocolActivation ↔
      ∀ version activationEpoch, verified = some (version, activationEpoch) →
        epoch < activationEpoch → state.activeProtocolVersion < version →
          state.pendingProtocolActivation = some (version, activationEpoch) := by
  unfold scheduleActivation
  split
  · simp
  case h_2 version activationEpoch =>
    split
    case isTrue hlater =>
      constructor
      · rintro hsame _ _ ⟨⟩ - -
        exact hsame.symm
      · intro hpending
        exact (hpending version activationEpoch rfl hlater.1 hlater.2).symm
    case isFalse hearlier =>
      refine iff_of_true rfl ?_
      rintro _ _ ⟨⟩ hepoch hversion
      exact absurd ⟨hepoch, hversion⟩ hearlier

theorem activatePending_pending_iff {epoch : Nat} :
    (state.activatePending epoch).pendingProtocolActivation =
        state.pendingProtocolActivation ↔
      ∀ version activationEpoch,
        state.pendingProtocolActivation = some (version, activationEpoch) →
          epoch < activationEpoch := by
  unfold activatePending
  cases hpending : state.pendingProtocolActivation with
  | none => simp [hpending]
  | some pending =>
      obtain ⟨version, activationEpoch⟩ := pending
      dsimp only
      split
      case isTrue hdue =>
        refine iff_of_false (by simp) ?_
        intro hlater
        have hnot := hlater version activationEpoch rfl
        omega
      case isFalse hlater =>
        refine iff_of_true hpending ?_
        rintro _ _ ⟨⟩
        omega

theorem activatePending_of_pending {epoch : Nat}
    (hlater : ∀ version activationEpoch,
      state.pendingProtocolActivation = some (version, activationEpoch) →
        epoch < activationEpoch) : state.activatePending epoch = state := by
  unfold activatePending
  split
  · rfl
  case h_2 version activationEpoch hpending =>
    rw [if_neg (Nat.not_le.mpr (hlater version activationEpoch hpending))]

theorem activatePending_scheduled {epoch : Nat} {verified : Option (Nat × Nat)}
    (hmoved : (state.scheduleActivation epoch verified).pendingProtocolActivation ≠
      state.pendingProtocolActivation) :
    (state.scheduleActivation epoch verified).activatePending epoch =
      state.scheduleActivation epoch verified := by
  apply activatePending_of_pending
  intro version activationEpoch hpending
  unfold scheduleActivation at hmoved hpending
  split at hpending
  · exact absurd rfl hmoved
  · split at hpending
    case isTrue hlater =>
      obtain ⟨rfl, rfl⟩ := by simpa using hpending
      exact hlater.1
    case isFalse hearlier =>
      dsimp only at hmoved
      rw [if_neg hearlier] at hmoved
      exact absurd rfl hmoved

/-- A stamp of a state with the genesis time of `before` keeps that time exactly
if it has nothing to stamp or stamps 0. -/
theorem stampGenesis_genesisTimestamp_iff {before : ChainState} {override : Option Nat}
    {timestamp slotDuration height : Nat}
    (hbefore : state.genesisTimestamp = before.genesisTimestamp) :
    (state.stampGenesis override timestamp slotDuration height).genesisTimestamp =
        before.genesisTimestamp ↔
      (before.genesisTimestamp = 0 → height ≤ 1 →
        override.getD (timestamp - timestamp % slotDuration) = 0) := by
  unfold stampGenesis
  rw [← hbefore]
  split
  case isTrue hstamps =>
    constructor
    · intro hsame _ _
      exact hsame.trans hstamps.1
    · intro hzero
      exact (hzero hstamps.1 hstamps.2).trans hstamps.1.symm
  case isFalse hkeeps =>
    refine iff_of_true rfl ?_
    intro hunset hheight
    exact absurd ⟨hunset, hheight⟩ hkeeps

end ChainState

end Doli.Core
