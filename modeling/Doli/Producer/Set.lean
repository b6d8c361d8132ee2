import Doli.Producer.Info

/-!
# The producer set

The producers keyed by the hash of their public key, the exit history, the
unbonding index and the queue of deferred updates.  The unbonding index lists
its buckets in height order, flattened; a bucket is never empty between calls.
-/

namespace Doli.Producer

open Doli.Core Doli.Lib Doli.Storage

def exitHistoryRetention : Nat := 2 * 2102400

/-- `UNBONDING_PERIOD` of the consensus constants. -/
def unbondingPeriod : Nat := 60480

inductive PendingProducerUpdate where
  | register (info : ProducerInfo) (height : Nat)
  | exit (pubkey : PublicKey) (height : Nat)
  | slash (pubkey : PublicKey) (height : Nat)
  | addBond (pubkey : PublicKey) (outpoints : List Outpoint)
      (bondUnit creationSlot : Nat)
  | delegateBond (delegator delegate : PublicKey) (bondCount : Nat)
  | revokeDelegation (delegator : PublicKey)
  | requestWithdrawal (pubkey : PublicKey) (bondCount bondUnit : Nat)
  | rotateBlsKey (pubkey : PublicKey) (newBlsPubkey : Bytes) (height : Nat)
  deriving DecidableEq, Repr

structure ProducerSet where
  producers : Column Hash ProducerInfo
  exitHistory : Column Hash Nat
  unbondingIndex : List (Nat × Hash)
  pendingUpdates : List PendingProducerUpdate
  deriving DecidableEq

namespace ProducerSet

def new : ProducerSet := ⟨∅, ∅, [], []⟩

/-- The exit history and the unbonding index survive. -/
def clear (set : ProducerSet) : ProducerSet :=
  { set with producers := ∅, pendingUpdates := [] }

def queueUpdate (set : ProducerSet) (update : PendingProducerUpdate) :
    ProducerSet :=
  { set with pendingUpdates := set.pendingUpdates ++ [update] }

@[simp] theorem queueUpdate_producers (set : ProducerSet)
    (update : PendingProducerUpdate) :
    (set.queueUpdate update).producers = set.producers := rfl

@[simp] theorem queueUpdate_pendingUpdates (set : ProducerSet)
    (update : PendingProducerUpdate) :
    (set.queueUpdate update).pendingUpdates = set.pendingUpdates ++ [update] := rfl

/-- `producers.get_mut(hash)` and an assignment through it. -/
def modify (set : ProducerSet) (hash : Hash)
    (change : ProducerInfo → ProducerInfo) : ProducerSet :=
  match set.producers.lookup hash with
  | none => set
  | some info => { set with producers := set.producers.insert hash (change info) }

section Modify

variable (set : ProducerSet) (hash : Hash) (change : ProducerInfo → ProducerInfo)

@[simp] theorem modify_exitHistory :
    (set.modify hash change).exitHistory = set.exitHistory := by
  unfold modify
  split <;> rfl

@[simp] theorem modify_unbondingIndex :
    (set.modify hash change).unbondingIndex = set.unbondingIndex := by
  unfold modify
  split <;> rfl

@[simp] theorem modify_pendingUpdates :
    (set.modify hash change).pendingUpdates = set.pendingUpdates := by
  unfold modify
  split <;> rfl

@[simp] theorem lookup_modify_self :
    (set.modify hash change).producers.lookup hash =
      (set.producers.lookup hash).map change := by
  unfold modify
  cases hlookup : set.producers.lookup hash with
  | none => simp [hlookup]
  | some info => simp

variable {hash}

theorem lookup_modify_ne {key : Hash} (hkey : key ≠ hash) :
    (set.modify hash change).producers.lookup key = set.producers.lookup key := by
  unfold modify
  cases set.producers.lookup hash with
  | none => rfl
  | some info => simp [Finmap.lookup_insert_of_ne _ hkey]

theorem lookup_modify (key : Hash) :
    (set.modify hash change).producers.lookup key =
      (set.producers.lookup key).map fun info =>
        if key = hash then change info else info := by
  by_cases hkey : key = hash
  · subst hkey
    simp
  · simp [lookup_modify_ne set change hkey, hkey]

theorem lookup_modify_isSome (key : Hash) :
    ((set.modify hash change).producers.lookup key).isSome =
      (set.producers.lookup key).isSome := by
  simp [lookup_modify]

end Modify

section Lookups

variable (prim : Primitives) (set : ProducerSet)

def getByPubkey (key : PublicKey) : Option ProducerInfo :=
  set.producers.lookup (prim.cryptoHash key)

def hasPendingRegistration (key : PublicKey) : Bool :=
  set.pendingUpdates.any fun update =>
    match update with
    | .register info _ => info.publicKey = key
    | _ => false

def pendingRegistrationKeys : List PublicKey :=
  set.pendingUpdates.filterMap fun update =>
    match update with
    | .register info _ => some info.publicKey
    | _ => none

def isSlashedOrSlashQueued (key : PublicKey) : Bool :=
  (set.getByPubkey prim key).any ProducerInfo.isSlashed ||
    set.pendingUpdates.any fun update =>
      match update with
      | .slash pubkey _ => pubkey = key
      | _ => false

end Lookups

/-- The outpoints an update adds to the queue of `key`. -/
def queuedOutpoints (key : PublicKey) : PendingProducerUpdate → Nat
  | .addBond pubkey outpoints _ _ =>
      if pubkey = key then outpoints.length % 2 ^ 32 else 0
  | _ => 0

/-- Bonds queued for `key` and not yet flushed, as a `u32`. -/
def pendingAddbondCount (set : ProducerSet) (key : PublicKey) : Nat :=
  (set.pendingUpdates.map (queuedOutpoints key)).sum % 2 ^ 32

/-! ## Delegation -/

section Delegation

variable (prim : Primitives)

/-- Both directions: the delegators of `hash`, its delegatee, and itself. -/
def cleanupAllDelegations (set : ProducerSet) (hash : Hash) : ProducerSet :=
  let delegators := (set.producers.lookup hash).elim [] (·.receivedDelegations)
  let incoming := delegators.foldl
    (fun state row => state.modify row.1 ProducerInfo.clearDelegation) set
  let outgoing :=
    match (incoming.producers.lookup hash).bind (·.delegatedTo) with
    | none => incoming
    | some delegatee =>
        incoming.modify (prim.cryptoHash delegatee) (·.dropReceived hash)
  outgoing.modify hash ProducerInfo.clearAllDelegations

@[simp] theorem cleanupAllDelegations_frame (set : ProducerSet) (hash : Hash) :
    (set.cleanupAllDelegations prim hash).exitHistory = set.exitHistory ∧
      (set.cleanupAllDelegations prim hash).unbondingIndex = set.unbondingIndex ∧
      (set.cleanupAllDelegations prim hash).pendingUpdates = set.pendingUpdates := by
  have hfold : ∀ (rows : List (Hash × Nat)) (state : ProducerSet),
      (rows.foldl (fun state row =>
        state.modify row.1 ProducerInfo.clearDelegation) state).exitHistory =
        state.exitHistory ∧
      (rows.foldl (fun state row =>
        state.modify row.1 ProducerInfo.clearDelegation) state).unbondingIndex =
        state.unbondingIndex ∧
      (rows.foldl (fun state row =>
        state.modify row.1 ProducerInfo.clearDelegation) state).pendingUpdates =
        state.pendingUpdates := by
    intro rows
    induction rows with
    | nil => simp
    | cons row rows ih =>
        intro state
        simpa using ih (state.modify row.1 ProducerInfo.clearDelegation)
  simp only [cleanupAllDelegations]
  split <;> simp [hfold]

inductive DelegationError where
  | zeroBonds
  | selfDelegation
  | delegatorNotFound
  | delegatorNotActive
  | insufficientBonds (held pending available requested : Nat)
  | alreadyDelegating
  | delegateeNotFound
  | delegateeNotActive
  | capExceeded (current requested cap : Nat)
  | nothingToRevoke
  deriving DecidableEq, Repr

/-- No cap is enforced for `cap = 0`. -/
def delegateBondsCapped (set : ProducerSet) (delegator delegatee : PublicKey)
    (bondCount cap : Nat) : Except DelegationError ProducerSet :=
  if bondCount = 0 then .error .zeroBonds
  else if delegator = delegatee then .error .selfDelegation
  else
    match set.getByPubkey prim delegator with
    | none => .error .delegatorNotFound
    | some source =>
        let available := source.bondCount - source.withdrawalPendingCount
        if !source.isActive then .error .delegatorNotActive
        else if available < bondCount then
          .error (.insufficientBonds source.bondCount
            source.withdrawalPendingCount available bondCount)
        else if source.delegatedTo.isSome then .error .alreadyDelegating
        else
          match set.getByPubkey prim delegatee with
          | none => .error .delegateeNotFound
          | some target =>
              if !target.isActive then .error .delegateeNotActive
              else if 0 < cap ∧
                  cap < satAddAmount target.receivedTotal bondCount then
                .error (.capExceeded target.receivedTotal bondCount cap)
              else
                .ok ((set.modify (prim.cryptoHash delegator)
                    (·.setDelegation delegatee bondCount)).modify
                  (prim.cryptoHash delegatee)
                  (·.pushReceived (prim.cryptoHash delegator) bondCount))

def revokeDelegation (set : ProducerSet) (delegator : PublicKey) :
    Except DelegationError ProducerSet :=
  match set.getByPubkey prim delegator with
  | none => .error .delegatorNotFound
  | some source =>
      match source.delegatedTo with
      | none => .error .nothingToRevoke
      | some delegatee =>
          .ok ((set.modify (prim.cryptoHash delegator)
              ProducerInfo.clearDelegation).modify
            (prim.cryptoHash delegatee)
            (·.dropReceived (prim.cryptoHash delegator)))

/-- A delegation, refused or not, moves producers only. -/
@[simp] theorem delegateBondsCapped_frame (set : ProducerSet)
    (delegator delegatee : PublicKey) (bondCount cap : Nat) :
    ((set.delegateBondsCapped prim delegator delegatee bondCount cap).toOption.getD
        set).exitHistory = set.exitHistory ∧
      ((set.delegateBondsCapped prim delegator delegatee bondCount cap).toOption.getD
        set).unbondingIndex = set.unbondingIndex ∧
      ((set.delegateBondsCapped prim delegator delegatee bondCount cap).toOption.getD
        set).pendingUpdates = set.pendingUpdates := by
  unfold delegateBondsCapped
  split_ifs
  · simp [Except.toOption]
  · simp [Except.toOption]
  split
  · simp [Except.toOption]
  dsimp only
  split_ifs
  · simp [Except.toOption]
  · simp [Except.toOption]
  · simp [Except.toOption]
  split
  · simp [Except.toOption]
  split_ifs <;> simp [Except.toOption]

@[simp] theorem revokeDelegation_frame (set : ProducerSet) (delegator : PublicKey) :
    ((set.revokeDelegation prim delegator).toOption.getD set).exitHistory =
        set.exitHistory ∧
      ((set.revokeDelegation prim delegator).toOption.getD set).unbondingIndex =
        set.unbondingIndex ∧
      ((set.revokeDelegation prim delegator).toOption.getD set).pendingUpdates =
        set.pendingUpdates := by
  unfold revokeDelegation
  split
  · simp [Except.toOption]
  · split <;> simp [Except.toOption]

end Delegation

/-! ## What delegations leave alone -/

section View

variable {prim : Primitives} {β : Type} {view : ProducerInfo → β}
  {set middle next : ProducerSet}

/-- The same producers are in both sets, and `view` reads the same on each. -/
def SameView (view : ProducerInfo → β) (set next : ProducerSet) : Prop :=
  ∀ hash, (next.producers.lookup hash).map view = (set.producers.lookup hash).map view

/-- A view that reads none of the three delegation fields. -/
def IgnoresDelegation (view : ProducerInfo → β) : Prop :=
  ∀ (info : ProducerInfo) (delegatedTo : Option PublicKey) (delegatedBonds : Nat)
    (receivedDelegations : List (Hash × Nat)),
    view { info with
      delegatedTo := delegatedTo
      delegatedBonds := delegatedBonds
      receivedDelegations := receivedDelegations } = view info

namespace SameView

theorem refl (set : ProducerSet) : SameView view set set := fun _ => rfl

theorem trans (hfirst : SameView view set middle) (hsecond : SameView view middle next) :
    SameView view set next :=
  fun hash => (hsecond hash).trans (hfirst hash)

theorem modify {hash : Hash} {change : ProducerInfo → ProducerInfo}
    (hchange : ∀ info, view (change info) = view info) :
    SameView view set (set.modify hash change) := by
  intro key
  rw [lookup_modify]
  cases set.producers.lookup key with
  | none => rfl
  | some info =>
      simp only [Option.map_some, Option.some.injEq]
      split
      · exact hchange info
      · rfl

theorem cleanup (hview : IgnoresDelegation view) (hash : Hash) :
    SameView view set (set.cleanupAllDelegations prim hash) := by
  have hincoming : ∀ (rows : List (Hash × Nat)) (state : ProducerSet),
      SameView view state (rows.foldl (fun state row =>
        state.modify row.1 ProducerInfo.clearDelegation) state) := by
    intro rows
    induction rows with
    | nil => exact .refl
    | cons row rows ih =>
        intro state
        have hfirst : SameView view state
            (state.modify row.1 ProducerInfo.clearDelegation) :=
          modify fun info => hview info _ _ _
        exact hfirst.trans (ih _)
  simp only [cleanupAllDelegations]
  refine .trans ?_ (modify fun info => hview info _ _ _)
  split
  · exact hincoming _ set
  · exact (hincoming _ set).trans (modify fun info => hview info _ _ _)

theorem delegateBondsCapped (hview : IgnoresDelegation view)
    (delegator delegatee : PublicKey) (bondCount cap : Nat) :
    SameView view set
      ((set.delegateBondsCapped prim delegator delegatee bondCount cap).toOption.getD set) := by
  have hsent : SameView view set (set.modify (prim.cryptoHash delegator)
      (·.setDelegation delegatee bondCount)) := modify fun info => hview info _ _ _
  simp only [ProducerSet.delegateBondsCapped]
  split_ifs
  · exact .refl set
  · exact .refl set
  split
  · exact .refl set
  split_ifs
  · exact .refl set
  · exact .refl set
  · exact .refl set
  split
  · exact .refl set
  split_ifs
  · exact .refl set
  · exact .refl set
  · exact hsent.trans (modify fun info => hview info _ _ _)

theorem revokeDelegation (hview : IgnoresDelegation view) (delegator : PublicKey) :
    SameView view set ((set.revokeDelegation prim delegator).toOption.getD set) := by
  have hcleared : SameView view set
      (set.modify (prim.cryptoHash delegator) ProducerInfo.clearDelegation) :=
    modify fun info => hview info _ _ _
  simp only [ProducerSet.revokeDelegation]
  split
  · exact .refl set
  split
  · exact .refl set
  · exact hcleared.trans (modify fun info => hview info _ _ _)

end SameView

end View

/-! ## Registration, exit, slash -/

section Lifecycle

variable (prim : Primitives)

inductive LifecycleError where
  | alreadyRegistered (status : ProducerStatus)
  | notFound
  | notActive (status : ProducerStatus)
  | notSlashable (status : ProducerStatus)
  deriving DecidableEq, Repr

def exitedRecently (set : ProducerSet) (hash : Hash) (height : Nat) : Bool :=
  match set.exitHistory.lookup hash with
  | some exitHeight => height - exitHeight < exitHistoryRetention
  | none => false

/-- An exited producer may register again; any other one may not. -/
def register (set : ProducerSet) (info : ProducerInfo) (height : Nat) :
    Except LifecycleError ProducerSet :=
  let key := prim.cryptoHash info.publicKey
  let registered :=
    { set with
      producers := set.producers.insert key
        { info with
          hasPriorExit := set.exitedRecently key height || info.hasPriorExit } }
  match set.producers.lookup key with
  | none => .ok registered
  | some existing =>
      if existing.status = .exited then .ok registered
      else .error (.alreadyRegistered existing.status)

/-- A new key goes behind the keys of its own bucket. -/
def insertUnbonding (height : Nat) (key : Hash) :
    List (Nat × Hash) → List (Nat × Hash)
  | [] => [(height, key)]
  | row :: rows =>
      if row.1 ≤ height then row :: insertUnbonding height key rows
      else (height, key) :: row :: rows

theorem mem_insertUnbonding {height : Nat} {key : Hash} {rows : List (Nat × Hash)}
    {row : Nat × Hash} :
    row ∈ insertUnbonding height key rows ↔ row = (height, key) ∨ row ∈ rows := by
  induction rows with
  | nil => simp [insertUnbonding]
  | cons first rows ih =>
      simp only [insertUnbonding]
      split
      · simp only [List.mem_cons, ih]
        tauto
      · simp

def requestExit (set : ProducerSet) (pubkey : PublicKey) (height : Nat) :
    Except LifecycleError ProducerSet :=
  match set.getByPubkey prim pubkey with
  | none => .error .notFound
  | some info =>
      match info.status with
      | .active =>
          let key := prim.cryptoHash pubkey
          let started := (set.modify key (·.startUnbonding height))
            |>.cleanupAllDelegations prim key
          .ok { started with
            unbondingIndex := insertUnbonding height key started.unbondingIndex }
      | status => .error (.notActive status)

def slashProducer (set : ProducerSet) (pubkey : PublicKey) (height : Nat) :
    Except LifecycleError (ProducerSet × Nat) :=
  match set.getByPubkey prim pubkey with
  | none => .error .notFound
  | some info =>
      if info.isSlashed then .error (.notSlashable info.status)
      else
        let key := prim.cryptoHash pubkey
        let cleaned := (set.modify key (·.slash height))
          |>.cleanupAllDelegations prim key
        .ok ({ cleaned with exitHistory := cleaned.exitHistory.insert key height },
          info.bondAmount)

/-- One candidate of the unbonding scan. -/
def completeUnbonding (height duration : Nat) (set : ProducerSet)
    (row : Nat × Hash) : ProducerSet :=
  let completed :=
    match set.producers.lookup row.2 with
    | some info =>
        if info.isUnbondingComplete height duration then
          let exited := set.modify row.2 ProducerInfo.completeExit
          cleanupAllDelegations prim
            { exited with exitHistory := exited.exitHistory.insert row.2 height } row.2
        else set
    | none => set
  { completed with
    unbondingIndex := completed.unbondingIndex.filter (· ≠ row) }

/-- The index rows whose period may be over at `height`. -/
def unbondingCandidates (set : ProducerSet) (height duration : Nat) :
    List (Nat × Hash) :=
  set.unbondingIndex.filter fun row => row.1 ≤ height - duration

def hasUnbondingDue (set : ProducerSet) (height duration : Nat) : Bool :=
  !(set.unbondingCandidates height duration).isEmpty

def processUnbonding (set : ProducerSet) (height duration : Nat) : ProducerSet :=
  (set.unbondingCandidates height duration).foldl
    (completeUnbonding prim height duration) set

@[simp] theorem completeUnbonding_pendingUpdates (height duration : Nat)
    (set : ProducerSet) (row : Nat × Hash) :
    (set.completeUnbonding prim height duration row).pendingUpdates =
      set.pendingUpdates := by
  simp only [completeUnbonding]
  split
  · split <;> simp
  · rfl

@[simp] theorem processUnbonding_pendingUpdates (set : ProducerSet)
    (height duration : Nat) :
    (set.processUnbonding prim height duration).pendingUpdates =
      set.pendingUpdates := by
  unfold processUnbonding
  generalize set.unbondingCandidates height duration = rows
  induction rows generalizing set with
  | nil => rfl
  | cons row rows ih => simp [ih]

theorem processUnbonding_of_not_due {set : ProducerSet} {height duration : Nat}
    (hdue : set.hasUnbondingDue height duration = false) :
    set.processUnbonding prim height duration = set := by
  have hempty : set.unbondingCandidates height duration = [] := by
    simpa [hasUnbondingDue] using hdue
  simp [processUnbonding, hempty]

theorem hasUnbondingDue_eq_false {set : ProducerSet} {height duration : Nat} :
    set.hasUnbondingDue height duration = false ↔
      ∀ row ∈ set.unbondingIndex, height - duration < row.1 := by
  simp [hasUnbondingDue, unbondingCandidates]

end Lifecycle

/-! ## The deferred queue -/

section Flush

variable (prim : Primitives)

/-- One deferred update; a failed one is only logged. -/
def applyUpdate (cap : Nat) (set : ProducerSet) :
    PendingProducerUpdate → ProducerSet
  | .register info height => (set.register prim info height).toOption.getD set
  | .exit pubkey height => (set.requestExit prim pubkey height).toOption.getD set
  | .slash pubkey height =>
      ((set.slashProducer prim pubkey height).toOption.map Prod.fst).getD set
  | .addBond pubkey outpoints bondUnit creationSlot =>
      set.modify (prim.cryptoHash pubkey) fun info =>
        (info.addBonds outpoints bondUnit creationSlot).1
  | .delegateBond delegator delegate bondCount =>
      (set.delegateBondsCapped prim delegator delegate bondCount cap).toOption.getD set
  | .revokeDelegation delegator =>
      (set.revokeDelegation prim delegator).toOption.getD set
  | .requestWithdrawal pubkey bondCount bondUnit =>
      let key := prim.cryptoHash pubkey
      let withdrawn := set.modify key (·.applyWithdrawal bondCount bondUnit)
      if (withdrawn.producers.lookup key).any (·.status = .exited) then
        withdrawn.cleanupAllDelegations prim key
      else withdrawn
  | .rotateBlsKey pubkey newBlsPubkey _ =>
      set.modify (prim.cryptoHash pubkey) fun info =>
        { info with blsPubkey := newBlsPubkey }

def applyPendingUpdatesWithCap (set : ProducerSet) (cap : Nat) : ProducerSet :=
  set.pendingUpdates.foldl (applyUpdate prim cap) { set with pendingUpdates := [] }

theorem applyPendingUpdatesWithCap_of_empty {set : ProducerSet} {cap : Nat}
    (hempty : set.pendingUpdates = []) :
    set.applyPendingUpdatesWithCap prim cap = set := by
  obtain ⟨producers, exitHistory, unbondingIndex, pendingUpdates⟩ := set
  obtain rfl := hempty
  rfl

/-- An applied update queues nothing. -/
@[simp] theorem applyUpdate_pendingUpdates (cap : Nat) (set : ProducerSet)
    (update : PendingProducerUpdate) :
    (set.applyUpdate prim cap update).pendingUpdates = set.pendingUpdates := by
  cases update with
  | register info height =>
      simp only [applyUpdate, register]
      split
      · rfl
      · split <;> rfl
  | exit pubkey height =>
      simp only [applyUpdate, requestExit]
      split
      · rfl
      · split
        · simp [Except.toOption]
        · rfl
  | slash pubkey height =>
      simp only [applyUpdate, slashProducer]
      split
      · rfl
      · split
        · rfl
        · simp [Except.toOption]
  | addBond pubkey outpoints bondUnit creationSlot => simp [applyUpdate]
  | delegateBond delegator delegate bondCount => simp [applyUpdate]
  | revokeDelegation delegator => simp [applyUpdate]
  | requestWithdrawal pubkey bondCount bondUnit =>
      simp only [applyUpdate]
      split <;> simp
  | rotateBlsKey pubkey newBlsPubkey height => simp [applyUpdate]

/-- A flush leaves the queue empty. -/
@[simp] theorem applyPendingUpdatesWithCap_pendingUpdates (set : ProducerSet)
    (cap : Nat) : (set.applyPendingUpdatesWithCap prim cap).pendingUpdates = [] := by
  unfold applyPendingUpdatesWithCap
  generalize set.pendingUpdates = updates
  suffices hgen : ∀ state : ProducerSet,
      (updates.foldl (applyUpdate prim cap) state).pendingUpdates =
        state.pendingUpdates from hgen _
  induction updates with
  | nil => exact fun _ => rfl
  | cons update updates ih =>
      intro state
      rw [List.foldl_cons, ih, applyUpdate_pendingUpdates]

theorem mem_unbondingIndex_applyUpdate {cap : Nat} {set : ProducerSet}
    {update : PendingProducerUpdate} {row : Nat × Hash}
    (hrow : row ∈ (set.applyUpdate prim cap update).unbondingIndex) :
    row ∈ set.unbondingIndex ∨ ∃ pubkey, update = .exit pubkey row.1 := by
  cases update with
  | register info height =>
      left
      simp only [applyUpdate, register] at hrow
      split at hrow
      · exact hrow
      · split at hrow <;> exact hrow
  | exit pubkey height =>
      simp only [applyUpdate, requestExit] at hrow
      split at hrow
      · exact .inl hrow
      · split at hrow
        · simp only [Except.toOption, Option.getD_some, mem_insertUnbonding,
            cleanupAllDelegations_frame, modify_unbondingIndex] at hrow
          rcases hrow with rfl | hrow
          · exact .inr ⟨pubkey, rfl⟩
          · exact .inl hrow
        · exact .inl hrow
  | slash pubkey height =>
      left
      simp only [applyUpdate, slashProducer] at hrow
      split at hrow
      · exact hrow
      · split at hrow
        · exact hrow
        · simpa [Except.toOption] using hrow
  | addBond pubkey outpoints bondUnit creationSlot =>
      left
      simpa [applyUpdate] using hrow
  | delegateBond delegator delegate bondCount =>
      left
      simpa [applyUpdate] using hrow
  | revokeDelegation delegator =>
      left
      simpa [applyUpdate] using hrow
  | requestWithdrawal pubkey bondCount bondUnit =>
      left
      simp only [applyUpdate] at hrow
      split at hrow <;> simpa using hrow
  | rotateBlsKey pubkey newBlsPubkey height =>
      left
      simpa [applyUpdate] using hrow

theorem mem_unbondingIndex_applyUpdates {cap : Nat}
    {updates : List PendingProducerUpdate} {set : ProducerSet} {row : Nat × Hash}
    (hrow : row ∈ (updates.foldl (applyUpdate prim cap) set).unbondingIndex) :
    row ∈ set.unbondingIndex ∨ ∃ pubkey, .exit pubkey row.1 ∈ updates := by
  induction updates generalizing set with
  | nil => exact .inl hrow
  | cons update updates ih =>
      rcases ih hrow with hrow | ⟨pubkey, hmem⟩
      · rcases mem_unbondingIndex_applyUpdate prim hrow with hrow | ⟨pubkey, rfl⟩
        · exact .inl hrow
        · exact .inr ⟨pubkey, List.mem_cons_self⟩
      · exact .inr ⟨pubkey, List.mem_cons_of_mem _ hmem⟩

theorem exitHistory_applyUpdate {cap : Nat} {set : ProducerSet}
    {update : PendingProducerUpdate} {key : Hash} {exited : Nat}
    (hexit : (set.applyUpdate prim cap update).exitHistory.lookup key = some exited) :
    set.exitHistory.lookup key = some exited ∨
      ∃ pubkey, update = .slash pubkey exited := by
  cases update with
  | register info height =>
      left
      simp only [applyUpdate, register] at hexit
      split at hexit
      · exact hexit
      · split at hexit <;> exact hexit
  | exit pubkey height =>
      left
      simp only [applyUpdate, requestExit] at hexit
      split at hexit
      · exact hexit
      · split at hexit
        · simpa [Except.toOption] using hexit
        · exact hexit
  | slash pubkey height =>
      simp only [applyUpdate, slashProducer] at hexit
      split at hexit
      · exact .inl hexit
      · split at hexit
        · exact .inl hexit
        · by_cases hkey : key = prim.cryptoHash pubkey
          · subst hkey
            simp only [Except.toOption, Option.map_some, Option.getD_some,
              Finmap.lookup_insert, Option.some.injEq] at hexit
            exact .inr ⟨pubkey, by rw [hexit]⟩
          · left
            simpa [Except.toOption, Finmap.lookup_insert_of_ne _ hkey] using hexit
  | addBond pubkey outpoints bondUnit creationSlot =>
      left
      simpa [applyUpdate] using hexit
  | delegateBond delegator delegate bondCount =>
      left
      simpa [applyUpdate] using hexit
  | revokeDelegation delegator =>
      left
      simpa [applyUpdate] using hexit
  | requestWithdrawal pubkey bondCount bondUnit =>
      left
      simp only [applyUpdate] at hexit
      split at hexit <;> simpa using hexit
  | rotateBlsKey pubkey newBlsPubkey height =>
      left
      simpa [applyUpdate] using hexit

end Flush

end ProducerSet

end Doli.Producer
