import Doli.Lib.DerivedIndex
import Doli.Lib.Run
import Doli.Producer.Discipline
import Doli.Producer.Persisted

/-!
# The unbonding index against the producers

The index lists the unbonding producers under the heights of their exits, and it keeps rows
of exits that were slashed, renewed or cleared.  No unbonding producer lacks its row, so the
rows that are due lead to every producer whose period is over.
-/

namespace Doli.Producer

open Doli.Core Doli.Lib Doli.Storage

def ProducerStatus.startedAt : ProducerStatus → Option Nat
  | .unbonding startedAt => some startedAt
  | _ => none

/-- `is_unbonding_complete` as a release build computes it: the sum is a `u64`. -/
def ProducerInfo.isUnbondingCompleteU64 (info : ProducerInfo) (height duration : Nat) : Bool :=
  match info.status with
  | .unbonding startedAt => (startedAt + duration) % 2 ^ 64 ≤ height
  | _ => false

namespace ProducerSet

variable {prim : Primitives} {set next : ProducerSet} {hash key : Hash}
  {height duration startedAt : Nat}

/-! ## Statuses -/

def statusOf (set : ProducerSet) (key : Hash) : Option ProducerStatus :=
  (set.producers.lookup key).map ProducerInfo.status

def unbondingStart (set : ProducerSet) (key : Hash) : Option Nat :=
  (set.statusOf key).bind ProducerStatus.startedAt

theorem unbondingStart_eq_some :
    set.unbondingStart key = some startedAt ↔
      set.statusOf key = some (.unbonding startedAt) := by
  unfold unbondingStart
  cases hstatus : set.statusOf key with
  | none => simp
  | some status => cases status <;> simp [ProducerStatus.startedAt]

theorem statusOf_modify_ne (change : ProducerInfo → ProducerInfo) (hkey : key ≠ hash) :
    (set.modify hash change).statusOf key = set.statusOf key := by
  rw [statusOf, lookup_modify_ne set change hkey, statusOf]

theorem statusOf_modify_self (change : ProducerInfo → ProducerInfo) :
    (set.modify hash change).statusOf hash =
      (set.producers.lookup hash).map fun info => (change info).status := by
  rw [statusOf, lookup_modify_self, Option.map_map]
  rfl

theorem statusOf_cleanup (hash key : Hash) :
    (set.cleanupAllDelegations prim hash).statusOf key = set.statusOf key :=
  SameView.cleanup (fun _ _ _ _ => rfl) hash key

theorem statusOf_isSome : (set.statusOf key).isSome = (set.producers.lookup key).isSome := by
  rw [statusOf, Option.isSome_map]

/-! ## What every operation keeps -/

/-- Queued exits are of heights from 1 up, and queued records are not unbonding yet. -/
def FromOne : PendingProducerUpdate → Prop
  | .register info _ => info.status.startedAt = none
  | .exit _ height => 1 ≤ height
  | _ => True

structure IndexCovers (set : ProducerSet) : Prop where
  rows : Indexed set.unbondingStart set.unbondingIndex
  started : ∀ key startedAt, set.unbondingStart key = some startedAt → 1 ≤ startedAt

namespace IndexCovers

theorem step (hcovers : set.IndexCovers)
    (hkept : ∀ row ∈ set.unbondingIndex, row ∈ next.unbondingIndex)
    (hstart : ∀ key startedAt, next.unbondingStart key = some startedAt →
      set.unbondingStart key = some startedAt ∨
        (startedAt, key) ∈ next.unbondingIndex ∧ 1 ≤ startedAt) : next.IndexCovers where
  rows := hcovers.rows.step hkept fun key startedAt hnext =>
    (hstart key startedAt hnext).imp id And.left
  started key startedAt hnext := by
    rcases hstart key startedAt hnext with hbefore | ⟨-, hpos⟩
    · exact hcovers.started key startedAt hbefore
    · exact hpos

theorem of_status (hcovers : set.IndexCovers)
    (hindex : next.unbondingIndex = set.unbondingIndex)
    (hstatus : ∀ key startedAt, next.statusOf key = some (.unbonding startedAt) →
      set.statusOf key = some (.unbonding startedAt)) : next.IndexCovers :=
  hcovers.step (fun _ hrow => hindex ▸ hrow) fun key startedAt hnext =>
    .inl (unbondingStart_eq_some.mpr
      (hstatus key startedAt (unbondingStart_eq_some.mp hnext)))

theorem modify (hcovers : set.IndexCovers) {change : ProducerInfo → ProducerInfo}
    (hchange : ∀ info, (change info).status = info.status ∨
      (change info).status.startedAt = none) :
    (set.modify hash change).IndexCovers := by
  refine hcovers.of_status (modify_unbondingIndex ..) fun key startedAt hnext => ?_
  by_cases hkey : key = hash
  · subst hkey
    rw [statusOf_modify_self] at hnext
    obtain ⟨info, hinfo, hstatus⟩ := Option.map_eq_some_iff.mp hnext
    rcases hchange info with hsame | hnone
    · rw [statusOf, hinfo, Option.map_some, ← hsame, hstatus]
    · rw [hstatus] at hnone
      cases hnone
  · rwa [statusOf_modify_ne change hkey] at hnext

theorem of_sameStatus (hcovers : set.IndexCovers)
    (hindex : next.unbondingIndex = set.unbondingIndex)
    (hsame : SameView ProducerInfo.status set next) : next.IndexCovers :=
  hcovers.of_status hindex fun key _ hnext => (hsame key).symm.trans hnext

theorem cleanup (hcovers : set.IndexCovers) (hash : Hash) :
    (set.cleanupAllDelegations prim hash).IndexCovers :=
  hcovers.of_sameStatus (cleanupAllDelegations_frame prim set hash).2.1
    (.cleanup (fun _ _ _ _ => rfl) hash)

theorem congr (hcovers : set.IndexCovers) (hproducers : next.producers = set.producers)
    (hindex : next.unbondingIndex = set.unbondingIndex) : next.IndexCovers :=
  hcovers.of_sameStatus hindex fun key => by rw [hproducers]

theorem register (prim : Primitives) (hcovers : set.IndexCovers) {info : ProducerInfo}
    (hfresh : info.status.startedAt = none) (height : Nat) :
    ((set.register prim info height).toOption.getD set).IndexCovers := by
  cases hok : set.register prim info height with
  | error error => exact hcovers
  | ok next =>
      obtain ⟨⟨flag, rfl⟩, -⟩ := register_ok hok
      refine hcovers.of_status rfl fun key startedAt hnext => ?_
      simp only [Except.toOption, Option.getD_some, statusOf] at hnext ⊢
      by_cases hkey : key = prim.cryptoHash info.publicKey
      · subst hkey
        rw [Finmap.lookup_insert] at hnext
        have hstatus : info.status = .unbonding startedAt := Option.some.inj hnext
        rw [hstatus] at hfresh
        cases hfresh
      · rwa [Finmap.lookup_insert_of_ne _ hkey] at hnext

theorem requestExit (hcovers : set.IndexCovers) (pubkey : PublicKey) (hheight : 1 ≤ height) :
    ((set.requestExit prim pubkey height).toOption.getD set).IndexCovers := by
  simp only [ProducerSet.requestExit]
  split
  · exact hcovers
  split
  case h_2 => exact hcovers
  case h_1 =>
    refine hcovers.step (fun row hrow => ?_) fun key startedAt hnext => ?_
    · simp [Except.toOption, mem_insertUnbonding, hrow]
    · rw [unbondingStart_eq_some] at hnext ⊢
      have hstatus : ((set.modify (prim.cryptoHash pubkey)
          (·.startUnbonding height)).cleanupAllDelegations prim
            (prim.cryptoHash pubkey)).statusOf key = some (.unbonding startedAt) := hnext
      rw [statusOf_cleanup] at hstatus
      by_cases hkey : key = prim.cryptoHash pubkey
      · right
        subst hkey
        rw [statusOf_modify_self] at hstatus
        obtain ⟨info, -, hstarted⟩ := Option.map_eq_some_iff.mp hstatus
        obtain rfl : height = startedAt := ProducerStatus.unbonding.inj hstarted
        exact ⟨by simp [Except.toOption, mem_insertUnbonding], hheight⟩
      · left
        rwa [statusOf_modify_ne _ hkey] at hstatus

theorem slashProducer (hcovers : set.IndexCovers) (pubkey : PublicKey) (height : Nat) :
    (((set.slashProducer prim pubkey height).toOption.map Prod.fst).getD set).IndexCovers := by
  have hcleaned : ((set.modify (prim.cryptoHash pubkey)
      (·.slash height)).cleanupAllDelegations prim
        (prim.cryptoHash pubkey)).IndexCovers :=
    (hcovers.modify fun _ => .inr rfl).cleanup _
  simp only [ProducerSet.slashProducer]
  split
  · exact hcovers
  split
  · exact hcovers
  · exact hcleaned.congr rfl rfl

theorem delegateBondsCapped (hcovers : set.IndexCovers) (delegator delegatee : PublicKey)
    (bondCount cap : Nat) :
    ((set.delegateBondsCapped prim delegator delegatee bondCount cap).toOption.getD
      set).IndexCovers :=
  hcovers.of_sameStatus (delegateBondsCapped_frame ..).2.1
    (.delegateBondsCapped (fun _ _ _ _ => rfl) delegator delegatee bondCount cap)

theorem revokeDelegation (hcovers : set.IndexCovers) (delegator : PublicKey) :
    ((set.revokeDelegation prim delegator).toOption.getD set).IndexCovers :=
  hcovers.of_sameStatus (revokeDelegation_frame ..).2.1
    (.revokeDelegation (fun _ _ _ _ => rfl) delegator)

theorem applyUpdate (hcovers : set.IndexCovers) {cap : Nat} {update : PendingProducerUpdate}
    (hfrom : FromOne update) : (set.applyUpdate prim cap update).IndexCovers := by
  cases update with
  | register info height => exact hcovers.register prim hfrom height
  | exit pubkey height => exact hcovers.requestExit pubkey hfrom
  | slash pubkey height => exact hcovers.slashProducer pubkey height
  | addBond pubkey outpoints bondUnit creationSlot =>
      refine hcovers.modify fun info => .inl ?_
      simp only [ProducerInfo.addBonds]
      split <;> rfl
  | delegateBond delegator delegate bondCount =>
      exact hcovers.delegateBondsCapped delegator delegate bondCount cap
  | revokeDelegation delegator => exact hcovers.revokeDelegation delegator
  | requestWithdrawal pubkey bondCount bondUnit =>
      have hwithdrawn : (set.modify (prim.cryptoHash pubkey)
          (·.applyWithdrawal bondCount bondUnit)).IndexCovers := by
        refine hcovers.modify fun info => ?_
        rw [ProducerInfo.applyWithdrawal_status]
        split
        · exact .inr rfl
        · exact .inl rfl
      simp only [ProducerSet.applyUpdate]
      split
      · exact hwithdrawn.cleanup _
      · exact hwithdrawn
  | rotateBlsKey pubkey newBlsPubkey height => exact hcovers.modify fun _ => .inl rfl

theorem applyPendingUpdatesWithCap (hcovers : set.IndexCovers) (cap : Nat)
    (hqueue : ∀ update ∈ set.pendingUpdates, FromOne update) :
    (set.applyPendingUpdatesWithCap prim cap).IndexCovers := by
  unfold ProducerSet.applyPendingUpdatesWithCap
  refine foldl_invariant (fun _ (state : ProducerSet) => state.IndexCovers)
    (hcovers.congr rfl rfl) ?_
  intro done update rest current hitems hcurrent
  exact hcurrent.applyUpdate (hqueue update (by simp [hitems]))

end IndexCovers

/-! ## The unbonding pass -/

section Pass

variable (prim)

def exitCompleted (set : ProducerSet) (key : Hash) (height : Nat) : ProducerSet :=
  let exited := set.modify key ProducerInfo.completeExit
  cleanupAllDelegations prim
    { exited with exitHistory := exited.exitHistory.insert key height } key

/-- One candidate of `process_unbonding`; the list holds the completed producers, each
beside the key it was found at. -/
def completeCandidate (height duration : Nat)
    (state : ProducerSet × List (Hash × ProducerInfo)) (row : Nat × Hash) :
    ProducerSet × List (Hash × ProducerInfo) :=
  let next :=
    match state.1.producers.lookup row.2 with
    | some info =>
        if info.isUnbondingCompleteU64 height duration then
          (state.1.exitCompleted prim row.2 height, state.2 ++ [(row.2, info.completeExit)])
        else state
    | none => state
  ({ next.1 with unbondingIndex := next.1.unbondingIndex.filter (· ≠ row) }, next.2)

def processUnbondingU64 (set : ProducerSet) (height duration : Nat) :
    ProducerSet × List (Hash × ProducerInfo) :=
  (set.unbondingCandidates height duration).foldl (completeCandidate prim height duration)
    (set, [])

end Pass

theorem statusOf_exitCompleted {info : ProducerInfo}
    (hinfo : set.producers.lookup hash = some info) (height : Nat) (key : Hash) :
    (set.exitCompleted prim hash height).statusOf key =
      if key = hash then some .exited else set.statusOf key := by
  have hmodified : (set.exitCompleted prim hash height).statusOf key =
      (set.modify hash ProducerInfo.completeExit).statusOf key := by
    unfold exitCompleted
    rw [statusOf_cleanup]
    rfl
  rw [hmodified]
  split
  case isTrue hkey =>
    rw [hkey, statusOf_modify_self, hinfo]
    rfl
  case isFalse hkey => exact statusOf_modify_ne _ hkey

theorem exitCompleted_frame (prim : Primitives) (set : ProducerSet) (hash : Hash)
    (height : Nat) :
    (set.exitCompleted prim hash height).unbondingIndex = set.unbondingIndex ∧
      (set.exitCompleted prim hash height).pendingUpdates = set.pendingUpdates := by
  simp [exitCompleted]

/-- The status is one whose period is over, by the sum of the code. -/
def ElapsedAt (set : ProducerSet) (height duration : Nat) (key : Hash) : Prop :=
  ∃ startedAt, set.statusOf key = some (.unbonding startedAt) ∧
    (startedAt + duration) % 2 ^ 64 ≤ height

theorem elapsedAt_iff :
    set.ElapsedAt height duration key ↔ ∃ info, set.producers.lookup key = some info ∧
      info.isUnbondingCompleteU64 height duration = true := by
  unfold ElapsedAt statusOf ProducerInfo.isUnbondingCompleteU64
  constructor
  · rintro ⟨startedAt, hstatus, hover⟩
    obtain ⟨info, hinfo, hunbonding⟩ := Option.map_eq_some_iff.mp hstatus
    refine ⟨info, hinfo, ?_⟩
    rw [hunbonding]
    exact decide_eq_true hover
  · rintro ⟨info, hinfo, helapsed⟩
    split at helapsed
    case h_1 startedAt hunbonding =>
      exact ⟨startedAt, by rw [hinfo, Option.map_some, hunbonding], of_decide_eq_true helapsed⟩
    case h_2 => cases helapsed

/-- What the pass has done to `before` once the rows of `done` are dealt with. -/
structure PassedOver (before : ProducerSet) (height duration : Nat)
    (done : List (Nat × Hash)) (state : ProducerSet × List (Hash × ProducerInfo)) : Prop where
  completed : ∀ key, key ∈ state.2.map Prod.fst ↔
    key ∈ done.map Prod.snd ∧ before.ElapsedAt height duration key
  nodup : (state.2.map Prod.fst).Nodup
  exited : ∀ key ∈ state.2.map Prod.fst, state.1.statusOf key = some .exited
  others : ∀ key, key ∉ state.2.map Prod.fst → state.1.statusOf key = before.statusOf key
  index : ∀ row, row ∈ state.1.unbondingIndex ↔ row ∈ before.unbondingIndex ∧ row ∉ done
  queue : state.1.pendingUpdates = before.pendingUpdates
  idle : state.2 = [] → state.1.producers = before.producers

namespace PassedOver

variable {before : ProducerSet} {done : List (Nat × Hash)} {row : Nat × Hash}
  {state : ProducerSet × List (Hash × ProducerInfo)}

theorem start : PassedOver before height duration [] (before, []) where
  completed key := by simp
  nodup := List.nodup_nil
  exited key hkey := by cases hkey
  others key _ := rfl
  index row := by simp
  queue := rfl
  idle _ := rfl

theorem elapsed_iff (hpassed : PassedOver before height duration done state) (key : Hash) :
    state.1.ElapsedAt height duration key ↔
      key ∉ state.2.map Prod.fst ∧ before.ElapsedAt height duration key := by
  unfold ElapsedAt
  by_cases hkey : key ∈ state.2.map Prod.fst
  · simp [hpassed.exited key hkey, hkey]
  · rw [hpassed.others key hkey]
    exact (and_iff_right hkey).symm

theorem skip (hpassed : PassedOver before height duration done state)
    (helapsed : ¬state.1.ElapsedAt height duration row.2) :
    PassedOver before height duration (done ++ [row])
      ({ state.1 with unbondingIndex := state.1.unbondingIndex.filter (· ≠ row) },
        state.2) where
  completed key := by
    rw [hpassed.completed, List.map_append, List.mem_append]
    refine ⟨fun hdone => ⟨.inl hdone.1, hdone.2⟩, ?_⟩
    rintro ⟨hdone | hrow, hkey⟩
    · exact ⟨hdone, hkey⟩
    · obtain rfl : key = row.2 := by simpa using hrow
      rw [hpassed.elapsed_iff] at helapsed
      by_contra hnew
      exact helapsed ⟨fun hmem => hnew ((hpassed.completed _).mp hmem), hkey⟩
  nodup := hpassed.nodup
  exited := hpassed.exited
  others := hpassed.others
  index other := by
    simp only [List.mem_filter, hpassed.index, decide_eq_true_eq, List.mem_append,
      List.mem_singleton, not_or, and_assoc, ne_eq]
  queue := hpassed.queue
  idle := hpassed.idle

theorem complete (hpassed : PassedOver before height duration done state)
    (helapsed : state.1.ElapsedAt height duration row.2) {next : ProducerSet}
    {info : ProducerInfo}
    (hstatus : ∀ key, next.statusOf key =
      if key = row.2 then some .exited else state.1.statusOf key)
    (hindex : next.unbondingIndex = state.1.unbondingIndex.filter (· ≠ row))
    (hqueue : next.pendingUpdates = state.1.pendingUpdates) :
    PassedOver before height duration (done ++ [row]) (next, state.2 ++ [(row.2, info)]) := by
  obtain ⟨hfresh, hbefore⟩ := (hpassed.elapsed_iff row.2).mp helapsed
  have hmem : ∀ key, key ∈ (state.2 ++ [(row.2, info)]).map Prod.fst ↔
      key ∈ state.2.map Prod.fst ∨ key = row.2 := by
    intro key
    simp
  refine ⟨fun key => ?_, ?_, fun key hkey => ?_, fun key hkey => ?_, fun other => ?_,
    hqueue.trans hpassed.queue, fun hnil => by simp at hnil⟩
  · rw [hmem, hpassed.completed, List.map_append, List.mem_append, List.map_singleton,
      List.mem_singleton]
    constructor
    · rintro (⟨hdone, hkey⟩ | rfl)
      · exact ⟨.inl hdone, hkey⟩
      · exact ⟨.inr rfl, hbefore⟩
    · rintro ⟨hdone | rfl, hkey⟩
      · exact .inl ⟨hdone, hkey⟩
      · exact .inr rfl
  · rw [List.map_append, List.map_singleton]
    exact hpassed.nodup.append (List.nodup_singleton _) (by simpa using hfresh)
  · rw [hstatus]
    split
    · rfl
    case isFalse hother => exact hpassed.exited key (((hmem key).mp hkey).resolve_right hother)
  · obtain ⟨hold, hother⟩ := not_or.mp (hkey ∘ (hmem key).mpr)
    rw [hstatus, if_neg hother]
    exact hpassed.others key hold
  · rw [hindex]
    simp only [List.mem_filter, hpassed.index, decide_eq_true_eq, List.mem_append,
      List.mem_singleton, not_or, and_assoc, ne_eq]

theorem candidate (hpassed : PassedOver before height duration done state) :
    PassedOver before height duration (done ++ [row])
      (completeCandidate prim height duration state row) := by
  unfold completeCandidate
  cases hlookup : state.1.producers.lookup row.2 with
  | none =>
      refine hpassed.skip fun helapsed => ?_
      obtain ⟨info, hinfo, -⟩ := elapsedAt_iff.mp helapsed
      rw [hlookup] at hinfo
      cases hinfo
  | some info =>
      dsimp only
      split
      case isTrue hover =>
        have hframe := exitCompleted_frame prim state.1 row.2 height
        refine hpassed.complete (elapsedAt_iff.mpr ⟨info, hlookup, hover⟩)
          (statusOf_exitCompleted hlookup height) ?_ hframe.2
        rw [hframe.1]
      case isFalse hover =>
        refine hpassed.skip fun helapsed => ?_
        obtain ⟨found, hfound, helapsed⟩ := elapsedAt_iff.mp helapsed
        rw [hlookup] at hfound
        cases hfound
        exact hover helapsed

end PassedOver

theorem passedOver_processUnbondingU64 (prim : Primitives) (set : ProducerSet)
    (height duration : Nat) :
    PassedOver set height duration (set.unbondingCandidates height duration)
      (set.processUnbondingU64 prim height duration) :=
  foldl_invariant (fun done state => PassedOver set height duration done state) .start
    fun _ _ _ _ _ hcurrent => hcurrent.candidate

/-- Every unbonding producer started at a height whose period ends within a `u64`. -/
def StartsFit (set : ProducerSet) (duration : Nat) : Prop :=
  ∀ key startedAt, set.statusOf key = some (.unbonding startedAt) → startedAt + duration < 2 ^ 64

theorem isUnbondingComplete_eq (hfit : set.StartsFit duration) {info : ProducerInfo}
    (hinfo : set.producers.lookup key = some info) (height : Nat) :
    info.isUnbondingCompleteU64 height duration = info.isUnbondingComplete height duration := by
  unfold ProducerInfo.isUnbondingCompleteU64 ProducerInfo.isUnbondingComplete
  cases hstatus : info.status with
  | unbonding startedAt =>
      have hstarted : set.statusOf key = some (.unbonding startedAt) := by
        rw [statusOf, hinfo, Option.map_some, hstatus]
      simp only [Nat.mod_eq_of_lt (hfit key startedAt hstarted)]
  | _ => rfl

namespace IndexCovers

theorem exists_candidate (hcovers : set.IndexCovers)
    (hstatus : set.statusOf key = some (.unbonding startedAt))
    (hover : startedAt + duration ≤ height) :
    key ∈ (set.unbondingCandidates height duration).map Prod.snd :=
  hcovers.rows.exists_row (fun start => decide (start ≤ height - duration))
    (unbondingStart_eq_some.mpr hstatus) (decide_eq_true (by omega))

theorem mem_completed_iff (hcovers : set.IndexCovers) (hfit : set.StartsFit duration) :
    key ∈ (set.processUnbondingU64 prim height duration).2.map Prod.fst ↔
      set.ElapsedAt height duration key := by
  rw [(passedOver_processUnbondingU64 prim set height duration).completed]
  refine ⟨And.right, fun helapsed => ⟨?_, helapsed⟩⟩
  obtain ⟨startedAt, hstatus, hover⟩ := helapsed
  rw [Nat.mod_eq_of_lt (hfit key startedAt hstatus)] at hover
  exact hcovers.exists_candidate hstatus hover

theorem processUnbonding (prim : Primitives) (duration : Nat) (hcovers : set.IndexCovers)
    (hheight : height < 2 ^ 64) :
    (set.processUnbondingU64 prim height duration).1.IndexCovers := by
  have hpassed := passedOver_processUnbondingU64 prim set height duration
  have hstays : ∀ key startedAt,
      (set.processUnbondingU64 prim height duration).1.unbondingStart key = some startedAt →
        key ∉ (set.processUnbondingU64 prim height duration).2.map Prod.fst ∧
          set.unbondingStart key = some startedAt := by
    intro key startedAt hnext
    rw [unbondingStart_eq_some] at hnext ⊢
    have hincomplete : key ∉ (set.processUnbondingU64 prim height duration).2.map Prod.fst := by
      intro hcompleted
      rw [hpassed.exited key hcompleted] at hnext
      cases hnext
    exact ⟨hincomplete, by rwa [hpassed.others key hincomplete] at hnext⟩
  refine ⟨hcovers.rows.prune (fun key startedAt hnext => (hstays key startedAt hnext).2) ?_,
    fun key startedAt hnext => hcovers.started key startedAt (hstays key startedAt hnext).2⟩
  intro row hrow hnext
  obtain ⟨hincomplete, hbefore⟩ := hstays row.2 row.1 hnext
  refine (hpassed.index row).mpr ⟨hrow, fun hdue => hincomplete ?_⟩
  have hpos := hcovers.started row.2 row.1 hbefore
  have hthreshold : row.1 ≤ height - duration := by
    simpa using (List.mem_filter.mp hdue).2
  refine (hpassed.completed row.2).mpr ⟨List.mem_map_of_mem hdue, row.1,
    unbondingStart_eq_some.mp hbefore, ?_⟩
  rw [Nat.mod_eq_of_lt (by omega)]
  omega

end IndexCovers

end ProducerSet

end Doli.Producer
