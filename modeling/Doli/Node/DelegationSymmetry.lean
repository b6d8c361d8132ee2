import Doli.Node.StakeWeight

/-!
# The two ends of a delegation agree after every operation

A delegation is recorded at the delegator and in the list of its delegatee.
Whatever the set goes through, a producer delegates to another exactly when that
one's list, and no other, has one row of it with the same count.
-/

namespace Doli.Node

open Doli.Core Doli.Lib Doli.Storage Doli.Producer Doli.Producer.ProducerSet

inductive CancelExitError where
  | notFound
  | notUnbonding (status : ProducerStatus)
  deriving DecidableEq, Repr

/-- Back to active, and off the unbonding index. -/
def cancelExit (prim : Primitives) (set : ProducerSet) (pubkey : PublicKey) :
    Except CancelExitError ProducerSet :=
  match set.getByPubkey prim pubkey with
  | none => .error .notFound
  | some info =>
      match info.status with
      | .unbonding startedAt =>
          let key := prim.cryptoHash pubkey
          let active := set.modify key ({ · with status := .active })
          .ok { active with
            unbondingIndex := active.unbondingIndex.filter (· ≠ (startedAt, key)) }
      | status => .error (.notUnbonding status)

inductive SetOperation where
  | register (info : ProducerInfo) (height : Nat)
  | queueUpdate (update : PendingProducerUpdate)
  | applyPendingUpdatesWithCap (cap : Nat)
  | delegateBondsCapped (delegator delegatee : PublicKey) (bondCount cap : Nat)
  | revokeDelegation (delegator : PublicKey)
  | requestExit (pubkey : PublicKey) (height : Nat)
  | cancelExit (pubkey : PublicKey)
  | slashProducer (pubkey : PublicKey) (height : Nat)
  | chargeWithdrawal (hash : Hash) (bonds : Nat)
  | processUnbonding (height duration : Nat)
  deriving DecidableEq, Repr

/-- An operation that fails leaves the set alone. -/
def SetOperation.apply (prim : Primitives) (set : ProducerSet) :
    SetOperation → ProducerSet
  | .register info height => (set.register prim info height).toOption.getD set
  | .queueUpdate update => set.queueUpdate update
  | .applyPendingUpdatesWithCap cap => set.applyPendingUpdatesWithCap prim cap
  | .delegateBondsCapped delegator delegatee bondCount cap =>
      (set.delegateBondsCapped prim delegator delegatee bondCount cap).toOption.getD set
  | .revokeDelegation delegator =>
      (set.revokeDelegation prim delegator).toOption.getD set
  | .requestExit pubkey height => (set.requestExit prim pubkey height).toOption.getD set
  | .cancelExit pubkey => (Node.cancelExit prim set pubkey).toOption.getD set
  | .slashProducer pubkey height =>
      ((set.slashProducer prim pubkey height).toOption.map Prod.fst).getD set
  | .chargeWithdrawal hash bonds => Node.chargeWithdrawal set hash bonds
  | .processUnbonding height duration => set.processUnbonding prim height duration

/-- The records that callers build carry no delegation. -/
def SetOperation.Fresh : SetOperation → Prop
  | .register info _ => Undelegated info
  | .queueUpdate update => FreshUpdate update
  | _ => True

/-! ## One operation -/

/-- Only an active producer takes part, and a delegation is of one bond or more. -/
def Partakes (info : ProducerInfo) : Prop :=
  (info.delegatedTo ≠ none → 0 < info.delegatedBonds) ∧
    (info.isActive = false → info.delegatedTo = none ∧ info.receivedDelegations = [])

theorem partakes_discipline : Discipline Partakes where
  idle hheld := hheld.2
  fresh := by
    rintro info ⟨hto, -, hrows⟩
    exact ⟨fun hsome => absurd hto hsome, fun _ => ⟨hto, hrows⟩⟩
  freed hheld := ⟨fun hsome => absurd rfl hsome, fun hidle => ⟨rfl, (hheld.2 hidle).2⟩⟩
  dropped _ hheld := ⟨hheld.1, fun hidle =>
    ⟨(hheld.2 hidle).1, by simp [ProducerInfo.dropReceived, (hheld.2 hidle).2]⟩⟩
  sent _ _ hheld hactive hpos _ :=
    ⟨fun _ => hpos, fun hidle => absurd (hactive.symm.trans hidle) (by simp)⟩
  pushed _ _ hheld hactive :=
    ⟨hheld.1, fun hidle => absurd (hactive.symm.trans hidle) (by simp)⟩
  bonded {info} outpoints unit slot hheld := by
    obtain ⟨hto, hbonds, hrows⟩ :=
      ProducerInfo.keepsDelegation_addBonds outpoints unit slot info
    unfold Partakes
    rw [ProducerInfo.addBonds_isActive, hto, hbonds, hrows]
    exact hheld
  rotated _ hheld := hheld

theorem partakes_withdraws {prim : Primitives} {set : ProducerSet}
    (update : PendingProducerUpdate) : set.Withdraws prim Partakes update := by
  cases update with
  | requestWithdrawal pubkey bondCount bondUnit =>
      intro info hinfo hheld hstays
      obtain ⟨hto, hbonds, hrows⟩ :=
        ProducerInfo.keepsDelegation_applyWithdrawal bondCount bondUnit info
      unfold Partakes
      rw [hto, hbonds, hrows]
      exact ⟨hheld.1, fun hidle => hheld.2 (applyWithdrawal_idle hstays hidle)⟩
  | _ => trivial

structure Symmetric (prim : Primitives) (set : ProducerSet) : Prop
    extends set.Orderly prim Partakes where
  fresh : ∀ update ∈ set.pendingUpdates, FreshUpdate update

namespace Symmetric

variable {prim : Primitives} {set : ProducerSet}

theorem of_undelegated
    (hbare : ∀ key info, set.producers.lookup key = some info → Undelegated info)
    (hqueue : ∀ update ∈ set.pendingUpdates, FreshUpdate update) :
    Symmetric prim set := by
  have hnone : ∀ key, set.pledges prim key = none := by
    intro key
    cases hinfo : set.producers.lookup key with
    | none => exact pledges_of_lookup_none hinfo
    | some info => simp [pledges_of_lookup hinfo, (hbare key info hinfo).1]
  refine ⟨⟨⟨?_, ?_, ?_⟩, ?_⟩, hqueue⟩
  · exact fun key info hinfo _ => (hbare key info hinfo).2.1
  · intro key info hinfo source
    rw [(hbare key info hinfo).2.2, Pledges.rowsFrom_of_none (hnone source)]
    rfl
  · intro source target haim
    simp [hnone source] at haim
  · exact fun key info hinfo => partakes_discipline.fresh (hbare key info hinfo)

theorem flush (hsym : Symmetric prim set) (cap : Nat) :
    Symmetric prim (set.applyPendingUpdatesWithCap prim cap) where
  toOrderly := by
    unfold applyPendingUpdatesWithCap
    refine foldl_invariant (fun _ (state : ProducerSet) => state.Orderly prim Partakes)
      (hsym.toOrderly.of_producers rfl) ?_
    intro done update rest current hqueue hcurrent
    refine hcurrent.applyUpdate partakes_discipline (hsym.fresh update ?_)
      (partakes_withdraws update)
    simp [hqueue]
  fresh := by simp

theorem cancelExit (hsym : Symmetric prim set) (pubkey : PublicKey) :
    Symmetric prim ((Node.cancelExit prim set pubkey).toOption.getD set) := by
  unfold Node.cancelExit
  split
  · exact hsym
  case h_2 info hinfo =>
    split
    case h_1 startedAt hstatus =>
      have hactive : (set.modify (prim.cryptoHash pubkey)
          ({ · with status := .active })).Orderly prim Partakes :=
        hsym.toOrderly.modify (fun _ => ⟨rfl, rfl, rfl⟩) fun _ _ hheld =>
          ⟨hheld.1, fun hidle => absurd hidle (by simp [ProducerInfo.isActive])⟩
      exact ⟨hactive.of_producers rfl, by simpa [Except.toOption] using hsym.fresh⟩
    · exact hsym

theorem apply (hsym : Symmetric prim set) {operation : SetOperation}
    (hfresh : operation.Fresh) : Symmetric prim (operation.apply prim set) := by
  cases operation with
  | register info height =>
      refine ⟨hsym.toOrderly.register partakes_discipline hfresh height, ?_⟩
      have hqueue := applyUpdate_pendingUpdates prim 0 set (.register info height)
      exact fun update hupdate => hsym.fresh update (hqueue ▸ hupdate)
  | queueUpdate update =>
      refine ⟨hsym.toOrderly.of_producers rfl, fun other hother => ?_⟩
      rcases List.mem_append.mp hother with hqueued | hnew
      · exact hsym.fresh other hqueued
      · exact List.mem_singleton.mp hnew ▸ hfresh
  | applyPendingUpdatesWithCap cap => exact hsym.flush cap
  | delegateBondsCapped delegator delegatee bondCount cap =>
      refine ⟨hsym.toOrderly.delegateBondsCapped partakes_discipline delegator delegatee
        bondCount cap, ?_⟩
      have hqueue := applyUpdate_pendingUpdates prim cap set
        (.delegateBond delegator delegatee bondCount)
      exact fun update hupdate => hsym.fresh update (hqueue ▸ hupdate)
  | revokeDelegation delegator =>
      refine ⟨hsym.toOrderly.revokeDelegation partakes_discipline delegator, ?_⟩
      have hqueue := applyUpdate_pendingUpdates prim 0 set (.revokeDelegation delegator)
      exact fun update hupdate => hsym.fresh update (hqueue ▸ hupdate)
  | requestExit pubkey height =>
      refine ⟨hsym.toOrderly.requestExit partakes_discipline pubkey height, ?_⟩
      have hqueue := applyUpdate_pendingUpdates prim 0 set (.exit pubkey height)
      exact fun update hupdate => hsym.fresh update (hqueue ▸ hupdate)
  | cancelExit pubkey => exact hsym.cancelExit pubkey
  | slashProducer pubkey height =>
      refine ⟨hsym.toOrderly.slashProducer partakes_discipline pubkey height, ?_⟩
      have hqueue := applyUpdate_pendingUpdates prim 0 set (.slash pubkey height)
      exact fun update hupdate => hsym.fresh update (hqueue ▸ hupdate)
  | chargeWithdrawal hash bonds =>
      refine ⟨hsym.toOrderly.modify (fun _ => ⟨rfl, rfl, rfl⟩) fun _ _ hheld => hheld, ?_⟩
      simpa [SetOperation.apply, Node.chargeWithdrawal] using hsym.fresh
  | processUnbonding height duration =>
      refine ⟨hsym.toOrderly.processUnbonding partakes_discipline height duration, ?_⟩
      simpa [SetOperation.apply] using hsym.fresh

end Symmetric

/-! ## Every sequence of operations -/

/-- The delegator's end: `source` delegates `bonds` bonds to the producer at
`target`. -/
def DelegatesTo (prim : Primitives) (set : ProducerSet) (source target : Hash)
    (bonds : Nat) : Prop :=
  ∃ info delegatee, set.producers.lookup source = some info ∧
    info.delegatedTo = some delegatee ∧ prim.cryptoHash delegatee = target ∧
      info.delegatedBonds = bonds ∧ 0 < bonds

/-- The delegatee's end: one row of `source` at `target`, and none elsewhere. -/
def ReceivesFrom (set : ProducerSet) (target source : Hash) (bonds : Nat) : Prop :=
  (∃ info, set.producers.lookup target = some info ∧
      (info.receivedDelegations.filter fun row => row.1 = source) =
        [(source, bonds)]) ∧
    ∀ other info, other ≠ target → set.producers.lookup other = some info →
      source ∉ info.receivedDelegations.map Prod.fst

variable {prim : Primitives} {set : ProducerSet} {source target : Hash} {bonds : Nat}

theorem delegatesTo_iff (hsym : Symmetric prim set) :
    DelegatesTo prim set source target bonds ↔
      set.pledges prim source = some (target, bonds) := by
  constructor
  · rintro ⟨info, delegatee, hinfo, hto, rfl, rfl, -⟩
    simp [pledges_of_lookup hinfo, hto]
  · intro hpledge
    cases hinfo : set.producers.lookup source with
    | none => simp [pledges_of_lookup_none hinfo] at hpledge
    | some info =>
        rw [pledges_of_lookup hinfo] at hpledge
        obtain ⟨delegatee, hto, heq⟩ := Option.map_eq_some_iff.mp hpledge
        obtain ⟨htarget, hbonds⟩ := Prod.mk.inj heq
        have hpos := (hsym.each source info hinfo).1 (by simp [hto])
        exact ⟨info, delegatee, hinfo, hto, htarget, hbonds, hbonds ▸ hpos⟩

theorem receivesFrom_iff (hsym : Symmetric prim set) :
    ReceivesFrom set target source bonds ↔
      set.pledges prim source = some (target, bonds) := by
  constructor
  · rintro ⟨⟨info, hinfo, hrows⟩, -⟩
    exact (hsym.received target info hinfo).filter_eq_singleton_iff.mp hrows
  · intro hpledge
    have haim : (set.pledges prim source).map Prod.fst = some target := by simp [hpledge]
    obtain ⟨info, hinfo⟩ := Option.isSome_iff_exists.mp (hsym.target source target haim)
    refine ⟨⟨info, hinfo, ?_⟩, fun other found hother hfound hmem => ?_⟩
    · exact (hsym.received target info hinfo).filter_eq_singleton_iff.mpr hpledge
    · have haimed := (hsym.received other found hfound).mem_keys_iff.mp hmem
      exact hother (Option.some.inj (haimed.symm.trans haim))

theorem delegation_symmetric {start : ProducerSet} {operations : List SetOperation}
    (hbare : ∀ key info, start.producers.lookup key = some info → Undelegated info)
    (hqueue : ∀ update ∈ start.pendingUpdates, FreshUpdate update)
    (hfresh : ∀ operation ∈ operations, operation.Fresh) :
    let set := operations.foldl (SetOperation.apply prim) start
    ∀ source target bonds, DelegatesTo prim set source target bonds ↔
      ReceivesFrom set target source bonds := by
  have hsym : Symmetric prim (operations.foldl (SetOperation.apply prim) start) := by
    refine foldl_invariant (fun _ state => Symmetric prim state)
      (.of_undelegated hbare hqueue) ?_
    intro done operation rest current hoperations hcurrent
    exact hcurrent.apply (hfresh operation (by simp [hoperations]))
  intro set source target bonds
  rw [delegatesTo_iff hsym, receivesFrom_iff hsym]

/-- Four of five bonds are delegated, three are withdrawn, and the delegatee leaves. -/
def sampleOperations : List SetOperation :=
  [.register (sampleProducer sampleKey 5) 1,
    .register (sampleProducer ⟨78⟩ 1) 1,
    .queueUpdate (.delegateBond sampleKey ⟨78⟩ 4),
    .applyPendingUpdatesWithCap 0,
    .queueUpdate (.requestWithdrawal sampleKey 3 sampleParams.bondUnit),
    .applyPendingUpdatesWithCap 0,
    .requestExit ⟨78⟩ 30]

theorem delegation_symmetric_sample :
    let set := sampleOperations.foldl (SetOperation.apply samplePrimitives) .new
    ∀ source target bonds, DelegatesTo samplePrimitives set source target bonds ↔
      ReceivesFrom set target source bonds := by
  refine delegation_symmetric ?_ ?_ ?_
  · intro key info hinfo
    simp [ProducerSet.new] at hinfo
  · simp [ProducerSet.new]
  · intro operation hoperation
    simp only [sampleOperations, List.mem_cons, List.not_mem_nil, or_false] at hoperation
    rcases hoperation with rfl | rfl | rfl | rfl | rfl | rfl | rfl
    · exact ⟨rfl, rfl, rfl⟩
    · exact ⟨rfl, rfl, rfl⟩
    all_goals trivial

end Doli.Node
