import Mathlib.Data.List.ReduceOption
import Doli.Node.StakeWeight

/-!
# The signatures that change delegations

Every queued DelegateBond and RevokeDelegation carries the payload that queued
it.  The log of a run holds the updates that changed a delegation; a payload
stands in it as often as the blocks include it.
-/

namespace Doli.Node

open Doli.Core Doli.Lib Doli.Storage Doli.Producer Doli.Producer.ProducerSet

/-- A signed payload as the block carries it. -/
inductive Authorisation where
  | delegate (data : DelegateBondData)
  | revoke (data : RevokeDelegationData)
  deriving DecidableEq, Repr

def authorisation (tx : Transaction) : Option Authorisation :=
  match tx.delegateBondData with
  | some data => some (.delegate data)
  | none => tx.revokeDelegationData.map .revoke

def Authorisation.verifies (prim : Primitives) : Authorisation → Bool
  | .delegate data =>
      prim.verifyHash (prim.delegateBondMessage data) data.signature data.delegator
  | .revoke data =>
      prim.verifyHash (prim.revokeDelegationMessage data) data.signature data.delegator

def Authorisation.update : Authorisation → PendingProducerUpdate
  | .delegate data => .delegateBond data.delegator data.delegate data.bondCount
  | .revoke data => .revokeDelegation data.delegator

/-- The set, the payload of each queued update, and two lists of the run: the
payloads queued so far and the updates that changed a delegation. -/
structure AuthorisedSet where
  set : ProducerSet
  pendingAuth : List (Option Authorisation)
  queued : List Authorisation
  changes : List (PendingProducerUpdate × Option Authorisation)

namespace AuthorisedSet

/-- What was queued before the run has no payload in it. -/
def initial (set : ProducerSet) : AuthorisedSet :=
  ⟨set, set.pendingUpdates.map fun _ => none, [], []⟩

/-- The payloads that changed a delegation, in order. -/
def consumed (state : AuthorisedSet) : List Authorisation :=
  state.changes.filterMap Prod.snd

end AuthorisedSet

/-- The payload of a transaction, once for each update it queued. -/
def queuedAuth (before after : BlockProducers) (tx : Transaction) :
    List (Option Authorisation) :=
  List.replicate
    (after.producers.pendingUpdates.length - before.producers.pendingUpdates.length)
    (authorisation tx)

/-- The transactions of a block, with the payloads they queue. -/
def authorisedEffects (ctx : BlockContext) :
    List Transaction → BlockProducers → BlockProducers × List (Option Authorisation)
  | [], state => (state, [])
  | tx :: txs, state =>
      let next := processTransactionProducerEffects ctx tx state
      let rest := authorisedEffects ctx txs next
      (rest.1, queuedAuth state next tx ++ rest.2)

/-- Whether a delegation begins or ends by the update's own doing. -/
def changesDelegation (prim : Primitives) (cap : Nat) (set : ProducerSet) :
    PendingProducerUpdate → Bool
  | .delegateBond delegator delegate bondCount =>
      (set.delegateBondsCapped prim delegator delegate bondCount cap).toOption.isSome
  | .revokeDelegation delegator => (set.revokeDelegation prim delegator).toOption.isSome
  | _ => false

/-- The flush, with the log of the updates that take effect. -/
def authorisedFlush (prim : Primitives) (cap : Nat) :
    List (PendingProducerUpdate × Option Authorisation) → ProducerSet →
      ProducerSet × List (PendingProducerUpdate × Option Authorisation)
  | [], set => (set, [])
  | item :: items, set =>
      let rest := authorisedFlush prim cap items (set.applyUpdate prim cap item.1)
      (rest.1,
        if changesDelegation prim cap set item.1 then item :: rest.2 else rest.2)

def authorisedStep (utxo : UtxoContext) (state : AuthorisedSet) :
    StakeStep → Except EconError AuthorisedSet
  | .block height slot mode db txs =>
      let ctx : BlockContext := ⟨utxo, height, slot, mode⟩
      match checkWithdrawalEconomics ctx db state.set txs with
      | .error error => .error error
      | .ok () =>
          let done := authorisedEffects ctx txs (.initial state.set)
          .ok { state with
            set := done.1.producers
            pendingAuth := state.pendingAuth ++ done.2
            queued := state.queued ++ done.2.reduceOption }
  | .unbonding height =>
      .ok { state with
        set := state.set.processUnbonding utxo.prim height Producer.unbondingPeriod }
  | .flush cap =>
      let done := authorisedFlush utxo.prim cap
        (state.set.pendingUpdates.zip state.pendingAuth)
        { state.set with pendingUpdates := [] }
      .ok { state with
        set := done.1, pendingAuth := [], changes := state.changes ++ done.2 }

/-- The signature gate is open for the block. -/
def StakeStep.AuthRequired (params : NetworkParams) : StakeStep → Prop
  | .block height _ _ _ _ => params.delegationAuthActivationHeight ≤ height
  | _ => True

/-- The payloads that the block would queue on the state it meets. -/
def StakeStep.queues (utxo : UtxoContext) (state : AuthorisedSet) :
    StakeStep → List Authorisation
  | .block height slot mode _ txs =>
      (authorisedEffects ⟨utxo, height, slot, mode⟩ txs
        (.initial state.set)).2.reduceOption
  | _ => []

/-- No payload is queued twice, in one block or over the run. -/
def StakeStep.Fresh (utxo : UtxoContext) (state : AuthorisedSet) (step : StakeStep) :
    Prop :=
  (step.queues utxo state).Nodup ∧
    ∀ auth ∈ step.queues utxo state, auth ∉ state.queued

instance (utxo : UtxoContext) (state : AuthorisedSet) (step : StakeStep) :
    Decidable (step.Fresh utxo state) :=
  inferInstanceAs (Decidable (_ ∧ _))

instance (params : NetworkParams) : DecidablePred (StakeStep.AuthRequired params)
  | .block height _ _ _ _ =>
      inferInstanceAs (Decidable (params.delegationAuthActivationHeight ≤ height))
  | .unbonding _ => isTrue trivial
  | .flush _ => isTrue trivial

/-! ## What a transaction queues -/

/-- An update with its payload; without one it is no DelegateBond, or is older
than the run. -/
def Signed (prim : Primitives) (older : List PendingProducerUpdate)
    (update : PendingProducerUpdate) : Option Authorisation → Prop
  | some auth => update = auth.update ∧ auth.verifies prim = true
  | none => ∀ delegator delegate bondCount,
      update = .delegateBond delegator delegate bondCount → update ∈ older

/-- The queue grows by updates that are no DelegateBond. -/
def GrowsUnsigned (before after : BlockProducers) : Prop :=
  ∃ more, after.producers.pendingUpdates = before.producers.pendingUpdates ++ more ∧
    ∀ delegator delegate bondCount, .delegateBond delegator delegate bondCount ∉ more

namespace GrowsUnsigned

variable {before after : BlockProducers} {update : PendingProducerUpdate}

theorem refl (state : BlockProducers) : GrowsUnsigned state state := ⟨[], by simp⟩

theorem queue (hgrows : GrowsUnsigned before after)
    (hother : ∀ delegator delegate bondCount,
      update ≠ .delegateBond delegator delegate bondCount) :
    GrowsUnsigned before (after.queue update) := by
  obtain ⟨more, hqueue, hmore⟩ := hgrows
  refine ⟨more ++ [update], ?_, ?_⟩
  · simp [BlockProducers.queue, ProducerSet.queueUpdate, hqueue]
  · intro delegator delegate bondCount hmem
    rcases List.mem_append.mp hmem with hold | hnew
    · exact hmore _ _ _ hold
    · exact hother _ _ _ (List.mem_singleton.mp hnew).symm

theorem charge (hgrows : GrowsUnsigned before after) (hash : Hash) (bonds : Nat) :
    GrowsUnsigned before (after.charge hash bonds) := by
  obtain ⟨more, hqueue, hmore⟩ := hgrows
  exact ⟨more, by simpa [BlockProducers.charge, chargeWithdrawal] using hqueue, hmore⟩

end GrowsUnsigned

theorem growsUnsigned_withdrawal {ctx : BlockContext} {tx : Transaction}
    {state : BlockProducers} : GrowsUnsigned state (withdrawalEffect ctx tx state) := by
  have hself := GrowsUnsigned.refl state
  unfold withdrawalEffect
  split
  · exact hself
  case h_2 data hdata =>
    split
    · exact hself
    case h_2 info hinfo =>
      have hrevoked : ∀ p q : Prop, [Decidable p] → [Decidable q] →
          GrowsUnsigned state (if p then
            if q then state.queue (.revokeDelegation data.producerPubkey) else state
          else state) := by
        intro p q _ _
        split_ifs
        · exact hself.queue (by simp)
        · exact hself
        · exact hself
      dsimp only
      split
      · exact ((hrevoked _ _).charge _ _).queue (by simp)
      · exact hrevoked _ _

theorem growsUnsigned_of_other {ctx : BlockContext} {tx : Transaction}
    {state : BlockProducers} (hdelegate : tx.txType ≠ .delegateBond)
    (hrevoke : tx.txType ≠ .revokeDelegation) :
    GrowsUnsigned state (processTransactionProducerEffects ctx tx state) := by
  have hself := GrowsUnsigned.refl state
  unfold processTransactionProducerEffects
  split
  case h_1 =>
    unfold registrationEffect
    split
    · exact hself
    split
    · exact hself
    split
    · exact hself
    case h_2 info hinfo =>
      have hregistered : GrowsUnsigned state (state.queue (.register info ctx.height)) :=
        hself.queue (by simp)
      exact hregistered
  case h_2 =>
    unfold exitEffect
    split
    · exact hself
    split
    · exact hself
    split
    · exact (hself.charge _ _).queue (by simp)
    · exact hself.queue (by simp)
  case h_3 =>
    unfold slashEffect
    split
    · exact hself
    · exact hself.queue (by simp)
  case h_4 =>
    unfold addBondEffect
    split
    · exact hself
    split
    · exact hself
    · exact hself.queue (by simp)
  case h_5 =>
    exact growsUnsigned_withdrawal
  case h_6 htype => exact absurd htype hdelegate
  case h_7 htype => exact absurd htype hrevoke
  case h_8 =>
    unfold rotateEffect
    split
    · split
      · exact hself
      case h_2 data hdata =>
        simp only [ProducerSet.applyRotation]
        cases rotateVerdict data
            (state.producers.resolveRotationInputs ctx.utxo.prim data) with
        | ok _ =>
            have hrotated : GrowsUnsigned state (state.queue
                (.rotateBlsKey data.producer data.newBlsPubkey ctx.height)) :=
              hself.queue (by simp)
            exact hrotated
        | error _ => exact hself
    · exact hself
  case h_9 => exact hself

section Signed

variable {ctx : BlockContext} {older : List PendingProducerUpdate}

theorem delegationAuth_verifies {utxo : UtxoContext} {height : Nat} {message : Hash}
    {signature : Signature} {delegator : PublicKey}
    (hgate : utxo.params.delegationAuthActivationHeight ≤ height)
    (hauth : delegationAuth utxo height message signature delegator = true) :
    utxo.prim.verifyHash message signature delegator = true := by
  unfold delegationAuth at hauth
  simpa [Nat.not_lt.mpr hgate] using hauth

theorem queues_signed {tx : Transaction} {state : BlockProducers}
    (hgate : ctx.utxo.params.delegationAuthActivationHeight ≤ ctx.height) :
    ∃ more, (processTransactionProducerEffects ctx tx state).producers.pendingUpdates =
        state.producers.pendingUpdates ++ more ∧
      ∀ update ∈ more, Signed ctx.utxo.prim older update (authorisation tx) := by
  by_cases hdelegate : tx.txType = .delegateBond
  · unfold processTransactionProducerEffects
    simp only [hdelegate]
    unfold delegateEffect
    split
    · exact ⟨[], by simp⟩
    case h_2 data hdata =>
      dsimp only
      split
      case isTrue hok =>
        refine ⟨[.delegateBond data.delegator data.delegate data.bondCount], rfl, ?_⟩
        intro update hupdate
        obtain rfl := List.mem_singleton.mp hupdate
        have hauth : authorisation tx = some (.delegate data) := by
          simp [authorisation, hdata]
        rw [hauth]
        exact ⟨rfl, delegationAuth_verifies hgate (Bool.and_eq_true_iff.mp hok).1⟩
      case isFalse => exact ⟨[], by simp⟩
  · by_cases hrevoke : tx.txType = .revokeDelegation
    · unfold processTransactionProducerEffects
      simp only [hrevoke]
      unfold revokeEffect
      split
      · exact ⟨[], by simp⟩
      case h_2 data hdata =>
        split
        case isTrue hok =>
          refine ⟨[.revokeDelegation data.delegator], rfl, fun update hupdate => ?_⟩
          obtain rfl := List.mem_singleton.mp hupdate
          have hauth : authorisation tx = some (.revoke data) := by
            simp [authorisation, Transaction.delegateBondData, hrevoke, hdata]
          rw [hauth]
          exact ⟨rfl, delegationAuth_verifies hgate hok⟩
        case isFalse => exact ⟨[], by simp⟩
    · obtain ⟨more, hqueue, hmore⟩ := growsUnsigned_of_other hdelegate hrevoke
      refine ⟨more, hqueue, fun update hupdate => ?_⟩
      have hauth : authorisation tx = none := by
        simp [authorisation, Transaction.delegateBondData, Transaction.revokeDelegationData,
          hdelegate, hrevoke]
      rw [hauth]
      rintro delegator delegate bondCount rfl
      exact absurd hupdate (hmore _ _ _)

theorem authorisedEffects_fst (txs : List Transaction) (state : BlockProducers) :
    (authorisedEffects ctx txs state).1 = processProducerEffects ctx txs state := by
  induction txs generalizing state with
  | nil => rfl
  | cons tx txs ih => exact ih _

theorem authorisedEffects_signed
    (hgate : ctx.utxo.params.delegationAuthActivationHeight ≤ ctx.height)
    (txs : List Transaction) (state : BlockProducers) :
    ∃ more, (authorisedEffects ctx txs state).1.producers.pendingUpdates =
        state.producers.pendingUpdates ++ more ∧
      List.Forall₂ (Signed ctx.utxo.prim older) more
        (authorisedEffects ctx txs state).2 := by
  induction txs generalizing state with
  | nil => exact ⟨[], by simp [authorisedEffects], .nil⟩
  | cons tx txs ih =>
      obtain ⟨first, hfirst, hsigned⟩ := @queues_signed ctx older tx state hgate
      obtain ⟨rest, hrest, htagged⟩ := ih (processTransactionProducerEffects ctx tx state)
      refine ⟨first ++ rest, ?_, ?_⟩
      · simp only [authorisedEffects]
        rw [hrest, hfirst, List.append_assoc]
      · have hcount : queuedAuth state (processTransactionProducerEffects ctx tx state) tx =
            List.replicate first.length (authorisation tx) := by
          unfold queuedAuth
          rw [hfirst, List.length_append, Nat.add_sub_cancel_left]
        simp only [authorisedEffects]
        rw [hcount]
        refine List.rel_append ?_ htagged
        clear hfirst hcount hrest
        induction first with
        | nil => exact .nil
        | cons update first ih =>
            exact .cons (hsigned update List.mem_cons_self)
              (ih fun other hother => hsigned other (List.mem_cons_of_mem _ hother))

end Signed

/-! ## The flush -/

section Flush

variable {prim : Primitives} {cap : Nat}

theorem authorisedFlush_fst
    (items : List (PendingProducerUpdate × Option Authorisation)) (set : ProducerSet) :
    (authorisedFlush prim cap items set).1 =
      (items.map Prod.fst).foldl (ProducerSet.applyUpdate prim cap) set := by
  induction items generalizing set with
  | nil => rfl
  | cons item items ih => exact ih _

theorem authorisedFlush_sublist
    (items : List (PendingProducerUpdate × Option Authorisation)) (set : ProducerSet) :
    (authorisedFlush prim cap items set).2.Sublist items := by
  induction items generalizing set with
  | nil => exact List.Sublist.refl _
  | cons item items ih =>
      simp only [authorisedFlush]
      split
      · exact (ih _).cons_cons item
      · exact (ih _).cons item

end Flush

/-! ## Runs -/

/-- What the runs keep: every queued update and every change is signed, and a
payload is consumed or waits only once for each time it was queued. -/
structure Accounted (prim : Primitives) (older : List PendingProducerUpdate)
    (state : AuthorisedSet) : Prop where
  pending : List.Forall₂ (Signed prim older) state.set.pendingUpdates state.pendingAuth
  changes : ∀ change ∈ state.changes, Signed prim older change.1 change.2
  once : (state.consumed ++ state.pendingAuth.reduceOption).Sublist state.queued

namespace Accounted

variable {utxo : UtxoContext} {older : List PendingProducerUpdate}
  {state next : AuthorisedSet} {step : StakeStep}

theorem initial (set : ProducerSet) :
    Accounted utxo.prim set.pendingUpdates (.initial set) where
  pending := by
    have hall : ∀ updates : List PendingProducerUpdate,
        (∀ update ∈ updates, update ∈ set.pendingUpdates) →
          List.Forall₂ (Signed utxo.prim set.pendingUpdates) updates
            (updates.map fun _ => none) := by
      intro updates hmem
      induction updates with
      | nil => exact .nil
      | cons update updates ih =>
          refine .cons ?_ (ih fun other hother => hmem other (List.mem_cons_of_mem _ hother))
          rintro _ _ _ rfl
          exact hmem _ List.mem_cons_self
    exact hall _ fun _ hmem => hmem
  changes := by simp [AuthorisedSet.initial]
  once := by
    simp [AuthorisedSet.initial, AuthorisedSet.consumed, List.reduceOption_replicate_none]

theorem block (haccounted : Accounted utxo.prim older state) (ctx : BlockContext)
    (hutxo : ctx.utxo = utxo)
    (hgate : utxo.params.delegationAuthActivationHeight ≤ ctx.height)
    (txs : List Transaction) :
    Accounted utxo.prim older
      { state with
        set := (authorisedEffects ctx txs (.initial state.set)).1.producers
        pendingAuth := state.pendingAuth ++
          (authorisedEffects ctx txs (.initial state.set)).2
        queued := state.queued ++
          (authorisedEffects ctx txs (.initial state.set)).2.reduceOption } := by
  subst hutxo
  obtain ⟨more, hqueue, hsigned⟩ :=
    @authorisedEffects_signed ctx older hgate txs (.initial state.set)
  constructor
  · rw [hqueue]
    exact List.rel_append haccounted.pending hsigned
  · exact haccounted.changes
  · simp only [AuthorisedSet.consumed, List.reduceOption_append]
    rw [← List.append_assoc]
    exact haccounted.once.append (List.Sublist.refl _)

theorem flush (haccounted : Accounted utxo.prim older state) (cap : Nat) :
    Accounted utxo.prim older
      { state with
        set := (authorisedFlush utxo.prim cap
          (state.set.pendingUpdates.zip state.pendingAuth)
          { state.set with pendingUpdates := [] }).1
        pendingAuth := []
        changes := state.changes ++ (authorisedFlush utxo.prim cap
          (state.set.pendingUpdates.zip state.pendingAuth)
          { state.set with pendingUpdates := [] }).2 } := by
  have hsublist := @authorisedFlush_sublist utxo.prim cap
    (state.set.pendingUpdates.zip state.pendingAuth) { state.set with pendingUpdates := [] }
  have hlength := haccounted.pending.length_eq
  constructor
  · have hempty : (authorisedFlush utxo.prim cap
        (state.set.pendingUpdates.zip state.pendingAuth)
        { state.set with pendingUpdates := [] }).1.pendingUpdates = [] := by
      rw [authorisedFlush_fst, List.map_fst_zip hlength.le]
      exact applyPendingUpdatesWithCap_pendingUpdates utxo.prim state.set cap
    rw [hempty]
    exact .nil
  · intro change hchange
    rcases List.mem_append.mp hchange with hold | hnew
    · exact haccounted.changes change hold
    · exact List.forall₂_zip haccounted.pending (hsublist.subset hnew)
  · have hsecond : (state.set.pendingUpdates.zip state.pendingAuth).filterMap Prod.snd =
        state.pendingAuth.reduceOption := by
      conv_rhs => rw [← List.map_snd_zip hlength.ge, List.reduceOption, List.filterMap_map]
      rfl
    refine List.Sublist.trans ?_ haccounted.once
    simp only [AuthorisedSet.consumed, List.filterMap_append, List.reduceOption_nil,
      List.append_nil]
    refine (List.Sublist.refl _).append ?_
    rw [← hsecond]
    exact hsublist.filterMap _

theorem authorisedStep (haccounted : Accounted utxo.prim older state)
    (hgate : step.AuthRequired utxo.params)
    (hstep : Node.authorisedStep utxo state step = .ok next) :
    Accounted utxo.prim older next ∧ stakeStep utxo state.set step = .ok next.set ∧
      next.queued = state.queued ++ step.queues utxo state := by
  cases step with
  | block height slot mode db txs =>
      simp only [Node.authorisedStep] at hstep
      split at hstep
      · contradiction
      case h_2 hadmitted =>
        obtain rfl := Except.ok.inj hstep
        refine ⟨haccounted.block ⟨utxo, height, slot, mode⟩ rfl hgate txs, ?_, rfl⟩
        simp only [stakeStep, hadmitted, authorisedEffects_fst]
  | unbonding height =>
      obtain rfl := Except.ok.inj hstep
      refine ⟨⟨?_, haccounted.changes, haccounted.once⟩, rfl, by simp [StakeStep.queues]⟩
      simpa using haccounted.pending
  | flush cap =>
      obtain rfl := Except.ok.inj hstep
      refine ⟨haccounted.flush cap, ?_, by simp [StakeStep.queues]⟩
      simp only [stakeStep, authorisedFlush_fst,
        List.map_fst_zip haccounted.pending.length_eq.le]
      rfl

end Accounted

def sampleRevocation (delegator delegate : PublicKey) : Transaction where
  version := 1
  txType := .revokeDelegation
  inputs := []
  outputs := []
  extraData := delegator.asBytes ++ delegate.asBytes ++ leBytes 64 1

def delegationBlock (height : Nat) (tx : Transaction) : StakeStep :=
  .block height height .full (sampleBondDb sampleKey 5) [tx]

/-- Four bonds are delegated and revoked; then `last` enters a block. -/
def delegateRevoke (last : Transaction) : List StakeStep :=
  [delegationBlock 11 (sampleDelegation sampleKey ⟨78⟩ 4), .flush 0,
    delegationBlock 21 (sampleRevocation sampleKey ⟨78⟩), .flush 0,
    delegationBlock 31 last, .flush 0]

def delegationGenesis : ProducerSet :=
  registerGenesis sampleUtxoContext sampleGenesis .new

def authorisedRun (steps : List StakeStep) : Except EconError AuthorisedSet :=
  run (authorisedStep sampleUtxoContext) steps (.initial delegationGenesis)

end Doli.Node
