import Doli.Node.ProcessUtxos
import Doli.Producer.BlsKeys
import Doli.Producer.WellDelegated

/-!
# Producer effects of a block

`process_transaction_producer_effects` for one transaction, and what the node
does to the producer set for a whole block: the transactions in order, the
unbonding scan, and the flush in epoch 0 and at the boundaries.
-/

namespace Doli.Node

open Doli.Core Doli.Lib Doli.Storage Doli.Producer Doli.Producer.ProducerSet

/-- The producer set under the write guard and the two collections the pass
fills on the side. -/
structure BlockProducers where
  producers : ProducerSet
  dirtyProducerKeys : Finset Hash
  newRegistrations : List PublicKey
  deriving DecidableEq

namespace BlockProducers

def initial (set : ProducerSet) : BlockProducers := ⟨set, ∅, []⟩

def queue (state : BlockProducers) (update : PendingProducerUpdate) :
    BlockProducers :=
  { state with producers := state.producers.queueUpdate update }

end BlockProducers

/-- `withdrawal_pending_count += bonds` on the producer at `hash`. -/
def chargeWithdrawal (set : ProducerSet) (hash : Hash) (bonds : Nat) :
    ProducerSet :=
  set.modify hash fun info =>
    { info with
      withdrawalPendingCount := (info.withdrawalPendingCount + bonds) % 2 ^ 32 }

/-- The charge, with the key marked dirty. -/
def BlockProducers.charge (state : BlockProducers) (hash : Hash) (bonds : Nat) :
    BlockProducers :=
  { state with
    producers := chargeWithdrawal state.producers hash bonds
    dirtyProducerKeys := insert hash state.dirtyProducerKeys }

/-! ## What the arms read -/

/-- The Bond outputs of a transaction with their positions. -/
def bondOutputs (tx : Transaction) : List (Output × Nat) :=
  tx.outputs.zipIdx.filter fun row => row.1.outputType = .bond

def bondOutpoints (prim : Primitives) (tx : Transaction) : List Outpoint :=
  (bondOutputs tx).map fun row => .ofOutput (prim.txHash tx) row.2

/-- The cap on received delegations in force at `height`; 0 is no cap. -/
def delegationCap (params : NetworkParams) (height : Nat) : Nat :=
  if params.receivedDelegationCapActivationHeight ≤ height ∧
      params.receivedDelegationCap ≠ 2 ^ 64 - 1 then
    params.receivedDelegationCap
  else 0

section Readers

variable (utxo : UtxoContext) (height : Nat)

/-- The producer a Registration creates, if it has a Bond output. -/
def registeredInfo (tx : Transaction) (data : RegistrationData) :
    Option ProducerInfo :=
  match bondOutputs tx with
  | [] => none
  | row :: rows =>
      some
        { ProducerInfo.newWithBonds data.publicKey height
            (((row :: rows).map fun row => row.1.amount).sum % 2 ^ 64)
            (.ofOutput (utxo.prim.txHash tx) row.2)
            (utxo.params.heightToEra height) data.bondCount with
          blsPubkey := data.blsPubkey }

/-- Queued AddBonds count towards the allowance from the holdings gate on. -/
def inFlightBonds (set : ProducerSet) (key : PublicKey) : Nat :=
  if utxo.params.withdrawalHoldingsGateActivationHeight ≤ height then
    set.pendingAddbondCount key
  else 0

/-- What a producer may still withdraw, its delegation aside. -/
def remainingBonds (set : ProducerSet) (key : PublicKey) (info : ProducerInfo) :
    Nat :=
  satAdd info.bondCount (inFlightBonds utxo height set key) -
    info.withdrawalPendingCount

/-- Below the activation height no signature is asked for. -/
def delegationAuth (message : Hash) (signature : Signature)
    (delegator : PublicKey) : Bool :=
  height < utxo.params.delegationAuthActivationHeight ||
    utxo.prim.verifyHash message signature delegator

/-- The primary cap check: an unknown delegate passes. -/
def delegationCapOk (set : ProducerSet) (data : DelegateBondData) : Bool :=
  let cap := delegationCap utxo.params height
  if 0 < cap then
    match set.getByPubkey utxo.prim data.delegate with
    | some target => satAddAmount target.receivedTotal data.bondCount ≤ cap
    | none => true
  else true

end Readers

/-! ## One transaction -/

section Effects

variable (ctx : BlockContext) (tx : Transaction) (state : BlockProducers)

def registrationEffect : BlockProducers :=
  if ctx.utxo.params.isInGenesis ctx.height then state
  else
    match tx.registrationData ctx.utxo.prim with
    | none => state
    | some data =>
        match registeredInfo ctx.utxo ctx.height tx data with
        | none => state
        | some info =>
            { state.queue (.register info ctx.height) with
              newRegistrations := state.newRegistrations ++ [data.publicKey] }

/-- Withdraw all bonds of a registered producer; an unknown one is ignored. -/
def exitEffect : BlockProducers :=
  match tx.exitData ctx.utxo.prim with
  | none => state
  | some data =>
      match state.producers.getByPubkey ctx.utxo.prim data.publicKey with
      | none => state
      | some info =>
          if 0 < info.bondCount then
            (state.charge (ctx.utxo.prim.cryptoHash data.publicKey)
              info.bondCount).queue
              (.requestWithdrawal data.publicKey info.bondCount
                ctx.utxo.params.bondUnit)
          else state.queue (.exit data.publicKey ctx.height)

def slashEffect : BlockProducers :=
  match tx.slashData ctx.utxo.prim with
  | none => state
  | some data => state.queue (.slash data.producerPubkey ctx.height)

def addBondEffect : BlockProducers :=
  match tx.addBondData with
  | none => state
  | some data =>
      if (state.producers.getByPubkey ctx.utxo.prim data.producerPubkey).isNone ∧
          !state.producers.hasPendingRegistration data.producerPubkey then
        state
      else
        state.queue
          (.addBond data.producerPubkey (bondOutpoints ctx.utxo.prim tx)
            ctx.utxo.params.bondUnit ctx.slot)

/-- A withdrawal of everything that remains revokes the delegation in its way;
any other one is queued whatever is delegated. -/
def withdrawalEffect : BlockProducers :=
  match tx.withdrawalRequestData with
  | none => state
  | some data =>
      match state.producers.getByPubkey ctx.utxo.prim data.producerPubkey with
      | none => state
      | some info =>
          let remaining :=
            remainingBonds ctx.utxo ctx.height state.producers data.producerPubkey info
          let available := remaining - info.delegatedBonds
          let revoked :=
            if available < data.bondCount then
              if 0 < info.delegatedBonds ∧ data.bondCount = remaining then
                state.queue (.revokeDelegation data.producerPubkey)
              else state
            else state
          if data.bondCount ≤ remaining then
            (revoked.charge (ctx.utxo.prim.cryptoHash data.producerPubkey)
              data.bondCount).queue
              (.requestWithdrawal data.producerPubkey data.bondCount
                ctx.utxo.params.bondUnit)
          else revoked

def delegateEffect : BlockProducers :=
  match tx.delegateBondData with
  | none => state
  | some data =>
      let authOk := delegationAuth ctx.utxo ctx.height
        (ctx.utxo.prim.delegateBondMessage data) data.signature data.delegator
      let capOk := delegationCapOk ctx.utxo ctx.height state.producers data
      if authOk && capOk then
        state.queue (.delegateBond data.delegator data.delegate data.bondCount)
      else state

def revokeEffect : BlockProducers :=
  match tx.revokeDelegationData with
  | none => state
  | some data =>
      if delegationAuth ctx.utxo ctx.height
          (ctx.utxo.prim.revokeDelegationMessage data) data.signature
          data.delegator then
        state.queue (.revokeDelegation data.delegator)
      else state

def rotateEffect : BlockProducers :=
  if ctx.utxo.params.blsKeyRotationActivationHeight ≤ ctx.height then
    match RotateBlsData.decode tx.extraData with
    | none => state
    | some data =>
        match state.producers.applyRotation ctx.utxo.prim data ctx.height with
        | .ok producers => { state with producers := producers }
        | .error _ => state
  else state

/-- `process_transaction_producer_effects` -/
def processTransactionProducerEffects : BlockProducers :=
  match tx.txType with
  | .registration => registrationEffect ctx tx state
  | .exit => exitEffect ctx tx state
  | .slashProducer => slashEffect ctx tx state
  | .addBond => addBondEffect ctx tx state
  | .requestWithdrawal => withdrawalEffect ctx tx state
  | .delegateBond => delegateEffect ctx tx state
  | .revokeDelegation => revokeEffect ctx tx state
  | .rotateBlsKey => rotateEffect ctx tx state
  | _ => state

end Effects

/-! ### What one transaction can do -/

theorem registeredInfo_undelegated {utxo : UtxoContext} {height : Nat}
    {tx : Transaction} {data : RegistrationData} {info : ProducerInfo}
    (hinfo : registeredInfo utxo height tx data = some info) :
    Undelegated info := by
  unfold registeredInfo at hinfo
  split at hinfo
  · contradiction
  · obtain rfl := Option.some.inj hinfo
    exact ⟨rfl, rfl, rfl⟩

/-- What a transaction of the block can queue: the heights are the block's. -/
def QueuedBy (ctx : BlockContext) : PendingProducerUpdate → Prop
  | .register info height => Undelegated info ∧ height = ctx.height
  | .exit _ height => height = ctx.height
  | .slash _ height => height = ctx.height
  | _ => True

theorem QueuedBy.fresh {ctx : BlockContext} {update : PendingProducerUpdate}
    (hqueued : QueuedBy ctx update) : FreshUpdate update := by
  cases update with
  | register info height => exact hqueued.1
  | _ => trivial

/-- A queued registration is that of a transaction. -/
def BuiltBy (ctx : BlockContext) (update : PendingProducerUpdate) : Prop :=
  ∀ info height, update = .register info height →
    ∃ tx data, registeredInfo ctx.utxo ctx.height tx data = some info

/-- An exit charges all bonds, a request what is left under the bonds in flight. -/
def ChargedBy (info : ProducerInfo) (bonds : Nat) : Prop :=
  (0 < info.bondCount ∧ bonds = info.bondCount) ∨
    ∃ inFlight, bonds ≤ satAdd info.bondCount inFlight - info.withdrawalPendingCount

section Inversion

variable {inv : BlockProducers → Prop} (ctx : BlockContext) (tx : Transaction)
  (hqueue : ∀ state update, QueuedBy ctx update → BuiltBy ctx update → inv state →
    inv (state.queue update))
  (hcharge : ∀ state key info bonds,
    state.producers.getByPubkey ctx.utxo.prim key = some info → ChargedBy info bonds →
      inv state → inv (state.charge (ctx.utxo.prim.cryptoHash key) bonds))
  (hregister : ∀ (state : BlockProducers) keys, inv state →
    inv { state with newRegistrations := keys })
  {state : BlockProducers} (hinv : inv state)

include hqueue hcharge hinv

theorem withdrawalEffect_keeps : inv (withdrawalEffect ctx tx state) := by
  unfold withdrawalEffect
  split
  · exact hinv
  case h_2 data hdata =>
    split
    · exact hinv
    case h_2 info hinfo =>
      have hrevoked : ∀ p q : Prop, [Decidable p] → [Decidable q] →
          inv (if p then
            if q then state.queue (.revokeDelegation data.producerPubkey) else state
          else state) ∧
          (if p then
            if q then state.queue (.revokeDelegation data.producerPubkey) else state
          else state).producers.getByPubkey ctx.utxo.prim data.producerPubkey = some info := by
        intro p q _ _
        split_ifs
        · exact ⟨hqueue _ _ trivial nofun hinv, hinfo⟩
        · exact ⟨hinv, hinfo⟩
        · exact ⟨hinv, hinfo⟩
      dsimp only
      split
      case isTrue hgranted =>
        exact hqueue _ _ trivial nofun (hcharge _ _ _ _ (hrevoked _ _).2
          (.inr ⟨_, hgranted⟩) (hrevoked _ _).1)
      case isFalse => exact (hrevoked _ _).1

theorem exitEffect_keeps : inv (exitEffect ctx tx state) := by
  unfold exitEffect
  split
  · exact hinv
  split
  · exact hinv
  case h_2 info hinfo =>
    split
    case isTrue hbonds =>
      exact hqueue _ _ trivial nofun (hcharge _ _ _ _ hinfo (.inl ⟨hbonds, rfl⟩) hinv)
    case isFalse => exact hqueue _ _ rfl nofun hinv

include hregister

theorem processTransactionProducerEffects_keeps :
    inv (processTransactionProducerEffects ctx tx state) := by
  unfold processTransactionProducerEffects
  split
  case h_1 =>
    unfold registrationEffect
    split_ifs
    · exact hinv
    split
    · exact hinv
    case h_2 data hdata =>
      split
      · exact hinv
      case h_2 info hinfo =>
        refine hregister _ _ (hqueue _ (.register info ctx.height)
          ⟨registeredInfo_undelegated hinfo, rfl⟩ ?_ hinv)
        rintro other height hsame
        obtain ⟨rfl, -⟩ := PendingProducerUpdate.register.inj hsame
        exact ⟨tx, data, hinfo⟩
  case h_2 => exact exitEffect_keeps ctx tx hqueue hcharge hinv
  case h_3 =>
    unfold slashEffect
    split
    · exact hinv
    · exact hqueue _ _ rfl nofun hinv
  case h_4 =>
    unfold addBondEffect
    split
    · exact hinv
    split_ifs
    · exact hinv
    · exact hqueue _ _ trivial nofun hinv
  case h_5 => exact withdrawalEffect_keeps ctx tx hqueue hcharge hinv
  case h_6 =>
    unfold delegateEffect
    split
    · exact hinv
    dsimp only
    split
    · exact hqueue _ _ trivial nofun hinv
    · exact hinv
  case h_7 =>
    unfold revokeEffect
    split
    · exact hinv
    split
    · exact hqueue _ _ trivial nofun hinv
    · exact hinv
  case h_8 =>
    unfold rotateEffect
    split_ifs
    · split
      · exact hinv
      case h_2 data hdata =>
        simp only [ProducerSet.applyRotation]
        cases rotateVerdict data
            (state.producers.resolveRotationInputs ctx.utxo.prim data) with
        | ok _ => exact hqueue _ (.rotateBlsKey _ _ _) trivial nofun hinv
        | error _ => exact hinv
    · exact hinv
  case h_9 => exact hinv

end Inversion

/-! ## One block -/

def processProducerEffects (ctx : BlockContext) (txs : List Transaction)
    (state : BlockProducers) : BlockProducers :=
  txs.foldl (fun state tx => processTransactionProducerEffects ctx tx state) state

theorem processProducerEffects_keeps (inv : BlockProducers → Prop)
    (ctx : BlockContext) (txs : List Transaction)
    (hqueue : ∀ state update, QueuedBy ctx update → BuiltBy ctx update → inv state →
      inv (state.queue update))
    (hcharge : ∀ state key info bonds,
      state.producers.getByPubkey ctx.utxo.prim key = some info → ChargedBy info bonds →
        inv state → inv (state.charge (ctx.utxo.prim.cryptoHash key) bonds))
    (hregister : ∀ (state : BlockProducers) keys, inv state →
      inv { state with newRegistrations := keys })
    {state : BlockProducers} (hinv : inv state) :
    inv (processProducerEffects ctx txs state) := by
  unfold processProducerEffects
  refine foldl_invariant (fun _ (state : BlockProducers) => inv state) hinv ?_
  intro _ tx _ current _ hcurrent
  exact processTransactionProducerEffects_keeps ctx tx hqueue hcharge hregister hcurrent

/-- `EpochSnapshot::is_epoch_boundary_with` -/
def isEpochBoundaryWith (height blocksPerEpoch : Nat) : Bool :=
  0 < height && decide (blocksPerEpoch ∣ height)

/-- Whether the deferred updates are applied at `height`. -/
def flushesAt (params : NetworkParams) (height : Nat) : Bool :=
  height < params.blocksPerRewardEpoch ||
    isEpochBoundaryWith height params.blocksPerRewardEpoch

/-- The deferred half of `track_finality_and_apply_deferred`. -/
def applyDeferred (ctx : BlockContext) (set : ProducerSet) : ProducerSet :=
  if flushesAt ctx.utxo.params ctx.height then
    if set.pendingUpdates.isEmpty then set
    else
      set.applyPendingUpdatesWithCap ctx.utxo.prim
        (delegationCap ctx.utxo.params ctx.height)
  else set

/-- What one block leaves in memory: its transactions, the unbonding scan, the
flush. -/
def applyBlockProducers (ctx : BlockContext) (txs : List Transaction)
    (set : ProducerSet) : ProducerSet :=
  let state := processProducerEffects ctx txs (.initial set)
  applyDeferred ctx
    (state.producers.processUnbonding ctx.utxo.prim ctx.height
      Producer.unbondingPeriod)

end Doli.Node
