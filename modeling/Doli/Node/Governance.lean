import Doli.Node.NodeState

/-!
# Governance of a block

The maintainer rotations and the protocol activation that a transaction can
carry, and the seeding of the maintainer root.  A rotation takes effect at
once; a verified activation is handed back to the block.
-/

namespace Doli.Node

open Doli.Core Doli.Lib Doli.Producer

section Rotations

variable (config : NodeConfig) (tx : Transaction) (height : Nat)
  (state : MaintainerState)

/-- The message of a rotation at `height`. -/
def rotationMessage (isAdd : Bool) (data : MaintainerChangeData) : Bytes :=
  signingMessageAt config.utxo.prim config.genesisHash isAdd data.target
    maintainerAuthValidBeforeUnset height config.incI176AuthBindingActivationHeight

def installRotation (rotated : Except MaintainerError MaintainerSet) :
    MaintainerState :=
  match rotated with
  | .error _ => state
  | .ok set => ⟨set, height⟩

def addMaintainerEffect : MaintainerState :=
  match config.codec.decodeChange tx.extraData with
  | none => state
  | some data =>
      if state.set.verifyMultisigAt config.codec data.signatures
          (rotationMessage config height true data) height
          config.maintainerDerivationActivationHeight then
        installRotation height state (state.set.addMaintainer data.target height)
      else state

/-- The target's own signature does not count. -/
def removeMaintainerEffect : MaintainerState :=
  match config.codec.decodeChange tx.extraData with
  | none => state
  | some data =>
      if state.set.verifyMultisigExcludingAt config.codec data.signatures
          (rotationMessage config height false data) data.target height
          config.maintainerDerivationActivationHeight then
        installRotation height state (state.set.removeMaintainer data.target height)
      else state

end Rotations

def registrationLe (left right : ProducerInfo) : Prop :=
  left.registeredAt ≤ right.registeredAt

instance : DecidableRel registrationLe := fun left right =>
  inferInstanceAs (Decidable (left.registeredAt ≤ right.registeredAt))

/-- The keys of the earliest registrations. -/
def earliestKeys (config : NodeConfig) (set : ProducerSet) : List PublicKey :=
  (((config.allProducers set).insertionSort registrationLe).take
    initialMaintainerCount).map ProducerInfo.publicKey

def deriveAdHocMaintainerSet (config : NodeConfig) (set : ProducerSet) (height : Nat) :
    MaintainerSet :=
  .withMembers (earliestKeys config set) height

/-- The set that may activate a protocol version; above the gate only a usable
root on the chain. -/
def activationAuthority (config : NodeConfig) (height : Nat) (set : ProducerSet)
    (root : Option MaintainerSet) : Option MaintainerSet :=
  if config.maintainerDerivationActivationHeight ≤ height then
    let onChain := root.getD .new
    if onChain.isAuthorizable then some onChain else none
  else
    match root.filter MaintainerSet.isFullyBootstrapped with
    | some onChain => some onChain
    | none => some (deriveAdHocMaintainerSet config set height)

def verifiedActivation (config : NodeConfig) (tx : Transaction) (height : Nat)
    (set : ProducerSet) (root : Option MaintainerSet) : Option (Nat × Nat) :=
  match config.codec.decodeActivation tx.extraData with
  | none => none
  | some data =>
      match activationAuthority config height set root with
      | none => none
      | some authority =>
          if authority.verifyMultisigAt config.codec data.signatures
              data.signingMessage height
              config.maintainerDerivationActivationHeight then
            some (data.protocolVersion, data.activationEpoch)
          else none

/-- `process_transaction_governance` -/
def processTransactionGovernance (config : NodeConfig) (tx : Transaction)
    (height : Nat) (set : ProducerSet) (maintainer : Option MaintainerState) :
    Option MaintainerState × Option (Nat × Nat) :=
  match tx.txType with
  | .addMaintainer => (maintainer.map (addMaintainerEffect config tx height), none)
  | .removeMaintainer =>
      (maintainer.map (removeMaintainerEffect config tx height), none)
  | .protocolActivation =>
      (maintainer,
        verifiedActivation config tx height set (maintainer.map MaintainerState.set))
  | _ => (maintainer, none)

/-- Whether a transaction can move the maintainer root. -/
def rotatesMaintainers (tx : Transaction) : Bool :=
  tx.txType = .addMaintainer || tx.txType = .removeMaintainer

theorem processTransactionGovernance_maintainer {config : NodeConfig}
    {tx : Transaction} {height : Nat} {set : ProducerSet}
    {maintainer : Option MaintainerState} (hother : rotatesMaintainers tx = false) :
    (processTransactionGovernance config tx height set maintainer).1 = maintainer := by
  unfold processTransactionGovernance
  unfold rotatesMaintainers at hother
  split
  case h_1 htype => simp [htype] at hother
  case h_2 htype => simp [htype] at hother
  case h_3 => rfl
  case h_4 => rfl

/-! ## Seeding the root -/

def maintainerSeedIsDone (state : MaintainerState) (oneShot : Bool) : Bool :=
  if oneShot then !state.set.members.isEmpty || state.lastDerivedHeight ≠ 0
  else state.set.isFullyBootstrapped

section Seeding

variable (config : NodeConfig) (height : Nat)

/-- Whether a snap-synced node holds its root empty instead of seeding it. -/
def holdsSnapRoot (chainState : ChainState) : Bool :=
  config.maintainerDerivationActivationHeight ≤ height &&
    chainState.snapSyncHeight.isSome

def holdSnapRootEmpty (chainState : ChainState) (state : MaintainerState) :
    MaintainerState :=
  if holdsSnapRoot config height chainState && !maintainerSeedIsDone state true then
    { state with lastDerivedHeight := chainState.snapSyncHeight.getD 0 }
  else state

/-- The canonical seats: earliest registration first, one seat a key. -/
def seatedKeys (set : ProducerSet) : List PublicKey :=
  (newKeys ∅ ((((config.allProducers set).map fun info =>
    (info.publicKey, info.registeredAt)).insertionSort seniorLe).map
      Prod.fst)).take initialMaintainerCount

def sanitizeRetired (state : MaintainerState) : MaintainerState :=
  if config.retiredGenesisMaintainerKeysHeight < height ∧
      config.retiredGenesisMaintainerKeys.any state.set.isMaintainer then
    ⟨.new, height⟩
  else state

/-- `maybe_bootstrap_maintainer_set` -/
def maybeBootstrapMaintainerSet (chainState : ChainState) (set : ProducerSet)
    (state : MaintainerState) : MaintainerState :=
  let oneShot := decide (config.maintainerDerivationActivationHeight ≤ height)
  if maintainerSeedIsDone state oneShot then state
  else if holdsSnapRoot config height chainState then
    holdSnapRootEmpty config height chainState state
  else if (config.allProducers set).length < config.maintainerSeedMinProducers then
    state
  else
    let keys := if oneShot then seatedKeys config set else earliestKeys config set
    sanitizeRetired config height ⟨.withMembers keys height, height⟩

end Seeding

end Doli.Node
