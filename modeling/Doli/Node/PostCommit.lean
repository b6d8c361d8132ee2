import Doli.Node.NodeState

/-!
# Actions around the batch commit

The attestation credit of a block and the derivation of the next epoch.  The
bitfield is decoded against the producer set that the block leaves behind and
the epoch list that it found.
-/

namespace Doli.Node

open Doli.Core Doli.Lib Doli.Storage Doli.Producer

variable (config : NodeConfig)

/-! ## Attestation credit -/

/-- A zero root and an empty epoch list both mean no attestation data. -/
def hasAttestationData (block : Block) (epochState : EpochState) : Bool :=
  block.presenceRoot ≠ ⟨0⟩ && !epochState.producerList.isEmpty

/-- The width of the decode and the keys behind the epoch list. -/
def decodeUniverse (height : Nat) (epochState : EpochState) (active : List PublicKey)
    (hasData : Bool) : Nat × List PublicKey :=
  let base := epochState.producerList
  if config.fullBitfieldDecodeHeight ≤ height ∧ hasData then
    let keys := postCommitUniverseAt config.incI178AttestationBlsActivationHeight
      height base active
    (keys.length, keys.drop base.length)
  else (base.length, [])

/-- The positions whose bits are set in the decoded width. -/
def attestedIndices (height : Nat) (epochState : EpochState)
    (active : List PublicKey) (block : Block) : List Nat :=
  let hasData := hasAttestationData block epochState
  if hasData ∧ block.attestationBitfield ≠ [] then
    decodeAttestationBitfieldVec block.attestationBitfield
      (decodeUniverse config height epochState active hasData).1
  else []

/-- Positions from `baseLen` on are credited outside the epoch list. -/
def creditExtra (baseLen minute : Nat) (extra : List PublicKey) (state : EpochState)
    (index : Nat) : EpochState :=
  if baseLen ≤ index then
    match extra[index - baseLen]? with
    | none => state
    | some key => state.attest key minute
  else state

/-- The tracking of one block. -/
def creditAttestations (height : Nat) (active : List PublicKey) (block : Block)
    (epochState : EpochState) : EpochState :=
  let hasData := hasAttestationData block epochState
  let baseLen := epochState.producerList.length
  let indices := attestedIndices config height epochState active block
  let baseIndices := indices.filter (· < baseLen)
  let tracked := epochState.accumulateBlock
    { producer := block.producer
      slot := block.slot
      hasAttestationData := hasData && !baseIndices.isEmpty
      attestedIndices := baseIndices }
  if config.fullBitfieldDecodeHeight ≤ height ∧ hasData then
    indices.foldl (creditExtra baseLen (attestationMinute block.slot)
      (decodeUniverse config height epochState active hasData).2) tracked
  else tracked

/-- The keys that the decoded positions name, in and behind the epoch list. -/
def creditedKeys (height : Nat) (active : List PublicKey) (block : Block)
    (epochState : EpochState) : List PublicKey :=
  let base := epochState.producerList
  let extra := (decodeUniverse config height epochState active
    (hasAttestationData block epochState)).2
  (attestedIndices config height epochState active block).filterMap fun index =>
    if index < base.length then base[index]? else extra[index - base.length]?

/-- The key behind the epoch list that a position names. -/
def extraName (baseLen : Nat) (extra : List PublicKey) (index : Nat) :
    Option PublicKey :=
  if baseLen ≤ index then extra[index - baseLen]? else none

section Credited

variable {config : NodeConfig} {height : Nat} {active : List PublicKey} {block : Block}
  {epochState : EpochState} {key : PublicKey}

end Credited

/-! ## The epoch boundary -/

/-- The bond weights frozen for the epoch. -/
def bondCountsAt (height : Nat) (set : ProducerSet) : Column Hash Nat :=
  (config.activeProducersAtHeight set height).foldl (fun counts info =>
    let count := info.selectionWeightAt height config.securityAuditActivationHeight
    let key := config.utxo.prim.addressOf info.publicKey
    if config.incI068WeightFilterActivationHeight ≤ height then
      if count = 0 then counts else counts.insert key count
    else counts.insert key (max count 1)) ∅

/-- `active_producers_for_scheduling_at_height` -/
def schedulableProducers (height : Nat) (set : ProducerSet) : List ProducerInfo :=
  let active := config.activeProducersAtHeight set height
  if config.incI068WeightFilterActivationHeight ≤ height then
    active.filter fun info =>
      0 < info.selectionWeightAt height config.securityAuditActivationHeight
  else active

/-- A snapshot of the same or of a later epoch is kept. -/
def derivationInput (height : Nat) (set : ProducerSet) (epochState : EpochState) :
    EpochDerivationInput :=
  let epoch := height / config.blocksPerEpoch
  let eligible := schedulableProducers config height set
  { activeProducers := eligible.map ProducerInfo.publicKey
    bondCounts :=
      if epoch ≤ epochState.epoch then epochState.bondSnapshot
      else bondCountsAt config height set
    blocksPerEpoch := config.blocksPerEpoch
    snapAttestationSkipHeight := config.snapAttestationSkipHeight
    height := height
    epoch := epoch
    registeredAt := eligible.foldl (fun rows info =>
      rows.insert info.publicKey info.registeredAt) ∅
    ghostExclusionActivationHeight := config.ghostExclusionActivationHeight
    epochPruneActivationHeight := config.epochPruneActivationHeight
    incI190FloorBoundActivationHeight := config.incI190FloorBoundActivationHeight
    incI193AttestorRefillActivationHeight :=
      config.incI193AttestorRefillActivationHeight }

/-- The epoch state after a block, with the set the block leaves. -/
def postCommitEpochState (height : Nat) (set : ProducerSet) (block : Block)
    (epochState : EpochState) : EpochState :=
  let credited := creditAttestations config height (config.activeKeys set height) block
    epochState
  if isEpochBoundaryWith height config.blocksPerEpoch then
    credited.deriveAtBoundary (derivationInput config height set credited)
  else credited

end Doli.Node
