import Doli.Core.Attestation
import Doli.Core.ChainState
import Doli.Core.EpochState
import Doli.Core.Maintainer
import Doli.Node.ProducerEffects
import Doli.Producer.Persisted
import Doli.Storage.BlockStore

/-!
# The node

What `apply_block` and `rollback_one_block` read and write of the node, and
the configuration they run under.
-/

namespace Doli.Node

open Doli.Core Doli.Lib Doli.Storage Doli.Producer

/-- `ACTIVATION_DELAY`, in blocks. -/
def activationDelay : Nat := 10

/-- The undo record of a block; without a producer snapshot the block is taken
to have left the set alone. -/
structure UndoRecord where
  utxo : UndoData
  producerSnapshot : Option ProducerParts
  epochStateSnapshot : EpochState

structure NodeState where
  chainState : ChainState
  producerSet : ProducerSet
  maintainerState : Option MaintainerState
  epochState : EpochState
  producerLiveness : Column PublicKey Nat
  stateDb : StateDb
  producerRows : ProducerParts
  undoRecords : Column Nat UndoRecord
  blockStore : BlockStore
  snapSyncHeight : Option Nat
  recoveryMode : Bool
  cumulativeRollbackDepth : Nat

def NodeState.markLive (node : NodeState) (producer : PublicKey) (height : Nat) :
    NodeState :=
  { node with producerLiveness := node.producerLiveness.insert producer height }

/-- Network parameters, code of other crates, and the checks that only read
the node.  `values` is the iteration order of the producer map. -/
structure NodeConfig where
  utxo : UtxoContext
  codec : GovernanceCodec
  bls : BlsCodec
  genesisHash : Hash
  slotDuration : Nat
  genesisTimeOverride : Option Nat
  maintainerDerivationActivationHeight : Nat
  incI176AuthBindingActivationHeight : Nat
  maintainerSeedMinProducers : Nat
  retiredGenesisMaintainerKeys : List PublicKey
  retiredGenesisMaintainerKeysHeight : Nat
  incI178AttestationBlsActivationHeight : Nat
  fullBitfieldDecodeHeight : Nat
  securityAuditActivationHeight : Nat
  incI068WeightFilterActivationHeight : Nat
  snapAttestationSkipHeight : Nat
  ghostExclusionActivationHeight : Nat
  epochPruneActivationHeight : Nat
  incI190FloorBoundActivationHeight : Nat
  incI193AttestorRefillActivationHeight : Nat
  values : Column Hash ProducerInfo → List ProducerInfo
  validateBlockForApply : NodeState → Block → Nat → ValidationMode → Except String Unit
  validateBlockEconomics : NodeState → Block → Nat → ValidationMode → Except String Unit
  deriveGenesisProducers : NodeState → List PublicKey
  genesisBlsPubkeys : NodeState → Column PublicKey Bytes
  oraclePrices : NodeState → Nat → List PairPrice

namespace NodeConfig

variable (config : NodeConfig)

def blocksPerEpoch : Nat := config.utxo.params.blocksPerRewardEpoch

def allProducers (set : ProducerSet) : List ProducerInfo := config.values set.producers

end NodeConfig

def isActiveAt (height : Nat) (info : ProducerInfo) : Bool :=
  info.isActive && (info.registeredAt = 0 ||
    decide (satAddAmount info.registeredAt activationDelay ≤ height))

/-- `active_producers_at_height` -/
def NodeConfig.activeProducersAtHeight (config : NodeConfig) (set : ProducerSet)
    (height : Nat) : List ProducerInfo :=
  (config.allProducers set).filter (isActiveAt height)

def NodeConfig.activeKeys (config : NodeConfig) (set : ProducerSet) (height : Nat) :
    List PublicKey :=
  (config.activeProducersAtHeight set height).map ProducerInfo.publicKey

/-- The iteration visits exactly the producers of the map. -/
def NodeConfig.Iterates (config : NodeConfig) : Prop :=
  ∀ (producers : Column Hash ProducerInfo) (info : ProducerInfo),
    info ∈ config.values producers ↔ ∃ key, producers.lookup key = some info

/-! ## An executable instance -/

/-- The producers in the order of their hashes. -/
def producersByHash (producers : Column Hash ProducerInfo) : List ProducerInfo :=
  (listing Hash.bytesLe producers.keys).filterMap producers.lookup

/-- Every gate is open, every check passes, no seat is ever filled. -/
def sampleConfig : NodeConfig where
  utxo := sampleUtxoContext
  codec :=
    { verify := fun _ signature _ => signature.word ≠ 0
      decodeChange := fun _ => none
      decodeActivation := fun _ => none }
  bls :=
    { accepts := fun raw => raw ≠ []
      aggregate := fun parts => some parts.flatten }
  genesisHash := ⟨7⟩
  slotDuration := 10
  genesisTimeOverride := none
  maintainerDerivationActivationHeight := 0
  incI176AuthBindingActivationHeight := 0
  maintainerSeedMinProducers := 5
  retiredGenesisMaintainerKeys := []
  retiredGenesisMaintainerKeysHeight := 0
  incI178AttestationBlsActivationHeight := 0
  fullBitfieldDecodeHeight := 0
  securityAuditActivationHeight := 0
  incI068WeightFilterActivationHeight := 0
  snapAttestationSkipHeight := 0
  ghostExclusionActivationHeight := 0
  epochPruneActivationHeight := 0
  incI190FloorBoundActivationHeight := 0
  incI193AttestorRefillActivationHeight := 0
  values := producersByHash
  validateBlockForApply _ _ _ _ := .ok ()
  validateBlockEconomics _ _ _ _ := .ok ()
  deriveGenesisProducers _ := []
  genesisBlsPubkeys _ := ∅
  oraclePrices _ _ := []

theorem sampleConfig_iterates : sampleConfig.Iterates := by
  intro producers info
  change info ∈ producersByHash producers ↔ _
  rw [producersByHash, List.mem_filterMap]
  constructor
  · rintro ⟨key, -, hlookup⟩
    exact ⟨key, hlookup⟩
  · rintro ⟨key, hlookup⟩
    refine ⟨key, ?_, hlookup⟩
    rw [mem_listing, Finmap.mem_keys, ← Finmap.lookup_isSome, hlookup, Option.isSome_some]

def sampleBlock (height : Nat) (txs : List Transaction) : Block where
  hash := ⟨.ofNat 256 height⟩
  prevHash := ⟨.ofNat 256 (height - 1)⟩
  producer := ⟨1⟩
  slot := height
  timestamp := 10 * height
  presenceRoot := ⟨0⟩
  attestationBitfield := []
  transactions := txs

/-- A node whose tip is the empty block of `height`. -/
def sampleNode (height : Nat) : NodeState where
  chainState :=
    { ChainState.new ⟨7⟩ with
      bestHash := (sampleBlock height []).hash
      bestHeight := height
      bestSlot := height
      totalWork := height
      genesisTimestamp := 100 }
  producerSet := .new
  maintainerState := none
  epochState :=
    { epoch := height / 10, bondSnapshot := ∅, producerList := [], activeList := []
      attestedSets := ⟨∅, ∅, ∅⟩, attestationAccum := ⟨∅, ∅, ∅⟩, blocksProduced := ∅ }
  producerLiveness := ∅
  stateDb := .empty
  producerRows := ⟨∅, ∅, []⟩
  undoRecords := ∅
  blockStore :=
    { blocks := Finmap.singleton (sampleBlock height []).hash (sampleBlock height [])
      heightIndex := Finmap.singleton height (sampleBlock height []).hash
      hashToHeight := Finmap.singleton (sampleBlock height []).hash height
      snapHorizon := none }
  snapSyncHeight := none
  recoveryMode := false
  cumulativeRollbackDepth := 0

end Doli.Node
