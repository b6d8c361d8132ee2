import Doli.Core.Validation
import Doli.Lib.Checks
import Doli.Validation.Block

/-!
# The context of a validation

Errors, the parameters of the network and of the chain, and the context a block or a
transaction is judged in.  BLAKE3, Ed25519 and BLS come from the crypto crate and its
dependencies: they are the fields of `Crypto`.
-/

namespace Doli.Validation

open Doli.Core Doli.Lib

inductive ValidationError where
  | genesisHashMismatch (got expected : Hash)
  | forkIdMismatch (got expected : Hash)
  | invalidVersion (version : Nat)
  | invalidTimestamp (block expected : Nat)
  | timestampTooFuture (timestamp : Nat)
  | invalidSlot (got expected : Nat)
  | slotNotAdvancing (got prev : Nat)
  | slotTooFuture (got current maxFuture : Nat)
  | invalidMerkleRoot (header computed : Hash)
  | invalidBlockSignature (reason : String)
  | invalidVdfProof (reason : String)
  | invalidProducer (producer : PublicKey) (slot : Nat) (reason : String)
  | blockTooLarge (size max : Nat)
  | invalidTransaction (reason : String)
  | doubleSpend (txHash : Hash) (outputIndex : Nat)
  | amountOverflow (index : Nat)
  | bondTotalOverflow
  | amountExceedsSupply (amount max : Nat)
  | invalidRegistration (reason : String)
  | invalidBond (reason : String)
  | invalidSlash (reason : String)
  | missingPublicKey (index activationHeight : Nat)
  | pubkeyHashMismatch (expected got : Hash)
  | invalidSignature (index : Nat)
  | slashedRegistrant (producer : PublicKey)
  | invalidAddBond (reason : String)
  | invalidWithdrawalRequest (reason : String)
  | invalidClaimWithdrawal (reason : String)
  | invalidEpochReward (reason : String)
  | invalidMintAsset (reason : String)
  | invalidBurnAsset (reason : String)
  | invalidPool (reason : String)
  | invalidSwap (reason : String)
  | invalidLiquidity (reason : String)
  | ammMinimumLiquidity (declaredTotal creatorShare minimumLiquidity : Nat)
  | insufficientFunds (inputs outputs : Nat)
  | insufficientFee (actual minimum extraBytes : Nat)
  | ammNotActivated (txType activationHeight currentHeight : Nat)
  | placement (error : Core.ValidationError)
  | rotateBlsNotActivated (currentHeight activationHeight : Nat)
  | rotateBlsInputCount (got : Nat)
  | rotateBlsOutputShape (outputs : Nat) (firstType : Option OutputType)
  | rotateBlsBadPayload (length expected : Nat)
  | rotateBlsBadPoint (reason : String)
  | rotateBlsProducerMismatch (payload : PublicKey) (input : Option PublicKey)
  | rotateBlsBadSignature (producer : PublicKey)
  | rotateBlsBadPop (producer : PublicKey)
  deriving DecidableEq, Repr

/-- A verdict: nothing, or the first error. -/
abbrev Verdict := Except ValidationError Unit

/-! ## Parameters -/

inductive NetworkKind where
  | mainnet
  | testnet
  | devnet
  deriving DecidableEq, Repr

/-- A network with the parameters the validators load for it. -/
structure Network where
  kind : NetworkKind
  params : NetworkParams
  heartbeatVdfIterations : Nat
  vdfRegisterIterations : Nat
  genesisHash : Hash
  deriving DecidableEq, Repr

namespace Network

def vdfEnabled (network : Network) : Bool :=
  match network.kind with
  | .mainnet => true
  | .testnet => true
  | .devnet => true

end Network

def maxDrift : Nat := 1

def networkMargin : Nat := 1

def maxFutureSlots : Nat := 1

def totalSupply : Nat := 2522880000000000

def maxBondsPerProducer : Nat := 3000

def maxSlashTxsPerBlock : Nat := 8

/-- The constant of the consensus module; `ConsensusParams` has its own. -/
def blocksPerEra : Nat := 12614400

def maxBlockSize (height : Nat) : Nat :=
  if 4 ≤ height / blocksPerEra then 32000000 else 2000000 * 2 ^ (height / blocksPerEra)

def maxExtraDataSize (height : Nat) : Nat :=
  if 4 ≤ height / blocksPerEra then 8388608 else 524288 * 2 ^ (height / blocksPerEra)

structure ConsensusParams where
  genesisTime : Nat
  slotDuration : Nat
  blocksPerEra : Nat
  bootstrapBlocks : Nat
  initialBond : Nat
  genesisHash : Hash
  deriving DecidableEq, Repr

namespace ConsensusParams

variable (params : ConsensusParams)

def timestampToSlot (timestamp : Nat) : Nat :=
  if timestamp < params.genesisTime then 0
  else min ((timestamp - params.genesisTime) / params.slotDuration) (2 ^ 32 - 1)

def slotToTimestamp (slot : Nat) : Nat :=
  params.genesisTime + slot * params.slotDuration

def heightToEra (height : Nat) : Nat :=
  min (height / params.blocksPerEra) (2 ^ 32 - 1)

/-- The bond falls to seven tenths with each era. -/
def bondAmount (height : Nat) : Nat :=
  if 20 ≤ params.heightToEra height then 0
  else params.initialBond * 7 ^ params.heightToEra height / 10 ^ params.heightToEra height

def isBootstrap (height : Nat) : Bool :=
  height < params.bootstrapBlocks

end ConsensusParams

/-! ## The crypto crate -/

/-- `blsKey` and `blsSignature` are `try_from_slice`; `validKey` is the point check of a
public key. -/
structure Crypto where
  blake3 : Bytes → Hash
  verifyHash : Hash → Signature → PublicKey → Bool
  verifyStrict : Hash → Signature → PublicKey → Bool
  validKey : PublicKey → Bool
  blsKey : Bytes → Bool
  blsSignature : Bytes → Bool
  blsVerifyPop : Bytes → Bytes → Bool
  verifyRotationPop : Bytes → Hash → PublicKey → Bytes → Bool

/-- `hash_chain_vdf` -/
def hashChainVdf (blake3 : Bytes → Hash) (input : Hash) : Nat → Hash
  | 0 => input
  | iterations + 1 => hashChainVdf blake3 (blake3 input.asBytes) iterations

/-- `verify_hash_chain_vdf` -/
def verifyHashChainVdf (blake3 : Bytes → Hash) (input expected : Hash)
    (iterations : Nat) : Bool :=
  hashChainVdf blake3 input iterations = expected

/-! ## The context -/

structure RegistrationChainState where
  lastRegistrationHash : Hash
  registrationSequence : Nat
  deriving DecidableEq, Repr

namespace RegistrationChainState

def expectedPrevHash (chain : RegistrationChainState) : Hash :=
  chain.lastRegistrationHash

def expectedSequence (chain : RegistrationChainState) : Nat :=
  if chain.lastRegistrationHash = ⟨0⟩ then 0 else chain.registrationSequence + 1

end RegistrationChainState

/-- A key without a state is not a registered producer. -/
structure SlashTargetState where
  active : Bool
  slashed : Bool
  slashQueued : Bool
  lockedCollateral : Bool
  registeredAt : Nat
  oldestBondSlot : Option Nat
  deriving DecidableEq, Repr

inductive ValidationMode where
  | full
  | light
  | replay
  deriving DecidableEq, Repr

structure ValidationContext where
  crypto : Crypto
  params : ConsensusParams
  network : Network
  currentTime : Nat
  currentHeight : Nat
  prevSlot : Nat
  prevTimestamp : Nat
  activeProducers : List PublicKey
  activeProducersWeighted : List (PublicKey × Nat)
  bootstrapProducers : List PublicKey
  liveBootstrapProducers : List PublicKey
  staleBootstrapProducers : List PublicKey
  registrationChain : RegistrationChainState
  pendingProducerKeys : List PublicKey
  epochProducerList : List PublicKey
  expectedForkId : Hash
  forkIdActivationHeight : Nat
  ammActivationHeight : Nat
  oracleActivationHeight : Nat
  blsKeyRotationActivationHeight : Nat
  incI234ActivationHeight : Nat
  incI236BlockSignatureActivationHeight : Nat
  incI255SlashingActivationHeight : Nat
  incI257UnbondingActivationHeight : Nat
  unbondingPeriod : Nat
  incI257RulesAtNextHeight : Bool
  incI182ProducerAuthActivationHeight : Nat
  slashTargets : PublicKey → Option SlashTargetState

namespace ValidationContext

variable (ctx : ValidationContext)

/-- `inc_i_257_rule_height` -/
def ruleHeight : Nat :=
  min (ctx.currentHeight + ctx.incI257RulesAtNextHeight.toNat) (2 ^ 64 - 1)

def signatureRuleActive : Bool :=
  ctx.incI236BlockSignatureActivationHeight ≤ ctx.currentHeight

def slashRuleActive : Bool :=
  ctx.signatureRuleActive && ctx.incI255SlashingActivationHeight ≤ ctx.currentHeight

end ValidationContext

/-- What the rules of this model leave open: the checks on the outputs with a spending
condition or typed metadata, which see the outputs before them, and the checks of the
payloads with no part in registration, bonding or slashing. -/
structure OpenRules where
  typedOutput : ValidationContext → List Output → Nat → Output → Verdict
  typedPayload : ValidationContext → Transaction → Verdict

/-! ## An executable instance -/

def sampleCrypto : Crypto where
  blake3 := sampleBlake3
  verifyHash _ signature _ := signature.word ≠ 0
  verifyStrict _ signature _ := signature.word ≠ 0
  validKey _ := true
  blsKey bytes := bytes.length = 48
  blsSignature bytes := bytes.length = 96
  blsVerifyPop key pop := pop = key ++ key
  verifyRotationPop key _ _ pop := pop = key ++ key

/-- A genesis phase of 360 blocks; nobody is registered and every gate is open but the
fork id's. -/
def sampleContext (height : Nat) : ValidationContext where
  crypto := sampleCrypto
  params :=
    { genesisTime := 1000
      slotDuration := 10
      blocksPerEra := 12614400
      bootstrapBlocks := 60480
      initialBond := 1000000000
      genesisHash := ⟨7⟩ }
  network :=
    { kind := .mainnet
      params := { sampleParams with genesisBlocks := 360 }
      heartbeatVdfIterations := 2
      vdfRegisterIterations := 2
      genesisHash := ⟨9⟩ }
  currentTime := 1100
  currentHeight := height
  prevSlot := 4
  prevTimestamp := 1040
  activeProducers := []
  activeProducersWeighted := []
  bootstrapProducers := []
  liveBootstrapProducers := []
  staleBootstrapProducers := []
  registrationChain := ⟨⟨0⟩, 0⟩
  pendingProducerKeys := []
  epochProducerList := []
  expectedForkId := ⟨11⟩
  forkIdActivationHeight := 2 ^ 64 - 1
  ammActivationHeight := 0
  oracleActivationHeight := 0
  blsKeyRotationActivationHeight := 0
  incI234ActivationHeight := 0
  incI236BlockSignatureActivationHeight := 0
  incI255SlashingActivationHeight := 0
  incI257UnbondingActivationHeight := 0
  unbondingPeriod := 60480
  incI257RulesAtNextHeight := false
  incI182ProducerAuthActivationHeight := 0
  slashTargets _ := none

/-- No transaction of the other types, and no output with a condition. -/
def sampleOpenRules : OpenRules where
  typedOutput _ _ index _ :=
    .error (.invalidTransaction s!"[ERRTX009] conditioned output {index}")
  typedPayload _ _ := .error (.invalidTransaction "type not activated")

end Doli.Validation
