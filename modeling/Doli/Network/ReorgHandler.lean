import Doli.Lib.Ancestry
import Doli.Lib.Column
import Doli.Network.Support

/-!
# The reorg handler

The bounded cache of recorded blocks, the finality view of a caller, and the
rules that both reorg doors share: the weight verdict and finality.
-/

namespace Doli.Network

open Doli.Core Doli.Lib

def maxReorgDepth : Nat := 1000

structure BlockWeight where
  prevHash : Hash
  producerWeight : Nat
  accumulatedWeight : Nat
  height : Nat
  deriving DecidableEq, Repr

structure ReorgResult where
  rollback : List Hash
  commonAncestor : Hash
  newBlocks : List Hash
  weightDelta : Int
  deriving DecidableEq, Repr

structure ReorgHandler where
  recentBlocks : Finset Hash
  blockParents : Column Hash Hash
  blockWeights : Column Hash BlockWeight
  blockSlots : Column Hash Nat
  maxTracked : Nat
  lruOrder : List Hash
  currentChainWeight : Nat
  lastFinalityHeight : Option Nat
  incI147ActivationHeight : Nat
  incI204ForkChoiceActivationHeight : Nat
  incI288ForkChoiceActivationHeight : Nat

/-- The finality view of a caller. -/
structure ForkChoiceFinality where
  finalizedHeight : Option Nat
  finalizedHash : Option Hash
  localTipHeight : Nat
  finalizedOnCanonical : Bool
  deriving DecidableEq, Repr

/-- `min(checkpoint, local tip)` -/
def ForkChoiceFinality.effectiveFinality (finality : ForkChoiceFinality) :
    Option Nat :=
  finality.finalizedHeight.map fun height => min height finality.localTipHeight

inductive WeightVerdict where
  | heavier
  | tieSwitch
  | tieKeep
  | lighter
  deriving DecidableEq, Repr

/-- Order of the hash bytes. -/
def hashBelow (left right : Hash) : Bool := left.word.toNat < right.word.toNat

/-- The shared weight and tie comparison. -/
def resolveWeight (ours cand : Nat) (ourTip candTip : Hash) (allowTieSwitch : Bool) :
    WeightVerdict :=
  if ours < cand then .heavier
  else if cand < ours then .lighter
  else if allowTieSwitch && hashBelow candTip ourTip then .tieSwitch
  else .tieKeep

namespace ReorgHandler

/-- The handler of `new`, with the three gates as the node sets them. -/
def new (incI147 incI204 incI288 : Nat) : ReorgHandler where
  recentBlocks := {zeroHash}
  blockParents := ∅
  blockWeights := ∅
  blockSlots := ∅
  maxTracked := 10000
  lruOrder := [zeroHash]
  currentChainWeight := 0
  lastFinalityHeight := none
  incI147ActivationHeight := incI147
  incI204ForkChoiceActivationHeight := incI204
  incI288ForkChoiceActivationHeight := incI288

variable (handler : ReorgHandler)

def weighsFromAncestor (localTipHeight : Nat) : Bool :=
  handler.incI288ForkChoiceActivationHeight ≤ localTipHeight

def forkChoiceActive (chainHeight : Nat) : Bool :=
  handler.incI204ForkChoiceActivationHeight ≤ chainHeight

/-! ## Recording -/

def forget (hash : Hash) : ReorgHandler :=
  { handler with
    recentBlocks := handler.recentBlocks.erase hash
    blockParents := handler.blockParents.erase hash
    blockWeights := handler.blockWeights.erase hash
    blockSlots := handler.blockSlots.erase hash }

/-- The oldest entries go until the cache fits. -/
def evict : ReorgHandler :=
  let excess := handler.lruOrder.length - handler.maxTracked
  { (handler.lruOrder.take excess).foldl forget handler with
    lruOrder := handler.lruOrder.drop excess }

def recordBlockInternal (hash prevHash : Hash) (producerWeight : Nat)
    (updateCurrentWeight : Bool) (realHeight : Option Nat) (dedup : Bool) :
    ReorgHandler :=
  let parent := handler.blockWeights.lookup prevHash
  let accumulated :=
    min (parent.elim 0 BlockWeight.accumulatedWeight + producerWeight) (2 ^ 64 - 1)
  let height := realHeight.getD (parent.elim 0 BlockWeight.height + 1)
  let fresh := decide (hash ∉ handler.recentBlocks)
  evict
    { handler with
      blockWeights := handler.blockWeights.insert hash
        ⟨prevHash, producerWeight, accumulated, height⟩
      currentChainWeight :=
        if updateCurrentWeight then accumulated else handler.currentChainWeight
      recentBlocks := insert hash handler.recentBlocks
      blockParents := handler.blockParents.insert hash prevHash
      lruOrder :=
        if fresh || !dedup then handler.lruOrder ++ [hash] else handler.lruOrder }

/-- A block of our chain at its chain height. -/
def recordBlockWithHeight (hash prevHash : Hash) (producerWeight realHeight : Nat) :
    ReorgHandler :=
  handler.recordBlockInternal hash prevHash producerWeight true
    (if handler.incI147ActivationHeight ≤ realHeight then some realHeight else none)
    (handler.incI288ForkChoiceActivationHeight ≤ realHeight)

/-- A block of another branch at its chain height. -/
def recordForkBlockWithHeight (hash prevHash : Hash)
    (producerWeight realHeight : Nat) : ReorgHandler :=
  handler.recordBlockInternal hash prevHash producerWeight false
    (if handler.forkChoiceActive realHeight then some realHeight else none)
    (handler.incI288ForkChoiceActivationHeight ≤ realHeight)

def chainWeight (hash : Hash) : Nat :=
  (handler.blockWeights.lookup hash).elim 0 BlockWeight.accumulatedWeight

/-- The weight of a block at `slot` on `prev`: nothing unless the slot is above
a known slot of the parent. -/
def slotWeight (slot : Nat) (prev : Hash) (parentSlot : Option Nat)
    (weight : Nat) : Nat :=
  match (handler.blockSlots.lookup prev).or parentSlot with
  | some known => if slotAdvances slot known then weight else 0
  | none => 0

/-! ## The rules of both doors -/

/-- The recorded parent, else the answer of the caller. -/
def parentOf (getParent : Hash → Option Hash) (hash : Hash) : Option Hash :=
  (handler.blockParents.lookup hash).or (getParent hash)

/-- Walk `start` and its ancestors looking for `target`. -/
def branchReaches (getParent : Hash → Option Hash) (target : Hash) :
    Nat → Hash → Bool
  | 0, _ => false
  | fuel + 1, hash =>
      if hash = target then true
      else
        match handler.parentOf getParent hash with
        | some parent => branchReaches getParent target fuel parent
        | none => false

/-- The finality rule at and above the fork-choice gate. -/
def forkChoiceAdmits (ancestorRealHeight : Nat) (finality : ForkChoiceFinality)
    (branchContainsFinalized : Bool) : Bool :=
  match finality.effectiveFinality with
  | none => true
  | some effective =>
      if ancestorRealHeight < effective then false
      else if finality.finalizedHash.isNone then true
      else if finality.finalizedOnCanonical &&
          handler.weighsFromAncestor finality.localTipHeight &&
          finality.finalizedHeight.any fun height => height ≤ ancestorRealHeight then
        true
      else branchContainsFinalized

end ReorgHandler

end Doli.Network
