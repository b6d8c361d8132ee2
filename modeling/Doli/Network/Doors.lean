import Doli.Network.ReorgHandler

/-!
# The two reorg doors

`plan_reorg_inner`, which plans a reorg between any two tips, and
`check_reorg_supported`, which judges one gossiped block.
-/

namespace Doli.Network

open Doli.Core Doli.Lib

/-- `new as i64 - current as i64`, with the wrapping of both. -/
def weightDelta (new current : Nat) : Int :=
  (BitVec.ofNat 64 new - BitVec.ofNat 64 current).toInt

namespace ReorgHandler

variable (handler : ReorgHandler)

section Plan

variable (getParent : Hash → Option Hash) (getHeight : Hash → Option Nat)
  (getSupport : Hash → Option BlockSupport) (finality : ForkChoiceFinality)
  (finalityOverride : Bool)

/-- The ancestor height below the fork-choice gate; `none` when it cannot be
resolved. -/
def legacyAncestorHeight (commonAncestor : Hash) : Option Nat :=
  let realHeight := getHeight commonAncestor
  if realHeight.any fun height => handler.incI147ActivationHeight ≤ height then
    realHeight
  else
    match handler.blockWeights.lookup commonAncestor with
    | some weight => some weight.height
    | none => realHeight

/-- Whether finality lets the plan pass the common ancestor. -/
def planPassesFinality (commonAncestor : Hash) (newChain : List Hash) : Bool :=
  match (getHeight commonAncestor).filter handler.forkChoiceActive with
  | some height =>
      handler.forkChoiceAdmits height finality
          (finality.finalizedHash.any fun finalized =>
            decide (finalized ∈ newChain) ||
              handler.branchReaches getParent finalized maxReorgDepth
                commonAncestor) ||
        finalityOverride
  | none =>
      match handler.lastFinalityHeight with
      | none => true
      | some finalityHeight =>
          match handler.legacyAncestorHeight getHeight commonAncestor with
          | none => false
          | some height => !decide (height < finalityHeight) || finalityOverride

/-- The weights of both sides, ours first; `none` when there is no plan. -/
def planWeights (currentTip newTip : Hash) (rollback newBlocks : List Hash) :
    Option (Nat × Nat) :=
  if handler.weighsFromAncestor finality.localTipHeight then
    if newBlocks.isEmpty then none
    else
      (unionWeight rollback getSupport).map fun current =>
        (current, candidateUnion newBlocks getSupport)
  else some (handler.chainWeight currentTip, handler.chainWeight newTip)

def planReorgInner (currentTip newTip : Hash) : Option ReorgResult :=
  let parent := handler.parentOf getParent
  let currentWalk := walk parent zeroHash maxReorgDepth currentTip
  match meet parent zeroHash (seenBy zeroHash currentWalk) maxReorgDepth newTip with
  | (_, none) => none
  | (newChain, some commonAncestor) =>
      if handler.planPassesFinality getParent getHeight finality finalityOverride
          commonAncestor newChain then
        let rollback := currentWalk.1.takeWhile (· ≠ commonAncestor)
        let newBlocks := newChain.reverse
        (handler.planWeights getSupport finality currentTip newTip rollback
          newBlocks).map fun weights =>
            ⟨rollback, commonAncestor, newBlocks, weightDelta weights.2 weights.1⟩
      else none

end Plan

def planReorgWithSupport (currentTip newTip : Hash)
    (getParent : Hash → Option Hash) (getHeight : Hash → Option Nat)
    (getSupport : Hash → Option BlockSupport) (finality : ForkChoiceFinality) :
    Option ReorgResult :=
  handler.planReorgInner getParent getHeight getSupport finality false currentTip
    newTip

end ReorgHandler

/-! ## The gossip door -/

/-- What the gossip door reads of a block: its hash and four header fields. -/
structure ForkBlock where
  hash : Hash
  prevHash : Hash
  slot : Nat
  producer : PublicKey
  deriving DecidableEq, Repr

namespace ReorgHandler

variable (handler : ReorgHandler)

/-- True when the verdict keeps our tip. -/
def gossipRefuses (ours cand : Nat) (currentTip blockHash : Hash) : Bool :=
  match resolveWeight ours cand currentTip blockHash true with
  | .lighter => true
  | .tieKeep => true
  | .tieSwitch => false
  | .heavier => false

/-- The recorded blocks from our tip down to `prevHash`, if the walk meets it. -/
def gossipRollback (prevHash : Hash) : Nat → Hash → Option (List Hash)
  | 0, _ => none
  | fuel + 1, current =>
      if current = prevHash then some []
      else
        match handler.blockParents.lookup current with
        | none => none
        | some parent => (gossipRollback prevHash fuel parent).map (current :: ·)

section Gossip

variable (block : ForkBlock) (blockProducerWeight : Nat)
  (getHeight : Hash → Option Nat) (getSupport : Hash → Option BlockSupport)
  (finality : ForkChoiceFinality)

def gossipPassesFinality : Bool :=
  match (getHeight block.prevHash).filter handler.forkChoiceActive with
  | some height =>
      handler.forkChoiceAdmits height finality
        (finality.finalizedHash.any fun finalized =>
          decide (block.hash = finalized) ||
            handler.branchReaches (fun _ => none) finalized maxReorgDepth
              block.prevHash)
  | none =>
      match handler.lastFinalityHeight with
      | none => true
      | some finalityHeight =>
          !decide ((handler.blockWeights.lookup block.prevHash).elim 0
            BlockWeight.height < finalityHeight)

/-- The candidate counts when it is recorded or its slot advances; unknown
support falls back to its producer. -/
def gossipCandidate : Nat :=
  let counts := (handler.blockWeights.lookup block.hash).isSome ||
    0 < handler.slotWeight block.slot block.prevHash none 1
  if counts then
    candidateUnion [block.hash] fun hash =>
      (getSupport hash).or
        (some (.single block.producer.word blockProducerWeight))
  else 0

def checkReorgSupported (currentTip : Hash) : Option ReorgResult :=
  if block.prevHash = currentTip then none
  else if block.prevHash ∉ handler.recentBlocks then none
  else
    let newChainWeight :=
      min (handler.chainWeight block.prevHash + blockProducerWeight) (2 ^ 64 - 1)
    let fromAncestor := handler.weighsFromAncestor finality.localTipHeight
    if !fromAncestor && gossipRefuses handler.currentChainWeight newChainWeight
        currentTip block.hash then none
    else
      match handler.gossipRollback block.prevHash maxReorgDepth currentTip with
      | none => none
      | some rollback =>
          if rollback.isEmpty then none
          else if !handler.gossipPassesFinality block getHeight finality then none
          else if fromAncestor && decide (block.hash ∈ rollback) then none
          else
            let weights :=
              if fromAncestor then
                (unionWeight rollback getSupport).map fun ours =>
                  (ours, handler.gossipCandidate block blockProducerWeight getSupport)
              else some (handler.currentChainWeight, newChainWeight)
            match weights with
            | none => none
            | some (ours, cand) =>
                if fromAncestor && gossipRefuses ours cand currentTip block.hash then
                  none
                else
                  some ⟨rollback, block.prevHash, [block.hash], weightDelta cand ours⟩

end Gossip

end ReorgHandler

/-- What the node makes of a plan: a heavier branch wins, and the lower hash on
a tie. -/
def decidesToSwitch (plan : Option ReorgResult) (newTip currentTip : Hash) : Bool :=
  plan.any fun result =>
    decide (0 < result.weightDelta) ||
      (decide (result.weightDelta = 0) && hashBelow newTip currentTip)

end Doli.Network
