import Doli.Network.FinalizedKept

/-!
# Fork choice never swaps

Two nodes on the two tips of a fork weigh the same two branches, so exactly one
of them switches; the gossip door agrees with the planning door on a single
block.
-/

namespace Doli.Network

open Doli.Core Doli.Lib

/-- The blocks that exist, whoever knows them. -/
structure BlockTree where
  parent : Hash → Option Hash
  height : Hash → Nat
  height_parent : ∀ block parentHash, parent block = some parentHash →
    height block = height parentHash + 1
  parent_zero : parent zeroHash = none

/-- Two branches above a common ancestor, both shallower than the reorg depth. -/
structure Fork (tree : BlockTree) (ancestor tipX tipY : Hash) (branchX branchY : List Hash) :
    Prop where
  pathX : Path tree.parent tipX ancestor branchX
  pathY : Path tree.parent tipY ancestor branchY
  someX : branchX ≠ []
  someY : branchY ≠ []
  disjoint : branchX.Disjoint branchY
  shallowX : branchX.length < maxReorgDepth
  shallowY : branchY.length < maxReorgDepth

theorem Fork.symm {tree : BlockTree} {ancestor tipX tipY : Hash}
    {branchX branchY : List Hash} (hfork : Fork tree ancestor tipX tipY branchX branchY) :
    Fork tree ancestor tipY tipX branchY branchX :=
  ⟨hfork.pathY, hfork.pathX, hfork.someY, hfork.someX, hfork.disjoint.symm,
    hfork.shallowY, hfork.shallowX⟩

/-- What one node brings to the doors. -/
structure NodeView where
  handler : ReorgHandler
  getParent : Hash → Option Hash
  getHeight : Hash → Option Nat
  finality : ForkChoiceFinality

namespace NodeView

def parentOf (view : NodeView) : Hash → Option Hash :=
  view.handler.parentOf view.getParent

def plan (view : NodeView) (getSupport : Hash → Option BlockSupport)
    (currentTip newTip : Hash) : Option ReorgResult :=
  view.handler.planReorgWithSupport currentTip newTip view.getParent view.getHeight
    getSupport view.finality

def gossip (view : NodeView) (getSupport : Hash → Option BlockSupport)
    (currentTip : Hash) (block : ForkBlock) (blockProducerWeight : Nat) :
    Option ReorgResult :=
  view.handler.checkReorgSupported block blockProducerWeight view.getHeight getSupport
    view.finality currentTip

/-- The node knows the links of both branches and no wrong ones, the support
gate is open at its tip, and nothing it holds final is above the ancestor: not
its checkpoint, which its canonical index confirms, and not the handler's own
record. -/
structure Ready (view : NodeView) (tree : BlockTree) (ancestor : Hash)
    (members : List Hash) : Prop where
  sound : ∀ block parent, view.parentOf block = some parent →
    tree.parent block = some parent
  complete : ∀ block ∈ members, view.parentOf block = tree.parent block
  gate : view.handler.weighsFromAncestor view.finality.localTipHeight = true
  real : view.getHeight ancestor = some (tree.height ancestor) ∨
    (view.getHeight ancestor = none ∧ view.handler.lastFinalityHeight = none)
  recorded : ∀ weight, view.handler.blockWeights.lookup ancestor = some weight →
    weight.height = tree.height ancestor
  mirror : ∀ finalityHeight, view.handler.lastFinalityHeight = some finalityHeight →
    finalityHeight ≤ tree.height ancestor
  checkpoint : ∀ finalizedHeight, view.finality.finalizedHeight = some finalizedHeight →
    finalizedHeight ≤ tree.height ancestor
  canonical : view.finality.finalizedHash.isSome →
    view.finality.finalizedHeight.isSome ∧ view.finality.finalizedOnCanonical = true

/-- Our side of the fork is in the cache: the links down to the ancestor, and the
ancestor with its weight unless it is the root. -/
structure Tracks (view : NodeView) (tree : BlockTree) (ancestor : Hash)
    (branch : List Hash) : Prop where
  links : ∀ block ∈ branch, view.handler.blockParents.lookup block = tree.parent block
  recent : ancestor ∈ view.handler.recentBlocks
  weight : (view.handler.blockWeights.lookup ancestor).isSome ∨ tree.height ancestor = 0

section Ready

variable {view : NodeView} {tree : BlockTree} {ancestor : Hash} {members : List Hash}

theorem Ready.admits (hready : view.Ready tree ancestor members)
    (branchContainsFinalized : Bool) :
    view.handler.forkChoiceAdmits (tree.height ancestor) view.finality
      branchContainsFinalized = true := by
  unfold ReorgHandler.forkChoiceAdmits
  cases hheight : view.finality.finalizedHeight with
  | none => simp [ForkChoiceFinality.effectiveFinality, hheight]
  | some finalizedHeight =>
      have hle := hready.checkpoint finalizedHeight hheight
      have hnot : ¬ tree.height ancestor <
          min finalizedHeight view.finality.localTipHeight := by omega
      cases hhash : view.finality.finalizedHash with
      | none => simp [ForkChoiceFinality.effectiveFinality, hheight, hnot]
      | some finalized =>
          have hcanonical := (hready.canonical (by simp [hhash])).2
          simp [ForkChoiceFinality.effectiveFinality, hheight, hnot, hcanonical,
            hready.gate, hle]

theorem Ready.filter_height (hready : view.Ready tree ancestor members) {height : Nat}
    (hfilter : (view.getHeight ancestor).filter view.handler.forkChoiceActive =
      some height) : height = tree.height ancestor := by
  obtain ⟨hheight, -⟩ := Option.filter_eq_some_iff.mp hfilter
  rcases hready.real with hreal | ⟨hnone, -⟩
  · exact (Option.some.inj (hreal.symm.trans hheight)).symm
  · rw [hnone] at hheight
    contradiction

theorem Ready.plan_passes (hready : view.Ready tree ancestor members)
    (newChain : List Hash) :
    view.handler.planPassesFinality view.getParent view.getHeight view.finality false
      ancestor newChain = true := by
  unfold ReorgHandler.planPassesFinality
  split
  case h_1 height hfilter =>
    rw [hready.filter_height hfilter]
    simp [hready.admits]
  case h_2 =>
    split
    · rfl
    case h_2 finalityHeight hlast =>
      have hle := hready.mirror finalityHeight hlast
      have hlegacy : view.handler.legacyAncestorHeight view.getHeight ancestor =
          some (tree.height ancestor) := by
        rcases hready.real with hreal | ⟨-, hnone⟩
        · simp only [ReorgHandler.legacyAncestorHeight, hreal]
          split
          · rfl
          · split
            case h_1 weight hweight => rw [hready.recorded weight hweight]
            case h_2 => rfl
        · rw [hnone] at hlast
          contradiction
      simp [hlegacy, hle]

theorem Ready.gossip_passes (hready : view.Ready tree ancestor members)
    {branch : List Hash} (htracks : view.Tracks tree ancestor branch) {block : ForkBlock}
    (hprev : block.prevHash = ancestor) :
    view.handler.gossipPassesFinality block view.getHeight view.finality = true := by
  unfold ReorgHandler.gossipPassesFinality
  rw [hprev]
  split
  case h_1 height hfilter =>
    rw [hready.filter_height hfilter]
    simp [hready.admits]
  case h_2 =>
    split
    · rfl
    case h_2 finalityHeight hlast =>
      have hle := hready.mirror finalityHeight hlast
      cases hweight : view.handler.blockWeights.lookup ancestor with
      | some weight => simp [hready.recorded weight hweight, hle]
      | none =>
          have hroot : tree.height ancestor = 0 := by
            simpa [hweight] using htracks.weight
          have hzero : finalityHeight = 0 := by omega
          simp [hzero]

end Ready

/-! ## The verdict of a node -/

section Verdict

variable {view : NodeView} {tree : BlockTree} {ancestor tipX tipY : Hash}
  {branchX branchY : List Hash} {getSupport : Hash → Option BlockSupport}
  {weightOf : SupporterId → Nat}

theorem weightDelta_eq {new current : Nat} (hnew : new < 2 ^ 63)
    (hcurrent : current < 2 ^ 63) :
    weightDelta new current = (new : Int) - (current : Int) := by
  have hnew' : (BitVec.ofNat 64 new).toInt = new := by
    rw [BitVec.toInt_eq_toNat_of_lt] <;> simp only [BitVec.toNat_ofNat] <;> omega
  have hcurrent' : (BitVec.ofNat 64 current).toInt = current := by
    rw [BitVec.toInt_eq_toNat_of_lt] <;> simp only [BitVec.toNat_ofNat] <;> omega
  rw [weightDelta, BitVec.toInt_sub, hnew', hcurrent']
  exact Int.bmod_eq_of_le (by omega) (by omega)

theorem zeroHash_notMem {tip : Hash} {branch : List Hash}
    (hpath : Path tree.parent tip ancestor branch) : zeroHash ∉ branch := by
  intro hzero
  have hparent := hpath.parent_isSome zeroHash hzero
  simp [tree.parent_zero] at hparent

theorem end_notMem {tip : Hash} {branch : List Hash}
    (hpath : Path tree.parent tip ancestor branch) : ancestor ∉ branch :=
  fun hmem => absurd (hpath.height_lt tree.height_parent hmem) (lt_irrefl _)

theorem Ready.path {members : List Hash} (hready : view.Ready tree ancestor members)
    {tip : Hash} {branch : List Hash} (hpath : Path tree.parent tip ancestor branch)
    (hsub : branch ⊆ members) : Path view.parentOf tip ancestor branch :=
  hpath.of_parents fun member hmember => hready.complete member (hsub hmember)

theorem Ready.path_tree {members : List Hash}
    (hready : view.Ready tree ancestor members) {tip block : Hash} {branch : List Hash}
    (hpath : Path view.parentOf tip block branch) : Path tree.parent tip block branch :=
  hpath.of_parents fun member hmember => by
    obtain ⟨parent, hparent⟩ :=
      Option.isSome_iff_exists.mp (hpath.parent_isSome member hmember)
    rw [hparent, hready.sound member parent hparent]

/-- The plan of a node on X: our branch back, the other one forward, and the
difference of the two exact weights. -/
theorem Ready.plan_eq (hfork : Fork tree ancestor tipX tipY branchX branchY)
    (hready : view.Ready tree ancestor (branchX ++ branchY))
    (hweighedX : Weighed getSupport weightOf branchX)
    (hweighedY : Weighed getSupport weightOf branchY)
    (hboundX : supportWeight getSupport weightOf branchX < 2 ^ 63)
    (hboundY : supportWeight getSupport weightOf branchY < 2 ^ 63) :
    view.plan getSupport tipX tipY =
      some ⟨branchX, ancestor, branchY.reverse,
        weightDelta (supportWeight getSupport weightOf branchY)
          (supportWeight getSupport weightOf branchX)⟩ := by
  have hpathX := hready.path hfork.pathX (List.subset_append_left ..)
  have hpathY := hready.path hfork.pathY (List.subset_append_right ..)
  set currentWalk := walk view.parentOf zeroHash maxReorgDepth tipX with hwalk
  have hseen : seenBy zeroHash currentWalk ancestor = true :=
    seenBy_walk hpathX (zeroHash_notMem hfork.pathX) hfork.shallowX
  have hrollback : currentWalk.1.takeWhile (· ≠ ancestor) = branchX := by
    refine hpathX.unique (end_notMem hfork.pathX) (path_takeWhile_walk hseen) ?_
    exact fun hmem => by simpa using List.mem_takeWhile_imp hmem
  have hunseen : ∀ member ∈ branchY, seenBy zeroHash currentWalk member = false := by
    intro member hmember
    by_contra hcontra
    obtain ⟨front, hfront⟩ := path_of_seenBy (by simpa using hcontra)
    have hmemX := hfork.pathX.mem_of_height_lt tree.height_parent
      (hready.path_tree hfront) (hfork.pathY.height_lt tree.height_parent hmember)
    exact hfork.disjoint hmemX hmember
  have hmeet : meet view.parentOf zeroHash (seenBy zeroHash currentWalk) maxReorgDepth
      tipY = (branchY, some ancestor) :=
    meet_of_path hpathY (zeroHash_notMem hfork.pathY) hunseen hseen hfork.shallowY
  have hreversed : Weighed getSupport weightOf branchY.reverse :=
    hweighedY.congr (by simp)
  have hsum : supportWeight getSupport weightOf branchY.reverse =
      supportWeight getSupport weightOf branchY := supportWeight_congr (by simp)
  have hweights : view.handler.planWeights getSupport view.finality tipX tipY branchX
      branchY.reverse = some (supportWeight getSupport weightOf branchX,
        supportWeight getSupport weightOf branchY) := by
    have hsome : branchY.reverse.isEmpty = false := by simp [hfork.someY]
    rw [ReorgHandler.planWeights, if_pos hready.gate, if_neg (by simp [hsome]),
      hweighedX.unionWeight_eq, hreversed.candidateUnion_eq, hsum, Option.map_some]
    congr 2 <;> omega
  unfold parentOf at hwalk hmeet
  simp only [plan, ReorgHandler.planReorgWithSupport, ReorgHandler.planReorgInner, ← hwalk,
    hmeet, hready.plan_passes, hrollback, hweights, Option.map_some, if_true]

/-- A heavier branch wins, and the lower hash on a tie. -/
def switches (ours cand : Nat) (ourTip candTip : Hash) : Bool :=
  decide (ours < cand) || (decide (ours = cand) && hashBelow candTip ourTip)

theorem decidesToSwitch_some {ours cand : Nat} {rollback newBlocks : List Hash}
    {commonAncestor ourTip candTip : Hash} (hours : ours < 2 ^ 63) (hcand : cand < 2 ^ 63) :
    decidesToSwitch (some ⟨rollback, commonAncestor, newBlocks, weightDelta cand ours⟩)
        candTip ourTip =
      switches ours cand ourTip candTip := by
  have hpos : decide (0 < weightDelta cand ours) = decide (ours < cand) := by
    rw [weightDelta_eq hcand hours, decide_eq_decide]
    omega
  have hzero : decide (weightDelta cand ours = 0) = decide (ours = cand) := by
    rw [weightDelta_eq hcand hours, decide_eq_decide]
    omega
  simp only [decidesToSwitch, Option.any_some, switches, hpos, hzero]

theorem Ready.decides_plan (hfork : Fork tree ancestor tipX tipY branchX branchY)
    (hready : view.Ready tree ancestor (branchX ++ branchY))
    (hweighedX : Weighed getSupport weightOf branchX)
    (hweighedY : Weighed getSupport weightOf branchY)
    (hboundX : supportWeight getSupport weightOf branchX < 2 ^ 63)
    (hboundY : supportWeight getSupport weightOf branchY < 2 ^ 63) :
    decidesToSwitch (view.plan getSupport tipX tipY) tipY tipX =
      switches (supportWeight getSupport weightOf branchX)
        (supportWeight getSupport weightOf branchY) tipX tipY := by
  rw [hready.plan_eq hfork hweighedX hweighedY hboundX hboundY]
  exact decidesToSwitch_some hboundX hboundY

theorem hashBelow_asymm {left right : Hash} (hne : left ≠ right) :
    hashBelow left right = !hashBelow right left := by
  have hword : left.word.toNat ≠ right.word.toNat := by
    intro heq
    exact hne (by cases left; cases right; simpa using BitVec.eq_of_toNat_eq heq)
  simp only [hashBelow, ← decide_not, decide_eq_decide]
  omega

theorem switches_asymm (ours cand : Nat) {ourTip candTip : Hash} (hne : candTip ≠ ourTip) :
    switches ours cand ourTip candTip = !switches cand ours candTip ourTip := by
  rcases lt_trichotomy ours cand with hlt | rfl | hlt
  · have hnot : ¬ cand < ours := by omega
    have hneq : cand ≠ ours := by omega
    simp [switches, hlt, hnot, hneq]
  · simp [switches, hashBelow_asymm hne]
  · have hnot : ¬ ours < cand := by omega
    have hneq : ours ≠ cand := by omega
    simp [switches, hlt, hnot, hneq]

theorem gossipRefuses_eq (ours cand : Nat) (currentTip blockHash : Hash) :
    ReorgHandler.gossipRefuses ours cand currentTip blockHash =
      !switches ours cand currentTip blockHash := by
  unfold ReorgHandler.gossipRefuses resolveWeight switches
  rcases lt_trichotomy ours cand with hlt | rfl | hlt
  · simp [hlt]
  · cases hashBelow blockHash currentTip <;> simp
  · have hnot : ¬ ours < cand := by omega
    have hneq : ours ≠ cand := by omega
    simp [hlt, hnot, hneq]

theorem gossipRollback_of_path {handler : ReorgHandler} {prevHash current : Hash}
    {branch : List Hash} {fuel : Nat}
    (hpath : Path (handler.blockParents.lookup ·) current prevHash branch)
    (hfirst : prevHash ∉ branch) (hfuel : branch.length < fuel) :
    handler.gossipRollback prevHash fuel current = some branch := by
  induction hpath generalizing fuel with
  | refl block =>
      obtain ⟨fuel, rfl⟩ : ∃ rest, fuel = rest + 1 := ⟨fuel - 1, by simp at hfuel; omega⟩
      simp [ReorgHandler.gossipRollback]
  | @step block parent ancestor rest hparent hrest ih =>
      obtain ⟨fuel, rfl⟩ : ∃ rest, fuel = rest + 1 := ⟨fuel - 1, by simp at hfuel; omega⟩
      rw [List.mem_cons, not_or] at hfirst
      have hrestEq := ih hfirst.2 (by simpa using hfuel)
      have hne : block ≠ ancestor := fun heq => hfirst.1 heq.symm
      simp [ReorgHandler.gossipRollback, hne, show handler.blockParents.lookup block =
        some parent from hparent, hrestEq]

theorem Ready.decides_gossip {block : ForkBlock} {blockProducerWeight : Nat}
    (hfork : Fork tree ancestor tipX block.hash branchX [block.hash])
    (hready : view.Ready tree ancestor (branchX ++ [block.hash]))
    (htracks : view.Tracks tree ancestor branchX) (hprev : block.prevHash = ancestor)
    (hrecorded : (view.handler.blockWeights.lookup block.hash).isSome)
    (hweighedX : Weighed getSupport weightOf branchX)
    (hweighedY : Weighed getSupport weightOf [block.hash])
    (hboundX : supportWeight getSupport weightOf branchX < 2 ^ 63)
    (hboundY : supportWeight getSupport weightOf [block.hash] < 2 ^ 63) :
    decidesToSwitch (view.gossip getSupport tipX block blockProducerWeight) block.hash
        tipX =
      switches (supportWeight getSupport weightOf branchX)
        (supportWeight getSupport weightOf [block.hash]) tipX block.hash := by
  have hrollback : view.handler.gossipRollback block.prevHash maxReorgDepth tipX =
      some branchX := by
    rw [hprev]
    exact gossipRollback_of_path (hfork.pathX.of_parents htracks.links)
      (end_notMem hfork.pathX) hfork.shallowX
  have hours : unionWeight branchX getSupport =
      some (supportWeight getSupport weightOf branchX) := by
    rw [hweighedX.unionWeight_eq]
    congr 1
    omega
  have hcand : view.handler.gossipCandidate block blockProducerWeight getSupport =
      supportWeight getSupport weightOf [block.hash] := by
    obtain ⟨support, hsupport⟩ :=
      Option.isSome_iff_exists.mp (hweighedY.known block.hash List.mem_cons_self)
    simp only [ReorgHandler.gossipCandidate, hrecorded, Bool.true_or, if_true]
    rw [candidateUnion_congr (fun hash hhash => ?_), hweighedY.candidateUnion_eq]
    · omega
    · simp [List.mem_singleton.mp hhash, hsupport]
  have hother : block.hash ∉ branchX := fun hmem =>
    hfork.disjoint hmem List.mem_cons_self
  have htip : block.prevHash ≠ tipX := fun heq =>
    end_notMem hfork.pathX ((heq.symm.trans hprev) ▸ hfork.pathX.start_mem hfork.someX)
  have hrecent : block.prevHash ∈ view.handler.recentBlocks := hprev ▸ htracks.recent
  have hpasses := hready.gossip_passes htracks hprev
  have hgossip : view.gossip getSupport tipX block blockProducerWeight =
      if switches (supportWeight getSupport weightOf branchX)
          (supportWeight getSupport weightOf [block.hash]) tipX block.hash then
        some ⟨branchX, block.prevHash, [block.hash],
          weightDelta (supportWeight getSupport weightOf [block.hash])
            (supportWeight getSupport weightOf branchX)⟩
      else none := by
    unfold gossip ReorgHandler.checkReorgSupported
    cases hswitch : switches (supportWeight getSupport weightOf branchX)
      (supportWeight getSupport weightOf [block.hash]) tipX block.hash <;>
        simp [htip, hrecent, hready.gate, hrollback, hfork.someX, hpasses, hours, hcand,
          hother, gossipRefuses_eq, hswitch]
  rw [hgossip]
  split
  case isTrue hswitch => rw [decidesToSwitch_some hboundX hboundY]
  case isFalse hkeep => simpa [decidesToSwitch] using hkeep

end Verdict

end NodeView

/-- Of two nodes on the two tips exactly one switches, and on a single recorded
block the gossip door of a node that tracks its own side decides like the planning
door. -/
theorem forkChoice_never_swaps {tree : BlockTree} {ancestor tipX tipY : Hash}
    {branchX branchY : List Hash} (hfork : Fork tree ancestor tipX tipY branchX branchY)
    {viewX viewY : NodeView} (hviewX : viewX.Ready tree ancestor (branchX ++ branchY))
    (hviewY : viewY.Ready tree ancestor (branchY ++ branchX))
    {getSupport : Hash → Option BlockSupport} {weightOf : SupporterId → Nat}
    (hweighedX : Weighed getSupport weightOf branchX)
    (hweighedY : Weighed getSupport weightOf branchY)
    (hboundX : supportWeight getSupport weightOf branchX < 2 ^ 63)
    (hboundY : supportWeight getSupport weightOf branchY < 2 ^ 63) :
    (decidesToSwitch (viewX.plan getSupport tipX tipY) tipY tipX = true ↔
      ¬ decidesToSwitch (viewY.plan getSupport tipY tipX) tipX tipY = true) ∧
    ∀ (block : ForkBlock) (blockProducerWeight : Nat), block.hash = tipY →
      block.prevHash = ancestor → branchY = [tipY] →
      (viewX.handler.blockWeights.lookup block.hash).isSome →
      viewX.Tracks tree ancestor branchX →
        decidesToSwitch (viewX.gossip getSupport tipX block blockProducerWeight) tipY
            tipX =
          decidesToSwitch (viewX.plan getSupport tipX tipY) tipY tipX := by
  have hplanX := hviewX.decides_plan hfork hweighedX hweighedY hboundX hboundY
  refine ⟨?_, ?_⟩
  · have hne : tipY ≠ tipX := fun heq =>
      hfork.disjoint (hfork.pathX.start_mem hfork.someX)
        (heq ▸ hfork.pathY.start_mem hfork.someY)
    rw [hplanX, hviewY.decides_plan hfork.symm hweighedY hweighedX hboundY hboundX,
      NodeView.switches_asymm _ _ hne]
    simp
  · rintro block blockProducerWeight rfl hprev rfl hrecorded htracks
    rw [hplanX, hviewX.decides_gossip hfork htracks hprev hrecorded hweighedX hweighedY
      hboundX hboundY]

/-! ## Two children of one block -/

/-- ⟨9⟩ and ⟨4⟩ on ⟨3⟩, the first block. -/
def sampleTree : BlockTree where
  parent hash :=
    if hash = ⟨9⟩ then some ⟨3⟩ else if hash = ⟨4⟩ then some ⟨3⟩
    else if hash = ⟨3⟩ then some zeroHash else none
  height hash := if hash = ⟨9⟩ then 2 else if hash = ⟨4⟩ then 2 else if hash = ⟨3⟩ then 1 else 0
  height_parent := by
    intro block parentHash hparent
    split_ifs at hparent with hnine hfour hthree <;> cases hparent
    · subst hnine; decide
    · subst hfour; decide
    · subst hthree; decide
  parent_zero := by decide

theorem sampleTree_fork : Fork sampleTree ⟨3⟩ ⟨9⟩ ⟨4⟩ [⟨9⟩] [⟨4⟩] where
  pathX := .step (by decide) (.refl _)
  pathY := .step (by decide) (.refl _)
  someX := by decide
  someY := by decide
  disjoint := by simp
  shallowX := by decide
  shallowY := by decide

/-- A node without finality whose store has the links of the tree. -/
def sampleView (handler : ReorgHandler) : NodeView where
  handler := handler
  getParent := sampleTree.parent
  getHeight := fun hash => some (sampleTree.height hash)
  finality := ⟨none, none, 2, false⟩

/-- After a restart only the fork block is in the cache. -/
def coldHandler : ReorgHandler :=
  (ReorgHandler.new 0 0 0).recordForkBlockWithHeight ⟨4⟩ ⟨3⟩ 1 2

def warmHandler : ReorgHandler :=
  (((ReorgHandler.new 0 0 0).recordBlockWithHeight ⟨3⟩ zeroHash 1 1)
    |>.recordBlockWithHeight ⟨9⟩ ⟨3⟩ 1 2)
    |>.recordForkBlockWithHeight ⟨4⟩ ⟨3⟩ 1 2

theorem sampleView_ready {handler : ReorgHandler}
    (hlinks : ∀ row ∈ handler.blockParents.entries, sampleTree.parent row.1 = some row.2)
    (hgate : handler.incI288ForkChoiceActivationHeight = 0)
    (hlast : handler.lastFinalityHeight = none)
    (hweight : ∀ weight ∈ handler.blockWeights.lookup ⟨3⟩, weight.height = 1)
    (members : List Hash) : (sampleView handler).Ready sampleTree ⟨3⟩ members := by
  have hparent : ∀ block, (sampleView handler).parentOf block = sampleTree.parent block := by
    intro block
    change (handler.blockParents.lookup block).or (sampleTree.parent block) = _
    cases hlookup : handler.blockParents.lookup block with
    | none => rfl
    | some parent =>
        have hrow := hlinks ⟨block, parent⟩ (Finmap.mem_lookup_iff.mp hlookup)
        simp [hrow]
  exact
    { sound := fun block parent hblock => (hparent block).symm.trans hblock
      complete := fun block _ => hparent block
      gate := by simp [ReorgHandler.weighsFromAncestor, sampleView, hgate]
      real := .inl rfl
      recorded := fun weight hlookup => hweight weight hlookup
      mirror := fun finalityHeight hsome => by simp [sampleView, hlast] at hsome
      checkpoint := fun finalizedHeight hsome => by simp [sampleView] at hsome
      canonical := fun hsome => by simp [sampleView] at hsome }

def sampleSupport (_ : Hash) : Option BlockSupport := some (.single 1 1)

theorem sampleSupport_weighed (blocks : List Hash) :
    Weighed sampleSupport (fun _ => 1) blocks where
  known block _ := rfl
  advances block _ support hsupport := by
    cases hsupport
    rfl
  weights block _ support hsupport row hrow := by
    cases hsupport
    simp [BlockSupport.single, BlockSupport.default] at hrow
    simp [hrow]

/-- The block ⟨4⟩ as it is gossiped. -/
def sampleSibling : ForkBlock := ⟨⟨4⟩, ⟨3⟩, 5, ⟨1⟩⟩

theorem coldHandler_ready (members : List Hash) :
    (sampleView coldHandler).Ready sampleTree ⟨3⟩ members :=
  sampleView_ready (by decide +kernel) rfl rfl (by decide +kernel) members

theorem warmHandler_ready (members : List Hash) :
    (sampleView warmHandler).Ready sampleTree ⟨3⟩ members :=
  sampleView_ready (by decide +kernel) rfl rfl (by decide +kernel) members

theorem warmHandler_tracks : (sampleView warmHandler).Tracks sampleTree ⟨3⟩ [⟨9⟩] where
  links block hblock := by
    obtain rfl := List.mem_singleton.mp hblock
    decide +kernel
  recent := by decide +kernel
  weight := by decide +kernel

theorem forkChoice_never_swaps_sample :
    (decidesToSwitch ((sampleView coldHandler).plan sampleSupport ⟨9⟩ ⟨4⟩) ⟨4⟩ ⟨9⟩ = true ↔
      ¬ decidesToSwitch ((sampleView warmHandler).plan sampleSupport ⟨4⟩ ⟨9⟩) ⟨9⟩ ⟨4⟩ =
        true) ∧
    decidesToSwitch ((sampleView warmHandler).gossip sampleSupport ⟨9⟩ sampleSibling 1)
        ⟨4⟩ ⟨9⟩ =
      decidesToSwitch ((sampleView warmHandler).plan sampleSupport ⟨9⟩ ⟨4⟩) ⟨4⟩ ⟨9⟩ := by
  have hbound : ∀ block : Hash, supportWeight sampleSupport (fun _ => 1) [block] <
      2 ^ 63 := by
    intro block
    simp [supportWeight, supporters, sampleSupport, BlockSupport.rows, BlockSupport.single,
      BlockSupport.default]
  refine ⟨(forkChoice_never_swaps sampleTree_fork (coldHandler_ready _)
      (warmHandler_ready _) (sampleSupport_weighed _) (sampleSupport_weighed _) (hbound _)
      (hbound _)).1, ?_⟩
  exact (forkChoice_never_swaps sampleTree_fork (warmHandler_ready _) (warmHandler_ready _)
    (sampleSupport_weighed _) (sampleSupport_weighed _) (hbound _) (hbound _)).2
      sampleSibling 1 rfl rfl rfl (by decide +kernel) warmHandler_tracks

/-- A node whose cache has the block but not its own side plans the switch and yet
refuses the same block at the gossip door. -/
theorem cold_gossip_refuses :
    Fork sampleTree ⟨3⟩ ⟨9⟩ ⟨4⟩ [⟨9⟩] [⟨4⟩] ∧
    (sampleView coldHandler).Ready sampleTree ⟨3⟩ ([⟨9⟩] ++ [⟨4⟩]) ∧
    Weighed sampleSupport (fun _ => 1) [⟨9⟩] ∧ Weighed sampleSupport (fun _ => 1) [⟨4⟩] ∧
    (coldHandler.blockWeights.lookup sampleSibling.hash).isSome ∧
    decidesToSwitch ((sampleView coldHandler).plan sampleSupport ⟨9⟩ ⟨4⟩) ⟨4⟩ ⟨9⟩ = true ∧
    decidesToSwitch ((sampleView coldHandler).gossip sampleSupport ⟨9⟩ sampleSibling 1)
      ⟨4⟩ ⟨9⟩ = false :=
  ⟨sampleTree_fork, coldHandler_ready _, sampleSupport_weighed _, sampleSupport_weighed _,
    by decide +kernel, by decide +kernel, by decide +kernel⟩

end Doli.Network
