import Mathlib.Data.List.TakeWhile
import Doli.Network.Doors

/-!
# A finalized block is never rolled back

What a plan of either door looks like, and why the finality rule keeps every
finalized block of our chain out of its rollback list.
-/

namespace Doli.Network

open Doli.Core Doli.Lib

/-- The two lists of a plan as paths to its common ancestor: ours along
`parentOf`, the new one along `linkOf`. -/
structure PlanPaths (parentOf linkOf : Hash → Option Hash) (currentTip newTip : Hash)
    (plan : ReorgResult) : Prop where
  rollback : Path parentOf currentTip plan.commonAncestor plan.rollback
  first : plan.commonAncestor ∉ plan.rollback
  newBlocks : Path linkOf newTip plan.commonAncestor plan.newBlocks.reverse

namespace ReorgHandler

variable {handler : ReorgHandler} {getParent : Hash → Option Hash}
  {getHeight : Hash → Option Nat} {getSupport : Hash → Option BlockSupport}
  {finality : ForkChoiceFinality} {currentTip newTip : Hash} {plan : ReorgResult}

theorem planReorgInner_spec {finalityOverride : Bool}
    (hplan : handler.planReorgInner getParent getHeight getSupport finality
      finalityOverride currentTip newTip = some plan) :
    PlanPaths (handler.parentOf getParent) (handler.parentOf getParent) currentTip
        newTip plan ∧
      plan.rollback.Disjoint plan.newBlocks ∧
      handler.planPassesFinality getParent getHeight finality finalityOverride
        plan.commonAncestor plan.newBlocks.reverse = true := by
  simp only [planReorgInner] at hplan
  split at hplan
  · contradiction
  case h_2 newChain commonAncestor hmeet =>
    split at hplan
    case isTrue hpasses =>
      obtain ⟨weights, -, rfl⟩ := Option.map_eq_some_iff.mp hplan
      obtain ⟨hpath, hseen, hunseen⟩ := meet_path hmeet
      refine ⟨⟨path_takeWhile_walk hseen, fun hmem => ?_, ?_⟩, ?_, ?_⟩
      · simpa using List.mem_takeWhile_imp hmem
      · rwa [List.reverse_reverse]
      · intro block hrollback hnew
        have hwalked := (List.takeWhile_sublist _).subset hrollback
        have hnot := hunseen block (List.mem_reverse.mp hnew)
        rw [← Bool.not_eq_true, seenBy_iff] at hnot
        exact hnot (.inl hwalked)
      · rwa [List.reverse_reverse]
    case isFalse => contradiction

theorem gossipRollback_path {prevHash current : Hash} {fuel : Nat}
    {rollback : List Hash}
    (hrollback : handler.gossipRollback prevHash fuel current = some rollback) :
    Path (handler.blockParents.lookup ·) current prevHash rollback ∧
      prevHash ∉ rollback := by
  induction fuel generalizing current rollback with
  | zero => simp [gossipRollback] at hrollback
  | succ fuel ih =>
      simp only [gossipRollback] at hrollback
      split at hrollback
      case isTrue hfound =>
        obtain rfl := Option.some.inj hrollback
        subst hfound
        exact ⟨.refl _, by simp⟩
      case isFalse hother =>
        split at hrollback
        · contradiction
        case h_2 parent hparent =>
          obtain ⟨rest, hrest, rfl⟩ := Option.map_eq_some_iff.mp hrollback
          obtain ⟨hpath, hfirst⟩ := ih hrest
          refine ⟨.step hparent hpath, ?_⟩
          rw [List.mem_cons, not_or]
          exact ⟨fun heq => hother heq.symm, hfirst⟩

/-- The parent links with the one that the header of a gossiped block brings. -/
def linkOf (handler : ReorgHandler) (getParent : Hash → Option Hash)
    (block : ForkBlock) (hash : Hash) : Option Hash :=
  if hash = block.hash then some block.prevHash else handler.parentOf getParent hash

theorem checkReorgSupported_spec {block : ForkBlock} {blockProducerWeight : Nat}
    (getParent : Hash → Option Hash)
    (hplan : handler.checkReorgSupported block blockProducerWeight getHeight
      getSupport finality currentTip = some plan) :
    PlanPaths (handler.parentOf getParent) (handler.linkOf getParent block) currentTip
        block.hash plan ∧
      (handler.weighsFromAncestor finality.localTipHeight = true →
        plan.rollback.Disjoint plan.newBlocks) ∧
      plan.commonAncestor = block.prevHash ∧
      handler.gossipPassesFinality block getHeight finality = true := by
  simp only [checkReorgSupported] at hplan
  split at hplan
  · contradiction
  split at hplan
  · contradiction
  split at hplan
  · contradiction
  split at hplan
  · contradiction
  case h_2 rollback hrollback =>
    split at hplan
    · contradiction
    split at hplan
    · contradiction
    case isFalse hfinality =>
      split at hplan
      · contradiction
      case isFalse hown =>
        split at hplan
        · contradiction
        split at hplan
        · contradiction
        obtain rfl := Option.some.inj hplan
        obtain ⟨hpath, hfirst⟩ := gossipRollback_path hrollback
        refine ⟨⟨?_, hfirst, ?_⟩, fun hgate member hours hnew => ?_, rfl,
          by simpa using hfinality⟩
        · refine hpath.of_parents fun member hmember => ?_
          obtain ⟨parent, hlink⟩ :=
            Option.isSome_iff_exists.mp (hpath.parent_isSome member hmember)
          rw [hlink]
          simp only [parentOf, show handler.blockParents.lookup member = some parent from
            hlink, Option.some_or]
        · have hlink : handler.linkOf getParent block block.hash = some block.prevHash :=
            if_pos rfl
          exact .step hlink (.refl block.prevHash)
        · rw [List.mem_singleton] at hnew
          subst hnew
          simp [hgate, hours] at hown

/-! ## Finality -/

/-- `finalized` is on our chain, the caller's view has it at its height, and
`getHeight` gives true heights on our chain at which the gate is open.  A hash in
front of the first block may have no height; then the handler's own record of
finality stands. -/
structure FinalizedOn (handler : ReorgHandler) (getParent : Hash → Option Hash)
    (getHeight : Hash → Option Nat) (finality : ForkChoiceFinality)
    (currentTip finalized : Hash) (height : Hash → Nat) : Prop where
  onChain : ∃ blocks, Path (handler.parentOf getParent) currentTip finalized blocks
  heights : ∀ block blocks parent, Path (handler.parentOf getParent) currentTip block
    blocks → handler.parentOf getParent block = some parent →
      height block = height parent + 1
  known : ∀ block blocks, Path (handler.parentOf getParent) currentTip block blocks →
    getHeight block = some (height block) ∨
      (getHeight block = none ∧ handler.blockWeights.lookup block = none ∧
        handler.lastFinalityHeight.any (height finalized ≤ ·))
  gate : ∀ block blocks, Path (handler.parentOf getParent) currentTip block blocks →
    getHeight block = some (height block) →
      handler.forkChoiceActive (height block) = true
  viewHash : finality.finalizedHash = some finalized
  viewHeight : finality.finalizedHeight = some (height finalized)
  belowTip : height finalized ≤ finality.localTipHeight

section Finality

variable {finalized : Hash} {height : Hash → Nat}

theorem FinalizedOn.height_lt
    (hfinal : FinalizedOn handler getParent getHeight finality currentTip finalized
      height) {ancestor block : Hash} {rollback : List Hash}
    (hpath : Path (handler.parentOf getParent) currentTip ancestor rollback)
    (hblock : block ∈ rollback) : height ancestor < height block := by
  obtain ⟨rest, hsome, hrest⟩ := hpath.of_mem hblock
  obtain ⟨front, hfront⟩ := hpath.to_mem hblock
  have heq := hrest.height_eq fun member hmember parent hparent => by
    obtain ⟨middle, hmiddle⟩ := hrest.to_mem hmember
    exact hfinal.heights member (front ++ middle) parent (hfront.trans hmiddle) hparent
  have hpos := List.length_pos_iff.mpr hsome
  omega

theorem FinalizedOn.not_admits
    (hfinal : FinalizedOn handler getParent getHeight finality currentTip finalized
      height) {ancestorHeight : Nat} (hlt : ancestorHeight < height finalized)
    (branchContainsFinalized : Bool) :
    handler.forkChoiceAdmits ancestorHeight finality branchContainsFinalized = false := by
  have heffective : finality.effectiveFinality = some (height finalized) := by
    simp [ForkChoiceFinality.effectiveFinality, hfinal.viewHeight, hfinal.belowTip]
  simp [forkChoiceAdmits, heffective, hlt]

theorem FinalizedOn.plan_refused
    (hfinal : FinalizedOn handler getParent getHeight finality currentTip finalized
      height) {ancestor : Hash} {rollback newChain : List Hash}
    (hpath : Path (handler.parentOf getParent) currentTip ancestor rollback)
    (hlt : height ancestor < height finalized) :
    handler.planPassesFinality getParent getHeight finality false ancestor newChain =
      false := by
  unfold planPassesFinality
  rcases hfinal.known ancestor rollback hpath with hknown | ⟨hnone, hunrecorded, hmirror⟩
  · have hactive := hfinal.gate ancestor rollback hpath hknown
    simp [hknown, Option.filter, hactive, hfinal.not_admits hlt]
  · obtain ⟨finalityHeight, hlast, -⟩ := Option.any_eq_true .. |>.mp hmirror
    simp [hnone, hlast, legacyAncestorHeight, hunrecorded]

theorem FinalizedOn.gossip_refused
    (hfinal : FinalizedOn handler getParent getHeight finality currentTip finalized
      height) {block : ForkBlock} {rollback : List Hash}
    (hpath : Path (handler.parentOf getParent) currentTip block.prevHash rollback)
    (hlt : height block.prevHash < height finalized) :
    handler.gossipPassesFinality block getHeight finality = false := by
  unfold gossipPassesFinality
  rcases hfinal.known _ rollback hpath with hknown | ⟨hnone, hunrecorded, hmirror⟩
  · have hactive := hfinal.gate _ rollback hpath hknown
    simp [hknown, Option.filter, hactive, hfinal.not_admits hlt]
  · obtain ⟨finalityHeight, hlast, hle⟩ := Option.any_eq_true .. |>.mp hmirror
    have hpos : 0 < finalityHeight := by
      simp only [decide_eq_true_eq] at hle
      omega
    simp [hnone, hlast, hunrecorded, hpos]

/-- No plan of either door rolls the finalized block back, and every plan is made
of the two paths to its common ancestor, which share no block. -/
theorem FinalizedOn.never_rolled_back
    (hfinal : FinalizedOn handler getParent getHeight finality currentTip finalized
      height) :
    (∀ newTip getSupport plan,
      handler.planReorgWithSupport currentTip newTip getParent getHeight getSupport
        finality = some plan →
          finalized ∉ plan.rollback ∧
            PlanPaths (handler.parentOf getParent) (handler.parentOf getParent)
              currentTip newTip plan ∧
            plan.rollback.Disjoint plan.newBlocks) ∧
      ∀ block blockProducerWeight getSupport plan,
        handler.checkReorgSupported block blockProducerWeight getHeight getSupport
          finality currentTip = some plan →
            finalized ∉ plan.rollback ∧
              PlanPaths (handler.parentOf getParent) (handler.linkOf getParent block)
                currentTip block.hash plan ∧
              (handler.weighsFromAncestor finality.localTipHeight = true →
                plan.rollback.Disjoint plan.newBlocks) := by
  constructor
  · intro newTip getSupport plan hplan
    obtain ⟨hpaths, hdisjoint, hpasses⟩ := planReorgInner_spec hplan
    refine ⟨fun hrolled => ?_, hpaths, hdisjoint⟩
    have hlt := hfinal.height_lt hpaths.rollback hrolled
    rw [hfinal.plan_refused hpaths.rollback hlt] at hpasses
    contradiction
  · intro block blockProducerWeight getSupport plan hplan
    obtain ⟨hpaths, hdisjoint, hancestor, hpasses⟩ :=
      checkReorgSupported_spec getParent hplan
    refine ⟨fun hrolled => ?_, hpaths, hdisjoint⟩
    have hpath := hpaths.rollback
    rw [hancestor] at hpath
    have hlt := hfinal.height_lt hpath hrolled
    rw [hfinal.gossip_refused hpath hlt] at hpasses
    contradiction

end Finality

/-! ## Three blocks and a gossiped one -/

/-- Our chain is ⟨10⟩, ⟨3⟩, ⟨9⟩, of weight 1 each; ⟨10⟩ is final and ⟨4⟩ is a
second child of ⟨3⟩. -/
def sampleHandler (incI288 : Nat) : ReorgHandler :=
  { (((((ReorgHandler.new 0 0 incI288).recordBlockWithHeight ⟨10⟩ zeroHash 1 1)
      |>.recordBlockWithHeight ⟨3⟩ ⟨10⟩ 1 2)
      |>.recordBlockWithHeight ⟨9⟩ ⟨3⟩ 1 3)
      |>.recordForkBlockWithHeight ⟨4⟩ ⟨3⟩ 1 3) with lastFinalityHeight := some 1 }

def sampleHeight (hash : Hash) : Nat :=
  if hash = ⟨10⟩ then 1 else if hash = ⟨3⟩ then 2 else if hash = ⟨9⟩ then 3 else 0

def sampleGetHeight (hash : Hash) : Option Nat :=
  if hash = zeroHash then none else some (sampleHeight hash)

def sampleFinality : ForkChoiceFinality where
  finalizedHeight := some 1
  finalizedHash := some ⟨10⟩
  localTipHeight := 3
  finalizedOnCanonical := true

theorem sampleHandler_finalizedOn {incI288 : Nat}
    (hgate : incI288 = 0 ∨ incI288 = 2 ^ 64 - 1) :
    FinalizedOn (sampleHandler incI288) (fun _ => none) sampleGetHeight sampleFinality
      ⟨9⟩ ⟨10⟩ sampleHeight := by
  have hchain : ∀ block blocks, Path ((sampleHandler incI288).parentOf fun _ => none)
      ⟨9⟩ block blocks → block ∈ [⟨9⟩, ⟨3⟩, ⟨10⟩, zeroHash] := by
    intro block blocks hpath
    refine hpath.mem_of_closed ?_ (by decide)
    rcases hgate with rfl | rfl <;> decide +kernel
  have hfacts : ∀ block ∈ [(⟨9⟩ : Hash), ⟨3⟩, ⟨10⟩, zeroHash],
      (∀ parent ∈ (sampleHandler incI288).parentOf (fun _ => none) block,
        sampleHeight block = sampleHeight parent + 1) ∧
      (sampleGetHeight block = some (sampleHeight block) ∨
        (sampleGetHeight block = none ∧
          (sampleHandler incI288).blockWeights.lookup block = none ∧
          (sampleHandler incI288).lastFinalityHeight.any (sampleHeight ⟨10⟩ ≤ ·))) ∧
      (sampleHandler incI288).forkChoiceActive (sampleHeight block) = true := by
    rcases hgate with rfl | rfl <;> decide +kernel
  have hlinks : (sampleHandler incI288).parentOf (fun _ => none) ⟨9⟩ = some ⟨3⟩ ∧
      (sampleHandler incI288).parentOf (fun _ => none) ⟨3⟩ = some ⟨10⟩ := by
    rcases hgate with rfl | rfl <;> decide +kernel
  exact
    { onChain := ⟨_, .step hlinks.1 (.step hlinks.2 (.refl _))⟩
      heights := fun block blocks parent hpath hparent =>
        (hfacts block (hchain block blocks hpath)).1 parent hparent
      known := fun block blocks hpath => (hfacts block (hchain block blocks hpath)).2.1
      gate := fun block blocks hpath _ => (hfacts block (hchain block blocks hpath)).2.2
      viewHash := rfl
      viewHeight := rfl
      belowTip := by decide }

/-- The same gossiped block on top of ⟨10⟩, as it stands on our chain. -/
def sampleOwnBlock : ForkBlock := ⟨⟨3⟩, ⟨10⟩, 5, ⟨1⟩⟩

theorem FinalizedOn.never_rolled_back_sample :
    ∃ plan, (sampleHandler 0).planReorgWithSupport ⟨9⟩ ⟨4⟩ (fun _ => none)
      sampleGetHeight (fun _ => some (.single 1 1)) sampleFinality = some plan ∧
        (⟨10⟩ : Hash) ∉ plan.rollback ∧ plan.rollback.Disjoint plan.newBlocks := by
  have hplan : (sampleHandler 0).planReorgWithSupport ⟨9⟩ ⟨4⟩ (fun _ => none)
      sampleGetHeight (fun _ => some (.single 1 1)) sampleFinality =
        some ⟨[⟨9⟩], ⟨3⟩, [⟨4⟩], 0⟩ := by decide +kernel
  obtain ⟨hkept, -, hdisjoint⟩ :=
    (FinalizedOn.never_rolled_back (sampleHandler_finalizedOn (.inl rfl))).1 _ _ _ hplan
  exact ⟨_, hplan, hkept, hdisjoint⟩

/-- Below the support gate a block of our own chain that weighs more than when it
was recorded wins a tie: it is rolled back and planned at once. -/
theorem own_block_rolled_back :
    FinalizedOn (sampleHandler (2 ^ 64 - 1)) (fun _ => none) sampleGetHeight
        sampleFinality ⟨9⟩ ⟨10⟩ sampleHeight ∧
      ∃ plan, (sampleHandler (2 ^ 64 - 1)).checkReorgSupported sampleOwnBlock 2
          sampleGetHeight (fun _ => none) sampleFinality ⟨9⟩ = some plan ∧
        ¬ plan.rollback.Disjoint plan.newBlocks := by
  refine ⟨sampleHandler_finalizedOn (.inr rfl), ⟨[⟨9⟩, ⟨3⟩], ⟨10⟩, [⟨3⟩], 0⟩,
    by decide +kernel, fun hdisjoint => ?_⟩
  exact hdisjoint (List.mem_cons_of_mem _ List.mem_cons_self) List.mem_cons_self

end ReorgHandler

end Doli.Network
