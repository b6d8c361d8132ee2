import Doli.Core.Transaction
import Doli.Lib.Run
import Doli.Lib.Quorum

/-!
# Finality

`FinalityTracker`: attestation weight per pending block, and the checkpoints
that two thirds of it make final.
-/

namespace Doli.Core

open Doli.Lib

def finalityThresholdPct : Nat := 67

def confirmationDepth : Nat := 2

def finalityTimeoutSlots : Nat := 3

def maxEarlyAttestations : Nat := 100

structure FinalityCheckpoint where
  blockHash : Hash
  height : Nat
  slot : Nat
  attestationWeight : Nat
  totalWeight : Nat
  deriving DecidableEq, Repr

structure PendingBlock where
  blockHash : Hash
  height : Nat
  slot : Nat
  attesters : Tally PublicKey
  totalWeight : Nat

namespace PendingBlock

variable (block : PendingBlock)

/-- The sum is a `u64` and wraps. -/
def numerator : Nat := block.attesters.weight % 2 ^ 64

def percentage : Nat := block.numerator * 100 % 2 ^ 64 / block.totalWeight

/-- The height to reach saturates. -/
def hasConfirmationDepth (appliedTipHeight : Nat) : Bool :=
  min (block.height + confirmationDepth) (2 ^ 64 - 1) ≤ appliedTipHeight

def aboveFloor (floor : Option Nat) : Bool :=
  !floor.any fun finalized => decide (block.height ≤ finalized)

/-- What the loop of `check_finality` asks of a candidate. -/
def reachesFinality (appliedTipHeight : Nat) (floor : Option Nat) : Bool :=
  block.totalWeight ≠ 0 && block.aboveFloor floor &&
    finalityThresholdPct ≤ block.percentage &&
    block.hasConfirmationDepth appliedTipHeight

def checkpoint : FinalityCheckpoint where
  blockHash := block.blockHash
  height := block.height
  slot := block.slot
  attestationWeight := block.numerator
  totalWeight := block.totalWeight

end PendingBlock

structure FinalityTracker where
  lastFinalized : Option FinalityCheckpoint
  pending : List PendingBlock
  earlyAttestations : Column Hash (Tally PublicKey)

namespace FinalityTracker

/-- A tracker that knows a checkpoint and nothing else; `none` for a new one. -/
def resume (lastFinalized : Option FinalityCheckpoint) : FinalityTracker :=
  ⟨lastFinalized, [], ∅⟩

def new : FinalityTracker := resume none

variable (tracker : FinalityTracker)

def trackBlock (hash : Hash) (height slot totalWeight : Nat) : FinalityTracker :=
  if tracker.pending.any fun block => block.blockHash = hash then tracker
  else
    { tracker with
      pending := tracker.pending ++
        [⟨hash, height, slot, (tracker.earlyAttestations.lookup hash).getD ∅,
          totalWeight⟩]
      earlyAttestations := tracker.earlyAttestations.erase hash }

/-- The report on the first pending block of that hash, if there is one. -/
def reportPending (hash : Hash) (attester : PublicKey) (weight : Nat) :
    List PendingBlock → Option (List PendingBlock)
  | [] => none
  | block :: blocks =>
      if block.blockHash = hash then
        some ({ block with attesters := block.attesters.insert attester weight } ::
          blocks)
      else (reportPending hash attester weight blocks).map (block :: ·)

/-- A report on an untracked block is buffered; `evicted` is the key that the
map happens to list first when the buffer is full. -/
def addAttestationWeight (hash : Hash) (attester : PublicKey) (weight : Nat)
    (evicted : Hash) : FinalityTracker :=
  match reportPending hash attester weight tracker.pending with
  | some pending => { tracker with pending := pending }
  | none =>
      let buffered := tracker.earlyAttestations.insert hash
        (((tracker.earlyAttestations.lookup hash).getD ∅).insert attester weight)
      { tracker with
        earlyAttestations :=
          if maxEarlyAttestations < buffered.keys.card then buffered.erase evicted
          else buffered }

/-- The highest candidate, the first of them on a tie. -/
def bestCandidate (appliedTipHeight : Nat) (floor : Option Nat) :
    Option PendingBlock :=
  tracker.pending.foldl (fun best block =>
    if block.reachesFinality appliedTipHeight floor then
      match best with
      | none => some block
      | some leader => if leader.height < block.height then some block else best
    else best) none

def checkFinality (appliedTipHeight : Nat) (enforceMonotonic : Bool) :
    FinalityTracker × Option FinalityCheckpoint :=
  let floor :=
    if enforceMonotonic then tracker.lastFinalized.map (·.height) else none
  match tracker.bestCandidate appliedTipHeight floor with
  | none => (tracker, none)
  | some block =>
      ({ tracker with
          pending := tracker.pending.filter fun other => block.height < other.height
          lastFinalized := some block.checkpoint },
        some block.checkpoint)

def pruneOldPending (minSlot : Nat) : FinalityTracker :=
  { tracker with
    pending := tracker.pending.filter fun block =>
      minSlot ≤ (block.slot + finalityTimeoutSlots) % 2 ^ 32 }

/-! ## Runs -/

end FinalityTracker

/-- The calls on a tracker; finality is checked with monotonicity enforced. -/
inductive FinalityOp where
  | track (hash : Hash) (height slot totalWeight : Nat)
  | report (hash : Hash) (attester : PublicKey) (weight : Nat) (evicted : Hash)
  | check (appliedTipHeight : Nat)
  | prune (minSlot : Nat)
  deriving DecidableEq, Repr

namespace FinalityTracker

def step (tracker : FinalityTracker) :
    FinalityOp → FinalityTracker × Option FinalityCheckpoint
  | .track hash height slot totalWeight =>
      (tracker.trackBlock hash height slot totalWeight, none)
  | .report hash attester weight evicted =>
      (tracker.addAttestationWeight hash attester weight evicted, none)
  | .check appliedTipHeight => tracker.checkFinality appliedTipHeight true
  | .prune minSlot => (tracker.pruneOldPending minSlot, none)

def after (tracker : FinalityTracker) (ops : List FinalityOp) : FinalityTracker :=
  ops.foldl (fun tracker op => (tracker.step op).1) tracker

/-- The checkpoints a run returns, in order. -/
def returned : FinalityTracker → List FinalityOp → List FinalityCheckpoint
  | _, [] => []
  | tracker, op :: ops =>
      (tracker.step op).2.toList ++ returned (tracker.step op).1 ops

end FinalityTracker

/-- The last weight that each attester reported for a block, whenever it did. -/
def reportsFor (hash : Hash) (ops : List FinalityOp) : Tally PublicKey :=
  ops.foldl (fun reports op =>
    match op with
    | .report block attester weight _ =>
        if block = hash then reports.insert attester weight else reports
    | _ => reports) ∅

theorem reportsFor_report (hash : Hash) (ops : List FinalityOp) (block : Hash)
    (attester : PublicKey) (weight : Nat) (evicted : Hash) :
    reportsFor hash (ops ++ [.report block attester weight evicted]) =
      if block = hash then Finmap.insert attester weight (reportsFor hash ops)
      else reportsFor hash ops := by
  simp [reportsFor]

/-! ## What the maps hold -/

namespace PendingBlock

/-- What a report on `hash` does to a pending block. -/
def reported (hash : Hash) (attester : PublicKey) (weight : Nat)
    (block : PendingBlock) : PendingBlock :=
  if block.blockHash = hash then
    { block with attesters := block.attesters.insert attester weight }
  else block

variable (hash : Hash) (attester : PublicKey) (weight : Nat) (block : PendingBlock)

@[simp] theorem reported_blockHash :
    (block.reported hash attester weight).blockHash = block.blockHash := by
  unfold reported
  split <;> rfl

theorem reported_tracked :
    (block.reported hash attester weight).height = block.height ∧
      (block.reported hash attester weight).slot = block.slot ∧
      (block.reported hash attester weight).totalWeight = block.totalWeight := by
  unfold reported
  split <;> exact ⟨rfl, rfl, rfl⟩

end PendingBlock

theorem FinalityTracker.reportPending_eq {pending : List PendingBlock}
    (hnodup : (pending.map PendingBlock.blockHash).Nodup) (hash : Hash)
    (attester : PublicKey) (weight : Nat) :
    reportPending hash attester weight pending =
      if hash ∈ pending.map PendingBlock.blockHash then
        some (pending.map (·.reported hash attester weight))
      else none := by
  induction pending with
  | nil => simp [reportPending]
  | cons block blocks ih =>
      obtain ⟨hfirst, hrest⟩ := List.nodup_cons.mp hnodup
      simp only [reportPending]
      by_cases hblock : block.blockHash = hash
      · have hothers : blocks.map (·.reported hash attester weight) = blocks := by
          refine (List.map_congr_left fun other hother => ?_).trans (List.map_id blocks)
          refine if_neg fun heq => hfirst ?_
          rw [hblock, ← heq]
          exact List.mem_map_of_mem hother
        have hhead : block.reported hash attester weight =
            { block with attesters := block.attesters.insert attester weight } :=
          if_pos hblock
        rw [List.map_cons, List.map_cons, hothers, hhead]
        simp [hblock]
      · have hne : hash ≠ block.blockHash := fun heq => hblock heq.symm
        simp only [hblock, if_false, ih hrest, List.map_cons, List.mem_cons, hne,
          false_or]
        split
        · simp [PendingBlock.reported, hblock]
        · rfl

/-- Every map holds last reports on its own block, no block is in two places,
and what is pending was tracked. -/
structure Follows (ops : List FinalityOp) (tracker : FinalityTracker) : Prop where
  nodup : (tracker.pending.map PendingBlock.blockHash).Nodup
  apart : ∀ block ∈ tracker.pending,
    tracker.earlyAttestations.lookup block.blockHash = none
  pendingReports : ∀ block ∈ tracker.pending,
    block.attesters.PartOf (reportsFor block.blockHash ops)
  earlyReports : ∀ hash reports,
    tracker.earlyAttestations.lookup hash = some reports →
      reports.PartOf (reportsFor hash ops)
  tracked : ∀ block ∈ tracker.pending,
    .track block.blockHash block.height block.slot block.totalWeight ∈ ops

namespace Follows

variable {ops : List FinalityOp} {tracker : FinalityTracker}

theorem resume (lastFinalized : Option FinalityCheckpoint) :
    Follows [] (FinalityTracker.resume lastFinalized) where
  nodup := List.nodup_nil
  apart := by simp [FinalityTracker.resume]
  pendingReports := by simp [FinalityTracker.resume]
  earlyReports := by simp [FinalityTracker.resume]
  tracked := by simp [FinalityTracker.resume]

theorem filter (hfollows : Follows ops tracker) (op : FinalityOp)
    (hsame : ∀ hash, reportsFor hash (ops ++ [op]) = reportsFor hash ops)
    (keep : PendingBlock → Bool) (lastFinalized : Option FinalityCheckpoint) :
    Follows (ops ++ [op])
      ⟨lastFinalized, tracker.pending.filter keep, tracker.earlyAttestations⟩ where
  nodup := hfollows.nodup.sublist (List.filter_sublist.map _)
  apart block hblock := hfollows.apart block (List.mem_of_mem_filter hblock)
  pendingReports block hblock := by
    rw [hsame]
    exact hfollows.pendingReports block (List.mem_of_mem_filter hblock)
  earlyReports hash reports hreports := by
    rw [hsame]
    exact hfollows.earlyReports hash reports hreports
  tracked block hblock := List.mem_append_left _
    (hfollows.tracked block (List.mem_of_mem_filter hblock))

theorem keep (hfollows : Follows ops tracker) (op : FinalityOp)
    (hsame : ∀ hash, reportsFor hash (ops ++ [op]) = reportsFor hash ops) :
    Follows (ops ++ [op]) tracker := by
  have hkept := hfollows.filter op hsame (fun _ => true) tracker.lastFinalized
  simpa using hkept

theorem trackBlock (hfollows : Follows ops tracker) (hash : Hash)
    (height slot totalWeight : Nat) :
    Follows (ops ++ [.track hash height slot totalWeight])
      (tracker.trackBlock hash height slot totalWeight) := by
  have hsame : ∀ other, reportsFor other
      (ops ++ [.track hash height slot totalWeight]) = reportsFor other ops := by
    intro other
    simp [reportsFor]
  unfold FinalityTracker.trackBlock
  split
  · exact hfollows.keep _ hsame
  case isFalse hnew =>
    have hfresh : ∀ block ∈ tracker.pending, block.blockHash ≠ hash := by
      simpa using hnew
    constructor
    · rw [List.map_append]
      refine List.Nodup.append hfollows.nodup (List.nodup_singleton _) ?_
      intro other hother hnewest
      obtain ⟨block, hblock, rfl⟩ := List.mem_map.mp hother
      exact hfresh block hblock (List.mem_singleton.mp hnewest)
    · intro block hblock
      rcases List.mem_append.mp hblock with hold | hadded
      · rw [Finmap.lookup_erase_ne (hfresh block hold)]
        exact hfollows.apart block hold
      · obtain rfl := List.mem_singleton.mp hadded
        exact Finmap.lookup_erase _ _
    · intro block hblock
      rw [hsame]
      rcases List.mem_append.mp hblock with hold | hadded
      · exact hfollows.pendingReports block hold
      · obtain rfl := List.mem_singleton.mp hadded
        cases hearly : tracker.earlyAttestations.lookup hash with
        | none => exact Tally.PartOf.empty _
        | some reports => exact hfollows.earlyReports hash reports hearly
    · intro other reports hreports
      rw [hsame]
      by_cases hother : other = hash
      · rw [hother, Finmap.lookup_erase] at hreports
        contradiction
      · rw [Finmap.lookup_erase_ne hother] at hreports
        exact hfollows.earlyReports other reports hreports
    · intro block hblock
      rcases List.mem_append.mp hblock with hold | hadded
      · exact List.mem_append_left _ (hfollows.tracked block hold)
      · obtain rfl := List.mem_singleton.mp hadded
        simp

theorem reportTracked (hfollows : Follows ops tracker) {hash : Hash}
    (hpending : hash ∈ tracker.pending.map PendingBlock.blockHash) (attester : PublicKey)
    (weight : Nat) (evicted : Hash) :
    Follows (ops ++ [.report hash attester weight evicted])
      { tracker with pending := tracker.pending.map (·.reported hash attester weight) } := by
  constructor
  case nodup => simpa [List.map_map, Function.comp_def] using hfollows.nodup
  case apart =>
    intro block hblock
    obtain ⟨before, hbefore, rfl⟩ := List.mem_map.mp hblock
    rw [PendingBlock.reported_blockHash]
    exact hfollows.apart before hbefore
  case pendingReports =>
    intro block hblock
    obtain ⟨before, hbefore, rfl⟩ := List.mem_map.mp hblock
    have hpart := hfollows.pendingReports before hbefore
    rw [PendingBlock.reported_blockHash, reportsFor_report]
    unfold PendingBlock.reported
    by_cases hsame : before.blockHash = hash
    · rw [if_pos hsame, if_pos hsame.symm]
      exact hpart.insert attester weight
    · rw [if_neg hsame, if_neg fun heq => hsame heq.symm]
      exact hpart
  case earlyReports =>
    intro other reports hreports
    have hother : hash ≠ other := by
      rintro rfl
      obtain ⟨block, hblock, rfl⟩ := List.mem_map.mp hpending
      rw [hfollows.apart block hblock] at hreports
      contradiction
    rw [reportsFor_report, if_neg hother]
    exact hfollows.earlyReports other reports hreports
  case tracked =>
    intro block hblock
    obtain ⟨before, hbefore, rfl⟩ := List.mem_map.mp hblock
    obtain ⟨hheight, hslot, htotal⟩ :=
      PendingBlock.reported_tracked hash attester weight before
    rw [PendingBlock.reported_blockHash, hheight, hslot, htotal]
    exact List.mem_append_left _ (hfollows.tracked before hbefore)

theorem reportEarly (hfollows : Follows ops tracker) {hash : Hash}
    (hpending : hash ∉ tracker.pending.map PendingBlock.blockHash) (attester : PublicKey)
    (weight : Nat) (evicted : Hash) {early : Column Hash (Tally PublicKey)}
    (hrow : ∀ other reports, early.lookup other = some reports →
      (tracker.earlyAttestations.insert hash
        (((tracker.earlyAttestations.lookup hash).getD ∅).insert attester weight)).lookup
          other = some reports) :
    Follows (ops ++ [.report hash attester weight evicted])
      { tracker with earlyAttestations := early } := by
  have hne : ∀ block ∈ tracker.pending, block.blockHash ≠ hash :=
    fun block hblock heq => hpending (heq ▸ List.mem_map_of_mem hblock)
  constructor
  case nodup => exact hfollows.nodup
  case apart =>
    intro block hblock
    cases hlookup : Finmap.lookup block.blockHash _ with
    | none => rfl
    | some reports =>
        have hbuffered := hrow _ _ hlookup
        rw [Finmap.lookup_insert_of_ne _ (hne block hblock),
          hfollows.apart block hblock] at hbuffered
        contradiction
  case pendingReports =>
    intro block hblock
    rw [reportsFor_report, if_neg fun heq => hne block hblock heq.symm]
    exact hfollows.pendingReports block hblock
  case earlyReports =>
    intro other reports hreports
    have hbuffered := hrow _ _ hreports
    rw [reportsFor_report]
    by_cases hother : hash = other
    · subst hother
      rw [Finmap.lookup_insert] at hbuffered
      obtain rfl := Option.some.inj hbuffered
      rw [if_pos rfl]
      refine Tally.PartOf.insert ?_ attester weight
      cases hearly : tracker.earlyAttestations.lookup hash with
      | none => exact Tally.PartOf.empty _
      | some early => exact hfollows.earlyReports hash early hearly
    · rw [Finmap.lookup_insert_of_ne _ fun heq => hother heq.symm] at hbuffered
      rw [if_neg hother]
      exact hfollows.earlyReports other reports hbuffered
  case tracked => exact fun block hblock =>
    List.mem_append_left _ (hfollows.tracked block hblock)

theorem report (hfollows : Follows ops tracker) (hash : Hash)
    (attester : PublicKey) (weight : Nat) (evicted : Hash) :
    Follows (ops ++ [.report hash attester weight evicted])
      (tracker.addAttestationWeight hash attester weight evicted) := by
  unfold FinalityTracker.addAttestationWeight
  rw [FinalityTracker.reportPending_eq hfollows.nodup]
  by_cases hpending : hash ∈ tracker.pending.map PendingBlock.blockHash
  · rw [if_pos hpending]
    exact hfollows.reportTracked hpending attester weight evicted
  · rw [if_neg hpending]
    apply hfollows.reportEarly hpending attester weight evicted
    intro other reports hreports
    split at hreports
    · by_cases hevicted : other = evicted
      · rw [hevicted, Finmap.lookup_erase] at hreports
        contradiction
      · rwa [Finmap.lookup_erase_ne hevicted] at hreports
    · exact hreports

theorem checkFinality (hfollows : Follows ops tracker) (appliedTipHeight : Nat) :
    Follows (ops ++ [.check appliedTipHeight])
      (tracker.checkFinality appliedTipHeight true).1 := by
  have hsame : ∀ hash, reportsFor hash (ops ++ [.check appliedTipHeight]) =
      reportsFor hash ops := by
    intro hash
    simp [reportsFor]
  simp only [FinalityTracker.checkFinality]
  split
  · exact hfollows.keep _ hsame
  · exact hfollows.filter _ hsame _ _

theorem step (hfollows : Follows ops tracker) (op : FinalityOp) :
    Follows (ops ++ [op]) (tracker.step op).1 := by
  cases op with
  | track hash height slot totalWeight =>
      exact hfollows.trackBlock hash height slot totalWeight
  | report hash attester weight evicted =>
      exact hfollows.report hash attester weight evicted
  | check appliedTipHeight => exact hfollows.checkFinality appliedTipHeight
  | prune minSlot =>
      exact hfollows.filter _ (fun hash => by simp [reportsFor]) _ _

theorem after (lastFinalized : Option FinalityCheckpoint) (ops : List FinalityOp) :
    Follows ops ((FinalityTracker.resume lastFinalized).after ops) :=
  foldl_invariant Follows (resume lastFinalized)
    fun _ op _ _ _ hfollows => hfollows.step op

end Follows

/-! ## Checkpoints -/

theorem FinalityTracker.bestCandidate_mem {tracker : FinalityTracker}
    {appliedTipHeight : Nat} {floor : Option Nat} {block : PendingBlock}
    (hbest : tracker.bestCandidate appliedTipHeight floor = some block) :
    block ∈ tracker.pending ∧
      block.reachesFinality appliedTipHeight floor = true := by
  refine foldl_invariant (fun done best => ∀ block, best = some block →
    block ∈ done ∧ block.reachesFinality appliedTipHeight floor = true)
    (by simp) ?_ block hbest
  intro done candidate rest best _ hinv block hblock
  have hkept : best = some block → block ∈ done ++ [candidate] ∧
      block.reachesFinality appliedTipHeight floor = true := fun heq =>
    ⟨List.mem_append_left _ (hinv block heq).1, (hinv block heq).2⟩
  have hnew : candidate.reachesFinality appliedTipHeight floor = true →
      some candidate = some block → block ∈ done ++ [candidate] ∧
      block.reachesFinality appliedTipHeight floor = true := by
    intro hreaches heq
    obtain rfl := Option.some.inj heq
    exact ⟨by simp, hreaches⟩
  split at hblock
  case isTrue hreaches =>
    split at hblock
    · exact hnew hreaches hblock
    · split at hblock
      · exact hnew hreaches hblock
      · exact hkept hblock
  case isFalse => exact hkept hblock

/-- What a returned checkpoint stands for: the block was tracked with this
weight, two thirds of it were reported, and the tip is deep enough. -/
structure Earned (ops : List FinalityOp) (appliedTipHeight : Nat)
    (checkpoint : FinalityCheckpoint) : Prop where
  tracked : .track checkpoint.blockHash checkpoint.height checkpoint.slot
    checkpoint.totalWeight ∈ ops
  positive : 0 < checkpoint.totalWeight
  weight : finalityThresholdPct * checkpoint.totalWeight ≤
    (reportsFor checkpoint.blockHash ops).weight * 100
  depth : min (checkpoint.height + confirmationDepth) (2 ^ 64 - 1) ≤ appliedTipHeight

theorem PendingBlock.percentage_le {block : PendingBlock}
    (hreached : finalityThresholdPct ≤ block.percentage) :
    finalityThresholdPct * block.totalWeight ≤ block.attesters.weight * 100 := by
  calc finalityThresholdPct * block.totalWeight
      ≤ block.percentage * block.totalWeight := Nat.mul_le_mul_right _ hreached
    _ ≤ block.numerator * 100 % 2 ^ 64 := Nat.div_mul_le_self _ _
    _ ≤ block.numerator * 100 := Nat.mod_le _ _
    _ ≤ block.attesters.weight * 100 := Nat.mul_le_mul_right _ (Nat.mod_le _ _)

theorem Follows.earned {ops : List FinalityOp} {tracker : FinalityTracker}
    (hfollows : Follows ops tracker) {appliedTipHeight : Nat}
    {checkpoint : FinalityCheckpoint}
    (hchecked : (tracker.checkFinality appliedTipHeight true).2 = some checkpoint) :
    Earned ops appliedTipHeight checkpoint := by
  simp only [FinalityTracker.checkFinality] at hchecked
  split at hchecked
  · contradiction
  case h_2 block hbest =>
    obtain rfl := Option.some.inj hchecked
    obtain ⟨hmem, hreaches⟩ := FinalityTracker.bestCandidate_mem hbest
    simp only [PendingBlock.reachesFinality, Bool.and_eq_true, decide_eq_true_eq,
      PendingBlock.hasConfirmationDepth] at hreaches
    obtain ⟨⟨⟨hpositive, -⟩, hreached⟩, hdepth⟩ := hreaches
    refine ⟨hfollows.tracked block hmem, Nat.pos_of_ne_zero hpositive, ?_, hdepth⟩
    exact (PendingBlock.percentage_le hreached).trans
      (Nat.mul_le_mul_right _ (hfollows.pendingReports block hmem).weight_le)

theorem FinalityTracker.step_returns {tracker : FinalityTracker} {op : FinalityOp}
    {checkpoint : FinalityCheckpoint} (hstep : (tracker.step op).2 = some checkpoint) :
    (tracker.step op).1.lastFinalized = some checkpoint ∧
      ∀ last, tracker.lastFinalized = some last → last.height < checkpoint.height := by
  cases op with
  | track hash height slot totalWeight => contradiction
  | report hash attester weight evicted => contradiction
  | prune minSlot => contradiction
  | check appliedTipHeight =>
      simp only [step, checkFinality, if_true] at hstep ⊢
      split at hstep
      · contradiction
      case h_2 block hbest =>
        obtain rfl := Option.some.inj hstep
        refine ⟨rfl, fun last hlast => ?_⟩
        obtain ⟨-, hreaches⟩ := bestCandidate_mem hbest
        have habove : block.aboveFloor (some last.height) = true := by
          simp only [PendingBlock.reachesFinality, hlast, Option.map_some,
            Bool.and_eq_true] at hreaches
          exact hreaches.1.1.2
        simpa [PendingBlock.aboveFloor, PendingBlock.checkpoint] using habove

theorem FinalityTracker.step_silent {tracker : FinalityTracker} {op : FinalityOp}
    (hstep : (tracker.step op).2 = none) :
    (tracker.step op).1.lastFinalized = tracker.lastFinalized := by
  cases op with
  | track hash height slot totalWeight =>
      simp only [step, trackBlock]
      split <;> rfl
  | report hash attester weight evicted =>
      simp only [step, addAttestationWeight]
      split <;> rfl
  | prune minSlot => rfl
  | check appliedTipHeight =>
      simp only [step, checkFinality] at hstep ⊢
      split at hstep
      · rfl
      · contradiction

theorem FinalityTracker.returned_rising (ops : List FinalityOp)
    (tracker : FinalityTracker) :
    (∀ last, tracker.lastFinalized = some last →
      ∀ checkpoint ∈ tracker.returned ops, last.height < checkpoint.height) ∧
      (tracker.returned ops).Pairwise fun first second =>
        first.height < second.height := by
  induction ops generalizing tracker with
  | nil => simp [returned]
  | cons op ops ih =>
      obtain ⟨habove, hrising⟩ := ih (tracker.step op).1
      simp only [returned]
      cases hstep : (tracker.step op).2 with
      | none =>
          rw [step_silent hstep] at habove
          exact ⟨habove, hrising⟩
      | some checkpoint =>
          obtain ⟨hlast, hfloor⟩ := step_returns hstep
          have hlater := habove checkpoint hlast
          simp only [Option.toList_some, List.singleton_append, List.pairwise_cons,
            List.mem_cons, forall_eq_or_imp]
          exact ⟨fun last hbefore => ⟨hfloor last hbefore, fun later hmem =>
            (hfloor last hbefore).trans (hlater later hmem)⟩, hlater, hrising⟩

/-- Over every run of a new or a resumed tracker, the returned checkpoints rise
and each of them is earned. -/
theorem FinalityTracker.run_earned (lastFinalized : Option FinalityCheckpoint)
    (ops : List FinalityOp) :
    ((resume lastFinalized).returned ops).Pairwise
        (fun first second => first.height < second.height) ∧
      ∀ done appliedTipHeight rest checkpoint,
        ops = done ++ .check appliedTipHeight :: rest →
        (((resume lastFinalized).after done).checkFinality appliedTipHeight true).2 =
          some checkpoint →
            Earned done appliedTipHeight checkpoint :=
  ⟨(returned_rising ops (resume lastFinalized)).2,
    fun done _ _ _ _ hchecked => (Follows.after lastFinalized done).earned hchecked⟩

/-- A report before the block is tracked counts like one after it. -/
theorem FinalityTracker.run_earned_early :
    Earned [.report ⟨5⟩ ⟨9⟩ 40 ⟨0⟩, .track ⟨5⟩ 30 7 100, .report ⟨5⟩ ⟨10⟩ 27 ⟨0⟩]
      32 ⟨⟨5⟩, 30, 7, 67, 100⟩ :=
  (FinalityTracker.run_earned none
    [.report ⟨5⟩ ⟨9⟩ 40 ⟨0⟩, .track ⟨5⟩ 30 7 100, .report ⟨5⟩ ⟨10⟩ 27 ⟨0⟩,
      .check 32]).2 _ 32 [] _ rfl (by decide +kernel)

/-- At the top of the `u64` range the depth to reach saturates, and a block is
final without a descendant. -/
theorem FinalityTracker.final_at_the_top :
    ∃ checkpoint, ((new.after
        [.track ⟨5⟩ (2 ^ 64 - 1) 7 1, .report ⟨5⟩ ⟨9⟩ 1 ⟨0⟩]).checkFinality
          (2 ^ 64 - 1) true).2 = some checkpoint ∧
      ¬ checkpoint.height + confirmationDepth ≤ 2 ^ 64 - 1 := by
  refine ⟨⟨⟨5⟩, 2 ^ 64 - 1, 7, 1, 1⟩, by decide +kernel, by decide⟩

end Doli.Core
