import Doli.Lib.Grouping
import Doli.Node.MaintainerUndo

/-!
# The maintainers that a quorum of peers answers

`select_quorum_maintainer_state`: what an empty root adopts is carried by more than half of
the answers that count.  The digest of an answer sorts its members and its body does not, so
the order of the answers shows where members of one digest are listed in two orders.
-/

namespace Doli.Node

open Doli.Core Doli.Lib Doli.Storage Doli.Producer

structure PeerMaintainerAnswer where
  set : MaintainerSet
  lastDerivedHeight : Nat
  digest : Hash
  tipHeight : Nat
  deriving DecidableEq, Repr

/-- `digest` is `none` where the local set is empty. -/
structure LocalRootView where
  digest : Option Hash
  lastDerivedHeight : Nat
  deriving DecidableEq, Repr

inductive KeepReason where
  | notEligible
  | noAnswers
  | noQuorum (largest quorum : Nat)
  | tie
  | noMajority (largest counted : Nat)
  deriving DecidableEq, Repr

inductive QuorumVerdict where
  | adopt (set : MaintainerSet) (agreeing : Nat)
  | keep (reason : KeepReason)
  deriving DecidableEq, Repr

def LocalRootView.quorumEligible (view : LocalRootView) : Bool :=
  view.digest.isNone && decide (0 < view.lastDerivedHeight)

/-- The answers that count. -/
def LocalRootView.validAnswers (view : LocalRootView) (answers : List PeerMaintainerAnswer) :
    List PeerMaintainerAnswer :=
  answers.filter fun answer =>
    decide (view.lastDerivedHeight ≤ answer.tipHeight) && !answer.set.members.isEmpty

/-- Why no group is adopted, from the sizes of the groups. -/
def keepReason (sizes : List Nat) (counted quorum : Nat) : Option KeepReason :=
  let largest := sizes.max?.getD 0
  if 1 < sizes.count largest then some .tie
  else if largest < quorum then some (.noQuorum largest quorum)
  else if largest * 2 ≤ counted then some (.noMajority largest counted)
  else none

/-- The body of the first answer, under the earliest update of the group. -/
def adoptGroup (best : List PeerMaintainerAnswer) (largest : Nat) : QuorumVerdict :=
  match best with
  | [] => .keep .noAnswers
  | first :: _ =>
      .adopt { first.set with
        lastUpdated := ((best.map fun answer => answer.set.lastUpdated).min?).getD
          first.set.lastUpdated } largest

def selectQuorumMaintainerState (view : LocalRootView) (answers : List PeerMaintainerAnswer)
    (quorum : Nat) : QuorumVerdict :=
  if view.quorumEligible = false then .keep .notEligible
  else
    let valid := view.validAnswers answers
    if valid = [] then .keep .noAnswers
    else
      let groups := groupItems PeerMaintainerAnswer.digest valid
      let largest := (groupSizes groups).max?.getD 0
      match keepReason (groupSizes groups) valid.length quorum with
      | some reason => .keep reason
      | none =>
          adoptGroup ((groups.find? fun group => group.2.length = largest).elim [] Prod.snd)
            largest

/-! ## What is adopted -/

section Adoption

variable {view : LocalRootView} {answers other : List PeerMaintainerAnswer} {quorum : Nat}
  {set : MaintainerSet} {agreeing : Nat} {digest : Hash}

/-- The answers that count and carry a digest, in their order. -/
def carriers (view : LocalRootView) (answers : List PeerMaintainerAnswer) (digest : Hash) :
    List PeerMaintainerAnswer :=
  groupOf PeerMaintainerAnswer.digest (view.validAnswers answers) digest

/-- More than half of the answers that count, and a quorum of them, carry the digest. -/
structure Carried (view : LocalRootView) (answers : List PeerMaintainerAnswer) (quorum : Nat)
    (digest : Hash) : Prop where
  eligible : view.quorumEligible = true
  majority : (view.validAnswers answers).length < 2 * (carriers view answers digest).length
  quorum : quorum ≤ (carriers view answers digest).length

theorem keepReason_eq_none {sizes : List Nat} {counted : Nat} :
    keepReason sizes counted quorum = none ↔
      sizes.count (sizes.max?.getD 0) ≤ 1 ∧ quorum ≤ sizes.max?.getD 0 ∧
        counted < 2 * sizes.max?.getD 0 := by
  unfold keepReason
  simp only
  split_ifs <;> simp only [false_iff, true_iff] <;> omega

theorem select_of_carried (hcarried : Carried view answers quorum digest) :
    selectQuorumMaintainerState view answers quorum =
      adoptGroup (carriers view answers digest) (carriers view answers digest).length := by
  have hmajority : (view.validAnswers answers).length <
      2 * share PeerMaintainerAnswer.digest (view.validAnswers answers) digest :=
    hcarried.majority
  have hsome : view.validAnswers answers ≠ [] := by
    intro hnil
    have hlabel := mem_of_majority hmajority
    rw [hnil] at hlabel
    contradiction
  have hlargest := max?_groupSizes_of_majority hmajority
  have hreason : keepReason
      (groupSizes (groupItems PeerMaintainerAnswer.digest (view.validAnswers answers)))
      (view.validAnswers answers).length quorum = none := by
    rw [keepReason_eq_none, hlargest, Option.getD_some, count_groupSizes_of_majority hmajority]
    exact ⟨Nat.le_refl 1, hcarried.quorum, hmajority⟩
  unfold selectQuorumMaintainerState
  rw [if_neg (by simp [hcarried.eligible]), if_neg hsome]
  simp only [hreason, hlargest, Option.getD_some, find?_group_of_majority hmajority,
    Option.elim_some]
  rfl

theorem carried_of_reason (heligible : view.quorumEligible = true)
    (hreason : keepReason
      (groupSizes (groupItems PeerMaintainerAnswer.digest (view.validAnswers answers)))
      (view.validAnswers answers).length quorum = none) :
    ∃ digest, Carried view answers quorum digest := by
  obtain ⟨-, hquorum, hmajority⟩ := keepReason_eq_none.mp hreason
  cases hlargest : (groupSizes (groupItems PeerMaintainerAnswer.digest
      (view.validAnswers answers))).max? with
  | none =>
      rw [hlargest] at hmajority
      exact absurd hmajority (Nat.not_lt_zero _)
  | some largest =>
      rw [hlargest, Option.getD_some] at hquorum hmajority
      obtain ⟨group, hgroup, rfl⟩ := List.mem_map.mp (List.max?_eq_some_iff.mp hlargest).1
      rw [(mem_groupItems.mp hgroup).2] at hquorum hmajority
      exact ⟨group.1, heligible, hmajority, hquorum⟩

theorem select_eq_adopt_iff :
    selectQuorumMaintainerState view answers quorum = .adopt set agreeing ↔
      ∃ digest, Carried view answers quorum digest ∧
        adoptGroup (carriers view answers digest) (carriers view answers digest).length =
          .adopt set agreeing := by
  constructor
  · intro hselect
    suffices hcarried : ∃ digest, Carried view answers quorum digest by
      obtain ⟨digest, hcarried⟩ := hcarried
      exact ⟨digest, hcarried, select_of_carried hcarried ▸ hselect⟩
    unfold selectQuorumMaintainerState at hselect
    split at hselect
    case isTrue => contradiction
    case isFalse heligible =>
      simp only at hselect
      split at hselect
      case isTrue => contradiction
      case isFalse =>
        split at hselect
        case h_1 => contradiction
        case h_2 hreason => exact carried_of_reason (by simpa using heligible) hreason
  · rintro ⟨digest, hcarried, hadopt⟩
    rw [select_of_carried hcarried, hadopt]

theorem adoptGroup_eq_adopt {best : List PeerMaintainerAnswer} {largest : Nat}
    (hadopt : adoptGroup best largest = .adopt set agreeing) :
    agreeing = largest ∧ ∃ first ∈ best, set.members = first.set.members ∧
      set.threshold = first.set.threshold := by
  cases best with
  | nil => contradiction
  | cons first rest =>
      obtain ⟨rfl, rfl⟩ := QuorumVerdict.adopt.inj hadopt
      exact ⟨rfl, first, List.mem_cons_self, rfl, rfl⟩

theorem maintainerSetDigest_congr {prim : Primitives} {first second : MaintainerSet}
    (hmembers : first.members = second.members) (hthreshold : first.threshold = second.threshold)
    (genesisHash : Hash) :
    maintainerSetDigest prim first genesisHash = maintainerSetDigest prim second genesisHash := by
  rw [maintainerSetDigest, maintainerSetDigest, hmembers, hthreshold]

end Adoption

/-! ## The order of the answers -/

section Order

variable {view : LocalRootView} {answers other : List PeerMaintainerAnswer} {quorum : Nat}
  {digest : Hash}

def SameBody (first second : PeerMaintainerAnswer) : Prop :=
  first.set.members = second.set.members ∧ first.set.threshold = second.set.threshold

/-- Where a digest is carried, its answers list the same members in the same order. -/
def OneBody (view : LocalRootView) (answers : List PeerMaintainerAnswer) (quorum : Nat) : Prop :=
  ∀ digest, Carried view answers quorum digest →
    ∀ first ∈ carriers view answers digest, ∀ second ∈ carriers view answers digest,
      SameBody first second

theorem carriers_perm (hperm : other.Perm answers) :
    (carriers view other digest).Perm (carriers view answers digest) :=
  (hperm.filter _).filter _

theorem Carried.perm (hcarried : Carried view answers quorum digest)
    (hperm : other.Perm answers) : Carried view other quorum digest where
  eligible := hcarried.eligible
  majority := by
    have hvalid : (view.validAnswers other).Perm (view.validAnswers answers) := hperm.filter _
    rw [hvalid.length_eq, (carriers_perm hperm).length_eq]
    exact hcarried.majority
  quorum := by
    rw [(carriers_perm hperm).length_eq]
    exact hcarried.quorum

theorem keepReason_perm {first second : List Nat} (hperm : first.Perm second)
    (counted quorum : Nat) :
    keepReason first counted quorum = keepReason second counted quorum := by
  unfold keepReason
  simp only [max?_perm hperm, hperm.count_eq]

theorem adoptGroup_perm {first second : List PeerMaintainerAnswer} (hperm : first.Perm second)
    (hbody : ∀ left ∈ first, ∀ right ∈ first, SameBody left right) (largest : Nat) :
    adoptGroup first largest = adoptGroup second largest := by
  have hupdated := min?_perm (hperm.map fun answer => answer.set.lastUpdated)
  cases first with
  | nil => rw [hperm.nil_eq]
  | cons left first =>
      cases second with
      | nil => exact absurd hperm.eq_nil (List.cons_ne_nil _ _)
      | cons right second =>
          have hright : right ∈ left :: first := hperm.mem_iff.mpr List.mem_cons_self
          obtain ⟨hmembers, hthreshold⟩ := hbody left List.mem_cons_self right hright
          obtain ⟨earliest, hearliest⟩ : ∃ earliest, ((left :: first).map fun answer =>
              answer.set.lastUpdated).min? = some earliest := by
            rw [← Option.isSome_iff_exists, List.isSome_min?_iff]
            exact List.cons_ne_nil _ _
          simp only [adoptGroup, ← hupdated, hearliest, Option.getD_some, hmembers, hthreshold]

theorem select_perm (hbody : OneBody view answers quorum) (hperm : other.Perm answers) :
    selectQuorumMaintainerState view other quorum =
      selectQuorumMaintainerState view answers quorum := by
  have hvalid : (view.validAnswers other).Perm (view.validAnswers answers) := hperm.filter _
  have hreason := keepReason_perm
    (@groupSizes_perm _ _ _ PeerMaintainerAnswer.digest _ _ hvalid)
    (view.validAnswers answers).length quorum
  cases heligible : view.quorumEligible with
  | false =>
      unfold selectQuorumMaintainerState
      rw [if_pos heligible, if_pos heligible]
  | true =>
      have hopen : ¬ view.quorumEligible = false := by simp [heligible]
      by_cases hnil : view.validAnswers answers = []
      · have hother : view.validAnswers other = [] := by
          rw [hnil] at hvalid
          exact hvalid.eq_nil
        unfold selectQuorumMaintainerState
        rw [if_neg hopen, if_neg hopen]
        simp only [hnil, hother]
      · cases hkeep : keepReason (groupSizes (groupItems PeerMaintainerAnswer.digest
            (view.validAnswers answers))) (view.validAnswers answers).length quorum with
        | some reason =>
            have hother : view.validAnswers other ≠ [] := by
              intro hempty
              rw [hempty] at hvalid
              exact hnil hvalid.symm.eq_nil
            unfold selectQuorumMaintainerState
            rw [if_neg hopen, if_neg hopen]
            simp only [if_neg hnil, if_neg hother, hvalid.length_eq, hreason, hkeep]
        | none =>
            obtain ⟨digest, hcarried⟩ := carried_of_reason heligible hkeep
            have hcarriers : (carriers view other digest).Perm (carriers view answers digest) :=
              carriers_perm hperm
            rw [select_of_carried hcarried, select_of_carried (hcarried.perm hperm),
              hcarriers.length_eq]
            refine (adoptGroup_perm hcarriers.symm ?_ _).symm
            exact hbody digest hcarried

theorem carriers_moved {answer : PeerMaintainerAnswer}
    (hanswer : answer ∈ carriers view answers digest) :
    carriers view (answer :: answers.erase answer) digest =
      answer :: carriers view (answers.erase answer) digest := by
  obtain ⟨hvalid, hdigest⟩ := mem_groupOf.mp hanswer
  have hcounts := (List.mem_filter.mp hvalid).2
  have hfirst : view.validAnswers (answer :: answers.erase answer) =
      answer :: view.validAnswers (answers.erase answer) :=
    List.filter_cons_of_pos hcounts
  rw [carriers, hfirst, groupOf, List.filter_cons_of_pos (by simpa using hdigest)]
  rfl

theorem oneBody_of_select_perm
    (horder : ∀ other : List PeerMaintainerAnswer, other.Perm answers →
      selectQuorumMaintainerState view other quorum =
        selectQuorumMaintainerState view answers quorum) :
    OneBody view answers quorum := by
  have hmoved : ∀ digest, Carried view answers quorum digest →
      ∀ answer ∈ carriers view answers digest, ∃ set agreeing,
        selectQuorumMaintainerState view answers quorum = .adopt set agreeing ∧
          set.members = answer.set.members ∧ set.threshold = answer.set.threshold := by
    intro digest hcarried answer hanswer
    have hmem : answer ∈ answers :=
      (List.mem_filter.mp (mem_groupOf.mp hanswer).1).1
    have hperm : (answer :: answers.erase answer).Perm answers :=
      (List.perm_cons_erase hmem).symm
    rw [← horder _ hperm, select_of_carried (hcarried.perm hperm), carriers_moved hanswer]
    exact ⟨_, _, rfl, rfl, rfl⟩
  intro digest hcarried first hfirst second hsecond
  obtain ⟨set, agreeing, hselect, hmembers, hthreshold⟩ := hmoved digest hcarried first hfirst
  obtain ⟨same, _, hagain, hsame, hequal⟩ := hmoved digest hcarried second hsecond
  rw [hselect] at hagain
  obtain ⟨rfl, -⟩ := QuorumVerdict.adopt.inj hagain
  exact ⟨hmembers.symm.trans hsame, hthreshold.symm.trans hequal⟩

/-- What is adopted has a digest that more than half of the answers that count, and a quorum
of them, carry; and the order of the answers is of no account exactly where the answers of such
a digest have one body. -/
theorem quorum_verdict_iff (prim : Primitives) (genesisHash : Hash) (view : LocalRootView)
    (answers : List PeerMaintainerAnswer) (quorum : Nat)
    (hdigests : ∀ answer ∈ answers,
      answer.digest = maintainerSetDigest prim answer.set genesisHash) :
    (∀ set agreeing, selectQuorumMaintainerState view answers quorum = .adopt set agreeing →
      view.digest = none ∧ 0 < view.lastDerivedHeight ∧
        agreeing = (carriers view answers (maintainerSetDigest prim set genesisHash)).length ∧
          quorum ≤ agreeing ∧ (view.validAnswers answers).length < 2 * agreeing) ∧
    ((∀ other : List PeerMaintainerAnswer, other.Perm answers →
        selectQuorumMaintainerState view other quorum =
          selectQuorumMaintainerState view answers quorum) ↔
      OneBody view answers quorum) := by
  refine ⟨?adopted, oneBody_of_select_perm, fun hbody other hperm => select_perm hbody hperm⟩
  case adopted =>
    intro set agreeing hselect
    obtain ⟨digest, hcarried, hadopt⟩ := select_eq_adopt_iff.mp hselect
    obtain ⟨rfl, first, hfirst, hmembers, hthreshold⟩ := adoptGroup_eq_adopt hadopt
    obtain ⟨hvalid, hdigest⟩ := mem_groupOf.mp hfirst
    have hset : maintainerSetDigest prim set genesisHash = digest := by
      rw [maintainerSetDigest_congr hmembers hthreshold, ← hdigest]
      exact (hdigests first (List.mem_filter.mp hvalid).1).symm
    have heligible := hcarried.eligible
    simp only [LocalRootView.quorumEligible, Bool.and_eq_true, Option.isNone_iff_eq_none,
      decide_eq_true_eq] at heligible
    rw [hset]
    exact ⟨heligible.1, heligible.2, rfl, hcarried.quorum, hcarried.majority⟩

end Order

/-- An answer of a set, as the caller lets it pass. -/
def sampleAnswer (members : List PublicKey) (height : Nat) : PeerMaintainerAnswer where
  set := .withMembers members height
  lastDerivedHeight := 30
  digest := maintainerSetDigest samplePrimitives (.withMembers members height) ⟨7⟩
  tipHeight := 30

theorem quorum_verdict_iff_sample :
    (carriers ⟨none, 30⟩ [sampleAnswer [⟨1⟩, ⟨2⟩, ⟨3⟩] 9, sampleAnswer [⟨4⟩] 0,
        sampleAnswer [⟨1⟩, ⟨2⟩, ⟨3⟩] 1]
      (maintainerSetDigest samplePrimitives (.withMembers [⟨1⟩, ⟨2⟩, ⟨3⟩] 1) ⟨7⟩)).length = 2 := by
  have hadopted := (quorum_verdict_iff samplePrimitives ⟨7⟩ ⟨none, 30⟩
    [sampleAnswer [⟨1⟩, ⟨2⟩, ⟨3⟩] 9, sampleAnswer [⟨4⟩] 0, sampleAnswer [⟨1⟩, ⟨2⟩, ⟨3⟩] 1] 2
    (by simp [sampleAnswer])).1 (.withMembers [⟨1⟩, ⟨2⟩, ⟨3⟩] 1) 2 (by decide +kernel)
  exact hadopted.2.2.1.symm

/-- Two peers list the same three maintainers in two orders: whoever answers first decides
which of the two lists is adopted. -/
theorem member_order_follows_answers :
    maintainerSetDigest samplePrimitives (.withMembers [⟨1⟩, ⟨2⟩, ⟨3⟩] 9) ⟨7⟩ =
        maintainerSetDigest samplePrimitives (.withMembers [⟨2⟩, ⟨1⟩, ⟨3⟩] 9) ⟨7⟩ ∧
      selectQuorumMaintainerState ⟨none, 30⟩
          [sampleAnswer [⟨1⟩, ⟨2⟩, ⟨3⟩] 9, sampleAnswer [⟨2⟩, ⟨1⟩, ⟨3⟩] 9] 2 =
        .adopt (.withMembers [⟨1⟩, ⟨2⟩, ⟨3⟩] 9) 2 ∧
      selectQuorumMaintainerState ⟨none, 30⟩
          [sampleAnswer [⟨2⟩, ⟨1⟩, ⟨3⟩] 9, sampleAnswer [⟨1⟩, ⟨2⟩, ⟨3⟩] 9] 2 =
        .adopt (.withMembers [⟨2⟩, ⟨1⟩, ⟨3⟩] 9) 2 := by
  decide +kernel

end Doli.Node
