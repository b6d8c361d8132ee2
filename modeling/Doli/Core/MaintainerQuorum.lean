import Doli.Core.Floor
import Doli.Core.Maintainer
import Doli.Lib.Quorum

/-!
# The quorum of the maintainers

A set starts empty or from the earliest registrations and changes by additions,
removals and forced removals.  Its threshold stays a majority of its distinct
members, so what two lists of signatures authorise has a signer in common.
-/

namespace Doli.Core

open Doli.Lib

namespace MaintainerSet

section Verification

variable (set : MaintainerSet) (codec : GovernanceCodec)
  (signatures : List MaintainerSignature) (message : Bytes)

def verifyDistinct (excluded : Option PublicKey) : Bool :=
  set.isAuthorizable &&
    decide (set.threshold ≤ set.countDistinctSigners codec signatures message excluded)

def verifyMultisig : Bool := set.verifyDistinct codec signatures message none

def verifyMultisigExcluding (excluded : PublicKey) : Bool :=
  set.verifyDistinct codec signatures message (some excluded)

end Verification

/-- Slashing removes below the minimum; the flag says whether it removed. -/
def forceRemoveMaintainer (set : MaintainerSet) (key : PublicKey) (height : Nat) :
    MaintainerSet × Bool :=
  if !set.isMaintainer key then (set, false)
  else (withMembers (set.members.filter (· ≠ key)) height, true)

end MaintainerSet

/-! ## Derivation from the chain -/

/-- A key that has a seat does not take another one. -/
def takeSeat (seated : List (PublicKey × Nat)) (registration : PublicKey × Nat) :
    List (PublicKey × Nat) :=
  if initialMaintainerCount ≤ seated.length then seated
  else if seated.any fun seen => seen.1 = registration.1 then seated
  else seated ++ [registration]

def seatedRegistrations (registrations : List (PublicKey × Nat)) :
    List (PublicKey × Nat) :=
  (registrations.insertionSort seniorLe).foldl takeSeat []

def deriveCanonicalMaintainerSet (registrations : List (PublicKey × Nat))
    (height : Nat) : MaintainerSet :=
  .withMembers ((seatedRegistrations registrations).map Prod.fst) height

inductive MaintainerChange where
  | add (data : MaintainerChangeData)
  | remove (data : MaintainerChangeData)
  deriving DecidableEq, Repr

inductive ReplayAction where
  | change (change : MaintainerChange)
  | slash (key : PublicKey)
  deriving DecidableEq, Repr

structure BlockchainReader where
  registrationsInOrder : List (Nat × PublicKey)
  maintainerChanges : List (Nat × MaintainerChange)
  slashedProducers : List (Nat × PublicKey)

def actionLe (left right : Nat × ReplayAction) : Prop := left.1 ≤ right.1

instance : DecidableRel actionLe := fun left right =>
  inferInstanceAs (Decidable (left.1 ≤ right.1))

/-- Changes come before the slashes of their height. -/
def BlockchainReader.replayActions (reader : BlockchainReader) (upToHeight : Nat) :
    List (Nat × ReplayAction) :=
  ((reader.maintainerChanges.filter (·.1 ≤ upToHeight)).map
      (fun entry => (entry.1, ReplayAction.change entry.2)) ++
    (reader.slashedProducers.filter (·.1 ≤ upToHeight)).map
      (fun entry => (entry.1, ReplayAction.slash entry.2))).insertionSort actionLe

section Replay

variable (codec : GovernanceCodec) (activationHeight : Nat)

def replayAction (set : MaintainerSet) (entry : Nat × ReplayAction) : MaintainerSet :=
  let height := entry.1
  match entry.2 with
  | .change (.add data) =>
      if set.verifyMultisigAt codec data.signatures
          (signingMessageLegacy true data.target) height activationHeight then
        (set.addMaintainer data.target height).toOption.getD set
      else set
  | .change (.remove data) =>
      if set.verifyMultisigExcludingAt codec data.signatures
          (signingMessageLegacy false data.target) data.target height
          activationHeight then
        (set.removeMaintainer data.target height).toOption.getD set
      else set
  | .slash key => (set.forceRemoveMaintainer key height).1

/-- `derive_maintainer_set` -/
def deriveMaintainerSet (reader : BlockchainReader) (upToHeight : Nat) : MaintainerSet :=
  let candidates := (reader.registrationsInOrder.filter (·.1 ≤ upToHeight)).map Prod.swap
  let seated := seatedRegistrations candidates
  (reader.replayActions upToHeight).foldl (replayAction codec activationHeight)
    (.withMembers (seated.map Prod.fst) ((seated.map Prod.snd).foldl max 0))

end Replay

/-! ## The runs of a set -/

namespace MaintainerSet

inductive Reachable : MaintainerSet → Prop
  | empty : Reachable .new
  | derived (registrations : List (PublicKey × Nat)) (height : Nat) :
      Reachable (deriveCanonicalMaintainerSet registrations height)
  | added {set next : MaintainerSet} {key : PublicKey} {height : Nat}
      (hreach : Reachable set) (hadd : set.addMaintainer key height = .ok next) :
      Reachable next
  | removed {set next : MaintainerSet} {key : PublicKey} {height : Nat}
      (hreach : Reachable set) (hremove : set.removeMaintainer key height = .ok next) :
      Reachable next
  | forced {set : MaintainerSet} (key : PublicKey) (height : Nat)
      (hreach : Reachable set) : Reachable (set.forceRemoveMaintainer key height).1

/-- What every change leaves behind. -/
structure Balanced (set : MaintainerSet) : Prop where
  nodup : set.members.Nodup
  bounded : set.members.length ≤ maxMaintainers
  majority : set = .new ∨ set.members.length < 2 * set.threshold

theorem length_lt_calculateThreshold (count : Nat) :
    count < 2 * calculateThreshold count := by
  unfold calculateThreshold maintainerThreshold
  split <;> omega

theorem Balanced.withMembers {members : List PublicKey} (hnodup : members.Nodup)
    (hbounded : members.length ≤ maxMaintainers) (height : Nat) :
    Balanced (withMembers members height) where
  nodup := hnodup
  bounded := hbounded
  majority := .inr (length_lt_calculateThreshold members.length)

theorem Balanced.without {set : MaintainerSet} (hset : Balanced set) (key : PublicKey)
    (height : Nat) : Balanced (.withMembers (set.members.filter (· ≠ key)) height) :=
  .withMembers (hset.nodup.filter _) ((List.length_filter_le _ _).trans hset.bounded) height

theorem Balanced.addMaintainer {set next : MaintainerSet} {key : PublicKey} {height : Nat}
    (hset : Balanced set) (hadd : set.addMaintainer key height = .ok next) :
    Balanced next := by
  unfold MaintainerSet.addMaintainer isMaintainer at hadd
  split at hadd
  case isTrue hfull => cases hadd
  case isFalse hroom =>
    split at hadd
    case isTrue hmember => cases hadd
    case isFalse hmember =>
      cases hadd
      apply Balanced.withMembers
      · simp only [decide_eq_true_eq] at hmember
        exact List.nodup_append.mpr ⟨hset.nodup, List.nodup_singleton key,
          fun member hold other hnew heq =>
            hmember (List.mem_singleton.mp hnew ▸ heq ▸ hold)⟩
      · rw [List.length_append, List.length_singleton]
        omega

theorem Balanced.removeMaintainer {set next : MaintainerSet} {key : PublicKey}
    {height : Nat} (hset : Balanced set)
    (hremove : set.removeMaintainer key height = .ok next) : Balanced next := by
  unfold MaintainerSet.removeMaintainer at hremove
  split at hremove
  case isTrue hmin => cases hremove
  case isFalse hmin =>
    split at hremove
    case isTrue hmember => cases hremove
    case isFalse hmember =>
      cases hremove
      exact hset.without key height

theorem Balanced.forceRemoveMaintainer {set : MaintainerSet} (hset : Balanced set)
    (key : PublicKey) (height : Nat) :
    Balanced (set.forceRemoveMaintainer key height).1 := by
  unfold MaintainerSet.forceRemoveMaintainer
  split
  case isTrue hmember => exact hset
  case isFalse hmember => exact hset.without key height

end MaintainerSet

/-- A seat list has room and one seat for each key. -/
def SeatsFair (seated : List (PublicKey × Nat)) : Prop :=
  (seated.map Prod.fst).Nodup ∧ seated.length ≤ initialMaintainerCount

theorem SeatsFair.takeSeat {seated : List (PublicKey × Nat)} (hseated : SeatsFair seated)
    (registration : PublicKey × Nat) : SeatsFair (takeSeat seated registration) := by
  unfold Core.takeSeat
  split
  case isTrue hfull => exact hseated
  case isFalse hroom =>
    split
    case isTrue hseen => exact hseated
    case isFalse hseen =>
      constructor
      · rw [List.map_append, List.map_singleton]
        refine List.nodup_append.mpr ⟨hseated.1, List.nodup_singleton _, ?_⟩
        intro key hold other hnew heq
        obtain ⟨seen, hmem, hkey⟩ := List.mem_map.mp hold
        apply hseen
        rw [List.any_eq_true]
        refine ⟨seen, hmem, ?_⟩
        rw [decide_eq_true_eq, hkey, heq, List.mem_singleton.mp hnew]
      · rw [List.length_append, List.length_singleton]
        omega

theorem seatedRegistrations_fair (registrations : List (PublicKey × Nat)) :
    SeatsFair (seatedRegistrations registrations) := by
  unfold seatedRegistrations
  suffices hgen : ∀ seated, SeatsFair seated →
      SeatsFair ((registrations.insertionSort seniorLe).foldl takeSeat seated) from
    hgen [] ⟨List.nodup_nil, Nat.zero_le _⟩
  induction registrations.insertionSort seniorLe with
  | nil => exact fun seated hseated => hseated
  | cons registration rest ih =>
      intro seated hseated
      exact ih (takeSeat seated registration) (hseated.takeSeat registration)

namespace MaintainerSet

theorem balanced_of_reachable {set : MaintainerSet} (hreach : Reachable set) :
    Balanced set := by
  induction hreach with
  | empty => exact ⟨List.nodup_nil, Nat.zero_le _, .inl rfl⟩
  | derived registrations height =>
      obtain ⟨hnodup, hlength⟩ := seatedRegistrations_fair registrations
      apply Balanced.withMembers hnodup
      rw [List.length_map]
      exact hlength
  | added hreach hadd ih => exact ih.addMaintainer hadd
  | removed hreach hremove ih => exact ih.removeMaintainer hremove
  | forced key height hreach ih => exact ih.forceRemoveMaintainer key height

theorem Reachable.replayAction {set : MaintainerSet} (hreach : Reachable set)
    (codec : GovernanceCodec) (activationHeight : Nat) (entry : Nat × ReplayAction) :
    Reachable (replayAction codec activationHeight set entry) := by
  obtain ⟨height, action⟩ := entry
  unfold Core.replayAction
  match action with
  | .change (.add data) =>
      simp only
      split
      case isTrue hverified =>
        cases hadd : set.addMaintainer data.target height with
        | error error => exact hreach
        | ok next => exact hreach.added hadd
      case isFalse hverified => exact hreach
  | .change (.remove data) =>
      simp only
      split
      case isTrue hverified =>
        cases hremove : set.removeMaintainer data.target height with
        | error error => exact hreach
        | ok next => exact hreach.removed hremove
      case isFalse hverified => exact hreach
  | .slash key => exact hreach.forced key height

theorem reachable_deriveMaintainerSet (codec : GovernanceCodec) (activationHeight : Nat)
    (reader : BlockchainReader) (upToHeight : Nat) :
    Reachable (deriveMaintainerSet codec activationHeight reader upToHeight) := by
  unfold deriveMaintainerSet
  simp only
  generalize reader.replayActions upToHeight = actions
  suffices hgen : ∀ set, Reachable set →
      Reachable (actions.foldl (Core.replayAction codec activationHeight) set) from
    hgen _ (.derived _ _)
  induction actions with
  | nil => exact fun set hreach => hreach
  | cons entry rest ih =>
      intro set hreach
      exact ih _ (hreach.replayAction codec activationHeight entry)

/-! ## What two authorisations share -/

section Authorisation

variable (codec : GovernanceCodec) (signatures : List MaintainerSignature)
  (message : Bytes)

/-- `key` has a valid entry in the list. -/
def SignedBy (key : PublicKey) : Prop :=
  ∃ sig ∈ signatures, sig.pubkey = key ∧
    codec.verify message sig.signature sig.pubkey = true

/-- One of the two verifiers accepts. -/
def Authorises (set : MaintainerSet) : Prop :=
  set.verifyMultisig codec signatures message = true ∨
    ∃ excluded, set.verifyMultisigExcluding codec signatures message excluded = true

end Authorisation

section Quorums

variable {codec : GovernanceCodec} {signatures : List MaintainerSignature}
  {message : Bytes} {set : MaintainerSet}

theorem quorumOf_verifyDistinct {excluded : Option PublicKey}
    (hmembers : set.members.Nodup)
    (hverify : set.verifyDistinct codec signatures message excluded = true) :
    QuorumOf set.members set.threshold fun key =>
      excluded ≠ some key ∧ SignedBy codec signatures message key := by
  unfold verifyDistinct countDistinctSigners at hverify
  rw [Bool.and_eq_true, decide_eq_true_eq] at hverify
  apply QuorumOf.of_countP hmembers hverify.2
  intro member haccepts
  simp only [Bool.and_eq_true, decide_eq_true_eq, List.any_eq_true] at haccepts
  exact haccepts

theorem isAuthorizable_of_verifyDistinct {excluded : Option PublicKey}
    (hverify : set.verifyDistinct codec signatures message excluded = true) :
    set.isAuthorizable = true := by
  unfold verifyDistinct at hverify
  exact (Bool.and_eq_true _ _ ▸ hverify).1

theorem Authorises.quorumOf (hmembers : set.members.Nodup)
    (hauth : Authorises codec signatures message set) :
    QuorumOf set.members set.threshold (SignedBy codec signatures message) := by
  rcases hauth with hverify | ⟨excluded, hverify⟩
  · exact (quorumOf_verifyDistinct hmembers hverify).mono fun key hkey => hkey.2
  · exact (quorumOf_verifyDistinct hmembers hverify).mono fun key hkey => hkey.2

theorem Authorises.ne_new (hauth : Authorises codec signatures message set) :
    set ≠ .new := by
  rintro rfl
  rcases hauth with hverify | ⟨excluded, hverify⟩
  · cases isAuthorizable_of_verifyDistinct hverify
  · cases isAuthorizable_of_verifyDistinct hverify

end Quorums

theorem maintainer_quorum (codec : GovernanceCodec) {set : MaintainerSet}
    (hreach : Reachable set) :
    set.members.Nodup ∧ set.members.length ≤ maxMaintainers ∧
      (set = .new ∨ set.members.length < 2 * set.threshold) ∧
      (∀ signatures message, set.verifyMultisig codec signatures message = true →
        QuorumOf set.members set.threshold (SignedBy codec signatures message)) ∧
      (∀ signatures message excluded,
        set.verifyMultisigExcluding codec signatures message excluded = true →
        QuorumOf set.members set.threshold fun key =>
          key ≠ excluded ∧ SignedBy codec signatures message key) ∧
      ∀ first firstMessage second secondMessage,
        Authorises codec first firstMessage set →
        Authorises codec second secondMessage set →
        ∃ key ∈ set.members, SignedBy codec first firstMessage key ∧
          SignedBy codec second secondMessage key := by
  have hset := balanced_of_reachable hreach
  refine ⟨hset.nodup, hset.bounded, hset.majority, ?_, ?_, ?_⟩
  · intro signatures message hverify
    exact Authorises.quorumOf hset.nodup (.inl hverify)
  · intro signatures message excluded hverify
    apply (quorumOf_verifyDistinct hset.nodup hverify).mono
    rintro key ⟨hkey, hsigned⟩
    exact ⟨fun heq => hkey (congrArg some heq.symm), hsigned⟩
  · intro first firstMessage second secondMessage hfirst hsecond
    have hmajority := hset.majority.resolve_left hfirst.ne_new
    exact QuorumOf.common hmajority (hfirst.quorumOf hset.nodup)
      (hsecond.quorumOf hset.nodup)

/-- Three registrations seated by age, the last of them slashed. -/
def sampleMaintainers : MaintainerSet :=
  ((deriveCanonicalMaintainerSet [(⟨3⟩, 7), (⟨1⟩, 0), (⟨2⟩, 0), (⟨1⟩, 4)]
    9).forceRemoveMaintainer ⟨3⟩ 12).1

def sampleGovernanceCodec : GovernanceCodec where
  verify _ signature key := signature.word.toNat = key.word.toNat
  decodeChange _ := none
  decodeActivation _ := none

theorem maintainer_quorum_after_slash :
    sampleMaintainers = ⟨[⟨1⟩, ⟨2⟩], 2, 12⟩ ∧
      ∃ key ∈ sampleMaintainers.members,
        SignedBy sampleGovernanceCodec [⟨⟨1⟩, ⟨1⟩⟩, ⟨⟨1⟩, ⟨1⟩⟩, ⟨⟨3⟩, ⟨3⟩⟩, ⟨⟨2⟩, ⟨2⟩⟩] [7] key ∧
          SignedBy sampleGovernanceCodec [⟨⟨2⟩, ⟨2⟩⟩, ⟨⟨1⟩, ⟨1⟩⟩] [8] key := by
  have hquorum := @maintainer_quorum sampleGovernanceCodec sampleMaintainers
    (.forced ⟨3⟩ 12 (.derived [(⟨3⟩, 7), (⟨1⟩, 0), (⟨2⟩, 0), (⟨1⟩, 4)] 9))
  refine ⟨by decide +kernel, ?_⟩
  exact hquorum.2.2.2.2.2 _ _ _ _ (.inl (by decide +kernel))
    (.inr ⟨⟨3⟩, by decide +kernel⟩)

/-- The set as created has no members and threshold 0. -/
theorem new_set_without_majority :
    ¬ ∀ set : MaintainerSet, Reachable set → set.members.length < 2 * set.threshold := by
  intro hmajority
  exact absurd (hmajority .new .empty) (by decide)

end MaintainerSet

end Doli.Core
