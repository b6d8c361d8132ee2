import Doli.Producer.Discipline
import Doli.Producer.Set

/-!
# BLS keys

The stateful half of a rotation: four facts about the set decide whether the rotation is
queued.  A key is held by the producer registered with it and by the one a queued
registration or rotation brings it to.
-/

namespace Doli.Producer

open Doli.Core Doli.Lib Doli.Storage

structure RotationInputs where
  senderRegistered : Bool
  currentBls : Option Bytes
  keyInUse : Bool
  alreadyPending : Bool
  deriving DecidableEq, Repr

inductive RotateSkip where
  | notProducer
  | sameKey
  | alreadyPending
  | keyInUse
  deriving DecidableEq, Repr

def rotateVerdict (data : RotateBlsData) (inputs : RotationInputs) :
    Except RotateSkip Unit :=
  if !inputs.senderRegistered then .error .notProducer
  else if inputs.currentBls = some data.newBlsPubkey then .error .sameKey
  else if inputs.alreadyPending then .error .alreadyPending
  else if inputs.keyInUse then .error .keyInUse
  else .ok ()

namespace ProducerSet

variable (prim : Primitives) (set : ProducerSet)

def queuedRegisterKey (key : PublicKey) : Option Bytes :=
  set.pendingUpdates.findSome? fun update =>
    match update with
    | .register info _ => if info.publicKey = key then some info.blsPubkey else none
    | _ => none

def resolveRotationInputs (data : RotateBlsData) : RotationInputs :=
  let sender : Bool × Option Bytes :=
    match set.getByPubkey prim data.producer with
    | some info => (info.status = .active, some info.blsPubkey)
    | none =>
        match set.queuedRegisterKey data.producer with
        | some bls => (true, some bls)
        | none => (false, none)
  let heldByOther := set.producers.any fun _ info =>
    info.publicKey ≠ data.producer ∧ info.blsPubkey = data.newBlsPubkey
  let reservedByQueue := set.pendingUpdates.any fun update =>
    match update with
    | .rotateBlsKey _ newBlsPubkey _ => newBlsPubkey = data.newBlsPubkey
    | .register info _ => info.blsPubkey = data.newBlsPubkey
    | _ => false
  let alreadyPending := set.pendingUpdates.any fun update =>
    match update with
    | .rotateBlsKey pubkey _ _ => pubkey = data.producer
    | _ => false
  { senderRegistered := sender.1
    currentBls := sender.2
    keyInUse := heldByOther || reservedByQueue
    alreadyPending := alreadyPending }

/-- An accepted rotation is queued; a skip leaves the set as it is. -/
def applyRotation (data : RotateBlsData) (height : Nat) :
    Except RotateSkip ProducerSet :=
  match rotateVerdict data (set.resolveRotationInputs prim data) with
  | .error skip => .error skip
  | .ok () =>
      .ok (set.queueUpdate (.rotateBlsKey data.producer data.newBlsPubkey height))

end ProducerSet

/-!
## Who holds a key

A flush brings no new holder, and a rotation is refused when another producer holds its
key.
-/

/-- The producer and the key it will have once the update is applied. -/
def PendingProducerUpdate.introducedKey :
    PendingProducerUpdate → Option (PublicKey × Bytes)
  | .register info _ => some (info.publicKey, info.blsPubkey)
  | .rotateBlsKey pubkey newBlsPubkey _ => some (pubkey, newBlsPubkey)
  | _ => none

namespace ProducerSet

variable {prim : Primitives} {set next : ProducerSet} {owner hash : Hash} {bls : Bytes}

inductive HoldsKey (prim : Primitives) (set : ProducerSet) : Hash → Bytes → Prop
  | registered {hash info} : set.producers.lookup hash = some info →
      HoldsKey prim set hash info.blsPubkey
  | queued {update pubkey bls} : update ∈ set.pendingUpdates →
      update.introducedKey = some (pubkey, bls) →
      HoldsKey prim set (prim.cryptoHash pubkey) bls

/-- No two producers hold one key; no key at all is not a key. -/
def BlsKeysUnique (prim : Primitives) (set : ProducerSet) : Prop :=
  ∀ bls, bls ≠ [] → ∀ left right, HoldsKey prim set left bls →
    HoldsKey prim set right bls → left = right

/-- The map files each producer under the hash of its public key. -/
def Keyed (prim : Primitives) (set : ProducerSet) : Prop :=
  ∀ hash info, set.producers.lookup hash = some info →
    prim.cryptoHash info.publicKey = hash

theorem BlsKeysUnique.mono (hunique : BlsKeysUnique prim set)
    (hholds : ∀ owner bls, HoldsKey prim next owner bls → HoldsKey prim set owner bls) :
    BlsKeysUnique prim next :=
  fun bls hbls left right hleft hright =>
    hunique bls hbls left right (hholds _ _ hleft) (hholds _ _ hright)

theorem not_holdsKey_new : ¬HoldsKey prim .new owner bls := by
  intro hholds
  cases hholds with
  | registered hlookup => simp [new] at hlookup
  | queued hqueued _ => simp [new] at hqueued

theorem keyed_new (prim : Primitives) : Keyed prim .new := by
  intro hash info hlookup
  simp [new] at hlookup

theorem blsKeysUnique_new (prim : Primitives) : BlsKeysUnique prim .new :=
  fun _ _ _ _ hleft => absurd hleft not_holdsKey_new

/-! ## The queue -/

section Queue

variable {update : PendingProducerUpdate} {pubkey : PublicKey}

theorem holdsKey_queueUpdate :
    HoldsKey prim (set.queueUpdate update) owner bls ↔
      HoldsKey prim set owner bls ∨
        ∃ pubkey, update.introducedKey = some (pubkey, bls) ∧
          owner = prim.cryptoHash pubkey := by
  constructor
  · intro hholds
    cases hholds with
    | registered hlookup => exact .inl (.registered hlookup)
    | queued hqueued hkey =>
        rcases List.mem_append.mp hqueued with hold | hnew
        · exact .inl (.queued hold hkey)
        · exact .inr ⟨_, List.mem_singleton.mp hnew ▸ hkey, rfl⟩
  · rintro (hholds | ⟨pubkey, hkey, rfl⟩)
    · cases hholds with
      | registered hlookup => exact .registered hlookup
      | queued hqueued hkey => exact .queued (List.mem_append_left _ hqueued) hkey
    · exact .queued (List.mem_append_right _ (List.mem_singleton_self _)) hkey

theorem BlsKeysUnique.queueUpdate_iff (hunique : BlsKeysUnique prim set)
    (hkey : update.introducedKey = some (pubkey, bls)) :
    BlsKeysUnique prim (set.queueUpdate update) ↔
      (bls ≠ [] →
        ∀ owner, HoldsKey prim set owner bls → owner = prim.cryptoHash pubkey) := by
  constructor
  · intro hafter hbls owner hholds
    exact hafter bls hbls _ _ (holdsKey_queueUpdate.mpr (.inl hholds))
      (holdsKey_queueUpdate.mpr (.inr ⟨pubkey, hkey, rfl⟩))
  · intro hfree other hother left right hleft hright
    -- A holder after the update is one from before, or the producer of the update.
    have hcases : ∀ owner, HoldsKey prim (set.queueUpdate update) owner other →
        HoldsKey prim set owner other ∨ bls = other ∧ owner = prim.cryptoHash pubkey := by
      intro owner hholds
      rcases holdsKey_queueUpdate.mp hholds with hheld | ⟨holder, hnew, howner⟩
      · exact .inl hheld
      · rw [hkey, Option.some.injEq, Prod.mk.injEq] at hnew
        exact .inr ⟨hnew.2, hnew.1 ▸ howner⟩
    rcases hcases left hleft with hleft | ⟨rfl, rfl⟩
    · rcases hcases right hright with hright | ⟨rfl, rfl⟩
      · exact hunique other hother left right hleft hright
      · exact hfree hother left hleft
    · rcases hcases right hright with hright | ⟨-, rfl⟩
      · exact (hfree hother right hright).symm
      · rfl

end Queue

/-! ## The flush -/

/-- The part of a record that names the producer and its key. -/
def identity (info : ProducerInfo) : PublicKey × Bytes :=
  (info.publicKey, info.blsPubkey)

/-- Every producer of `next` is one of `set`, with the same key. -/
def SameIdentities (set next : ProducerSet) : Prop :=
  ∀ hash, (next.producers.lookup hash).map identity =
    (set.producers.lookup hash).map identity

theorem identity_ignoresDelegation : IgnoresDelegation identity := fun _ _ _ _ => rfl

namespace SameIdentities

theorem refl (set : ProducerSet) : SameIdentities set set := SameView.refl set

theorem trans {middle : ProducerSet} (hfirst : SameIdentities set middle)
    (hsecond : SameIdentities middle next) : SameIdentities set next :=
  SameView.trans hfirst hsecond

theorem modify {change : ProducerInfo → ProducerInfo}
    (hchange : ∀ info, identity (change info) = identity info) :
    SameIdentities set (set.modify hash change) :=
  SameView.modify hchange

theorem cleanup (hash : Hash) :
    SameIdentities set (set.cleanupAllDelegations prim hash) :=
  SameView.cleanup identity_ignoresDelegation hash

theorem holds (hsame : SameIdentities set next) {info : ProducerInfo}
    (hlookup : next.producers.lookup hash = some info) :
    ∃ before, set.producers.lookup hash = some before ∧
      before.publicKey = info.publicKey ∧ before.blsPubkey = info.blsPubkey := by
  have hidentity := hsame hash
  rw [hlookup, Option.map_some, eq_comm, Option.map_eq_some_iff] at hidentity
  obtain ⟨before, hbefore, hsame⟩ := hidentity
  exact ⟨before, hbefore, Prod.mk.inj hsame⟩

end SameIdentities

theorem identity_addBonds (outpoints : List Outpoint) (unit slot : Nat)
    (info : ProducerInfo) :
    identity (info.addBonds outpoints unit slot).1 = identity info := by
  unfold ProducerInfo.addBonds
  split <;> rfl

theorem identity_applyWithdrawal (count unit : Nat) (info : ProducerInfo) :
    identity (info.applyWithdrawal count unit) = identity info := by
  have htaken : ∀ unit, identity (info.takeWithdrawal count unit) = identity info := by
    intro unit
    simp only [ProducerInfo.takeWithdrawal]
    split <;> rfl
  unfold ProducerInfo.applyWithdrawal
  dsimp only
  generalize (if unit = 0 then coreBondUnit else unit) = unit
  split
  · exact htaken unit
  · exact htaken unit

theorem sameIdentities_applyUpdate {update : PendingProducerUpdate} (cap : Nat)
    (hnone : update.introducedKey = none) :
    SameIdentities set (set.applyUpdate prim cap update) := by
  cases update with
  | register info height => contradiction
  | rotateBlsKey pubkey newBlsPubkey height => contradiction
  | exit pubkey height =>
      simp only [applyUpdate, requestExit]
      split
      · exact .refl set
      split
      · have hstarted : SameIdentities set
            (set.modify (prim.cryptoHash pubkey) (·.startUnbonding height)) :=
          .modify fun _ => rfl
        exact hstarted.trans (.cleanup _)
      · exact .refl set
  | slash pubkey height =>
      simp only [applyUpdate, slashProducer]
      split
      · exact .refl set
      split
      · exact .refl set
      · have hslashed : SameIdentities set
            (set.modify (prim.cryptoHash pubkey) (·.slash height)) :=
          .modify fun _ => rfl
        exact hslashed.trans (.cleanup _)
  | addBond pubkey outpoints bondUnit creationSlot =>
      exact .modify (identity_addBonds outpoints bondUnit creationSlot)
  | delegateBond delegator delegate bondCount =>
      exact SameView.delegateBondsCapped identity_ignoresDelegation delegator delegate
        bondCount cap
  | revokeDelegation delegator =>
      exact SameView.revokeDelegation identity_ignoresDelegation delegator
  | requestWithdrawal pubkey bondCount bondUnit =>
      have hwithdrawn : SameIdentities set (set.modify (prim.cryptoHash pubkey)
          (·.applyWithdrawal bondCount bondUnit)) :=
        .modify (identity_applyWithdrawal bondCount bondUnit)
      simp only [applyUpdate]
      split
      · exact hwithdrawn.trans (.cleanup _)
      · exact hwithdrawn

theorem lookup_applyUpdate {update : PendingProducerUpdate} {cap : Nat}
    {info : ProducerInfo}
    (hlookup : (set.applyUpdate prim cap update).producers.lookup hash = some info) :
    (∃ before, set.producers.lookup hash = some before ∧
        before.publicKey = info.publicKey ∧ before.blsPubkey = info.blsPubkey) ∨
      ∃ pubkey, update.introducedKey = some (pubkey, info.blsPubkey) ∧
        hash = prim.cryptoHash pubkey ∧
        (info.publicKey = pubkey ∨ ∃ before, set.producers.lookup hash = some before ∧
          before.publicKey = info.publicKey) := by
  cases update with
  | register fresh height =>
      rw [applyUpdate] at hlookup
      cases hregister : set.register prim fresh height with
      | error error =>
          rw [hregister] at hlookup
          exact .inl ⟨info, hlookup, rfl, rfl⟩
      | ok next =>
          obtain ⟨⟨flag, rfl⟩, -⟩ := register_ok hregister
          rw [hregister] at hlookup
          simp only [Except.toOption, Option.getD_some] at hlookup
          by_cases hhash : hash = prim.cryptoHash fresh.publicKey
          · subst hhash
            rw [Finmap.lookup_insert, Option.some.injEq] at hlookup
            subst hlookup
            exact .inr ⟨fresh.publicKey, rfl, rfl, .inl rfl⟩
          · rw [Finmap.lookup_insert_of_ne _ hhash] at hlookup
            exact .inl ⟨info, hlookup, rfl, rfl⟩
  | rotateBlsKey pubkey newBlsPubkey height =>
      rw [applyUpdate, lookup_modify, Option.map_eq_some_iff] at hlookup
      obtain ⟨before, hbefore, rfl⟩ := hlookup
      split
      case isTrue hhash => exact .inr ⟨pubkey, rfl, hhash, .inr ⟨before, hbefore, rfl⟩⟩
      case isFalse => exact .inl ⟨before, hbefore, rfl, rfl⟩
  | _ => exact .inl ((sameIdentities_applyUpdate cap rfl).holds hlookup)

theorem Keyed.applyUpdate (hkeyed : Keyed prim set) (cap : Nat)
    (update : PendingProducerUpdate) : Keyed prim (set.applyUpdate prim cap update) := by
  intro hash info hlookup
  rcases lookup_applyUpdate hlookup with ⟨before, hbefore, hpubkey, -⟩ |
    ⟨pubkey, -, hhash, rfl | ⟨before, hbefore, hpubkey⟩⟩
  · exact hpubkey ▸ hkeyed hash before hbefore
  · exact hhash.symm
  · exact hpubkey ▸ hkeyed hash before hbefore

theorem Keyed.flush (hkeyed : Keyed prim set) (cap : Nat) :
    Keyed prim (set.applyPendingUpdatesWithCap prim cap) :=
  foldl_invariant (fun _ state => Keyed prim state) hkeyed
    fun _ update _ _ _ hcurrent => hcurrent.applyUpdate cap update

theorem holdsKey_of_flush {cap : Nat}
    (hholds : HoldsKey prim (set.applyPendingUpdatesWithCap prim cap) owner bls) :
    HoldsKey prim set owner bls := by
  cases hholds with
  | queued hqueued hkey => simp at hqueued
  | registered hlookup =>
      have hregistered : ∀ hash info,
          (set.applyPendingUpdatesWithCap prim cap).producers.lookup hash = some info →
            HoldsKey prim set hash info.blsPubkey := by
        refine foldl_invariant (fun _ (state : ProducerSet) => ∀ hash info,
          state.producers.lookup hash = some info →
            HoldsKey prim set hash info.blsPubkey) ?_ ?_
        · exact fun hash info hinfo => .registered hinfo
        · intro done update rest state hupdates hstate hash info hinfo
          rcases lookup_applyUpdate hinfo with ⟨before, hbefore, -, hkey⟩ |
            ⟨pubkey, hkey, rfl, -⟩
          · exact hkey ▸ hstate hash before hbefore
          · exact .queued (by simp [hupdates]) hkey
      exact hregistered _ _ hlookup

theorem BlsKeysUnique.flush (hunique : BlsKeysUnique prim set) (cap : Nat) :
    BlsKeysUnique prim (set.applyPendingUpdatesWithCap prim cap) :=
  hunique.mono fun _ _ => holdsKey_of_flush

/-! ## Rotations -/

theorem keyInUse_of_holdsKey (hkeyed : Keyed prim set) {data : RotateBlsData}
    (hholds : HoldsKey prim set owner data.newBlsPubkey)
    (howner : owner ≠ prim.cryptoHash data.producer) :
    (set.resolveRotationInputs prim data).keyInUse = true := by
  simp only [resolveRotationInputs, Bool.or_eq_true, any_eq_true, List.any_eq_true,
    decide_eq_true_eq]
  generalize data.newBlsPubkey = bls at hholds
  cases hholds with
  | @registered _ info hlookup =>
      have hother : info.publicKey ≠ data.producer := by
        intro hsame
        rw [← hsame, hkeyed owner info hlookup] at howner
        exact howner rfl
      exact .inl ⟨owner, info, hlookup, hother, rfl⟩
  | @queued update pubkey _ hqueued hkey =>
      refine .inr ⟨update, hqueued, ?_⟩
      cases update with
      | register info height => exact decide_eq_true (Prod.mk.inj (Option.some.inj hkey)).2
      | rotateBlsKey sender newBlsPubkey height =>
          exact decide_eq_true (Prod.mk.inj (Option.some.inj hkey)).2
      | _ => contradiction

theorem applyRotation_ok (hkeyed : Keyed prim set) {data : RotateBlsData} {height : Nat}
    (hok : set.applyRotation prim data height = .ok next) :
    next = set.queueUpdate (.rotateBlsKey data.producer data.newBlsPubkey height) ∧
      ∀ owner, HoldsKey prim set owner data.newBlsPubkey →
        owner = prim.cryptoHash data.producer := by
  unfold applyRotation at hok
  split at hok
  · contradiction
  case h_2 hverdict =>
    refine ⟨(Except.ok.inj hok).symm, fun owner hholds => ?_⟩
    by_contra howner
    have hinUse := keyInUse_of_holdsKey hkeyed hholds howner
    unfold rotateVerdict at hverdict
    split_ifs at hverdict

end ProducerSet

end Doli.Producer
