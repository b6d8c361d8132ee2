import Doli.Lib.Pledge
import Doli.Producer.Set

/-!
# Delegations as pledges

A delegation is written on both producers.  The set is well delegated when the
received lists hold exactly the pledges of the delegators, nobody delegates
more than it holds, and a producer that is not active takes part in none.
-/

namespace Doli.Producer

open Doli.Core Doli.Lib Doli.Storage

/-! ## The bond operations and the delegation fields -/

namespace ProducerInfo

/-- An update that leaves the three delegation fields alone. -/
def KeepsDelegation (change : ProducerInfo → ProducerInfo) : Prop :=
  ∀ info, (change info).delegatedTo = info.delegatedTo ∧
    (change info).delegatedBonds = info.delegatedBonds ∧
    (change info).receivedDelegations = info.receivedDelegations

theorem keepsDelegation_addBonds (outpoints : List Outpoint) (unit slot : Nat) :
    KeepsDelegation fun info => (info.addBonds outpoints unit slot).1 := by
  intro info
  simp only [addBonds]
  split <;> simp

theorem addBonds_isActive (info : ProducerInfo) (outpoints : List Outpoint)
    (unit slot : Nat) :
    (info.addBonds outpoints unit slot).1.isActive = info.isActive := by
  simp only [addBonds]
  split <;> rfl

theorem le_addBonds_bondCount (info : ProducerInfo) (outpoints : List Outpoint)
    (unit slot : Nat) :
    info.bondCount ≤ (info.addBonds outpoints unit slot).1.bondCount := by
  simp only [addBonds]
  split <;> simp

theorem takeWithdrawal_frame (info : ProducerInfo) (count unit : Nat) :
    (info.takeWithdrawal count unit).delegatedTo = info.delegatedTo ∧
      (info.takeWithdrawal count unit).delegatedBonds = info.delegatedBonds ∧
      (info.takeWithdrawal count unit).receivedDelegations =
        info.receivedDelegations ∧
      (info.takeWithdrawal count unit).status = info.status := by
  simp only [takeWithdrawal]
  split <;> simp [dropBonds]

theorem takeWithdrawal_bondCount (info : ProducerInfo) (count unit : Nat) :
    (info.takeWithdrawal count unit).bondCount = info.bondCount - count := by
  simp only [takeWithdrawal]
  split
  · simp only [dropBonds]
    omega
  case isFalse hrest =>
    simp only [dropBonds] at hrest ⊢
    omega

theorem keepsDelegation_applyWithdrawal (count unit : Nat) :
    KeepsDelegation (·.applyWithdrawal count unit) := by
  intro info
  simp only [applyWithdrawal]
  generalize (if unit = 0 then coreBondUnit else unit) = amount
  have hframe := takeWithdrawal_frame info count amount
  split
  · exact ⟨hframe.1, hframe.2.1, hframe.2.2.1⟩
  · exact ⟨hframe.1, hframe.2.1, hframe.2.2.1⟩

theorem applyWithdrawal_bondCount (info : ProducerInfo) (count unit : Nat) :
    (info.applyWithdrawal count unit).bondCount = info.bondCount - count := by
  simp only [applyWithdrawal]
  generalize (if unit = 0 then coreBondUnit else unit) = amount
  split <;> exact takeWithdrawal_bondCount info count amount

theorem applyWithdrawal_status (info : ProducerInfo) (count unit : Nat) :
    (info.applyWithdrawal count unit).status =
      if info.bondCount ≤ count ∧ info.isSlashed = false then .exited
      else info.status := by
  simp only [applyWithdrawal]
  generalize (if unit = 0 then coreBondUnit else unit) = amount
  have hframe := takeWithdrawal_frame info count amount
  have hslashed : (info.takeWithdrawal count amount).isSlashed = info.isSlashed := by
    simp only [isSlashed, hframe.2.2.2]
  simp only [takeWithdrawal_bondCount, hslashed, Nat.sub_eq_zero_iff_le,
    Bool.not_eq_true', completeExit]
  split
  · rfl
  · exact hframe.2.2.2

end ProducerInfo

namespace ProducerSet

section Pledges

variable (prim : Primitives)

def pledges (set : ProducerSet) : Pledges Hash := fun key =>
  (set.producers.lookup key).bind fun info =>
    info.delegatedTo.map fun delegatee =>
      (prim.cryptoHash delegatee, info.delegatedBonds)

/-- Both ends of every delegation agree. -/
structure Paired (set : ProducerSet) : Prop where
  idle : ∀ key info, set.producers.lookup key = some info →
    info.delegatedTo = none → info.delegatedBonds = 0
  received : ∀ key info, set.producers.lookup key = some info →
    (set.pledges prim).Received key info.receivedDelegations
  target : ∀ source target, (set.pledges prim source).map Prod.fst = some target →
    (set.producers.lookup target).isSome

variable {prim} {set : ProducerSet} {hash key : Hash}

theorem pledges_of_lookup_none (hnone : set.producers.lookup key = none) :
    set.pledges prim key = none := by
  simp [pledges, hnone]

theorem pledges_of_lookup {info : ProducerInfo}
    (hlookup : set.producers.lookup key = some info) :
    set.pledges prim key = info.delegatedTo.map fun delegatee =>
      (prim.cryptoHash delegatee, info.delegatedBonds) := by
  simp [pledges, hlookup]

theorem pledges_eq_of_lookup {other : ProducerSet}
    (change : Hash → ProducerInfo → ProducerInfo)
    (hchange : ∀ key, ProducerInfo.KeepsDelegation (change key))
    (hlookup : ∀ key, other.producers.lookup key =
      (set.producers.lookup key).map (change key)) :
    other.pledges prim = set.pledges prim := by
  funext key
  simp only [pledges, hlookup key]
  cases set.producers.lookup key with
  | none => rfl
  | some info => simp [(hchange key info).1, (hchange key info).2.1]

theorem Paired.of_lookup {other : ProducerSet} (hpaired : set.Paired prim)
    (change : Hash → ProducerInfo → ProducerInfo)
    (hchange : ∀ key, ProducerInfo.KeepsDelegation (change key))
    (hlookup : ∀ key, other.producers.lookup key =
      (set.producers.lookup key).map (change key)) :
    other.Paired prim where
  idle key info hinfo hnone := by
    rw [hlookup key] at hinfo
    obtain ⟨before, hbefore, rfl⟩ := Option.map_eq_some_iff.mp hinfo
    rw [(hchange key before).1] at hnone
    rw [(hchange key before).2.1]
    exact hpaired.idle key before hbefore hnone
  received key info hinfo := by
    rw [hlookup key] at hinfo
    obtain ⟨before, hbefore, rfl⟩ := Option.map_eq_some_iff.mp hinfo
    rw [(hchange key before).2.2, pledges_eq_of_lookup change hchange hlookup]
    exact hpaired.received key before hbefore
  target source target haim := by
    rw [pledges_eq_of_lookup change hchange hlookup] at haim
    simpa [hlookup target] using hpaired.target source target haim

/-! ### Cleaning up a producer -/

theorem lookup_clearDelegators (rows : List (Hash × Nat)) (set : ProducerSet)
    (key : Hash) :
    (rows.foldl (fun state row =>
      state.modify row.1 ProducerInfo.clearDelegation) set).producers.lookup key =
      (set.producers.lookup key).map fun info =>
        if key ∈ rows.map Prod.fst then info.clearDelegation else info := by
  induction rows generalizing set with
  | nil => simp
  | cons row rows ih =>
      rw [List.foldl_cons, ih, lookup_modify, Option.map_map]
      refine Option.map_congr fun info _ => ?_
      simp only [Function.comp_apply, List.map_cons, List.mem_cons]
      by_cases hkey : key = row.1
      · simp only [hkey, true_or, if_true]
        split <;> rfl
      · simp only [hkey, if_false, false_or]

theorem dropReceived_eq_self {info : ProducerInfo}
    (hrows : (info.receivedDelegations.filter fun row => row.1 ≠ hash) =
      info.receivedDelegations) : info.dropReceived hash = info := by
  simp only [ProducerInfo.dropReceived, hrows]

theorem Paired.lookup_cleanup_of_absent (hpaired : set.Paired prim) {hash : Hash}
    (hhash : set.producers.lookup hash = none) (key : Hash) :
    (set.cleanupAllDelegations prim hash).producers.lookup key =
      (set.producers.lookup key).map fun info =>
        if key = hash then info.clearAllDelegations
        else
          (if (set.pledges prim key).map Prod.fst = some hash then
            info.clearDelegation
          else info).dropReceived hash := by
  have hkeep : ∀ aimed, (set.pledges prim aimed).map Prod.fst ≠ some hash := by
    intro aimed haim
    simpa [hhash] using hpaired.target aimed hash haim
  have hsame : set.cleanupAllDelegations prim hash = set := by
    simp [cleanupAllDelegations, hhash, modify]
  rw [hsame]
  cases hinfo : set.producers.lookup key with
  | none => rfl
  | some info =>
      have hne : key ≠ hash := by
        rintro rfl
        simp [hhash] at hinfo
      have hdrop : info.dropReceived hash = info := by
        refine dropReceived_eq_self ((hpaired.received key info hinfo).filter_ne_eq ?_)
        simp [pledges_of_lookup_none hhash]
      simp [hne, hkeep, hdrop]

theorem lookup_cleanup_self (prim : Primitives) (set : ProducerSet) (hash : Hash) :
    (set.cleanupAllDelegations prim hash).producers.lookup hash =
      (set.producers.lookup hash).map ProducerInfo.clearAllDelegations := by
  have hview : SameView ProducerInfo.clearAllDelegations set
      (set.cleanupAllDelegations prim hash) := .cleanup (fun _ _ _ _ => rfl) hash
  rw [← hview hash, cleanupAllDelegations, lookup_modify_self, Option.map_map]
  rfl

/-- The cleanup frees the delegators of `hash`, takes its rows off every list,
and leaves nothing at `hash` itself. -/
theorem Paired.lookup_cleanup (hpaired : set.Paired prim) (hash key : Hash) :
    (set.cleanupAllDelegations prim hash).producers.lookup key =
      (set.producers.lookup key).map fun info =>
        if key = hash then info.clearAllDelegations
        else
          (if (set.pledges prim key).map Prod.fst = some hash then
            info.clearDelegation
          else info).dropReceived hash := by
  by_cases hkey : key = hash
  · subst hkey
    simp only [lookup_cleanup_self, if_true]
  cases hhash : set.producers.lookup hash with
  | none => exact hpaired.lookup_cleanup_of_absent hhash key
  | some owner =>
      have hmem : ∀ aimed, aimed ∈ owner.receivedDelegations.map Prod.fst ↔
          (set.pledges prim aimed).map Prod.fst = some hash := fun aimed =>
        (hpaired.received hash owner hhash).mem_keys_iff
      have haim : set.pledges prim hash = owner.delegatedTo.map fun delegatee =>
          (prim.cryptoHash delegatee, owner.delegatedBonds) :=
        pledges_of_lookup hhash
      simp only [cleanupAllDelegations, hhash, Option.elim_some]
      set incoming := owner.receivedDelegations.foldl
        (fun state row => state.modify row.1 ProducerInfo.clearDelegation) set
        with hincoming
      have hlookup : ∀ other, incoming.producers.lookup other =
          (set.producers.lookup other).map fun info =>
            if (set.pledges prim other).map Prod.fst = some hash then
              info.clearDelegation
            else info := by
        intro other
        rw [hincoming, lookup_clearDelegators]
        simp only [hmem]
      rw [lookup_modify_ne _ _ hkey]
      simp only [hkey, if_false]
      -- A list that `hash` does not pledge to has no row of it.
      have hdrop : (set.pledges prim hash).map Prod.fst ≠ some key →
          ∀ info, set.producers.lookup key = some info →
            (if (set.pledges prim key).map Prod.fst = some hash then
              info.clearDelegation else info).dropReceived hash =
            if (set.pledges prim key).map Prod.fst = some hash then
              info.clearDelegation else info := by
        intro hne info hinfo
        refine dropReceived_eq_self ?_
        have hrows := (hpaired.received key info hinfo).filter_ne_eq hne
        split <;> exact hrows
      split
      case h_1 hnone =>
        rw [hlookup key]
        refine Option.map_congr fun info hinfo => (hdrop ?_ info hinfo).symm
        rw [hlookup hash, hhash] at hnone
        simp only [Option.map_some, Option.bind_some] at hnone
        split at hnone
        case isTrue hself =>
          rw [hself]
          exact fun heq => hkey (Option.some.inj heq).symm
        case isFalse => simp [haim, hnone]
      case h_2 delegatee hdelegatee =>
        rw [hlookup hash, hhash] at hdelegatee
        simp only [Option.map_some, Option.bind_some] at hdelegatee
        split at hdelegatee
        · simp [ProducerInfo.clearDelegation] at hdelegatee
        · by_cases htarget : key = prim.cryptoHash delegatee
          · rw [htarget, lookup_modify_self, hlookup, Option.map_map]
            rfl
          · rw [lookup_modify_ne _ _ htarget, hlookup key]
            refine Option.map_congr fun info hinfo => (hdrop ?_ info hinfo).symm
            simp only [haim, hdelegatee, Option.map_some, ne_eq, Option.some.injEq]
            exact fun heq => htarget heq.symm

theorem Paired.pledges_cleanup (hpaired : set.Paired prim) (hash : Hash) :
    (set.cleanupAllDelegations prim hash).pledges prim =
      (set.pledges prim).isolate hash := by
  funext key
  have hlookup := hpaired.lookup_cleanup hash key
  unfold Pledges.isolate
  cases hinfo : set.producers.lookup key with
  | none =>
      rw [hinfo] at hlookup
      rw [pledges_of_lookup_none hlookup, pledges_of_lookup_none hinfo]
      simp
  | some info =>
      rw [hinfo, Option.map_some] at hlookup
      rw [pledges_of_lookup hlookup]
      by_cases hkey : key = hash
      · simp [hkey, ProducerInfo.clearAllDelegations]
      · by_cases haim : (set.pledges prim key).map Prod.fst = some hash
        · simp [hkey, haim, ProducerInfo.dropReceived, ProducerInfo.clearDelegation]
        · simp only [hkey, haim, if_false, false_or, ProducerInfo.dropReceived]
          exact (pledges_of_lookup hinfo).symm

theorem Paired.cleanup (hpaired : set.Paired prim) (hash : Hash) :
    (set.cleanupAllDelegations prim hash).Paired prim where
  idle key info hinfo := by
    rw [hpaired.lookup_cleanup] at hinfo
    obtain ⟨before, hbefore, rfl⟩ := Option.map_eq_some_iff.mp hinfo
    by_cases hkey : key = hash
    · simp [hkey, ProducerInfo.clearAllDelegations]
    · by_cases haim : (set.pledges prim key).map Prod.fst = some hash
      · simp [hkey, haim, ProducerInfo.dropReceived, ProducerInfo.clearDelegation]
      · simp only [hkey, haim, if_false, ProducerInfo.dropReceived]
        exact hpaired.idle key before hbefore
  received key info hinfo := by
    rw [hpaired.lookup_cleanup] at hinfo
    obtain ⟨before, hbefore, rfl⟩ := Option.map_eq_some_iff.mp hinfo
    rw [hpaired.pledges_cleanup]
    by_cases hkey : key = hash
    · simp only [hkey, if_true, ProducerInfo.clearAllDelegations]
      exact Pledges.Received.isolate_self _ hash
    · have hrows := (hpaired.received key before hbefore).isolate_ne hkey
      simp only [hkey, if_false, ProducerInfo.dropReceived]
      split <;> exact hrows
  target source target haim := by
    rw [hpaired.pledges_cleanup] at haim
    rw [hpaired.lookup_cleanup, Option.isSome_map]
    unfold Pledges.isolate at haim
    split at haim
    · simp at haim
    · exact hpaired.target source target haim

/-! ### Delegating and revoking -/

section Revoke

variable {source : ProducerInfo} {delegatee : PublicKey}

theorem Paired.lookup_revoked (hpaired : set.Paired prim)
    (hsource : set.producers.lookup hash = some source)
    (hto : source.delegatedTo = some delegatee) (key : Hash) :
    ((set.modify hash ProducerInfo.clearDelegation).modify
      (prim.cryptoHash delegatee) (·.dropReceived hash)).producers.lookup key =
      (set.producers.lookup key).map fun info =>
        (if key = hash then info.clearDelegation else info).dropReceived hash := by
  rw [lookup_modify, lookup_modify, Option.map_map]
  refine Option.map_congr fun info hinfo => ?_
  simp only [Function.comp_apply]
  split
  · rfl
  case isFalse hkey =>
    -- The producer pledges to another list, so there is no row to drop here.
    have hrows : (info.receivedDelegations.filter fun row => row.1 ≠ hash) =
        info.receivedDelegations := by
      refine (hpaired.received key info hinfo).filter_ne_eq ?_
      rw [pledges_of_lookup hsource, hto]
      simp only [Option.map_some, ne_eq, Option.some.injEq]
      exact fun heq => hkey heq.symm
    split
    · have hcleared : info.clearDelegation.dropReceived hash = info.clearDelegation :=
        dropReceived_eq_self hrows
      exact hcleared.symm
    · exact (dropReceived_eq_self hrows).symm

theorem Paired.pledges_revoked (hpaired : set.Paired prim)
    (hsource : set.producers.lookup hash = some source)
    (hto : source.delegatedTo = some delegatee) :
    ((set.modify hash ProducerInfo.clearDelegation).modify
      (prim.cryptoHash delegatee) (·.dropReceived hash)).pledges prim =
      (set.pledges prim).withdraw hash := by
  funext key
  have hlookup := hpaired.lookup_revoked hsource hto key
  cases hinfo : set.producers.lookup key with
  | none =>
      rw [hinfo] at hlookup
      have hne : key ≠ hash := by
        rintro rfl
        simp [hsource] at hinfo
      rw [pledges_of_lookup_none hlookup]
      simp [Pledges.withdraw, hne, pledges_of_lookup_none hinfo]
  | some info =>
      rw [hinfo, Option.map_some] at hlookup
      rw [pledges_of_lookup hlookup]
      by_cases hkey : key = hash
      · simp [hkey, Pledges.withdraw, ProducerInfo.dropReceived,
          ProducerInfo.clearDelegation]
      · simp [hkey, Pledges.withdraw, ProducerInfo.dropReceived,
          pledges_of_lookup hinfo]

theorem Paired.revoked (hpaired : set.Paired prim)
    (hsource : set.producers.lookup hash = some source)
    (hto : source.delegatedTo = some delegatee) :
    ((set.modify hash ProducerInfo.clearDelegation).modify
      (prim.cryptoHash delegatee) (·.dropReceived hash)).Paired prim where
  idle key info hinfo := by
    rw [hpaired.lookup_revoked hsource hto] at hinfo
    obtain ⟨before, hbefore, rfl⟩ := Option.map_eq_some_iff.mp hinfo
    by_cases hkey : key = hash
    · simp [hkey, ProducerInfo.dropReceived, ProducerInfo.clearDelegation]
    · simp only [hkey, if_false, ProducerInfo.dropReceived]
      exact hpaired.idle key before hbefore
  received key info hinfo := by
    rw [hpaired.lookup_revoked hsource hto] at hinfo
    obtain ⟨before, hbefore, rfl⟩ := Option.map_eq_some_iff.mp hinfo
    rw [hpaired.pledges_revoked hsource hto]
    have hrows := (hpaired.received key before hbefore).withdraw hash
    simp only [ProducerInfo.dropReceived]
    split <;> exact hrows
  target aimed target haim := by
    rw [hpaired.pledges_revoked hsource hto] at haim
    rw [hpaired.lookup_revoked hsource hto, Option.isSome_map]
    by_cases haimed : aimed = hash
    · simp [haimed, Pledges.withdraw] at haim
    · rw [Pledges.withdraw, Function.update_of_ne haimed] at haim
      exact hpaired.target aimed target haim

end Revoke

section Delegate

variable {source target : ProducerInfo} {delegatee : PublicKey} {bonds : Nat}

theorem lookup_delegated (key : Hash) :
    ((set.modify hash (·.setDelegation delegatee bonds)).modify
      (prim.cryptoHash delegatee) (·.pushReceived hash bonds)).producers.lookup key =
      (set.producers.lookup key).map fun info =>
        let sent := if key = hash then info.setDelegation delegatee bonds else info
        if key = prim.cryptoHash delegatee then sent.pushReceived hash bonds
        else sent := by
  rw [lookup_modify, lookup_modify, Option.map_map]
  rfl

theorem pledges_delegated (hsource : set.producers.lookup hash = some source) :
    ((set.modify hash (·.setDelegation delegatee bonds)).modify
      (prim.cryptoHash delegatee) (·.pushReceived hash bonds)).pledges prim =
      (set.pledges prim).pledge hash (prim.cryptoHash delegatee) bonds := by
  funext key
  have hlookup := @lookup_delegated prim set hash delegatee bonds key
  cases hinfo : set.producers.lookup key with
  | none =>
      rw [hinfo] at hlookup
      have hne : key ≠ hash := by
        rintro rfl
        simp [hsource] at hinfo
      rw [pledges_of_lookup_none hlookup]
      simp [Pledges.pledge, hne, pledges_of_lookup_none hinfo]
  | some info =>
      rw [hinfo, Option.map_some] at hlookup
      rw [pledges_of_lookup hlookup]
      by_cases hkey : key = hash
      · subst hkey
        simp only [if_true, Pledges.pledge, Function.update_self]
        split <;> rfl
      · simp only [hkey, if_false, Pledges.pledge, ne_eq, not_false_eq_true,
          Function.update_of_ne, pledges_of_lookup hinfo]
        split <;> rfl

theorem Paired.delegated (hpaired : set.Paired prim)
    (hsource : set.producers.lookup hash = some source)
    (hfree : source.delegatedTo = none)
    (htarget : set.getByPubkey prim delegatee = some target) :
    ((set.modify hash (·.setDelegation delegatee bonds)).modify
      (prim.cryptoHash delegatee) (·.pushReceived hash bonds)).Paired prim where
  idle key info hinfo hnone := by
    rw [lookup_delegated] at hinfo
    obtain ⟨before, hbefore, rfl⟩ := Option.map_eq_some_iff.mp hinfo
    by_cases hkey : key = hash
    · simp only [hkey, if_true] at hnone
      split at hnone <;>
        simp [ProducerInfo.pushReceived, ProducerInfo.setDelegation] at hnone
    · simp only [hkey, if_false] at hnone ⊢
      have hbonds := hpaired.idle key before hbefore
      split at hnone
      case isTrue haimed =>
        simp only [haimed, if_true]
        exact hbonds hnone
      case isFalse haimed =>
        simp only [haimed, if_false]
        exact hbonds hnone
  received key info hinfo := by
    rw [lookup_delegated] at hinfo
    obtain ⟨before, hbefore, rfl⟩ := Option.map_eq_some_iff.mp hinfo
    rw [pledges_delegated hsource]
    have hnone : set.pledges prim hash = none := by
      simp [pledges_of_lookup hsource, hfree]
    have hrows := hpaired.received key before hbefore
    by_cases hkey : key = prim.cryptoHash delegatee
    · subst hkey
      have hpushed := hrows.pledge_self hnone bonds
      simp only [if_true, ProducerInfo.pushReceived]
      split <;> exact hpushed
    · have hkept := hrows.pledge_ne hnone hkey bonds
      simp only [hkey, if_false]
      split <;> exact hkept
  target aimed other haim := by
    rw [pledges_delegated hsource] at haim
    rw [lookup_delegated, Option.isSome_map]
    by_cases haimed : aimed = hash
    · simp only [haimed, Pledges.pledge, Function.update_self, Option.map_some,
        Option.some.injEq] at haim
      subst haim
      exact Option.isSome_iff_exists.mpr ⟨target, htarget⟩
    · rw [Pledges.pledge, Function.update_of_ne haimed] at haim
      exact hpaired.target aimed other haim

end Delegate

end Pledges

end ProducerSet

end Doli.Producer
