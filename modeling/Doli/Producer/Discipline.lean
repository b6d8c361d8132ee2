import Doli.Lib.Run
import Doli.Producer.Delegation

/-!
# Records kept in order by every operation

The pairing of the two ends of a delegation, together with a property of the
single records.  A property qualifies when a producer that is not active takes
part in no delegation, when releasing a delegation keeps it, and when a new
one between active producers keeps it.  Every operation on the set then keeps
both; only a withdrawal has something left to check.
-/

namespace Doli.Producer

open Doli.Core Doli.Lib Doli.Storage

namespace ProducerSet

def Undelegated (info : ProducerInfo) : Prop :=
  info.delegatedTo = none ∧ info.delegatedBonds = 0 ∧
    info.receivedDelegations = []

structure Discipline (good : ProducerInfo → Prop) : Prop where
  idle : ∀ {info}, good info → info.isActive = false →
    info.delegatedTo = none ∧ info.receivedDelegations = []
  fresh : ∀ {info}, Undelegated info → good info
  freed : ∀ {info}, good info → good info.clearDelegation
  dropped : ∀ {info} hash, good info → good (info.dropReceived hash)
  sent : ∀ {info} delegatee {bonds}, good info → info.isActive = true →
    0 < bonds → bonds ≤ info.bondCount → good (info.setDelegation delegatee bonds)
  pushed : ∀ {info} source bonds, good info → info.isActive = true →
    good (info.pushReceived source bonds)
  bonded : ∀ {info} outpoints unit slot, good info →
    good (info.addBonds outpoints unit slot).1
  rotated : ∀ {info} bls, good info → good { info with blsPubkey := bls }

structure Orderly (prim : Primitives) (good : ProducerInfo → Prop)
    (set : ProducerSet) : Prop extends set.Paired prim where
  each : ∀ key info, set.producers.lookup key = some info → good info

variable {prim : Primitives} {good : ProducerInfo → Prop} {set : ProducerSet}
  {hash key : Hash}

theorem isActive_of_exited {info : ProducerInfo} (hexited : info.status = .exited) :
    info.isActive = false := by
  simp [ProducerInfo.isActive, hexited]

theorem Paired.modify (hpaired : set.Paired prim)
    {change : ProducerInfo → ProducerInfo}
    (hkeep : ProducerInfo.KeepsDelegation change) (hash : Hash) :
    (set.modify hash change).Paired prim := by
  refine hpaired.of_lookup (fun key info => if key = hash then change info else info)
    (fun key info => ?_) fun key => lookup_modify set change key
  by_cases hkey : key = hash
  · simpa only [hkey, if_true] using hkeep info
  · simp only [hkey, if_false, and_self]

namespace Orderly

theorem of_producers {other : ProducerSet} (horderly : set.Orderly prim good)
    (hsame : other.producers = set.producers) : other.Orderly prim good where
  toPaired := horderly.toPaired.of_lookup (fun _ => id) (fun _ _ => ⟨rfl, rfl, rfl⟩)
    fun key => by simp [hsame]
  each key info hinfo := horderly.each key info (by rwa [hsame] at hinfo)

theorem modify (horderly : set.Orderly prim good)
    {change : ProducerInfo → ProducerInfo}
    (hkeep : ProducerInfo.KeepsDelegation change)
    (hchange : ∀ info, set.producers.lookup hash = some info → good info →
      good (change info)) :
    (set.modify hash change).Orderly prim good where
  toPaired := horderly.toPaired.modify hkeep hash
  each key info hinfo := by
    rw [lookup_modify] at hinfo
    obtain ⟨before, hbefore, rfl⟩ := Option.map_eq_some_iff.mp hinfo
    have hheld := horderly.each key before hbefore
    split
    case isTrue hkey => exact hchange before (hkey ▸ hbefore) hheld
    case isFalse => exact hheld

variable (hgood : Discipline good)
include hgood

theorem of_cleanup (hpaired : set.Paired prim)
    (heach : ∀ key info, key ≠ hash → set.producers.lookup key = some info →
      good info) :
    (set.cleanupAllDelegations prim hash).Orderly prim good where
  toPaired := hpaired.cleanup hash
  each key info hinfo := by
    rw [hpaired.lookup_cleanup] at hinfo
    obtain ⟨before, hbefore, rfl⟩ := Option.map_eq_some_iff.mp hinfo
    split
    · exact hgood.fresh ⟨rfl, rfl, rfl⟩
    case isFalse hkey =>
      have hheld := heach key before hkey hbefore
      apply hgood.dropped
      split
      · exact hgood.freed hheld
      · exact hheld

theorem modify_cleanup (horderly : set.Orderly prim good)
    {change : ProducerInfo → ProducerInfo}
    (hkeep : ProducerInfo.KeepsDelegation change) :
    ((set.modify hash change).cleanupAllDelegations prim hash).Orderly prim good := by
  refine of_cleanup hgood (horderly.toPaired.modify hkeep hash) ?_
  intro key info hkey hinfo
  rw [lookup_modify_ne _ _ hkey] at hinfo
  exact horderly.each key info hinfo

end Orderly

/-! ## Registering -/

theorem register_ok {info : ProducerInfo} {height : Nat} {next : ProducerSet}
    (hok : set.register prim info height = .ok next) :
    (∃ flag, next = { set with
        producers := set.producers.insert (prim.cryptoHash info.publicKey)
          { info with hasPriorExit := flag } }) ∧
      ∀ existing, set.producers.lookup (prim.cryptoHash info.publicKey) =
        some existing → existing.status = .exited := by
  simp only [register] at hok
  split at hok
  case h_1 hnone =>
    obtain rfl := Except.ok.inj hok
    refine ⟨⟨_, rfl⟩, fun existing hexisting => ?_⟩
    simp [hnone] at hexisting
  case h_2 existing hexisting =>
    split at hok
    case isTrue hexited =>
      obtain rfl := Except.ok.inj hok
      refine ⟨⟨_, rfl⟩, fun other hother => ?_⟩
      rw [hexisting] at hother
      exact Option.some.inj hother ▸ hexited
    case isFalse => contradiction

theorem Paired.insert (hpaired : set.Paired prim) {info : ProducerInfo}
    (hfresh : Undelegated info)
    (hidle : ∀ existing, set.producers.lookup key = some existing →
      existing.delegatedTo = none ∧ existing.receivedDelegations = []) :
    { set with producers := set.producers.insert key info }.Paired prim := by
  obtain ⟨hto, hbonds, hrows⟩ := hfresh
  have hpledges : { set with
      producers := set.producers.insert key info }.pledges prim =
      set.pledges prim := by
    funext other
    by_cases hother : other = key
    · subst hother
      have hbefore : set.pledges prim other = none := by
        cases hlookup : set.producers.lookup other with
        | none => exact pledges_of_lookup_none hlookup
        | some existing =>
            simp [pledges_of_lookup hlookup, (hidle existing hlookup).1]
      rw [hbefore]
      simp [pledges, hto]
    · simp [pledges, Finmap.lookup_insert_of_ne _ hother]
  constructor
  · intro other found hfound hnone
    by_cases hother : other = key
    · subst hother
      rw [Finmap.lookup_insert] at hfound
      exact Option.some.inj hfound ▸ hbonds
    · rw [Finmap.lookup_insert_of_ne _ hother] at hfound
      exact hpaired.idle other found hfound hnone
  · intro other found hfound
    rw [hpledges]
    by_cases hother : other = key
    · subst hother
      rw [Finmap.lookup_insert] at hfound
      obtain rfl := Option.some.inj hfound
      rw [hrows]
      cases hlookup : set.producers.lookup other with
      | none =>
          -- Nobody pledges to a key that is not registered.
          intro source
          refine (Pledges.rowsFrom_eq_nil fun haim => ?_).symm
          simpa [hlookup] using hpaired.target source other haim
      | some existing =>
          rw [← (hidle existing hlookup).2]
          exact hpaired.received other existing hlookup
    · rw [Finmap.lookup_insert_of_ne _ hother] at hfound
      exact hpaired.received other found hfound
  · intro source target haim
    rw [hpledges] at haim
    by_cases htarget : target = key
    · subst htarget
      rw [Finmap.lookup_insert]
      rfl
    · rw [Finmap.lookup_insert_of_ne _ htarget]
      exact hpaired.target source target haim

/-! ## The operations -/

namespace Orderly

variable (hgood : Discipline good) (horderly : set.Orderly prim good)
include hgood horderly

theorem insert {info : ProducerInfo} (hfresh : Undelegated info)
    (hfree : ∀ existing, set.producers.lookup key = some existing →
      existing.isActive = false) :
    { set with producers := set.producers.insert key info }.Orderly prim good where
  toPaired := horderly.toPaired.insert hfresh fun existing hexisting =>
    hgood.idle (horderly.each key existing hexisting) (hfree existing hexisting)
  each other found hfound := by
    by_cases hother : other = key
    · subst hother
      rw [Finmap.lookup_insert] at hfound
      exact Option.some.inj hfound ▸ hgood.fresh hfresh
    · rw [Finmap.lookup_insert_of_ne _ hother] at hfound
      exact horderly.each other found hfound

theorem register {info : ProducerInfo} (hfresh : Undelegated info) (height : Nat) :
    ((set.register prim info height).toOption.getD set).Orderly prim good := by
  cases hok : set.register prim info height with
  | error error => exact horderly
  | ok next =>
      obtain ⟨⟨flag, rfl⟩, hfree⟩ := register_ok hok
      exact horderly.insert hgood hfresh fun existing hexisting =>
        isActive_of_exited (hfree existing hexisting)

theorem requestExit (pubkey : PublicKey) (height : Nat) :
    ((set.requestExit prim pubkey height).toOption.getD set).Orderly prim good := by
  have hclean : ((set.modify (prim.cryptoHash pubkey)
      (·.startUnbonding height)).cleanupAllDelegations prim
        (prim.cryptoHash pubkey)).Orderly prim good :=
    horderly.modify_cleanup hgood fun _ => ⟨rfl, rfl, rfl⟩
  simp only [ProducerSet.requestExit]
  split
  · exact horderly
  · split
    · exact hclean.of_producers rfl
    · exact horderly

theorem slashProducer (pubkey : PublicKey) (height : Nat) :
    (((set.slashProducer prim pubkey height).toOption.map Prod.fst).getD
      set).Orderly prim good := by
  have hclean : ((set.modify (prim.cryptoHash pubkey)
      (·.slash height)).cleanupAllDelegations prim
        (prim.cryptoHash pubkey)).Orderly prim good :=
    horderly.modify_cleanup hgood fun _ => ⟨rfl, rfl, rfl⟩
  simp only [ProducerSet.slashProducer]
  split
  · exact horderly
  · split
    · exact horderly
    · exact hclean.of_producers rfl

theorem revokeDelegation (delegator : PublicKey) :
    ((set.revokeDelegation prim delegator).toOption.getD set).Orderly prim good := by
  simp only [ProducerSet.revokeDelegation]
  split
  · exact horderly
  case h_2 source hsource =>
    split
    · exact horderly
    case h_2 delegatee hto =>
      refine ⟨horderly.toPaired.revoked hsource hto, fun key info hinfo => ?_⟩
      simp only [Except.toOption, Option.getD_some] at hinfo
      rw [horderly.toPaired.lookup_revoked hsource hto] at hinfo
      obtain ⟨before, hbefore, rfl⟩ := Option.map_eq_some_iff.mp hinfo
      have hheld := horderly.each key before hbefore
      apply hgood.dropped
      split
      · exact hgood.freed hheld
      · exact hheld

theorem delegated {delegator delegatee : PublicKey} {bonds : Nat}
    {source target : ProducerInfo}
    (hsource : set.getByPubkey prim delegator = some source)
    (hnone : source.delegatedTo = none)
    (htarget : set.getByPubkey prim delegatee = some target)
    (hactive : source.isActive = true) (htargetActive : target.isActive = true)
    (hpos : 0 < bonds) (hle : bonds ≤ source.bondCount) :
    ((set.modify (prim.cryptoHash delegator) (·.setDelegation delegatee bonds)).modify
      (prim.cryptoHash delegatee)
      (·.pushReceived (prim.cryptoHash delegator) bonds)).Orderly prim good where
  toPaired := horderly.toPaired.delegated hsource hnone htarget
  each key info hinfo := by
    rw [lookup_delegated] at hinfo
    obtain ⟨before, hbefore, rfl⟩ := Option.map_eq_some_iff.mp hinfo
    have hheld := horderly.each key before hbefore
    -- The sender's side first, then the receiver's on top of it.
    have hsent : good (if key = prim.cryptoHash delegator then
        before.setDelegation delegatee bonds else before) := by
      split
      case isTrue hkey =>
        subst hkey
        obtain rfl := Option.some.inj (hsource.symm.trans hbefore)
        exact hgood.sent delegatee hheld hactive hpos hle
      case isFalse => exact hheld
    dsimp only
    split
    case isTrue hkey =>
      subst hkey
      obtain rfl := Option.some.inj (htarget.symm.trans hbefore)
      refine hgood.pushed _ _ hsent ?_
      split
      · exact htargetActive
      · exact htargetActive
    case isFalse => exact hsent

theorem delegateBondsCapped (delegator delegatee : PublicKey) (bonds cap : Nat) :
    ((set.delegateBondsCapped prim delegator delegatee bonds cap).toOption.getD
      set).Orderly prim good := by
  simp only [ProducerSet.delegateBondsCapped]
  split
  · exact horderly
  case isFalse hbonds =>
    split
    · exact horderly
    split
    · exact horderly
    case h_2 source hsource =>
      split_ifs
      · exact horderly
      · exact horderly
      · exact horderly
      case neg hactive havailable hfree =>
        split
        · exact horderly
        case h_2 target htarget =>
          split_ifs
          · exact horderly
          · exact horderly
          case neg htargetActive hcap =>
            exact horderly.delegated hgood hsource (by simpa using hfree) htarget
              (by simpa using hactive) (by simpa using htargetActive) (by omega)
              (by omega)

theorem completeUnbonding (height duration : Nat) (row : Nat × Hash) :
    (set.completeUnbonding prim height duration row).Orderly prim good := by
  simp only [ProducerSet.completeUnbonding]
  split
  · split
    · have hkeep : ProducerInfo.KeepsDelegation ProducerInfo.completeExit :=
        fun _ => ⟨rfl, rfl, rfl⟩
      have hexited : ({ set.modify row.2 ProducerInfo.completeExit with
          exitHistory := (set.modify row.2
            ProducerInfo.completeExit).exitHistory.insert row.2 height } :
          ProducerSet).Paired prim :=
        (horderly.toPaired.modify hkeep row.2).of_lookup (fun _ => id)
          (fun _ _ => ⟨rfl, rfl, rfl⟩) fun key => by simp
      refine (of_cleanup hgood hexited fun key info hkey hinfo => ?_).of_producers rfl
      rw [lookup_modify_ne _ _ hkey] at hinfo
      exact horderly.each key info hinfo
    · exact horderly.of_producers rfl
  · exact horderly.of_producers rfl

theorem processUnbonding (height duration : Nat) :
    (set.processUnbonding prim height duration).Orderly prim good := by
  unfold ProducerSet.processUnbonding
  exact foldl_invariant (fun _ (state : ProducerSet) => state.Orderly prim good) horderly
    fun _ row _ current _ hcurrent => hcurrent.completeUnbonding hgood height duration row

end Orderly

/-! ## The deferred updates -/

/-- A queued registration carries no delegation. -/
def FreshUpdate : PendingProducerUpdate → Prop
  | .register info _ => Undelegated info
  | _ => True

/-- A withdrawal that leaves a producer in place leaves its record in order. -/
def Withdraws (prim : Primitives) (good : ProducerInfo → Prop) (set : ProducerSet) :
    PendingProducerUpdate → Prop
  | .requestWithdrawal pubkey bondCount bondUnit => ∀ info,
      set.getByPubkey prim pubkey = some info → good info →
        (info.applyWithdrawal bondCount bondUnit).status ≠ .exited →
          good (info.applyWithdrawal bondCount bondUnit)
  | _ => True

theorem applyWithdrawal_idle {info : ProducerInfo} {count unit : Nat}
    (hstays : (info.applyWithdrawal count unit).status ≠ .exited)
    (hidle : (info.applyWithdrawal count unit).isActive = false) :
    info.isActive = false := by
  simp only [ProducerInfo.isActive] at hidle ⊢
  rw [ProducerInfo.applyWithdrawal_status] at hstays hidle
  by_cases htakes : info.bondCount ≤ count ∧ info.isSlashed = false
  · exact absurd (if_pos htakes) hstays
  · rwa [if_neg htakes] at hidle

theorem Orderly.applyUpdate (hgood : Discipline good)
    (horderly : set.Orderly prim good) {cap : Nat} {update : PendingProducerUpdate}
    (hfresh : FreshUpdate update) (hwithdraws : set.Withdraws prim good update) :
    (set.applyUpdate prim cap update).Orderly prim good := by
  cases update with
  | register info height => exact horderly.register hgood hfresh height
  | exit pubkey height => exact horderly.requestExit hgood pubkey height
  | slash pubkey height => exact horderly.slashProducer hgood pubkey height
  | addBond pubkey outpoints bondUnit creationSlot =>
      exact horderly.modify
        (ProducerInfo.keepsDelegation_addBonds outpoints bondUnit creationSlot)
        fun info _ => hgood.bonded outpoints bondUnit creationSlot
  | delegateBond delegator delegate bondCount =>
      exact horderly.delegateBondsCapped hgood delegator delegate bondCount cap
  | revokeDelegation delegator => exact horderly.revokeDelegation hgood delegator
  | requestWithdrawal pubkey bondCount bondUnit =>
      have hkeep := ProducerInfo.keepsDelegation_applyWithdrawal bondCount bondUnit
      simp only [ProducerSet.applyUpdate]
      split
      · exact horderly.modify_cleanup hgood hkeep
      case isFalse hstays =>
        refine horderly.modify hkeep fun info hinfo hheld => ?_
        exact hwithdraws info hinfo hheld (by simpa [hinfo] using hstays)
  | rotateBlsKey pubkey newBlsPubkey height =>
      exact horderly.modify (fun _ => ⟨rfl, rfl, rfl⟩) fun info _ => hgood.rotated _

end ProducerSet

end Doli.Producer
