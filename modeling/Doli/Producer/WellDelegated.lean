import Doli.Producer.Discipline

/-!
# Every deferred update keeps the delegations in order

All updates keep a well-delegated set well delegated, but one: a withdrawal
that takes some of the delegated bonds and leaves others.  In a well-delegated
set the selection weights of the active producers add up to their bonds.
-/

namespace Doli.Producer

open Doli.Core Doli.Lib Doli.Storage

namespace ProducerSet

variable {prim : Primitives} {set : ProducerSet} {hash key : Hash}

/-- The producer at `key` delegates no more than it holds, and nothing touches
it once it is not active. -/
def Settles (set : ProducerSet) (key : Hash) : Prop :=
  ∀ info, set.producers.lookup key = some info →
    info.delegatedBonds ≤ info.bondCount ∧
      (info.isActive = false →
        info.delegatedTo = none ∧ info.receivedDelegations = [])

structure WellDelegated (prim : Primitives) (set : ProducerSet) : Prop
    extends set.Paired prim where
  settles : ∀ key, set.Settles key

/-- The bound and the rest of an idle record, as one discipline. -/
def Settled (info : ProducerInfo) : Prop :=
  info.delegatedBonds ≤ info.bondCount ∧
    (info.isActive = false → info.delegatedTo = none ∧ info.receivedDelegations = [])

theorem settled_discipline : Discipline Settled where
  idle hheld := hheld.2
  fresh := by
    rintro info ⟨hto, hbonds, hrows⟩
    exact ⟨by omega, fun _ => ⟨hto, hrows⟩⟩
  freed hheld := ⟨Nat.zero_le _, fun hidle => ⟨rfl, (hheld.2 hidle).2⟩⟩
  dropped _ hheld := ⟨hheld.1, fun hidle =>
    ⟨(hheld.2 hidle).1, by simp [ProducerInfo.dropReceived, (hheld.2 hidle).2]⟩⟩
  sent _ _ hheld hactive _ hle :=
    ⟨hle, fun hidle => absurd (hactive.symm.trans hidle) (by simp)⟩
  pushed _ _ hheld hactive :=
    ⟨hheld.1, fun hidle => absurd (hactive.symm.trans hidle) (by simp)⟩
  bonded {info} outpoints unit slot hheld := by
    obtain ⟨hto, hbonds, hrows⟩ :=
      ProducerInfo.keepsDelegation_addBonds outpoints unit slot info
    have hmore := info.le_addBonds_bondCount outpoints unit slot
    unfold Settled
    rw [ProducerInfo.addBonds_isActive, hto, hbonds, hrows]
    exact ⟨hheld.1.trans hmore, hheld.2⟩
  rotated _ hheld := hheld

theorem wellDelegated_iff : set.WellDelegated prim ↔ set.Orderly prim Settled :=
  ⟨fun hwell => ⟨hwell.toPaired, hwell.settles⟩,
    fun horderly => ⟨horderly.toPaired, horderly.each⟩⟩

theorem WellDelegated.of_producers {other : ProducerSet}
    (hwell : set.WellDelegated prim) (hsame : other.producers = set.producers) :
    other.WellDelegated prim :=
  wellDelegated_iff.mpr ((wellDelegated_iff.mp hwell).of_producers hsame)

theorem WellDelegated.register (hwell : set.WellDelegated prim)
    {info : ProducerInfo} (hfresh : Undelegated info) (height : Nat) :
    ((set.register prim info height).toOption.getD set).WellDelegated prim :=
  wellDelegated_iff.mpr ((wellDelegated_iff.mp hwell).register settled_discipline
    hfresh height)

/-! ## Withdrawals -/

/-- A withdrawal spares the delegation when it leaves the delegated bonds in
place or takes everything. -/
def SparesDelegation (prim : Primitives) (set : ProducerSet) :
    PendingProducerUpdate → Prop
  | .requestWithdrawal pubkey bondCount _ => ∀ info,
      set.getByPubkey prim pubkey = some info →
        info.delegatedBonds + bondCount ≤ info.bondCount ∨
          info.bondCount ≤ bondCount
  | _ => True

theorem WellDelegated.withdraws (hwell : set.WellDelegated prim)
    {update : PendingProducerUpdate} (hspares : set.SparesDelegation prim update) :
    set.Withdraws prim Settled update := by
  cases update with
  | requestWithdrawal pubkey bondCount bondUnit =>
      intro info hinfo hheld hstays
      obtain ⟨hto, hbonds, hrows⟩ :=
        ProducerInfo.keepsDelegation_applyWithdrawal bondCount bondUnit info
      unfold Settled
      rw [hto, hbonds, hrows, ProducerInfo.applyWithdrawal_bondCount]
      constructor
      · rcases hspares info hinfo with hle | hall
        · omega
        · -- All bonds go and the producer stays: it was slashed, and delegates nothing.
          rw [ProducerInfo.applyWithdrawal_status] at hstays
          have hslashed : info.isSlashed = true := by
            by_contra hnot
            exact hstays (if_pos ⟨hall, by simpa using hnot⟩)
          have hinactive : info.isActive = false := by
            unfold ProducerInfo.isSlashed at hslashed
            unfold ProducerInfo.isActive
            split at hslashed
            case h_1 hstatus => simp [hstatus]
            case h_2 => contradiction
          rw [hwell.idle _ info hinfo (hheld.2 hinactive).1]
          exact Nat.zero_le _
      · exact fun hinactive => hheld.2 (applyWithdrawal_idle hstays hinactive)
  | _ => trivial

theorem WellDelegated.sparesDelegation (hwell : set.WellDelegated prim)
    {pubkey : PublicKey} {bondCount bondUnit cap : Nat}
    (hbounded : ∀ info, (set.applyUpdate prim cap
      (.requestWithdrawal pubkey bondCount bondUnit)).getByPubkey prim pubkey =
        some info → info.delegatedBonds ≤ info.bondCount) :
    set.SparesDelegation prim (.requestWithdrawal pubkey bondCount bondUnit) := by
  intro info hinfo
  by_contra hnot
  simp only [not_or, not_le] at hnot
  obtain ⟨hover, hpart⟩ := hnot
  have hstatus : (info.applyWithdrawal bondCount bondUnit).status = info.status := by
    rw [ProducerInfo.applyWithdrawal_status, if_neg]
    omega
  have hstays : info.status ≠ .exited := by
    intro hexited
    have hnone := ((hwell.settles _ info hinfo).2 (isActive_of_exited hexited)).1
    have hzero := hwell.idle _ info hinfo hnone
    omega
  have hafter : (set.modify (prim.cryptoHash pubkey)
      (·.applyWithdrawal bondCount bondUnit)).producers.lookup
        (prim.cryptoHash pubkey) = some (info.applyWithdrawal bondCount bondUnit) := by
    rw [lookup_modify_self, show set.producers.lookup (prim.cryptoHash pubkey) =
      some info from hinfo]
    rfl
  have hkept := hbounded (info.applyWithdrawal bondCount bondUnit) (by
    simp only [applyUpdate, getByPubkey, hafter, Option.any_some, hstatus,
      decide_eq_true_eq, hstays, if_false])
  rw [ProducerInfo.applyWithdrawal_bondCount,
    (ProducerInfo.keepsDelegation_applyWithdrawal bondCount bondUnit info).2.1] at hkept
  omega

/-! ## One update, and the whole queue -/

theorem WellDelegated.applyUpdate (hwell : set.WellDelegated prim) {cap : Nat}
    {update : PendingProducerUpdate} (hfresh : FreshUpdate update)
    (hspares : set.SparesDelegation prim update) :
    (set.applyUpdate prim cap update).WellDelegated prim :=
  wellDelegated_iff.mpr ((wellDelegated_iff.mp hwell).applyUpdate settled_discipline
    hfresh (hwell.withdraws hspares))

/-- Every withdrawal of the queue spares the delegation it meets. -/
def QueueSpares (prim : Primitives) (cap : Nat) (set : ProducerSet) : Prop :=
  ∀ done update rest, set.pendingUpdates = done ++ update :: rest →
    (done.foldl (ProducerSet.applyUpdate prim cap)
      { set with pendingUpdates := [] }).SparesDelegation prim update

theorem WellDelegated.applyUpdates (hwell : set.WellDelegated prim) {cap : Nat}
    {updates : List PendingProducerUpdate}
    (hfresh : ∀ update ∈ updates, FreshUpdate update)
    (hspares : ∀ done update rest, updates = done ++ update :: rest →
      (done.foldl (ProducerSet.applyUpdate prim cap) set).SparesDelegation prim
        update) :
    (updates.foldl (ProducerSet.applyUpdate prim cap) set).WellDelegated prim := by
  refine (foldl_invariant (fun done state =>
    state = done.foldl (ProducerSet.applyUpdate prim cap) set ∧
      state.WellDelegated prim) ⟨rfl, hwell⟩ ?_).2
  intro done update rest current hupdates hcurrent
  obtain ⟨rfl, hcurrent⟩ := hcurrent
  refine ⟨by simp, hcurrent.applyUpdate (hfresh update ?_)
    (hspares done update rest hupdates)⟩
  simp [hupdates]

theorem WellDelegated.flush (hwell : set.WellDelegated prim) {cap : Nat}
    (hfresh : ∀ update ∈ set.pendingUpdates, FreshUpdate update)
    (hspares : set.QueueSpares prim cap) :
    (set.applyPendingUpdatesWithCap prim cap).WellDelegated prim := by
  have hstart : ({ set with pendingUpdates := [] } : ProducerSet).WellDelegated prim :=
    hwell.of_producers rfl
  exact hstart.applyUpdates hfresh hspares

/-- The condition is exact: a queue that does not spare a delegation has an
update after which a producer delegates more than it holds. -/
theorem WellDelegated.queueSpares_iff (hwell : set.WellDelegated prim) {cap : Nat}
    (hfresh : ∀ update ∈ set.pendingUpdates, FreshUpdate update) :
    set.QueueSpares prim cap ↔
      ∀ done rest, set.pendingUpdates = done ++ rest → ∀ key info,
        (done.foldl (ProducerSet.applyUpdate prim cap)
          { set with pendingUpdates := [] }).producers.lookup key = some info →
            info.delegatedBonds ≤ info.bondCount := by
  have hstart : ({ set with pendingUpdates := [] } : ProducerSet).WellDelegated prim :=
    hwell.of_producers rfl
  constructor
  · intro hspares done rest hqueue key info hinfo
    refine ((WellDelegated.applyUpdates hstart ?_ ?_).settles key info hinfo).1
    · exact fun update hupdate => hfresh update (by simp [hqueue, hupdate])
    · intro before update after hdone
      exact hspares before update (after ++ rest) (by simp [hqueue, hdone])
  · intro hbounded
    have hnext : ∀ done update rest, set.pendingUpdates = done ++ update :: rest →
        (done.foldl (ProducerSet.applyUpdate prim cap)
          { set with pendingUpdates := [] }).WellDelegated prim →
        (done.foldl (ProducerSet.applyUpdate prim cap)
          { set with pendingUpdates := [] }).SparesDelegation prim update := by
      intro done update rest hqueue hdone
      have hafter := hbounded (done ++ [update]) rest (by simp [hqueue])
      rw [List.foldl_append] at hafter
      cases update with
      | requestWithdrawal pubkey bondCount bondUnit =>
          have hheld : ∀ info, ((done.foldl (ProducerSet.applyUpdate prim cap)
              { set with pendingUpdates := [] }).applyUpdate prim cap
                (.requestWithdrawal pubkey bondCount bondUnit)).getByPubkey prim
                  pubkey = some info → info.delegatedBonds ≤ info.bondCount :=
            hafter (prim.cryptoHash pubkey)
          exact hdone.sparesDelegation hheld
      | _ => trivial
    -- By induction on the prefix: what came before left the set in order.
    have hprefixes : ∀ done rest, set.pendingUpdates = done ++ rest →
        (done.foldl (ProducerSet.applyUpdate prim cap)
          { set with pendingUpdates := [] }).WellDelegated prim := by
      intro done
      induction done using List.reverseRecOn with
      | nil => exact fun _ _ => hstart
      | append_singleton done update ih =>
          intro rest hqueue
          have hsplit : set.pendingUpdates = done ++ update :: rest := by
            simpa using hqueue
          have hdone := ih (update :: rest) hsplit
          rw [List.foldl_append]
          exact hdone.applyUpdate (hfresh update (by simp [hsplit]))
            (hnext done update rest hsplit hdone)
    exact fun done update rest hqueue =>
      hnext done update rest hqueue (hprefixes done _ hqueue)

theorem WellDelegated.processUnbonding (hwell : set.WellDelegated prim)
    (height duration : Nat) :
    (set.processUnbonding prim height duration).WellDelegated prim :=
  wellDelegated_iff.mpr ((wellDelegated_iff.mp hwell).processUnbonding
    settled_discipline height duration)

/-! ## Weights -/

/-- A sum over the producers of the set. -/
def total (set : ProducerSet) (measure : ProducerInfo → Nat) : Nat :=
  ∑ key ∈ set.producers.keys, (set.producers.lookup key).elim 0 measure

def activeBonds (info : ProducerInfo) : Nat :=
  if info.isActive then info.bondCount else 0

/-- Weight and delegated bonds are bonds and received bonds, producer by
producer. -/
theorem WellDelegated.weight_add (hwell : set.WellDelegated prim)
    {info : ProducerInfo} (hinfo : set.producers.lookup key = some info)
    {height auditActivation : Nat} (haudit : auditActivation ≤ height) :
    info.selectionWeightAt height auditActivation + info.delegatedBonds =
      activeBonds info + info.receivedTotal := by
  obtain ⟨hbound, hidle⟩ := hwell.settles key info hinfo
  unfold ProducerInfo.selectionWeightAt activeBonds
  cases hactive : info.isActive with
  | true =>
      simp only [if_true, haudit]
      omega
  | false =>
      obtain ⟨hto, hrows⟩ := hidle hactive
      have hbonds := hwell.idle key info hinfo hto
      simp [ProducerInfo.receivedTotal, hrows, hbonds]

theorem WellDelegated.total_received (hwell : set.WellDelegated prim) :
    set.total ProducerInfo.receivedTotal = set.total ProducerInfo.delegatedBonds := by
  have hgiven : ∀ key ∈ set.producers.keys,
      (set.producers.lookup key).elim 0 ProducerInfo.delegatedBonds =
        (set.pledges prim).given key := by
    intro key hkey
    obtain ⟨info, hinfo⟩ := Finmap.mem_iff.mp (Finmap.mem_keys.mp hkey)
    rw [Pledges.given, pledges_of_lookup hinfo, hinfo]
    cases hto : info.delegatedTo with
    | none => simp [hwell.idle key info hinfo hto]
    | some delegatee => rfl
  have hrows : ∀ key ∈ set.producers.keys,
      (set.producers.lookup key).elim 0 ProducerInfo.receivedTotal =
        (((set.producers.lookup key).elim [] ProducerInfo.receivedDelegations).map
          Prod.snd).sum := by
    intro key hkey
    obtain ⟨info, hinfo⟩ := Finmap.mem_iff.mp (Finmap.mem_keys.mp hkey)
    simp [hinfo, ProducerInfo.receivedTotal]
  unfold total
  rw [Finset.sum_congr rfl hgiven, Finset.sum_congr rfl hrows]
  refine Pledges.sum_received set.producers.keys _ ?_ ?_ ?_
  · intro key hkey
    obtain ⟨info, hinfo⟩ := Finmap.mem_iff.mp (Finmap.mem_keys.mp hkey)
    rw [hinfo]
    exact hwell.received key info hinfo
  · intro source hsome
    by_contra hkey
    have hnone : set.producers.lookup source = none := by
      rw [Finmap.lookup_eq_none]
      exact fun hmem => hkey (Finmap.mem_keys.mpr hmem)
    simp [pledges_of_lookup_none hnone] at hsome
  · intro source target haim
    exact Finmap.mem_keys.mpr (Finmap.lookup_isSome.mp (hwell.target source target haim))

theorem WellDelegated.total_weight (hwell : set.WellDelegated prim)
    {height auditActivation : Nat} (haudit : auditActivation ≤ height) :
    set.total (·.selectionWeightAt height auditActivation) = set.total activeBonds := by
  have hsum : set.total (·.selectionWeightAt height auditActivation) +
      set.total ProducerInfo.delegatedBonds =
        set.total activeBonds + set.total ProducerInfo.receivedTotal := by
    unfold total
    rw [← Finset.sum_add_distrib, ← Finset.sum_add_distrib]
    refine Finset.sum_congr rfl fun key hkey => ?_
    obtain ⟨info, hinfo⟩ := Finmap.mem_iff.mp (Finmap.mem_keys.mp hkey)
    simp only [hinfo, Option.elim_some]
    exact hwell.weight_add hinfo haudit
  rw [hwell.total_received] at hsum
  omega

end ProducerSet

end Doli.Producer
