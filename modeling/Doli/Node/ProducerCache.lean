import Doli.Node.DelegationSymmetry
import Doli.Node.NodeState
import Doli.Producer.UnbondingIndex

/-!
# The unbonding index and the active cache of a producer set

A producer set keeps two structures besides the producers: the index of the unbonding ones
and the keys that were active at some height.  Every operation maintains them by hand.  A
pass over the index completes whom a scan of all producers would complete, as long as no
unbonding period ends beyond a `u64`, and a read through the cache is a scan.
-/

namespace Doli.Node

open Doli.Core Doli.Lib Doli.Storage Doli.Producer Doli.Producer.ProducerSet

/-- The order is the one in which the map of producers is iterated. -/
structure CachedSet where
  set : ProducerSet
  order : List Hash
  activeCache : Memo Nat (List Hash)

def Lists (order : List Hash) (producers : Column Hash ProducerInfo) : Prop :=
  order.Nodup ∧ order.toFinset = producers.keys

instance (order : List Hash) (producers : Column Hash ProducerInfo) :
    Decidable (Lists order producers) :=
  inferInstanceAs (Decidable (_ ∧ _))

theorem Lists.mem_iff {order : List Hash} {producers : Column Hash ProducerInfo}
    (hlists : Lists order producers) (key : Hash) :
    key ∈ order ↔ (producers.lookup key).isSome := by
  rw [← List.mem_toFinset, hlists.2, Finmap.mem_keys, Finmap.lookup_isSome]

theorem Lists.congr {order : List Hash} {before after : Column Hash ProducerInfo}
    (hlists : Lists order before)
    (hkeys : ∀ key, (after.lookup key).isSome = (before.lookup key).isSome) :
    Lists order after := by
  refine ⟨hlists.1, Finset.ext fun key => ?_⟩
  rw [List.mem_toFinset, hlists.mem_iff, Finmap.mem_keys, ← Finmap.lookup_isSome, hkeys]

/-- `renew`, with the amount of the old bond. -/
def renew (prim : Primitives) (set : ProducerSet) (pubkey : PublicKey) (newBondAmount : Nat)
    (newBondOutpoint : Outpoint) (currentHeight newEra : Nat) :
    Except LifecycleError (ProducerSet × Nat) :=
  match set.getByPubkey prim pubkey with
  | none => .error .notFound
  | some info =>
      .ok (set.modify (prim.cryptoHash pubkey) fun held =>
        { held with
          bondAmount := newBondAmount
          bondOutpoint := newBondOutpoint
          registeredAt := currentHeight
          registrationEra := newEra
          status := .active }, info.bondAmount)

/-- `producers.retain(…)` of `cleanup_exited` -/
def retainUnexited (order : List Hash) (producers : Column Hash ProducerInfo) :
    Column Hash ProducerInfo :=
  order.foldl (fun column key =>
    if (column.lookup key).any (·.status = .exited) then column.erase key else column) producers

namespace CachedSet

def new : CachedSet := ⟨.new, [], none⟩

section

variable (state : CachedSet)

def eligibleKeys (height : Nat) : List Hash :=
  state.order.filter fun key => (state.set.producers.lookup key).any (isActiveAt height)

/-- The slow path of `active_producers_at_height`. -/
def activeScan (height : Nat) : List ProducerInfo :=
  (state.order.filterMap fun key => state.set.producers.lookup key).filter (isActiveAt height)

def activeProducersAtHeight (height : Nat) : List ProducerInfo :=
  match state.activeCache with
  | some (cachedHeight, keys) =>
      if cachedHeight = height then keys.filterMap fun key => state.set.producers.lookup key
      else state.activeScan height
  | none => state.activeScan height

def ensureActiveCache (height : Nat) : CachedSet :=
  match state.activeCache with
  | some (cachedHeight, _) =>
      if cachedHeight = height then state
      else { state with activeCache := some (height, state.eligibleKeys height) }
  | none => { state with activeCache := some (height, state.eligibleKeys height) }

/-- The keys of the producers that a scan in the order of the map would complete. -/
def unbondingScan (elapsed : ProducerInfo → Bool) : List Hash :=
  state.order.filter fun key => (state.set.producers.lookup key).any elapsed

/-- A refused operation leaves the cache; any other one drops it. -/
def settle {ε : Type} : Except ε ProducerSet → CachedSet
  | .ok next => { state with set := next, activeCache := none }
  | .error _ => state

def applyPendingUpdatesWithCap (prim : Primitives) (cap : Nat) : CachedSet :=
  if state.set.pendingUpdates = [] then state
  else
    { state with
      set := state.set.applyPendingUpdatesWithCap prim cap
      activeCache := none }

/-- The completed producers, each beside its key. -/
def processUnbonding (prim : Primitives) (height duration : Nat) :
    CachedSet × List (Hash × ProducerInfo) :=
  let result := state.set.processUnbondingU64 prim height duration
  ({ state with
      set := result.1
      activeCache := if result.2 = [] then state.activeCache else none }, result.2)

def cleanupExited : CachedSet :=
  let retained := retainUnexited state.order state.set.producers
  { state with
    set := { state.set with producers := retained }
    activeCache :=
      if retained.keys.card = state.set.producers.keys.card then state.activeCache else none }

def clear : CachedSet :=
  ⟨state.set.clear, [], none⟩

/-- The index is rebuilt in the order of the new map. -/
def fromParts (parts : ProducerParts) (order : List Hash) : CachedSet where
  set :=
    { producers := parts.producers
      exitHistory := parts.exitHistory
      unbondingIndex := order.foldl (indexRow parts.producers) []
      pendingUpdates := parts.pendingUpdates }
  order := order
  activeCache := none

end

end CachedSet

inductive CacheOperation where
  | register (info : ProducerInfo) (height : Nat)
  | queueUpdate (update : PendingProducerUpdate)
  | applyPendingUpdatesWithCap (cap : Nat)
  | requestExit (pubkey : PublicKey) (height : Nat)
  | cancelExit (pubkey : PublicKey)
  | renew (pubkey : PublicKey) (newBondAmount : Nat) (newBondOutpoint : Outpoint)
      (currentHeight newEra : Nat)
  | slashProducer (pubkey : PublicKey) (height : Nat)
  | cleanupExited
  | processUnbonding (height duration : Nat)
  | clear
  | fromParts (parts : ProducerParts)
  | delegateBondsCapped (delegator delegatee : PublicKey) (bondCount cap : Nat)
  | revokeDelegation (delegator : PublicKey)
  | ensureActiveCache (height : Nat)

namespace CachedSet

variable (prim : Primitives)

/-- What an operation does to everything but the order of the map. -/
def touch (order : List Hash) (state : CachedSet) : CacheOperation → CachedSet
  | .register info height => state.settle (state.set.register prim info height)
  | .queueUpdate update => { state with set := state.set.queueUpdate update }
  | .applyPendingUpdatesWithCap cap => state.applyPendingUpdatesWithCap prim cap
  | .requestExit pubkey height => state.settle (state.set.requestExit prim pubkey height)
  | .cancelExit pubkey => state.settle (cancelExit prim state.set pubkey)
  | .renew pubkey newBondAmount newBondOutpoint currentHeight newEra =>
      state.settle ((renew prim state.set pubkey newBondAmount newBondOutpoint currentHeight
        newEra).map Prod.fst)
  | .slashProducer pubkey height =>
      state.settle ((state.set.slashProducer prim pubkey height).map Prod.fst)
  | .cleanupExited => state.cleanupExited
  | .processUnbonding height duration => (state.processUnbonding prim height duration).1
  | .clear => state.clear
  | .fromParts parts => fromParts parts order
  | .delegateBondsCapped delegator delegatee bondCount cap =>
      state.settle (state.set.delegateBondsCapped prim delegator delegatee bondCount cap)
  | .revokeDelegation delegator => state.settle (state.set.revokeDelegation prim delegator)
  | .ensureActiveCache height => state.ensureActiveCache height

/-- A map may be iterated in another order once entries were inserted or removed. -/
def reorders (state : CachedSet) : CacheOperation → Bool
  | .register info height => (state.set.register prim info height).isOk
  | .applyPendingUpdatesWithCap _ => !state.set.pendingUpdates.isEmpty
  | .cleanupExited => (retainUnexited state.order state.set.producers).keys.card ≠
      state.set.producers.keys.card
  | .clear => true
  | .fromParts _ => true
  | _ => false

def apply (order : List Hash) (state : CachedSet) (operation : CacheOperation) : CachedSet :=
  if state.reorders prim operation then { state.touch prim order operation with order := order }
  else state.touch prim order operation

end CachedSet

/-- Exits are at heights from 1 up, a height is a `u64`, and nobody is registered while
unbonding. -/
def CacheOperation.FromOne : CacheOperation → Prop
  | .register info _ => info.status.startedAt = none
  | .queueUpdate update => ProducerSet.FromOne update
  | .requestExit _ height => 1 ≤ height
  | .processUnbonding height _ => height < 2 ^ 64
  | .fromParts parts =>
      (∀ key info startedAt, parts.producers.lookup key = some info →
        info.status = .unbonding startedAt → 1 ≤ startedAt) ∧
        ∀ update ∈ parts.pendingUpdates, ProducerSet.FromOne update
  | _ => True

/-- The sets that a sequence of operations reaches, whatever the order of the maps. -/
inductive Reaches (prim : Primitives) : CachedSet → Prop
  | new : Reaches prim .new
  | step {state : CachedSet} {operation : CacheOperation} {order : List Hash}
      (hreached : Reaches prim state) (hfrom : operation.FromOne)
      (hlists : state.reorders prim operation = true →
        Lists order (state.apply prim order operation).set.producers) :
      Reaches prim (state.apply prim order operation)

/-! ## One operation -/

section

variable {prim : Primitives} {set : ProducerSet} {state : CachedSet} {order : List Hash}

theorem retainUnexited_lookup (producers : Column Hash ProducerInfo) (key : Hash) :
    (retainUnexited order producers).lookup key =
      if key ∈ order ∧ (producers.lookup key).any (·.status = .exited) then none
      else producers.lookup key := by
  unfold retainUnexited
  induction order generalizing producers with
  | nil => simp
  | cons first order ih =>
      rw [List.foldl_cons, ih]
      by_cases hkey : key = first
      · subst hkey
        by_cases hexited : (producers.lookup key).any (·.status = .exited) = true
        · simp [hexited]
        · simp [hexited]
      · have hsame : (if (producers.lookup first).any (·.status = .exited) then
            producers.erase first else producers).lookup key = producers.lookup key := by
          split
          · exact Finmap.lookup_erase_ne hkey
          · rfl
        rw [hsame]
        simp [hkey]

theorem retainUnexited_of_card {producers : Column Hash ProducerInfo}
    (hcard : (retainUnexited order producers).keys.card = producers.keys.card) :
    retainUnexited order producers = producers := by
  have hsubset : (retainUnexited order producers).keys ⊆ producers.keys := by
    intro key hkey
    rw [Finmap.mem_keys, ← Finmap.lookup_isSome, retainUnexited_lookup] at hkey
    rw [Finmap.mem_keys, ← Finmap.lookup_isSome]
    split at hkey
    · cases hkey
    · exact hkey
  have hkeys := Finset.eq_of_subset_of_card_le hsubset hcard.ge
  refine Finmap.ext_lookup fun key => ?_
  rw [retainUnexited_lookup]
  split
  case isFalse => rfl
  case isTrue hgone =>
    have hnone : key ∉ (retainUnexited order producers).keys := by
      rw [Finmap.mem_keys, ← Finmap.lookup_isSome, retainUnexited_lookup, if_pos hgone]
      simp
    rw [hkeys, Finmap.mem_keys, ← Finmap.lookup_isSome] at hnone
    cases hlookup : producers.lookup key with
    | none => rfl
    | some info => simp [hlookup] at hnone

theorem indexCovers_cancelExit (hcovers : set.IndexCovers) (pubkey : PublicKey) :
    ((cancelExit prim set pubkey).toOption.getD set).IndexCovers := by
  unfold cancelExit
  split
  · exact hcovers
  split
  case h_2 => exact hcovers
  case h_1 info hinfo startedAt hstatus =>
    have hactive : (set.modify (prim.cryptoHash pubkey)
        ({ · with status := .active })).IndexCovers := hcovers.modify fun _ => .inr rfl
    refine ⟨hactive.rows.prune (fun _ _ hnext => hnext) fun row hrow hmarked => ?_,
      hactive.started⟩
    refine List.mem_filter.mpr ⟨hrow, decide_eq_true ?_⟩
    rintro rfl
    -- The producer itself is active now, so its row is not of an unbonding one.
    rw [unbondingStart_eq_some] at hmarked
    have hself : (set.modify (prim.cryptoHash pubkey)
        ({ · with status := .active })).statusOf (prim.cryptoHash pubkey) =
          some (.unbonding startedAt) := hmarked
    rw [statusOf_modify_self] at hself
    obtain ⟨_, -, hcontra⟩ := Option.map_eq_some_iff.mp hself
    cases hcontra

theorem indexCovers_renew (hcovers : set.IndexCovers) (pubkey : PublicKey)
    (newBondAmount : Nat) (newBondOutpoint : Outpoint) (currentHeight newEra : Nat) :
    (((renew prim set pubkey newBondAmount newBondOutpoint currentHeight newEra).map
      Prod.fst).toOption.getD set).IndexCovers := by
  unfold renew
  split
  · exact hcovers
  · exact hcovers.modify fun _ => .inr rfl

theorem indexCovers_fromParts {parts : ProducerParts}
    (hlists : Lists order parts.producers)
    (hstarted : ∀ key info startedAt, parts.producers.lookup key = some info →
      info.status = .unbonding startedAt → 1 ≤ startedAt) :
    (CachedSet.fromParts parts order).set.IndexCovers where
  rows key startedAt hstart := by
    have hstatus := unbondingStart_eq_some.mp hstart
    obtain ⟨info, hinfo, -⟩ := Option.map_eq_some_iff.mp hstatus
    exact (mem_foldl_indexRow order).mpr (.inr
      ⟨(hlists.mem_iff key).mpr (Option.isSome_iff_exists.mpr ⟨info, hinfo⟩), hstatus⟩)
  started key startedAt hstart := by
    obtain ⟨info, hinfo, hstatus⟩ :=
      Option.map_eq_some_iff.mp (unbondingStart_eq_some.mp hstart)
    exact hstarted key info startedAt hinfo hstatus

/-! ### The keys of the map -/

/-- Neither entries nor their order change when producers are changed in place. -/
def SameKeys (before after : ProducerSet) : Prop :=
  ∀ key, (after.producers.lookup key).isSome = (before.producers.lookup key).isSome

theorem SameKeys.refl (set : ProducerSet) : SameKeys set set := fun _ => rfl

theorem SameKeys.modify (set : ProducerSet) (hash : Hash)
    (change : ProducerInfo → ProducerInfo) : SameKeys set (set.modify hash change) :=
  lookup_modify_isSome set change

theorem SameKeys.cleanup {next : ProducerSet} (hsame : SameKeys set next) (hash : Hash) :
    SameKeys set (next.cleanupAllDelegations prim hash) := by
  intro key
  rw [← statusOf_isSome, statusOf_cleanup, statusOf_isSome, hsame key]

theorem sameKeys_requestExit (pubkey : PublicKey) (height : Nat) :
    SameKeys set ((set.requestExit prim pubkey height).toOption.getD set) := by
  unfold requestExit
  split
  · exact .refl set
  split
  · exact (SameKeys.modify set _ (·.startUnbonding height)).cleanup _
  · exact .refl set

theorem sameKeys_cancelExit (pubkey : PublicKey) :
    SameKeys set ((cancelExit prim set pubkey).toOption.getD set) := by
  unfold cancelExit
  split
  · exact .refl set
  split
  · exact SameKeys.modify set _ ({ · with status := .active })
  · exact .refl set

theorem sameKeys_renew (pubkey : PublicKey) (newBondAmount : Nat) (newBondOutpoint : Outpoint)
    (currentHeight newEra : Nat) :
    SameKeys set (((renew prim set pubkey newBondAmount newBondOutpoint currentHeight
      newEra).map Prod.fst).toOption.getD set) := by
  unfold renew
  split
  · exact .refl set
  · exact SameKeys.modify set _ _

theorem sameKeys_slashProducer (pubkey : PublicKey) (height : Nat) :
    SameKeys set (((set.slashProducer prim pubkey height).map Prod.fst).toOption.getD set) := by
  unfold slashProducer
  split
  · exact .refl set
  split
  · exact .refl set
  · exact (SameKeys.modify set _ (·.slash height)).cleanup _

theorem sameKeys_delegateBondsCapped (delegator delegatee : PublicKey) (bondCount cap : Nat) :
    SameKeys set ((set.delegateBondsCapped prim delegator delegatee bondCount
      cap).toOption.getD set) := by
  have hboth : ∀ (first second : Hash) (one two : ProducerInfo → ProducerInfo),
      SameKeys set ((set.modify first one).modify second two) := fun first second one two key =>
    (lookup_modify_isSome _ two key).trans (lookup_modify_isSome set one key)
  unfold delegateBondsCapped
  split
  · exact .refl set
  split
  · exact .refl set
  split
  · exact .refl set
  dsimp only
  split_ifs
  · exact .refl set
  · exact .refl set
  · exact .refl set
  split
  · exact .refl set
  split_ifs
  · exact .refl set
  · exact .refl set
  · exact hboth _ _ _ _

theorem sameKeys_revokeDelegation (delegator : PublicKey) :
    SameKeys set ((set.revokeDelegation prim delegator).toOption.getD set) := by
  unfold revokeDelegation
  split
  · exact .refl set
  split
  · exact .refl set
  · exact fun key => (lookup_modify_isSome _ _ key).trans (lookup_modify_isSome set _ key)

theorem sameKeys_processUnbondingU64 (height duration : Nat) :
    SameKeys set (set.processUnbondingU64 prim height duration).1 := by
  have hpassed := passedOver_processUnbondingU64 prim set height duration
  intro key
  rw [← statusOf_isSome, ← statusOf_isSome]
  by_cases hkey : key ∈ (set.processUnbondingU64 prim height duration).2.map Prod.fst
  · obtain ⟨startedAt, hstatus, -⟩ := ((hpassed.completed key).mp hkey).2
    rw [hpassed.exited key hkey, hstatus]
    rfl
  · rw [hpassed.others key hkey]

/-! ### What every operation keeps -/

structure Coherent (state : CachedSet) : Prop where
  listed : Lists state.order state.set.producers
  covers : state.set.IndexCovers
  queue : ∀ update ∈ state.set.pendingUpdates, ProducerSet.FromOne update
  cache : state.activeCache.Faithful state.eligibleKeys

namespace Coherent

theorem dropped {next : ProducerSet} (hlisted : Lists order next.producers)
    (hcovers : next.IndexCovers)
    (hqueue : ∀ update ∈ next.pendingUpdates, ProducerSet.FromOne update) :
    Coherent ⟨next, order, none⟩ :=
  ⟨hlisted, hcovers, hqueue, Memo.faithful_none _⟩

theorem kept (hcoherent : Coherent state) {next : ProducerSet}
    (hproducers : next.producers = state.set.producers) (hcovers : next.IndexCovers)
    (hqueue : ∀ update ∈ next.pendingUpdates, ProducerSet.FromOne update) :
    Coherent { state with set := next } := by
  refine ⟨hproducers ▸ hcoherent.listed, hcovers, hqueue, ?_⟩
  have hkeys : CachedSet.eligibleKeys { state with set := next } = state.eligibleKeys := by
    funext height
    simp only [CachedSet.eligibleKeys, hproducers]
  rw [hkeys]
  exact hcoherent.cache

theorem settle (hcoherent : Coherent state) {ε : Type} {result : Except ε ProducerSet}
    (hkeys : SameKeys state.set (result.toOption.getD state.set))
    (hcovers : (result.toOption.getD state.set).IndexCovers)
    (hqueue : (result.toOption.getD state.set).pendingUpdates = state.set.pendingUpdates) :
    Coherent (state.settle result) := by
  cases result with
  | error error => exact hcoherent
  | ok next =>
      exact dropped (hcoherent.listed.congr hkeys) hcovers fun update hupdate =>
        hcoherent.queue update (hqueue ▸ hupdate)

theorem new : Coherent .new where
  listed := ⟨List.nodup_nil, rfl⟩
  covers := { rows := nofun, started := nofun }
  queue update hupdate := by cases hupdate
  cache := Memo.faithful_none _

theorem register (hcoherent : Coherent state) {info : ProducerInfo}
    (hfresh : info.status.startedAt = none) {height : Nat}
    (hlists : state.reorders prim (.register info height) = true → Lists order
      (state.apply prim order (.register info height)).set.producers) :
    Coherent (state.apply prim order (.register info height)) := by
  have hqueue := applyUpdate_pendingUpdates prim 0 state.set (.register info height)
  simp only [ProducerSet.applyUpdate] at hqueue
  cases hok : state.set.register prim info height with
  | error error =>
      simpa [CachedSet.apply, CachedSet.reorders, CachedSet.touch, CachedSet.settle, hok,
        Except.isOk, Except.toBool] using hcoherent
  | ok next =>
      have happly : state.apply prim order (.register info height) = ⟨next, order, none⟩ := by
        simp [CachedSet.apply, CachedSet.reorders, CachedSet.touch, CachedSet.settle, hok,
          Except.isOk, Except.toBool]
      rw [happly] at hlists ⊢
      rw [hok] at hqueue
      refine dropped (hlists ?_) ?_ fun update hupdate => hcoherent.queue update (hqueue ▸ hupdate)
      · simp [CachedSet.reorders, hok, Except.isOk, Except.toBool]
      · have hnext := hcoherent.covers.register prim hfresh height
        rwa [hok] at hnext

theorem flush (hcoherent : Coherent state) {cap : Nat}
    (hlists : state.reorders prim (.applyPendingUpdatesWithCap cap) = true → Lists order
      (state.apply prim order (.applyPendingUpdatesWithCap cap)).set.producers) :
    Coherent (state.apply prim order (.applyPendingUpdatesWithCap cap)) := by
  by_cases hempty : state.set.pendingUpdates = []
  · simpa [CachedSet.apply, CachedSet.reorders, CachedSet.touch,
      CachedSet.applyPendingUpdatesWithCap, hempty] using hcoherent
  · have hsome : state.reorders prim (.applyPendingUpdatesWithCap cap) = true := by
      simpa [CachedSet.reorders] using hempty
    have happly : state.apply prim order (.applyPendingUpdatesWithCap cap) =
        ⟨state.set.applyPendingUpdatesWithCap prim cap, order, none⟩ := by
      simp [CachedSet.apply, hsome, CachedSet.touch, CachedSet.applyPendingUpdatesWithCap, hempty]
    rw [happly] at hlists ⊢
    refine dropped (hlists hsome)
      (hcoherent.covers.applyPendingUpdatesWithCap cap hcoherent.queue) fun update hupdate => ?_
    rw [applyPendingUpdatesWithCap_pendingUpdates] at hupdate
    cases hupdate

theorem cleanupExited (hcoherent : Coherent state)
    (hlists : state.reorders prim .cleanupExited = true → Lists order
      (state.apply prim order .cleanupExited).set.producers) :
    Coherent (state.apply prim order .cleanupExited) := by
  by_cases hcard : (retainUnexited state.order state.set.producers).keys.card =
      state.set.producers.keys.card
  · have happly : state.apply prim order .cleanupExited = state := by
      simp [CachedSet.apply, CachedSet.reorders, CachedSet.touch, CachedSet.cleanupExited,
        retainUnexited_of_card hcard]
    rwa [happly]
  · have hsome : state.reorders prim .cleanupExited = true := by
      simpa [CachedSet.reorders] using hcard
    have happly : state.apply prim order .cleanupExited =
        ⟨{ state.set with producers := retainUnexited state.order state.set.producers },
          order, none⟩ := by
      simp [CachedSet.apply, hsome, CachedSet.touch, CachedSet.cleanupExited, hcard]
    rw [happly] at hlists ⊢
    refine dropped (hlists hsome)
      (hcoherent.covers.of_status rfl fun key startedAt hnext => ?_) hcoherent.queue
    obtain ⟨info, hinfo, hstatus⟩ := Option.map_eq_some_iff.mp hnext
    dsimp only at hinfo
    rw [retainUnexited_lookup] at hinfo
    split at hinfo
    · cases hinfo
    · rw [statusOf, hinfo, Option.map_some, hstatus]

theorem processUnbonding (hcoherent : Coherent state) {height duration : Nat}
    (hheight : height < 2 ^ 64) :
    Coherent (state.processUnbonding prim height duration).1 := by
  have hpassed := passedOver_processUnbondingU64 prim state.set height duration
  have hcovers := hcoherent.covers.processUnbonding prim duration hheight
  have hqueue : ∀ update ∈ (state.set.processUnbondingU64 prim height duration).1.pendingUpdates,
      ProducerSet.FromOne update := fun update hupdate =>
    hcoherent.queue update (hpassed.queue ▸ hupdate)
  by_cases hnone : (state.set.processUnbondingU64 prim height duration).2 = []
  · simp only [CachedSet.processUnbonding, if_pos hnone]
    exact hcoherent.kept (hpassed.idle hnone) hcovers hqueue
  · simp only [CachedSet.processUnbonding, if_neg hnone]
    exact dropped (hcoherent.listed.congr (sameKeys_processUnbondingU64 height duration))
      hcovers hqueue

theorem ensureActiveCache (hcoherent : Coherent state) (height : Nat) :
    Coherent (state.ensureActiveCache height) := by
  have hfilled : Coherent { state with
      activeCache := some (height, state.eligibleKeys height) } :=
    ⟨hcoherent.listed, hcoherent.covers, hcoherent.queue, Memo.faithful_some _ height⟩
  unfold CachedSet.ensureActiveCache
  split
  · split
    · exact hcoherent
    · exact hfilled
  · exact hfilled

theorem apply (hcoherent : Coherent state) {operation : CacheOperation}
    (hfrom : operation.FromOne)
    (hlists : state.reorders prim operation = true →
      Lists order (state.apply prim order operation).set.producers) :
    Coherent (state.apply prim order operation) := by
  cases operation with
  | register info height => exact hcoherent.register hfrom hlists
  | queueUpdate update =>
      refine hcoherent.kept rfl (hcoherent.covers.congr rfl rfl) fun other hother => ?_
      rcases List.mem_append.mp hother with hqueued | hnew
      · exact hcoherent.queue other hqueued
      · exact List.mem_singleton.mp hnew ▸ hfrom
  | applyPendingUpdatesWithCap cap => exact hcoherent.flush hlists
  | requestExit pubkey height =>
      exact hcoherent.settle (sameKeys_requestExit pubkey height)
        (hcoherent.covers.requestExit pubkey hfrom)
        (applyUpdate_pendingUpdates prim 0 state.set (.exit pubkey height))
  | cancelExit pubkey =>
      refine hcoherent.settle (sameKeys_cancelExit pubkey)
        (indexCovers_cancelExit hcoherent.covers pubkey) ?_
      unfold Node.cancelExit
      split
      · rfl
      · split <;> simp [Except.toOption]
  | renew pubkey newBondAmount newBondOutpoint currentHeight newEra =>
      refine hcoherent.settle (sameKeys_renew pubkey newBondAmount newBondOutpoint
        currentHeight newEra) (indexCovers_renew hcoherent.covers pubkey newBondAmount
          newBondOutpoint currentHeight newEra) ?_
      unfold Node.renew
      split <;> simp [Except.toOption, Except.map]
  | slashProducer pubkey height =>
      have hsame : ((state.set.slashProducer prim pubkey height).map Prod.fst).toOption =
          (state.set.slashProducer prim pubkey height).toOption.map Prod.fst := by
        cases state.set.slashProducer prim pubkey height <;> rfl
      refine hcoherent.settle (sameKeys_slashProducer pubkey height) ?_ ?_
      · rw [hsame]
        exact hcoherent.covers.slashProducer pubkey height
      · rw [hsame]
        exact applyUpdate_pendingUpdates prim 0 state.set (.slash pubkey height)
  | cleanupExited => exact hcoherent.cleanupExited hlists
  | processUnbonding height duration => exact hcoherent.processUnbonding hfrom
  | clear =>
      refine dropped (hlists rfl) (hcoherent.covers.of_status rfl fun key startedAt hnext => ?_)
        fun update hupdate => by cases hupdate
      cases hnext
  | fromParts parts =>
      exact dropped (hlists rfl) (indexCovers_fromParts (hlists rfl) hfrom.1) hfrom.2
  | delegateBondsCapped delegator delegatee bondCount cap =>
      exact hcoherent.settle (sameKeys_delegateBondsCapped delegator delegatee bondCount cap)
        (hcoherent.covers.delegateBondsCapped delegator delegatee bondCount cap)
        (applyUpdate_pendingUpdates prim cap state.set
          (.delegateBond delegator delegatee bondCount))
  | revokeDelegation delegator =>
      exact hcoherent.settle (sameKeys_revokeDelegation delegator)
        (hcoherent.covers.revokeDelegation delegator)
        (applyUpdate_pendingUpdates prim 0 state.set (.revokeDelegation delegator))
  | ensureActiveCache height => exact hcoherent.ensureActiveCache height

end Coherent

theorem Reaches.coherent (hreached : Reaches prim state) : Coherent state := by
  induction hreached with
  | new => exact .new
  | step _ hfrom hlists ih => exact ih.apply hfrom hlists

/-! ## Every sequence of operations -/

namespace CachedSet

theorem activeScan_eq (state : CachedSet) (height : Nat) :
    state.activeScan height =
      (state.eligibleKeys height).filterMap fun key => state.set.producers.lookup key := by
  unfold activeScan eligibleKeys
  generalize state.order = keys
  induction keys with
  | nil => rfl
  | cons key keys ih =>
      cases hlookup : state.set.producers.lookup key with
      | none => simp [hlookup, ih]
      | some info =>
          by_cases hactive : isActiveAt height info = true
          · simp [hlookup, hactive, ih]
          · simp [hlookup, hactive, ih]

theorem activeProducersAtHeight_eq (state : CachedSet) (height : Nat) :
    state.activeProducersAtHeight height =
      (state.activeCache.read state.eligibleKeys height).filterMap fun key =>
        state.set.producers.lookup key := by
  obtain ⟨set, order, activeCache⟩ := state
  cases activeCache with
  | none => exact activeScan_eq _ height
  | some remembered =>
      obtain ⟨cachedHeight, keys⟩ := remembered
      by_cases hheight : cachedHeight = height
      · simp only [activeProducersAtHeight, Memo.read, if_pos hheight]
      · simp only [activeProducersAtHeight, Memo.read, if_neg hheight]
        exact activeScan_eq _ height

end CachedSet

theorem unbondingScan_eq {duration : Nat} (hfit : state.set.StartsFit duration) (height : Nat) :
    state.unbondingScan (·.isUnbondingCompleteU64 height duration) =
      state.unbondingScan (·.isUnbondingComplete height duration) := by
  unfold CachedSet.unbondingScan
  refine List.filter_congr fun key _ => ?_
  cases hinfo : state.set.producers.lookup key with
  | none => rfl
  | some info => exact isUnbondingComplete_eq hfit hinfo height

theorem mem_unbondingScan (hlisted : Lists state.order state.set.producers)
    (height duration : Nat) (key : Hash) :
    key ∈ state.unbondingScan (·.isUnbondingCompleteU64 height duration) ↔
      state.set.ElapsedAt height duration key := by
  rw [elapsedAt_iff, CachedSet.unbondingScan, List.mem_filter, hlisted.mem_iff]
  cases state.set.producers.lookup key with
  | none => simp
  | some info => simp

/-- A pass over the index is a scan, and so is a read through the cache. -/
theorem pass_is_scan (hreached : Reaches prim state) {height duration : Nat}
    (hfit : state.set.StartsFit duration) :
    let result := state.processUnbonding prim height duration
    let scan := state.unbondingScan (·.isUnbondingCompleteU64 height duration)
    (result.2.map Prod.fst).Perm scan ∧
      scan = state.unbondingScan (·.isUnbondingComplete height duration) ∧
      (∀ key, result.1.set.statusOf key =
        if key ∈ scan then some .exited else state.set.statusOf key) ∧
      ∀ other, state.activeProducersAtHeight other = state.activeScan other := by
  have hcoherent := hreached.coherent
  have hpassed := passedOver_processUnbondingU64 prim state.set height duration
  have hmem : ∀ key, key ∈ (state.processUnbonding prim height duration).2.map Prod.fst ↔
      key ∈ state.unbondingScan (·.isUnbondingCompleteU64 height duration) := fun key =>
    (hcoherent.covers.mem_completed_iff hfit).trans
      (mem_unbondingScan hcoherent.listed height duration key).symm
  refine ⟨(List.perm_ext_iff_of_nodup hpassed.nodup (hcoherent.listed.1.filter _)).mpr hmem,
    unbondingScan_eq hfit height, fun key => ?_, fun other => ?_⟩
  · split
    case isTrue hscan => exact hpassed.exited key ((hmem key).mpr hscan)
    case isFalse hscan => exact hpassed.others key (hscan ∘ (hmem key).mp)
  · rw [state.activeProducersAtHeight_eq, hcoherent.cache.read_eq, state.activeScan_eq]

end

/-! ### One producer that exits -/

def cachedKey : Hash := samplePrimitives.cryptoHash sampleKey

/-- The operations on one producer after its registration. -/
def cachedRun (operations : List CacheOperation) : CachedSet :=
  (.register (sampleProducer sampleKey 1) 1 :: operations).foldl
    (CachedSet.apply samplePrimitives [cachedKey]) .new

/-- No operation inserts or removes an entry. -/
def inPlace (state : CachedSet) : List CacheOperation → Bool
  | [] => true
  | operation :: operations => !state.reorders samplePrimitives operation &&
      inPlace (state.apply samplePrimitives [cachedKey] operation) operations

theorem reaches_inPlace {state : CachedSet} (hreached : Reaches samplePrimitives state)
    {operations : List CacheOperation} (hfrom : ∀ operation ∈ operations, operation.FromOne)
    (hplace : inPlace state operations = true) :
    Reaches samplePrimitives
      (operations.foldl (CachedSet.apply samplePrimitives [cachedKey]) state) := by
  induction operations generalizing state with
  | nil => exact hreached
  | cons operation operations ih =>
      obtain ⟨hfirst, hrest⟩ := Bool.and_eq_true_iff.mp hplace
      refine ih (hreached.step (hfrom operation List.mem_cons_self) fun hreorders => ?_)
        (fun other hother => hfrom other (List.mem_cons_of_mem _ hother)) hrest
      simp [hreorders] at hfirst

theorem reaches_cachedRun {operations : List CacheOperation}
    (hfrom : ∀ operation ∈ operations, operation.FromOne)
    (hplace : inPlace (cachedRun []) operations = true) :
    Reaches samplePrimitives (cachedRun operations) := by
  have hregister : (CacheOperation.register (sampleProducer sampleKey 1) 1).FromOne := rfl
  refine reaches_inPlace (Reaches.new.step hregister fun _ => ?_) hfrom hplace
  decide +kernel

def exitingRun : CachedSet :=
  cachedRun [.requestExit sampleKey 5, .ensureActiveCache 9]

theorem reaches_exitingRun : Reaches samplePrimitives exitingRun :=
  reaches_cachedRun (by simp [CacheOperation.FromOne]) (by decide +kernel)

theorem startsFit_exitingRun : exitingRun.set.StartsFit unbondingPeriod := by
  intro key startedAt hstatus
  have hlisted := reaches_exitingRun.coherent.listed
  have horder : exitingRun.order = [cachedKey] := by decide +kernel
  have hkey : key ∈ exitingRun.order := by
    rw [hlisted.mem_iff, ← statusOf_isSome, hstatus]
    rfl
  rw [horder, List.mem_singleton] at hkey
  have hheld : exitingRun.set.statusOf cachedKey = some (.unbonding 5) := by decide +kernel
  rw [hkey, hheld] at hstatus
  cases hstatus
  decide

theorem pass_is_scan_exiting :
    let result := exitingRun.processUnbonding samplePrimitives 60485 unbondingPeriod
    let scan := exitingRun.unbondingScan (·.isUnbondingCompleteU64 60485 unbondingPeriod)
    (result.2.map Prod.fst).Perm scan ∧
      scan = exitingRun.unbondingScan (·.isUnbondingComplete 60485 unbondingPeriod) ∧
      (∀ key, result.1.set.statusOf key =
        if key ∈ scan then some .exited else exitingRun.set.statusOf key) ∧
      ∀ other, exitingRun.activeProducersAtHeight other = exitingRun.activeScan other :=
  pass_is_scan reaches_exitingRun startsFit_exitingRun

/-- The period of an exit may end beyond the word.  A scan by the sum of the code then
completes a producer that the index does not lead to; and the row of an exit that was
renewed completes one whose exit is a block old. -/
theorem late_exit_diverges :
    (∃ state, Reaches samplePrimitives state ∧
      ¬((state.processUnbonding samplePrimitives (2 ^ 64 - 1) unbondingPeriod).2.map
        Prod.fst).Perm (state.unbondingScan
          (·.isUnbondingCompleteU64 (2 ^ 64 - 1) unbondingPeriod))) ∧
      ∃ state, Reaches samplePrimitives state ∧
        ¬((state.processUnbonding samplePrimitives (2 ^ 64 - 1) unbondingPeriod).2.map
          Prod.fst).Perm (state.unbondingScan
            (·.isUnbondingComplete (2 ^ 64 - 1) unbondingPeriod)) := by
  constructor
  · refine ⟨cachedRun [.requestExit sampleKey (2 ^ 64 - 2)],
      reaches_cachedRun (by simp [CacheOperation.FromOne]) (by decide +kernel), ?_⟩
    decide +kernel
  · refine ⟨cachedRun [.requestExit sampleKey 1, .renew sampleKey 5 ⟨⟨901⟩, 0⟩ 2 0,
      .requestExit sampleKey (2 ^ 64 - 2)],
      reaches_cachedRun (by simp [CacheOperation.FromOne]) (by decide +kernel), ?_⟩
    decide +kernel

end Doli.Node
