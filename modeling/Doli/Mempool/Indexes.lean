import Doli.Mempool.Steps
import Doli.Validation.PoolChange

/-!
# The indexes of the mempool

Every index is the one that the entries determine, whatever the mempool has been through:
each operation is a sequence of removals with at most one insertion among them.
-/

namespace Doli

open Doli.Core Doli.Lib Doli.Storage

namespace Mempool

section

variable (pool : Mempool)

def Holds (hash : Hash) (p : MempoolEntry → Prop) : Prop :=
  ∃ entry, pool.entries.lookup hash = some entry ∧ p entry

def Spends (outpoint : Outpoint) (hash : Hash) : Prop :=
  pool.Holds hash fun entry => outpoint ∈ entry.outpoints

def Pays (address hash : Hash) : Prop :=
  pool.Holds hash fun entry => address ∈ entry.addresses

/-- An AMM transaction that spends the outpoint. -/
def Contends (outpoint : Outpoint) (hash : Hash) : Prop :=
  pool.Holds hash fun entry =>
    isPoolContentionType entry.tx.txType = true ∧ outpoint ∈ entry.outpoints

structure IndexesExact : Prop where
  totalSize : pool.totalSize = holdings MempoolEntry.size pool.entries
  byFeeRate : ∀ rate hash,
    (rate, hash) ∈ pool.byFeeRate ↔ pool.Holds hash fun entry => entry.feeRate = rate
  byAddress : pool.byAddress.Lists pool.Pays
  spentOutputs : ∀ outpoint hash,
    pool.spentOutputs.lookup outpoint = some hash ↔ pool.Spends outpoint hash
  contention : ∀ outpoint hash,
    hash ∈ pool.poolUtxoContention.members outpoint → pool.Contends outpoint hash
  contentionGroups : pool.poolUtxoContention.NoneEmpty
  count : pool.entries.keys.card ≤ pool.policy.maxCount
  size : pool.totalSize ≤ pool.policy.maxSize

end

/-- What is left of `pool` after some removals. -/
structure Within (next pool : Mempool) : Prop where
  entries : ∀ hash entry, next.bareAt hash = some entry → pool.bareAt hash = some entry
  policy : next.policy = pool.policy

variable {pool next : Mempool} {hash txHash : Hash} {entry : MempoolEntry}
  {p : MempoolEntry → Prop} {worth : MempoolEntry → Nat}

/-! ## Properties of the bare entries -/

theorem holds_iff_bareAt (hp : ∀ entry, p entry.bare ↔ p entry) :
    pool.Holds hash p ↔ ∃ entry, pool.bareAt hash = some entry ∧ p entry := by
  unfold Holds bareAt
  constructor
  · rintro ⟨entry, hentry, hholds⟩
    exact ⟨entry.bare, by rw [hentry, Option.map_some], (hp entry).mpr hholds⟩
  · rintro ⟨bare, hbare, hholds⟩
    obtain ⟨entry, hentry, rfl⟩ := Option.map_eq_some_iff.mp hbare
    exact ⟨entry, hentry, (hp entry).mp hholds⟩

theorem Within.holds (hwithin : next.Within pool) (hp : ∀ entry, p entry.bare ↔ p entry)
    (hholds : next.Holds hash p) : pool.Holds hash p := by
  rw [holds_iff_bareAt hp] at hholds ⊢
  obtain ⟨entry, hentry, hproperty⟩ := hholds
  exact ⟨entry, hwithin.entries hash entry hentry, hproperty⟩

theorem Within.refl (pool : Mempool) : pool.Within pool := ⟨fun _ _ => id, rfl⟩

theorem policy_removeTransaction (pool : Mempool) (txHash : Hash) :
    (pool.removeTransaction txHash).policy = pool.policy := by
  unfold removeTransaction
  split
  · rfl
  · rfl

theorem Within.removeTransaction (hwithin : next.Within pool) (txHash : Hash) :
    (next.removeTransaction txHash).Within pool where
  entries hash entry hentry := by
    rw [bareAt_removeTransaction] at hentry
    split at hentry
    · cases hentry
    · exact hwithin.entries hash entry hentry
  policy := (policy_removeTransaction next txHash).trans hwithin.policy

theorem within_makeRoom (pool : Mempool) (newTxSize : Nat) :
    (pool.makeRoom newTxSize).1.Within pool :=
  makeRoom_invariant (fun next => next.Within pool) (.refl pool)
    (fun _ txHash _ hwithin _ _ => hwithin.removeTransaction txHash) newTxSize

theorem mem_of_within (hwithin : next.Within pool) (hmem : hash ∈ next.entries) :
    hash ∈ pool.entries := by
  obtain ⟨entry, hentry⟩ := Finmap.mem_iff.mp hmem
  obtain ⟨other, hother, -⟩ := hwithin.holds (p := fun _ => True) (fun _ => Iff.rfl)
    ⟨entry, hentry, trivial⟩
  exact Finmap.mem_of_lookup_eq_some hother

theorem holds_removeTransaction (hp : ∀ entry, p entry.bare ↔ p entry) (txHash : Hash) :
    (pool.removeTransaction txHash).Holds hash p ↔ hash ≠ txHash ∧ pool.Holds hash p := by
  rw [holds_iff_bareAt hp, holds_iff_bareAt hp, bareAt_removeTransaction]
  split
  case isTrue hhash => simp [hhash]
  case isFalse hhash => simp [hhash]

theorem holds_place (hp : ∀ entry, p entry.bare ↔ p entry) (txHash : Hash)
    (entry : MempoolEntry) (ancestors : Finset Hash) (poolOutpoint : Option Outpoint) :
    (pool.place txHash entry ancestors poolOutpoint).Holds hash p ↔
      (hash = txHash ∧ p entry) ∨ (hash ≠ txHash ∧ pool.Holds hash p) := by
  rw [holds_iff_bareAt hp, holds_iff_bareAt hp, bareAt_place]
  split
  case isTrue hhash => simp [hhash, hp]
  case isFalse hhash => simp [hhash]

theorem worthAt_bareAt (hworth : ∀ entry, worth entry.bare = worth entry) (pool : Mempool)
    (hash : Hash) :
    worthAt worth pool.entries hash = (pool.bareAt hash).elim 0 worth := by
  unfold worthAt bareAt
  cases pool.entries.lookup hash with
  | none => rfl
  | some entry => exact (hworth entry).symm

theorem holdings_removeTransaction (hworth : ∀ entry, worth entry.bare = worth entry)
    (hentry : pool.entries.lookup txHash = some entry) :
    holdings worth (pool.removeTransaction txHash).entries + worth entry =
      holdings worth pool.entries := by
  have hsame : holdings worth (pool.removeTransaction txHash).entries =
      holdings worth (pool.entries.erase txHash) := by
    apply holdings_congr
    intro other
    rw [worthAt_bareAt hworth, bareAt_removeTransaction, worthAt_erase]
    split
    · rfl
    · exact (worthAt_bareAt hworth pool other).symm
  have hat : worthAt worth pool.entries txHash = worth entry := worthAt_of_lookup hentry
  rw [hsame, ← hat, holdings_erase]

theorem holdings_place (hworth : ∀ entry, worth entry.bare = worth entry)
    (hnew : txHash ∉ pool.entries) (entry : MempoolEntry) (ancestors : Finset Hash)
    (poolOutpoint : Option Outpoint) :
    holdings worth (pool.place txHash entry ancestors poolOutpoint).entries =
      holdings worth pool.entries + worth entry := by
  have hsame : holdings worth (pool.place txHash entry ancestors poolOutpoint).entries =
      holdings worth (pool.entries.insert txHash entry) := by
    apply holdings_congr
    intro other
    rw [worthAt_bareAt hworth, bareAt_place]
    split
    case isTrue hother =>
      rw [hother, worthAt_of_lookup (Finmap.lookup_insert pool.entries)]
      exact hworth entry
    case isFalse hother =>
      rw [worthAt, Finmap.lookup_insert_of_ne _ hother]
      exact (worthAt_bareAt hworth pool other).symm
  have hkept := holdings_erase worth pool.entries txHash
  rw [worthAt_of_notMem (mt Finmap.mem_keys.mp hnew), Nat.add_zero] at hkept
  rw [hsame, holdings_insert, hkept]

/-! ## A removal -/

theorem IndexesExact.spent_unique (hexact : pool.IndexesExact) {outpoint : Outpoint}
    {first second : Hash} (hfirst : pool.Spends outpoint first)
    (hsecond : pool.Spends outpoint second) : first = second := by
  rw [← hexact.spentOutputs] at hfirst hsecond
  exact Option.some.inj (hfirst.symm.trans hsecond)

section

variable (hentry : pool.entries.lookup txHash = some entry)

include hentry

theorem holds_iff_of_lookup : pool.Holds txHash p ↔ p entry := by
  simp [Holds, hentry]

theorem byFeeRate_removeTransaction (hexact : pool.IndexesExact) (rate : Nat) (hash : Hash) :
    (rate, hash) ∈ (pool.removeTransaction txHash).byFeeRate ↔
      (pool.removeTransaction txHash).Holds hash fun entry => entry.feeRate = rate := by
  rw [holds_removeTransaction fun _ => Iff.rfl, ← hexact.byFeeRate]
  simp only [Mempool.removeTransaction, hentry, Finset.mem_erase, ne_eq, Prod.mk.injEq]
  constructor
  · rintro ⟨hother, hrow⟩
    refine ⟨?_, hrow⟩
    rintro rfl
    have hrate := (holds_iff_of_lookup hentry).mp ((hexact.byFeeRate rate hash).mp hrow)
    exact hother ⟨hrate.symm, rfl⟩
  · rintro ⟨hother, hrow⟩
    exact ⟨fun hsame => hother hsame.2, hrow⟩

theorem byAddress_removeTransaction (hexact : pool.IndexesExact) :
    (pool.removeTransaction txHash).byAddress.Lists (pool.removeTransaction txHash).Pays := by
  have hdropped : (pool.removeTransaction txHash).byAddress =
      Groups.dropAll txHash entry.addresses pool.byAddress := by
    simp [Mempool.removeTransaction, hentry]
  rw [hdropped]
  apply hexact.byAddress.dropAll
  intro address hash
  rw [Pays, Pays, holds_removeTransaction fun _ => Iff.rfl]
  by_cases hhash : hash = txHash
  · rw [hhash, holds_iff_of_lookup hentry]
    simp
  · simp [hhash]

theorem spentOutputs_removeTransaction (hexact : pool.IndexesExact) (outpoint : Outpoint)
    (hash : Hash) :
    (pool.removeTransaction txHash).spentOutputs.lookup outpoint = some hash ↔
      (pool.removeTransaction txHash).Spends outpoint hash := by
  have herased : (pool.removeTransaction txHash).spentOutputs =
      Journal.eraseAll entry.outpoints pool.spentOutputs := by
    simp [Mempool.removeTransaction, hentry]
  rw [herased, Journal.lookup_eraseAll, Spends, holds_removeTransaction fun _ => Iff.rfl,
    ← Spends]
  split
  case isTrue hspent =>
    have hown : pool.Spends outpoint txHash := (holds_iff_of_lookup hentry).mpr hspent
    constructor
    · exact fun hnone => absurd hnone (by simp)
    · exact fun hother => absurd (hexact.spent_unique hother.2 hown) hother.1
  case isFalse hfree =>
    rw [hexact.spentOutputs]
    constructor
    · intro hspends
      refine ⟨?_, hspends⟩
      rintro rfl
      exact hfree ((holds_iff_of_lookup hentry).mp hspends)
    · exact And.right

theorem contends_of_removeTransaction (hexact : pool.IndexesExact) {outpoint : Outpoint}
    {hash : Hash}
    (hmem : hash ∈ (pool.removeTransaction txHash).poolUtxoContention.members outpoint) :
    (pool.removeTransaction txHash).Contends outpoint hash := by
  rw [Contends, holds_removeTransaction fun _ => Iff.rfl]
  simp only [Mempool.removeTransaction, hentry] at hmem
  split at hmem
  case isTrue htype =>
    rw [Groups.mem_dropAll] at hmem
    have hcontends := hexact.contention outpoint hash hmem.1
    refine ⟨?_, hcontends⟩
    rintro rfl
    exact hmem.2 ⟨((holds_iff_of_lookup hentry).mp hcontends).2, rfl⟩
  case isFalse htype =>
    have hcontends := hexact.contention outpoint hash hmem
    refine ⟨?_, hcontends⟩
    rintro rfl
    exact htype ((holds_iff_of_lookup hentry).mp hcontends).1

end

theorem IndexesExact.removeTransaction (hexact : pool.IndexesExact) (txHash : Hash) :
    (pool.removeTransaction txHash).IndexesExact := by
  cases hentry : pool.entries.lookup txHash with
  | none =>
      rw [removeTransaction_of_none hentry]
      exact hexact
  | some entry =>
      have hsize : holdings MempoolEntry.size (pool.removeTransaction txHash).entries +
          entry.size = holdings MempoolEntry.size pool.entries :=
        holdings_removeTransaction (fun _ => rfl) hentry
      have hcount : holdings (fun _ => 1) (pool.removeTransaction txHash).entries + 1 =
          holdings (fun _ => 1) pool.entries :=
        holdings_removeTransaction (fun _ => rfl) hentry
      rw [holdings_one, holdings_one] at hcount
      have hpolicy := policy_removeTransaction pool txHash
      have htotal : (pool.removeTransaction txHash).totalSize = pool.totalSize - entry.size := by
        simp [Mempool.removeTransaction, hentry]
      have hlimit := hexact.count
      have hbound := hexact.size
      have hall := hexact.totalSize
      constructor
      case totalSize => rw [htotal, hall]; omega
      case count => rw [hpolicy]; omega
      case size => rw [htotal, hpolicy]; omega
      case byFeeRate => exact byFeeRate_removeTransaction hentry hexact
      case byAddress => exact byAddress_removeTransaction hentry hexact
      case spentOutputs => exact spentOutputs_removeTransaction hentry hexact
      case contention => exact fun _ _ => contends_of_removeTransaction hentry hexact
      case contentionGroups =>
        simp only [Mempool.removeTransaction, hentry]
        split
        · exact Groups.noneEmpty_dropAll hexact.contentionGroups
        · exact hexact.contentionGroups

theorem IndexesExact.removeAll (hexact : pool.IndexesExact) (hashes : List Hash) :
    (pool.removeAll hashes).IndexesExact :=
  foldl_invariant (fun _ (current : Mempool) => current.IndexesExact) hexact
    fun _ hash _ _ _ hcurrent => hcurrent.removeTransaction hash

theorem IndexesExact.makeRoom (hexact : pool.IndexesExact) (newTxSize : Nat) :
    (pool.makeRoom newTxSize).1.IndexesExact :=
  makeRoom_invariant IndexesExact hexact
    (fun _ txHash _ hcurrent _ _ => hcurrent.removeTransaction txHash) newTxSize

/-! ## An insertion -/

theorem not_holds_of_notMem (hnew : txHash ∉ pool.entries) : ¬pool.Holds txHash p := by
  rintro ⟨entry, hentry, -⟩
  exact hnew (Finmap.mem_of_lookup_eq_some hentry)

theorem ne_of_holds (hnew : txHash ∉ pool.entries) (hholds : pool.Holds hash p) :
    hash ≠ txHash := by
  rintro rfl
  exact not_holds_of_notMem hnew hholds

section

variable {ancestors : Finset Hash} {poolOutpoint : Option Outpoint}

theorem figure_addAncestors {α : Type} {figure : MempoolEntry → α}
    (hfigure : ∀ entry, figure entry.bare = figure entry) (rows : List (Hash × Nat × Nat))
    (entry : MempoolEntry) : figure (addAncestors rows entry) = figure entry := by
  rw [← hfigure, bare_addAncestors, hfigure]

section

variable (hnew : txHash ∉ pool.entries) (hexact : pool.IndexesExact)

include hnew hexact

theorem byFeeRate_place (rate : Nat) (hash : Hash) :
    (rate, hash) ∈ (pool.place txHash entry ancestors poolOutpoint).byFeeRate ↔
      (pool.place txHash entry ancestors poolOutpoint).Holds hash
        fun entry => entry.feeRate = rate := by
  have hrate : (addAncestors (pool.ancestorRows ancestors) entry).feeRate = entry.feeRate :=
    figure_addAncestors (fun _ => rfl) _ entry
  rw [holds_place fun _ => Iff.rfl, ← hexact.byFeeRate]
  simp only [Mempool.place, enter, hrate, Finset.mem_insert, Prod.mk.injEq]
  have hother : (rate, hash) ∈ pool.byFeeRate → hash ≠ txHash :=
    fun hrow => ne_of_holds hnew ((hexact.byFeeRate rate hash).mp hrow)
  tauto

theorem byAddress_place :
    (pool.place txHash entry ancestors poolOutpoint).byAddress.Lists
      (pool.place txHash entry ancestors poolOutpoint).Pays := by
  apply hexact.byAddress.addAll
  intro address hash
  rw [Pays, Pays, holds_place fun _ => Iff.rfl]
  have hother : pool.Holds hash (fun entry => address ∈ entry.addresses) → hash ≠ txHash :=
    ne_of_holds hnew
  tauto

theorem spentOutputs_place
    (hfree : ∀ outpoint ∈ entry.outpoints, ∀ hash, ¬pool.Spends outpoint hash)
    (outpoint : Outpoint) (hash : Hash) :
    (pool.place txHash entry ancestors poolOutpoint).spentOutputs.lookup outpoint = some hash ↔
      (pool.place txHash entry ancestors poolOutpoint).Spends outpoint hash := by
  rw [Spends, holds_place fun _ => Iff.rfl, ← Spends]
  change (Journal.insertAll (entry.outpoints.map fun outpoint => (outpoint, txHash))
    pool.spentOutputs).lookup outpoint = some hash ↔ _
  rw [lookup_insertAll_map]
  have hother : pool.Spends outpoint hash → hash ≠ txHash := ne_of_holds hnew
  split
  case isTrue hspent =>
    have hnone := hfree outpoint hspent hash
    rw [Option.some.injEq, eq_comm]
    tauto
  case isFalse =>
    rw [hexact.spentOutputs]
    tauto

theorem contends_of_place
    (hpool : ∀ outpoint ∈ poolOutpoint,
      isPoolContentionType entry.tx.txType = true ∧ outpoint ∈ entry.outpoints)
    {outpoint : Outpoint} {hash : Hash}
    (hmem : hash ∈
      (pool.place txHash entry ancestors poolOutpoint).poolUtxoContention.members outpoint) :
    (pool.place txHash entry ancestors poolOutpoint).Contends outpoint hash := by
  rw [Contends, holds_place fun _ => Iff.rfl, ← Contends]
  rcases Groups.mem_addAll.mp hmem with ⟨hpoint, rfl⟩ | hold
  · exact .inl ⟨rfl, hpool outpoint (Option.mem_toList.mp hpoint)⟩
  · have hcontends := hexact.contention outpoint hash hold
    exact .inr ⟨ne_of_holds hnew hcontends, hcontends⟩

end

theorem IndexesExact.place (hexact : pool.IndexesExact) (hnew : txHash ∉ pool.entries)
    (hfree : ∀ outpoint ∈ entry.outpoints, ∀ hash, ¬pool.Spends outpoint hash)
    (hpool : ∀ outpoint ∈ poolOutpoint,
      isPoolContentionType entry.tx.txType = true ∧ outpoint ∈ entry.outpoints)
    (hroom : pool.needsEviction entry.size = false) :
    (pool.place txHash entry ancestors poolOutpoint).IndexesExact := by
  have hlinked : (addAncestors (pool.ancestorRows ancestors) entry).size = entry.size :=
    figure_addAncestors (fun _ => rfl) _ entry
  have htotal : (pool.place txHash entry ancestors poolOutpoint).totalSize =
      pool.totalSize + entry.size := by
    simp [Mempool.place, enter, hlinked]
  have hsize : holdings MempoolEntry.size
      (pool.place txHash entry ancestors poolOutpoint).entries =
        holdings MempoolEntry.size pool.entries + entry.size :=
    holdings_place (fun _ => rfl) hnew entry ancestors poolOutpoint
  have hcount : holdings (fun _ => 1)
      (pool.place txHash entry ancestors poolOutpoint).entries =
        holdings (fun _ => 1) pool.entries + 1 :=
    holdings_place (fun _ => rfl) hnew entry ancestors poolOutpoint
  rw [holdings_one, holdings_one] at hcount
  simp only [needsEviction, decide_eq_false_iff_not, not_or, not_le, not_lt] at hroom
  have hall := hexact.totalSize
  constructor
  case totalSize => rw [htotal, hsize, hall]
  case count => rw [hcount]; exact hroom.1
  case size => rw [htotal]; exact hroom.2
  case byFeeRate => exact byFeeRate_place hnew hexact
  case byAddress => exact byAddress_place hnew hexact
  case spentOutputs => exact spentOutputs_place hnew hexact hfree
  case contention => exact fun _ _ => contends_of_place hnew hexact hpool
  case contentionGroups => exact Groups.noneEmpty_addAll hexact.contentionGroups

end

theorem place_of_zeroFlow (hinputs : entry.tx.inputs = []) (houtputs : entry.tx.outputs = [])
    (pool : Mempool) (txHash : Hash) :
    pool.place txHash entry ∅ none = pool.enter txHash entry := by
  have houtpoints : entry.outpoints = [] := by simp [MempoolEntry.outpoints, hinputs]
  have haddresses : entry.addresses = [] := by simp [MempoolEntry.addresses, houtputs]
  unfold Mempool.place
  rw [houtpoints, haddresses]
  rfl

/-! ## What an operation can do -/

section

variable (config : MempoolConfig) (view : NodeView) (pool : Mempool) (db : StateDb)
  (tx : Transaction) (now height slot : Nat)

theorem addTransaction_cases :
    (Doli.addTransaction config view pool db tx now height slot).1 = pool.watch slot ∨
      (Doli.addTransaction config view pool db tx now height slot).1 =
        ((pool.watch slot).makeRoom (config.size tx)).1 ∨
      ∃ admission placed,
        admissionOf config view (pool.watch slot) db tx height slot = .ok admission ∧
          ((pool.watch slot).makeRoom (config.size tx)).2 = true ∧
            placed = ((pool.watch slot).makeRoom (config.size tx)).1.place admission.txHash
              { MempoolEntry.new admission.txHash (config.size tx) now tx admission.fee with
                evictExempt := admission.slashExempt }
              admission.ancestors admission.poolOutpoint ∧
              (Doli.addTransaction config view pool db tx now height slot).1 =
                placed.removeAll
                  (withdrawalsForSlash config.gates.base admission.judged placed db tx) := by
  unfold Doli.addTransaction
  cases hadmission : admissionOf config view (pool.watch slot) db tx height slot with
  | error error => exact .inl rfl
  | ok admission =>
      dsimp only
      unfold insertAdmitted
      rcases (pool.watch slot).makeRoom (config.size tx) with ⟨room, fits⟩
      cases fits with
      | false => exact .inr (.inl rfl)
      | true => exact .inr (.inr ⟨admission, _, rfl, rfl, rfl, rfl⟩)

theorem addSystemTransaction_cases (policy : Transaction → Nat → Except MempoolError Unit) :
    (Doli.addSystemTransaction config view policy pool tx now height).1 = pool ∨
      (Doli.addSystemTransaction config view policy pool tx now height).1 =
        ((pool.pruneChanges (changeKey config tx)).makeRoom (config.size tx)).1 ∨
      checkSystemTransaction config view policy pool tx height = .ok () ∧
        ((pool.pruneChanges (changeKey config tx)).makeRoom (config.size tx)).2 = true ∧
          (Doli.addSystemTransaction config view policy pool tx now height).1 =
            (((pool.pruneChanges (changeKey config tx)).makeRoom (config.size tx)).1.enter
              (config.prim.txHash tx)
              (.new (config.prim.txHash tx) (config.size tx) now tx 0)).recordChange
                (config.prim.txHash tx) (changeKey config tx) := by
  unfold Doli.addSystemTransaction
  cases hchecked : checkSystemTransaction config view policy pool tx height with
  | error error => exact .inl rfl
  | ok _ =>
      rcases (pool.pruneChanges (changeKey config tx)).makeRoom (config.size tx) with
        ⟨room, fits⟩
      cases fits with
      | false => exact .inr (.inl rfl)
      | true => exact .inr (.inr ⟨rfl, rfl, rfl⟩)

theorem evictLowestFee_cases :
    pool.evictLowestFee.getD pool = pool ∨
      ∃ txHash entry, pool.entries.lookup txHash = some entry ∧ entry.descendants = ∅ ∧
        pool.evictLowestFee.getD pool = pool.removeTransaction txHash := by
  cases hevict : pool.evictLowestFee with
  | none => exact .inl rfl
  | some next =>
      obtain ⟨txHash, entry, hentry, hleaf, -, rfl⟩ := evictLowestFee_eq_some hevict
      exact .inr ⟨txHash, entry, hentry, hleaf, rfl⟩

end

theorem notMem_of_checkSystemTransaction {config : MempoolConfig} {view : NodeView}
    {policy : Transaction → Nat → Except MempoolError Unit} {tx : Transaction} {height : Nat}
    (hchecked : checkSystemTransaction config view policy pool tx height = .ok ()) :
    config.prim.txHash tx ∉ pool.entries := by
  simp only [checkSystemTransaction, bind_eq_ok, exists_unit, refuseIf_eq_ok] at hchecked
  exact hchecked.1

/-! ## Every operation -/

theorem indexesExact_new (policy : MempoolPolicy) : (Mempool.new policy).IndexesExact where
  totalSize := rfl
  byFeeRate := by simp [Mempool.new, Holds, Finmap.lookup_empty]
  byAddress := Groups.lists_empty (by simp [Mempool.new, Pays, Holds, Finmap.lookup_empty])
  spentOutputs := by simp [Mempool.new, Spends, Holds, Finmap.lookup_empty]
  contention := by simp [Mempool.new]
  contentionGroups := Groups.noneEmpty_empty
  count := Nat.zero_le _
  size := Nat.zero_le _

theorem IndexesExact.unread (hexact : pool.IndexesExact) (slotWatermark : Nat)
    (changeIndex : List (ChangeKey × Hash)) :
    { pool with slotWatermark := slotWatermark, changeIndex := changeIndex }.IndexesExact :=
  ⟨hexact.totalSize, hexact.byFeeRate, hexact.byAddress, hexact.spentOutputs,
    hexact.contention, hexact.contentionGroups, hexact.count, hexact.size⟩

theorem IndexesExact.watch (hexact : pool.IndexesExact) (slot : Nat) :
    (pool.watch slot).IndexesExact :=
  hexact.unread (max pool.slotWatermark slot) pool.changeIndex

theorem IndexesExact.pruneChanges (hexact : pool.IndexesExact) (key : Option ChangeKey) :
    (pool.pruneChanges key).IndexesExact := by
  unfold Mempool.pruneChanges
  split
  · exact hexact.unread _ _
  · exact hexact

theorem IndexesExact.recordChange (hexact : pool.IndexesExact) (key : Option ChangeKey) :
    (pool.recordChange txHash key).IndexesExact := by
  unfold Mempool.recordChange
  split
  · exact hexact
  · exact hexact.unread _ _

theorem entries_pruneChanges (pool : Mempool) (key : Option ChangeKey) :
    (pool.pruneChanges key).entries = pool.entries := by
  unfold Mempool.pruneChanges
  split
  · rfl
  · rfl

theorem entries_recordChange (pool : Mempool) (txHash : Hash) (key : Option ChangeKey) :
    (pool.recordChange txHash key).entries = pool.entries := by
  unfold recordChange
  split
  · rfl
  · rfl

section

variable {config : MempoolConfig} {view : NodeView} {db : StateDb} {tx : Transaction}
  {now height slot : Nat}

theorem IndexesExact.addTransaction (hexact : pool.IndexesExact) :
    (Doli.addTransaction config view pool db tx now height slot).1.IndexesExact := by
  have hwatched := hexact.watch slot
  have hroom := hwatched.makeRoom (config.size tx)
  rcases addTransaction_cases config view pool db tx now height slot with
    hrefused | hfull | ⟨admission, placed, hadmission, hmade, rfl, hplaced⟩
  · rw [hrefused]
    exact hwatched
  · rw [hfull]
    exact hroom
  · rw [hplaced]
    obtain ⟨judged, payment, hstructure, -, -, hlimits, rfl⟩ := admissionOf_eq_ok.mp hadmission
    have hnew := notMem_of_admitStructure hstructure
    have hwithin := within_makeRoom (pool.watch slot) (config.size tx)
    apply IndexesExact.removeAll
    apply hroom.place (mt (mem_of_within hwithin) hnew)
    case hpool => exact fun outpoint hpoint => poolInput_eq_some hpoint
    case hroom => exact needsEviction_of_makeRoom hmade
    case hfree =>
      intro outpoint hmem hash hspends
      have hspent := hwithin.holds (fun _ => Iff.rfl) hspends
      have hsame := spent_of_checkLimits hlimits hmem
        ((hwatched.spentOutputs outpoint hash).mpr hspent)
      exact not_holds_of_notMem hnew (hsame ▸ hspent)

theorem IndexesExact.addSystemTransaction {policy : Transaction → Nat → Except MempoolError Unit}
    (hexact : pool.IndexesExact) (hinputs : tx.inputs = []) (houtputs : tx.outputs = []) :
    (Doli.addSystemTransaction config view policy pool tx now height).1.IndexesExact := by
  have hpruned := hexact.pruneChanges (changeKey config tx)
  have hroom := hpruned.makeRoom (config.size tx)
  rcases addSystemTransaction_cases config view pool tx now height policy with
    hrefused | hfull | ⟨hchecked, hmade, hentered⟩
  · rw [hrefused]
    exact hexact
  · rw [hfull]
    exact hroom
  · rw [hentered, ← place_of_zeroFlow hinputs houtputs]
    have hnew := notMem_of_checkSystemTransaction hchecked
    rw [← entries_pruneChanges pool (changeKey config tx)] at hnew
    have hwithin := within_makeRoom (pool.pruneChanges (changeKey config tx)) (config.size tx)
    apply IndexesExact.recordChange
    apply hroom.place (mt (mem_of_within hwithin) hnew)
    case hpool => simp
    case hroom => exact needsEviction_of_makeRoom hmade
    case hfree => simp [MempoolEntry.outpoints, MempoolEntry.new, hinputs]

def SystemLaneZeroFlow : MempoolOp → Prop
  | .addSystemTransaction _ _ tx _ _ => tx.inputs = [] ∧ tx.outputs = []
  | _ => True

theorem IndexesExact.step (hexact : pool.IndexesExact) {op : MempoolOp}
    (hlane : SystemLaneZeroFlow op) : (mempoolStep config pool op).IndexesExact := by
  cases op with
  | addTransaction view db tx now height slot => exact hexact.addTransaction
  | addSystemTransaction view policy tx now height =>
      exact hexact.addSystemTransaction hlane.1 hlane.2
  | removeTransaction hash => exact hexact.removeTransaction hash
  | evictLowestFee =>
      rw [mempoolStep]
      rcases evictLowestFee_cases pool with hnone | ⟨txHash, -, -, -, hevicted⟩
      · rw [hnone]
        exact hexact
      · rw [hevicted]
        exact hexact.removeTransaction txHash
  | removeForBlock txs => exact hexact.removeAll _
  | expireOld now => exact hexact.removeAll _
  | revalidate view db height slot => exact (hexact.watch slot).removeAll _
  | removeRegistrationTxs => exact hexact.removeAll _
  | removeByErrorPattern message => exact hexact.removeAll _

/-- Every index is exact in every reachable state, and no outpoint is spent twice. -/
theorem indexes_exact_of_run (policy : MempoolPolicy) {ops : List MempoolOp}
    (hlane : ∀ op ∈ ops, SystemLaneZeroFlow op) :
    (mempoolRun config policy ops).IndexesExact ∧
      ∀ outpoint first second, (mempoolRun config policy ops).Spends outpoint first →
        (mempoolRun config policy ops).Spends outpoint second → first = second := by
  have hexact : (mempoolRun config policy ops).IndexesExact := by
    apply foldl_invariant (fun _ (current : Mempool) => current.IndexesExact)
      (indexesExact_new policy)
    intro done op rest current hops hcurrent
    exact hcurrent.step (hlane op (by simp [hops]))
  exact ⟨hexact, fun _ _ _ => hexact.spent_unique⟩

end

/-! ## What comes in -/

/-- An entry as one of the two lanes inserts it. -/
inductive Inserted (config : MempoolConfig) : Hash → MempoolEntry → Prop where
  | user {view : NodeView} {pool : Mempool} {db : StateDb} {tx : Transaction}
      {height slot : Nat} {admission : Admission} (now : Nat)
      (hadmission : admissionOf config view pool db tx height slot = .ok admission) :
      Inserted config admission.txHash
        { MempoolEntry.new admission.txHash (config.size tx) now tx admission.fee with
          evictExempt := admission.slashExempt }
  | system {view : NodeView} {policy : Transaction → Nat → Except MempoolError Unit}
      {pool : Mempool} {tx : Transaction} {height : Nat} (now : Nat)
      (hchecked : checkSystemTransaction config view policy pool tx height = .ok ()) :
      Inserted config (config.prim.txHash tx)
        (.new (config.prim.txHash tx) (config.size tx) now tx 0)

/-- Its place among the others apart, every resident is as it was inserted. -/
def AllInserted (config : MempoolConfig) (pool : Mempool) : Prop :=
  ∀ hash bare, pool.bareAt hash = some bare →
    ∃ entry, Inserted config hash entry ∧ entry.bare = bare

section

variable {config : MempoolConfig}

theorem Within.removeAll (hwithin : next.Within pool) (hashes : List Hash) :
    (next.removeAll hashes).Within pool :=
  foldl_invariant (fun _ (current : Mempool) => current.Within pool) hwithin
    fun _ hash _ _ _ hcurrent => hcurrent.removeTransaction hash

theorem AllInserted.of_within (hall : AllInserted config pool) (hwithin : next.Within pool) :
    AllInserted config next :=
  fun hash bare hbare => hall hash bare (hwithin.entries hash bare hbare)

theorem AllInserted.place (hall : AllInserted config pool)
    (hinserted : Inserted config txHash entry) (ancestors : Finset Hash)
    (poolOutpoint : Option Outpoint) :
    AllInserted config (pool.place txHash entry ancestors poolOutpoint) := by
  intro hash bare hbare
  rw [bareAt_place] at hbare
  split at hbare
  case isTrue hsame =>
    rw [hsame]
    exact ⟨entry, hinserted, Option.some.inj hbare⟩
  case isFalse => exact hall hash bare hbare

theorem AllInserted.addTransaction {view : NodeView} {db : StateDb} {tx : Transaction}
    {now height slot : Nat} (hall : AllInserted config pool) :
    AllInserted config (Doli.addTransaction config view pool db tx now height slot).1 := by
  have hwatched : AllInserted config (pool.watch slot) := hall
  have hroom := hwatched.of_within (within_makeRoom (pool.watch slot) (config.size tx))
  rcases addTransaction_cases config view pool db tx now height slot with
    hrefused | hfull | ⟨admission, placed, hadmission, -, rfl, hplaced⟩
  · rw [hrefused]
    exact hwatched
  · rw [hfull]
    exact hroom
  · rw [hplaced]
    refine AllInserted.of_within ?_ ((Within.refl _).removeAll _)
    exact hroom.place (.user now hadmission) _ _

theorem AllInserted.addSystemTransaction {view : NodeView} {tx : Transaction}
    {policy : Transaction → Nat → Except MempoolError Unit} {now height : Nat}
    (hall : AllInserted config pool) :
    AllInserted config (Doli.addSystemTransaction config view policy pool tx now height).1 := by
  have hpruned : AllInserted config (pool.pruneChanges (changeKey config tx)) := by
    intro hash bare hbare
    rw [bareAt, entries_pruneChanges] at hbare
    exact hall hash bare hbare
  have hroom := hpruned.of_within
    (within_makeRoom (pool.pruneChanges (changeKey config tx)) (config.size tx))
  rcases addSystemTransaction_cases config view pool tx now height policy with
    hrefused | hfull | ⟨hchecked, -, hentered⟩
  · rw [hrefused]
    exact hall
  · rw [hfull]
    exact hroom
  · rw [hentered]
    intro hash bare hbare
    rw [bareAt, entries_recordChange] at hbare
    have hplaced := hroom.place (.system now hchecked) ∅ none
    exact hplaced hash bare hbare

theorem AllInserted.step (hall : AllInserted config pool) (op : MempoolOp) :
    AllInserted config (mempoolStep config pool op) := by
  have hkept : ∀ hashes, AllInserted config (pool.removeAll hashes) :=
    fun hashes => hall.of_within ((Within.refl pool).removeAll hashes)
  cases op with
  | addTransaction view db tx now height slot => exact hall.addTransaction
  | addSystemTransaction view policy tx now height => exact hall.addSystemTransaction
  | removeTransaction hash => exact hkept [hash]
  | evictLowestFee =>
      rw [mempoolStep]
      rcases evictLowestFee_cases pool with hnone | ⟨txHash, -, -, -, hevicted⟩
      · rw [hnone]
        exact hall
      · rw [hevicted]
        exact hkept [txHash]
  | removeForBlock txs => exact hkept _
  | expireOld now => exact hkept _
  | revalidate view db height slot =>
      have hwatched : AllInserted config (pool.watch slot) := hall
      exact hwatched.of_within ((Within.refl _).removeAll _)
  | removeRegistrationTxs => exact hkept _
  | removeByErrorPattern message => exact hkept _

theorem inserted_of_run (policy : MempoolPolicy) (ops : List MempoolOp) :
    AllInserted config (mempoolRun config policy ops) := by
  apply foldl_invariant (fun _ (current : Mempool) => AllInserted config current)
  case hinit => simp [AllInserted, bareAt, new]
  case hstep => exact fun _ op _ _ _ hcurrent => hcurrent.step op

theorem holds_of_run (policy : MempoolPolicy) (ops : List MempoolOp)
    (hentry : (mempoolRun config policy ops).entries.lookup hash = some entry) :
    config.prim.txHash entry.tx = hash ∧ entry.size = config.size entry.tx := by
  have hbare : (mempoolRun config policy ops).bareAt hash = some entry.bare := by
    rw [bareAt, hentry, Option.map_some]
  obtain ⟨inserted, hinserted, hsame⟩ := inserted_of_run policy ops hash entry.bare hbare
  have htx : inserted.bare.tx = entry.bare.tx := by rw [hsame]
  have hsize : inserted.bare.size = entry.bare.size := by rw [hsame]
  change inserted.tx = entry.tx at htx
  change inserted.size = entry.size at hsize
  rw [← htx, ← hsize]
  cases hinserted with
  | user now hadmission =>
      obtain ⟨_, _, -, -, -, -, rfl⟩ := admissionOf_eq_ok.mp hadmission
      exact ⟨rfl, rfl⟩
  | system now hchecked => exact ⟨rfl, rfl⟩

end

end Mempool

/-! ## On given inputs -/

open Validation (sampleSpendingContext sampleSpend samplePaid)

def sampleMempoolConfig : MempoolConfig where
  gates := sampleSpendingContext
  sigVerificationHeight := 0
  coinbaseMaturity := 6
  size tx := tx.hashPreimage.length
  changeTarget _ := none

def sampleView : NodeView where
  activeProducersWeighted := []
  pendingProducerKeys := []
  live := none
  holdings := none

def samplePayment (outpoint : Outpoint) (amount : Nat) : Transaction where
  version := 1
  txType := .transfer
  inputs := [sampleSpend 1 outpoint]
  outputs := [samplePaid amount]
  extraData := []

def sampleCoins : StateDb := StateDb.empty.insertUtxo ⟨⟨9⟩, 0⟩ ⟨samplePaid 5000, 1, false, false⟩

/-- A payment is admitted and confirmed. -/
def sampleConfirmed : List MempoolOp :=
  [.addTransaction sampleView sampleCoins (samplePayment ⟨⟨9⟩, 0⟩ 4900) 1000 20 5,
    .removeForBlock [samplePayment ⟨⟨9⟩, 0⟩ 4900], .revalidate sampleView .empty 21 6]

/-- The payment is handed to the system lane. -/
def sampleMisrouted : List MempoolOp :=
  [.addSystemTransaction sampleView (fun _ _ => .ok ()) (samplePayment ⟨⟨9⟩, 0⟩ 4900) 1000 20]

namespace Mempool

theorem indexes_exact_of_run_sample :
    (mempoolRun sampleMempoolConfig .mainnet sampleConfirmed).IndexesExact ∧
      ∀ outpoint first second,
        (mempoolRun sampleMempoolConfig .mainnet sampleConfirmed).Spends outpoint first →
          (mempoolRun sampleMempoolConfig .mainnet sampleConfirmed).Spends outpoint second →
            first = second :=
  indexes_exact_of_run .mainnet (by simp [sampleConfirmed, SystemLaneZeroFlow])

example : (addTransaction sampleMempoolConfig sampleView (.new .mainnet) sampleCoins
    (samplePayment ⟨⟨9⟩, 0⟩ 4900) 1000 20 5).2 =
      .ok ⟨sampleMempoolConfig.prim.txHash (samplePayment ⟨⟨9⟩, 0⟩ 4900), none⟩ := by
  decide +kernel

/-- The coin it spends is not marked as spent. -/
theorem misrouted_payment_unindexed :
    ¬∀ config policy ops, (mempoolRun config policy ops).IndexesExact := by
  intro hall
  have hexact := hall sampleMempoolConfig .mainnet sampleMisrouted
  have hresident : ((mempoolRun sampleMempoolConfig .mainnet sampleMisrouted).entries.lookup
      (sampleMempoolConfig.prim.txHash (samplePayment ⟨⟨9⟩, 0⟩ 4900))).any
        (fun entry => decide (⟨⟨9⟩, 0⟩ ∈ entry.outpoints)) = true := by
    decide +kernel
  have hunmarked : (mempoolRun sampleMempoolConfig .mainnet sampleMisrouted).spentOutputs.lookup
      ⟨⟨9⟩, 0⟩ = none := by
    decide +kernel
  cases hentry : (mempoolRun sampleMempoolConfig .mainnet sampleMisrouted).entries.lookup
      (sampleMempoolConfig.prim.txHash (samplePayment ⟨⟨9⟩, 0⟩ 4900)) with
  | none =>
      rw [hentry] at hresident
      cases hresident
  | some entry =>
      rw [hentry, Option.any_some, decide_eq_true_eq] at hresident
      have hmarked := (hexact.spentOutputs _ _).mpr ⟨entry, hentry, hresident⟩
      rw [hunmarked] at hmarked
      cases hmarked

end Mempool

end Doli
