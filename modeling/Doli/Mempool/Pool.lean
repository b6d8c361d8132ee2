import Doli.Lib.Groups
import Doli.Lib.Holdings
import Doli.Producer.Persisted
import Doli.Validation.OutputAuthority

/-!
# The mempool

The resident transactions and what the mempool keeps beside them: the order by fee rate,
the addresses they pay, the outpoints they spend, the Pool outpoints that AMM transactions
contend for, and their total size.  Hash sets and maps are visited in the order of their
keys; no result depends on it.
-/

namespace Doli

open Doli.Core Doli.Lib Doli.Storage

structure MempoolEntry where
  tx : Transaction
  txHash : Hash
  fee : Nat
  feeRate : Nat
  size : Nat
  addedTime : Nat
  ancestors : Finset Hash
  descendants : Finset Hash
  ancestorFee : Nat
  ancestorSize : Nat
  evictExempt : Bool
  deriving DecidableEq

structure MempoolPolicy where
  maxCount : Nat
  maxSize : Nat
  minFeeRate : Nat
  maxTxSize : Nat
  maxAncestors : Nat
  maxDescendants : Nat
  maxAge : Nat
  deriving DecidableEq, Repr

def MempoolPolicy.mainnet : MempoolPolicy where
  maxCount := 5000
  maxSize := 10 * 1024 * 1024
  minFeeRate := 0
  maxTxSize := 600 * 1024
  maxAncestors := 25
  maxDescendants := 25
  maxAge := 14 * 24 * 60 * 60

/-- What makes a zero-flow transaction the same as a resident one. -/
inductive ChangeKey where
  | maintainer (isAdd : Bool) (target : PublicKey)
  | delegator (key : PublicKey)
  deriving DecidableEq, Repr

structure Mempool where
  entries : Column Hash MempoolEntry
  byFeeRate : Finset (Nat × Hash)
  byAddress : Groups Hash Hash
  spentOutputs : Column Outpoint Hash
  poolUtxoContention : Groups Outpoint Hash
  policy : MempoolPolicy
  totalSize : Nat
  slotWatermark : Nat
  changeIndex : List (ChangeKey × Hash)

/-! ## Entries -/

namespace MempoolEntry

/-- `checked_div`, or zero. -/
def new (txHash : Hash) (size now : Nat) (tx : Transaction) (fee : Nat) : MempoolEntry where
  tx := tx
  txHash := txHash
  fee := fee
  feeRate := fee / size
  size := size
  addedTime := now
  ancestors := ∅
  descendants := ∅
  ancestorFee := fee
  ancestorSize := size
  evictExempt := false

variable (entry : MempoolEntry)

def outpoints : List Outpoint := entry.tx.inputs.map inputOutpoint

def addresses : List Hash := entry.tx.outputs.map Output.pubkeyHash

def effectiveFeeRate : Nat :=
  if 0 < entry.ancestorSize then entry.ancestorFee / entry.ancestorSize else entry.feeRate

/-- The fee is added as a `u64`. -/
def addAncestor (hash : Hash) (fee size : Nat) : MempoolEntry :=
  if hash ∈ entry.ancestors then entry
  else
    { entry with
      ancestors := insert hash entry.ancestors
      ancestorFee := (entry.ancestorFee + fee) % 2 ^ 64
      ancestorSize := entry.ancestorSize + size }

def addDescendant (hash : Hash) : MempoolEntry :=
  { entry with descendants := insert hash entry.descendants }

def removeAncestor (hash : Hash) (fee size : Nat) : MempoolEntry :=
  if hash ∈ entry.ancestors then
    { entry with
      ancestors := entry.ancestors.erase hash
      ancestorFee := entry.ancestorFee - fee
      ancestorSize := entry.ancestorSize - size }
  else entry

def removeDescendant (hash : Hash) : MempoolEntry :=
  { entry with descendants := entry.descendants.erase hash }

def age (now : Nat) : Nat := now - entry.addedTime

/-- The entry without its place among the others. -/
def bare : MempoolEntry :=
  { entry with ancestors := ∅, descendants := ∅, ancestorFee := 0, ancestorSize := 0 }

@[simp] theorem bare_addAncestor (hash : Hash) (fee size : Nat) :
    (entry.addAncestor hash fee size).bare = entry.bare := by
  unfold addAncestor
  split
  · rfl
  · rfl

@[simp] theorem bare_removeAncestor (hash : Hash) (fee size : Nat) :
    (entry.removeAncestor hash fee size).bare = entry.bare := by
  unfold removeAncestor
  split
  · rfl
  · rfl

@[simp] theorem bare_addDescendant (hash : Hash) :
    (entry.addDescendant hash).bare = entry.bare := rfl

@[simp] theorem bare_removeDescendant (hash : Hash) :
    (entry.removeDescendant hash).bare = entry.bare := rfl

end MempoolEntry

/-! ## Taking a transaction out -/

def isPoolContentionType (kind : TxType) : Bool := Validation.needsPool kind

def rateLe (left right : Nat × Hash) : Prop :=
  left.1 < right.1 ∨ (left.1 = right.1 ∧ left.2.bytesLe right.2)

instance : DecidableRel rateLe := fun left right =>
  inferInstanceAs (Decidable (left.1 < right.1 ∨ (left.1 = right.1 ∧ left.2.bytesLe right.2)))

instance : Std.Total rateLe where
  total left right := by
    have hhash : left.2.bytesLe right.2 ∨ right.2.bytesLe left.2 := Std.Total.total _ _
    unfold rateLe
    rcases Nat.lt_trichotomy left.1 right.1 with hlt | heq | hlt
    · exact .inl (.inl hlt)
    · exact hhash.imp (fun hle => .inr ⟨heq, hle⟩) fun hle => .inr ⟨heq.symm, hle⟩
    · exact .inr (.inl hlt)

instance : IsTrans (Nat × Hash) rateLe where
  trans left middle right hfirst hsecond := by
    have hhash : left.2.bytesLe middle.2 → middle.2.bytesLe right.2 →
        left.2.bytesLe right.2 := trans_of Hash.bytesLe
    unfold rateLe at hfirst hsecond ⊢
    rcases hfirst with hlt | ⟨heq, hle⟩
    · omega
    · rcases hsecond with hlt' | ⟨heq', hle'⟩
      · omega
      · exact .inr ⟨heq.trans heq', hhash hle hle'⟩

instance : Std.Antisymm rateLe where
  antisymm left right hle hge := by
    unfold rateLe at hle hge
    have hhash : left.2.bytesLe right.2 → right.2.bytesLe left.2 → left.2 = right.2 :=
      Std.Antisymm.antisymm _ _
    rcases hle with hlt | ⟨heq, hle⟩
    · omega
    · rcases hge with hlt' | ⟨-, hge⟩
      · omega
      · exact Prod.ext heq (hhash hle hge)

namespace Mempool

def new (policy : MempoolPolicy) : Mempool where
  entries := ∅
  byFeeRate := ∅
  byAddress := ∅
  spentOutputs := ∅
  poolUtxoContention := ∅
  policy := policy
  totalSize := 0
  slotWatermark := 0
  changeIndex := []

/-- The entries once `entry` has left: its ancestors and descendants forget it. -/
def unlinked (entry : MempoolEntry) (txHash : Hash) (entries : Column Hash MempoolEntry) :
    Column Hash MempoolEntry :=
  alterAll (fun other => other.removeAncestor txHash entry.fee entry.size)
    (listing Hash.bytesLe entry.descendants)
    (alterAll (fun other => other.removeDescendant txHash)
      (listing Hash.bytesLe entry.ancestors) (entries.erase txHash))

def removeTransaction (pool : Mempool) (txHash : Hash) : Mempool :=
  match pool.entries.lookup txHash with
  | none => pool
  | some entry =>
      { pool with
        entries := unlinked entry txHash pool.entries
        byFeeRate := pool.byFeeRate.erase (entry.feeRate, txHash)
        byAddress := Groups.dropAll txHash entry.addresses pool.byAddress
        spentOutputs := Journal.eraseAll entry.outpoints pool.spentOutputs
        poolUtxoContention :=
          if isPoolContentionType entry.tx.txType then
            Groups.dropAll txHash entry.outpoints pool.poolUtxoContention
          else pool.poolUtxoContention
        totalSize := pool.totalSize - entry.size }

def removeAll (pool : Mempool) (hashes : List Hash) : Mempool :=
  hashes.foldl removeTransaction pool

/-! ## Making room -/

section

variable (pool : Mempool)

def needsEviction (newTxSize : Nat) : Bool :=
  decide (pool.policy.maxCount ≤ pool.entries.keys.card ∨
    pool.policy.maxSize < pool.totalSize + newTxSize)

def evictable (row : Nat × Hash) : Bool :=
  (pool.entries.lookup row.2).any fun entry =>
    decide (entry.descendants = ∅) && !entry.evictExempt

/-- The transaction of the lowest fee rate that may go. -/
def toEvict : Option Hash :=
  ((listing rateLe pool.byFeeRate).find? pool.evictable).map Prod.snd

/-- Nothing is evicted where every resident has descendants or is exempt. -/
def evictLowestFee : Option Mempool :=
  pool.toEvict.map pool.removeTransaction

end

/-- The loop, and whether there is room after it. -/
def makeRoomFrom (newTxSize : Nat) : Nat → Mempool → Mempool × Bool
  | 0, pool => (pool, false)
  | rounds + 1, pool =>
      if pool.needsEviction newTxSize then
        match pool.evictLowestFee with
        | some next => makeRoomFrom newTxSize rounds next
        | none => (pool, false)
      else (pool, true)

/-- Every round takes one resident out, so there are enough rounds. -/
def makeRoom (pool : Mempool) (newTxSize : Nat) : Mempool × Bool :=
  makeRoomFrom newTxSize (pool.entries.keys.card + 1) pool

/-! ## Putting a transaction in -/

/-- The fees and sizes of the ancestors that are still there. -/
def ancestorRows (pool : Mempool) (ancestors : Finset Hash) : List (Hash × Nat × Nat) :=
  (listing Hash.bytesLe ancestors).filterMap fun hash =>
    (pool.entries.lookup hash).map fun ancestor => (hash, ancestor.fee, ancestor.size)

def addAncestors (rows : List (Hash × Nat × Nat)) (entry : MempoolEntry) : MempoolEntry :=
  rows.foldl (fun entry row => entry.addAncestor row.1 row.2.1 row.2.2) entry

/-- The part that both lanes share. -/
def enter (pool : Mempool) (txHash : Hash) (entry : MempoolEntry) : Mempool :=
  { pool with
    byFeeRate := insert (entry.feeRate, txHash) pool.byFeeRate
    totalSize := pool.totalSize + entry.size
    entries := pool.entries.insert txHash entry }

/-- The insertion of a transaction of the user lane. -/
def place (pool : Mempool) (txHash : Hash) (entry : MempoolEntry) (ancestors : Finset Hash)
    (poolOutpoint : Option Outpoint) : Mempool :=
  { pool with
    spentOutputs :=
      Journal.insertAll (entry.outpoints.map fun outpoint => (outpoint, txHash))
        pool.spentOutputs
    byAddress := Groups.addAll txHash entry.addresses pool.byAddress
    entries := alterAll (fun ancestor => ancestor.addDescendant txHash)
      (listing Hash.bytesLe ancestors) pool.entries
    poolUtxoContention := Groups.addAll txHash poolOutpoint.toList pool.poolUtxoContention
    }.enter txHash (addAncestors (pool.ancestorRows ancestors) entry)

/-! ## What stands at a hash -/

def bareAt (pool : Mempool) (hash : Hash) : Option MempoolEntry :=
  (pool.entries.lookup hash).map MempoolEntry.bare

/-- What the entry at `other` becomes when `entry` leaves. -/
def forget (entry : MempoolEntry) (txHash other : Hash) (found : MempoolEntry) : MempoolEntry :=
  let found := if other ∈ entry.ancestors then found.removeDescendant txHash else found
  if other ∈ entry.descendants then found.removeAncestor txHash entry.fee entry.size
  else found

@[simp] theorem bare_forget (entry : MempoolEntry) (txHash other : Hash)
    (found : MempoolEntry) : (forget entry txHash other found).bare = found.bare := by
  unfold forget
  split
  · split
    · simp
    · simp
  · split
    · simp
    · rfl

theorem lookup_unlinked (entry : MempoolEntry) (txHash : Hash)
    (entries : Column Hash MempoolEntry) (other : Hash) :
    (unlinked entry txHash entries).lookup other =
      if other = txHash then none else (entries.lookup other).map (forget entry txHash other) := by
  unfold unlinked
  rw [lookup_alterAll (nodup_listing _ _), lookup_alterAll (nodup_listing _ _)]
  simp only [mem_listing]
  by_cases hother : other = txHash
  · rw [if_pos hother, hother, Finmap.lookup_erase]
    simp
  · rw [if_neg hother, Finmap.lookup_erase_ne hother]
    cases entries.lookup other with
    | none => simp
    | some found =>
        unfold forget
        by_cases hdescendant : other ∈ entry.descendants
        · by_cases hancestor : other ∈ entry.ancestors
          · simp [hdescendant, hancestor]
          · simp [hdescendant, hancestor]
        · by_cases hancestor : other ∈ entry.ancestors
          · simp [hdescendant, hancestor]
          · simp [hdescendant, hancestor]

section

variable {pool : Mempool} {entry : MempoolEntry} {txHash : Hash}

theorem removeTransaction_of_none (hnone : pool.entries.lookup txHash = none) :
    pool.removeTransaction txHash = pool := by
  simp [removeTransaction, hnone]

theorem lookup_removeTransaction (hentry : pool.entries.lookup txHash = some entry)
    (other : Hash) :
    (pool.removeTransaction txHash).entries.lookup other =
      if other = txHash then none
      else (pool.entries.lookup other).map (forget entry txHash other) := by
  simp only [removeTransaction, hentry]
  exact lookup_unlinked entry txHash pool.entries other

theorem bareAt_removeTransaction (pool : Mempool) (txHash other : Hash) :
    (pool.removeTransaction txHash).bareAt other =
      if other = txHash then none else pool.bareAt other := by
  unfold bareAt
  cases hentry : pool.entries.lookup txHash with
  | none =>
      rw [removeTransaction_of_none hentry]
      split
      case isTrue hother => rw [hother, hentry, Option.map_none]
      case isFalse => rfl
  | some entry =>
      rw [lookup_removeTransaction hentry]
      split
      · rfl
      · cases pool.entries.lookup other with
        | none => rfl
        | some found => simp

@[simp] theorem bare_addAncestors (rows : List (Hash × Nat × Nat)) (entry : MempoolEntry) :
    (addAncestors rows entry).bare = entry.bare := by
  induction rows generalizing entry with
  | nil => rfl
  | cons row rows ih =>
      change (addAncestors rows (entry.addAncestor row.1 row.2.1 row.2.2)).bare = _
      rw [ih, MempoolEntry.bare_addAncestor]

theorem lookup_place (pool : Mempool) (txHash : Hash) (entry : MempoolEntry)
    (ancestors : Finset Hash) (poolOutpoint : Option Outpoint) (other : Hash) :
    (pool.place txHash entry ancestors poolOutpoint).entries.lookup other =
      if other = txHash then some (addAncestors (pool.ancestorRows ancestors) entry)
      else (pool.entries.lookup other).map fun found =>
        if other ∈ ancestors then found.addDescendant txHash else found := by
  unfold place enter
  dsimp only
  by_cases hother : other = txHash
  · rw [if_pos hother, hother, Finmap.lookup_insert]
  · rw [if_neg hother, Finmap.lookup_insert_of_ne _ hother,
      lookup_alterAll (nodup_listing _ _)]
    simp only [mem_listing]
    split
    · rfl
    · simp

theorem bareAt_place (pool : Mempool) (txHash : Hash) (entry : MempoolEntry)
    (ancestors : Finset Hash) (poolOutpoint : Option Outpoint) (other : Hash) :
    (pool.place txHash entry ancestors poolOutpoint).bareAt other =
      if other = txHash then some entry.bare else pool.bareAt other := by
  unfold bareAt
  rw [lookup_place]
  split
  · simp
  · cases pool.entries.lookup other with
    | none => rfl
    | some found =>
        simp only [Option.map_some]
        split
        · rfl
        · rfl

end

/-! ## Room -/

section

variable {pool next : Mempool} {newTxSize : Nat}

theorem evictLowestFee_eq_some (hevict : pool.evictLowestFee = some next) :
    ∃ txHash entry, pool.entries.lookup txHash = some entry ∧ entry.descendants = ∅ ∧
      entry.evictExempt = false ∧ next = pool.removeTransaction txHash := by
  unfold evictLowestFee toEvict at hevict
  rw [Option.map_map, Option.map_eq_some_iff] at hevict
  obtain ⟨row, hrow, rfl⟩ := hevict
  have hevictable := List.find?_some hrow
  unfold evictable at hevictable
  cases hentry : pool.entries.lookup row.2 with
  | none => simp [hentry] at hevictable
  | some entry =>
      simp only [hentry, Option.any_some, Bool.and_eq_true, decide_eq_true_eq,
        Bool.not_eq_true'] at hevictable
      exact ⟨row.2, entry, hentry, hevictable.1, hevictable.2, rfl⟩

theorem makeRoom_invariant (inv : Mempool → Prop) (hinit : inv pool)
    (hstep : ∀ current txHash entry, inv current →
      current.entries.lookup txHash = some entry → entry.descendants = ∅ →
        inv (current.removeTransaction txHash)) (newTxSize : Nat) :
    inv (pool.makeRoom newTxSize).1 := by
  suffices hgen : ∀ rounds current, inv current →
      inv (makeRoomFrom newTxSize rounds current).1 from hgen _ pool hinit
  intro rounds
  induction rounds with
  | zero => exact fun _ hinv => hinv
  | succ rounds ih =>
      intro current hinv
      unfold makeRoomFrom
      split
      · split
        case h_1 next hnext =>
          obtain ⟨txHash, entry, hentry, hleaf, -, rfl⟩ := evictLowestFee_eq_some hnext
          exact ih _ (hstep current txHash entry hinv hentry hleaf)
        case h_2 => exact hinv
      · exact hinv

theorem needsEviction_of_makeRoom (hroom : (pool.makeRoom newTxSize).2 = true) :
    (pool.makeRoom newTxSize).1.needsEviction newTxSize = false := by
  unfold makeRoom at hroom ⊢
  generalize pool.entries.keys.card + 1 = rounds at hroom ⊢
  induction rounds generalizing pool with
  | zero => cases hroom
  | succ rounds ih =>
      unfold makeRoomFrom at hroom ⊢
      split at hroom
      case isTrue hneeds =>
        rw [if_pos hneeds]
        split at hroom
        · exact ih hroom
        · cases hroom
      case isFalse hroomy =>
        rw [if_neg hroomy]
        exact Bool.not_eq_true _ ▸ hroomy

end

end Mempool

end Doli
