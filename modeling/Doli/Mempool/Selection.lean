import Doli.Lib.Selection
import Doli.Mempool.PackageRun

/-!
# Selection for a block

One pass over the residents by descending package rate.  A transaction that is reached before
one of its ancestors is skipped for good, so the whole mempool is selected exactly where every
ancestor ranks before its descendants.
-/

namespace Doli

open Doli.Core Doli.Lib Doli.Storage

/-- An order in which the hash map is visited. -/
structure IterationOrder (entries : Column Hash MempoolEntry) where
  keys : List Hash
  nodup : keys.Nodup
  mem : ∀ hash, hash ∈ keys ↔ hash ∈ entries

/-- `sort_by_key` on `Reverse(effective_fee_rate)` -/
def ranksBefore (first second : Hash × MempoolEntry) : Prop :=
  second.2.effectiveFeeRate ≤ first.2.effectiveFeeRate

instance : DecidableRel ranksBefore := fun first second =>
  inferInstanceAs (Decidable (second.2.effectiveFeeRate ≤ first.2.effectiveFeeRate))

instance : Std.Total ranksBefore := ⟨fun _ _ => Nat.le_total _ _⟩

instance : IsTrans (Hash × MempoolEntry) ranksBefore :=
  ⟨fun _ _ _ hfirst hsecond => Nat.le_trans hsecond hfirst⟩

structure BlockSelection where
  selected : List Transaction
  selectedSize : Nat
  selectedHashes : Finset Hash

namespace BlockSelection

def empty : BlockSelection := ⟨[], 0, ∅⟩

def add (selection : BlockSelection) (txHash : Hash) (entry : MempoolEntry) :
    BlockSelection where
  selected := selection.selected ++ [entry.tx]
  selectedSize := selection.selectedSize + entry.size
  selectedHashes := insert txHash selection.selectedHashes

def run (maxSize : Nat) : BlockSelection → List (Hash × MempoolEntry) → BlockSelection
  | selection, [] => selection
  | selection, (txHash, entry) :: candidates =>
      if txHash ∈ selection.selectedHashes then run maxSize selection candidates
      else if maxSize < selection.selectedSize + entry.size then run maxSize selection candidates
      else if ¬∀ ancestor ∈ entry.ancestors, ancestor ∈ selection.selectedHashes then
        run maxSize selection candidates
      else if maxSize ≤ (selection.add txHash entry).selectedSize then selection.add txHash entry
      else run maxSize (selection.add txHash entry) candidates

def ofRows (rows : List (Hash × MempoolEntry)) : BlockSelection where
  selected := rows.map fun row => row.2.tx
  selectedSize := total (fun row => row.2.size) rows
  selectedHashes := (rows.map Prod.fst).toFinset

theorem add_ofRows (rows : List (Hash × MempoolEntry)) (txHash : Hash) (entry : MempoolEntry) :
    (ofRows rows).add txHash entry = ofRows (rows ++ [(txHash, entry)]) := by
  simp [ofRows, add, List.toFinset_append, Finset.union_comm]

theorem run_ofRows (maxSize : Nat) (rows candidates : List (Hash × MempoolEntry)) :
    run maxSize (ofRows rows) candidates =
      ofRows (greedy Prod.fst (fun row => row.2.size) (fun row => row.2.ancestors) maxSize rows
        candidates) := by
  induction candidates generalizing rows with
  | nil => rfl
  | cons row candidates ih =>
      have hhashes : ∀ hash, hash ∈ (ofRows rows).selectedHashes ↔ hash ∈ rows.map Prod.fst :=
        fun hash => List.mem_toFinset
      have hsize : ∀ rows, (ofRows rows).selectedSize = total (fun row => row.2.size) rows :=
        fun _ => rfl
      rw [run, greedy]
      simp only [hhashes, hsize, add_ofRows, ih]
      split_ifs
      · rfl
      · rfl
      · rfl
      · rfl
      · rfl

end BlockSelection

namespace Mempool

section

variable (pool : Mempool)

def visited (order : IterationOrder pool.entries) : List (Hash × MempoolEntry) :=
  order.keys.filterMap fun hash => (pool.entries.lookup hash).map fun entry => (hash, entry)

def candidates (order : IterationOrder pool.entries) : List (Hash × MempoolEntry) :=
  (pool.visited order).insertionSort ranksBefore

def selectForBlock (order : IterationOrder pool.entries) (maxSize : Nat) : List Transaction :=
  (BlockSelection.empty.run maxSize (pool.candidates order)).selected

/-- Every ancestor is resident and ranks before its descendant: by its package rate, or where
the rates are the same in the order of the map. -/
def RanksAncestorsFirst (order : IterationOrder pool.entries) : Prop :=
  ∀ hash entry, pool.entries.lookup hash = some entry → ∀ ancestor ∈ entry.ancestors,
    ∃ found, pool.entries.lookup ancestor = some found ∧
      (entry.effectiveFeeRate < found.effectiveFeeRate ∨
        (entry.effectiveFeeRate = found.effectiveFeeRate ∧ Precedes ancestor hash order.keys))

/-- What a selection is meant to be. -/
structure SelectsWell (config : MempoolConfig) (maxSize : Nat) (selected : List Transaction) :
    Prop where
  distinct : selected.Nodup
  resident : ∀ tx ∈ selected, pool.Holds (config.prim.txHash tx) fun entry => entry.tx = tx
  fits : total config.size selected ≤ maxSize
  apart : selected.Pairwise fun first second =>
    (first.inputs.map inputOutpoint).Disjoint (second.inputs.map inputOutpoint)
  ancestors : ∀ tx ∈ selected, ∀ ancestor ∈ pool.ancestorsAt (config.prim.txHash tx),
    ∃ found, config.prim.txHash found = ancestor ∧ Precedes found tx selected
  complete : pool.totalSize ≤ maxSize → ∀ hash entry,
    pool.entries.lookup hash = some entry → entry.tx ∈ selected

end

variable {pool : Mempool} {order : IterationOrder pool.entries} {maxSize : Nat}

/-! ## The candidates -/

theorem mem_visited {row : Hash × MempoolEntry} :
    row ∈ pool.visited order ↔ pool.entries.lookup row.1 = some row.2 := by
  unfold visited
  rw [List.mem_filterMap]
  constructor
  · rintro ⟨hash, -, hrow⟩
    obtain ⟨entry, hentry, rfl⟩ := Option.map_eq_some_iff.mp hrow
    exact hentry
  · intro hentry
    refine ⟨row.1, (order.mem row.1).mpr (Finmap.mem_of_lookup_eq_some hentry), ?_⟩
    rw [hentry, Option.map_some]

theorem keys_visited : (pool.visited order).map Prod.fst = order.keys := by
  have hfound : ∀ keys : List Hash, (∀ hash ∈ keys, hash ∈ pool.entries) →
      (keys.filterMap fun hash =>
        (pool.entries.lookup hash).map fun entry => (hash, entry)).map Prod.fst = keys := by
    intro keys hkeys
    induction keys with
    | nil => rfl
    | cons hash keys ih =>
        obtain ⟨entry, hentry⟩ := Finmap.mem_iff.mp (hkeys hash (by simp))
        have hrest := ih fun other hother => hkeys other (List.mem_cons_of_mem hash hother)
        rw [List.filterMap_cons, hentry, Option.map_some, List.map_cons, hrest]
  exact hfound order.keys fun hash hhash => (order.mem hash).mp hhash

theorem nodup_visited : ((pool.visited order).map Prod.fst).Nodup := by
  rw [keys_visited]
  exact order.nodup

theorem perm_candidates : (pool.candidates order).Perm (pool.visited order) :=
  List.perm_insertionSort ranksBefore _

theorem mem_candidates {row : Hash × MempoolEntry} :
    row ∈ pool.candidates order ↔ pool.entries.lookup row.1 = some row.2 :=
  perm_candidates.mem_iff.trans mem_visited

theorem nodup_candidates : ((pool.candidates order).map Prod.fst).Nodup :=
  (perm_candidates.map Prod.fst).nodup_iff.mpr nodup_visited

theorem size_candidates :
    total (fun row => row.2.size) (pool.candidates order) =
      holdings MempoolEntry.size pool.entries := by
  have hkeys : order.keys.toFinset = pool.entries.keys := by
    ext hash
    rw [List.mem_toFinset, order.mem, Finmap.mem_keys]
  have hsorted : total (fun row => row.2.size) (pool.candidates order) =
      total (fun row => row.2.size) (pool.visited order) :=
    (perm_candidates.map _).sum_eq
  rw [hsorted, visited, total_filterMap, holdings, ← hkeys, List.sum_toFinset _ order.nodup,
    ← total]
  apply total_congr
  intro hash _
  cases hentry : pool.entries.lookup hash with
  | none => simp [worthAt, hentry]
  | some entry => simp [worthAt, hentry]

theorem precedes_candidates {first second : Hash × MempoolEntry}
    (hfirst : pool.entries.lookup first.1 = some first.2)
    (hsecond : pool.entries.lookup second.1 = some second.2) :
    Precedes first second (pool.candidates order) ↔
      second.2.effectiveFeeRate < first.2.effectiveFeeRate ∨
        (second.2.effectiveFeeRate = first.2.effectiveFeeRate ∧
          Precedes first.1 second.1 order.keys) := by
  have hnodup : (pool.visited order).Nodup := List.Nodup.of_map Prod.fst nodup_visited
  have hvisited : Precedes first.1 second.1 order.keys ↔
      Precedes first second (pool.visited order) := by
    rw [← keys_visited]
    exact precedes_map nodup_visited (mem_visited.mpr hfirst) (mem_visited.mpr hsecond)
  rw [hvisited]
  by_cases hsame : first = second
  · subst hsame
    have hsorted : (pool.candidates order).Nodup := List.Nodup.of_map Prod.fst nodup_candidates
    constructor
    · exact fun hprecedes => absurd rfl (hprecedes.ne hsorted)
    · rintro (hlt | ⟨-, hprecedes⟩)
      · exact absurd hlt (Nat.lt_irrefl _)
      · exact absurd rfl (hprecedes.ne hnodup)
  · rw [candidates, precedes_insertionSort ranksBefore hnodup (mem_visited.mpr hfirst)
      (mem_visited.mpr hsecond) hsame]
    unfold ranksBefore
    constructor
    · rintro ⟨hforth, hties⟩
      rcases Nat.lt_or_eq_of_le hforth with hlt | heq
      · exact .inl hlt
      · exact .inr ⟨heq, hties heq.ge⟩
    · rintro (hlt | ⟨heq, hprecedes⟩)
      · exact ⟨hlt.le, fun hback => absurd hback (Nat.not_le.mpr hlt)⟩
      · exact ⟨heq.le, fun _ => hprecedes⟩

theorem ready_candidates :
    Ready Prod.fst (fun row => row.2.ancestors) (pool.candidates order) ↔
      pool.RanksAncestorsFirst order := by
  constructor
  · intro hready hash entry hentry ancestor hancestor
    obtain ⟨found, rfl, hprecedes⟩ :=
      hready (hash, entry) (mem_candidates.mpr hentry) ancestor hancestor
    have hfound := mem_candidates.mp hprecedes.mem.1
    exact ⟨found.2, hfound, (precedes_candidates hfound hentry).mp hprecedes⟩
  · intro hranks row hrow ancestor hancestor
    have hentry := mem_candidates.mp hrow
    obtain ⟨found, hfound, hahead⟩ := hranks row.1 row.2 hentry ancestor hancestor
    exact ⟨(ancestor, found), rfl, (precedes_candidates hfound hentry).mpr hahead⟩

/-! ## The selection -/

def chosenRows (order : IterationOrder pool.entries) (maxSize : Nat) :
    List (Hash × MempoolEntry) :=
  greedy Prod.fst (fun row => row.2.size) (fun row => row.2.ancestors) maxSize []
    (pool.candidates order)

theorem selectForBlock_eq :
    pool.selectForBlock order maxSize =
      (chosenRows order maxSize).map fun row => row.2.tx := by
  change (BlockSelection.run maxSize (.ofRows []) (pool.candidates order)).selected = _
  rw [BlockSelection.run_ofRows]
  rfl

theorem feasible_chosenRows :
    Feasible Prod.fst (fun row => row.2.size) (fun row => row.2.ancestors) maxSize
      (chosenRows order maxSize) :=
  feasible_nil.greedy

theorem lookup_of_chosen {row : Hash × MempoolEntry} (hrow : row ∈ chosenRows order maxSize) :
    pool.entries.lookup row.1 = some row.2 := by
  have hsublist : (chosenRows order maxSize).Sublist (pool.candidates order) := greedy_sublist
  exact mem_candidates.mp (hsublist.subset hrow)

theorem apart_selected (hexact : pool.IndexesExact) :
    (pool.selectForBlock order maxSize).Pairwise fun first second =>
      (first.inputs.map inputOutpoint).Disjoint (second.inputs.map inputOutpoint) := by
  have hdistinct : (chosenRows order maxSize).Pairwise fun first second =>
      first.1 ≠ second.1 :=
    List.pairwise_map.mp feasible_chosenRows.nodup
  rw [selectForBlock_eq, List.pairwise_map]
  refine hdistinct.imp_of_mem fun hfirst hsecond hne outpoint hin hin' => hne ?_
  exact hexact.spent_unique ⟨_, lookup_of_chosen hfirst, hin⟩ ⟨_, lookup_of_chosen hsecond, hin'⟩

section

variable {config : MempoolConfig}
  (hnamed : ∀ {hash entry}, pool.entries.lookup hash = some entry →
    config.prim.txHash entry.tx = hash ∧ entry.size = config.size entry.tx)

include hnamed

theorem hashes_selected :
    (pool.selectForBlock order maxSize).map config.prim.txHash =
      (chosenRows order maxSize).map Prod.fst := by
  rw [selectForBlock_eq, List.map_map]
  apply List.map_congr_left
  intro row hrow
  exact (hnamed (lookup_of_chosen hrow)).1

theorem size_selected :
    total config.size (pool.selectForBlock order maxSize) =
      total (fun row => row.2.size) (chosenRows order maxSize) := by
  rw [selectForBlock_eq, total, List.map_map]
  exact total_congr fun row hrow => (hnamed (lookup_of_chosen hrow)).2.symm

theorem holds_of_selected {tx : Transaction} (htx : tx ∈ pool.selectForBlock order maxSize) :
    ∃ row ∈ chosenRows order maxSize, row.2.tx = tx ∧ config.prim.txHash tx = row.1 := by
  rw [selectForBlock_eq] at htx
  obtain ⟨row, hrow, rfl⟩ := List.mem_map.mp htx
  exact ⟨row, hrow, rfl, (hnamed (lookup_of_chosen hrow)).1⟩

theorem selectsWell_of_complete (hexact : pool.IndexesExact)
    (hcomplete : pool.totalSize ≤ maxSize → ∀ hash entry,
      pool.entries.lookup hash = some entry →
        entry.tx ∈ pool.selectForBlock order maxSize) :
    pool.SelectsWell config maxSize (pool.selectForBlock order maxSize) where
  distinct := by
    apply List.Nodup.of_map config.prim.txHash
    rw [hashes_selected hnamed]
    exact feasible_chosenRows.nodup
  resident := by
    intro tx htx
    obtain ⟨row, hrow, hsame, hhash⟩ := holds_of_selected hnamed htx
    exact ⟨row.2, hhash ▸ lookup_of_chosen hrow, hsame⟩
  fits := by
    rw [size_selected hnamed]
    exact feasible_chosenRows.fits
  apart := apart_selected hexact
  ancestors := by
    intro tx htx ancestor hancestor
    obtain ⟨row, hrow, rfl, hhash⟩ := holds_of_selected hnamed htx
    rw [hhash, ancestorsAt, lookup_of_chosen hrow, Option.elim_some] at hancestor
    obtain ⟨found, rfl, hprecedes⟩ := feasible_chosenRows.ready row hrow ancestor hancestor
    refine ⟨found.2.tx, (hnamed (lookup_of_chosen hprecedes.mem.1)).1, ?_⟩
    rw [selectForBlock_eq]
    exact List.Sublist.map (fun row => row.2.tx) hprecedes
  complete := hcomplete

theorem complete_iff (hexact : pool.IndexesExact) (hsize : ∀ tx, 0 < config.size tx)
    (hfits : pool.totalSize ≤ maxSize) :
    (∀ hash entry, pool.entries.lookup hash = some entry →
        entry.tx ∈ pool.selectForBlock order maxSize) ↔
      pool.RanksAncestorsFirst order := by
  have hroom : total (fun row => row.2.size) (pool.candidates order) ≤ maxSize := by
    rw [size_candidates, ← hexact.totalSize]
    exact hfits
  have hpositive : ∀ row ∈ pool.candidates order, 0 < row.2.size := by
    intro row hrow
    rw [(hnamed (mem_candidates.mp hrow)).2]
    exact hsize row.2.tx
  rw [← ready_candidates, ← greedy_complete_iff nodup_candidates hroom hpositive]
  constructor
  · intro hall row hrow
    have hentry := mem_candidates.mp hrow
    obtain ⟨other, hother, -, hhash⟩ := holds_of_selected hnamed (hall row.1 row.2 hentry)
    have hsame : other.1 = row.1 := hhash.symm.trans (hnamed hentry).1
    have hfound := lookup_of_chosen hother
    rw [hsame, hentry] at hfound
    exact Prod.ext hsame (Option.some.inj hfound).symm ▸ hother
  · intro hall hash entry hentry
    rw [selectForBlock_eq]
    exact List.mem_map.mpr ⟨(hash, entry), hall _ (mem_candidates.mpr hentry), rfl⟩

end

/-- Beside a UTXO set that supplies the packages, a block of the selected transactions finds
every input in the set or among the outputs of what comes before. -/
theorem SelectsWell.supplied {config : MempoolConfig} {selected : List Transaction}
    {db : StateDb} (hwell : pool.SelectsWell config maxSize selected)
    (hsupplied : pool.Supplied db) {tx : Transaction} (htx : tx ∈ selected) {input : Input}
    (hinput : input ∈ tx.inputs) :
    (db.getUtxo (inputOutpoint input)).isSome ∨
      ∃ parent, config.prim.txHash parent = input.prevTxHash ∧ Precedes parent tx selected := by
  obtain ⟨entry, hentry, rfl⟩ := hwell.resident tx htx
  refine (hsupplied _ entry hentry input hinput).imp id fun hparent => ?_
  exact hwell.ancestors entry.tx htx _ hparent.1

end Mempool

/-! ## On given inputs -/

def IterationOrder.sorted (entries : Column Hash MempoolEntry) : IterationOrder entries where
  keys := listing Hash.bytesLe entries.keys
  nodup := nodup_listing Hash.bytesLe entries.keys
  mem _ := (mem_listing Hash.bytesLe).trans Finmap.mem_keys

/-- A payment of the coin, and a payment of what it leaves. -/
def samplePackage (first second : Nat) : List MempoolOp :=
  let parent := samplePayment ⟨⟨9⟩, 0⟩ first
  let child := samplePayment ⟨sampleMempoolConfig.prim.txHash parent, 0⟩ second
  [.addTransaction sampleView sampleCoins parent 1000 20 5,
    .addTransaction sampleView sampleCoins child 2000 20 5]

def samplePackagePool (first second : Nat) : Mempool :=
  mempoolRun sampleMempoolConfig .mainnet (samplePackage first second)

theorem sampleMempoolConfig_size (tx : Transaction) : 0 < sampleMempoolConfig.size tx := by
  change 0 < tx.hashPreimage.length
  simp only [Transaction.hashPreimage, List.length_append, leBytes_length]
  omega

namespace Mempool

end Mempool

end Doli
