import Doli.Lib.Lineage
import Doli.Mempool.Indexes
import Mathlib.Algebra.Order.BigOperators.Group.Finset

/-!
# Packages

A resident transaction with its resident ancestors is a package that a block can include.
The ancestors and descendants of the entries, and the figures that are kept with them,
survive every removal; the inputs survive it unless a parent leaves without its child.
-/

namespace Doli

open Doli.Core Doli.Lib Doli.Storage

/-! ## The figures of an entry -/

namespace MempoolEntry

variable (entry : MempoolEntry) (hash : Hash) (fee size : Nat)

@[simp] theorem ancestors_removeDescendant :
    (entry.removeDescendant hash).ancestors = entry.ancestors := rfl

@[simp] theorem descendants_removeDescendant :
    (entry.removeDescendant hash).descendants = entry.descendants.erase hash := rfl

@[simp] theorem ancestors_removeAncestor :
    (entry.removeAncestor hash fee size).ancestors = entry.ancestors.erase hash := by
  unfold removeAncestor
  split
  case isTrue => rfl
  case isFalse hmem => rw [Finset.erase_eq_of_notMem hmem]

@[simp] theorem descendants_removeAncestor :
    (entry.removeAncestor hash fee size).descendants = entry.descendants := by
  unfold removeAncestor
  split
  · rfl
  · rfl

end MempoolEntry

namespace Mempool

section

variable (pool : Mempool)

def ancestorsAt (hash : Hash) : Finset Hash :=
  (pool.entries.lookup hash).elim ∅ MempoolEntry.ancestors

def descendantsAt (hash : Hash) : Finset Hash :=
  (pool.entries.lookup hash).elim ∅ MempoolEntry.descendants

def lineage : Lineage Hash := ⟨pool.entries.keys, pool.ancestorsAt, pool.descendantsAt⟩

def feeAt (hash : Hash) : Nat := worthAt MempoolEntry.fee pool.entries hash

def sizeAt (hash : Hash) : Nat := worthAt MempoolEntry.size pool.entries hash

def ancestorFeeAt (hash : Hash) : Nat := worthAt MempoolEntry.ancestorFee pool.entries hash

def ancestorSizeAt (hash : Hash) : Nat := worthAt MempoolEntry.ancestorSize pool.entries hash

def HasOutput (input : Input) : Prop :=
  pool.Holds input.prevTxHash fun parent => input.outputIndex < parent.tx.outputs.length

/-- What the packages of the pool are meant to be, over a UTXO set. -/
structure PackagesClosed (db : StateDb) : Prop where
  supplied : ∀ hash entry, pool.entries.lookup hash = some entry → ∀ input ∈ entry.tx.inputs,
    (db.getUtxo (inputOutpoint input)).isSome ∨
      (input.prevTxHash ≠ hash ∧ pool.HasOutput input)
  resident : ∀ hash, ∀ ancestor ∈ pool.ancestorsAt hash, ancestor ∈ pool.entries
  inverse : ∀ first second, first ∈ pool.ancestorsAt second ↔
    second ∈ pool.descendantsAt first
  transitive : ∀ first second third, first ∈ pool.ancestorsAt second →
    second ∈ pool.ancestorsAt third → first ∈ pool.ancestorsAt third
  ancestorFee : ∀ hash entry, pool.entries.lookup hash = some entry →
    entry.ancestorFee = entry.fee + ∑ ancestor ∈ entry.ancestors, pool.feeAt ancestor
  ancestorSize : ∀ hash entry, pool.entries.lookup hash = some entry →
    entry.ancestorSize = entry.size + ∑ ancestor ∈ entry.ancestors, pool.sizeAt ancestor

/-- The part that no removal can break. -/
structure Packaged : Prop where
  closed : pool.lineage.Closed
  fees : pool.lineage.Summed pool.feeAt pool.ancestorFeeAt
  sizes : pool.lineage.Summed pool.sizeAt pool.ancestorSizeAt

/-- Every input is in the UTXO set, or spends an output of one of the ancestors. -/
def Supplied (db : StateDb) : Prop :=
  ∀ hash entry, pool.entries.lookup hash = some entry → ∀ input ∈ entry.tx.inputs,
    (db.getUtxo (inputOutpoint input)).isSome ∨
      (input.prevTxHash ∈ pool.ancestorsAt hash ∧ pool.HasOutput input)

end

variable {pool next : Mempool} {db : StateDb} {hash txHash : Hash} {entry : MempoolEntry}

theorem packagesClosed_of (hpackaged : pool.Packaged) (hsupplied : pool.Supplied db) :
    pool.PackagesClosed db where
  supplied hash entry hentry input hinput := by
    refine (hsupplied hash entry hentry input hinput).imp id ?_
    rintro ⟨hmem, houtput⟩
    refine ⟨?_, houtput⟩
    rintro rfl
    exact hpackaged.closed.irrefl hmem
  resident hash ancestor hmem := Finmap.mem_keys.mp (hpackaged.closed.mem hmem).1
  inverse _ _ := hpackaged.closed.inverse
  transitive _ _ _ := hpackaged.closed.trans
  ancestorFee hash entry hentry := by
    have hkey : hash ∈ pool.lineage.nodes :=
      Finmap.mem_keys.mpr (Finmap.mem_of_lookup_eq_some hentry)
    have hsum := hpackaged.fees hash hkey
    simpa [ancestorFeeAt, feeAt, worthAt_of_lookup hentry, lineage, ancestorsAt, hentry]
      using hsum
  ancestorSize hash entry hentry := by
    have hkey : hash ∈ pool.lineage.nodes :=
      Finmap.mem_keys.mpr (Finmap.mem_of_lookup_eq_some hentry)
    have hsum := hpackaged.sizes hash hkey
    simpa [ancestorSizeAt, sizeAt, worthAt_of_lookup hentry, lineage, ancestorsAt, hentry]
      using hsum

/-! ## A removal -/

theorem mem_entries_removeTransaction :
    hash ∈ (pool.removeTransaction txHash).entries ↔ hash ∈ pool.entries ∧ hash ≠ txHash := by
  have hiff := @holds_removeTransaction pool hash (fun _ => True) (fun _ => Iff.rfl) txHash
  simpa [Holds, Finmap.mem_iff, and_comm] using hiff

theorem ancestors_forget (entry : MempoolEntry) (txHash other : Hash) (found : MempoolEntry) :
    (forget entry txHash other found).ancestors =
      if other ∈ entry.descendants then found.ancestors.erase txHash else found.ancestors := by
  by_cases hdescendant : other ∈ entry.descendants
  · by_cases hancestor : other ∈ entry.ancestors
    · simp [forget, hdescendant, hancestor]
    · simp [forget, hdescendant, hancestor]
  · by_cases hancestor : other ∈ entry.ancestors
    · simp [forget, hdescendant, hancestor]
    · simp [forget, hdescendant, hancestor]

theorem descendants_forget (entry : MempoolEntry) (txHash other : Hash)
    (found : MempoolEntry) :
    (forget entry txHash other found).descendants =
      if other ∈ entry.ancestors then found.descendants.erase txHash
      else found.descendants := by
  by_cases hdescendant : other ∈ entry.descendants
  · by_cases hancestor : other ∈ entry.ancestors
    · simp [forget, hdescendant, hancestor]
    · simp [forget, hdescendant, hancestor]
  · by_cases hancestor : other ∈ entry.ancestors
    · simp [forget, hdescendant, hancestor]
    · simp [forget, hdescendant, hancestor]

theorem ancestorFigures_forget (entry : MempoolEntry) (txHash other : Hash)
    {found : MempoolEntry} (hmem : other ∈ entry.descendants → txHash ∈ found.ancestors) :
    (forget entry txHash other found).ancestorFee =
        (if other ∈ entry.descendants then found.ancestorFee - entry.fee
          else found.ancestorFee) ∧
      (forget entry txHash other found).ancestorSize =
        (if other ∈ entry.descendants then found.ancestorSize - entry.size
          else found.ancestorSize) := by
  by_cases hdescendant : other ∈ entry.descendants
  · have hin := hmem hdescendant
    by_cases hancestor : other ∈ entry.ancestors
    · simp [forget, MempoolEntry.removeAncestor, MempoolEntry.removeDescendant, hdescendant,
        hancestor, hin]
    · simp [forget, MempoolEntry.removeAncestor, hdescendant, hancestor, hin]
  · by_cases hancestor : other ∈ entry.ancestors
    · simp [forget, MempoolEntry.removeDescendant, hdescendant, hancestor]
    · simp [forget, hdescendant, hancestor]

section

variable (hentry : pool.entries.lookup txHash = some entry)

include hentry

theorem ancestorsAt_removeTransaction (other : Hash) :
    (pool.removeTransaction txHash).ancestorsAt other =
      if other = txHash then ∅
      else if other ∈ entry.descendants then (pool.ancestorsAt other).erase txHash
      else pool.ancestorsAt other := by
  unfold ancestorsAt
  rw [lookup_removeTransaction hentry]
  split
  · rfl
  · cases pool.entries.lookup other with
    | none => simp
    | some found => simp [ancestors_forget]

theorem descendantsAt_removeTransaction (other : Hash) :
    (pool.removeTransaction txHash).descendantsAt other =
      if other = txHash then ∅
      else if other ∈ entry.ancestors then (pool.descendantsAt other).erase txHash
      else pool.descendantsAt other := by
  unfold descendantsAt
  rw [lookup_removeTransaction hentry]
  split
  · rfl
  · cases pool.entries.lookup other with
    | none => simp
    | some found => simp [descendants_forget]

theorem without_removeTransaction (hclosed : pool.lineage.Closed) :
    pool.lineage.Without (pool.removeTransaction txHash).lineage txHash where
  nodes := by
    intro other
    simp only [lineage, Finmap.mem_keys]
    exact mem_entries_removeTransaction
  up := by
    intro first second
    simp only [lineage]
    rw [ancestorsAt_removeTransaction hentry]
    have hdescendant : txHash ∈ pool.ancestorsAt second ↔ second ∈ entry.descendants := by
      have hinverse := @hclosed.inverse txHash second
      simpa [lineage, descendantsAt, hentry] using hinverse
    by_cases hsecond : second = txHash
    · simp [hsecond]
    · rw [if_neg hsecond]
      split
      case isTrue => simp [hsecond, and_comm]
      case isFalse hnot =>
        have hother : first ∈ pool.ancestorsAt second → first ≠ txHash := by
          rintro hmem rfl
          exact hnot (hdescendant.mp hmem)
        tauto
  down := by
    intro first second
    simp only [lineage]
    rw [descendantsAt_removeTransaction hentry]
    have hancestor : txHash ∈ pool.descendantsAt first ↔ first ∈ entry.ancestors := by
      have hinverse := @hclosed.inverse first txHash
      simpa [lineage, ancestorsAt, hentry] using hinverse.symm
    by_cases hfirst : first = txHash
    · simp [hfirst]
    · rw [if_neg hfirst]
      split
      case isTrue => simp [hfirst, and_comm]
      case isFalse hnot =>
        have hother : second ∈ pool.descendantsAt first → second ≠ txHash := by
          rintro hmem rfl
          exact hnot (hancestor.mp hmem)
        tauto

end

theorem figures_removeTransaction (hclosed : pool.lineage.Closed)
    (hentry : pool.entries.lookup txHash = some entry) {other : Hash} (hother : other ≠ txHash) :
    (pool.removeTransaction txHash).ancestorFeeAt other =
        (if other ∈ pool.descendantsAt txHash then pool.ancestorFeeAt other - pool.feeAt txHash
          else pool.ancestorFeeAt other) ∧
      (pool.removeTransaction txHash).ancestorSizeAt other =
        (if other ∈ pool.descendantsAt txHash then
          pool.ancestorSizeAt other - pool.sizeAt txHash
          else pool.ancestorSizeAt other) := by
  have hdown : pool.descendantsAt txHash = entry.descendants := by
    simp [descendantsAt, hentry]
  rw [hdown]
  unfold ancestorFeeAt ancestorSizeAt feeAt sizeAt worthAt
  rw [lookup_removeTransaction hentry, if_neg hother, hentry]
  cases hfound : pool.entries.lookup other with
  | none => simp
  | some found =>
      have hmem : other ∈ entry.descendants → txHash ∈ found.ancestors := by
        intro hdescendant
        have hinverse := @hclosed.inverse txHash other
        simp only [lineage, ancestorsAt, hfound, hdown, Option.elim_some] at hinverse
        exact hinverse.mpr hdescendant
      exact ancestorFigures_forget entry txHash other hmem

theorem Packaged.removeTransaction (hpackaged : pool.Packaged) (txHash : Hash) :
    (pool.removeTransaction txHash).Packaged := by
  cases hentry : pool.entries.lookup txHash with
  | none =>
      rw [removeTransaction_of_none hentry]
      exact hpackaged
  | some entry =>
      have hout := without_removeTransaction hentry hpackaged.closed
      have hkept : ∀ (worth : MempoolEntry → Nat), (∀ entry, worth entry.bare = worth entry) →
          ∀ other ≠ txHash, worthAt worth (pool.removeTransaction txHash).entries other =
            worthAt worth pool.entries other := by
        intro worth hworth other hother
        rw [worthAt_bareAt hworth, worthAt_bareAt hworth, bareAt_removeTransaction,
          if_neg hother]
      have hfigures := @figures_removeTransaction pool txHash entry hpackaged.closed hentry
      refine ⟨hpackaged.closed.without hout, ?fees, ?sizes⟩
      case fees =>
        exact hpackaged.fees.without hpackaged.closed hout (hkept _ fun _ => rfl)
          fun other hother => (hfigures hother).1
      case sizes =>
        exact hpackaged.sizes.without hpackaged.closed hout (hkept _ fun _ => rfl)
          fun other hother => (hfigures hother).2

theorem Packaged.removeAll (hpackaged : pool.Packaged) (hashes : List Hash) :
    (pool.removeAll hashes).Packaged :=
  foldl_invariant (fun _ (current : Mempool) => current.Packaged) hpackaged
    fun _ hash _ _ _ hcurrent => hcurrent.removeTransaction hash

/-! ## Removals and the supply -/

theorem bareAt_removeAll (pool : Mempool) (hashes : List Hash) (other : Hash) :
    (pool.removeAll hashes).bareAt other =
      if other ∈ hashes then none else pool.bareAt other := by
  induction hashes generalizing pool with
  | nil => simp [removeAll]
  | cons hash hashes ih =>
      change ((pool.removeTransaction hash).removeAll hashes).bareAt other = _
      rw [ih, bareAt_removeTransaction]
      by_cases hrest : other ∈ hashes
      · simp [hrest]
      · simp [hrest]

theorem mem_entries_removeAll (pool : Mempool) (hashes : List Hash) :
    hash ∈ (pool.removeAll hashes).entries ↔ hash ∈ pool.entries ∧ hash ∉ hashes := by
  have hmem : ∀ current : Mempool, hash ∈ current.entries ↔ (current.bareAt hash).isSome := by
    intro current
    rw [bareAt, Option.isSome_map, ← Finmap.lookup_isSome]
  rw [hmem, hmem, bareAt_removeAll]
  split
  case isTrue hin => simp [hin]
  case isFalse hout => simp [hout]

theorem Packaged.mem_ancestorsAt_removeAll (hpackaged : pool.Packaged) (hashes : List Hash)
    {first second : Hash} :
    first ∈ (pool.removeAll hashes).ancestorsAt second ↔
      first ∈ pool.ancestorsAt second ∧ first ∉ hashes ∧ second ∉ hashes := by
  induction hashes generalizing pool with
  | nil => simp [Mempool.removeAll]
  | cons txHash hashes ih =>
      have hstep : first ∈ (pool.removeTransaction txHash).ancestorsAt second ↔
          first ∈ pool.ancestorsAt second ∧ first ≠ txHash ∧ second ≠ txHash := by
        cases hentry : pool.entries.lookup txHash with
        | none =>
            rw [removeTransaction_of_none hentry]
            have habsent := Finmap.lookup_eq_none.mp hentry
            have hresident : first ∈ pool.ancestorsAt second →
                first ≠ txHash ∧ second ≠ txHash := by
              intro hmem
              obtain ⟨hfirst, hsecond⟩ := hpackaged.closed.mem hmem
              constructor
              · rintro rfl
                exact habsent (Finmap.mem_keys.mp hfirst)
              · rintro rfl
                exact habsent (Finmap.mem_keys.mp hsecond)
            tauto
        | some entry => exact (without_removeTransaction hentry hpackaged.closed).up
      change first ∈ ((pool.removeTransaction txHash).removeAll hashes).ancestorsAt second ↔ _
      rw [ih (hpackaged.removeTransaction txHash), hstep]
      simp only [List.mem_cons, not_or]
      tauto

theorem tx_of_bareAt (hsame : next.bareAt hash = pool.bareAt hash)
    (hentry : next.entries.lookup hash = some entry) :
    ∃ other, pool.entries.lookup hash = some other ∧ other.tx = entry.tx := by
  unfold bareAt at hsame
  rw [hentry, Option.map_some, eq_comm, Option.map_eq_some_iff] at hsame
  obtain ⟨other, hother, hbare⟩ := hsame
  have htx : other.bare.tx = entry.bare.tx := congrArg MempoolEntry.tx hbare
  exact ⟨other, hother, htx⟩

theorem Supplied.removeAll (hsupplied : pool.Supplied db) (hpackaged : pool.Packaged)
    {hashes : List Hash}
    (hleft : ∀ hash ∉ hashes, ∀ entry, pool.entries.lookup hash = some entry →
      ∀ input ∈ entry.tx.inputs,
        (db.getUtxo (inputOutpoint input)).isSome ∨ input.prevTxHash ∉ hashes) :
    (pool.removeAll hashes).Supplied db := by
  intro hash entry hentry input hinput
  have hstays : hash ∉ hashes :=
    ((mem_entries_removeAll pool hashes).mp (Finmap.mem_of_lookup_eq_some hentry)).2
  have hbare : (pool.removeAll hashes).bareAt hash = pool.bareAt hash := by
    rw [bareAt_removeAll, if_neg hstays]
  obtain ⟨other, hother, htx⟩ := tx_of_bareAt hbare hentry
  rw [← htx] at hinput
  rcases hleft hash hstays other hother input hinput with hconfirmed | hparent
  · exact .inl hconfirmed
  · refine (hsupplied hash other hother input hinput).imp id ?_
    rintro ⟨hancestor, houtput⟩
    refine ⟨(hpackaged.mem_ancestorsAt_removeAll hashes).mpr ⟨hancestor, hparent, hstays⟩, ?_⟩
    unfold HasOutput at houtput ⊢
    rw [holds_iff_bareAt fun _ => Iff.rfl] at houtput ⊢
    rwa [bareAt_removeAll, if_neg hparent]

theorem Supplied.removeLeaf (hsupplied : pool.Supplied db) (hpackaged : pool.Packaged)
    (hentry : pool.entries.lookup txHash = some entry) (hleaf : entry.descendants = ∅) :
    (pool.removeTransaction txHash).Supplied db := by
  have hdown : pool.descendantsAt txHash = ∅ := by
    simp [descendantsAt, hentry, hleaf]
  change (pool.removeAll [txHash]).Supplied db
  apply hsupplied.removeAll hpackaged
  intro hash hstays other hother input hinput
  refine (hsupplied hash other hother input hinput).imp id ?_
  rintro ⟨hancestor, -⟩ hparent
  have hdescendant := hpackaged.closed.inverse.mp hancestor
  rw [List.mem_singleton.mp hparent] at hdescendant
  simp only [lineage, hdown, Finset.notMem_empty] at hdescendant

/-- Evictions take leaves, so they keep the packages and the supply. -/
structure Reduced (db : StateDb) (next pool : Mempool) : Prop where
  packaged : next.Packaged
  supplied : next.Supplied db
  ancestors : ∀ {first second}, first ∈ next.ancestorsAt second →
    first ∈ pool.ancestorsAt second
  fees : holdings MempoolEntry.fee next.entries ≤ holdings MempoolEntry.fee pool.entries

theorem Reduced.removeLeaf (hreduced : Reduced db next pool)
    (hentry : next.entries.lookup txHash = some entry) (hleaf : entry.descendants = ∅) :
    Reduced db (next.removeTransaction txHash) pool where
  packaged := hreduced.packaged.removeTransaction txHash
  supplied := hreduced.supplied.removeLeaf hreduced.packaged hentry hleaf
  ancestors hmem := by
    have hkept := (hreduced.packaged.mem_ancestorsAt_removeAll [txHash]).mp hmem
    exact hreduced.ancestors hkept.1
  fees := by
    have hfee : holdings MempoolEntry.fee (next.removeTransaction txHash).entries + entry.fee =
        holdings MempoolEntry.fee next.entries :=
      holdings_removeTransaction (fun _ => rfl) hentry
    have hbound := hreduced.fees
    omega

theorem reduced_makeRoom (hpackaged : pool.Packaged) (hsupplied : pool.Supplied db)
    (newTxSize : Nat) : Reduced db (pool.makeRoom newTxSize).1 pool :=
  makeRoom_invariant (fun next => Reduced db next pool)
    ⟨hpackaged, hsupplied, id, Nat.le_refl _⟩
    (fun _ _ _ hreduced hentry hleaf => hreduced.removeLeaf hentry hleaf) newTxSize

/-! ## The ancestors of a new entry -/

theorem figures_addAncestors {rows : List (Hash × Nat × Nat)} (hrows : (rows.map Prod.fst).Nodup)
    (hnew : ∀ row ∈ rows, row.1 ∉ entry.ancestors)
    (hfees : entry.ancestorFee + total (fun row => row.2.1) rows < 2 ^ 64) :
    (addAncestors rows entry).ancestors = entry.ancestors ∪ (rows.map Prod.fst).toFinset ∧
      (addAncestors rows entry).ancestorFee =
        entry.ancestorFee + total (fun row => row.2.1) rows ∧
      (addAncestors rows entry).ancestorSize =
        entry.ancestorSize + total (fun row => row.2.2) rows ∧
      (addAncestors rows entry).descendants = entry.descendants := by
  induction rows generalizing entry with
  | nil => simp [addAncestors]
  | cons row rows ih =>
      rw [List.map_cons, List.nodup_cons] at hrows
      rw [total_cons] at hfees
      have hadded : entry.addAncestor row.1 row.2.1 row.2.2 =
          { entry with
            ancestors := insert row.1 entry.ancestors
            ancestorFee := entry.ancestorFee + row.2.1
            ancestorSize := entry.ancestorSize + row.2.2 } := by
        rw [MempoolEntry.addAncestor, if_neg (hnew row List.mem_cons_self),
          Nat.mod_eq_of_lt (by omega)]
      have hrest : ∀ other ∈ rows, other.1 ∉ insert row.1 entry.ancestors := by
        intro other hother hmem
        rcases Finset.mem_insert.mp hmem with hsame | hmem
        · exact hrows.1 (hsame ▸ List.mem_map_of_mem hother)
        · exact hnew other (List.mem_cons_of_mem _ hother) hmem
      obtain ⟨hancestors, hfee, hsize, hdescendants⟩ :=
        @ih { entry with
            ancestors := insert row.1 entry.ancestors
            ancestorFee := entry.ancestorFee + row.2.1
            ancestorSize := entry.ancestorSize + row.2.2 } hrows.2 hrest
          (by dsimp only; omega)
      change (addAncestors rows (entry.addAncestor row.1 row.2.1 row.2.2)).ancestors = _ ∧
        (addAncestors rows (entry.addAncestor row.1 row.2.1 row.2.2)).ancestorFee = _ ∧
          (addAncestors rows (entry.addAncestor row.1 row.2.1 row.2.2)).ancestorSize = _ ∧
            (addAncestors rows (entry.addAncestor row.1 row.2.1 row.2.2)).descendants = _
      rw [hadded, hancestors, hfee, hsize, hdescendants]
      refine ⟨?_, ?_, ?_, rfl⟩
      · rw [List.map_cons, List.toFinset_cons, Finset.insert_union, Finset.union_insert]
      · rw [total_cons, Nat.add_assoc]
      · rw [total_cons, Nat.add_assoc]

/-! ## An insertion -/

theorem keys_ancestorRows (pool : Mempool) (ancestors : Finset Hash) :
    (pool.ancestorRows ancestors).map Prod.fst =
      (listing Hash.bytesLe ancestors).filter fun hash => decide (hash ∈ pool.entries) := by
  unfold ancestorRows
  induction listing Hash.bytesLe ancestors with
  | nil => rfl
  | cons hash hashes ih =>
      cases hlookup : pool.entries.lookup hash with
      | none => simp [hlookup, ih, Finmap.lookup_eq_none.mp hlookup]
      | some found => simp [hlookup, ih, Finmap.mem_of_lookup_eq_some hlookup]

theorem total_ancestorRows {figure : Nat × Nat → Nat} {worth : MempoolEntry → Nat}
    (hworth : ∀ entry, figure (entry.fee, entry.size) = worth entry) (pool : Mempool)
    (ancestors : Finset Hash) :
    total (fun row => figure row.2) (pool.ancestorRows ancestors) =
      ∑ ancestor ∈ ancestors ∩ pool.entries.keys, worthAt worth pool.entries ancestor := by
  have hall : ∑ ancestor ∈ ancestors ∩ pool.entries.keys, worthAt worth pool.entries ancestor =
      ∑ ancestor ∈ ancestors, worthAt worth pool.entries ancestor := by
    apply Finset.sum_subset Finset.inter_subset_left
    intro ancestor hancestor hnot
    exact worthAt_of_notMem fun hkey => hnot (Finset.mem_inter.mpr ⟨hancestor, hkey⟩)
  rw [hall, ← total_listing Hash.bytesLe]
  unfold ancestorRows
  induction listing Hash.bytesLe ancestors with
  | nil => rfl
  | cons hash hashes ih =>
      cases hlookup : pool.entries.lookup hash with
      | none => simp [hlookup, ih, worthAt]
      | some found => simp [hlookup, ih, worthAt, hworth]

/-- An entry as it is made, before it is linked. -/
structure Fresh (entry : MempoolEntry) : Prop where
  ancestors : entry.ancestors = ∅
  descendants : entry.descendants = ∅
  ancestorFee : entry.ancestorFee = entry.fee
  ancestorSize : entry.ancestorSize = entry.size

section

variable {ancestors : Finset Hash} {poolOutpoint : Option Outpoint}

theorem ancestorFees_le (pool : Mempool) (ancestors : Finset Hash) :
    ∑ ancestor ∈ ancestors ∩ pool.entries.keys, pool.feeAt ancestor ≤
      holdings MempoolEntry.fee pool.entries :=
  Finset.sum_le_sum_of_subset Finset.inter_subset_right

theorem linked_of_fresh (hfresh : Fresh entry)
    (hfees : entry.fee + ∑ ancestor ∈ ancestors ∩ pool.entries.keys, pool.feeAt ancestor <
      2 ^ 64) :
    (addAncestors (pool.ancestorRows ancestors) entry).ancestors =
        ancestors ∩ pool.entries.keys ∧
      (addAncestors (pool.ancestorRows ancestors) entry).ancestorFee =
        entry.fee + ∑ ancestor ∈ ancestors ∩ pool.entries.keys, pool.feeAt ancestor ∧
      (addAncestors (pool.ancestorRows ancestors) entry).ancestorSize =
        entry.size + ∑ ancestor ∈ ancestors ∩ pool.entries.keys, pool.sizeAt ancestor ∧
      (addAncestors (pool.ancestorRows ancestors) entry).descendants = ∅ := by
  have hfee : total (fun row => row.2.1) (pool.ancestorRows ancestors) =
      ∑ ancestor ∈ ancestors ∩ pool.entries.keys, pool.feeAt ancestor :=
    @total_ancestorRows Prod.fst MempoolEntry.fee (fun _ => rfl) pool ancestors
  have hsize : total (fun row => row.2.2) (pool.ancestorRows ancestors) =
      ∑ ancestor ∈ ancestors ∩ pool.entries.keys, pool.sizeAt ancestor :=
    @total_ancestorRows Prod.snd MempoolEntry.size (fun _ => rfl) pool ancestors
  have hkeys := keys_ancestorRows pool ancestors
  have hnodup : ((pool.ancestorRows ancestors).map Prod.fst).Nodup := by
    rw [hkeys]
    exact (nodup_listing Hash.bytesLe ancestors).filter _
  have hset : ((pool.ancestorRows ancestors).map Prod.fst).toFinset =
      ancestors ∩ pool.entries.keys := by
    ext hash
    rw [hkeys]
    simp [Finmap.mem_keys]
  have hfigures := @figures_addAncestors entry _ hnodup (by simp [hfresh.ancestors])
    (by rw [hfresh.ancestorFee, hfee]; exact hfees)
  rwa [hset, hfee, hsize, hfresh.ancestors, hfresh.ancestorFee, hfresh.ancestorSize,
    hfresh.descendants, Finset.empty_union] at hfigures

end

section

variable {ancestors : Finset Hash} {poolOutpoint : Option Outpoint}

theorem ancestorsAt_place (other : Hash) :
    (pool.place txHash entry ancestors poolOutpoint).ancestorsAt other =
      if other = txHash then (addAncestors (pool.ancestorRows ancestors) entry).ancestors
      else pool.ancestorsAt other := by
  unfold ancestorsAt
  rw [lookup_place]
  split
  · rfl
  · cases pool.entries.lookup other with
    | none => rfl
    | some found =>
        simp only [Option.map_some, Option.elim_some]
        split
        · rfl
        · rfl

theorem descendantsAt_place (other : Hash) :
    (pool.place txHash entry ancestors poolOutpoint).descendantsAt other =
      if other = txHash then (addAncestors (pool.ancestorRows ancestors) entry).descendants
      else if other ∈ ancestors ∩ pool.entries.keys then insert txHash (pool.descendantsAt other)
      else pool.descendantsAt other := by
  unfold descendantsAt
  rw [lookup_place]
  split
  · rfl
  · cases hfound : pool.entries.lookup other with
    | none => simp [Finmap.mem_keys, Finmap.lookup_eq_none.mp hfound]
    | some found =>
        have hmem := Finmap.mem_of_lookup_eq_some hfound
        by_cases hancestor : other ∈ ancestors
        · simp [Finmap.mem_keys, hmem, hancestor, MempoolEntry.addDescendant]
        · simp [hancestor]

theorem below_place (hnew : txHash ∉ pool.entries) (hfresh : Fresh entry)
    (hfees : entry.fee + ∑ ancestor ∈ ancestors ∩ pool.entries.keys, pool.feeAt ancestor <
      2 ^ 64) :
    pool.lineage.Below (pool.place txHash entry ancestors poolOutpoint).lineage txHash
      (ancestors ∩ pool.entries.keys) where
  nodes := by
    intro other
    have hholds := @holds_place pool other (fun _ => True) (fun _ => Iff.rfl) txHash entry
      ancestors poolOutpoint
    have hmem : ∀ current : Mempool, other ∈ current.lineage.nodes ↔
        current.Holds other fun _ => True := by
      intro current
      simp [lineage, Holds, Finmap.mem_keys, Finmap.mem_iff]
    rw [hmem, hmem, hholds]
    by_cases hother : other = txHash
    · simp [hother]
    · simp [hother]
  up := by
    intro first second
    obtain ⟨hancestors, -, -, -⟩ := @linked_of_fresh pool entry ancestors hfresh hfees
    simp only [lineage]
    rw [ancestorsAt_place, hancestors]
    split
    case isTrue hsame => simp [hsame]
    case isFalse hother => simp [hother]
  down := by
    intro first second
    obtain ⟨-, -, -, hdescendants⟩ := @linked_of_fresh pool entry ancestors hfresh hfees
    have hnot : txHash ∉ ancestors ∩ pool.entries.keys := by
      simp [Finmap.mem_keys, hnew]
    simp only [lineage]
    rw [descendantsAt_place, hdescendants]
    by_cases hfirst : first = txHash
    · rw [if_pos hfirst, hfirst]
      simp [hnot]
    · rw [if_neg hfirst]
      split
      case isTrue hmem => simp [hfirst, hmem, or_comm]
      case isFalse hnone => simp [hfirst, hnone]

theorem Packaged.place (hpackaged : pool.Packaged) (hnew : txHash ∉ pool.entries)
    (hfresh : Fresh entry)
    (hfees : entry.fee + ∑ ancestor ∈ ancestors ∩ pool.entries.keys, pool.feeAt ancestor <
      2 ^ 64)
    (hup : ∀ parent ∈ ancestors, ∀ ancestor ∈ pool.ancestorsAt parent, ancestor ∈ ancestors) :
    (pool.place txHash entry ancestors poolOutpoint).Packaged := by
  have hin := @below_place pool txHash entry ancestors poolOutpoint hnew hfresh hfees
  obtain ⟨-, hfee, hsize, -⟩ := @linked_of_fresh pool entry ancestors hfresh hfees
  have hkey : txHash ∉ pool.lineage.nodes := mt Finmap.mem_keys.mp hnew
  have hparents : ∀ parent ∈ ancestors ∩ pool.entries.keys, parent ∈ pool.lineage.nodes :=
    fun parent hparent => (Finset.mem_inter.mp hparent).2
  have hown : ∀ worth : MempoolEntry → Nat, (∀ entry, worth entry.bare = worth entry) →
      ∀ other, worthAt worth (pool.place txHash entry ancestors poolOutpoint).entries other =
        if other = txHash then worth entry else worthAt worth pool.entries other := by
    intro worth hworth other
    rw [worthAt_bareAt hworth, worthAt_bareAt hworth, bareAt_place]
    split
    · exact hworth entry
    · rfl
  have hfigure : ∀ figure : MempoolEntry → Nat,
      (∀ entry, figure (entry.addDescendant txHash) = figure entry) →
        ∀ other ≠ txHash,
          worthAt figure (pool.place txHash entry ancestors poolOutpoint).entries other =
            worthAt figure pool.entries other := by
    intro figure hkept other hother
    unfold worthAt
    rw [lookup_place, if_neg hother]
    cases pool.entries.lookup other with
    | none => rfl
    | some found =>
        simp only [Option.map_some, Option.elim_some]
        split
        · exact hkept found
        · rfl
  have hat : ∀ figure : MempoolEntry → Nat,
      worthAt figure (pool.place txHash entry ancestors poolOutpoint).entries txHash =
        figure (addAncestors (pool.ancestorRows ancestors) entry) := by
    intro figure
    rw [worthAt, lookup_place, if_pos rfl, Option.elim_some]
  refine ⟨?closed, ?fees, ?sizes⟩
  case closed =>
    apply hpackaged.closed.below hin hkey hparents
    intro parent hparent ancestor hancestor
    have hmem := (hpackaged.closed.mem hancestor).1
    exact Finset.mem_inter.mpr
      ⟨hup parent (Finset.mem_inter.mp hparent).1 ancestor hancestor, hmem⟩
  case fees =>
    apply hpackaged.fees.below hpackaged.closed hin hkey hparents
    · intro other hother
      exact (hown _ (fun _ => rfl) other).trans (if_neg hother)
    · exact hfigure _ fun _ => rfl
    · rw [feeAt, hown _ fun _ => rfl, if_pos rfl, ancestorFeeAt, hat]
      exact hfee
  case sizes =>
    apply hpackaged.sizes.below hpackaged.closed hin hkey hparents
    · intro other hother
      exact (hown _ (fun _ => rfl) other).trans (if_neg hother)
    · exact hfigure _ fun _ => rfl
    · rw [sizeAt, hown _ fun _ => rfl, if_pos rfl, ancestorSizeAt, hat]
      exact hsize

theorem tx_of_place {found : MempoolEntry}
    (hfound : (pool.place txHash entry ancestors poolOutpoint).entries.lookup hash = some found) :
    (hash = txHash ∧ found.tx = entry.tx) ∨
      (hash ≠ txHash ∧ ∃ old, pool.entries.lookup hash = some old ∧ old.tx = found.tx) := by
  rw [lookup_place] at hfound
  split at hfound
  case isTrue hsame =>
    rw [← Option.some.inj hfound]
    exact .inl ⟨hsame, figure_addAncestors (fun _ => rfl) _ entry⟩
  case isFalse hother =>
    obtain ⟨old, hold, rfl⟩ := Option.map_eq_some_iff.mp hfound
    refine .inr ⟨hother, old, hold, ?_⟩
    split
    · rfl
    · rfl

theorem Supplied.place (hsupplied : pool.Supplied db) (hnew : txHash ∉ pool.entries)
    (hfresh : Fresh entry)
    (hfees : entry.fee + ∑ ancestor ∈ ancestors ∩ pool.entries.keys, pool.feeAt ancestor <
      2 ^ 64)
    (hinputs : ∀ input ∈ entry.tx.inputs, (db.getUtxo (inputOutpoint input)).isSome ∨
      (input.prevTxHash ∈ ancestors ∧ pool.HasOutput input)) :
    (pool.place txHash entry ancestors poolOutpoint).Supplied db := by
  have houtput : ∀ input, pool.HasOutput input →
      (pool.place txHash entry ancestors poolOutpoint).HasOutput input := by
    intro input hhas
    refine (holds_place (fun _ => Iff.rfl) txHash entry ancestors poolOutpoint).mpr
      (.inr ⟨?_, hhas⟩)
    intro hsame
    rw [HasOutput, hsame] at hhas
    exact not_holds_of_notMem hnew hhas
  intro hash found hfound input hinput
  rw [ancestorsAt_place]
  rcases tx_of_place hfound with ⟨hsame, htx⟩ | ⟨hother, old, hold, htx⟩
  · obtain ⟨hancestors, -, -, -⟩ := @linked_of_fresh pool entry ancestors hfresh hfees
    refine (hinputs input (htx ▸ hinput)).imp id ?_
    rintro ⟨hmem, hhas⟩
    obtain ⟨parent, hparent, -⟩ := id hhas
    have hresident := Finmap.mem_keys.mpr (Finmap.mem_of_lookup_eq_some hparent)
    rw [if_pos hsame, hancestors]
    exact ⟨Finset.mem_inter.mpr ⟨hmem, hresident⟩, houtput input hhas⟩
  · rw [if_neg hother]
    rw [← htx] at hinput
    exact (hsupplied hash old hold input hinput).imp id (And.imp_right (houtput input))

end

end Mempool

end Doli
