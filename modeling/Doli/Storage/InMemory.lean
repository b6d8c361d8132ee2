import Doli.Lib.DerivedIndex
import Doli.Storage.Overlay

/-!
# The store in memory

`InMemoryUtxoStore` keeps the rows in a hash map and the unique ids in a hash set beside
it.  Adding and spending a transaction write both, the other calls the rows only.
-/

namespace Doli.Storage

open Doli.Core Doli.Lib

/-- `UID_PREFIX_NFT`, `UID_PREFIX_ASSET` and `UID_PREFIX_POOL` -/
def UidPrefix.byte : UidPrefix → UInt8
  | .nft => 0x01
  | .asset => 0x02
  | .pool => 0x03

/-- `uid_key` of the unique id that a stored output carries. -/
def carriedKey (entry : UtxoEntry) : Option (UInt8 × Hash) :=
  (uniqueIdOf entry.output).map fun uid => (uid.1.byte, uid.2)

structure InMemoryUtxoStore where
  utxos : UtxoColumn
  uniqueIds : Finset (UInt8 × Hash)

namespace InMemoryUtxoStore

def new : InMemoryUtxoStore := ⟨∅, ∅⟩

def hasUniqueId (store : InMemoryUtxoStore) (prefixByte : UInt8) (id : Hash) : Bool :=
  decide ((prefixByte, id) ∈ store.uniqueIds)

def clear (store : InMemoryUtxoStore) : InMemoryUtxoStore := { store with utxos := ∅ }

def insert (store : InMemoryUtxoStore) (outpoint : Outpoint) (entry : UtxoEntry) :
    InMemoryUtxoStore :=
  { store with utxos := store.utxos.insert outpoint entry }

def remove (store : InMemoryUtxoStore) (outpoint : Outpoint) :
    InMemoryUtxoStore × Option UtxoEntry :=
  ({ store with utxos := store.utxos.erase outpoint }, store.utxos.lookup outpoint)

def listKey (entry : UtxoEntry) (ids : Finset (UInt8 × Hash)) : Finset (UInt8 × Hash) :=
  match carriedKey entry with
  | some key => Insert.insert key ids
  | none => ids

def unlistKey (entry : UtxoEntry) (ids : Finset (UInt8 × Hash)) : Finset (UInt8 × Hash) :=
  match carriedKey entry with
  | some key => ids.erase key
  | none => ids

def addOutputs (txHash : Hash) (height slot : Nat) (isCoinbase isEpochReward : Bool) :
    List Output → Nat → InMemoryUtxoStore → InMemoryUtxoStore
  | [], _, store => store
  | output :: outputs, position, store =>
      let entry : UtxoEntry :=
        { output := stampOutput output slot
          height := height
          isCoinbase := isCoinbase
          isEpochReward := isEpochReward }
      addOutputs txHash height slot isCoinbase isEpochReward outputs (position + 1)
        { utxos := store.utxos.insert (.ofOutput txHash position) entry
          uniqueIds := listKey entry store.uniqueIds }

def addTransaction (prim : Primitives) (store : InMemoryUtxoStore) (tx : Transaction)
    (height : Nat) (isCoinbase : Bool) (slot : Nat) : InMemoryUtxoStore :=
  store.addOutputs (prim.txHash tx) height slot isCoinbase tx.isEpochReward tx.outputs 0

/-- The inputs in front of a missing one stay spent. -/
def spendInputs : List Input → InMemoryUtxoStore → Nat →
    InMemoryUtxoStore × Except StorageError Nat
  | [], store, total => (store, .ok total)
  | input :: inputs, store, total =>
      match store.utxos.lookup (inputOutpoint input) with
      | none => (store, .error (.notFound (inputOutpoint input)))
      | some entry =>
          spendInputs inputs
            { utxos := store.utxos.erase (inputOutpoint input)
              uniqueIds := unlistKey entry store.uniqueIds }
            (if entry.output.outputType.isNativeAmount then
              (total + entry.output.amount) % 2 ^ 64
            else total)

def spendTransaction (store : InMemoryUtxoStore) (tx : Transaction) :
    InMemoryUtxoStore × Except StorageError Nat :=
  spendInputs tx.inputs store 0

inductive StoreOp where
  | insert (outpoint : Outpoint) (entry : UtxoEntry)
  | remove (outpoint : Outpoint)
  | addTransaction (tx : Transaction) (height : Nat) (isCoinbase : Bool) (slot : Nat)
  | spendTransaction (tx : Transaction)
  | clear
  deriving DecidableEq, Repr

def applyOp (prim : Primitives) (store : InMemoryUtxoStore) : StoreOp → InMemoryUtxoStore
  | .insert outpoint entry => store.insert outpoint entry
  | .remove outpoint => (store.remove outpoint).1
  | .addTransaction tx height isCoinbase slot =>
      store.addTransaction prim tx height isCoinbase slot
  | .spendTransaction tx => (store.spendTransaction tx).1
  | .clear => store.clear

/-! ## What the writes do -/

theorem mem_listKey {entry : UtxoEntry} {ids : Finset (UInt8 × Hash)} {key : UInt8 × Hash} :
    key ∈ listKey entry ids ↔ key ∈ ids ∨ carriedKey entry = some key := by
  unfold listKey
  cases carriedKey entry with
  | none => simp
  | some carried =>
      rw [Finset.mem_insert, Option.some.injEq, or_comm, eq_comm]

theorem mem_unlistKey {entry : UtxoEntry} {ids : Finset (UInt8 × Hash)}
    {key : UInt8 × Hash} :
    key ∈ unlistKey entry ids ↔ key ∈ ids ∧ carriedKey entry ≠ some key := by
  unfold unlistKey
  cases carriedKey entry with
  | none => simp
  | some carried =>
      rw [Finset.mem_erase, Ne, Ne, Option.some.injEq, and_comm, eq_comm]

/-- The rows that a transaction leaves, in output order. -/
def addedRows (prim : Primitives) (tx : Transaction) (height : Nat) (isCoinbase : Bool)
    (slot : Nat) : List (Outpoint × UtxoEntry) :=
  BlockBatch.newRows (prim.txHash tx) height slot isCoinbase tx.isEpochReward tx.outputs 0

theorem utxos_addOutputs (txHash : Hash) (height slot : Nat)
    (isCoinbase isEpochReward : Bool) (outputs : List Output) (position : Nat)
    (store : InMemoryUtxoStore) :
    (addOutputs txHash height slot isCoinbase isEpochReward outputs position store).utxos =
      Journal.insertAll
        (BlockBatch.newRows txHash height slot isCoinbase isEpochReward outputs position)
        store.utxos := by
  induction outputs generalizing position store with
  | nil => rfl
  | cons output outputs ih =>
      unfold addOutputs
      rw [ih]
      rfl

theorem mem_uniqueIds_addOutputs (txHash : Hash) (height slot : Nat)
    (isCoinbase isEpochReward : Bool) (outputs : List Output) (position : Nat)
    (store : InMemoryUtxoStore) (key : UInt8 × Hash) :
    key ∈ (addOutputs txHash height slot isCoinbase isEpochReward outputs position
        store).uniqueIds ↔
      key ∈ store.uniqueIds ∨ ∃ row ∈ BlockBatch.newRows txHash height slot isCoinbase
        isEpochReward outputs position, carriedKey row.2 = some key := by
  induction outputs generalizing position store with
  | nil => simp [addOutputs, BlockBatch.newRows]
  | cons output outputs ih =>
      unfold addOutputs
      rw [ih, mem_listKey, BlockBatch.newRows, List.exists_mem_cons_iff, or_assoc]

/-- The outpoints that a spending takes off the store: those of the inputs in front of the
first one that is missing. -/
def spentFront : List Input → UtxoColumn → List Outpoint
  | [], _ => []
  | input :: inputs, column =>
      match column.lookup (inputOutpoint input) with
      | none => []
      | some _ =>
          inputOutpoint input :: spentFront inputs (column.erase (inputOutpoint input))

theorem utxos_spendInputs (inputs : List Input) (store : InMemoryUtxoStore) (total : Nat) :
    (spendInputs inputs store total).1.utxos =
      Journal.eraseAll (spentFront inputs store.utxos) store.utxos := by
  induction inputs generalizing store total with
  | nil => rfl
  | cons input inputs ih =>
      unfold spendInputs spentFront
      cases store.utxos.lookup (inputOutpoint input) with
      | none => rfl
      | some entry =>
          dsimp only
          rw [ih]
          rfl

theorem mem_uniqueIds_spendInputs (inputs : List Input) (store : InMemoryUtxoStore)
    (total : Nat) (key : UInt8 × Hash) :
    key ∈ (spendInputs inputs store total).1.uniqueIds ↔ key ∈ store.uniqueIds ∧
      ¬CarriedAmong carriedKey (spentFront inputs store.utxos) store.utxos key := by
  induction inputs generalizing store total with
  | nil => simp [spendInputs, spentFront, CarriedAmong]
  | cons input inputs ih =>
      unfold spendInputs spentFront
      cases hlookup : store.utxos.lookup (inputOutpoint input) with
      | none => simp [CarriedAmong]
      | some entry =>
          dsimp only
          rw [ih, mem_unlistKey, carriedAmong_cons hlookup]
          tauto

/-! ## The index -/

/-- The index answers for the rows, under every prefix byte. -/
def IndexExact (store : InMemoryUtxoStore) : Prop :=
  ∀ prefixByte id, store.hasUniqueId prefixByte id = true ↔
    Carries carriedKey store.utxos (prefixByte, id)

theorem indexExact_iff {store : InMemoryUtxoStore} :
    store.IndexExact ↔ ExactIndex carriedKey store.utxos store.uniqueIds := by
  unfold IndexExact hasUniqueId
  simp only [decide_eq_true_eq]
  exact ⟨fun hexact key => hexact key.1 key.2, fun hexact prefixByte id => hexact _⟩

theorem indexExact_new : new.IndexExact := by
  refine indexExact_iff.mpr fun key => ?_
  exact ⟨fun hmem => absurd hmem (Finset.notMem_empty key),
    fun hcarried => absurd hcarried not_carries_empty⟩

/-- What a call needs of the store before it, for the index to be exact afterwards. -/
def Suits (prim : Primitives) (store : InMemoryUtxoStore) : StoreOp → Prop
  -- the id of the entry is listed already, and the id of the row it replaces stays carried
  | .insert outpoint entry =>
      (∀ key, carriedKey entry = some key → Carries carriedKey store.utxos key) ∧
        ∀ key, CarriedAmong carriedKey [outpoint] store.utxos key →
          CarriedBeside carriedKey [outpoint] store.utxos key ∨ carriedKey entry = some key
  -- another row carries the id of the row
  | .remove outpoint => ∀ key, CarriedAmong carriedKey [outpoint] store.utxos key →
      CarriedBeside carriedKey [outpoint] store.utxos key
  -- no id of a replaced row, or of an output that a later one replaces, is lost
  | .addTransaction tx height isCoinbase slot =>
      let rows := addedRows prim tx height isCoinbase slot
      ∀ key, CarriedAmong carriedKey (rows.map Prod.fst) store.utxos key ∨
          (∃ row ∈ rows, carriedKey row.2 = some key) →
        CarriedBeside carriedKey (rows.map Prod.fst) store.utxos key ∨
          CarriedByRows carriedKey rows key
  -- no row that stays shares an id with one that is spent
  | .spendTransaction tx =>
      ∀ key, CarriedAmong carriedKey (spentFront tx.inputs store.utxos) store.utxos key →
        ¬CarriedBeside carriedKey (spentFront tx.inputs store.utxos) store.utxos key
  | .clear => ∀ key, ¬Carries carriedKey store.utxos key

theorem indexExact_applyOp_iff {prim : Primitives} {store : InMemoryUtxoStore}
    (hexact : store.IndexExact) (op : StoreOp) :
    (store.applyOp prim op).IndexExact ↔ store.Suits prim op := by
  rw [indexExact_iff] at hexact ⊢
  cases op with
  | insert outpoint entry =>
      have hwritten : ExactIndex carriedKey (Journal.insertAll [(outpoint, entry)] store.utxos)
          store.uniqueIds ↔ _ := hexact.insertAll_iff
      simp only [carriedByRows_singleton] at hwritten
      exact hwritten
  | remove outpoint =>
      have herased : ExactIndex carriedKey (Journal.eraseAll [outpoint] store.utxos)
          store.uniqueIds ↔ _ := hexact.eraseAll_iff
      exact herased
  | addTransaction tx height isCoinbase slot =>
      unfold applyOp addTransaction
      rw [utxos_addOutputs]
      exact hexact.insertAll_listed_iff fun key =>
        mem_uniqueIds_addOutputs _ height slot isCoinbase _ tx.outputs 0 store key
  | spendTransaction tx =>
      unfold applyOp spendTransaction
      rw [utxos_spendInputs]
      exact hexact.eraseAll_unlisted_iff fun key =>
        mem_uniqueIds_spendInputs tx.inputs store 0 key
  | clear => exact hexact.empty_iff

/-! ## Runs -/

def replay (prim : Primitives) (store : InMemoryUtxoStore) (ops : List StoreOp) :
    InMemoryUtxoStore :=
  ops.foldl (applyOp prim) store

/-- Every call of a run suits the store that it finds. -/
def AllSuit (prim : Primitives) : List StoreOp → InMemoryUtxoStore → Prop
  | [], _ => True
  | op :: ops, store => store.Suits prim op ∧ AllSuit prim ops (store.applyOp prim op)

theorem indexExact_along_iff {prim : Primitives} {store : InMemoryUtxoStore}
    (hexact : store.IndexExact) (ops : List StoreOp) :
    (∀ front, front <+: ops → (store.replay prim front).IndexExact) ↔
      AllSuit prim ops store := by
  induction ops generalizing store with
  | nil =>
      simp only [List.prefix_nil, forall_eq, AllSuit, iff_true]
      exact hexact
  | cons op ops ih =>
      unfold AllSuit
      constructor
      · intro hall
        have hnext : (store.applyOp prim op).IndexExact :=
          hall [op] ((List.prefix_cons_inj op).mpr List.nil_prefix)
        refine ⟨(indexExact_applyOp_iff hexact op).mp hnext, (ih hnext).mp ?_⟩
        intro front hfront
        exact hall (op :: front) ((List.prefix_cons_inj op).mpr hfront)
      · rintro ⟨hsuits, hothers⟩ front hfront
        have hnext := (indexExact_applyOp_iff hexact op).mpr hsuits
        cases front with
        | nil => exact hexact
        | cons first front =>
            obtain ⟨rfl, hrest⟩ := List.cons_prefix_cons.mp hfront
            exact (ih hnext).mpr hothers front hrest

/-- The index is exact after every call of a run exactly where every call suits the store
it finds. -/
theorem unique_ids_exact_iff (prim : Primitives) (ops : List StoreOp) :
    (∀ front, front <+: ops → (new.replay prim front).IndexExact) ↔ AllSuit prim ops new :=
  indexExact_along_iff indexExact_new ops

/-! ## Calls that leave the index behind -/

theorem not_indexExact_of_missing {store : InMemoryUtxoStore} {key : UInt8 × Hash}
    {outpoint : Outpoint} {entry : UtxoEntry}
    (hmissing : store.hasUniqueId key.1 key.2 = false)
    (hrow : store.utxos.lookup outpoint = some entry) (hmark : carriedKey entry = some key) :
    ¬store.IndexExact := by
  intro hexact
  have hlisted := (hexact key.1 key.2).mpr ⟨outpoint, entry, hrow, hmark⟩
  rw [hmissing] at hlisted
  cases hlisted

theorem not_indexExact_of_stale {store : InMemoryUtxoStore} (key : UInt8 × Hash)
    (hlisted : store.hasUniqueId key.1 key.2 = true) (hnone : store.utxos = ∅) :
    ¬store.IndexExact := by
  intro hexact
  have hcarried := (hexact key.1 key.2).mp hlisted
  rw [hnone] at hcarried
  exact not_carries_empty hcarried

/-- The output of an NFT with the token id ⟨88⟩, behind a signature condition. -/
def storedNft : Output where
  outputType := .nft
  amount := 1
  pubkeyHash := ⟨5⟩
  lockUntil := 0
  extraData := [1, 0] ++ Hash.asBytes ⟨5⟩ ++ (1 :: Hash.asBytes ⟨88⟩)

def storedRow : UtxoEntry := ⟨storedNft, 1, false, false⟩

def minting (version : Nat) : Transaction := ⟨version, .transfer, [], [storedNft], []⟩

def mintedOutpoint (version : Nat) : Outpoint :=
  .ofOutput (samplePrimitives.txHash (minting version)) 0

def spendingMinted (version : Nat) : Transaction where
  version := 1
  txType := .transfer
  inputs := [⟨(mintedOutpoint version).txHash, 0, ⟨0⟩, .all, 0, none⟩]
  outputs := []
  extraData := []

/-- An insertion is not listed, what a removal and a clearing drop stays listed, and a
spending takes an id off that another row carries. -/
theorem unique_ids_left_behind :
    ¬(new.replay samplePrimitives [.insert (mintedOutpoint 1) storedRow]).IndexExact ∧
      ¬(new.replay samplePrimitives [.addTransaction (minting 1) 1 false 7,
        .remove (mintedOutpoint 1)]).IndexExact ∧
      ¬(new.replay samplePrimitives [.addTransaction (minting 1) 1 false 7,
        .clear]).IndexExact ∧
      ¬(new.replay samplePrimitives [.addTransaction (minting 1) 1 false 7,
        .addTransaction (minting 2) 1 false 7,
        .spendTransaction (spendingMinted 1)]).IndexExact := by
  have hmark : carriedKey storedRow = some (1, ⟨88⟩) := by decide +kernel
  refine ⟨?_, ?_, ?_, ?_⟩
  · exact not_indexExact_of_missing (by decide +kernel) (Finmap.lookup_insert _) hmark
  · exact not_indexExact_of_stale (1, ⟨88⟩) (by decide +kernel) (by decide +kernel)
  · exact not_indexExact_of_stale (1, ⟨88⟩) (by decide +kernel) rfl
  · have hrow : (new.replay samplePrimitives [.addTransaction (minting 1) 1 false 7,
        .addTransaction (minting 2) 1 false 7,
        .spendTransaction (spendingMinted 1)]).utxos.lookup (mintedOutpoint 2) =
          some storedRow := by decide +kernel
    exact not_indexExact_of_missing (by decide +kernel) hrow hmark

end InMemoryUtxoStore

/-!
## Spendings that fail

`spend_transaction` takes its inputs off the store one by one and stops at the first one
that is missing.  What it has taken by then stays taken.
-/

namespace InMemoryUtxoStore

/-- The inputs name different rows of the column. -/
def Spendable (column : UtxoColumn) (inputs : List Input) : Prop :=
  (inputs.map inputOutpoint).Nodup ∧
    ∀ input ∈ inputs, (column.lookup (inputOutpoint input)).isSome

/-- The first input names no row, so nothing is taken before the failure. -/
def FailsAtOnce (column : UtxoColumn) (inputs : List Input) : Prop :=
  ∃ input, inputs.head? = some input ∧ column.lookup (inputOutpoint input) = none

section

variable {store : InMemoryUtxoStore} {input : Input} {inputs : List Input} {total : Nat}

theorem spendable_cons {column : UtxoColumn} :
    Spendable column (input :: inputs) ↔
      (column.lookup (inputOutpoint input)).isSome ∧
        Spendable (column.erase (inputOutpoint input)) inputs := by
  have hrest : (∀ other ∈ inputs, inputOutpoint other ≠ inputOutpoint input) →
      ((∀ other ∈ inputs, (column.lookup (inputOutpoint other)).isSome) ↔
        ∀ other ∈ inputs, ((column.erase (inputOutpoint input)).lookup
          (inputOutpoint other)).isSome) := by
    intro hne
    refine forall₂_congr fun other hother => ?_
    rw [Finmap.lookup_erase_ne (hne other hother)]
  simp only [Spendable, List.map_cons, List.nodup_cons, List.forall_mem_cons]
  constructor
  · rintro ⟨⟨hfresh, hnodup⟩, hfirst, hothers⟩
    refine ⟨hfirst, hnodup, (hrest ?_).mp hothers⟩
    intro other hother heq
    exact hfresh (heq ▸ List.mem_map_of_mem hother)
  · rintro ⟨hfirst, hnodup, hothers⟩
    have hne : ∀ other ∈ inputs, inputOutpoint other ≠ inputOutpoint input := by
      intro other hother heq
      have hkept := hothers other hother
      rw [heq, Finmap.lookup_erase] at hkept
      cases hkept
    refine ⟨⟨?_, hnodup⟩, hfirst, (hrest hne).mpr hothers⟩
    intro hmem
    obtain ⟨other, hother, heq⟩ := List.mem_map.mp hmem
    exact hne other hother heq

theorem spendInputs_isOk_iff :
    (∃ amount, (spendInputs inputs store total).2 = .ok amount) ↔
      Spendable store.utxos inputs := by
  induction inputs generalizing store total with
  | nil => simp [spendInputs, Spendable]
  | cons input inputs ih =>
      rw [spendable_cons]
      unfold spendInputs
      cases hlookup : store.utxos.lookup (inputOutpoint input) with
      | none => simp
      | some entry =>
          dsimp only
          rw [ih]
          simp

theorem spendInputs_of_failsAtOnce (hfails : FailsAtOnce store.utxos inputs) :
    (spendInputs inputs store total).1 = store := by
  obtain ⟨input, hhead, hmissing⟩ := hfails
  cases inputs with
  | nil => cases hhead
  | cons first inputs =>
      obtain rfl := Option.some.inj hhead
      simp [spendInputs, hmissing]

theorem spendInputs_ne_of_taken (htaken : (store.utxos.lookup (inputOutpoint input)).isSome) :
    (spendInputs (input :: inputs) store total).1 ≠ store := by
  intro hsame
  have hrows := utxos_spendInputs (input :: inputs) store total
  obtain ⟨entry, hentry⟩ := Option.isSome_iff_exists.mp htaken
  have hfront : inputOutpoint input ∈ spentFront (input :: inputs) store.utxos := by
    unfold spentFront
    rw [hentry]
    exact List.mem_cons_self
  have hgone : (spendInputs (input :: inputs) store total).1.utxos.lookup
      (inputOutpoint input) = none := by
    rw [hrows, Journal.lookup_eraseAll, if_pos hfront]
  rw [hsame, hentry] at hgone
  cases hgone

end

/-- A failed spending leaves the store as it was exactly where it fails at its first
input. -/
theorem spend_atomic_iff (store : InMemoryUtxoStore) (tx : Transaction) :
    (∀ error, (store.spendTransaction tx).2 = .error error →
        (store.spendTransaction tx).1 = store) ↔
      Spendable store.utxos tx.inputs ∨ FailsAtOnce store.utxos tx.inputs := by
  have hwhole : (∃ amount, (spendInputs tx.inputs store 0).2 = .ok amount) ↔
      Spendable store.utxos tx.inputs := spendInputs_isOk_iff
  unfold spendTransaction
  constructor
  · intro hatomic
    by_cases hspendable : Spendable store.utxos tx.inputs
    · exact .inl hspendable
    · refine .inr ?_
      cases hinputs : tx.inputs with
      | nil =>
          refine absurd ?_ hspendable
          simp [hinputs, Spendable]
      | cons input inputs =>
          refine ⟨input, rfl, ?_⟩
          rw [← hwhole, hinputs] at hspendable
          rw [hinputs] at hatomic
          cases hresult : (spendInputs (input :: inputs) store 0).2 with
          | ok amount => exact absurd ⟨amount, hresult⟩ hspendable
          | error error =>
              have hsame := hatomic error hresult
              by_contra htaken
              exact spendInputs_ne_of_taken (Option.ne_none_iff_isSome.mp htaken) hsame
  · rintro (hspendable | hfails) error herror
    · obtain ⟨amount, hok⟩ := hwhole.mpr hspendable
      rw [hok] at herror
      cases herror
    · exact spendInputs_of_failsAtOnce hfails

/-- One stored row, and a transaction that spends it and then a row that is not there. -/
def sampleStored : InMemoryUtxoStore :=
  new.insert ⟨⟨1⟩, 0⟩ ⟨⟨.normal, 5, ⟨4⟩, 0, []⟩, 1, false, false⟩

def sampleHalfSpent : Transaction where
  version := 1
  txType := .transfer
  inputs := [⟨⟨1⟩, 0, ⟨0⟩, .all, 0, none⟩, ⟨⟨2⟩, 0, ⟨0⟩, .all, 0, none⟩]
  outputs := []
  extraData := []

/-- The first row is lost with the error. -/
theorem failed_spending_keeps_spent :
    ¬∀ store tx error, (spendTransaction store tx).2 = .error error →
      (spendTransaction store tx).1 = store := by
  intro hall
  have hsame := hall sampleStored sampleHalfSpent (.notFound ⟨⟨2⟩, 0⟩) (by decide +kernel)
  have hrow : (sampleStored.utxos.lookup ⟨⟨1⟩, 0⟩).isSome = true := by decide +kernel
  have hgone : ((spendTransaction sampleStored sampleHalfSpent).1.utxos.lookup
      ⟨⟨1⟩, 0⟩).isSome = false := by decide +kernel
  rw [hsame, hrow] at hgone
  cases hgone

end InMemoryUtxoStore

end Doli.Storage
