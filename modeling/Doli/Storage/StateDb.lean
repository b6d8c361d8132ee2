import Doli.Core.Metadata
import Doli.Core.Payload
import Doli.Lib.Column

/-!
# The committed UTXO store

`StateDb` keeps the UTXO column, the owner index and the unique-id index.  The
direct writes used by rollback touch the first two only.
-/

namespace Doli.Storage

open Doli.Core Doli.Lib

structure Outpoint where
  txHash : Hash
  index : Nat
  deriving DecidableEq, Repr

/-- `Outpoint::new(tx_hash, position as u32)` -/
def Outpoint.ofOutput (txHash : Hash) (position : Nat) : Outpoint :=
  ⟨txHash, position % 2 ^ 32⟩

def inputOutpoint (input : Input) : Outpoint :=
  ⟨input.prevTxHash, input.outputIndex⟩

structure UtxoEntry where
  output : Output
  height : Nat
  isCoinbase : Bool
  isEpochReward : Bool
  deriving DecidableEq, Repr

/-- The prefix byte of a unique id. -/
inductive UidPrefix where
  | nft
  | asset
  | pool
  deriving DecidableEq, Repr

abbrev UidKey := UidPrefix × Hash

/-- The unique id that an NFT, pool or fungible-asset output carries. -/
def uniqueIdOf (output : Output) : Option UidKey :=
  match output.outputType with
  | .nft => output.nftMetadata.map fun metadata => (.nft, metadata.1)
  | .pool => output.poolMetadata.map fun metadata => (.pool, metadata.poolId)
  | .fungibleAsset =>
      output.fungibleAssetMetadata.map fun metadata => (.asset, metadata.1)
  | _ => none

abbrev UtxoColumn := Column Outpoint UtxoEntry

structure StateDb where
  utxo : UtxoColumn
  utxoByPubkey : List (Hash × Outpoint)
  uniqueIds : Finset UidKey

namespace StateDb

def empty : StateDb := ⟨∅, [], ∅⟩

def getUtxo (db : StateDb) (outpoint : Outpoint) : Option UtxoEntry :=
  db.utxo.lookup outpoint

def hasUniqueId (db : StateDb) (uid : UidKey) : Bool :=
  uid ∈ db.uniqueIds

/-- Scan the owner index and look every row up in the UTXO column. -/
def getUtxosByPubkey (db : StateDb) (pubkeyHash : Hash) :
    List (Outpoint × UtxoEntry) :=
  db.utxoByPubkey.filterMap fun row =>
    if row.1 = pubkeyHash then
      (db.utxo.lookup row.2).map fun entry => (row.2, entry)
    else none

def insertUtxo (db : StateDb) (outpoint : Outpoint) (entry : UtxoEntry) :
    StateDb :=
  { db with
    utxo := db.utxo.insert outpoint entry
    utxoByPubkey :=
      (WriteOp.put (entry.output.pubkeyHash, outpoint) ()).applyRows
        db.utxoByPubkey }

def removeUtxo (db : StateDb) (outpoint : Outpoint) : StateDb :=
  match db.utxo.lookup outpoint with
  | none => db
  | some entry =>
      { db with
        utxo := db.utxo.erase outpoint
        utxoByPubkey :=
          (WriteOp.delete (entry.output.pubkeyHash, outpoint) :
            WriteOp (Hash × Outpoint) Unit).applyRows db.utxoByPubkey }

def clearUtxos (db : StateDb) : StateDb :=
  { db with utxo := ∅, utxoByPubkey := [] }

@[simp] theorem insertUtxo_utxo (db : StateDb) (outpoint : Outpoint)
    (entry : UtxoEntry) :
    (db.insertUtxo outpoint entry).utxo = db.utxo.insert outpoint entry := rfl

@[simp] theorem insertUtxo_uniqueIds (db : StateDb) (outpoint : Outpoint)
    (entry : UtxoEntry) :
    (db.insertUtxo outpoint entry).uniqueIds = db.uniqueIds := rfl

@[simp] theorem removeUtxo_utxo (db : StateDb) (outpoint : Outpoint) :
    (db.removeUtxo outpoint).utxo = db.utxo.erase outpoint := by
  unfold removeUtxo
  split
  case h_1 hnone =>
    refine Finmap.ext_lookup fun key => ?_
    by_cases hkey : key = outpoint
    · rw [hkey, hnone, Finmap.lookup_erase]
    · rw [Finmap.lookup_erase_ne hkey]
  case h_2 => rfl

@[simp] theorem removeUtxo_uniqueIds (db : StateDb) (outpoint : Outpoint) :
    (db.removeUtxo outpoint).uniqueIds = db.uniqueIds := by
  unfold removeUtxo
  split <;> rfl

theorem getUtxo_of_mem_getUtxosByPubkey {db : StateDb} {pubkeyHash : Hash}
    {outpoint : Outpoint} {entry : UtxoEntry}
    (hmem : (outpoint, entry) ∈ db.getUtxosByPubkey pubkeyHash) :
    db.getUtxo outpoint = some entry := by
  obtain ⟨row, -, hrow⟩ := List.mem_filterMap.mp hmem
  split at hrow
  · obtain ⟨found, hfound, heq⟩ := Option.map_eq_some_iff.mp hrow
    obtain ⟨rfl, rfl⟩ := Prod.mk.inj heq
    exact hfound
  · contradiction

end StateDb

/-!
## The owner index

The index is exact when it lists every stored outpoint once, under its owner. Puts and
deletes keep it exact as long as no row changes owner in place.
-/

structure IndexExact (utxo : UtxoColumn) (rows : List (Hash × Outpoint)) :
    Prop where
  nodup : rows.Nodup
  mem_iff : ∀ owner outpoint, (owner, outpoint) ∈ rows ↔
    ∃ entry, utxo.lookup outpoint = some entry ∧ entry.output.pubkeyHash = owner

/-- Whatever stands at the outpoint already has this owner. -/
def OwnedBy (utxo : UtxoColumn) (outpoint : Outpoint) (owner : Hash) : Prop :=
  ∀ entry, utxo.lookup outpoint = some entry → entry.output.pubkeyHash = owner

theorem ownedBy_of_lookup_none {utxo : UtxoColumn} {outpoint : Outpoint}
    (hnone : utxo.lookup outpoint = none) (owner : Hash) :
    OwnedBy utxo outpoint owner := by
  intro entry hentry
  rw [hnone] at hentry
  contradiction

theorem indexExact_empty : IndexExact ∅ [] where
  nodup := List.nodup_nil
  mem_iff owner outpoint := by simp

theorem IndexExact.insert {utxo : UtxoColumn} {rows : List (Hash × Outpoint)}
    (hexact : IndexExact utxo rows) {outpoint : Outpoint} {entry : UtxoEntry}
    (howned : OwnedBy utxo outpoint entry.output.pubkeyHash) :
    IndexExact (utxo.insert outpoint entry)
      ((WriteOp.put (entry.output.pubkeyHash, outpoint) ()).applyRows rows) where
  nodup := WriteOp.nodup_applyRows_put hexact.nodup _ _
  mem_iff owner other := by
    rw [WriteOp.mem_applyRows_put, Prod.mk.injEq, hexact.mem_iff]
    by_cases hother : other = outpoint
    · subst hother
      simp only [Finmap.lookup_insert, Option.some.injEq, exists_eq_left', and_true]
      constructor
      · rintro (⟨old, hold, rfl⟩ | rfl)
        · exact (howned old hold).symm
        · rfl
      · intro howner
        exact .inr howner.symm
    · simp [Finmap.lookup_insert_of_ne _ hother, hother]

theorem IndexExact.erase {utxo : UtxoColumn} {rows : List (Hash × Outpoint)}
    (hexact : IndexExact utxo rows) {outpoint : Outpoint} {owner : Hash}
    (howned : OwnedBy utxo outpoint owner) :
    IndexExact (utxo.erase outpoint)
      ((WriteOp.delete (owner, outpoint) :
        WriteOp (Hash × Outpoint) Unit).applyRows rows) where
  nodup := hexact.nodup.filter _
  mem_iff other key := by
    simp only [WriteOp.applyRows, List.mem_filter, hexact.mem_iff,
      decide_eq_true_eq]
    by_cases hkey : key = outpoint
    · subst hkey
      simp only [Finmap.lookup_erase, reduceCtorEq, false_and, exists_false,
        iff_false, not_and, not_not]
      rintro ⟨entry, hentry, rfl⟩
      rw [howned entry hentry]
    · simp [Finmap.lookup_erase_ne hkey, hkey]

namespace StateDb

/-- A well-formed store: its owner index is exact. -/
def Indexed (db : StateDb) : Prop :=
  IndexExact db.utxo db.utxoByPubkey

theorem indexed_empty : Indexed .empty :=
  indexExact_empty

theorem Indexed.removeUtxo {db : StateDb} (hindexed : db.Indexed)
    (outpoint : Outpoint) : (db.removeUtxo outpoint).Indexed := by
  unfold StateDb.removeUtxo
  split
  · exact hindexed
  case h_2 entry hentry =>
    refine IndexExact.erase hindexed fun other hother => ?_
    rw [hentry] at hother
    exact congrArg (·.output.pubkeyHash) (Option.some.inj hother).symm

theorem Indexed.insertUtxo {db : StateDb} (hindexed : db.Indexed)
    {outpoint : Outpoint} {entry : UtxoEntry}
    (howned : OwnedBy db.utxo outpoint entry.output.pubkeyHash) :
    (db.insertUtxo outpoint entry).Indexed :=
  IndexExact.insert hindexed howned

theorem Indexed.mem_getUtxosByPubkey {db : StateDb} (hindexed : db.Indexed)
    {owner : Hash} {outpoint : Outpoint} {entry : UtxoEntry} :
    (outpoint, entry) ∈ db.getUtxosByPubkey owner ↔
      db.getUtxo outpoint = some entry ∧ entry.output.pubkeyHash = owner := by
  constructor
  · intro hmem
    have hget := getUtxo_of_mem_getUtxosByPubkey hmem
    obtain ⟨row, hrow, hmap⟩ := List.mem_filterMap.mp hmem
    split at hmap
    case isTrue howner =>
      obtain ⟨found, hfound, heq⟩ := Option.map_eq_some_iff.mp hmap
      obtain ⟨rfl, rfl⟩ := Prod.mk.inj heq
      obtain ⟨stored, hstored, hsame⟩ := (hindexed.mem_iff row.1 row.2).mp hrow
      rw [hfound] at hstored
      obtain rfl := Option.some.inj hstored
      exact ⟨hget, hsame.trans howner⟩
    · contradiction
  · rintro ⟨hget, rfl⟩
    refine List.mem_filterMap.mpr ⟨(entry.output.pubkeyHash, outpoint), ?_, ?_⟩
    · exact (hindexed.mem_iff _ _).mpr ⟨entry, hget, rfl⟩
    · have hlookup : db.utxo.lookup outpoint = some entry := hget
      simp [hlookup]

theorem Indexed.getUtxosByPubkey_nodup {db : StateDb} (hindexed : db.Indexed)
    (owner : Hash) : ((db.getUtxosByPubkey owner).map Prod.fst).Nodup := by
  have hkeys : (db.getUtxosByPubkey owner).map Prod.fst =
      (db.utxoByPubkey.filter fun row =>
        row.1 = owner ∧ (db.utxo.lookup row.2).isSome).map Prod.snd := by
    unfold StateDb.getUtxosByPubkey
    induction db.utxoByPubkey with
    | nil => rfl
    | cons row rows ih =>
        by_cases howner : row.1 = owner
        · cases hlookup : db.utxo.lookup row.2 with
          | none => simp [howner, hlookup, ih]
          | some entry => simp [howner, hlookup, ih]
        · simp [howner, ih]
  rw [hkeys]
  refine List.Nodup.map_on ?_ (hindexed.nodup.filter _)
  rintro ⟨leftOwner, left⟩ hleft ⟨rightOwner, right⟩ hright rfl
  simp only [List.mem_filter, decide_eq_true_eq] at hleft hright
  rw [hleft.2.1, hright.2.1]

end StateDb

end Doli.Storage
