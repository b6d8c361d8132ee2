import Doli.Core.Transaction
import Doli.Lib.Column

/-!
# The block store

Blocks by hash, and the two canonical indexes that move together.  The slot,
transaction and address indexes are left out.
-/

namespace Doli.Storage

open Doli.Core Doli.Lib

/-- A block with the hash of its header. -/
structure Block where
  hash : Hash
  prevHash : Hash
  producer : PublicKey
  slot : Nat
  timestamp : Nat
  presenceRoot : Hash
  attestationBitfield : Bytes
  transactions : List Transaction
  deriving DecidableEq, Repr

structure BlockStore where
  blocks : Column Hash Block
  heightIndex : Column Nat Hash
  hashToHeight : Column Hash Nat
  snapHorizon : Option Nat
  deriving DecidableEq

namespace BlockStore

variable (store : BlockStore)

def hasBlock (hash : Hash) : Bool := (store.blocks.lookup hash).isSome

def getHeightByHash (hash : Hash) : Option Nat := store.hashToHeight.lookup hash

def getHashByHeight (height : Nat) : Option Hash := store.heightIndex.lookup height

def getBlockByHeight (height : Nat) : Option Block :=
  (store.getHashByHeight height).bind store.blocks.lookup

def putBlock (block : Block) : BlockStore :=
  { store with blocks := store.blocks.insert block.hash block }

/-- The occupied heights from `height` up to the first gap, with their hashes.
There are no more of them than index rows. -/
def rowsAbove : Nat → Nat → List (Nat × Hash)
  | 0, _ => []
  | fuel + 1, height =>
      match store.getHashByHeight height with
      | none => []
      | some hash => (height, hash) :: rowsAbove fuel (height + 1)

/-- `height <= floor` for the floor of a snap sync, if there is one. -/
def atSnapHorizon (height : Nat) : Bool := store.snapHorizon.any (height ≤ ·)

/-- The rows the walk back from `hash` has to write, down to the first height
that is canonical already; a missing header stops it. -/
def rowsBelow : Nat → Hash → Except Hash (List (Nat × Hash))
  | height, hash =>
      if store.getHashByHeight height = some hash then .ok []
      else
        match height with
        | 0 => .ok [(0, hash)]
        | below + 1 =>
            if store.atSnapHorizon (below + 1) then .ok [(below + 1, hash)]
            else
              match store.blocks.lookup hash with
              | none => .error hash
              | some block =>
                  match rowsBelow below block.prevHash with
                  | .error missing => .error missing
                  | .ok rows => .ok ((below + 1, hash) :: rows)

/-- Rows above the tip go, rows below it are healed. -/
def setCanonicalChain (tipHash : Hash) (tipHeight : Nat) : Except Hash BlockStore :=
  let stale := store.rowsAbove store.heightIndex.keys.card (tipHeight + 1)
  match store.rowsBelow tipHeight tipHash with
  | .error missing => .error missing
  | .ok rows => .ok
      { store with
        heightIndex := commit (stale.map (fun row => .delete row.1) ++
          rows.map fun row => .put row.1 row.2) store.heightIndex
        hashToHeight := commit (stale.map (fun row => .delete row.2) ++
          rows.map fun row => .put row.2 row.1) store.hashToHeight }

/-- Only the entry of the expected block is removed. -/
def removeCanonicalEntry (height : Nat) (expectedHash : Hash) : BlockStore :=
  if store.getHashByHeight height = some expectedHash then
    { store with
      heightIndex := store.heightIndex.erase height
      hashToHeight := store.hashToHeight.erase expectedHash }
  else store

variable {store}

theorem lt_of_mem_rowsAbove {fuel height : Nat} {row : Nat × Hash}
    (hrow : row ∈ store.rowsAbove fuel height) : height ≤ row.1 := by
  induction fuel generalizing height with
  | zero => simp [rowsAbove] at hrow
  | succ fuel ih =>
      unfold rowsAbove at hrow
      split at hrow
      · contradiction
      · rcases List.mem_cons.mp hrow with rfl | hrow
        · exact le_refl _
        · have hnext := ih hrow
          omega

theorem of_mem_rowsBelow {height : Nat} {hash : Hash} {rows : List (Nat × Hash)}
    (hrows : store.rowsBelow height hash = .ok rows) {row : Nat × Hash}
    (hrow : row ∈ rows) : row.1 ≤ height ∧ (row.1 = height → row.2 = hash) := by
  induction height generalizing hash rows with
  | zero =>
      unfold rowsBelow at hrows
      split at hrows
      · obtain rfl := Except.ok.inj hrows
        contradiction
      · obtain rfl := Except.ok.inj hrows
        obtain rfl := List.mem_singleton.mp hrow
        exact ⟨le_refl _, fun _ => rfl⟩
  | succ below ih =>
      unfold rowsBelow at hrows
      split at hrows
      · obtain rfl := Except.ok.inj hrows
        contradiction
      dsimp only at hrows
      split at hrows
      · obtain rfl := Except.ok.inj hrows
        obtain rfl := List.mem_singleton.mp hrow
        exact ⟨le_refl _, fun _ => rfl⟩
      split at hrows
      · contradiction
      split at hrows
      · contradiction
      case h_2 deeper hdeeper =>
        obtain rfl := Except.ok.inj hrows
        rcases List.mem_cons.mp hrow with rfl | hrow
        · exact ⟨le_refl _, fun _ => rfl⟩
        · have hbelow := (ih hdeeper hrow).1
          constructor <;> omega

theorem parent_of_mem_rowsBelow {height : Nat} {block : Block}
    {rows : List (Nat × Hash)} (hblock : store.blocks.lookup block.hash = some block)
    (hrows : store.rowsBelow (height + 1) block.hash = .ok rows) {row : Nat × Hash}
    (hrow : row ∈ rows) (hheight : row.1 = height) : row.2 = block.prevHash := by
  unfold rowsBelow at hrows
  split at hrows
  · obtain rfl := Except.ok.inj hrows
    contradiction
  dsimp only at hrows
  split at hrows
  · obtain rfl := Except.ok.inj hrows
    obtain rfl := List.mem_singleton.mp hrow
    simp at hheight
  simp only [hblock] at hrows
  split at hrows
  · contradiction
  case h_2 deeper hdeeper =>
    obtain rfl := Except.ok.inj hrows
    rcases List.mem_cons.mp hrow with rfl | hrow
    · simp at hheight
    · exact (of_mem_rowsBelow hdeeper hrow).2 hheight

theorem setCanonicalChain_below {height : Nat} {block : Block} {next : BlockStore}
    (hblock : store.blocks.lookup block.hash = some block)
    (hset : store.setCanonicalChain block.hash (height + 1) = .ok next) :
    next.blocks = store.blocks ∧
      (next.getHashByHeight height = some block.prevHash ∨
        next.getHashByHeight height = store.getHashByHeight height) := by
  unfold setCanonicalChain at hset
  dsimp only at hset
  split at hset
  · contradiction
  case h_2 rows hrows =>
    obtain rfl := Except.ok.inj hset
    refine ⟨rfl, lookup_commit_of_put ?_ _⟩
    intro op hop hkey
    rcases List.mem_append.mp hop with hop | hop
    · obtain ⟨row, hrow, rfl⟩ := List.mem_map.mp hop
      have habove := lt_of_mem_rowsAbove hrow
      simp only [WriteOp.key] at hkey
      omega
    · obtain ⟨row, hrow, rfl⟩ := List.mem_map.mp hop
      simp only [WriteOp.key] at hkey
      rw [parent_of_mem_rowsBelow hblock hrows hrow hkey, hkey]

end BlockStore

end Doli.Storage
