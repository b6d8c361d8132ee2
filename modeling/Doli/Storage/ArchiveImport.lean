import Doli.Storage.Archiver

/-!
# Importing from the archive

A restore or a backfill reads the archived files in the order of their heights and stops at
the first that is not in order.  A targeted backfill visits heights in any order, skips what
is not in order, and takes a block only where it links to the stored ones.
-/

namespace Doli.Storage

open Doli.Core Doli.Lib

/-! ## Reading a file -/

/-- How far a write of a block into the store came. -/
inductive PutOutcome where
  | done
  | nothing
  /-- Header and body are there, the indexes are not. -/
  | stored
  /-- The height is indexed, the hash is not. -/
  | indexed
  deriving DecidableEq, Repr

/-- The surroundings of an import: what can be read and written, and what signs a header. -/
structure ImportEnv where
  unreadable : Nat → Bool
  unreadableSum : Nat → Bool
  put : Nat → PutOutcome
  verifyBlockSignature : Block → Bool
  activationHeight : Nat

inductive ImportError where
  | noManifest
  | genesisMismatch (archive : String) (expected : Hash)
  | unreadable (height : Nat)
  | checksum (height : Nat)
  | checksumMismatch (height : Nat)
  | deserialize (height : Nat)
  | wrongGenesis (height : Nat)
  | store (height : Nat)
  deriving DecidableEq, Repr

inductive ArchiveRead where
  | block (block : Block)
  | missing
  | unreadable (error : ImportError)
  | invalid (error : ImportError)

section

variable (format : ArchiveFormat) (env : ImportEnv) (dir : ArchiveDir)

def checkManifest (expected : Option Hash) : Except ImportError Nat :=
  match dir.manifest.bind Manifest.latestHeight with
  | none => .error .noManifest
  | some manifestHeight =>
      match expected, dir.manifest.bind Manifest.genesisHash with
      | some expected, some archiveGenesis =>
          if archiveGenesis ≠ format.toHex expected then
            .error (.genesisMismatch archiveGenesis expected)
          else .ok manifestHeight
      | _, _ => .ok manifestHeight

/-- A file without a checksum is not held against one. -/
def checkSum (height : Nat) (data : Bytes) : Option ImportError :=
  match dir.sums height with
  | none => none
  | some sum =>
      match (if env.unreadableSum height then none else format.trim sum) with
      | none => some (.checksum height)
      | some expectedChecksum =>
          if format.trim (format.blake3Hex data) ≠ some expectedChecksum then
            some (.checksumMismatch height)
          else none

def readArchivedBlock (expected : Option Hash) (height : Nat) : ArchiveRead :=
  match dir.blocks height with
  | none => .missing
  | some data =>
      if env.unreadable height then .unreadable (.unreadable height)
      else
        match checkSum format env dir height data with
        | some error => .invalid error
        | none =>
            match format.deserializeBlockCompat data with
            | none => .invalid (.deserialize height)
            | some block =>
                if expected.any (· ≠ format.genesisHash block) then
                  .invalid (.wrongGenesis height)
                else .block block

/-- `verify_block_signature_at` -/
def checkSignature (height : Nat) (block : Block) : Bool :=
  height < env.activationHeight || env.verifyBlockSignature block

/-- `put_block_canonical`, as far as it came. -/
def BlockStore.putBlockCanonical (store : BlockStore) (block : Block) (height : Nat) :
    PutOutcome → BlockStore
  | .nothing => store
  | .stored => store.putBlock block
  | .indexed =>
      { store.putBlock block with
        heightIndex := store.heightIndex.insert height block.hash }
  | .done =>
      { store.putBlock block with
        heightIndex := store.heightIndex.insert height block.hash
        hashToHeight := store.hashToHeight.insert block.hash height }

/-! ## Whole archives -/

/-- Whether a stored block is left as it is.  With force it gives way to another one. -/
def skips (store : BlockStore) (skipExisting forceReplace : Bool) (height : Nat) : Bool :=
  skipExisting &&
    match store.getBlockByHeight height with
    | none => false
    | some existing =>
        if forceReplace then
          match dir.sums height with
          | none => true
          | some sum =>
              let archiveChecksum := if env.unreadableSum height then none else format.trim sum
              format.trim (format.blake3Hex (format.serialize existing)) =
                some (archiveChecksum.getD [])
        else true

/-- The store and the number of blocks imported, up to the first error. -/
def importHeights (expected : Option Hash) (skipExisting forceReplace : Bool) :
    List Nat → BlockStore × Nat → (BlockStore × Nat) × Option ImportError
  | [], state => (state, none)
  | height :: heights, state =>
      if skips format env dir state.1 skipExisting forceReplace height then
        importHeights expected skipExisting forceReplace heights state
      else
        match readArchivedBlock format env dir expected height with
        | .missing => importHeights expected skipExisting forceReplace heights state
        | .unreadable error => (state, some error)
        | .invalid error => (state, some error)
        | .block block =>
            if !checkSignature env height block then
              importHeights expected skipExisting forceReplace heights state
            else
              let store := state.1.putBlockCanonical block height (env.put height)
              if env.put height ≠ .done then ((store, state.2), some (.store height))
              else
                importHeights expected skipExisting forceReplace heights (store, state.2 + 1)

def importArchiveBlocks (store : BlockStore) (expected : Option Hash)
    (skipExisting forceReplace : Bool) : (BlockStore × Nat) × Option ImportError :=
  match checkManifest format dir expected with
  | .error error => ((store, 0), some error)
  | .ok manifestHeight =>
      importHeights format env dir expected skipExisting forceReplace
        (List.range' 1 manifestHeight) (store, 0)

def restoreFromArchive (store : BlockStore) (expected : Option Hash) :
    (BlockStore × Nat) × Option ImportError :=
  importArchiveBlocks format env dir store expected false false

def backfillFromArchive (store : BlockStore) (expected : Option Hash) :
    (BlockStore × Nat) × Option ImportError :=
  importArchiveBlocks format env dir store expected true false

def forceBackfillFromArchive (store : BlockStore) (expected : Option Hash) :
    (BlockStore × Nat) × Option ImportError :=
  importArchiveBlocks format env dir store expected true true

/-! ## Single heights -/

structure TargetedBackfillReport where
  imported : Nat
  alreadyPresent : Nat
  missingFiles : Nat
  rejected : Nat
  heightsVisited : Nat
  filesRead : Nat
  deriving DecidableEq, Repr

/-- The block links to the stored parent and to the stored child. -/
def checkLinks (store : BlockStore) (height : Nat) (block : Block) : Bool :=
  (store.getHashByHeight (height - 1)).all (block.prevHash = ·) &&
    (store.getBlockByHeight (height + 1)).all (·.prevHash = block.hash)

def backfillHeight (expected : Hash) (state : BlockStore × TargetedBackfillReport)
    (height : Nat) : BlockStore × TargetedBackfillReport :=
  let report := { state.2 with heightsVisited := state.2.heightsVisited + 1 }
  if height = 0 then (state.1, { report with rejected := report.rejected + 1 })
  else if (state.1.getBlockByHeight height).isSome then
    (state.1, { report with alreadyPresent := report.alreadyPresent + 1 })
  else
    match readArchivedBlock format env dir (some expected) height with
    | .missing => (state.1, { report with missingFiles := report.missingFiles + 1 })
    | .unreadable _ => (state.1, { report with rejected := report.rejected + 1 })
    | .invalid _ =>
        (state.1,
          { report with
            rejected := report.rejected + 1, filesRead := report.filesRead + 1 })
    | .block block =>
        let report := { report with filesRead := report.filesRead + 1 }
        if !checkLinks state.1 height block || !checkSignature env height block then
          (state.1, { report with rejected := report.rejected + 1 })
        else
          let store := state.1.putBlockCanonical block height (env.put height)
          if env.put height ≠ .done then (store, { report with rejected := report.rejected + 1 })
          else (store, { report with imported := report.imported + 1 })

def backfillHeightsFromArchive (store : BlockStore) (expected : Hash) (heights : List Nat) :
    Except ImportError (BlockStore × TargetedBackfillReport) :=
  match checkManifest format dir (some expected) with
  | .error error => .error error
  | .ok _ =>
      .ok (heights.foldl (backfillHeight format env dir expected) (store, ⟨0, 0, 0, 0, 0, 0⟩))

end

/-! ## A restore of what was verified -/

section

variable {format : ArchiveFormat} {env : ImportEnv} {dir : ArchiveDir} {expected : Hash}
  {height other : Nat} {data : Bytes} {block : Block} {hash : Hash} {store : BlockStore}

/-- A block of this hash is stored and indexed at the height. -/
def BlockStore.Serves (store : BlockStore) (height : Nat) (hash : Hash) : Prop :=
  ∃ block, store.getHashByHeight height = some hash ∧ store.blocks.lookup hash = some block ∧
    block.hash = hash

/-- Everything can be read and written, and the archived blocks are signed. -/
structure ImportEnv.Clear (format : ArchiveFormat) (dir : ArchiveDir) (env : ImportEnv) :
    Prop where
  unreadable : ∀ height, env.unreadable height = false
  unreadableSum : ∀ height, env.unreadableSum height = false
  put : ∀ height, env.put height = .done
  signed : ∀ height data block, dir.blocks height = some data →
    format.deserializeBlockCompat data = some block → checkSignature env height block = true

theorem checkSum_clean (hclean : dir.Clean format expected)
    (hclear : env.Clear format dir) (hdata : dir.blocks height = some data) :
    checkSum format env dir height data = none := by
  unfold checkSum
  cases hsum : dir.sums height with
  | none => rfl
  | some sum =>
      obtain ⟨found, hfound, rfl⟩ := hclean.sum height sum hsum
      obtain rfl : data = found := Option.some.inj (hdata.symm.trans hfound)
      simp [hclear.unreadableSum height, format.trim_blake3Hex]

theorem readArchivedBlock_clean (hclean : dir.Clean format expected)
    (hclear : env.Clear format dir) (hdata : dir.blocks height = some data) :
    ∃ block, format.deserializeBlockCompat data = some block ∧
      readArchivedBlock format env dir (some expected) height = .block block := by
  obtain ⟨block, hdecoded, hgenesis⟩ := hclean.block height data hdata
  refine ⟨block, hdecoded, ?_⟩
  simp [readArchivedBlock, hdata, hclear.unreadable height, checkSum_clean hclean hclear hdata,
    hdecoded, hgenesis]

theorem BlockStore.serves_putBlockCanonical (store : BlockStore) (block : Block) (height : Nat) :
    (store.putBlockCanonical block height .done).Serves height block.hash :=
  ⟨block, Finmap.lookup_insert _, Finmap.lookup_insert _, rfl⟩

theorem BlockStore.Serves.putBlockCanonical (hserves : store.Serves other hash)
    (hne : other ≠ height) (block : Block) :
    (store.putBlockCanonical block height .done).Serves other hash := by
  obtain ⟨stored, hindex, hstored, hhash⟩ := hserves
  have hindexed : (store.putBlockCanonical block height .done).getHashByHeight other =
      some hash := (Finmap.lookup_insert_of_ne _ hne).trans hindex
  by_cases hsame : hash = block.hash
  · exact ⟨block, hindexed, by rw [hsame]; exact Finmap.lookup_insert _, hsame.symm⟩
  · exact ⟨stored, hindexed, (Finmap.lookup_insert_of_ne _ hsame).trans hstored, hhash⟩

theorem importHeights_clean (hclean : dir.Clean format expected)
    (hclear : env.Clear format dir) {heights : List Nat} (hnodup : heights.Nodup)
    (state : BlockStore × Nat) :
    ∃ final, importHeights format env dir (some expected) false false heights state =
        (final, none) ∧
      (∀ height hash, height ∉ heights → state.1.Serves height hash →
        final.1.Serves height hash) ∧
      ∀ height data block, height ∈ heights → dir.blocks height = some data →
        format.deserializeBlockCompat data = some block → final.1.Serves height block.hash := by
  induction heights generalizing state with
  | nil => exact ⟨state, rfl, fun _ _ _ hserves => hserves, by simp⟩
  | cons first heights ih =>
      obtain ⟨hfirst, hrest⟩ := List.nodup_cons.mp hnodup
      have hskips : skips format env dir state.1 false false first = false := rfl
      rw [importHeights, if_neg (by simp [hskips])]
      cases hdata : dir.blocks first with
      | none =>
          have hmissing : readArchivedBlock format env dir (some expected) first = .missing := by
            simp [readArchivedBlock, hdata]
          obtain ⟨final, hfinal, hkept, hrestored⟩ := ih hrest state
          rw [hmissing]
          refine ⟨final, hfinal, fun height hash hnot => hkept height hash
            fun hmem => hnot (List.mem_cons_of_mem _ hmem), fun height data block hmem hfile => ?_⟩
          rcases List.mem_cons.mp hmem with rfl | hmem
          · simp [hdata] at hfile
          · exact hrestored height data block hmem hfile
      | some data =>
          obtain ⟨block, hdecoded, hread⟩ := readArchivedBlock_clean hclean hclear hdata
          have hsigned := hclear.signed first data block hdata hdecoded
          obtain ⟨final, hfinal, hkept, hrestored⟩ := ih hrest
            (state.1.putBlockCanonical block first .done, state.2 + 1)
          rw [hread]
          dsimp only
          rw [hsigned, hclear.put first]
          refine ⟨final, hfinal, fun height hash hnot hserves => ?_,
            fun height found read hmem hfile hread => ?_⟩
          · rw [List.mem_cons, not_or] at hnot
            exact hkept height hash hnot.2 (hserves.putBlockCanonical hnot.1 block)
          · rcases List.mem_cons.mp hmem with rfl | hmem
            · obtain rfl := Option.some.inj (hdata.symm.trans hfile)
              obtain rfl := Option.some.inj (hdecoded.symm.trans hread)
              exact hkept height block.hash hfirst (state.1.serves_putBlockCanonical block height)
            · exact hrestored height found read hmem hfile hread

/-- Every indexed height above the first has its block, a hash fixes the parent, and the
indexed heights link. -/
structure BlockStore.Linked (parentOf : Hash → Hash) (store : BlockStore) : Prop where
  indexed : ∀ height hash, 1 ≤ height → store.getHashByHeight height = some hash →
    (store.blocks.lookup hash).isSome
  hashed : ∀ hash block, store.blocks.lookup hash = some block →
    block.hash = hash ∧ block.prevHash = parentOf hash
  linked : ∀ height hash parent, store.getHashByHeight (height + 1) = some hash →
    store.getHashByHeight height = some parent → parentOf hash = parent

namespace BlockStore.Linked

variable {parentOf : Hash → Hash} {next : BlockStore}

theorem congr (hlinked : store.Linked parentOf) (hblocks : next.blocks = store.blocks)
    (hindex : next.heightIndex = store.heightIndex) : next.Linked parentOf := by
  obtain ⟨hindexed, hhashed, hlinks⟩ := hlinked
  unfold BlockStore.getHashByHeight at hindexed hlinks
  rw [← hblocks, ← hindex] at hindexed
  rw [← hblocks] at hhashed
  rw [← hindex] at hlinks
  exact ⟨hindexed, hhashed, hlinks⟩

theorem putBlock (hlinked : store.Linked parentOf)
    (hparent : block.prevHash = parentOf block.hash) :
    (store.putBlock block).Linked parentOf := by
  refine ⟨fun height hash hone hindex => ?_, fun hash stored hstored => ?_, hlinked.linked⟩
  · by_cases hsame : hash = block.hash
    · rw [hsame]
      exact Option.isSome_iff_exists.mpr ⟨block, Finmap.lookup_insert _⟩
    · have hkept : (store.putBlock block).blocks.lookup hash = store.blocks.lookup hash :=
        Finmap.lookup_insert_of_ne _ hsame
      rw [hkept]
      exact hlinked.indexed height hash hone hindex
  · by_cases hsame : hash = block.hash
    · subst hsame
      have hput : (store.putBlock block).blocks.lookup block.hash = some block :=
        Finmap.lookup_insert _
      obtain rfl := Option.some.inj (hput.symm.trans hstored)
      exact ⟨rfl, hparent⟩
    · exact hlinked.hashed hash stored
        ((Finmap.lookup_insert_of_ne _ hsame).symm.trans hstored)

theorem index_none (hlinked : store.Linked parentOf) (hone : 1 ≤ height)
    (hfree : store.getBlockByHeight height = none) : store.getHashByHeight height = none := by
  cases hindex : store.getHashByHeight height with
  | none => rfl
  | some hash =>
      obtain ⟨stored, hstored⟩ := Option.isSome_iff_exists.mp
        (hlinked.indexed height hash hone hindex)
      simp [BlockStore.getBlockByHeight, hindex, hstored] at hfree

theorem index (hlinked : store.Linked parentOf) (hone : 1 ≤ height)
    (hparent : block.prevHash = parentOf block.hash)
    (hlinks : checkLinks store height block = true) :
    ({ store.putBlock block with
      heightIndex := store.heightIndex.insert height block.hash } : BlockStore).Linked
        parentOf := by
  obtain ⟨hbelow, habove⟩ := Bool.and_eq_true_iff.mp hlinks
  obtain ⟨hindexed, hhashed, -⟩ := hlinked.putBlock hparent
  refine ⟨fun other hash hother hindex => ?_, hhashed, fun other hash parent hchild hindex => ?_⟩
  · by_cases hsame : other = height
    · subst hsame
      obtain rfl := Option.some.inj ((Finmap.lookup_insert _).symm.trans hindex)
      exact Option.isSome_iff_exists.mpr ⟨block, Finmap.lookup_insert _⟩
    · exact hindexed other hash hother ((Finmap.lookup_insert_of_ne _ hsame).symm.trans hindex)
  · by_cases hfirst : other + 1 = height
    · have hne : other ≠ height := by omega
      have hstored : store.getHashByHeight other = some parent :=
        (Finmap.lookup_insert_of_ne _ hne).symm.trans hindex
      rw [hfirst] at hchild
      obtain rfl := Option.some.inj ((Finmap.lookup_insert _).symm.trans hchild)
      obtain rfl : other = height - 1 := by omega
      rw [hstored] at hbelow
      rw [← hparent]
      simpa using hbelow
    · have hstored : store.getHashByHeight (other + 1) = some hash :=
        (Finmap.lookup_insert_of_ne _ hfirst).symm.trans hchild
      by_cases hsecond : other = height
      · subst hsecond
        obtain rfl := Option.some.inj ((Finmap.lookup_insert _).symm.trans hindex)
        obtain ⟨child, hblock⟩ := Option.isSome_iff_exists.mp
          (hlinked.indexed (other + 1) hash (by omega) hstored)
        have hserved : store.getBlockByHeight (other + 1) = some child := by
          rw [BlockStore.getBlockByHeight, hstored]
          exact hblock
        rw [hserved] at habove
        rw [← (hlinked.hashed hash child hblock).2]
        simpa using habove
      · exact hlinked.linked other hash parent hstored
          ((Finmap.lookup_insert_of_ne _ hsecond).symm.trans hindex)

theorem putBlockCanonical (hlinked : store.Linked parentOf) (hone : 1 ≤ height)
    (hparent : block.prevHash = parentOf block.hash)
    (hlinks : checkLinks store height block = true) (outcome : PutOutcome) :
    (store.putBlockCanonical block height outcome).Linked parentOf := by
  cases outcome with
  | nothing => exact hlinked
  | stored => exact hlinked.putBlock hparent
  | indexed => exact hlinked.index hone hparent hlinks
  | done => exact (hlinked.index hone hparent hlinks).congr rfl rfl

end BlockStore.Linked

theorem readArchivedBlock_block
    (hread : readArchivedBlock format env dir (some expected) height = .block block) :
    ∃ data, dir.blocks height = some data ∧ format.deserializeBlockCompat data = some block ∧
      format.genesisHash block = expected := by
  unfold readArchivedBlock at hread
  split at hread
  · simp at hread
  case h_2 data hdata =>
    split at hread
    · simp at hread
    · split at hread
      · simp at hread
      · split at hread
        · simp at hread
        case h_2 read hdecoded =>
          split at hread
          · simp at hread
          case isFalse hgenesis =>
            obtain rfl := ArchiveRead.block.inj hread
            simp only [Option.any_some, ne_eq, decide_not, Bool.not_eq_true',
              decide_eq_false_iff_not, not_not] at hgenesis
            exact ⟨data, hdata, hdecoded, hgenesis.symm⟩

/-- The outcomes of the visited heights. -/
def TargetedBackfillReport.outcomes (report : TargetedBackfillReport) : Nat :=
  report.imported + report.alreadyPresent + report.missingFiles + report.rejected

theorem backfillHeight_cases (format : ArchiveFormat) (env : ImportEnv) (dir : ArchiveDir)
    (expected : Hash) (state : BlockStore × TargetedBackfillReport) (height : Nat) :
    (backfillHeight format env dir expected state height).2.heightsVisited =
        state.2.heightsVisited + 1 ∧
      (backfillHeight format env dir expected state height).2.outcomes = state.2.outcomes + 1 ∧
      ((backfillHeight format env dir expected state height).1 = state.1 ∨
        ∃ block, 1 ≤ height ∧ state.1.getBlockByHeight height = none ∧
          readArchivedBlock format env dir (some expected) height = .block block ∧
          checkLinks state.1 height block = true ∧ checkSignature env height block = true ∧
          (backfillHeight format env dir expected state height).1 =
            state.1.putBlockCanonical block height (env.put height)) := by
  unfold backfillHeight TargetedBackfillReport.outcomes
  dsimp only
  split
  · exact ⟨rfl, by dsimp only; omega, .inl rfl⟩
  case isFalse hzero =>
    split
    · exact ⟨rfl, by dsimp only; omega, .inl rfl⟩
    case isFalse hfree =>
      split
      · exact ⟨rfl, by dsimp only; omega, .inl rfl⟩
      · exact ⟨rfl, by dsimp only; omega, .inl rfl⟩
      · exact ⟨rfl, by dsimp only; omega, .inl rfl⟩
      case h_4 block hread =>
        split
        · exact ⟨rfl, by dsimp only; omega, .inl rfl⟩
        case isFalse hchecked =>
          have hput : 1 ≤ height ∧ state.1.getBlockByHeight height = none ∧
              checkLinks state.1 height block = true ∧ checkSignature env height block = true := by
            simp_all
            omega
          obtain ⟨hone, hnone, hlinks, hsigned⟩ := hput
          split
          all_goals
            exact ⟨rfl, by dsimp only; omega,
              .inr ⟨block, hone, hnone, hread, hlinks, hsigned, rfl⟩⟩

/-- The archived block of the height, and why it was taken. -/
def Taken (format : ArchiveFormat) (env : ImportEnv) (dir : ArchiveDir) (expected : Hash)
    (height : Nat) (hash : Hash) : Prop :=
  ∃ data block, dir.blocks height = some data ∧
    format.deserializeBlockCompat data = some block ∧ block.hash = hash ∧
    format.genesisHash block = expected ∧ checkSignature env height block = true

/-- The state of a backfill after some heights. -/
structure Backfilled (format : ArchiveFormat) (env : ImportEnv) (dir : ArchiveDir)
    (expected : Hash) (parentOf : Hash → Hash) (initial : BlockStore) (visited : List Nat)
    (state : BlockStore × TargetedBackfillReport) : Prop where
  linked : state.1.Linked parentOf
  kept : ∀ height hash, initial.getHashByHeight height = some hash →
    state.1.getHashByHeight height = some hash
  new : ∀ height hash, state.1.getHashByHeight height = some hash →
    initial.getHashByHeight height = some hash ∨
      (height ∈ visited ∧ Taken format env dir expected height hash)
  heightsVisited : state.2.heightsVisited = visited.length
  outcomes : state.2.outcomes = visited.length

theorem putBlockCanonical_index (store : BlockStore) (block : Block) (height other : Nat)
    (outcome : PutOutcome) :
    (store.putBlockCanonical block height outcome).getHashByHeight other =
        store.getHashByHeight other ∨
      (other = height ∧
        (store.putBlockCanonical block height outcome).getHashByHeight other =
          some block.hash) := by
  by_cases hsame : other = height
  · subst hsame
    cases outcome with
    | nothing => exact .inl rfl
    | stored => exact .inl rfl
    | indexed => exact .inr ⟨rfl, Finmap.lookup_insert _⟩
    | done => exact .inr ⟨rfl, Finmap.lookup_insert _⟩
  · left
    cases outcome with
    | nothing => rfl
    | stored => rfl
    | indexed => exact Finmap.lookup_insert_of_ne _ hsame
    | done => exact Finmap.lookup_insert_of_ne _ hsame

theorem Backfilled.step {parentOf : Hash → Hash} {initial : BlockStore} {visited : List Nat}
    {state : BlockStore × TargetedBackfillReport}
    (hparents : ∀ data block, format.deserializeBlockCompat data = some block →
      block.prevHash = parentOf block.hash)
    (hstate : Backfilled format env dir expected parentOf initial visited state)
    (height : Nat) :
    Backfilled format env dir expected parentOf initial (visited ++ [height])
      (backfillHeight format env dir expected state height) := by
  obtain ⟨hvisits, houtcomes, hstore⟩ := backfillHeight_cases format env dir expected state height
  have hcounted : (visited ++ [height]).length = visited.length + 1 := List.length_append
  rcases hstore with hsame | ⟨block, hone, hnone, hread, hlinks, hsigned, hput⟩
  · refine ⟨?_, ?_, ?_, ?_, ?_⟩
    · rw [hsame]
      exact hstate.linked
    · rw [hsame]
      exact hstate.kept
    · rw [hsame]
      intro other hash hindex
      rcases hstate.new other hash hindex with hold | ⟨hmem, htaken⟩
      · exact .inl hold
      · exact .inr ⟨List.mem_append_left _ hmem, htaken⟩
    · rw [hvisits, hstate.heightsVisited, hcounted]
    · rw [houtcomes, hstate.outcomes, hcounted]
  · obtain ⟨data, hdata, hdecoded, hgenesis⟩ := readArchivedBlock_block hread
    have hindex := hstate.linked.index_none hone hnone
    refine ⟨?_, fun other hash hold => ?_, fun other hash hfound => ?_, ?_, ?_⟩
    · rw [hput]
      exact hstate.linked.putBlockCanonical hone (hparents data block hdecoded) hlinks _
    · have hbefore := hstate.kept other hash hold
      rw [hput]
      rcases putBlockCanonical_index state.1 block height other (env.put height) with
        hkept | ⟨rfl, -⟩
      · rw [hkept]
        exact hbefore
      · simp [hindex] at hbefore
    · rw [hput] at hfound
      rcases putBlockCanonical_index state.1 block height other (env.put height) with
        hkept | ⟨rfl, hnew⟩
      · rw [hkept] at hfound
        rcases hstate.new other hash hfound with hold | ⟨hmem, htaken⟩
        · exact .inl hold
        · exact .inr ⟨List.mem_append_left _ hmem, htaken⟩
      · obtain rfl := Option.some.inj (hnew.symm.trans hfound)
        exact .inr ⟨by simp, data, block, hdata, hdecoded, rfl, hgenesis, hsigned⟩
    · rw [hvisits, hstate.heightsVisited, hcounted]
    · rw [houtcomes, hstate.outcomes, hcounted]

end

/-! ## On an archive of one block -/

namespace ArchiveSample

def env : ImportEnv where
  unreadable _ := false
  unreadableSum _ := false
  put _ := .done
  verifyBlockSignature _ := true
  activationHeight := 1

theorem env_clear (dir : ArchiveDir) : env.Clear format dir :=
  ⟨fun _ => rfl, fun _ => rfl, fun _ => rfl, fun _ _ _ _ _ => by simp [env, checkSignature]⟩

theorem empty_linked (parentOf : Hash → Hash) : emptyStore.Linked parentOf := by
  refine ⟨fun _ _ _ hindex => ?_, fun _ _ hstored => ?_, fun _ _ _ hindex => ?_⟩
  · simp [emptyStore, BlockStore.getHashByHeight] at hindex
  · simp [emptyStore] at hstored
  · simp [emptyStore, BlockStore.getHashByHeight] at hindex

end ArchiveSample

end Doli.Storage
