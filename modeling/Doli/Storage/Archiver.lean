import Mathlib.Logic.Function.Basic
import Doli.Lib.Run
import Doli.Storage.BlockStore

/-!
# The block archive

A directory with a file and a checksum for each height, and a manifest that names the height
up to which they were verified.  Every write may fail and the process may die at any of them;
the next call goes on from what the manifest says.
-/

namespace Doli.Storage

open Doli.Core Doli.Lib

/-! ## The directory -/

/-- What the archiver takes from elsewhere: the encodings of a block, the genesis hash of its
header, and texts. -/
structure ArchiveFormat where
  /-- The blocks whose numbers have the widths of their fields. -/
  legal : Block → Prop
  genesisHash : Block → Hash
  serialize : Block → Bytes
  deserializeBlockCompat : Bytes → Option Block
  /-- The genesis hash and the hash of the header at the head of the bytes. -/
  header : Bytes → Option (Hash × Hash)
  blake3Hex : Bytes → Bytes
  /-- A text without the blanks around it; nothing for bytes that are no text. -/
  trim : Bytes → Option Bytes
  toHex : Hash → String
  deserialize_serialize : ∀ block, legal block →
    deserializeBlockCompat (serialize block) = some block
  trim_blake3Hex : ∀ data, trim (blake3Hex data) = some (blake3Hex data)

/-- A store that hands out legal blocks, as one that decodes them does. -/
def LegalStore (format : ArchiveFormat) : Type :=
  { store : BlockStore // ∀ height block,
    store.getBlockByHeight height = some block → format.legal block }

structure Manifest where
  latestHeight : Option Nat
  latestHash : Option String
  genesisHash : Option String
  verifiedHeight : Option Nat
  deriving DecidableEq, Repr

def Manifest.empty : Manifest := ⟨none, none, none, none⟩

structure ArchiveDir where
  blocks : Nat → Option Bytes
  sums : Nat → Option Bytes
  manifest : Option Manifest

/-- The verdict on the file of a height. -/
inductive Check where
  | valid (hash : Hash)
  | foreign
  | unusable
  deriving DecidableEq, Repr

namespace ArchiveDir

def empty : ArchiveDir := ⟨fun _ => none, fun _ => none, none⟩

def pairExists (dir : ArchiveDir) (height : Nat) : Bool :=
  (dir.blocks height).isSome && (dir.sums height).isSome

variable (format : ArchiveFormat) (dir : ArchiveDir)

/-- A file that does not decode is judged by its header, if its checksum is right. -/
def checkLegacy (height : Nat) (data : Bytes) (expected : Hash) : Check :=
  match ((dir.sums height).bind format.trim).filter (· = format.blake3Hex data) with
  | none => .unusable
  | some _ =>
      match format.header data with
      | none => .unusable
      | some (genesisHash, hash) => if genesisHash = expected then .valid hash else .foreign

def checkFile (height : Nat) (expected : Hash) : Check :=
  match dir.blocks height with
  | none => .unusable
  | some data =>
      match format.deserializeBlockCompat data with
      | some block =>
          if format.genesisHash block = expected then .valid block.hash else .foreign
      | none => dir.checkLegacy format height data expected

/-- Both files are there and have something in them. -/
def spotCheck (height : Nat) : Bool :=
  (dir.blocks height).any (· ≠ []) && (dir.sums height).any (· ≠ [])

/-- `write_pair`, its first half. -/
def putBlock (height : Nat) (data : Bytes) : ArchiveDir :=
  { dir with blocks := Function.update dir.blocks height (some data) }

def putSum (height : Nat) (data : Bytes) : ArchiveDir :=
  { dir with sums := Function.update dir.sums height (some (format.blake3Hex data)) }

end ArchiveDir

/-! ## The scan -/

/-- What becomes of a write.  A process that dies after a write dies before the next. -/
inductive Fault where
  | none
  | fails
  | dies
  deriving DecidableEq, Repr

/-- The faults of one call: at its writes in their order, and at the files it reads. -/
structure FaultPlan where
  writes : Nat → Fault
  unreadable : Nat → Bool

inductive Halt where
  | failed
  | died
  deriving DecidableEq, Repr

structure CatchUpReport where
  filesRead : Nat
  filesWritten : Nat
  verifiedHeight : Nat
  deriving DecidableEq, Repr

/-- What the scan may keep from the previous manifest. -/
structure Base where
  trusted : Option Nat
  latest : Nat
  latestHash : Option String
  deriving DecidableEq, Repr

inductive ScanStep where
  | done (hash : Hash)
  | stall
  deriving DecidableEq, Repr

structure Scan where
  dir : ArchiveDir
  /-- The writes tried so far. -/
  writes : Nat
  report : CatchUpReport
  contiguous : Bool
  last : Option Hash

section

variable (format : ArchiveFormat) (expected : Hash)

def loadBase (dir : ArchiveDir) : Base :=
  let manifest := dir.manifest.getD .empty
  let ours : Bool := manifest.genesisHash = some (format.toHex expected)
  let latest := manifest.latestHeight.filter fun _ => ours
  let claimed := manifest.verifiedHeight.filter fun height => ours && latest.any (height ≤ ·)
  { trusted := claimed.filter fun height => height = 0 || dir.spotCheck height
    latest := latest.getD 0
    latestHash := manifest.latestHash.filter fun _ => ours }

def fromStore (store : LegalStore format) (height : Nat) : Option (Bytes × Hash) :=
  ((store.1.getBlockByHeight height).filter (format.genesisHash · = expected)).map fun block =>
    (format.serialize block, block.hash)

structure ArchiveBlock where
  height : Nat
  hash : Hash
  data : Bytes
  deriving DecidableEq, Repr

def fromBlock (block : ArchiveBlock) : Option (Bytes × Hash) :=
  ((format.deserializeBlockCompat block.data).filter (format.genesisHash · = expected)).map
    fun _ => (block.data, block.hash)

namespace Scan

def new (dir : ArchiveDir) (start : Nat) : Scan where
  dir := dir
  writes := 0
  report := ⟨0, 0, start⟩
  contiguous := true
  last := none

variable (plan : FaultPlan)

/-- `write_durable`: the file is replaced or it stays as it was. -/
def writeDurable (write : ArchiveDir → ArchiveDir) (scan : Scan) : Scan × Option Halt :=
  let counted := { scan with writes := scan.writes + 1 }
  match plan.writes scan.writes with
  | .none => ({ counted with dir := write scan.dir }, none)
  | .fails => (counted, some .failed)
  | .dies => (counted, some .died)

def writePair (height : Nat) (data : Bytes) (scan : Scan) : Scan × Option Halt :=
  match scan.writeDurable plan (·.putBlock height data) with
  | (written, none) => written.writeDurable plan (·.putSum format height data)
  | (halted, some halt) => (halted, some halt)

/-- The pair is written from the source. -/
def fill (height : Nat) (source : Option (Bytes × Hash)) (scan : Scan) :
    Scan × Except Halt ScanStep :=
  match source with
  | none => (scan, .ok .stall)
  | some (data, hash) =>
      match scan.writePair format plan height data with
      | (written, none) =>
          ({ written with
            report := { written.report with filesWritten := written.report.filesWritten + 1 } },
          .ok (.done hash))
      | (halted, some halt) => (halted, .error halt)

def step (height : Nat) (source : Option (Bytes × Hash)) (scan : Scan) :
    Scan × Except Halt ScanStep :=
  if scan.dir.pairExists height then
    let read := { scan with
      report := { scan.report with filesRead := scan.report.filesRead + 1 } }
    if plan.unreadable height then (read, .ok .stall)
    else
      match scan.dir.checkFile format height expected with
      | .valid hash => (read, .ok (.done hash))
      | .unusable => (read, .ok .stall)
      | .foreign => read.fill format plan height source
  else scan.fill format plan height source

def visit (height : Nat) (source : Option (Bytes × Hash)) (scan : Scan) : Scan × Option Halt :=
  match scan.step format expected plan height source with
  | (next, .error halt) => (next, some halt)
  | (next, .ok (.done hash)) =>
      ({ next with
        last := some hash
        report := { next.report with
          verifiedHeight := if next.contiguous then height else next.report.verifiedHeight } },
      none)
  | (next, .ok .stall) => ({ next with contiguous := false }, none)

/-- What `save_scan` writes. -/
def manifest (base : Base) (latest : Nat) (scan : Scan) : Manifest :=
  let last := scan.last.map format.toHex
  let hash := if latest = base.latest then base.latestHash.or last else last
  { latestHeight := some latest
    latestHash := some (hash.getD (format.toHex ⟨0⟩))
    genesisHash := some (format.toHex expected)
    verifiedHeight := some scan.report.verifiedHeight }

def save (base : Base) (latest : Nat) (scan : Scan) : Scan × Option Halt :=
  scan.writeDurable plan fun dir =>
    { dir with manifest := some (scan.manifest format expected base latest) }

/-- The heights in order.  On a write error the reached height is saved first. -/
def run (base : Base) (latest : Nat) (source : Nat → Option (Bytes × Hash))
    (stopAtStall : Bool) : List Nat → Nat → Scan → Scan × Option Halt
  | [], _, scan => (scan, none)
  | height :: heights, saved, scan =>
      match scan.visit format expected plan height (source height) with
      | (next, some .died) => (next, some .died)
      | (next, some .failed) =>
          match next.save format expected plan base latest with
          | (ended, some .died) => (ended, some .died)
          | (ended, _) => (ended, some .failed)
      | (next, none) =>
          if stopAtStall && !next.contiguous then (next, none)
          else if 1000 ∣ height ∧ saved < next.report.verifiedHeight then
            match next.save format expected plan base latest with
            | (ended, none) =>
                run base latest source stopAtStall heights next.report.verifiedHeight ended
            | (halted, some halt) => (halted, some halt)
          else run base latest source stopAtStall heights saved next

/-- The manifest is written when it says something new. -/
def finish (base : Base) (latest : Nat) (scan : Scan) : Scan × Option Halt :=
  if base.trusted ≠ some scan.report.verifiedHeight ∨ base.latest ≠ latest then
    scan.save format expected plan base latest
  else (scan, none)

end Scan

variable (plan : FaultPlan)

def catchUpBounded (dir : ArchiveDir) (store : LegalStore format) (tip : Nat) :
    Scan × Option Halt :=
  let base := loadBase format expected dir
  let start := base.trusted.getD 0
  let latest := max base.latest tip
  match (Scan.new dir start).run format expected plan base latest
      (fromStore format expected store) false (List.range' (start + 1) (tip - start)) start with
  | (scan, none) => scan.finish format expected plan base latest
  | (halted, some halt) => (halted, some halt)

/-- The heights below the block are filled up to the first that stalls. -/
def archiveFinalized (dir : ArchiveDir) (store : LegalStore format) (block : ArchiveBlock) :
    Scan × Option Halt :=
  let base := loadBase format expected dir
  let start := base.trusted.getD 0
  if block.height ≤ start then (.new dir start, none)
  else
    let latest := max base.latest block.height
    match (Scan.new dir start).run format expected plan base latest
        (fromStore format expected store) true
        (List.range' (start + 1) (block.height - 1 - start)) start with
    | (halted, some halt) => (halted, some halt)
    | (filled, none) =>
        match filled.run format expected plan base latest (fun _ => fromBlock format expected block)
            false [block.height] filled.report.verifiedHeight with
        | (scan, none) => scan.finish format expected plan base latest
        | (halted, some halt) => (halted, some halt)

end

/-! ## The archive thread -/

inductive FenceOutcome where
  /-- The directory was moved away or emptied. -/
  | done
  /-- It was moved away and not made again. -/
  | lost
  /-- It was being emptied; the manifest goes last. -/
  | interrupted (keepBlock keepSum : Nat → Bool)

/-- `fence_stale_archive`, and whether it came through. -/
def fenceStaleArchive (format : ArchiveFormat) (expected : Hash) (dir : ArchiveDir) :
    FenceOutcome → ArchiveDir × Bool := fun outcome =>
  match (dir.manifest.bind Manifest.genesisHash).filter (· ≠ format.toHex expected) with
  | none => (dir, true)
  | some _ =>
      match outcome with
      | .done => (.empty, true)
      | .lost => (.empty, false)
      | .interrupted keepBlock keepSum =>
          ({ dir with
            blocks := fun height => if keepBlock height then dir.blocks height else none
            sums := fun height => if keepSum height then dir.sums height else none }, false)

structure ArchiveThread where
  dir : ArchiveDir
  running : Bool

inductive ArchiveEvent (format : ArchiveFormat) where
  | start (outcome : FenceOutcome) (store : LegalStore format) (tip : Nat) (plan : FaultPlan)
  | block (store : LegalStore format) (block : ArchiveBlock) (plan : FaultPlan)
  | stop

/-- A call that fails is logged; one that dies takes the thread with it. -/
def ArchiveThread.after (ended : Scan × Option Halt) : ArchiveThread :=
  ⟨ended.1.dir, ended.2 ≠ some .died⟩

/-- The fence, and the catch-up of the new thread. -/
def startArchiveThread (format : ArchiveFormat) (expected : Hash) (plan : FaultPlan)
    (dir : ArchiveDir) (outcome : FenceOutcome) (store : LegalStore format) (tip : Nat) :
    ArchiveThread :=
  let fenced := fenceStaleArchive format expected dir outcome
  if !fenced.2 then ⟨fenced.1, false⟩
  else if 0 < tip then .after (catchUpBounded format expected plan fenced.1 store tip)
  else ⟨fenced.1, true⟩

/-- A start, or one turn of the loop over finalized blocks. -/
def archiveStep (format : ArchiveFormat) (expected : Hash) (thread : ArchiveThread) :
    ArchiveEvent format → ArchiveThread
  | .start outcome store tip plan =>
      startArchiveThread format expected plan thread.dir outcome store tip
  | .block store block plan =>
      if thread.running then
        .after (archiveFinalized format expected plan thread.dir store block)
      else thread
  | .stop => { thread with running := false }

/-! ## What a step can do -/

section

variable {format : ArchiveFormat} {expected : Hash} {plan : FaultPlan} {height : Nat}
  {data : Bytes} {source : Option (Bytes × Hash)}

/-- The directory after a write of a pair that may have stopped. -/
inductive Written (format : ArchiveFormat) (height : Nat) (data : Bytes) (dir : ArchiveDir) :
    ArchiveDir → Prop where
  | nothing : Written format height data dir dir
  | half : Written format height data dir (dir.putBlock height data)
  | pair : Written format height data dir ((dir.putBlock height data).putSum format height data)

/-- The books of the scan are as they were. -/
structure SameBooks (scan next : Scan) : Prop where
  verifiedHeight : next.report.verifiedHeight = scan.report.verifiedHeight
  contiguous : next.contiguous = scan.contiguous
  last : next.last = scan.last

namespace Scan

theorem writeDurable_cases (plan : FaultPlan) (write : ArchiveDir → ArchiveDir) (scan : Scan) :
    SameBooks scan (scan.writeDurable plan write).1 ∧
      (((scan.writeDurable plan write).1.dir = write scan.dir ∧
          (scan.writeDurable plan write).2 = none) ∨
        ((scan.writeDurable plan write).1.dir = scan.dir ∧
          (scan.writeDurable plan write).2 ≠ none)) := by
  unfold writeDurable
  split
  · exact ⟨⟨rfl, rfl, rfl⟩, .inl ⟨rfl, rfl⟩⟩
  · exact ⟨⟨rfl, rfl, rfl⟩, .inr ⟨rfl, by simp⟩⟩
  · exact ⟨⟨rfl, rfl, rfl⟩, .inr ⟨rfl, by simp⟩⟩

theorem writePair_cases (format : ArchiveFormat) (plan : FaultPlan) (height : Nat) (data : Bytes)
    (scan : Scan) :
    SameBooks scan (scan.writePair format plan height data).1 ∧
      Written format height data scan.dir (scan.writePair format plan height data).1.dir ∧
      ((scan.writePair format plan height data).2 = none →
        (scan.writePair format plan height data).1.dir =
          (scan.dir.putBlock height data).putSum format height data) := by
  obtain ⟨hbooks, hblock⟩ := scan.writeDurable_cases plan (·.putBlock height data)
  unfold writePair
  rcases hfirst : scan.writeDurable plan (·.putBlock height data) with ⟨written, _ | halt⟩
  · rw [hfirst] at hbooks hblock
    rcases hblock with ⟨hdir, -⟩ | ⟨-, hne⟩
    · obtain ⟨hbooks', hsum⟩ := written.writeDurable_cases plan (·.putSum format height data)
      dsimp only at hdir ⊢
      refine ⟨⟨hbooks'.verifiedHeight.trans hbooks.verifiedHeight,
        hbooks'.contiguous.trans hbooks.contiguous, hbooks'.last.trans hbooks.last⟩, ?_⟩
      rcases hsum with ⟨hwritten, -⟩ | ⟨hkept, hne⟩
      · rw [hwritten, hdir]
        exact ⟨.pair, fun _ => rfl⟩
      · rw [hkept, hdir]
        exact ⟨.half, fun hnone => absurd hnone hne⟩
    · exact absurd rfl hne
  · rw [hfirst] at hbooks hblock
    rcases hblock with ⟨-, hnone⟩ | ⟨hdir, -⟩
    · exact absurd hnone (by simp)
    · dsimp only at hdir ⊢
      rw [hdir]
      exact ⟨hbooks, .nothing, fun hnone => absurd hnone (by simp)⟩

/-- A step leaves the directory alone, or writes the pair of a height that has none or has one
of another chain. -/
inductive StepCase (format : ArchiveFormat) (expected : Hash) (height : Nat)
    (source : Option (Bytes × Hash)) (dir : ArchiveDir) :
    ArchiveDir → Except Halt ScanStep → Prop where
  | stall : StepCase format expected height source dir dir (.ok .stall)
  | kept {hash : Hash} (hpair : dir.pairExists height = true)
      (hcheck : dir.checkFile format height expected = .valid hash) :
      StepCase format expected height source dir dir (.ok (.done hash))
  | halted {data : Bytes} {hash : Hash} {next : ArchiveDir} {halt : Halt}
      (hfree : dir.pairExists height = true → dir.checkFile format height expected = .foreign)
      (hsource : source = some (data, hash)) (hwritten : Written format height data dir next) :
      StepCase format expected height source dir next (.error halt)
  | filled {data : Bytes} {hash : Hash}
      (hfree : dir.pairExists height = true → dir.checkFile format height expected = .foreign)
      (hsource : source = some (data, hash)) :
      StepCase format expected height source dir
        ((dir.putBlock height data).putSum format height data) (.ok (.done hash))

theorem fill_cases (plan : FaultPlan) (height : Nat) (source : Option (Bytes × Hash))
    (scan : Scan) (hfree : scan.dir.pairExists height = true →
      scan.dir.checkFile format height expected = .foreign) :
    SameBooks scan (scan.fill format plan height source).1 ∧
      StepCase format expected height source scan.dir (scan.fill format plan height source).1.dir
        (scan.fill format plan height source).2 := by
  unfold fill
  rcases source with _ | ⟨data, hash⟩
  · exact ⟨⟨rfl, rfl, rfl⟩, .stall⟩
  · obtain ⟨hbooks, hwritten, hpair⟩ := scan.writePair_cases format plan height data
    dsimp only
    rcases hwrite : scan.writePair format plan height data with ⟨written, _ | halt⟩
    · rw [hwrite] at hbooks hpair
      refine ⟨⟨hbooks.verifiedHeight, hbooks.contiguous, hbooks.last⟩, ?_⟩
      have hdir : written.dir = _ := hpair rfl
      dsimp only
      rw [hdir]
      exact .filled hfree rfl
    · rw [hwrite] at hbooks hwritten
      exact ⟨hbooks, .halted hfree rfl hwritten⟩

theorem step_cases (format : ArchiveFormat) (expected : Hash) (plan : FaultPlan) (height : Nat)
    (source : Option (Bytes × Hash)) (scan : Scan) :
    SameBooks scan (scan.step format expected plan height source).1 ∧
      StepCase format expected height source scan.dir
        (scan.step format expected plan height source).1.dir
        (scan.step format expected plan height source).2 := by
  unfold step
  split
  case isTrue hpair =>
    dsimp only
    split
    · exact ⟨⟨rfl, rfl, rfl⟩, .stall⟩
    · split
      case h_1 hash hcheck => exact ⟨⟨rfl, rfl, rfl⟩, .kept hpair hcheck⟩
      case h_2 => exact ⟨⟨rfl, rfl, rfl⟩, .stall⟩
      case h_3 hcheck =>
        obtain ⟨hbooks, hcase⟩ := fill_cases plan height source
          { scan with report := { scan.report with filesRead := scan.report.filesRead + 1 } }
          fun _ => hcheck
        exact ⟨⟨hbooks.verifiedHeight, hbooks.contiguous, hbooks.last⟩, hcase⟩
  case isFalse hpair => exact fill_cases plan height source scan fun htrue => absurd htrue hpair

end Scan

/-! ## What a manifest claims -/

namespace ArchiveDir

/-- The pair of the height is there, and its block is one of the chain. -/
def Verified (format : ArchiveFormat) (expected : Hash) (dir : ArchiveDir) (height : Nat) : Prop :=
  dir.pairExists height = true ∧ ∃ hash, dir.checkFile format height expected = .valid hash

/-- A manifest of the chain claims no height that is not verified. -/
def Sound (format : ArchiveFormat) (expected : Hash) (dir : ArchiveDir) : Prop :=
  ∀ manifest verified, dir.manifest = some manifest →
    manifest.genesisHash = some (format.toHex expected) →
      manifest.verifiedHeight = some verified →
        ∀ height, 1 ≤ height → height ≤ verified → dir.Verified format expected height

variable {dir next : ArchiveDir} {other : Nat}

theorem checkFile_congr (hblock : next.blocks height = dir.blocks height)
    (hsum : next.sums height = dir.sums height) :
    next.checkFile format height expected = dir.checkFile format height expected := by
  unfold checkFile checkLegacy
  rw [hblock, hsum]

theorem pairExists_congr (hblock : next.blocks height = dir.blocks height)
    (hsum : next.sums height = dir.sums height) :
    next.pairExists height = dir.pairExists height := by
  unfold pairExists
  rw [hblock, hsum]

theorem Verified.congr (hverified : dir.Verified format expected height)
    (hblock : next.blocks height = dir.blocks height)
    (hsum : next.sums height = dir.sums height) : next.Verified format expected height := by
  obtain ⟨hpair, hash, hcheck⟩ := hverified
  exact ⟨(pairExists_congr hblock hsum).trans hpair, hash,
    (checkFile_congr hblock hsum).trans hcheck⟩

end ArchiveDir

open ArchiveDir

theorem Written.other {dir next : ArchiveDir} {other : Nat}
    (hwritten : Written format height data dir next) (hne : other ≠ height) :
    next.blocks other = dir.blocks other ∧ next.sums other = dir.sums other := by
  cases hwritten with
  | nothing => exact ⟨rfl, rfl⟩
  | half => exact ⟨Function.update_of_ne hne _ _, rfl⟩
  | pair => exact ⟨Function.update_of_ne hne _ _, Function.update_of_ne hne _ _⟩

theorem Written.manifest {dir next : ArchiveDir} (hwritten : Written format height data dir next) :
    next.manifest = dir.manifest := by
  cases hwritten <;> rfl

namespace Scan.StepCase

variable {dir next : ArchiveDir} {result : Except Halt ScanStep} {other : Nat}

theorem manifest (hcase : StepCase format expected height source dir next result) :
    next.manifest = dir.manifest := by
  cases hcase with
  | stall => rfl
  | kept => rfl
  | halted hfree hsource hwritten => exact hwritten.manifest
  | filled => rfl

theorem verified (hcase : StepCase format expected height source dir next result)
    (hverified : dir.Verified format expected other) : next.Verified format expected other := by
  have hne : (dir.pairExists height = true → dir.checkFile format height expected = .foreign) →
      other ≠ height := by
    rintro hfree rfl
    obtain ⟨hpair, hash, hcheck⟩ := hverified
    simp [hfree hpair] at hcheck
  cases hcase with
  | stall => exact hverified
  | kept => exact hverified
  | halted hfree hsource hwritten =>
      obtain ⟨hblock, hsum⟩ := hwritten.other (hne hfree)
      exact hverified.congr hblock hsum
  | @filled data hash hfree hsource =>
      have hpair : Written format height data dir _ := .pair
      obtain ⟨hblock, hsum⟩ := hpair.other (hne hfree)
      exact hverified.congr hblock hsum

end Scan.StepCase

/-- What a source hands out is of the chain. -/
def Genuine (format : ArchiveFormat) (expected : Hash)
    (source : Nat → Option (Bytes × Hash)) : Prop :=
  ∀ height data hash, source height = some (data, hash) → ∃ block,
    format.deserializeBlockCompat data = some block ∧ format.genesisHash block = expected

theorem genuine_fromStore (format : ArchiveFormat) (expected : Hash) (store : LegalStore format) :
    Genuine format expected (fromStore format expected store) := by
  intro height data hash hsource
  unfold fromStore at hsource
  obtain ⟨block, hblock, hpair⟩ := Option.map_eq_some_iff.mp hsource
  obtain ⟨rfl, rfl⟩ := Prod.mk.inj hpair
  obtain ⟨hstored, hgenesis⟩ := Option.filter_eq_some_iff.mp hblock
  exact ⟨block, format.deserialize_serialize block (store.2 height block hstored),
    by simpa using hgenesis⟩

theorem genuine_fromBlock (format : ArchiveFormat) (expected : Hash) (block : ArchiveBlock) :
    Genuine format expected fun _ => fromBlock format expected block := by
  intro height data hash hsource
  unfold fromBlock at hsource
  obtain ⟨read, hread, hpair⟩ := Option.map_eq_some_iff.mp hsource
  obtain ⟨rfl, rfl⟩ := Prod.mk.inj hpair
  obtain ⟨hdecoded, hgenesis⟩ := Option.filter_eq_some_iff.mp hread
  exact ⟨read, hdecoded, by simpa using hgenesis⟩

theorem checkFile_pair {dir : ArchiveDir} {block : Block}
    (hdecoded : format.deserializeBlockCompat data = some block)
    (hgenesis : format.genesisHash block = expected) :
    ((dir.putBlock height data).putSum format height data).checkFile format height expected =
      .valid block.hash := by
  unfold checkFile
  simp [putBlock, putSum, hdecoded, hgenesis]

theorem pairExists_pair (dir : ArchiveDir) (height : Nat) (data : Bytes) :
    ((dir.putBlock height data).putSum format height data).pairExists height = true := by
  simp [pairExists, putBlock, putSum]

/-! ## A scan upholds what it reports -/

/-- The manifest names the chain and claims the height, or a higher one. -/
def ArchiveDir.Claims (format : ArchiveFormat) (expected : Hash) (dir : ArchiveDir)
    (height : Nat) : Prop :=
  ∃ manifest verified, dir.manifest = some manifest ∧
    manifest.genesisHash = some (format.toHex expected) ∧
    manifest.verifiedHeight = some verified ∧ height ≤ verified

/-- The heights that the scan reports are verified, the manifest is sound, and what was
trusted is still claimed. -/
structure Upheld (format : ArchiveFormat) (expected : Hash) (trusted : Option Nat)
    (scan : Scan) : Prop where
  sound : scan.dir.Sound format expected
  claimed : ∀ height, trusted = some height →
    height ≤ scan.report.verifiedHeight ∧ scan.dir.Claims format expected height
  verified : ∀ height, 1 ≤ height → height ≤ scan.report.verifiedHeight →
    scan.dir.Verified format expected height

/-- As long as it is contiguous, what it has reported ends below the next height. -/
def Reaches (scan : Scan) (height : Nat) : Prop :=
  scan.contiguous = true → scan.report.verifiedHeight + 1 = height

namespace Scan

variable {scan : Scan} {trusted : Option Nat}

theorem save_upheld (hupheld : Upheld format expected trusted scan) (plan : FaultPlan) (base : Base)
    (latest : Nat) :
    SameBooks scan (scan.save format expected plan base latest).1 ∧
      Upheld format expected trusted (scan.save format expected plan base latest).1 := by
  obtain ⟨hbooks, hdir⟩ := scan.writeDurable_cases plan fun dir =>
    { dir with manifest := some (scan.manifest format expected base latest) }
  refine ⟨hbooks, ?_⟩
  have hverified : ∀ height, 1 ≤ height → height ≤ scan.report.verifiedHeight →
      (scan.save format expected plan base latest).1.dir.Verified format expected height := by
    intro height hone hle
    rcases hdir with ⟨hsaved, -⟩ | ⟨hkept, -⟩
    · refine (hupheld.verified height hone hle).congr ?_ ?_
      · exact congrFun (congrArg ArchiveDir.blocks hsaved) height
      · exact congrFun (congrArg ArchiveDir.sums hsaved) height
    · have hsame : (scan.save format expected plan base latest).1.dir = scan.dir := hkept
      rw [hsame]
      exact hupheld.verified height hone hle
  refine ⟨fun manifest verified hmanifest hgenesis hclaim height hone hle => ?_,
    fun height htrusted => ?_,
    fun height hone hle => hverified height hone (hle.trans_eq hbooks.verifiedHeight)⟩
  · rcases hdir with ⟨hsaved, -⟩ | ⟨hkept, -⟩
    · have hwritten := (congrArg ArchiveDir.manifest hsaved).symm.trans hmanifest
      obtain rfl := Option.some.inj hwritten
      obtain rfl := Option.some.inj hclaim
      exact hverified height hone hle
    · have hsame : (scan.save format expected plan base latest).1.dir = scan.dir := hkept
      rw [hsame] at hmanifest ⊢
      exact hupheld.sound manifest verified hmanifest hgenesis hclaim height hone hle
  · obtain ⟨hle, hclaims⟩ := hupheld.claimed height htrusted
    refine ⟨hle.trans_eq hbooks.verifiedHeight.symm, ?_⟩
    rcases hdir with ⟨hsaved, -⟩ | ⟨hkept, -⟩
    · exact ⟨_, _, congrArg ArchiveDir.manifest hsaved, rfl, rfl, hle⟩
    · have hsame : (scan.save format expected plan base latest).1.dir = scan.dir := hkept
      rw [hsame]
      exact hclaims

theorem step_upheld (hupheld : Upheld format expected trusted scan) (plan : FaultPlan)
    (height : Nat)
    (source : Option (Bytes × Hash)) :
    Upheld format expected trusted (scan.step format expected plan height source).1 := by
  obtain ⟨hbooks, hcase⟩ := scan.step_cases format expected plan height source
  refine ⟨fun manifest verified hmanifest hgenesis hclaim other hone hle => ?_,
    fun other htrusted => ?_,
    fun other hone hle => hcase.verified (hupheld.verified other hone
      (hle.trans_eq hbooks.verifiedHeight))⟩
  · rw [hcase.manifest] at hmanifest
    exact hcase.verified
      (hupheld.sound manifest verified hmanifest hgenesis hclaim other hone hle)
  · obtain ⟨hle, manifest, verified, hmanifest, hclaim⟩ := hupheld.claimed other htrusted
    exact ⟨hle.trans_eq hbooks.verifiedHeight.symm, manifest, verified,
      hcase.manifest.trans hmanifest, hclaim⟩

theorem visit_upheld (hupheld : Upheld format expected trusted scan)
    (hreaches : Reaches scan height)
    {source : Nat → Option (Bytes × Hash)} (hgenuine : Genuine format expected source)
    (plan : FaultPlan) :
    Upheld format expected trusted (scan.visit format expected plan height (source height)).1 ∧
      ((scan.visit format expected plan height (source height)).2 = none →
        Reaches (scan.visit format expected plan height (source height)).1 (height + 1)) := by
  have hstep := step_upheld hupheld plan height (source height)
  obtain ⟨hbooks, hcase⟩ := scan.step_cases format expected plan height (source height)
  unfold visit
  rcases hresult : scan.step format expected plan height (source height) with
    ⟨next, halt | hash | _⟩
  · rw [hresult] at hstep
    exact ⟨hstep, fun hnone => absurd hnone (by simp)⟩
  · rw [hresult] at hstep hbooks hcase
    have hverified : next.dir.Verified format expected height := by
      dsimp only at hcase
      generalize hdone : (Except.ok (ScanStep.done hash) : Except Halt ScanStep) = result at hcase
      generalize hend : next.dir = ended at hcase
      cases hcase with
      | stall => simp at hdone
      | kept hpair hcheck => exact ⟨hpair, _, hcheck⟩
      | halted => simp at hdone
      | filled hfree hsource =>
          obtain ⟨block, hdecoded, hgenesis⟩ := hgenuine height _ _ hsource
          exact ⟨pairExists_pair _ _ _, _, checkFile_pair hdecoded hgenesis⟩
    refine ⟨⟨hstep.sound, fun other htrusted => ?_, fun other hone hle => ?_⟩,
      fun _ hcontiguous => ?_⟩
    · obtain ⟨hle, hclaims⟩ := hstep.claimed other htrusted
      refine ⟨?_, hclaims⟩
      dsimp only at hle ⊢
      split
      case isTrue hcontiguous =>
        have hreached := hreaches (hbooks.contiguous.symm.trans hcontiguous)
        have hkept := hbooks.verifiedHeight
        dsimp only at hkept
        omega
      case isFalse => exact hle
    · dsimp only at hle ⊢
      by_cases hsame : other = height
      · rw [hsame]
        exact hverified
      · refine hstep.verified other hone ?_
        split at hle
        case isTrue hcontiguous =>
          have hreached := hreaches (hbooks.contiguous.symm.trans hcontiguous)
          have hkept := hbooks.verifiedHeight
          dsimp only at hkept ⊢
          omega
        case isFalse => exact hle
    · dsimp only at hcontiguous ⊢
      rw [if_pos hcontiguous]
  · rw [hresult] at hstep
    exact ⟨⟨hstep.sound, hstep.claimed, hstep.verified⟩,
      fun _ hcontiguous => absurd hcontiguous (by simp)⟩

theorem run_upheld (base : Base) (latest : Nat) {source : Nat → Option (Bytes × Hash)}
    (hgenuine : Genuine format expected source) (plan : FaultPlan) (stopAtStall : Bool)
    (count start saved : Nat) (hupheld : Upheld format expected trusted scan)
    (hreaches : Reaches scan start) :
    Upheld format expected trusted (scan.run format expected plan base latest source stopAtStall
        (List.range' start count) saved).1 ∧
      ((scan.run format expected plan base latest source stopAtStall
          (List.range' start count) saved).2 = none →
        Reaches (scan.run format expected plan base latest source stopAtStall
          (List.range' start count) saved).1 (start + count)) := by
  induction count generalizing start saved scan with
  | zero => exact ⟨hupheld, fun _ => hreaches⟩
  | succ count ih =>
      obtain ⟨hvisited, hreached⟩ := visit_upheld hupheld hreaches hgenuine plan
      rw [List.range'_succ, run]
      rcases hvisit : scan.visit format expected plan start (source start) with
        ⟨next, _ | _ | _⟩
      · rw [hvisit] at hvisited hreached
        have hnext : Reaches next (start + 1) := hreached rfl
        have hlast : start + (count + 1) = start + 1 + count := by omega
        rw [hlast]
        dsimp only
        split
        case isTrue hstop =>
          refine ⟨hvisited, fun _ hcontiguous => ?_⟩
          have hgoing : next.contiguous = true := hcontiguous
          simp [hgoing] at hstop
        case isFalse =>
          split
          case isTrue =>
            obtain ⟨hbooks, hsaved⟩ := save_upheld hvisited plan base latest
            rcases hsave : next.save format expected plan base latest with ⟨ended, _ | halt⟩
            · rw [hsave] at hbooks hsaved
              refine ih _ _ hsaved fun hcontiguous => ?_
              rw [hbooks.verifiedHeight]
              exact hnext (hbooks.contiguous.symm.trans hcontiguous)
            · rw [hsave] at hsaved
              exact ⟨hsaved, fun hnone => absurd hnone (by simp)⟩
          case isFalse => exact ih _ _ hvisited hnext
      · rw [hvisit] at hvisited
        obtain ⟨-, hsaved⟩ := save_upheld hvisited plan base latest
        dsimp only
        rcases hsave : next.save format expected plan base latest with ⟨ended, _ | _ | _⟩
        all_goals
          rw [hsave] at hsaved
          exact ⟨hsaved, fun hnone => absurd hnone (by simp)⟩
      · rw [hvisit] at hvisited
        exact ⟨hvisited, fun hnone => absurd hnone (by simp)⟩

theorem finish_upheld (hupheld : Upheld format expected trusted scan) (plan : FaultPlan)
    (base : Base)
    (latest : Nat) :
    Upheld format expected trusted (scan.finish format expected plan base latest).1 := by
  unfold finish
  split
  · exact (save_upheld hupheld plan base latest).2
  · exact hupheld

end Scan

theorem loadBase_trusted {dir : ArchiveDir} {height : Nat}
    (htrusted : (loadBase format expected dir).trusted = some height) :
    ∃ manifest latest, dir.manifest = some manifest ∧
      manifest.genesisHash = some (format.toHex expected) ∧
      manifest.verifiedHeight = some height ∧ manifest.latestHeight = some latest ∧
      height ≤ latest := by
  unfold loadBase at htrusted
  dsimp only at htrusted
  obtain ⟨hclaimed, -⟩ := Option.filter_eq_some_iff.mp htrusted
  obtain ⟨hverified, hours⟩ := Option.filter_eq_some_iff.mp hclaimed
  cases hmanifest : dir.manifest with
  | none => simp [hmanifest, Manifest.empty] at hverified
  | some manifest =>
      rw [hmanifest] at hverified hours
      simp only [Option.getD_some, Bool.and_eq_true, decide_eq_true_eq] at hours hverified
      obtain ⟨latest, hlatest, hle⟩ := (Option.any_eq_true _ _).mp hours.2
      exact ⟨manifest, latest, rfl, hours.1, hverified,
        (Option.filter_eq_some_iff.mp hlatest).1, by simpa using hle⟩

theorem new_upheld {dir : ArchiveDir} (hsound : dir.Sound format expected) :
    Upheld format expected (loadBase format expected dir).trusted
      (.new dir ((loadBase format expected dir).trusted.getD 0)) := by
  refine ⟨hsound, fun height htrusted => ?_, fun height hone hle => ?_⟩
  · obtain ⟨manifest, -, hmanifest, hgenesis, hclaim, -⟩ := loadBase_trusted htrusted
    rw [htrusted]
    exact ⟨le_refl height, manifest, height, hmanifest, hgenesis, hclaim, le_refl height⟩
  cases htrusted : (loadBase format expected dir).trusted with
  | none =>
      rw [htrusted] at hle
      change height ≤ 0 at hle
      omega
  | some verified =>
      rw [htrusted] at hle
      obtain ⟨manifest, -, hmanifest, hgenesis, hclaim, -⟩ := loadBase_trusted htrusted
      exact hsound manifest verified hmanifest hgenesis hclaim height hone hle

theorem catchUpBounded_upheld {dir : ArchiveDir} (hsound : dir.Sound format expected)
    (plan : FaultPlan) (store : LegalStore format) (tip : Nat) :
    Upheld format expected (loadBase format expected dir).trusted
      (catchUpBounded format expected plan dir store tip).1 := by
  have hrun := Scan.run_upheld (loadBase format expected dir)
    (max (loadBase format expected dir).latest tip) (genuine_fromStore format expected store) plan
    false (tip - (loadBase format expected dir).trusted.getD 0)
    ((loadBase format expected dir).trusted.getD 0 + 1)
    ((loadBase format expected dir).trusted.getD 0) (new_upheld hsound) fun _ => rfl
  unfold catchUpBounded
  dsimp only
  split
  case h_1 scan hended =>
    rw [hended] at hrun
    exact Scan.finish_upheld hrun.1 plan _ _
  case h_2 halted halt hended =>
    rw [hended] at hrun
    exact hrun.1

theorem archiveFinalized_upheld {dir : ArchiveDir} (hsound : dir.Sound format expected)
    (plan : FaultPlan) (store : LegalStore format) (block : ArchiveBlock) :
    Upheld format expected (loadBase format expected dir).trusted
      (archiveFinalized format expected plan dir store block).1 := by
  unfold archiveFinalized
  dsimp only
  split
  · exact new_upheld hsound
  case isFalse habove =>
    have hrun := Scan.run_upheld (loadBase format expected dir)
      (max (loadBase format expected dir).latest block.height)
      (genuine_fromStore format expected store) plan true
      (block.height - 1 - (loadBase format expected dir).trusted.getD 0)
      ((loadBase format expected dir).trusted.getD 0 + 1)
      ((loadBase format expected dir).trusted.getD 0) (new_upheld hsound) fun _ => rfl
    have hend : (loadBase format expected dir).trusted.getD 0 + 1 +
        (block.height - 1 - (loadBase format expected dir).trusted.getD 0) = block.height := by
      omega
    split
    case h_1 halted halt hended =>
      rw [hended] at hrun
      exact hrun.1
    case h_2 filled hended =>
      rw [hended, hend] at hrun
      have hlast := Scan.run_upheld (loadBase format expected dir)
        (max (loadBase format expected dir).latest block.height)
        (genuine_fromBlock format expected block) plan false 1 block.height
        filled.report.verifiedHeight hrun.1 (hrun.2 rfl)
      rw [List.range'_one] at hlast
      split
      case h_1 scan hended' =>
        rw [hended'] at hlast
        exact Scan.finish_upheld hlast.1 plan _ _
      case h_2 halted halt hended' =>
        rw [hended'] at hlast
        exact hlast.1

/-! ## Runs of the thread -/

/-- The manifest names another chain. -/
def ArchiveDir.Foreign (format : ArchiveFormat) (expected : Hash) (dir : ArchiveDir) : Prop :=
  ∃ manifest genesis, dir.manifest = some manifest ∧ manifest.genesisHash = some genesis ∧
    genesis ≠ format.toHex expected

theorem fenceStaleArchive_cases (format : ArchiveFormat) (expected : Hash) (dir : ArchiveDir)
    (outcome : FenceOutcome) :
    (¬dir.Foreign format expected ∧
        fenceStaleArchive format expected dir outcome = (dir, true)) ∨
      (fenceStaleArchive format expected dir outcome).1 = .empty ∨
      ((fenceStaleArchive format expected dir outcome).1.Foreign format expected ∧
        (fenceStaleArchive format expected dir outcome).2 = false) := by
  unfold fenceStaleArchive
  cases hforeign : (dir.manifest.bind Manifest.genesisHash).filter
      (· ≠ format.toHex expected) with
  | none =>
      refine .inl ⟨?_, rfl⟩
      rintro ⟨manifest, genesis, hmanifest, hgenesis, hne⟩
      simp [hmanifest, hgenesis, hne] at hforeign
  | some genesis =>
      obtain ⟨hbind, hne⟩ := Option.filter_eq_some_iff.mp hforeign
      obtain ⟨manifest, hmanifest, hgenesis⟩ := Option.bind_eq_some_iff.mp hbind
      cases outcome with
      | done => exact .inr (.inl rfl)
      | lost => exact .inr (.inl rfl)
      | interrupted keepBlock keepSum =>
          exact .inr (.inr ⟨⟨manifest, genesis, hmanifest, hgenesis, by simpa using hne⟩, rfl⟩)

theorem ArchiveDir.sound_empty (format : ArchiveFormat) (expected : Hash) :
    ArchiveDir.empty.Sound format expected :=
  fun _ _ hmanifest => by simp [ArchiveDir.empty] at hmanifest

theorem ArchiveDir.Foreign.sound {dir : ArchiveDir} (hforeign : dir.Foreign format expected) :
    dir.Sound format expected := by
  obtain ⟨manifest, genesis, hmanifest, hgenesis, hne⟩ := hforeign
  intro other verified hother hours
  rw [hmanifest] at hother
  obtain rfl := Option.some.inj hother
  rw [hgenesis] at hours
  exact absurd (Option.some.inj hours) hne

theorem sound_fenced {dir : ArchiveDir} (hsound : dir.Sound format expected)
    (outcome : FenceOutcome) :
    (fenceStaleArchive format expected dir outcome).1.Sound format expected := by
  rcases fenceStaleArchive_cases format expected dir outcome with
    ⟨-, hsame⟩ | hempty | ⟨hforeign, -⟩
  · rw [hsame]
    exact hsound
  · rw [hempty]
    exact sound_empty format expected
  · exact hforeign.sound

theorem sound_archiveStep {thread : ArchiveThread} (hsound : thread.dir.Sound format expected)
    (event : ArchiveEvent format) :
    (archiveStep format expected thread event).dir.Sound format expected := by
  cases event with
  | start outcome store tip plan =>
      have hfenced := sound_fenced hsound outcome
      unfold archiveStep startArchiveThread
      dsimp only
      split
      · exact hfenced
      · split
        · exact (catchUpBounded_upheld hfenced plan store tip).sound
        · exact hfenced
  | block store block plan =>
      unfold archiveStep
      dsimp only
      split
      · exact (archiveFinalized_upheld hsound plan store block).sound
      · exact hsound
  | stop => exact hsound

/-! ## A directory of one chain -/

/-- Every block file is one of the chain, and every checksum is that of its block file. -/
structure ArchiveDir.Clean (format : ArchiveFormat) (expected : Hash) (dir : ArchiveDir) :
    Prop where
  block : ∀ height data, dir.blocks height = some data → ∃ block,
    format.deserializeBlockCompat data = some block ∧ format.genesisHash block = expected
  sum : ∀ height sum, dir.sums height = some sum →
    ∃ data, dir.blocks height = some data ∧ sum = format.blake3Hex data

namespace ArchiveDir.Clean

variable {dir next : ArchiveDir}

theorem empty (format : ArchiveFormat) (expected : Hash) :
    ArchiveDir.empty.Clean format expected :=
  ⟨fun _ _ hblock => by simp [ArchiveDir.empty] at hblock,
    fun _ _ hsum => by simp [ArchiveDir.empty] at hsum⟩

theorem checkFile_valid (hclean : dir.Clean format expected)
    (hpair : dir.pairExists height = true) :
    ∃ hash, dir.checkFile format height expected = .valid hash := by
  obtain ⟨hblock, -⟩ := Bool.and_eq_true_iff.mp hpair
  obtain ⟨data, hdata⟩ := Option.isSome_iff_exists.mp hblock
  obtain ⟨block, hdecoded, hgenesis⟩ := hclean.block height data hdata
  refine ⟨block.hash, ?_⟩
  simp [checkFile, hdata, hdecoded, hgenesis]

theorem sums_none (hclean : dir.Clean format expected)
    (hfree : dir.pairExists height = true → dir.checkFile format height expected = .foreign) :
    dir.sums height = none := by
  cases hsum : dir.sums height with
  | none => rfl
  | some sum =>
      obtain ⟨data, hdata, -⟩ := hclean.sum height sum hsum
      have hpair : dir.pairExists height = true := by simp [pairExists, hsum, hdata]
      obtain ⟨hash, hcheck⟩ := hclean.checkFile_valid hpair
      simp [hfree hpair] at hcheck

theorem putBlock (hclean : dir.Clean format expected) (hnone : dir.sums height = none)
    {block : Block} (hdecoded : format.deserializeBlockCompat data = some block)
    (hgenesis : format.genesisHash block = expected) :
    (dir.putBlock height data).Clean format expected := by
  refine ⟨fun other found hfound => ?_, fun other sum hsum => ?_⟩
  · by_cases hsame : other = height
    · subst hsame
      simp only [ArchiveDir.putBlock, Function.update_self, Option.some.injEq] at hfound
      exact ⟨block, hfound ▸ hdecoded, hgenesis⟩
    · have hkept : dir.blocks other = some found :=
        (Function.update_of_ne hsame _ _).symm.trans hfound
      exact hclean.block other found hkept
  · by_cases hsame : other = height
    · subst hsame
      have hkept : dir.sums other = some sum := hsum
      simp [hnone] at hkept
    · obtain ⟨found, hfound, hhex⟩ := hclean.sum other sum hsum
      exact ⟨found, (Function.update_of_ne hsame _ _).trans hfound, hhex⟩

theorem putSum (hclean : dir.Clean format expected) (hdata : dir.blocks height = some data) :
    (dir.putSum format height data).Clean format expected := by
  refine ⟨hclean.block, fun other sum hsum => ?_⟩
  by_cases hsame : other = height
  · subst hsame
    simp only [ArchiveDir.putSum, Function.update_self, Option.some.injEq] at hsum
    exact ⟨data, hdata, hsum.symm⟩
  · have hkept : dir.sums other = some sum := (Function.update_of_ne hsame _ _).symm.trans hsum
    exact hclean.sum other sum hkept

theorem stepCase (hclean : dir.Clean format expected) {result : Except Halt ScanStep}
    (hsource : ∀ data hash, source = some (data, hash) → ∃ block,
      format.deserializeBlockCompat data = some block ∧ format.genesisHash block = expected)
    (hcase : Scan.StepCase format expected height source dir next result) :
    next.Clean format expected := by
  cases hcase with
  | stall => exact hclean
  | kept => exact hclean
  | halted hfree hsome hwritten =>
      obtain ⟨block, hdecoded, hgenesis⟩ := hsource _ _ hsome
      have hhalf := hclean.putBlock (hclean.sums_none hfree) hdecoded hgenesis
      cases hwritten with
      | nothing => exact hclean
      | half => exact hhalf
      | pair => exact hhalf.putSum (Function.update_self _ _ _)
  | filled hfree hsome =>
      obtain ⟨block, hdecoded, hgenesis⟩ := hsource _ _ hsome
      exact (hclean.putBlock (hclean.sums_none hfree) hdecoded hgenesis).putSum
        (Function.update_self _ _ _)

end ArchiveDir.Clean

/-- What steps keep, and manifests of the chain do, whole calls keep. -/
structure Kept (format : ArchiveFormat) (expected : Hash) (keeps : ArchiveDir → Prop) : Prop where
  step : ∀ {height source dir next result}, keeps dir →
    (∀ data hash, source = some (data, hash) → ∃ block,
      format.deserializeBlockCompat data = some block ∧ format.genesisHash block = expected) →
    Scan.StepCase format expected height source dir next result → keeps next
  save : ∀ {dir manifest}, keeps dir →
    manifest.genesisHash = some (format.toHex expected) →
      keeps { dir with manifest := some manifest }

theorem kept_clean (format : ArchiveFormat) (expected : Hash) :
    Kept format expected (ArchiveDir.Clean format expected) :=
  ⟨fun hclean hsource hcase => hclean.stepCase hsource hcase,
    fun hclean _ => ⟨hclean.block, hclean.sum⟩⟩

theorem kept_native (format : ArchiveFormat) (expected : Hash) :
    Kept format expected fun dir => ¬dir.Foreign format expected := by
  refine ⟨fun hnative _ hcase => ?_, fun _ hours => ?_⟩
  · unfold ArchiveDir.Foreign at hnative ⊢
    rwa [hcase.manifest]
  · rintro ⟨manifest, genesis, hmanifest, hgenesis, hne⟩
    obtain rfl := Option.some.inj hmanifest
    exact hne (Option.some.inj (hgenesis.symm.trans hours))

namespace Kept

variable {keeps : ArchiveDir → Prop} {scan : Scan}

theorem saved (hkept : Kept format expected keeps) (plan : FaultPlan) (base : Base)
    (latest : Nat) (hscan : keeps scan.dir) :
    keeps (scan.save format expected plan base latest).1.dir := by
  obtain ⟨-, ⟨hsaved, -⟩ | ⟨hsame, -⟩⟩ := scan.writeDurable_cases plan fun dir =>
    { dir with manifest := some (scan.manifest format expected base latest) }
  · exact hsaved ▸ hkept.save hscan rfl
  · exact hsame ▸ hscan

theorem visited (hkept : Kept format expected keeps) (plan : FaultPlan) (height : Nat)
    (hscan : keeps scan.dir) {source : Nat → Option (Bytes × Hash)}
    (hgenuine : Genuine format expected source) :
    keeps (scan.visit format expected plan height (source height)).1.dir := by
  obtain ⟨-, hcase⟩ := scan.step_cases format expected plan height (source height)
  have hnext := hkept.step hscan (hgenuine height) hcase
  unfold Scan.visit
  rcases hresult : scan.step format expected plan height (source height) with
    ⟨next, halt | hash | _⟩
  all_goals
    rw [hresult] at hnext
    exact hnext

theorem run (hkept : Kept format expected keeps) (plan : FaultPlan) (base : Base) (latest : Nat)
    (hscan : keeps scan.dir) {source : Nat → Option (Bytes × Hash)}
    (hgenuine : Genuine format expected source) (stopAtStall : Bool) (heights : List Nat)
    (saved : Nat) :
    keeps (scan.run format expected plan base latest source stopAtStall heights saved).1.dir := by
  induction heights generalizing scan saved with
  | nil => exact hscan
  | cons height heights ih =>
      have hvisited := hkept.visited plan height hscan hgenuine
      rw [Scan.run]
      rcases hvisit : scan.visit format expected plan height (source height) with
        ⟨next, _ | _ | _⟩
      · rw [hvisit] at hvisited
        dsimp only
        split
        · exact hvisited
        · split
          · have hsaved := hkept.saved plan base latest hvisited
            rcases hsave : next.save format expected plan base latest with ⟨ended, _ | halt⟩
            · rw [hsave] at hsaved
              exact ih hsaved _
            · rw [hsave] at hsaved
              exact hsaved
          · exact ih hvisited _
      · rw [hvisit] at hvisited
        have hsaved := hkept.saved plan base latest hvisited
        dsimp only at hsaved ⊢
        rcases hsave : next.save format expected plan base latest with ⟨ended, _ | _ | _⟩
        all_goals
          rw [hsave] at hsaved
          exact hsaved
      · rw [hvisit] at hvisited
        exact hvisited

theorem finish (hkept : Kept format expected keeps) (plan : FaultPlan) (base : Base)
    (latest : Nat) (hscan : keeps scan.dir) :
    keeps (scan.finish format expected plan base latest).1.dir := by
  unfold Scan.finish
  split
  · exact hkept.saved plan base latest hscan
  · exact hscan

theorem catchUpBounded (hkept : Kept format expected keeps) (plan : FaultPlan)
    {dir : ArchiveDir} (hdir : keeps dir) (store : LegalStore format) (tip : Nat) :
    keeps (catchUpBounded format expected plan dir store tip).1.dir := by
  unfold Doli.Storage.catchUpBounded
  dsimp only
  have hrun := hkept.run plan (loadBase format expected dir)
    (max (loadBase format expected dir).latest tip)
    (show keeps (Scan.new dir ((loadBase format expected dir).trusted.getD 0)).dir from hdir)
    (genuine_fromStore format expected store) false
    (List.range' ((loadBase format expected dir).trusted.getD 0 + 1)
      (tip - (loadBase format expected dir).trusted.getD 0))
    ((loadBase format expected dir).trusted.getD 0)
  split
  case h_1 scan hended =>
    rw [hended] at hrun
    exact hkept.finish plan _ _ hrun
  case h_2 halted halt hended =>
    rw [hended] at hrun
    exact hrun

theorem archiveFinalized (hkept : Kept format expected keeps) (plan : FaultPlan)
    {dir : ArchiveDir} (hdir : keeps dir) (store : LegalStore format) (block : ArchiveBlock) :
    keeps (archiveFinalized format expected plan dir store block).1.dir := by
  unfold Doli.Storage.archiveFinalized
  dsimp only
  split
  · exact hdir
  · have hrun := hkept.run plan (loadBase format expected dir)
      (max (loadBase format expected dir).latest block.height)
      (show keeps (Scan.new dir ((loadBase format expected dir).trusted.getD 0)).dir from hdir)
      (genuine_fromStore format expected store) true
      (List.range' ((loadBase format expected dir).trusted.getD 0 + 1)
        (block.height - 1 - (loadBase format expected dir).trusted.getD 0))
      ((loadBase format expected dir).trusted.getD 0)
    split
    case h_1 halted halt hended =>
      rw [hended] at hrun
      exact hrun
    case h_2 filled hended =>
      rw [hended] at hrun
      have hlast := hkept.run plan (loadBase format expected dir)
        (max (loadBase format expected dir).latest block.height) hrun
        (genuine_fromBlock format expected block) false [block.height]
        filled.report.verifiedHeight
      split
      case h_1 scan hended' =>
        rw [hended'] at hlast
        exact hkept.finish plan _ _ hlast
      case h_2 halted halt hended' =>
        rw [hended'] at hlast
        exact hlast

theorem start (hkept : Kept format expected keeps) (plan : FaultPlan) {dir : ArchiveDir}
    {outcome : FenceOutcome} (hfenced : keeps (fenceStaleArchive format expected dir outcome).1)
    (store : LegalStore format) (tip : Nat) :
    keeps (startArchiveThread format expected plan dir outcome store tip).dir := by
  unfold startArchiveThread
  dsimp only
  split
  · exact hfenced
  · split
    · exact hkept.catchUpBounded plan hfenced store tip
    · exact hfenced

end Kept

/-- The directory is clean and not of another chain, or of another chain and not in use. -/
def ArchiveThread.Ready (format : ArchiveFormat) (expected : Hash) (thread : ArchiveThread) :
    Prop :=
  (thread.dir.Clean format expected ∧ ¬thread.dir.Foreign format expected) ∨
    (thread.dir.Foreign format expected ∧ thread.running = false)

theorem ArchiveThread.Ready.fenced {thread : ArchiveThread}
    (hready : thread.Ready format expected) (outcome : FenceOutcome) :
    ((fenceStaleArchive format expected thread.dir outcome).1.Clean format expected ∧
        ¬(fenceStaleArchive format expected thread.dir outcome).1.Foreign format expected) ∨
      ((fenceStaleArchive format expected thread.dir outcome).1.Foreign format expected ∧
        (fenceStaleArchive format expected thread.dir outcome).2 = false) := by
  rcases fenceStaleArchive_cases format expected thread.dir outcome with
    ⟨hnative, hsame⟩ | hempty | hforeign
  · rw [hsame]
    rcases hready with hclean | ⟨hforeign, -⟩
    · exact .inl hclean
    · exact absurd hforeign hnative
  · rw [hempty]
    refine .inl ⟨.empty format expected, ?_⟩
    rintro ⟨manifest, genesis, hmanifest, -⟩
    simp [ArchiveDir.empty] at hmanifest
  · exact .inr hforeign

theorem ready_archiveStep {thread : ArchiveThread} (hready : thread.Ready format expected)
    (event : ArchiveEvent format) :
    (archiveStep format expected thread event).Ready format expected := by
  cases event with
  | start outcome store tip plan =>
      rcases hready.fenced outcome with ⟨hclean, hnative⟩ | ⟨hforeign, hstopped⟩
      · exact .inl ⟨(kept_clean format expected).start plan hclean store tip,
          (kept_native format expected).start plan hnative store tip⟩
      · right
        have hend : startArchiveThread format expected plan thread.dir outcome store tip =
            ⟨(fenceStaleArchive format expected thread.dir outcome).1, false⟩ := by
          simp [startArchiveThread, hstopped]
        rw [archiveStep, hend]
        exact ⟨hforeign, rfl⟩
  | block store block plan =>
      unfold archiveStep
      dsimp only
      split
      case isTrue hrunning =>
        rcases hready with ⟨hclean, hnative⟩ | ⟨-, hstopped⟩
        · exact .inl ⟨(kept_clean format expected).archiveFinalized plan hclean store block,
            (kept_native format expected).archiveFinalized plan hnative store block⟩
        · simp [hstopped] at hrunning
      case isFalse => exact hready
  | stop =>
      rcases hready with hclean | ⟨hforeign, -⟩
      · exact .inl hclean
      · exact .inr ⟨hforeign, rfl⟩

theorem ready_run {initial : ArchiveThread} (hready : initial.Ready format expected)
    (events : List (ArchiveEvent format)) :
    (events.foldl (archiveStep format expected) initial).Ready format expected :=
  foldl_invariant
    (fun _ thread => ArchiveThread.Ready format expected thread) hready
    fun _ event _ _ _ hthread => ready_archiveStep hthread event

theorem sound_run {initial : ArchiveThread} (hsound : initial.dir.Sound format expected)
    (events : List (ArchiveEvent format)) :
    (events.foldl (archiveStep format expected) initial).dir.Sound format expected :=
  foldl_invariant
    (fun _ thread => ArchiveDir.Sound format expected (ArchiveThread.dir thread)) hsound
    fun _ event _ _ _ hthread => sound_archiveStep hthread event

theorem not_foreign_of_ours {dir : ArchiveDir} {manifest : Manifest}
    (hmanifest : dir.manifest = some manifest)
    (hours : manifest.genesisHash = some (format.toHex expected)) :
    ¬dir.Foreign format expected := by
  rintro ⟨other, genesis, hother, hgenesis, hne⟩
  rw [hmanifest] at hother
  obtain rfl := Option.some.inj hother
  exact hne (Option.some.inj (hgenesis.symm.trans hours))

theorem ArchiveDir.Clean.files {dir : ArchiveDir} (hclean : dir.Clean format expected)
    (hverified : dir.Verified format expected height) : ∃ data block,
      dir.blocks height = some data ∧ dir.sums height = some (format.blake3Hex data) ∧
        format.deserializeBlockCompat data = some block ∧
        format.genesisHash block = expected := by
  obtain ⟨-, hsum⟩ := Bool.and_eq_true_iff.mp hverified.1
  obtain ⟨sum, hsum⟩ := Option.isSome_iff_exists.mp hsum
  obtain ⟨data, hdata, rfl⟩ := hclean.sum height sum hsum
  obtain ⟨block, hdecoded, hgenesis⟩ := hclean.block height data hdata
  exact ⟨data, block, hdata, hsum, hdecoded, hgenesis⟩

/-- Whatever writes fail and wherever the process dies, and whatever directory of another
chain is found: where the manifest names the chain and a verified height, the pair of each
height up to it is there, its block is one of the chain and its checksum is right. -/
theorem archive_verified (format : ArchiveFormat) (expected : Hash) (initial : ArchiveThread)
    (hready : initial.Ready format expected) (hsound : initial.dir.Sound format expected)
    (events : List (ArchiveEvent format)) {manifest : Manifest} {verified : Nat}
    (hmanifest : (events.foldl (archiveStep format expected) initial).dir.manifest =
      some manifest)
    (hours : manifest.genesisHash = some (format.toHex expected))
    (hclaim : manifest.verifiedHeight = some verified) :
    ∀ height, 1 ≤ height → height ≤ verified → ∃ data block,
      (events.foldl (archiveStep format expected) initial).dir.blocks height = some data ∧
      (events.foldl (archiveStep format expected) initial).dir.sums height =
        some (format.blake3Hex data) ∧
      format.deserializeBlockCompat data = some block ∧
      format.genesisHash block = expected := by
  intro height hone hle
  have hverified := sound_run hsound events manifest verified hmanifest hours hclaim height
    hone hle
  rcases ready_run hready events with ⟨hclean, -⟩ | ⟨hforeign, -⟩
  · exact hclean.files hverified
  · exact absurd hforeign (not_foreign_of_ours hmanifest hours)

/-! ## Without faults -/

def FaultPlan.faultless : FaultPlan := ⟨fun _ => .none, fun _ => false⟩

/-- A scan without its manifest and its counters. -/
structure PlainScan where
  dir : ArchiveDir
  verifiedHeight : Nat
  contiguous : Bool

def Scan.plain (scan : Scan) : PlainScan :=
  ⟨{ scan.dir with manifest := none }, scan.report.verifiedHeight, scan.contiguous⟩

/-- The directory after a height, and whether the height is there. -/
def settle (format : ArchiveFormat) (expected : Hash) (dir : ArchiveDir) (height : Nat)
    (source : Option (Bytes × Hash)) : ArchiveDir × Bool :=
  if dir.pairExists height = true ∧ dir.checkFile format height expected ≠ .foreign then
    (dir, dir.checkFile format height expected ≠ .unusable)
  else
    match source with
    | none => (dir, false)
    | some (data, _) => ((dir.putBlock height data).putSum format height data, true)

def PlainScan.visit (format : ArchiveFormat) (expected : Hash)
    (source : Nat → Option (Bytes × Hash)) (scan : PlainScan) (height : Nat) : PlainScan :=
  let settled := settle format expected scan.dir height (source height)
  { dir := settled.1
    verifiedHeight :=
      if scan.contiguous && settled.2 then height else scan.verifiedHeight
    contiguous := scan.contiguous && settled.2 }

namespace Scan

variable {scan : Scan} {base : Base} {latest : Nat}

theorem save_faultless (format : ArchiveFormat) (expected : Hash) (scan : Scan) (base : Base)
    (latest : Nat) :
    (scan.save format expected .faultless base latest).2 = none ∧
      (scan.save format expected .faultless base latest).1.plain = scan.plain :=
  ⟨rfl, rfl⟩

theorem step_faultless (format : ArchiveFormat) (expected : Hash) (scan : Scan) (height : Nat)
    (source : Option (Bytes × Hash)) :
    ∃ found, (scan.step format expected .faultless height source).2 = .ok found ∧
      (scan.step format expected .faultless height source).1.dir =
        (settle format expected scan.dir height source).1 ∧
      (found = .stall ↔ (settle format expected scan.dir height source).2 = false) := by
  unfold step settle
  by_cases hpair : scan.dir.pairExists height = true
  · rw [if_pos hpair]
    cases hcheck : scan.dir.checkFile format height expected with
    | valid hash => exact ⟨.done hash, by simp [FaultPlan.faultless, hpair]⟩
    | unusable => exact ⟨.stall, by simp [FaultPlan.faultless, hpair]⟩
    | foreign =>
        rcases source with _ | ⟨data, hash⟩
        · exact ⟨.stall, by simp [FaultPlan.faultless, fill]⟩
        · exact ⟨.done hash, by simp [FaultPlan.faultless, fill, writePair, writeDurable]⟩
  · rw [if_neg hpair, if_neg (fun hboth => hpair hboth.1)]
    rcases source with _ | ⟨data, hash⟩
    · exact ⟨.stall, rfl, rfl, by simp⟩
    · exact ⟨.done hash, rfl, rfl, by simp⟩

theorem settle_plain (format : ArchiveFormat) (expected : Hash) (dir : ArchiveDir) (height : Nat)
    (source : Option (Bytes × Hash)) :
    settle format expected { dir with manifest := none } height source =
      ({ (settle format expected dir height source).1 with manifest := none },
        (settle format expected dir height source).2) := by
  have hpair : ArchiveDir.pairExists { dir with manifest := none } height =
      dir.pairExists height := rfl
  have hcheck : ArchiveDir.checkFile format { dir with manifest := none } height expected =
      dir.checkFile format height expected := rfl
  unfold settle
  rw [hpair, hcheck]
  split
  · rfl
  · rcases source with _ | ⟨data, hash⟩ <;> rfl

theorem visit_faultless (format : ArchiveFormat) (expected : Hash) (scan : Scan) (height : Nat)
    (source : Nat → Option (Bytes × Hash)) :
    (scan.visit format expected .faultless height (source height)).2 = none ∧
      (scan.visit format expected .faultless height (source height)).1.plain =
        scan.plain.visit format expected source height := by
  obtain ⟨found, hfound, hdir, hstall⟩ :=
    step_faultless format expected scan height (source height)
  obtain ⟨hbooks, -⟩ :=
    scan.step_cases format expected .faultless height (source height)
  unfold visit PlainScan.visit
  rcases hresult : scan.step format expected .faultless height (source height) with
    ⟨next, result⟩
  rw [hresult] at hfound hdir hbooks
  dsimp only at hfound hdir
  have hverified : next.report.verifiedHeight = scan.report.verifiedHeight :=
    hbooks.verifiedHeight
  have hcontiguous : next.contiguous = scan.contiguous := hbooks.contiguous
  subst hfound
  have hplain := settle_plain format expected scan.dir height
    (source height)
  cases found with
  | stall =>
      have hfree := hstall.mp rfl
      refine ⟨rfl, ?_⟩
      simp [plain, hplain, hfree, hdir, hverified]
  | done hash =>
      have hsettled : (settle format expected scan.dir height (source height)).2 = true := by
        rw [← Bool.not_eq_false, ← hstall]
        simp
      refine ⟨rfl, ?_⟩
      simp [plain, hplain, hsettled, hdir, hverified, hcontiguous]

theorem run_faultless (format : ArchiveFormat) (expected : Hash) (base : Base) (latest : Nat)
    (source : Nat → Option (Bytes × Hash))
    (heights : List Nat) (saved : Nat) (scan : Scan) :
    (scan.run format expected .faultless base latest source false heights saved).2 = none ∧
      (scan.run format expected .faultless base latest source false heights saved).1.plain =
        heights.foldl (PlainScan.visit format expected source) scan.plain := by
  induction heights generalizing saved scan with
  | nil => exact ⟨rfl, rfl⟩
  | cons height heights ih =>
      obtain ⟨hnone, hplain⟩ :=
        visit_faultless format expected scan height source
      rw [run, List.foldl_cons, ← hplain]
      rcases hvisit : scan.visit format expected .faultless height (source height) with
        ⟨next, ended⟩
      rw [hvisit] at hnone
      dsimp only at hnone
      subst hnone
      dsimp only
      rw [Bool.false_and, if_neg (by simp)]
      split
      · obtain ⟨hnone, hsame⟩ :=
          save_faultless format expected next base latest
        rcases hsave : next.save format expected .faultless base latest with ⟨ended, halt⟩
        rw [hsave] at hnone hsame
        dsimp only at hnone hsame
        subst hnone
        rw [← hsame]
        exact ih _ _
      · exact ih _ _

end Scan

theorem settle_verified {dir : ArchiveDir} (hverified : dir.Verified format expected height)
    (source : Option (Bytes × Hash)) : settle format expected dir height source = (dir, true) := by
  obtain ⟨hpair, hash, hcheck⟩ := hverified
  simp [settle, hpair, hcheck]

theorem fold_verified (dir : ArchiveDir) (source : Nat → Option (Bytes × Hash))
    (start count : Nat) (hverified : ∀ height, start < height → height ≤ start + count →
      dir.Verified format expected height) :
    (List.range' (start + 1) count).foldl (PlainScan.visit format expected source)
      ⟨dir, start, true⟩ = ⟨dir, start + count, true⟩ := by
  induction count generalizing start with
  | zero => rfl
  | succ count ih =>
      have hsettle := settle_verified (hverified (start + 1) (by omega) (by omega))
        (source (start + 1))
      have hvisit : PlainScan.visit format expected source ⟨dir, start, true⟩ (start + 1) =
          ⟨dir, start + 1, true⟩ := by
        simp [PlainScan.visit, hsettle]
      rw [List.range'_succ, List.foldl_cons, hvisit,
        ih (start + 1) fun height hlt hle => hverified height (by omega) (by omega)]
      simp [Nat.add_comm, Nat.add_left_comm]

theorem fold_clean {source : Nat → Option (Bytes × Hash)}
    (hgenuine : Genuine format expected source) (start count : Nat) (dir : ArchiveDir)
    (hclean : dir.Clean format expected)
    (hsource : ∀ height, start < height → height ≤ start + count → (source height).isSome) :
    ∃ final, (List.range' (start + 1) count).foldl (PlainScan.visit format expected source)
      ⟨dir, start, true⟩ = ⟨final, start + count, true⟩ := by
  induction count generalizing start dir with
  | zero => exact ⟨dir, rfl⟩
  | succ count ih =>
      obtain ⟨next, hsettle, hnext⟩ : ∃ next, settle format expected dir (start + 1)
          (source (start + 1)) = (next, true) ∧ next.Clean format expected := by
        by_cases hpair : dir.pairExists (start + 1) = true
        · obtain ⟨hash, hcheck⟩ := hclean.checkFile_valid hpair
          exact ⟨dir, settle_verified ⟨hpair, hash, hcheck⟩ _, hclean⟩
        · obtain ⟨⟨data, hash⟩, hsome⟩ := Option.isSome_iff_exists.mp
            (hsource (start + 1) (by omega) (by omega))
          refine ⟨(dir.putBlock (start + 1) data).putSum format (start + 1) data, ?_, ?_⟩
          · simp [settle, hpair, hsome]
          · exact hclean.stepCase (hgenuine (start + 1))
              (.filled (fun htrue => absurd htrue hpair) hsome)
      have hvisit : PlainScan.visit format expected source ⟨dir, start, true⟩ (start + 1) =
          ⟨next, start + 1, true⟩ := by
        simp [PlainScan.visit, hsettle]
      obtain ⟨final, hfinal⟩ := ih (start + 1) next hnext
        fun height hlt hle => hsource height (by omega) (by omega)
      refine ⟨final, ?_⟩
      rw [List.range'_succ, List.foldl_cons, hvisit, hfinal]
      simp [Nat.add_comm, Nat.add_left_comm]

theorem finish_faultless (format : ArchiveFormat) (expected : Hash) (scan : Scan) (base : Base)
    (latest : Nat) :
    (scan.finish format expected .faultless base latest).2 = none ∧
      (scan.finish format expected .faultless base latest).1.plain = scan.plain := by
  unfold Scan.finish
  split
  · exact Scan.save_faultless format expected scan base latest
  · exact ⟨rfl, rfl⟩

theorem catchUpBounded_faultless (format : ArchiveFormat) (expected : Hash) (dir : ArchiveDir)
    (store : LegalStore format) (tip : Nat) :
    (catchUpBounded format expected .faultless dir store tip).2 = none ∧
      (catchUpBounded format expected .faultless dir store tip).1.plain =
        (List.range' ((loadBase format expected dir).trusted.getD 0 + 1)
          (tip - (loadBase format expected dir).trusted.getD 0)).foldl
            (PlainScan.visit format expected (fromStore format expected store))
            ⟨{ dir with manifest := none }, (loadBase format expected dir).trusted.getD 0,
              true⟩ := by
  obtain ⟨hnone, hplain⟩ := Scan.run_faultless format expected
    (loadBase format expected dir) (max (loadBase format expected dir).latest tip)
    (fromStore format expected store)
    (List.range' ((loadBase format expected dir).trusted.getD 0 + 1)
      (tip - (loadBase format expected dir).trusted.getD 0))
    ((loadBase format expected dir).trusted.getD 0)
    (.new dir ((loadBase format expected dir).trusted.getD 0))
  unfold catchUpBounded
  dsimp only
  rcases hrun : (Scan.new dir ((loadBase format expected dir).trusted.getD 0)).run format expected
    .faultless (loadBase format expected dir) (max (loadBase format expected dir).latest tip)
    (fromStore format expected store) false
    (List.range' ((loadBase format expected dir).trusted.getD 0 + 1)
      (tip - (loadBase format expected dir).trusted.getD 0))
    ((loadBase format expected dir).trusted.getD 0) with ⟨scan, ended⟩
  rw [hrun] at hnone hplain
  dsimp only at hnone hplain
  subst hnone
  obtain ⟨hfinished, hsame⟩ := finish_faultless format expected scan
    (loadBase format expected dir) (max (loadBase format expected dir).latest tip)
  exact ⟨hfinished, hsame.trans hplain⟩

theorem finish_claims {scan : Scan} {base : Base}
    (hupheld : Upheld format expected base.trusted scan) (latest : Nat) :
    (scan.finish format expected .faultless base latest).1.dir.Claims format expected
      scan.report.verifiedHeight := by
  unfold Scan.finish
  split
  case isTrue => exact ⟨_, _, rfl, rfl, rfl, le_refl _⟩
  case isFalse hsame =>
    rw [not_or, not_ne_iff] at hsame
    exact (hupheld.claimed _ hsame.1).2

theorem catchUpBounded_claims {dir : ArchiveDir} (hsound : dir.Sound format expected)
    (store : LegalStore format) (tip : Nat) :
    (catchUpBounded format expected .faultless dir store tip).1.dir.Claims format expected
      (catchUpBounded format expected .faultless dir store tip).1.report.verifiedHeight := by
  obtain ⟨hrun, -⟩ := Scan.run_upheld (loadBase format expected dir)
    (max (loadBase format expected dir).latest tip) (genuine_fromStore format expected store)
    .faultless false (tip - (loadBase format expected dir).trusted.getD 0)
    ((loadBase format expected dir).trusted.getD 0 + 1)
    ((loadBase format expected dir).trusted.getD 0) (new_upheld hsound) fun _ => rfl
  obtain ⟨hnone, -⟩ := catchUpBounded_faultless format expected dir store tip
  unfold catchUpBounded at hnone ⊢
  dsimp only at hnone ⊢
  split
  case h_1 scan hended =>
    rw [hended] at hrun
    have hplain := (finish_faultless format expected scan (loadBase format expected dir)
      (max (loadBase format expected dir).latest tip)).2
    have hverified : (scan.finish format expected .faultless (loadBase format expected dir)
        (max (loadBase format expected dir).latest tip)).1.report.verifiedHeight =
          scan.report.verifiedHeight := congrArg PlainScan.verifiedHeight hplain
    rw [hverified]
    exact finish_claims hrun _
  case h_2 halted halt hended =>
    rw [hended] at hnone
    simp at hnone

end

/-! ## On a chain of one block -/

namespace ArchiveSample

def block : Block where
  hash := ⟨5⟩
  prevHash := ⟨4⟩
  producer := ⟨1⟩
  slot := 1
  timestamp := 0
  presenceRoot := ⟨0⟩
  attestationBitfield := []
  transactions := []

/-- The block by its two hashes. -/
def image (block : Block) : Bytes := block.hash.asBytes ++ block.prevHash.asBytes

def format : ArchiveFormat where
  legal found := found = block
  genesisHash _ := ⟨1⟩
  serialize := image
  deserializeBlockCompat data := if data = image block then some block else none
  header _ := none
  blake3Hex data := List.replicate 64 (48 + UInt8.ofNat (data.length % 10))
  trim data := some data
  toHex hash := toString hash.word.toNat
  deserialize_serialize := by
    rintro found rfl
    simp
  trim_blake3Hex _ := rfl

theorem format_deserialize {data : Bytes} {found : Block}
    (hfound : format.deserializeBlockCompat data = some found) : found = block := by
  have hread : (if data = image block then some block else none) = some found := hfound
  split at hread
  · exact (Option.some.inj hread).symm
  · simp at hread

def emptyStore : BlockStore := ⟨∅, ∅, ∅, none⟩

def oneBlock : BlockStore :=
  { emptyStore with
    blocks := Finmap.singleton block.hash block, heightIndex := Finmap.singleton 1 block.hash }

def store : LegalStore format where
  val := oneBlock
  property := by
    intro height found hfound
    obtain ⟨hash, hindex, hstored⟩ := Option.bind_eq_some_iff.mp hfound
    exact (lookup_singleton_eq_some.mp hstored).2

/-- A directory that another chain has left. -/
def foreign : ArchiveThread where
  dir := { ArchiveDir.empty with manifest := some ⟨some 3, none, some "9", some 3⟩ }
  running := false

theorem foreign_ready : foreign.Ready format ⟨1⟩ :=
  .inr ⟨⟨_, "9", rfl, rfl, by decide +kernel⟩, rfl⟩

theorem foreign_sound : foreign.dir.Sound format ⟨1⟩ :=
  ArchiveDir.Foreign.sound ⟨_, "9", rfl, rfl, by decide +kernel⟩

def events : List (ArchiveEvent format) := [.start .done store 1 .faultless]

theorem events_trusted :
    (loadBase format ⟨1⟩ (events.foldl (archiveStep format ⟨1⟩) foreign).dir).trusted =
      some 1 := by
  decide +kernel

theorem events_verified :
    ((events.foldl (archiveStep format ⟨1⟩) foreign).dir.blocks 1).isSome := by
  obtain ⟨manifest, _, hmanifest, hours, hclaim, -⟩ := loadBase_trusted events_trusted
  obtain ⟨data, _, hdata, -⟩ := archive_verified format ⟨1⟩ foreign foreign_ready foreign_sound
    events hmanifest hours hclaim 1 (le_refl 1) (le_refl 1)
  exact Option.isSome_iff_exists.mpr ⟨data, hdata⟩

end ArchiveSample

end Doli.Storage
