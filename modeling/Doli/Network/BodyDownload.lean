import Doli.Lib.Run
import Doli.Validation.Block
import Mathlib.Algebra.GroupWithZero.Nat
import Mathlib.Algebra.Order.BigOperators.Group.Finset

/-!
# Body download

`BodyDownloader` asks peers for the bodies of validated headers, one request to a peer.  The
set of hashes in flight is kept beside the requests; over every run it is exactly what the
requests hold, and no body is asked of two peers at once.
-/

namespace Doli.Network

open Doli.Core Doli.Lib
open Doli.Validation (Block)

/-- The order in which a hash set or a hash map yields its keys. -/
structure Iteration (κ : Type) where
  order : Finset κ → List κ
  mem_order : ∀ {keys key}, key ∈ order keys ↔ key ∈ keys

structure BodyRequest (Peer : Type) where
  hashes : List Hash
  peer : Peer
  sentAt : Nat
  deriving DecidableEq

/-- Instants and durations are nanoseconds of one clock. -/
structure BodyDownloader (Peer : Type) [DecidableEq Peer] where
  maxBodiesPerRequest : Nat
  maxConcurrentRequests : Nat
  requestTimeout : Nat
  activeRequests : Column Peer (BodyRequest Peer)
  inFlight : Finset Hash
  downloaded : Column Hash Block
  failed : List Hash
  failureCount : Column Hash Nat
  failedPeers : Column Hash (Finset Peer)
  permanentlyFailed : Column Hash Nat
  nextPeerIndex : Nat
  totalDownloaded : Nat

/-- The sixty seconds after which a hash that was given up is asked for again. -/
def permanentFailureTtl : Nat := 60 * 10 ^ 9

/-- The locals of the loop over the bodies of a response. -/
structure BodyIntake (Peer : Type) [DecidableEq Peer] where
  downloader : BodyDownloader Peer
  received : Finset Hash
  refused : Finset Hash
  accepted : List Block

namespace BodyDownloader

variable {Peer : Type} [DecidableEq Peer]

def new (maxBodiesPerRequest maxConcurrentRequests requestTimeout : Nat) :
    BodyDownloader Peer where
  maxBodiesPerRequest := maxBodiesPerRequest
  maxConcurrentRequests := maxConcurrentRequests
  requestTimeout := requestTimeout
  activeRequests := ∅
  inFlight := ∅
  downloaded := ∅
  failed := []
  failureCount := ∅
  failedPeers := ∅
  permanentlyFailed := ∅
  nextPeerIndex := 0
  totalDownloaded := 0

/-! ## Requests -/

def requestHashes (downloader : BodyDownloader Peer) (peer : Peer) : List Hash :=
  match downloader.activeRequests.lookup peer with
  | some request => request.hashes
  | none => []

def expectedInFlight (downloader : BodyDownloader Peer) : Nat :=
  ∑ peer ∈ downloader.activeRequests.keys, (downloader.requestHashes peer).length

def valid (downloader : BodyDownloader Peer) : Finset Hash :=
  downloader.activeRequests.keys.biUnion fun peer => (downloader.requestHashes peer).toFinset

/-- Hashes in flight that no request holds go back to the queue. -/
def releaseOrphaned (downloader : BodyDownloader Peer) (iteration : Iteration Hash) :
    BodyDownloader Peer :=
  if downloader.expectedInFlight < downloader.inFlight.card then
    let orphaned := iteration.order (downloader.inFlight \ downloader.valid)
    { downloader with
      inFlight := downloader.inFlight.filter (· ∉ orphaned)
      failed := downloader.failed ++ orphaned }
  else downloader

def expired (downloader : BodyDownloader Peer) (now : Nat) : Finset Hash :=
  downloader.permanentlyFailed.keys.filter fun hash =>
    (downloader.permanentlyFailed.lookup hash).any fun failedAt =>
      decide (permanentFailureTtl ≤ now - failedAt)

def retryExpired (downloader : BodyDownloader Peer) (hash : Hash) : BodyDownloader Peer :=
  { downloader with
    permanentlyFailed := downloader.permanentlyFailed.erase hash
    failureCount := downloader.failureCount.erase hash
    failedPeers := downloader.failedPeers.erase hash
    failed := downloader.failed ++ [hash] }

def expirePermanentlyFailed (downloader : BodyDownloader Peer) (now : Nat)
    (iteration : Iteration Hash) : BodyDownloader Peer :=
  (iteration.order (downloader.expired now)).foldl retryExpired downloader

/-- The loop over the failed hashes: what it collects and what it leaves in the queue. -/
def takeFailed (skip : Hash → Bool) (max : Nat) : List Hash → List Hash → List Hash × List Hash
  | hashes, [] => (hashes, [])
  | hashes, hash :: failed =>
      if hashes.length < max then
        takeFailed skip max (if skip hash then hashes else hashes ++ [hash]) failed
      else (hashes, hash :: failed)

/-- The loop over the needed hashes. -/
def takeNeeded (skip : Hash → Bool) (max : Nat) : List Hash → List Hash → List Hash
  | hashes, [] => hashes
  | hashes, hash :: needed =>
      if max ≤ hashes.length then hashes
      else takeNeeded skip max (if skip hash then hashes else hashes ++ [hash]) needed

def skipFailed (downloader : BodyDownloader Peer) (hash : Hash) : Bool :=
  decide (hash ∈ downloader.inFlight) || decide (hash ∈ downloader.permanentlyFailed)

def skipNeeded (downloader : BodyDownloader Peer) (hash : Hash) : Bool :=
  decide (hash ∈ downloader.inFlight) || decide (hash ∈ downloader.downloaded) ||
    decide (hash ∈ downloader.permanentlyFailed)

def freePeers (downloader : BodyDownloader Peer) (availablePeers : List Peer) : List Peer :=
  availablePeers.filter fun peer => peer ∉ downloader.activeRequests

/-- A peer that has not failed for the first hash, or any free one; in turn. -/
def selectPeer (downloader : BodyDownloader Peer) (free : List Peer) (firstHash : Hash) :
    Option Peer :=
  let preferred := free.filter fun peer =>
    (downloader.failedPeers.lookup firstHash).all fun failed => decide (peer ∉ failed)
  let candidates := if preferred = [] then free else preferred
  candidates[downloader.nextPeerIndex % candidates.length]?

/-- The hashes that a call collects, and the downloader with them off its queue. -/
def collect (downloader : BodyDownloader Peer) (needed : List Hash) (now : Nat)
    (iteration : Iteration Hash) : List Hash × BodyDownloader Peer :=
  let downloader :=
    (downloader.releaseOrphaned iteration).expirePermanentlyFailed now iteration
  let retried :=
    takeFailed downloader.skipFailed downloader.maxBodiesPerRequest [] downloader.failed
  (takeNeeded downloader.skipNeeded downloader.maxBodiesPerRequest retried.1 needed,
    { downloader with failed := retried.2 })

def nextRequest (downloader : BodyDownloader Peer) (needed : List Hash)
    (availablePeers : List Peer) (now sentAt : Nat) (iteration : Iteration Hash) :
    Option (Peer × List Hash) × BodyDownloader Peer :=
  if downloader.maxConcurrentRequests ≤ downloader.activeRequests.keys.card then
    (none, downloader)
  else if downloader.freePeers availablePeers = [] then (none, downloader)
  else
    let free := downloader.freePeers availablePeers
    let collected := downloader.collect needed now iteration
    let downloader := collected.2
    match collected.1 with
    | [] => (none, downloader)
    | firstHash :: rest =>
        match downloader.selectPeer free firstHash with
        | none => (none, downloader)
        | some peer =>
            let hashes := firstHash :: rest
            (some (peer, hashes),
              { downloader with
                nextPeerIndex := (downloader.nextPeerIndex + 1) % 2 ^ 64
                inFlight := downloader.inFlight ∪ hashes.toFinset
                activeRequests :=
                  downloader.activeRequests.insert peer
                    { hashes := hashes, peer := peer, sentAt := sentAt } })

/-! ## Responses -/

section

variable (blake3 : Bytes → Hash)

def intakeBody (requested : List Hash) (refuse : Hash → Block → Bool)
    (intake : BodyIntake Peer) (block : Block) : BodyIntake Peer :=
  let hash := block.header.hash blake3
  if hash ∉ requested then intake
  else if refuse hash block then { intake with refused := insert hash intake.refused }
  else
    { downloader :=
        { intake.downloader with
          inFlight := intake.downloader.inFlight.erase hash
          downloaded := intake.downloader.downloaded.insert hash block
          totalDownloaded := intake.downloader.totalDownloaded + 1 }
      received := insert hash intake.received
      refused := intake.refused
      accepted := intake.accepted ++ [block] }

/-- The third answer without the body gives the hash up; a refused body spends no try. -/
def markMissing (peer : Peer) (now : Nat) (received refused : Finset Hash)
    (downloader : BodyDownloader Peer) (hash : Hash) : BodyDownloader Peer :=
  if hash ∈ received then downloader
  else
    let downloader :=
      { downloader with
        inFlight := downloader.inFlight.erase hash
        failedPeers :=
          downloader.failedPeers.insert hash
            (insert peer ((downloader.failedPeers.lookup hash).getD ∅)) }
    if hash ∈ refused then downloader
    else
      let count := (downloader.failureCount.lookup hash).getD 0 + 1
      let downloader :=
        { downloader with failureCount := downloader.failureCount.insert hash count }
      if 3 ≤ count then
        { downloader with permanentlyFailed := downloader.permanentlyFailed.insert hash now }
      else { downloader with failed := downloader.failed ++ [hash] }

def intakeBodies (downloader : BodyDownloader Peer) (requested : List Hash)
    (bodies : List Block) (refuse : Hash → Block → Bool) : BodyIntake Peer :=
  bodies.foldl (intakeBody blake3 requested refuse)
    { downloader := downloader, received := ∅, refused := ∅, accepted := [] }

def processResponseRefusing (downloader : BodyDownloader Peer) (peer : Peer)
    (bodies : List Block) (refuse : Hash → Block → Bool) (now : Nat) :
    List Block × BodyDownloader Peer :=
  match downloader.activeRequests.lookup peer with
  | none => ([], downloader)
  | some request =>
      let intake :=
        intakeBodies blake3
          { downloader with activeRequests := downloader.activeRequests.erase peer }
          request.hashes bodies refuse
      (intake.accepted,
        request.hashes.foldl (markMissing peer now intake.received intake.refused)
          intake.downloader)

def processResponse (downloader : BodyDownloader Peer) (peer : Peer) (bodies : List Block)
    (now : Nat) : List Block × BodyDownloader Peer :=
  processResponseRefusing blake3 downloader peer bodies (fun _ _ => false) now

end

/-! ## Requests without a response -/

def requeue (downloader : BodyDownloader Peer) (hash : Hash) : BodyDownloader Peer :=
  { downloader with
    inFlight := downloader.inFlight.erase hash
    failed := downloader.failed ++ [hash] }

def handleTimeout (downloader : BodyDownloader Peer) (peer : Peer) : BodyDownloader Peer :=
  match downloader.activeRequests.lookup peer with
  | none => downloader
  | some request =>
      request.hashes.foldl requeue
        { downloader with activeRequests := downloader.activeRequests.erase peer }

def cancelPeer (downloader : BodyDownloader Peer) (peer : Peer) : BodyDownloader Peer :=
  downloader.handleTimeout peer

def timedOut (downloader : BodyDownloader Peer) (now : Nat) : Finset Peer :=
  downloader.activeRequests.keys.filter fun peer =>
    (downloader.activeRequests.lookup peer).any fun request =>
      decide (downloader.requestTimeout < now - request.sentAt)

def cleanupTimeouts (downloader : BodyDownloader Peer) (now : Nat)
    (iteration : Iteration Peer) : BodyDownloader Peer :=
  (iteration.order (downloader.timedOut now)).foldl handleTimeout downloader

/-! ## The store of blocks -/

def takeBlock (downloader : BodyDownloader Peer) (hash : Hash) :
    Option Block × BodyDownloader Peer :=
  (downloader.downloaded.lookup hash,
    { downloader with downloaded := downloader.downloaded.erase hash })

def allNeededPermanentlyFailed (downloader : BodyDownloader Peer) (needed : List Hash) : Bool :=
  decide (needed ≠ []) &&
    needed.all fun hash =>
      decide (hash ∈ downloader.permanentlyFailed) || decide (hash ∈ downloader.downloaded)

def clear (downloader : BodyDownloader Peer) : BodyDownloader Peer :=
  { downloader with
    activeRequests := ∅
    inFlight := ∅
    downloaded := ∅
    failed := []
    failureCount := ∅
    failedPeers := ∅
    permanentlyFailed := ∅ }

end BodyDownloader

/-- A call of the sync manager. -/
inductive BodyEvent (Peer : Type) where
  | nextRequest (needed : List Hash) (availablePeers : List Peer) (now sentAt : Nat)
      (iteration : Iteration Hash)
  | processResponse (peer : Peer) (bodies : List Block) (refuse : Hash → Block → Bool)
      (now : Nat)
  | cancelPeer (peer : Peer)
  | cleanupTimeouts (now : Nat) (iteration : Iteration Peer)
  | expirePermanentlyFailed (now : Nat) (iteration : Iteration Hash)
  | takeBlock (hash : Hash)
  | clear

def bodyStep {Peer : Type} [DecidableEq Peer] (blake3 : Bytes → Hash)
    (downloader : BodyDownloader Peer) : BodyEvent Peer → BodyDownloader Peer
  | .nextRequest needed availablePeers now sentAt iteration =>
      (downloader.nextRequest needed availablePeers now sentAt iteration).2
  | .processResponse peer bodies refuse now =>
      (downloader.processResponseRefusing blake3 peer bodies refuse now).2
  | .cancelPeer peer => downloader.cancelPeer peer
  | .cleanupTimeouts now iteration => downloader.cleanupTimeouts now iteration
  | .expirePermanentlyFailed now iteration => downloader.expirePermanentlyFailed now iteration
  | .takeBlock hash => (downloader.takeBlock hash).2
  | .clear => downloader.clear

/-! ## The hashes in flight -/

namespace BodyDownloader

variable {Peer : Type} [DecidableEq Peer] {downloader next : BodyDownloader Peer}
  {blake3 : Bytes → Hash} {peer : Peer} {hash : Hash}

/-- The bookkeeping of the requests. -/
structure Tracked (blake3 : Bytes → Hash) (downloader : BodyDownloader Peer) : Prop where
  inFlight : ∀ hash, hash ∈ downloader.inFlight ↔ ∃ peer, hash ∈ downloader.requestHashes peer
  onePeer : ∀ hash first second, hash ∈ downloader.requestHashes first →
    hash ∈ downloader.requestHashes second → first = second
  room : downloader.activeRequests.keys.card ≤ downloader.maxConcurrentRequests
  sized : ∀ peer request, downloader.activeRequests.lookup peer = some request →
    request.hashes ≠ [] ∧ request.hashes.length ≤ downloader.maxBodiesPerRequest
  keyed : ∀ hash block, downloader.downloaded.lookup hash = some block →
    block.header.hash blake3 = hash

theorem tracked_clear (downloader : BodyDownloader Peer) : Tracked blake3 downloader.clear where
  inFlight := by simp [clear, requestHashes]
  onePeer := by simp [clear, requestHashes]
  room := by simp [clear]
  sized := by simp [clear]
  keyed := by simp [clear]

theorem tracked_new (maxBodies maxConcurrent timeout : Nat) :
    Tracked blake3 (new maxBodies maxConcurrent timeout : BodyDownloader Peer) :=
  tracked_clear (new maxBodies maxConcurrent timeout)

theorem mem_valid : hash ∈ downloader.valid ↔ ∃ peer, hash ∈ downloader.requestHashes peer := by
  simp only [valid, Finset.mem_biUnion, List.mem_toFinset, Finmap.mem_keys]
  constructor
  · rintro ⟨peer, -, hhash⟩
    exact ⟨peer, hhash⟩
  · rintro ⟨peer, hhash⟩
    refine ⟨peer, ?_, hhash⟩
    by_contra hpeer
    simp [requestHashes, Finmap.lookup_eq_none.mpr hpeer] at hhash

theorem card_valid_le (downloader : BodyDownloader Peer) :
    downloader.valid.card ≤ downloader.expectedInFlight := by
  refine Finset.card_biUnion_le.trans (Finset.sum_le_sum fun peer _ => ?_)
  exact List.toFinset_card_le _

theorem Tracked.releaseOrphaned (htracked : Tracked blake3 downloader)
    (iteration : Iteration Hash) : downloader.releaseOrphaned iteration = downloader := by
  have hvalid : downloader.inFlight = downloader.valid := by
    ext hash
    rw [htracked.inFlight, mem_valid]
  have hcard := card_valid_le downloader
  rw [BodyDownloader.releaseOrphaned, if_neg (by rw [hvalid]; omega)]

/-- What the requests see of a downloader. -/
structure SameRequests (first second : BodyDownloader Peer) : Prop where
  maxBodies : second.maxBodiesPerRequest = first.maxBodiesPerRequest
  maxConcurrent : second.maxConcurrentRequests = first.maxConcurrentRequests
  activeRequests : second.activeRequests = first.activeRequests
  inFlight : second.inFlight = first.inFlight
  downloaded : second.downloaded = first.downloaded

theorem SameRequests.requestHashes (hsame : SameRequests downloader next) (peer : Peer) :
    next.requestHashes peer = downloader.requestHashes peer := by
  simp [BodyDownloader.requestHashes, hsame.activeRequests]

theorem Tracked.of_same (htracked : Tracked blake3 downloader)
    (hsame : SameRequests downloader next) : Tracked blake3 next where
  inFlight hash := by simpa [hsame.inFlight, hsame.requestHashes] using htracked.inFlight hash
  onePeer := by simpa [hsame.requestHashes] using htracked.onePeer
  room := by simpa [hsame.activeRequests, hsame.maxConcurrent] using htracked.room
  sized := by simpa [hsame.activeRequests, hsame.maxBodies] using htracked.sized
  keyed := by simpa [hsame.downloaded] using htracked.keyed

/-! ### Expiry -/

/-- A hash that was given up was missing from three answers. -/
def Exhausted (downloader : BodyDownloader Peer) : Prop :=
  ∀ hash ∈ downloader.permanentlyFailed,
    ∃ count, downloader.failureCount.lookup hash = some count ∧ 3 ≤ count

theorem foldl_retryExpired (hashes : List Hash) (downloader : BodyDownloader Peer) :
    hashes.foldl retryExpired downloader =
      { downloader with
        permanentlyFailed := Journal.eraseAll hashes downloader.permanentlyFailed
        failureCount := Journal.eraseAll hashes downloader.failureCount
        failedPeers := Journal.eraseAll hashes downloader.failedPeers
        failed := downloader.failed ++ hashes } := by
  induction hashes generalizing downloader with
  | nil => simp [Journal.eraseAll]
  | cons hash hashes ih => rw [List.foldl_cons, ih]; simp [retryExpired, Journal.eraseAll]

theorem exhausted_expire (hexhausted : Exhausted downloader) (now : Nat)
    (iteration : Iteration Hash) :
    Exhausted (downloader.expirePermanentlyFailed now iteration) := by
  rw [expirePermanentlyFailed, foldl_retryExpired]
  intro hash hhash
  obtain ⟨hmem, hnot⟩ := Journal.mem_eraseAll.mp hhash
  obtain ⟨count, hcount, hthree⟩ := hexhausted hash hmem
  exact ⟨count, by rw [Journal.lookup_eraseAll, if_neg hnot, hcount], hthree⟩

theorem mem_expire {now : Nat} {iteration : Iteration Hash}
    (hhash : hash ∈ (downloader.expirePermanentlyFailed now iteration).permanentlyFailed) :
    hash ∈ downloader.permanentlyFailed := by
  rw [expirePermanentlyFailed, foldl_retryExpired] at hhash
  exact (Journal.mem_eraseAll.mp hhash).1

theorem expire_carries (now : Nat) (iteration : Iteration Hash)
    (hhash : hash ∈ downloader.failed ∨ hash ∈ downloader.permanentlyFailed) :
    hash ∈ (downloader.expirePermanentlyFailed now iteration).failed ∨
      hash ∈ (downloader.expirePermanentlyFailed now iteration).permanentlyFailed := by
  rw [expirePermanentlyFailed, foldl_retryExpired]
  rcases hhash with hhash | hhash
  · exact .inl (List.mem_append_left _ hhash)
  · by_cases hmem : hash ∈ iteration.order (downloader.expired now)
    · exact .inl (List.mem_append_right _ hmem)
    · exact .inr (Journal.mem_eraseAll.mpr ⟨hhash, hmem⟩)

theorem sameRequests_expire (downloader : BodyDownloader Peer) (now : Nat)
    (iteration : Iteration Hash) :
    SameRequests downloader (downloader.expirePermanentlyFailed now iteration) := by
  rw [expirePermanentlyFailed, foldl_retryExpired]
  exact ⟨rfl, rfl, rfl, rfl, rfl⟩

/-! ### A request ends -/

/-- The request of `peer` is over and its hashes are no longer in flight. -/
structure Closed (peer : Peer) (request : BodyRequest Peer)
    (downloader next : BodyDownloader Peer) : Prop where
  maxBodies : next.maxBodiesPerRequest = downloader.maxBodiesPerRequest
  maxConcurrent : next.maxConcurrentRequests = downloader.maxConcurrentRequests
  activeRequests : next.activeRequests = downloader.activeRequests.erase peer
  inFlight : next.inFlight = downloader.inFlight \ request.hashes.toFinset

theorem Closed.requestHashes {request : BodyRequest Peer}
    (hclosed : Closed peer request downloader next) (other : Peer) :
    next.requestHashes other = if other = peer then [] else downloader.requestHashes other := by
  unfold BodyDownloader.requestHashes
  rw [hclosed.activeRequests]
  by_cases hother : other = peer
  · rw [hother, Finmap.lookup_erase, if_pos rfl]
  · rw [Finmap.lookup_erase_ne hother, if_neg hother]

theorem Tracked.close {request : BodyRequest Peer} (htracked : Tracked blake3 downloader)
    (hlookup : downloader.activeRequests.lookup peer = some request)
    (hclosed : Closed peer request downloader next)
    (hkeyed : ∀ hash block, next.downloaded.lookup hash = some block →
      block.header.hash blake3 = hash) : Tracked blake3 next where
  inFlight hash := by
    have hpeer : downloader.requestHashes peer = request.hashes := by
      simp [BodyDownloader.requestHashes, hlookup]
    rw [hclosed.inFlight, Finset.mem_sdiff, List.mem_toFinset, ← hpeer, htracked.inFlight]
    simp only [hclosed.requestHashes]
    constructor
    · rintro ⟨⟨other, hother⟩, hnot⟩
      have hne : other ≠ peer := fun heq => hnot (heq ▸ hother)
      exact ⟨other, by rwa [if_neg hne]⟩
    · rintro ⟨other, hother⟩
      split at hother
      · simp at hother
      case isFalse hne =>
        exact ⟨⟨other, hother⟩, fun hmem => hne (htracked.onePeer hash _ _ hother hmem)⟩
  onePeer hash first second hfirst hsecond := by
    rw [hclosed.requestHashes] at hfirst hsecond
    split at hfirst
    · simp at hfirst
    · split at hsecond
      · simp at hsecond
      · exact htracked.onePeer hash first second hfirst hsecond
  room := by
    rw [hclosed.activeRequests, hclosed.maxConcurrent, Finmap.keys_erase]
    exact (Finset.card_le_card (Finset.erase_subset _ _)).trans htracked.room
  sized other otherRequest hother := by
    rw [hclosed.activeRequests] at hother
    rw [hclosed.maxBodies]
    refine htracked.sized other otherRequest ?_
    rwa [Finmap.lookup_erase_ne] at hother
    rintro rfl
    simp at hother
  keyed := hkeyed

theorem foldl_requeue (hashes : List Hash) (downloader : BodyDownloader Peer) :
    hashes.foldl requeue downloader =
      { downloader with
        inFlight := downloader.inFlight \ hashes.toFinset
        failed := downloader.failed ++ hashes } := by
  induction hashes generalizing downloader with
  | nil => simp
  | cons hash hashes ih =>
      rw [List.foldl_cons, ih]
      simp only [requeue, List.toFinset_cons, List.append_assoc, List.singleton_append]
      congr 1
      ext other
      simp only [Finset.mem_sdiff, Finset.mem_erase, Finset.mem_insert]
      tauto

theorem Tracked.handleTimeout (htracked : Tracked blake3 downloader) (peer : Peer) :
    Tracked blake3 (downloader.handleTimeout peer) := by
  unfold BodyDownloader.handleTimeout
  split
  · exact htracked
  case h_2 request hlookup =>
    rw [foldl_requeue]
    exact htracked.close hlookup ⟨rfl, rfl, rfl, rfl⟩ htracked.keyed

theorem Tracked.cleanupTimeouts (htracked : Tracked blake3 downloader) (now : Nat)
    (iteration : Iteration Peer) : Tracked blake3 (downloader.cleanupTimeouts now iteration) :=
  foldl_invariant (fun _ downloader => Tracked blake3 downloader) htracked
    fun _ peer _ _ _ hcurrent => hcurrent.handleTimeout peer

/-! ### An answer -/

/-- What the bodies `done` of an answer have changed. -/
structure Intaken (blake3 : Bytes → Hash) (requested : List Hash)
    (refuse : Hash → Block → Bool) (start : BodyDownloader Peer) (done : List Block)
    (intake : BodyIntake Peer) : Prop where
  frame : intake.downloader =
    { start with
      inFlight := start.inFlight \ intake.received
      downloaded := intake.downloader.downloaded
      totalDownloaded := intake.downloader.totalDownloaded }
  received : ∀ hash, hash ∈ intake.received ↔
    hash ∈ requested ∧ hash ∈ intake.accepted.map (·.header.hash blake3)
  refused : ∀ hash ∈ intake.refused, hash ∈ requested ∧
    ∃ block ∈ done, block.header.hash blake3 = hash ∧ refuse hash block = true
  accepted : ∀ block ∈ intake.accepted, block ∈ done ∧
    block.header.hash blake3 ∈ requested ∧ refuse (block.header.hash blake3) block = false
  downloaded : ∀ hash block, intake.downloader.downloaded.lookup hash = some block →
    start.downloaded.lookup hash = some block ∨
      block.header.hash blake3 = hash ∧ hash ∈ intake.received

theorem Intaken.snoc {requested : List Hash} {refuse : Hash → Block → Bool}
    {done : List Block} {intake : BodyIntake Peer} {block : Block}
    (hintake : Intaken blake3 requested refuse downloader done intake) :
    Intaken blake3 requested refuse downloader (done ++ [block])
      (intakeBody blake3 requested refuse intake block) := by
  have hdone : ∀ other ∈ done, other ∈ done ++ [block] := fun _ => List.mem_append_left _
  have hlast : block ∈ done ++ [block] := by simp
  unfold intakeBody
  dsimp only
  split
  case isTrue =>
    exact ⟨hintake.frame, hintake.received,
      fun hash hhash => ⟨(hintake.refused hash hhash).1, by
        obtain ⟨other, hother, heq⟩ := (hintake.refused hash hhash).2
        exact ⟨other, hdone other hother, heq⟩⟩,
      fun other hother => ⟨hdone _ (hintake.accepted other hother).1,
        (hintake.accepted other hother).2⟩,
      hintake.downloaded⟩
  case isFalse hrequested =>
    rw [not_not] at hrequested
    split
    case isTrue hrefuse =>
      refine ⟨hintake.frame, hintake.received, fun hash hhash => ?_,
        fun other hother => ⟨hdone _ (hintake.accepted other hother).1,
          (hintake.accepted other hother).2⟩, hintake.downloaded⟩
      rcases Finset.mem_insert.mp hhash with rfl | hhash
      · exact ⟨hrequested, block, hlast, rfl, hrefuse⟩
      · obtain ⟨hmem, other, hother, heq⟩ := hintake.refused hash hhash
        exact ⟨hmem, other, hdone other hother, heq⟩
    case isFalse hrefuse =>
      refine ⟨?_, fun hash => ?_, fun hash hhash => ?_, fun other hother => ?_,
        fun hash other hother => ?_⟩
      · have hframe := hintake.frame
        rw [hframe]
        simp only [BodyDownloader.mk.injEq, and_true, true_and]
        ext hash
        simp only [Finset.mem_erase, Finset.mem_sdiff, Finset.mem_insert]
        tauto
      · simp only [Finset.mem_insert, hintake.received, List.map_append, List.map_cons,
          List.map_nil, List.mem_append, List.mem_singleton]
        constructor
        · rintro (rfl | ⟨hmem, haccepted⟩)
          · exact ⟨hrequested, .inr rfl⟩
          · exact ⟨hmem, .inl haccepted⟩
        · rintro ⟨hmem, haccepted | rfl⟩
          · exact .inr ⟨hmem, haccepted⟩
          · exact .inl rfl
      · obtain ⟨hmem, other, hother, heq⟩ := hintake.refused hash hhash
        exact ⟨hmem, other, hdone other hother, heq⟩
      · rcases List.mem_append.mp hother with hother | hother
        · exact ⟨hdone _ (hintake.accepted other hother).1, (hintake.accepted other hother).2⟩
        · obtain rfl := List.mem_singleton.mp hother
          exact ⟨hlast, hrequested, by simpa using hrefuse⟩
      · by_cases heq : hash = block.header.hash blake3
        · rw [heq, Finmap.lookup_insert] at hother
          obtain rfl := Option.some.inj hother
          exact .inr ⟨heq.symm, heq ▸ Finset.mem_insert_self _ _⟩
        · rw [Finmap.lookup_insert_of_ne _ heq] at hother
          exact (hintake.downloaded hash other hother).imp_right
            fun h => ⟨h.1, Finset.mem_insert_of_mem h.2⟩

theorem intaken (downloader : BodyDownloader Peer) (requested : List Hash)
    (bodies : List Block) (refuse : Hash → Block → Bool) :
    Intaken blake3 requested refuse downloader bodies
      (downloader.intakeBodies blake3 requested bodies refuse) := by
  refine foldl_invariant (Intaken blake3 requested refuse downloader) ?_
    fun done block _ _ _ hintake => hintake.snoc
  exact ⟨by simp, by simp, by simp, by simp, fun _ _ hlookup => .inl hlookup⟩

/-- What the hashes `done` of a request have changed after its answer. -/
structure Marked (received refused : Finset Hash) (start : BodyDownloader Peer)
    (done : List Hash) (marked : BodyDownloader Peer) : Prop where
  maxBodies : marked.maxBodiesPerRequest = start.maxBodiesPerRequest
  maxConcurrent : marked.maxConcurrentRequests = start.maxConcurrentRequests
  activeRequests : marked.activeRequests = start.activeRequests
  downloaded : marked.downloaded = start.downloaded
  inFlight : ∀ hash, hash ∈ marked.inFlight ↔
    hash ∈ start.inFlight ∧ (hash ∈ done → hash ∈ received)
  failed : ∀ hash ∈ start.failed, hash ∈ marked.failed
  permanentlyFailed : ∀ hash ∈ start.permanentlyFailed, hash ∈ marked.permanentlyFailed
  kept : ∀ hash ∈ done, hash ∈ received ∨ hash ∈ refused ∨ hash ∈ marked.failed ∨
    hash ∈ marked.permanentlyFailed
  given : ∀ hash ∈ marked.permanentlyFailed,
    hash ∈ start.permanentlyFailed ∨ hash ∈ done ∧ hash ∉ received
  exhausted : Exhausted start → Exhausted marked

theorem Marked.snoc {received refused : Finset Hash} {start current : BodyDownloader Peer}
    {done : List Hash} (hmarked : Marked received refused start done current) (peer : Peer)
    (now : Nat) (hash : Hash) :
    Marked received refused start (done ++ [hash])
      (markMissing peer now received refused current hash) := by
  have herase : ∀ other, other ∈ current.inFlight.erase hash ∧ hash ∉ received ↔
      (other ∈ start.inFlight ∧ (other ∈ done ++ [hash] → other ∈ received)) ∧
        hash ∉ received := by
    intro other
    simp only [Finset.mem_erase, hmarked.inFlight, List.mem_append, List.mem_singleton]
    constructor
    · rintro ⟨⟨hne, hstart, hdone⟩, hreceived⟩
      exact ⟨⟨hstart, fun hmem => hmem.elim hdone fun heq => absurd heq hne⟩, hreceived⟩
    · rintro ⟨⟨hstart, hall⟩, hreceived⟩
      refine ⟨⟨fun heq => hreceived (heq ▸ hall (.inr heq)), hstart, fun hmem => ?_⟩, hreceived⟩
      exact hall (.inl hmem)
  unfold markMissing
  split
  case isTrue hreceived =>
    refine { hmarked with
      inFlight := fun other => ?_
      kept := fun other hother => ?_
      given := fun other hother => (hmarked.given other hother).imp_right
        fun hdone => ⟨List.mem_append_left _ hdone.1, hdone.2⟩ }
    · rw [hmarked.inFlight]
      simp only [List.mem_append, List.mem_singleton]
      refine and_congr_right fun _ => ⟨fun hall hmem => ?_, fun hall hmem => hall (.inl hmem)⟩
      exact hmem.elim hall fun heq => heq ▸ hreceived
    · rcases List.mem_append.mp hother with hother | hother
      · exact hmarked.kept other hother
      · exact .inl (List.mem_singleton.mp hother ▸ hreceived)
  case isFalse hreceived =>
    have hinFlight : ∀ other, other ∈ current.inFlight.erase hash ↔
        other ∈ start.inFlight ∧ (other ∈ done ++ [hash] → other ∈ received) := fun other =>
      ⟨fun hmem => ((herase other).mp ⟨hmem, hreceived⟩).1,
        fun hmem => ((herase other).mpr ⟨hmem, hreceived⟩).1⟩
    have hkept : ∀ (failed : List Hash) (rows : Column Hash Nat),
        (∀ other ∈ current.failed, other ∈ failed) →
        (∀ other ∈ current.permanentlyFailed, other ∈ rows) →
        (hash ∈ refused ∨ hash ∈ failed ∨ hash ∈ rows) →
        ∀ other ∈ done ++ [hash], other ∈ received ∨ other ∈ refused ∨ other ∈ failed ∨
          other ∈ rows := by
      intro failed rows hfailed hrows hlast other hother
      rcases List.mem_append.mp hother with hother | hother
      · rcases hmarked.kept other hother with hkept | hkept | hkept | hkept
        · exact .inl hkept
        · exact .inr (.inl hkept)
        · exact .inr (.inr (.inl (hfailed other hkept)))
        · exact .inr (.inr (.inr (hrows other hkept)))
      · exact .inr (List.mem_singleton.mp hother ▸ hlast)
    have hgiven : ∀ other ∈ current.permanentlyFailed,
        other ∈ start.permanentlyFailed ∨ other ∈ done ++ [hash] ∧ other ∉ received :=
      fun other hother => (hmarked.given other hother).imp_right
        fun hdone => ⟨List.mem_append_left _ hdone.1, hdone.2⟩
    have hcount : Exhausted start → ∀ count, current.failureCount.lookup hash = none ∨
        (∃ old, current.failureCount.lookup hash = some old ∧ old ≤ count) →
        ∀ other ∈ current.permanentlyFailed, ∃ total,
          (current.failureCount.insert hash count).lookup other = some total ∧ 3 ≤ total := by
      intro hstart count hold other hother
      obtain ⟨total, htotal, hthree⟩ := hmarked.exhausted hstart other hother
      by_cases heq : other = hash
      · subst heq
        refine ⟨count, Finmap.lookup_insert _, ?_⟩
        rcases hold with hold | ⟨old, hold, hle⟩
        · rw [hold] at htotal
          simp at htotal
        · obtain rfl := Option.some.inj (hold.symm.trans htotal)
          omega
      · exact ⟨total, by rwa [Finmap.lookup_insert_of_ne _ heq], hthree⟩
    have hmore : current.failureCount.lookup hash = none ∨
        ∃ old, current.failureCount.lookup hash = some old ∧
          old ≤ (current.failureCount.lookup hash).getD 0 + 1 := by
      cases hlookup : current.failureCount.lookup hash with
      | none => exact .inl rfl
      | some old => exact .inr ⟨old, rfl, by simp⟩
    dsimp only
    split
    case isTrue hrefused =>
      exact { hmarked with
        inFlight := hinFlight
        given := hgiven
        kept := hkept _ _ (fun _ => id) (fun _ => id) (.inl hrefused) }
    case isFalse =>
      split
      · have hrows : ∀ other ∈ current.permanentlyFailed,
            other ∈ current.permanentlyFailed.insert hash now := fun other hother =>
          Finmap.mem_insert.mpr (.inr hother)
        exact { hmarked with
          inFlight := hinFlight
          permanentlyFailed := fun other hother =>
            hrows other (hmarked.permanentlyFailed other hother)
          given := by
            intro other hother
            rcases Finmap.mem_insert.mp hother with rfl | hother
            · exact .inr ⟨by simp, hreceived⟩
            · exact hgiven other hother
          exhausted := by
            intro hstart other hother
            rcases Finmap.mem_insert.mp hother with rfl | hother
            · exact ⟨_, Finmap.lookup_insert _, ‹_›⟩
            · exact hcount hstart _ hmore other hother
          kept := hkept _ _ (fun _ => id) hrows
            (.inr (.inr (Finmap.mem_insert.mpr (.inl rfl)))) }
      · have hqueue : ∀ other ∈ current.failed, other ∈ current.failed ++ [hash] :=
          fun other => List.mem_append_left _
        exact { hmarked with
          inFlight := hinFlight
          given := hgiven
          exhausted := fun hstart => hcount hstart _ hmore
          failed := fun other hother => hqueue other (hmarked.failed other hother)
          kept := hkept _ _ hqueue (fun _ => id) (.inr (.inl (by simp))) }

theorem marked (downloader : BodyDownloader Peer) (peer : Peer) (now : Nat)
    (received refused : Finset Hash) (hashes : List Hash) :
    Marked received refused downloader hashes
      (hashes.foldl (markMissing peer now received refused) downloader) := by
  refine foldl_invariant (Marked received refused downloader) ?_
    fun done hash _ _ _ hmarked => hmarked.snoc peer now hash
  exact ⟨rfl, rfl, rfl, rfl, by simp, fun _ => id, fun _ => id, by simp, fun _ => .inl, id⟩

/-! ### A request -/

section Collecting

variable {skip : Hash → Bool} {max : Nat} {hashes failed needed : List Hash}

theorem takeFailed_spec (skip : Hash → Bool) (failed : List Hash) (hlength : hashes.length ≤ max) :
    (takeFailed skip max hashes failed).1.length ≤ max ∧
      (∀ hash ∈ hashes, hash ∈ (takeFailed skip max hashes failed).1) ∧
      (∀ hash ∈ (takeFailed skip max hashes failed).1,
        hash ∈ hashes ∨ hash ∈ failed ∧ skip hash = false) ∧
      ∀ hash ∈ failed, hash ∈ (takeFailed skip max hashes failed).1 ∨ skip hash = true ∨
        hash ∈ (takeFailed skip max hashes failed).2 := by
  induction failed generalizing hashes with
  | nil => exact ⟨hlength, fun _ => id, fun _ => .inl, by simp⟩
  | cons first failed ih =>
      unfold takeFailed
      split
      case isFalse => exact ⟨hlength, fun _ => id, fun _ => .inl, fun _ hhash => .inr (.inr hhash)⟩
      case isTrue hroom =>
        cases hskip : skip first with
        | true =>
            obtain ⟨hlen, hold, hfrom, hall⟩ := ih hlength
            refine ⟨hlen, hold, fun hash hhash => ?_, fun hash hhash => ?_⟩
            · exact (hfrom hash hhash).imp_right fun h => ⟨List.mem_cons_of_mem _ h.1, h.2⟩
            · rcases List.mem_cons.mp hhash with rfl | hhash
              · exact .inr (.inl hskip)
              · exact hall hash hhash
        | false =>
            have hlength' : (hashes ++ [first]).length ≤ max := by
              simp only [List.length_append, List.length_singleton]
              omega
            obtain ⟨hlen, hold, hfrom, hall⟩ := ih hlength'
            refine ⟨hlen, fun hash hhash => hold hash (List.mem_append_left _ hhash),
              fun hash hhash => ?_, fun hash hhash => ?_⟩
            · rcases hfrom hash hhash with h | h
              · rcases List.mem_append.mp h with h | h
                · exact .inl h
                · obtain rfl := List.mem_singleton.mp h
                  exact .inr ⟨List.mem_cons_self, hskip⟩
              · exact .inr ⟨List.mem_cons_of_mem _ h.1, h.2⟩
            · rcases List.mem_cons.mp hhash with rfl | hhash
              · exact .inl (hold hash (by simp))
              · exact hall hash hhash

theorem takeNeeded_spec (skip : Hash → Bool) (needed : List Hash) (hlength : hashes.length ≤ max) :
    (takeNeeded skip max hashes needed).length ≤ max ∧
      (∀ hash ∈ hashes, hash ∈ takeNeeded skip max hashes needed) ∧
      ∀ hash ∈ takeNeeded skip max hashes needed,
        hash ∈ hashes ∨ hash ∈ needed ∧ skip hash = false := by
  induction needed generalizing hashes with
  | nil => exact ⟨hlength, fun _ => id, fun _ => .inl⟩
  | cons first needed ih =>
      unfold takeNeeded
      split
      case isTrue => exact ⟨hlength, fun _ => id, fun _ => .inl⟩
      case isFalse hroom =>
        cases hskip : skip first with
        | true =>
            obtain ⟨hlen, hold, hfrom⟩ := ih hlength
            exact ⟨hlen, hold, fun hash hhash =>
              (hfrom hash hhash).imp_right fun h => ⟨List.mem_cons_of_mem _ h.1, h.2⟩⟩
        | false =>
            have hlength' : (hashes ++ [first]).length ≤ max := by
              simp only [List.length_append, List.length_singleton]
              omega
            obtain ⟨hlen, hold, hfrom⟩ := ih hlength'
            refine ⟨hlen, fun hash hhash => hold hash (List.mem_append_left _ hhash),
              fun hash hhash => ?_⟩
            rcases hfrom hash hhash with h | h
            · rcases List.mem_append.mp h with h | h
              · exact .inl h
              · obtain rfl := List.mem_singleton.mp h
                exact .inr ⟨List.mem_cons_self, hskip⟩
            · exact .inr ⟨List.mem_cons_of_mem _ h.1, h.2⟩

theorem takeNeeded_nil_eq_nil (hmax : 0 < max) :
    takeNeeded skip max [] needed = [] ↔ ∀ hash ∈ needed, skip hash = true := by
  induction needed with
  | nil => simp [takeNeeded]
  | cons first needed ih =>
      unfold takeNeeded
      rw [if_neg (by rw [List.length_nil]; omega)]
      cases hskip : skip first with
      | true => simpa [hskip] using ih
      | false =>
          have hlength : [first].length ≤ max := hmax
          have hfirst := (takeNeeded_spec skip needed hlength).2.1 first List.mem_cons_self
          simp only [List.nil_append, Bool.false_eq_true, if_false]
          constructor
          · intro hnil
            rw [hnil] at hfirst
            simp at hfirst
          · intro hall
            simp [hall first List.mem_cons_self] at hskip

end Collecting

theorem selectPeer_isSome (downloader : BodyDownloader Peer) {free : List Peer}
    (hfree : free ≠ []) (firstHash : Hash) :
    ∃ peer ∈ free, downloader.selectPeer free firstHash = some peer := by
  have hpick : ∀ candidates : List Peer, candidates ≠ [] → candidates ⊆ free →
      ∃ peer ∈ free, candidates[downloader.nextPeerIndex % candidates.length]? = some peer := by
    intro candidates hne hsub
    have hlt := Nat.mod_lt downloader.nextPeerIndex (List.length_pos_of_ne_nil hne)
    exact ⟨_, hsub (List.getElem_mem hlt), List.getElem?_eq_getElem hlt⟩
  unfold selectPeer
  dsimp only
  split
  · exact hpick free hfree (List.Subset.refl _)
  case isFalse hne => exact hpick _ hne (List.filter_subset_self _)

/-- What `next_request` keeps of the hashes that wait. -/
def Carried (downloader next : BodyDownloader Peer) : Prop :=
  (∀ hash ∈ downloader.inFlight, hash ∈ next.inFlight) ∧
    ∀ hash, hash ∈ downloader.failed ∨ hash ∈ downloader.permanentlyFailed →
      hash ∈ next.inFlight ∨ hash ∈ next.failed ∨ hash ∈ next.permanentlyFailed

/-- A request for `hashes` was sent to `peer`. -/
structure Opened (peer : Peer) (hashes : List Hash) (sentAt : Nat)
    (downloader next : BodyDownloader Peer) : Prop where
  maxBodies : next.maxBodiesPerRequest = downloader.maxBodiesPerRequest
  maxConcurrent : next.maxConcurrentRequests = downloader.maxConcurrentRequests
  activeRequests : next.activeRequests =
    downloader.activeRequests.insert peer { hashes := hashes, peer := peer, sentAt := sentAt }
  inFlight : next.inFlight = downloader.inFlight ∪ hashes.toFinset
  downloaded : next.downloaded = downloader.downloaded
  room : downloader.activeRequests.keys.card < downloader.maxConcurrentRequests
  free : peer ∉ downloader.activeRequests
  sized : hashes ≠ [] ∧ hashes.length ≤ downloader.maxBodiesPerRequest
  fresh : ∀ hash ∈ hashes, hash ∉ downloader.inFlight

theorem collect_spec (htracked : Tracked blake3 downloader) (needed : List Hash) (now : Nat)
    (iteration : Iteration Hash) :
    SameRequests downloader (downloader.collect needed now iteration).2 ∧
      (downloader.collect needed now iteration).1.length ≤ downloader.maxBodiesPerRequest ∧
      (∀ hash ∈ (downloader.collect needed now iteration).1,
        hash ∉ downloader.inFlight ∧
          hash ∉ (downloader.collect needed now iteration).2.permanentlyFailed) ∧
      ∀ hash, hash ∈ downloader.failed ∨ hash ∈ downloader.permanentlyFailed →
        hash ∈ (downloader.collect needed now iteration).1 ∨ hash ∈ downloader.inFlight ∨
          hash ∈ (downloader.collect needed now iteration).2.failed ∨
          hash ∈ (downloader.collect needed now iteration).2.permanentlyFailed := by
  have hsame := sameRequests_expire downloader now iteration
  simp only [collect, htracked.releaseOrphaned iteration]
  generalize hexpired : downloader.expirePermanentlyFailed now iteration = expired at hsame ⊢
  have hcarried : ∀ hash, hash ∈ downloader.failed ∨ hash ∈ downloader.permanentlyFailed →
      hash ∈ expired.failed ∨ hash ∈ expired.permanentlyFailed := fun hash hhash =>
    hexpired ▸ expire_carries now iteration hhash
  have hnone : ([] : List Hash).length ≤ expired.maxBodiesPerRequest := Nat.zero_le _
  obtain ⟨hlen, hold, hfrom, hall⟩ :=
    takeFailed_spec expired.skipFailed expired.failed hnone
  obtain ⟨hlen', hold', hfrom'⟩ := takeNeeded_spec expired.skipNeeded needed hlen
  refine ⟨⟨hsame.1, hsame.2, hsame.3, hsame.4, hsame.5⟩, hsame.maxBodies ▸ hlen',
    fun hash hhash => ?_, fun hash hhash => ?_⟩
  · rcases hfrom' hash hhash with h | ⟨-, hskip⟩
    · rcases hfrom hash h with h | ⟨-, hskip⟩
      · simp at h
      · simpa [skipFailed, hsame.inFlight] using hskip
    · rw [← hsame.inFlight]
      simp only [skipNeeded, Bool.or_eq_false_iff, decide_eq_false_iff_not] at hskip
      exact ⟨hskip.1.1, hskip.2⟩
  · rcases hcarried hash hhash with h | h
    · rcases hall hash h with h | hskip | h
      · exact .inl (hold' hash h)
      · simp only [skipFailed, Bool.or_eq_true, decide_eq_true_eq, hsame.inFlight] at hskip
        exact .inr (hskip.imp_right .inr)
      · exact .inr (.inr (.inl h))
    · exact .inr (.inr (.inr h))

theorem nextRequest_cases (htracked : Tracked blake3 downloader) (needed : List Hash)
    (availablePeers : List Peer) (now sentAt : Nat) (iteration : Iteration Hash) :
    let result := downloader.nextRequest needed availablePeers now sentAt iteration
    Carried downloader result.2 ∧
      (∀ hash ∈ result.2.permanentlyFailed, hash ∈ downloader.permanentlyFailed) ∧
      (Exhausted downloader → Exhausted result.2) ∧
      (result.1 = none ∧ SameRequests downloader result.2 ∨
        ∃ peer hashes, result.1 = some (peer, hashes) ∧
          Opened peer hashes sentAt downloader result.2 ∧
          ∀ hash ∈ hashes, hash ∉ result.2.permanentlyFailed) := by
  have hself : Carried downloader downloader := ⟨fun _ => id, fun _ => .inr⟩
  obtain ⟨hsame, hlength, hfresh, hall⟩ := collect_spec htracked needed now iteration
  have hless : ∀ hash ∈ (downloader.collect needed now iteration).2.permanentlyFailed,
      hash ∈ downloader.permanentlyFailed := by
    simp only [collect, htracked.releaseOrphaned iteration]
    exact fun hash => mem_expire
  have hexhausted : Exhausted downloader →
      Exhausted (downloader.collect needed now iteration).2 := by
    simp only [collect, htracked.releaseOrphaned iteration]
    exact fun hstart => exhausted_expire hstart now iteration
  dsimp only [nextRequest]
  split
  · exact ⟨hself, fun _ => id, id, .inl ⟨rfl, rfl, rfl, rfl, rfl, rfl⟩⟩
  case isFalse hroom =>
    split
    · exact ⟨hself, fun _ => id, id, .inl ⟨rfl, rfl, rfl, rfl, rfl, rfl⟩⟩
    case isFalse hfree =>
      generalize downloader.collect needed now iteration = collected at *
      obtain ⟨hashes, current⟩ := collected
      cases hashes with
      | nil =>
          refine ⟨⟨fun hash hhash => ?_, fun hash hhash => ?_⟩, hless, hexhausted,
            .inl ⟨rfl, hsame⟩⟩
          · rwa [hsame.inFlight]
          · rw [hsame.inFlight]
            simpa using hall hash hhash
      | cons firstHash rest =>
          obtain ⟨peer, hpeer, hselect⟩ := current.selectPeer_isSome hfree firstHash
          have hfreePeer : peer ∉ downloader.activeRequests := by
            simpa using (List.mem_filter.mp hpeer).2
          simp only [hselect]
          refine ⟨⟨fun hash hhash => ?_, fun hash hhash => ?_⟩, hless, hexhausted,
            .inr ⟨peer, firstHash :: rest, rfl, ?_, fun hash hhash => (hfresh hash hhash).2⟩⟩
          · exact Finset.mem_union_left _ (by rwa [hsame.inFlight])
          · rcases hall hash hhash with h | h | h | h
            · exact .inl (Finset.mem_union_right _ (List.mem_toFinset.mpr h))
            · exact .inl (Finset.mem_union_left _ (by rwa [hsame.inFlight]))
            · exact .inr (.inl h)
            · exact .inr (.inr h)
          · exact ⟨hsame.maxBodies, hsame.maxConcurrent, by rw [hsame.activeRequests],
              by rw [hsame.inFlight], hsame.downloaded, by omega, hfreePeer,
              ⟨List.cons_ne_nil _ _, hlength⟩, fun hash hhash => (hfresh hash hhash).1⟩

theorem Tracked.opened {peer : Peer} {hashes : List Hash} {sentAt : Nat}
    (htracked : Tracked blake3 downloader)
    (hopened : Opened peer hashes sentAt downloader next) : Tracked blake3 next := by
  have hrequest : ∀ other, next.requestHashes other =
      if other = peer then hashes else downloader.requestHashes other := by
    intro other
    unfold BodyDownloader.requestHashes
    rw [hopened.activeRequests]
    by_cases hother : other = peer
    · rw [hother, Finmap.lookup_insert, if_pos rfl]
    · rw [Finmap.lookup_insert_of_ne _ hother, if_neg hother]
  have hfree : downloader.requestHashes peer = [] := by
    simp [BodyDownloader.requestHashes, Finmap.lookup_eq_none.mpr hopened.free]
  refine ⟨fun hash => ?_, fun hash first second hfirst hsecond => ?_, ?_,
    fun other request hother => ?_, by simpa [hopened.downloaded] using htracked.keyed⟩
  · rw [hopened.inFlight, Finset.mem_union, List.mem_toFinset, htracked.inFlight]
    constructor
    · rintro (⟨other, hother⟩ | hhash)
      · refine ⟨other, ?_⟩
        rwa [hrequest, if_neg]
        rintro rfl
        simp [hfree] at hother
      · exact ⟨peer, by rwa [hrequest, if_pos rfl]⟩
    · rintro ⟨other, hother⟩
      rw [hrequest] at hother
      split at hother
      · exact .inr hother
      · exact .inl ⟨other, hother⟩
  · have hold : ∀ other, hash ∈ hashes → hash ∉ downloader.requestHashes other :=
      fun other hhash hmem =>
        hopened.fresh hash hhash ((htracked.inFlight hash).mpr ⟨other, hmem⟩)
    rw [hrequest] at hfirst hsecond
    split at hfirst
    case isTrue hpeer =>
      split at hsecond
      case isTrue hpeer' => rw [hpeer, hpeer']
      case isFalse => exact absurd hsecond (hold second hfirst)
    case isFalse =>
      split at hsecond
      · exact absurd hfirst (hold first hsecond)
      · exact htracked.onePeer hash first second hfirst hsecond
  · have hcard : (insert peer downloader.activeRequests.keys).card ≤
        downloader.activeRequests.keys.card + 1 := Finset.card_insert_le _ _
    have hroom := hopened.room
    rw [hopened.activeRequests, hopened.maxConcurrent, keys_insert]
    omega
  · rw [hopened.activeRequests] at hother
    rw [hopened.maxBodies]
    by_cases hpeer : other = peer
    · rw [hpeer, Finmap.lookup_insert] at hother
      obtain rfl := Option.some.inj hother
      exact hopened.sized
    · rw [Finmap.lookup_insert_of_ne _ hpeer] at hother
      exact htracked.sized other request hother

/-! ### Runs -/

theorem processResponse_spec (blake3 : Bytes → Hash) {request : BodyRequest Peer}
    (hlookup : downloader.activeRequests.lookup peer = some request) (bodies : List Block)
    (refuse : Hash → Block → Bool) (now : Nat) :
    ∃ intake : BodyIntake Peer, ∃ start : BodyDownloader Peer,
      Intaken blake3 request.hashes refuse
        { downloader with activeRequests := downloader.activeRequests.erase peer } bodies
        intake ∧
      start = intake.downloader ∧
      downloader.processResponseRefusing blake3 peer bodies refuse now =
        (intake.accepted,
          request.hashes.foldl (markMissing peer now intake.received intake.refused) start) ∧
      Marked intake.received intake.refused start request.hashes
        (downloader.processResponseRefusing blake3 peer bodies refuse now).2 := by
  refine ⟨_, _, intaken _ request.hashes bodies refuse, rfl, ?_, ?_⟩
  · rw [processResponseRefusing, hlookup]
  · rw [processResponseRefusing, hlookup]
    exact marked _ peer now _ _ request.hashes

theorem Tracked.processResponse (htracked : Tracked blake3 downloader) (peer : Peer)
    (bodies : List Block) (refuse : Hash → Block → Bool) (now : Nat) :
    Tracked blake3 (downloader.processResponseRefusing blake3 peer bodies refuse now).2 := by
  cases hlookup : downloader.activeRequests.lookup peer with
  | none => simpa [processResponseRefusing, hlookup] using htracked
  | some request =>
      obtain ⟨intake, start, hintaken, hstart, -, hmarked⟩ :=
        processResponse_spec blake3 hlookup bodies refuse now
      have hframe := hstart.trans hintaken.frame
      refine htracked.close hlookup ⟨?_, ?_, ?_, ?_⟩ fun hash block hblock => ?_
      · rw [hmarked.maxBodies, hframe]
      · rw [hmarked.maxConcurrent, hframe]
      · rw [hmarked.activeRequests, hframe]
      · ext hash
        rw [hmarked.inFlight, hframe]
        simp only [Finset.mem_sdiff, List.mem_toFinset]
        have hreceived := hintaken.received hash
        tauto
      · rw [hmarked.downloaded, hstart] at hblock
        exact (hintaken.downloaded hash block hblock).elim (htracked.keyed hash block) And.left

theorem Tracked.step (htracked : Tracked blake3 downloader) (event : BodyEvent Peer) :
    Tracked blake3 (bodyStep blake3 downloader event) := by
  cases event with
  | nextRequest needed availablePeers now sentAt iteration =>
      obtain ⟨-, -, -, ⟨-, hsame⟩ | ⟨peer, hashes, -, hopened, -⟩⟩ :=
        nextRequest_cases htracked needed availablePeers now sentAt iteration
      · exact htracked.of_same hsame
      · exact htracked.opened hopened
  | processResponse peer bodies refuse now => exact htracked.processResponse peer bodies refuse now
  | cancelPeer peer => exact htracked.handleTimeout peer
  | cleanupTimeouts now iteration => exact htracked.cleanupTimeouts now iteration
  | expirePermanentlyFailed now iteration =>
      exact htracked.of_same (sameRequests_expire _ now iteration)
  | takeBlock hash =>
      refine ⟨htracked.inFlight, htracked.onePeer, htracked.room, htracked.sized,
        fun other block hblock => htracked.keyed other block ?_⟩
      change (downloader.downloaded.erase hash).lookup other = some block at hblock
      by_cases hother : other = hash
      · rw [hother, Finmap.lookup_erase] at hblock
        simp at hblock
      · rwa [Finmap.lookup_erase_ne hother] at hblock
  | clear => exact tracked_clear downloader

end BodyDownloader

/-- Over any calls, what is in flight is what the open requests ask for, each body of one
peer only; so the repair of orphaned hashes never finds one. -/
theorem body_downloader_tracked {Peer : Type} [DecidableEq Peer] (blake3 : Bytes → Hash)
    (maxBodies maxConcurrent timeout : Nat) (events : List (BodyEvent Peer)) :
    EveryState (bodyStep blake3) (BodyDownloader.new maxBodies maxConcurrent timeout) events
      fun downloader => downloader.Tracked blake3 ∧
        ∀ iteration, downloader.releaseOrphaned iteration = downloader := by
  have hreached : EveryState (bodyStep blake3)
      (BodyDownloader.new maxBodies maxConcurrent timeout) events
      (BodyDownloader.Tracked blake3) :=
    everyState_of_keeps (BodyDownloader.tracked_new maxBodies maxConcurrent timeout)
      fun _ event htracked => htracked.step event
  intro done rest hevents
  have htracked := hreached done rest hevents
  exact ⟨htracked, htracked.releaseOrphaned⟩

end Doli.Network
