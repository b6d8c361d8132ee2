import Doli.Network.BodyDownload
import Doli.Producer.Persisted

/-!
# What becomes of a hash

A ledger beside the body downloader notes what was asked for and how it ended.  No hash is
forgotten on the way, and the downloader stalls only when there is nothing left to ask for.
-/

namespace Doli.Network

open Doli.Core Doli.Lib Doli.Producer
open Doli.Validation (Block)

/-- What was asked for since the downloader was last cleared, and how it ended. -/
structure BodyLedger where
  asked : Finset Hash
  delivered : Finset Hash
  refused : Finset Hash
  deriving DecidableEq

namespace BodyLedger

def empty : BodyLedger := ⟨∅, ∅, ∅⟩

section

variable {Peer : Type} [DecidableEq Peer] (blake3 : Bytes → Hash)

def refusedBy (downloader : BodyDownloader Peer) (peer : Peer) (bodies : List Block)
    (refuse : Hash → Block → Bool) : List Hash :=
  bodies.filterMap fun block =>
    let hash := block.header.hash blake3
    if hash ∈ downloader.requestHashes peer ∧ refuse hash block = true then some hash else none

def note (ledger : BodyLedger) (downloader : BodyDownloader Peer) : BodyEvent Peer → BodyLedger
  | .nextRequest needed availablePeers now sentAt iteration =>
      match (downloader.nextRequest needed availablePeers now sentAt iteration).1 with
      | some request => { ledger with asked := ledger.asked ∪ request.2.toFinset }
      | none => ledger
  | .processResponse peer bodies refuse now =>
      let accepted := (downloader.processResponseRefusing blake3 peer bodies refuse now).1
      { ledger with
        delivered := ledger.delivered ∪ (accepted.map (·.header.hash blake3)).toFinset
        refused := ledger.refused ∪ (refusedBy blake3 downloader peer bodies refuse).toFinset }
  | .clear => empty
  | _ => ledger

/-- A step of the downloader with the ledger kept beside it. -/
def step (state : BodyLedger × BodyDownloader Peer) (event : BodyEvent Peer) :
    BodyLedger × BodyDownloader Peer :=
  (state.1.note blake3 state.2 event, bodyStep blake3 state.2 event)

end

variable {Peer : Type} [DecidableEq Peer] {blake3 : Bytes → Hash} {ledger : BodyLedger}
  {downloader : BodyDownloader Peer}

/-- Where a hash that was asked for may be. -/
def Waits (downloader : BodyDownloader Peer) (hash : Hash) : Prop :=
  hash ∈ downloader.inFlight ∨ hash ∈ downloader.failed ∨ hash ∈ downloader.permanentlyFailed

structure Accounted (blake3 : Bytes → Hash) (state : BodyLedger × BodyDownloader Peer) :
    Prop where
  tracked : state.2.Tracked blake3
  kept : ∀ hash ∈ state.1.asked,
    Waits state.2 hash ∨ hash ∈ state.1.delivered ∨ hash ∈ state.1.refused
  inFlight : ∀ hash ∈ state.2.inFlight, hash ∈ state.1.asked
  downloaded : ∀ hash ∈ state.2.downloaded, hash ∈ state.1.delivered
  delivered : ∀ hash ∈ state.1.delivered, hash ∈ state.1.asked
  given : ∀ hash ∈ state.2.permanentlyFailed, hash ∉ state.2.inFlight
  exhausted : state.2.Exhausted

theorem mem_refusedBy {peer : Peer} {bodies : List Block} {refuse : Hash → Block → Bool}
    {hash : Hash} (hrequest : hash ∈ downloader.requestHashes peer)
    (hbody : ∃ block ∈ bodies, block.header.hash blake3 = hash ∧ refuse hash block = true) :
    hash ∈ refusedBy blake3 downloader peer bodies refuse := by
  obtain ⟨block, hblock, rfl, hrefuse⟩ := hbody
  exact List.mem_filterMap.mpr ⟨block, hblock, if_pos ⟨hrequest, hrefuse⟩⟩

theorem accounted_clear (downloader : BodyDownloader Peer) :
    Accounted blake3 (empty, downloader.clear) :=
  ⟨BodyDownloader.tracked_clear downloader, fun _ hhash => absurd hhash (Finset.notMem_empty _),
    fun _ hhash => absurd hhash (Finset.notMem_empty _),
    fun _ hhash => absurd hhash Finmap.notMem_empty,
    fun _ hhash => absurd hhash (Finset.notMem_empty _),
    fun _ hhash => absurd hhash Finmap.notMem_empty,
    fun _ hhash => absurd hhash Finmap.notMem_empty⟩

theorem Accounted.handleTimeout (haccounted : Accounted blake3 (ledger, downloader))
    (peer : Peer) : Accounted blake3 (ledger, downloader.handleTimeout peer) := by
  have htracked : (downloader.handleTimeout peer).Tracked blake3 :=
    haccounted.tracked.handleTimeout peer
  unfold BodyDownloader.handleTimeout at htracked ⊢
  split
  · exact haccounted
  case h_2 request hlookup =>
    simp only [hlookup] at htracked
    rw [BodyDownloader.foldl_requeue] at htracked ⊢
    refine ⟨htracked, fun hash hhash => ?_, fun hash hhash => ?_, haccounted.downloaded,
      haccounted.delivered, fun hash hhash hmem => ?_, haccounted.exhausted⟩
    · rcases haccounted.kept hash hhash with (h | h | h) | h
      · by_cases hmem : hash ∈ request.hashes
        · exact .inl (.inr (.inl (List.mem_append_right _ hmem)))
        · exact .inl (.inl (Finset.mem_sdiff.mpr ⟨h, by simpa using hmem⟩))
      · exact .inl (.inr (.inl (List.mem_append_left _ h)))
      · exact .inl (.inr (.inr h))
      · exact .inr h
    · exact haccounted.inFlight hash (Finset.mem_sdiff.mp hhash).1
    · exact haccounted.given hash hhash (Finset.mem_sdiff.mp hmem).1

theorem Accounted.nextRequest (haccounted : Accounted blake3 (ledger, downloader))
    (needed : List Hash) (availablePeers : List Peer) (now sentAt : Nat)
    (iteration : Iteration Hash) :
    Accounted blake3
      (step blake3 (ledger, downloader)
        (.nextRequest needed availablePeers now sentAt iteration)) := by
  have htracked := haccounted.tracked.step
    (.nextRequest needed availablePeers now sentAt iteration)
  obtain ⟨hcarried, hless, hexhausted, hcases⟩ := BodyDownloader.nextRequest_cases
    haccounted.tracked needed availablePeers now sentAt iteration
  simp only [step, note, bodyStep] at htracked ⊢
  generalize downloader.nextRequest needed availablePeers now sentAt iteration = result at *
  have hwaits : ∀ hash, Waits downloader hash → Waits result.2 hash := by
    rintro hash (h | h)
    · exact .inl (hcarried.1 hash h)
    · exact hcarried.2 hash h
  rcases hcases with ⟨hnone, hsame⟩ | ⟨peer, hashes, hsome, hopened, hfresh⟩
  · simp only [hnone]
    refine ⟨htracked, fun hash hhash => (haccounted.kept hash hhash).imp_left (hwaits hash),
      by simpa [hsame.inFlight] using haccounted.inFlight,
      by simpa [hsame.downloaded] using haccounted.downloaded, haccounted.delivered,
      fun hash hhash => ?_, hexhausted haccounted.exhausted⟩
    rw [hsame.inFlight]
    exact haccounted.given hash (hless hash hhash)
  · simp only [hsome]
    refine ⟨htracked, fun hash hhash => ?_, fun hash hhash => ?_,
      by simpa [hopened.downloaded] using haccounted.downloaded,
      fun hash hhash => Finset.mem_union_left _ (haccounted.delivered hash hhash),
      fun hash hhash hmem => ?_, hexhausted haccounted.exhausted⟩
    · rcases Finset.mem_union.mp hhash with hhash | hhash
      · exact (haccounted.kept hash hhash).imp_left (hwaits hash)
      · exact .inl (.inl (hopened.inFlight ▸ Finset.mem_union_right _ hhash))
    · rw [hopened.inFlight] at hhash
      exact (Finset.mem_union.mp hhash).elim
        (fun h => Finset.mem_union_left _ (haccounted.inFlight hash h))
        (fun h => Finset.mem_union_right _ h)
    · rw [hopened.inFlight, Finset.mem_union, List.mem_toFinset] at hmem
      exact hmem.elim (haccounted.given hash (hless hash hhash))
        fun h => hfresh hash h hhash

theorem Accounted.processResponse (haccounted : Accounted blake3 (ledger, downloader))
    (peer : Peer) (bodies : List Block) (refuse : Hash → Block → Bool) (now : Nat) :
    Accounted blake3
      (step blake3 (ledger, downloader) (.processResponse peer bodies refuse now)) := by
  have htracked := haccounted.tracked.step (.processResponse peer bodies refuse now)
  cases hlookup : downloader.activeRequests.lookup peer with
  | none =>
      have hrequest : downloader.requestHashes peer = [] := by
        simp [BodyDownloader.requestHashes, hlookup]
      simpa [step, note, bodyStep, BodyDownloader.processResponseRefusing, hlookup, refusedBy,
        hrequest] using haccounted
  | some request =>
      have hrequest : downloader.requestHashes peer = request.hashes := by
        simp [BodyDownloader.requestHashes, hlookup]
      obtain ⟨intake, start, hintaken, hstart, hresult, hmarked⟩ :=
        BodyDownloader.processResponse_spec blake3 hlookup bodies refuse now
      have hframe := hstart.trans hintaken.frame
      simp only [step, note, bodyStep] at htracked ⊢
      rw [hresult] at hmarked htracked ⊢
      simp only at hmarked htracked ⊢
      generalize request.hashes.foldl _ start = next at *
      have hasked : ∀ hash ∈ request.hashes, hash ∈ ledger.asked := fun hash hhash =>
        haccounted.inFlight hash ((haccounted.tracked.inFlight hash).mpr ⟨peer, hrequest ▸ hhash⟩)
      have hdelivered : ∀ hash ∈ intake.received, hash ∈ ledger.delivered ∪
          (intake.accepted.map (·.header.hash blake3)).toFinset := fun hash hhash =>
        Finset.mem_union_right _ (List.mem_toFinset.mpr ((hintaken.received hash).mp hhash).2)
      have hinFlight : ∀ hash, hash ∈ next.inFlight ↔
          hash ∈ downloader.inFlight ∧ hash ∉ request.hashes := by
        intro hash
        have hreceived := hintaken.received hash
        rw [hmarked.inFlight, hframe]
        simp only [Finset.mem_sdiff]
        tauto
      refine ⟨htracked, fun hash hhash => ?_, fun hash hhash => ?_, fun hash hhash => ?_,
        fun hash hhash => ?_, fun hash hhash hmem => ?_, ?_⟩
      · rcases haccounted.kept hash hhash with (h | h | h) | h | h
        · by_cases hmem : hash ∈ request.hashes
          · rcases hmarked.kept hash hmem with h | h | h | h
            · exact .inr (.inl (hdelivered hash h))
            · refine .inr (.inr (Finset.mem_union_right _ (List.mem_toFinset.mpr ?_)))
              exact mem_refusedBy (hrequest ▸ hmem) (hintaken.refused hash h).2
            · exact .inl (.inr (.inl h))
            · exact .inl (.inr (.inr h))
          · exact .inl (.inl ((hinFlight hash).mpr ⟨h, hmem⟩))
        · exact .inl (.inr (.inl (hmarked.failed hash (by rwa [hframe]))))
        · exact .inl (.inr (.inr (hmarked.permanentlyFailed hash (by rwa [hframe]))))
        · exact .inr (.inl (Finset.mem_union_left _ h))
        · exact .inr (.inr (Finset.mem_union_left _ h))
      · exact haccounted.inFlight hash ((hinFlight hash).mp hhash).1
      · rw [hmarked.downloaded, hstart] at hhash
        obtain ⟨block, hblock⟩ := Finmap.mem_iff.mp hhash
        rcases hintaken.downloaded hash block hblock with h | h
        · exact Finset.mem_union_left _
            (haccounted.downloaded hash (Finmap.mem_of_lookup_eq_some h))
        · exact hdelivered hash h.2
      · rcases Finset.mem_union.mp hhash with h | h
        · exact haccounted.delivered hash h
        · obtain ⟨block, hblock, rfl⟩ := List.mem_map.mp (List.mem_toFinset.mp h)
          exact hasked _ (hintaken.accepted block hblock).2.1
      · obtain ⟨hin, hout⟩ := (hinFlight hash).mp hmem
        rcases hmarked.given hash hhash with h | h
        · rw [hframe] at h
          exact haccounted.given hash h hin
        · exact hout h.1
      · refine hmarked.exhausted ?_
        rw [hframe]
        exact haccounted.exhausted

theorem Accounted.step (haccounted : Accounted blake3 (ledger, downloader))
    (event : BodyEvent Peer) :
    Accounted blake3 (step blake3 (ledger, downloader) event) := by
  cases event with
  | nextRequest needed availablePeers now sentAt iteration =>
      exact haccounted.nextRequest needed availablePeers now sentAt iteration
  | processResponse peer bodies refuse now =>
      exact haccounted.processResponse peer bodies refuse now
  | cancelPeer peer => exact haccounted.handleTimeout peer
  | cleanupTimeouts now iteration =>
      exact foldl_invariant (fun _ downloader => Accounted blake3 (ledger, downloader)) haccounted
        fun _ peer _ _ _ hcurrent => hcurrent.handleTimeout peer
  | expirePermanentlyFailed now iteration =>
      have hsame := BodyDownloader.sameRequests_expire downloader now iteration
      refine ⟨haccounted.tracked.of_same hsame, fun hash hhash => ?_,
        by simpa [BodyLedger.step, note, bodyStep, hsame.inFlight] using haccounted.inFlight,
        by simpa [BodyLedger.step, note, bodyStep, hsame.downloaded] using haccounted.downloaded,
        haccounted.delivered, fun hash hhash hmem => ?_,
        BodyDownloader.exhausted_expire haccounted.exhausted now iteration⟩
      · rcases haccounted.kept hash hhash with (h | h) | h
        · exact .inl (.inl (hsame.inFlight ▸ h))
        · exact .inl (.inr (BodyDownloader.expire_carries now iteration h))
        · exact .inr h
      · exact haccounted.given hash (BodyDownloader.mem_expire hhash) (hsame.inFlight ▸ hmem)
  | takeBlock hash =>
      refine ⟨haccounted.tracked.step (.takeBlock hash), haccounted.kept, haccounted.inFlight,
        fun other hother => haccounted.downloaded other ?_, haccounted.delivered,
        haccounted.given, haccounted.exhausted⟩
      exact (Finmap.mem_erase.mp hother).2
  | clear =>
      exact accounted_clear downloader

theorem run_snd (blake3 : Bytes → Hash) (events : List (BodyEvent Peer))
    (state : BodyLedger × BodyDownloader Peer) :
    (events.foldl (BodyLedger.step blake3) state).2 =
      events.foldl (bodyStep blake3) state.2 := by
  induction events generalizing state with
  | nil => rfl
  | cons event events ih => rw [List.foldl_cons, ih, List.foldl_cons, BodyLedger.step]

theorem accounted_run (blake3 : Bytes → Hash) (maxBodies maxConcurrent timeout : Nat)
    (events : List (BodyEvent Peer)) :
    EveryState (BodyLedger.step blake3)
      (empty, BodyDownloader.new maxBodies maxConcurrent timeout) events
      (Accounted blake3) :=
  everyState_of_keeps
    (accounted_clear (BodyDownloader.new maxBodies maxConcurrent timeout))
    fun _ event haccounted => haccounted.step event

end BodyLedger

/-- No hash that was asked for is forgotten: until it is delivered or refused it is in
flight, queued for another try, or given up after three answers without it.  Only what was
asked for is delivered, and only what was delivered is kept. -/
theorem body_downloader_accounts {Peer : Type} [DecidableEq Peer] (blake3 : Bytes → Hash)
    (maxBodies maxConcurrent timeout : Nat) (events : List (BodyEvent Peer)) :
    EveryState (BodyLedger.step blake3)
      (BodyLedger.empty, BodyDownloader.new maxBodies maxConcurrent timeout) events
      fun state =>
        (∀ hash ∈ state.1.asked,
          (hash ∈ state.2.inFlight ∨ hash ∈ state.2.failed ∨
            hash ∈ state.2.permanentlyFailed) ∨
          hash ∈ state.1.delivered ∨ hash ∈ state.1.refused) ∧
        (∀ hash ∈ state.1.delivered, hash ∈ state.1.asked) ∧
        (∀ hash block, state.2.downloaded.lookup hash = some block →
          block.header.hash blake3 = hash ∧ hash ∈ state.1.delivered) ∧
        ∀ hash ∈ state.2.permanentlyFailed, hash ∉ state.2.inFlight ∧
          ∃ count, state.2.failureCount.lookup hash = some count ∧ 3 ≤ count := by
  intro done rest hevents
  have haccounted := BodyLedger.accounted_run blake3 maxBodies maxConcurrent timeout
    events done rest hevents
  refine ⟨haccounted.kept, haccounted.delivered, fun hash block hblock => ?_,
    fun hash hhash => ⟨haccounted.given hash hhash, haccounted.exhausted hash hhash⟩⟩
  exact ⟨haccounted.tracked.keyed hash block hblock,
    haccounted.downloaded hash (Finmap.mem_of_lookup_eq_some hblock)⟩

/-! ## When no request goes out -/

namespace BodyDownloader

variable {Peer : Type} [DecidableEq Peer] {downloader : BodyDownloader Peer}
  {blake3 : Bytes → Hash}

theorem takeFailed_all_skipped {skip : Hash → Bool} {max : Nat} {failed : List Hash}
    (hmax : 0 < max) :
    (takeFailed skip max [] failed).1 = [] ↔ ∀ hash ∈ failed, skip hash = true := by
  induction failed with
  | nil => simp [takeFailed]
  | cons first failed ih =>
      unfold takeFailed
      rw [if_pos (by rwa [List.length_nil])]
      cases hskip : skip first with
      | true => simpa [hskip] using ih
      | false =>
          have hlength : [first].length ≤ max := hmax
          have hfirst := (takeFailed_spec skip failed hlength).2.1 first List.mem_cons_self
          simp only [List.nil_append, Bool.false_eq_true, if_false]
          constructor
          · intro hnil
            rw [hnil] at hfirst
            simp at hfirst
          · intro hall
            simp [hall first List.mem_cons_self] at hskip

theorem nextRequest_eq_none {needed : List Hash} {availablePeers : List Peer}
    {now sentAt : Nat} {iteration : Iteration Hash}
    (hroom : downloader.activeRequests.keys.card < downloader.maxConcurrentRequests)
    (hfree : ∃ peer ∈ availablePeers, peer ∉ downloader.activeRequests) :
    (downloader.nextRequest needed availablePeers now sentAt iteration).1 = none ↔
      (downloader.collect needed now iteration).1 = [] := by
  have hfreePeers : downloader.freePeers availablePeers ≠ [] := by
    obtain ⟨peer, hpeer, hnot⟩ := hfree
    exact List.ne_nil_of_mem (List.mem_filter.mpr ⟨hpeer, by simpa using hnot⟩)
  dsimp only [nextRequest]
  rw [if_neg (by omega), if_neg hfreePeers]
  generalize downloader.collect needed now iteration = collected
  obtain ⟨hashes, current⟩ := collected
  cases hashes with
  | nil => simp
  | cons firstHash rest =>
      obtain ⟨peer, -, hselect⟩ := current.selectPeer_isSome hfreePeers firstHash
      simp [hselect]

/-- Nothing is left to ask for. -/
structure Idle (downloader : BodyDownloader Peer) (needed : List Hash) (now : Nat) : Prop where
  expired : downloader.expired now = ∅
  failed : ∀ hash ∈ downloader.failed,
    hash ∈ downloader.inFlight ∨ hash ∈ downloader.permanentlyFailed
  needed : ∀ hash ∈ needed, hash ∈ downloader.inFlight ∨ hash ∈ downloader.downloaded ∨
    hash ∈ downloader.permanentlyFailed

theorem takeNeeded_eq_nil {skip : Hash → Bool} {max : Nat} {hashes needed : List Hash}
    (hmax : 0 < max) (hlength : hashes.length ≤ max) :
    takeNeeded skip max hashes needed = [] ↔
      hashes = [] ∧ ∀ hash ∈ needed, skip hash = true := by
  cases hashes with
  | nil => simpa using takeNeeded_nil_eq_nil hmax
  | cons first rest =>
      have hfirst := (takeNeeded_spec skip needed hlength).2.1 first List.mem_cons_self
      refine ⟨fun hnil => ?_, fun h => by simp at h⟩
      rw [hnil] at hfirst
      simp at hfirst

theorem collect_eq_nil {needed : List Hash} {now : Nat} {iteration : Iteration Hash}
    (htracked : downloader.Tracked blake3) (hmax : 0 < downloader.maxBodiesPerRequest)
    (hgiven : ∀ hash ∈ downloader.permanentlyFailed, hash ∉ downloader.inFlight) :
    (downloader.collect needed now iteration).1 = [] ↔ downloader.Idle needed now := by
  simp only [collect, htracked.releaseOrphaned iteration, expirePermanentlyFailed]
  rw [foldl_retryExpired, takeNeeded_eq_nil hmax (takeFailed_spec _ _ (Nat.zero_le _)).1,
    takeFailed_all_skipped hmax]
  simp only [skipFailed, skipNeeded, Bool.or_eq_true, decide_eq_true_eq, Journal.mem_eraseAll,
    iteration.mem_order, List.mem_append]
  constructor
  · rintro ⟨hfailed, hneeded⟩
    -- an expired hash is queued again, and neither in flight nor given up any more
    have hexpired : downloader.expired now = ∅ := by
      refine Finset.eq_empty_of_forall_notMem fun hash hhash => ?_
      have hmem := Finmap.mem_keys.mp (Finset.mem_filter.mp hhash).1
      rcases hfailed hash (.inr hhash) with h | h
      · exact hgiven hash hmem h
      · exact h.2 hhash
    refine ⟨hexpired, fun hash hhash => ?_, fun hash hhash => ?_⟩
    · exact (hfailed hash (.inl hhash)).imp_right And.left
    · rcases hneeded hash hhash with (h | h) | h
      · exact .inl h
      · exact .inr (.inl h)
      · exact .inr (.inr h.1)
  · rintro ⟨hexpired, hfailed, hneeded⟩
    simp only [hexpired, Finset.notMem_empty, or_false, not_false_eq_true, and_true]
    exact ⟨hfailed, fun hash hhash => (hneeded hash hhash).elim (fun h => .inl (.inl h))
      fun h => h.elim (fun h => .inl (.inr h)) .inr⟩

theorem bodyStep_limits (htracked : downloader.Tracked blake3) (event : BodyEvent Peer) :
    (bodyStep blake3 downloader event).maxBodiesPerRequest = downloader.maxBodiesPerRequest ∧
      (bodyStep blake3 downloader event).maxConcurrentRequests =
        downloader.maxConcurrentRequests := by
  have htimeout : ∀ (current : BodyDownloader Peer) (peer : Peer),
      (current.handleTimeout peer).maxBodiesPerRequest = current.maxBodiesPerRequest ∧
        (current.handleTimeout peer).maxConcurrentRequests =
          current.maxConcurrentRequests := by
    intro current peer
    unfold handleTimeout
    split
    · exact ⟨rfl, rfl⟩
    · rw [foldl_requeue]
      exact ⟨rfl, rfl⟩
  cases event with
  | nextRequest needed availablePeers now sentAt iteration =>
      obtain ⟨-, -, -, ⟨-, hsame⟩ | ⟨peer, hashes, -, hopened, -⟩⟩ :=
        nextRequest_cases htracked needed availablePeers now sentAt iteration
      · exact ⟨hsame.maxBodies, hsame.maxConcurrent⟩
      · exact ⟨hopened.maxBodies, hopened.maxConcurrent⟩
  | processResponse peer bodies refuse now =>
      cases hlookup : downloader.activeRequests.lookup peer with
      | none => simp [bodyStep, processResponseRefusing, hlookup]
      | some request =>
          obtain ⟨intake, start, hintaken, hstart, -, hmarked⟩ :=
            processResponse_spec blake3 hlookup bodies refuse now
          have hframe := hstart.trans hintaken.frame
          exact ⟨by rw [bodyStep, hmarked.maxBodies, hframe],
            by rw [bodyStep, hmarked.maxConcurrent, hframe]⟩
  | cancelPeer peer => exact htimeout downloader peer
  | cleanupTimeouts now iteration =>
      refine foldl_invariant (fun _ (current : BodyDownloader Peer) =>
        current.maxBodiesPerRequest = downloader.maxBodiesPerRequest ∧
          current.maxConcurrentRequests = downloader.maxConcurrentRequests) ⟨rfl, rfl⟩ ?_
      intro _ peer _ current _ hcurrent
      exact ⟨(htimeout current peer).1.trans hcurrent.1, (htimeout current peer).2.trans hcurrent.2⟩
  | expirePermanentlyFailed now iteration =>
      have hsame := sameRequests_expire downloader now iteration
      exact ⟨hsame.maxBodies, hsame.maxConcurrent⟩
  | takeBlock hash => exact ⟨rfl, rfl⟩
  | clear => exact ⟨rfl, rfl⟩

end BodyDownloader

/-- The downloader stalls only when there is nothing to ask for: with a free slot and a free
peer a call sends nothing exactly if no hash that was given up is due again, every queued
hash is in flight or given up, and every needed one is that or downloaded. -/
theorem body_downloader_stalls_iff {Peer : Type} [DecidableEq Peer] (blake3 : Bytes → Hash)
    (maxBodies maxConcurrent timeout : Nat) (events : List (BodyEvent Peer))
    (hmax : 0 < maxBodies) (needed : List Hash) (availablePeers : List Peer)
    (now sentAt : Nat) (iteration : Iteration Hash) :
    EveryState (bodyStep blake3) (BodyDownloader.new maxBodies maxConcurrent timeout) events
      fun downloader =>
        downloader.activeRequests.keys.card < maxConcurrent →
        (∃ peer ∈ availablePeers, peer ∉ downloader.activeRequests) →
        ((downloader.nextRequest needed availablePeers now sentAt iteration).1 = none ↔
          downloader.Idle needed now) := by
  intro done rest hevents hroom hfree
  have haccounted := BodyLedger.accounted_run blake3 maxBodies maxConcurrent timeout
    events done rest hevents
  have hlimits : EveryState (bodyStep blake3)
      (BodyDownloader.new maxBodies maxConcurrent timeout : BodyDownloader Peer) events
      fun downloader => downloader.Tracked blake3 ∧
        downloader.maxBodiesPerRequest = maxBodies ∧
          downloader.maxConcurrentRequests = maxConcurrent :=
    everyState_of_keeps ⟨BodyDownloader.tracked_new maxBodies maxConcurrent timeout, rfl, rfl⟩
      fun current event hcurrent =>
        ⟨hcurrent.1.step event,
          (BodyDownloader.bodyStep_limits hcurrent.1 event).1.trans hcurrent.2.1,
          (BodyDownloader.bodyStep_limits hcurrent.1 event).2.trans hcurrent.2.2⟩
  have hlimits := hlimits done rest hevents
  rw [← BodyLedger.run_snd blake3 done (BodyLedger.empty, _)] at hroom hfree hlimits ⊢
  obtain ⟨htracked, hbodies, hconcurrent⟩ := hlimits
  rw [BodyDownloader.nextRequest_eq_none (by rwa [hconcurrent]) hfree]
  exact BodyDownloader.collect_eq_nil htracked (by rwa [hbodies]) haccounted.given

def byBytes : Iteration Hash := ⟨listing Hash.bytesLe, mem_listing _⟩

/-- A fresh downloader with one free peer asks for a needed hash. -/
theorem body_downloader_asks :
    ((BodyDownloader.new 1 1 0 : BodyDownloader Nat).nextRequest [⟨0⟩] [0] 0 0 byBytes).1 ≠
      none := by
  intro hnone
  have hidle := (body_downloader_stalls_iff (fun _ => ⟨0⟩) 1 1 0 ([] : List (BodyEvent Nat))
    (by decide) [⟨0⟩] [0] 0 0 byBytes [] [] rfl (by simp [BodyDownloader.new])
    ⟨0, by simp, Finmap.notMem_empty⟩).mp hnone
  rcases hidle.needed ⟨0⟩ List.mem_cons_self with h | h | h
  · exact Finset.notMem_empty _ h
  · exact Finmap.notMem_empty h
  · exact Finmap.notMem_empty h

end Doli.Network
