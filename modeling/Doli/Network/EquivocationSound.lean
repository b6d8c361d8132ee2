import Doli.Network.Equivocation

/-!
# Returned proofs are sound

Whatever a detector stores stands for an admitted header of its stream, so
every proof it returns pairs two of them, of one producer and slot and under
different hashes.
-/

namespace Doli.Network

open Doli.Core Doli.Lib
open Doli.Validation (BlockHeader Crypto headerSize doubleProductionEvidenceFits)

namespace EquivocationDetector

/-! ## What is stored -/

section Stored

variable (crypto : Crypto) (from_ : BlockHeader → Prop)

/-- A stored header stands for itself. -/
structure Stands (key : TrackKey) (tracked : Tracked) : Prop where
  origin : from_ tracked.header
  key_eq : trackKey tracked.header = key
  hash_eq : tracked.hash = tracked.header.hash crypto.blake3
  size_eq : tracked.size = headerSize crypto tracked.header

def Faithful (detector : EquivocationDetector) : Prop :=
  ∀ key tracked, detector.seenBlocks.lookup key = some tracked →
    Stands crypto from_ key tracked

/-- Two blocks of one producer and slot, small enough for a slash. -/
structure Proves (proof : EquivocationProof) : Prop where
  first : from_ proof.blockHeader1
  second : from_ proof.blockHeader2
  key_first : trackKey proof.blockHeader1 = (proof.producer, proof.slot)
  key_second : trackKey proof.blockHeader2 = (proof.producer, proof.slot)
  hash_ne : proof.blockHeader1.hash crypto.blake3 ≠ proof.blockHeader2.hash crypto.blake3
  fits : doubleProductionEvidenceFits crypto proof.producer proof.blockHeader1
    proof.blockHeader2 = true

end Stored

section Lookups

variable {detector : EquivocationDetector}

theorem lookup_evict {maxTracked : Nat} {lru : List TrackKey}
    {seen : Column TrackKey Tracked} {key : TrackKey} {tracked : Tracked}
    (hlookup : (evict maxTracked lru seen).2.lookup key = some tracked) :
    seen.lookup key = some tracked := by
  induction lru generalizing seen with
  | nil => exact hlookup
  | cons oldest rest ih =>
      unfold evict at hlookup
      split at hlookup
      case isTrue hfull =>
        have herased := ih hlookup
        by_cases hkey : key = oldest
        · subst hkey
          simp at herased
        · rwa [Finmap.lookup_erase_ne hkey] at herased
      case isFalse hroom => exact hlookup

theorem evict_of_room {maxTracked : Nat} {lru : List TrackKey}
    {seen : Column TrackKey Tracked} (hroom : seen.keys.card < maxTracked) :
    (evict maxTracked lru seen).2 = seen := by
  cases lru with
  | nil => rfl
  | cons oldest rest =>
      unfold evict
      rw [if_neg (Nat.not_le_of_lt hroom)]

theorem lookup_recordBlock_self (key : TrackKey) (tracked : Tracked) :
    (detector.recordBlock key tracked).seenBlocks.lookup key = some tracked :=
  Finmap.lookup_insert _

theorem lookup_recordBlock {key other : TrackKey} {tracked found : Tracked}
    (hother : other ≠ key)
    (hlookup : (detector.recordBlock key tracked).seenBlocks.lookup other = some found) :
    detector.seenBlocks.lookup other = some found := by
  change (Finmap.insert key tracked _ : Column TrackKey Tracked).lookup other = some found
    at hlookup
  rw [Finmap.lookup_insert_of_ne _ hother] at hlookup
  exact lookup_evict hlookup

theorem lookup_recordBlock_of_room {key other : TrackKey} {tracked : Tracked}
    (hother : other ≠ key)
    (hroom : detector.seenBlocks.keys.card < detector.maxTracked) :
    (detector.recordBlock key tracked).seenBlocks.lookup other =
      detector.seenBlocks.lookup other := by
  change (Finmap.insert key tracked _ : Column TrackKey Tracked).lookup other = _
  rw [Finmap.lookup_insert_of_ne _ hother, evict_of_room hroom]

theorem lookup_cleanup {minSlot : Nat} {key : TrackKey} {tracked : Tracked}
    (hlookup : (detector.cleanupBeforeSlot minSlot).seenBlocks.lookup key = some tracked) :
    detector.seenBlocks.lookup key = some tracked := by
  unfold cleanupBeforeSlot at hlookup
  split at hlookup
  case isTrue hkept => exact hlookup
  case isFalse hold =>
    rw [Journal.lookup_eraseAll] at hlookup
    split at hlookup
    case isTrue herased => cases hlookup
    case isFalse hkept => exact hlookup

theorem lookup_cleanup_of_le {minSlot : Nat} {key : TrackKey} (hslot : minSlot ≤ key.2) :
    (detector.cleanupBeforeSlot minSlot).seenBlocks.lookup key =
      detector.seenBlocks.lookup key := by
  unfold cleanupBeforeSlot
  split
  case isTrue hkept => rfl
  case isFalse hold =>
    rw [Journal.lookup_eraseAll, if_neg]
    rw [List.mem_filter, decide_eq_true_eq]
    omega

theorem countCheck_some {key : TrackKey} {hash : Hash} {counted : EquivocationDetector}
    (hcount : detector.countCheck key hash = some counted) :
    counted = detector ∧ (∀ stored, detector.seenBlocks.lookup key = some stored →
        stored.hash ≠ hash ∧ stored.checksAfterProof = none) ∨
      ∃ stored checks, detector.seenBlocks.lookup key = some stored ∧ stored.hash ≠ hash ∧
        stored.checksAfterProof = some checks ∧
        counted = { detector with
          seenBlocks := detector.seenBlocks.insert key
            { stored with checksAfterProof := some (checks + 1) } } := by
  unfold countCheck at hcount
  split at hcount
  case h_1 hlookup =>
    cases hcount
    refine .inl ⟨rfl, ?_⟩
    intro stored hstored
    rw [hlookup] at hstored
    cases hstored
  case h_2 stored hlookup =>
    split at hcount
    case isTrue hhash => cases hcount
    case isFalse hhash =>
      split at hcount
      case h_1 hchecks =>
        cases hcount
        refine .inl ⟨rfl, ?_⟩
        intro found hfound
        obtain rfl := Option.some.inj (hlookup.symm.trans hfound)
        exact ⟨hhash, hchecks⟩
      case h_2 checks hchecks =>
        split at hcount
        case isTrue hlimit => cases hcount
        case isFalse hlimit =>
          cases hcount
          exact .inr ⟨stored, checks, hlookup, hhash, hchecks, rfl⟩

theorem queuePending_seenBlocks (proof : EquivocationProof) :
    (detector.queuePending proof).seenBlocks = detector.seenBlocks := by
  unfold queuePending
  dsimp only
  split
  · rfl
  · rfl

end Lookups

/-! ## Soundness -/

section Soundness

variable {crypto : Crypto} {from_ : BlockHeader → Prop} {detector : EquivocationDetector}

theorem Faithful.insert (hfaithful : Faithful crypto from_ detector) {key : TrackKey}
    {tracked : Tracked} (hstands : Stands crypto from_ key tracked) :
    Faithful crypto from_
      { detector with seenBlocks := detector.seenBlocks.insert key tracked } := by
  intro other found hlookup
  by_cases hother : other = key
  · subst hother
    change (Finmap.insert other tracked _ : Column TrackKey Tracked).lookup other = some found
      at hlookup
    rw [Finmap.lookup_insert] at hlookup
    obtain rfl := Option.some.inj hlookup
    exact hstands
  · change (Finmap.insert key tracked _ : Column TrackKey Tracked).lookup other = some found
      at hlookup
    rw [Finmap.lookup_insert_of_ne _ hother] at hlookup
    exact hfaithful other found hlookup

theorem Faithful.countCheck (hfaithful : Faithful crypto from_ detector) {key : TrackKey}
    {hash : Hash} {counted : EquivocationDetector}
    (hcount : detector.countCheck key hash = some counted) :
    Faithful crypto from_ counted ∧
      ∀ stored, counted.seenBlocks.lookup key = some stored → stored.hash ≠ hash := by
  rcases countCheck_some hcount with
    ⟨rfl, hnew⟩ | ⟨stored, checks, hlookup, hhash, hchecks, rfl⟩
  · exact ⟨hfaithful, fun stored hstored => (hnew stored hstored).1⟩
  · obtain ⟨horigin, hkey, hhashEq, hsize⟩ := hfaithful key stored hlookup
    refine ⟨hfaithful.insert ⟨horigin, hkey, hhashEq, hsize⟩, ?_⟩
    intro found hfound
    change (Finmap.insert key _ _ : Column TrackKey Tracked).lookup key = some found at hfound
    rw [Finmap.lookup_insert] at hfound
    obtain rfl := Option.some.inj hfound
    exact hhash

theorem Faithful.recordBlock (hfaithful : Faithful crypto from_ detector) {key : TrackKey}
    {tracked : Tracked} (hstands : Stands crypto from_ key tracked) :
    Faithful crypto from_ (detector.recordBlock key tracked) := by
  intro other found hlookup
  by_cases hother : other = key
  · subst hother
    rw [lookup_recordBlock_self] at hlookup
    obtain rfl := Option.some.inj hlookup
    exact hstands
  · exact hfaithful other found (lookup_recordBlock hother hlookup)

theorem stands_new {header : BlockHeader} (horigin : from_ header) :
    Stands crypto from_ (trackKey header) (Tracked.new crypto header) :=
  ⟨horigin, rfl, rfl, rfl⟩

theorem Stands.keep {key : TrackKey} {stored candidate : Tracked} (proved : Bool)
    (hstored : Stands crypto from_ key stored)
    (hcandidate : Stands crypto from_ key candidate) :
    Stands crypto from_ key (keep stored candidate proved) := by
  unfold EquivocationDetector.keep
  dsimp only
  split
  case isTrue hsmaller =>
    exact ⟨hcandidate.origin, hcandidate.key_eq, hcandidate.hash_eq, hcandidate.size_eq⟩
  case isFalse hsmaller =>
    exact ⟨hstored.origin, hstored.key_eq, hstored.hash_eq, hstored.size_eq⟩

theorem proofOf_some {key : TrackKey} {stored candidate : BlockHeader}
    {proof : EquivocationProof} (hproof : proofOf crypto key stored candidate = some proof) :
    proof = ⟨key.1, stored, candidate, key.2⟩ ∧
      doubleProductionEvidenceFits crypto key.1 stored candidate = true := by
  unfold proofOf at hproof
  split at hproof
  case isTrue hfits => exact ⟨(Option.some.inj hproof).symm, hfits⟩
  case isFalse hfits => cases hproof

theorem Faithful.pairCandidate (hfaithful : Faithful crypto from_ detector)
    {header : BlockHeader} (horigin : from_ header)
    (hnew : ∀ stored, detector.seenBlocks.lookup (trackKey header) = some stored →
      stored.hash ≠ header.hash crypto.blake3) :
    Faithful crypto from_ (detector.pairCandidate crypto header).2 ∧
      ∀ proof, (detector.pairCandidate crypto header).1 = some proof →
        Proves crypto from_ proof := by
  unfold EquivocationDetector.pairCandidate
  dsimp only
  split
  case h_1 hlookup =>
    refine ⟨hfaithful.recordBlock (stands_new horigin), ?_⟩
    intro proof hproof
    cases hproof
  case h_2 stored hlookup =>
    have hstored := hfaithful _ stored hlookup
    have hpaired := hfaithful.insert (hstored.keep
      (proofOf crypto (trackKey header) stored.header header).isSome (stands_new horigin))
    split
    case h_1 hnone =>
      refine ⟨hpaired, ?_⟩
      intro proof hproof
      cases hproof
    case h_2 proof hsome =>
      obtain ⟨rfl, hfits⟩ := proofOf_some hsome
      constructor
      · intro key tracked htracked
        rw [queuePending_seenBlocks] at htracked
        exact hpaired key tracked htracked
      · intro returned hreturned
        obtain rfl := Option.some.inj hreturned
        exact
          { first := hstored.origin
            second := horigin
            key_first := hstored.key_eq
            key_second := rfl
            hash_ne := hstored.hash_eq ▸ hnew stored hlookup
            fits := hfits }

theorem Faithful.cleanup (hfaithful : Faithful crypto from_ detector) (minSlot : Nat) :
    Faithful crypto from_ (detector.cleanupBeforeSlot minSlot) :=
  fun key tracked hlookup => hfaithful key tracked (lookup_cleanup hlookup)

theorem Faithful.noteGate (hfaithful : Faithful crypto from_ detector)
    (prospectiveHeight gate : Nat) :
    Faithful crypto from_ (detector.noteGate prospectiveHeight gate) := by
  unfold EquivocationDetector.noteGate
  split
  case isTrue hcrossed =>
    intro key tracked hlookup
    simp [clear] at hlookup
  case isFalse hcrossed => exact hfaithful

end Soundness

section Step

variable {crypto : Crypto} {passes : BlockHeader → Bool} {detector : EquivocationDetector}

theorem Faithful.checkAdmitted {from_ : BlockHeader → Prop}
    (hfaithful : Faithful crypto from_ detector) {header : BlockHeader}
    (horigin : passes header = true → from_ header) :
    Faithful crypto from_ (detector.checkAdmitted crypto passes header).2 ∧
      ∀ proof, (detector.checkAdmitted crypto passes header).1 = some proof →
        Proves crypto from_ proof := by
  unfold EquivocationDetector.checkAdmitted
  split
  case h_1 hskipped =>
    refine ⟨hfaithful, ?_⟩
    intro proof hproof
    cases hproof
  case h_2 counted hcounted =>
    obtain ⟨hfaithful', hnew⟩ := hfaithful.countCheck hcounted
    split
    case isTrue hpasses => exact hfaithful'.pairCandidate (horigin hpasses) hnew
    case isFalse hpasses =>
      refine ⟨hfaithful', ?_⟩
      intro proof hproof
      cases hproof

theorem Faithful.step {from_ : BlockHeader → Prop}
    (hfaithful : Faithful crypto from_ detector) {event : DetectorEvent}
    (horigin : ∀ header wallSlot, event = .checkBlock header wallSlot →
      passes header = true → from_ header) :
    Faithful crypto from_ (step crypto passes detector event).2 ∧
      ∀ proof, (step crypto passes detector event).1 = some proof →
        Proves crypto from_ proof := by
  cases event with
  | noteGate prospectiveHeight gate =>
      refine ⟨hfaithful.noteGate prospectiveHeight gate, ?_⟩
      intro proof hproof
      cases hproof
  | takePendingProofs =>
      refine ⟨hfaithful, ?_⟩
      intro proof hproof
      cases hproof
  | checkBlock header wallSlot =>
      change Faithful crypto from_ (detector.checkBlockWith crypto passes header wallSlot).2 ∧
        ∀ proof, (detector.checkBlockWith crypto passes header wallSlot).1 = some proof →
          Proves crypto from_ proof
      have hchecked := hfaithful.checkAdmitted (horigin header wallSlot rfl)
      unfold checkBlockWith
      split
      case isTrue hahead =>
        refine ⟨hfaithful, ?_⟩
        intro proof hproof
        cases hproof
      case isFalse hbehind =>
        dsimp only
        exact ⟨Faithful.cleanup hchecked.1 (wallSlot - slidingWindowSlots), hchecked.2⟩

end Step

/-! ## The stream of admitted headers -/

section Stream

variable (crypto : Crypto) (passes : BlockHeader → Bool)

def admittedHeader : DetectorEvent → Option BlockHeader
  | .checkBlock header _ => if passes header then some header else none
  | .noteGate _ _ => none
  | .takePendingProofs => none

def admittedHeaders (events : List DetectorEvent) : List BlockHeader :=
  events.filterMap (admittedHeader passes)

/-- A detector before its first header, on either side of the gate. -/
def started (crossed : Bool) : EquivocationDetector := { new with gateCrossed := crossed }

variable {crypto passes}

theorem admittedHeaders_append_singleton (events : List DetectorEvent)
    (event : DetectorEvent) :
    admittedHeaders passes (events ++ [event]) =
      admittedHeaders passes events ++ (admittedHeader passes event).toList := by
  unfold admittedHeaders
  rw [List.filterMap_append]
  cases hevent : admittedHeader passes event <;> simp [hevent]

theorem toList_admittedHeader (header : BlockHeader) (wallSlot : Nat) :
    (admittedHeader passes (.checkBlock header wallSlot)).toList =
      if passes header then [header] else [] := by
  cases hpasses : passes header <;> simp [admittedHeader, hpasses]

theorem mem_admittedHeaders {events : List DetectorEvent} {header : BlockHeader} :
    header ∈ admittedHeaders passes events ↔
      passes header = true ∧ ∃ wallSlot, .checkBlock header wallSlot ∈ events := by
  unfold admittedHeaders
  rw [List.mem_filterMap]
  constructor
  · rintro ⟨event, hevent, hsome⟩
    cases event with
    | noteGate prospectiveHeight gate => cases hsome
    | takePendingProofs => cases hsome
    | checkBlock other wallSlot =>
        change (if passes other then some other else none) = some header at hsome
        split at hsome
        case isTrue hpasses =>
          obtain rfl := Option.some.inj hsome
          exact ⟨hpasses, wallSlot, hevent⟩
        case isFalse hpasses => cases hsome
  · rintro ⟨hpasses, wallSlot, hevent⟩
    exact ⟨.checkBlock header wallSlot, hevent, if_pos hpasses⟩

theorem Faithful.mono {from_ other : BlockHeader → Prop} {detector : EquivocationDetector}
    (hfaithful : Faithful crypto from_ detector)
    (hmono : ∀ header, from_ header → other header) : Faithful crypto other detector := by
  intro key tracked hlookup
  obtain ⟨horigin, hkey, hhash, hsize⟩ := hfaithful key tracked hlookup
  exact ⟨hmono _ horigin, hkey, hhash, hsize⟩

theorem Proves.mono {from_ other : BlockHeader → Prop} {proof : EquivocationProof}
    (hproves : Proves crypto from_ proof)
    (hmono : ∀ header, from_ header → other header) : Proves crypto other proof :=
  { hproves with
    first := hmono _ hproves.first
    second := hmono _ hproves.second }

theorem sound_stream (crossed : Bool) (events : List DetectorEvent) :
    Faithful crypto (· ∈ admittedHeaders passes events)
        (stream crypto passes (started crossed) events).2 ∧
      ∀ proof ∈ (stream crypto passes (started crossed) events).1,
        Proves crypto (· ∈ admittedHeaders passes events) proof := by
  induction events using List.reverseRecOn with
  | nil =>
      constructor
      · intro key tracked hlookup
        simp [stream, started, new] at hlookup
      · intro proof hproof
        simp [stream] at hproof
  | append_singleton events event ih =>
      have hmono : ∀ header, header ∈ admittedHeaders passes events →
          header ∈ admittedHeaders passes (events ++ [event]) := by
        intro header hheader
        rw [admittedHeaders_append_singleton]
        exact List.mem_append_left _ hheader
      have hfaithful := ih.1.mono hmono
      have horigin : ∀ header wallSlot, event = .checkBlock header wallSlot →
          passes header = true → header ∈ admittedHeaders passes (events ++ [event]) := by
        rintro header wallSlot rfl hpasses
        rw [admittedHeaders_append_singleton, admittedHeader, if_pos hpasses]
        exact List.mem_append_right _ (List.mem_singleton_self header)
      have hstep := @Faithful.step crypto passes _ _ hfaithful event horigin
      rw [stream_append_singleton]
      refine ⟨hstep.1, ?_⟩
      intro proof hproof
      rcases List.mem_append.mp hproof with hold | hnew
      · exact (ih.2 proof hold).mono hmono
      · exact hstep.2 proof (Option.mem_toList.mp hnew)

end Stream

end EquivocationDetector

end Doli.Network
