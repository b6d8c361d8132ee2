import Doli.Network.EquivocationSound

/-!
# Every double production is returned

As long as nothing is evicted, a producer and slot without a proof has its
smallest header stored, and no two of its blocks fit a slash.
-/

namespace Doli.Network

open Doli.Core Doli.Lib
open Doli.Validation (BlockHeader Crypto headerSize doubleProductionEvidenceFits
  maxFutureSlots sampleCrypto ValidationContext evidenceHeaderAdmissible headerSize_eq_of_hash
  doubleProductionEvidenceFits_iff)

namespace EquivocationDetector

/-- Nothing is evicted: no admitted header is ahead of the wall clock or falls
out of the window later, there are entries enough, and the gate drops nothing. -/
structure InWindow (passes : BlockHeader → Bool) (crossed : Bool)
    (events : List DetectorEvent) : Prop where
  notAhead : ∀ header wallSlot, .checkBlock header wallSlot ∈ events →
    passes header = true → header.slot.toNat ≤ wallSlot + maxFutureSlots
  notPast : ∀ before event rest header, events = before ++ event :: rest →
    admittedHeader passes event = some header → ∀ later wallSlot,
      .checkBlock later wallSlot ∈ event :: rest →
        wallSlot - slidingWindowSlots ≤ header.slot.toNat
  room : ((admittedHeaders passes events).map trackKey).toFinset.card ≤ maxTrackedEntries
  gate : crossed = true ∨
    ∀ prospectiveHeight gate, .noteGate prospectiveHeight gate ∈ events →
      prospectiveHeight < gate

/-- A producer and slot without a proof: the smallest of its headers is stored
and no two of its blocks fit. -/
structure Unproved (crypto : Crypto) (admitted : List BlockHeader) (key : TrackKey)
    (detector : EquivocationDetector) : Prop where
  absent : detector.seenBlocks.lookup key = none → ∀ header ∈ admitted, trackKey header ≠ key
  smallest : ∀ stored, detector.seenBlocks.lookup key = some stored →
    stored.checksAfterProof = none ∧ ∀ header ∈ admitted, trackKey header = key →
      stored.size ≤ headerSize crypto header
  apart : ∀ first ∈ admitted, ∀ second ∈ admitted, trackKey first = key →
    trackKey second = key → first.hash crypto.blake3 ≠ second.hash crypto.blake3 →
      doubleProductionEvidenceFits crypto key.1 first second = false

section Window

variable {passes : BlockHeader → Bool} {crossed : Bool} {events : List DetectorEvent}
  {event : DetectorEvent}

theorem InWindow.of_append_singleton (hwindow : InWindow passes crossed (events ++ [event])) :
    InWindow passes crossed events where
  notAhead header wallSlot hmem :=
    hwindow.notAhead header wallSlot (List.mem_append_left _ hmem)
  notPast before first rest header hsplit hheader later wallSlot hlater := by
    refine hwindow.notPast before first (rest ++ [event]) header ?_ hheader later wallSlot ?_
    · rw [hsplit, List.append_assoc, List.cons_append]
    · rw [← List.cons_append]
      exact List.mem_append_left _ hlater
  room := by
    refine (Finset.card_le_card ?_).trans hwindow.room
    intro key hkey
    rw [List.mem_toFinset, List.mem_map] at hkey ⊢
    obtain ⟨header, hheader, rfl⟩ := hkey
    rw [admittedHeaders_append_singleton]
    exact ⟨header, List.mem_append_left _ hheader, rfl⟩
  gate := hwindow.gate.imp_right fun hgate prospectiveHeight gate hmem =>
    hgate prospectiveHeight gate (List.mem_append_left _ hmem)

theorem InWindow.le_slot {header later : BlockHeader} {wallSlot : Nat}
    (hwindow : InWindow passes crossed (events ++ [.checkBlock later wallSlot]))
    (hheader : header ∈ admittedHeaders passes (events ++ [.checkBlock later wallSlot])) :
    wallSlot - slidingWindowSlots ≤ (trackKey header).2 := by
  obtain ⟨hpasses, wall, hmem⟩ := mem_admittedHeaders.mp hheader
  obtain ⟨before, rest, hsplit⟩ := List.append_of_mem hmem
  refine hwindow.notPast before _ rest header hsplit (if_pos hpasses) later wallSlot ?_
  have hlast : DetectorEvent.checkBlock later wallSlot ∈
      (events ++ [DetectorEvent.checkBlock later wallSlot]).getLast? := by simp
  rw [hsplit, List.getLast?_append_cons] at hlast
  exact List.mem_of_mem_getLast? hlast

end Window

section Unproved

variable {crypto : Crypto} {passes : BlockHeader → Bool} {detector : EquivocationDetector}
  {admitted : List BlockHeader} {key : TrackKey}

theorem Unproved.of_lookup {other : EquivocationDetector}
    (hunproved : Unproved crypto admitted key detector)
    (hlookup : other.seenBlocks.lookup key = detector.seenBlocks.lookup key) :
    Unproved crypto admitted key other where
  absent hnone := hunproved.absent (hlookup ▸ hnone)
  smallest stored hstored := hunproved.smallest stored (hlookup ▸ hstored)
  apart := hunproved.apart

theorem Unproved.append_of_ne (hunproved : Unproved crypto admitted key detector)
    {more : List BlockHeader} (hmore : ∀ header ∈ more, trackKey header ≠ key) :
    Unproved crypto (admitted ++ more) key detector := by
  have hmem : ∀ header ∈ admitted ++ more, trackKey header = key → header ∈ admitted := by
    intro header hheader hkey
    rcases List.mem_append.mp hheader with hold | hnew
    · exact hold
    · exact absurd hkey (hmore header hnew)
  constructor
  case absent =>
    intro hnone header hheader hkey
    exact hunproved.absent hnone header (hmem header hheader hkey) hkey
  case smallest =>
    intro stored hstored
    obtain ⟨hchecks, hsize⟩ := hunproved.smallest stored hstored
    exact ⟨hchecks, fun header hheader hkey => hsize header (hmem header hheader hkey) hkey⟩
  case apart =>
    intro first hfirst second hsecond hkeyFirst hkeySecond
    exact hunproved.apart first (hmem first hfirst hkeyFirst) second
      (hmem second hsecond hkeySecond) hkeyFirst hkeySecond

theorem Unproved.cleanup (hunproved : Unproved crypto admitted key detector)
    (hfaithful : Faithful crypto (· ∈ admitted) detector) {minSlot : Nat}
    (hslot : ∀ header ∈ admitted, minSlot ≤ (trackKey header).2) :
    Unproved crypto admitted key (detector.cleanupBeforeSlot minSlot) := by
  apply hunproved.of_lookup
  cases hstored : detector.seenBlocks.lookup key with
  | none =>
      cases hkept : (detector.cleanupBeforeSlot minSlot).seenBlocks.lookup key with
      | none => rfl
      | some tracked =>
          rw [lookup_cleanup hkept] at hstored
          cases hstored
  | some stored =>
      have hstands := hfaithful key stored hstored
      rw [← hstored]
      apply lookup_cleanup_of_le
      rw [← hstands.key_eq]
      exact hslot stored.header hstands.origin

theorem lookup_countCheck_of_ne {other : TrackKey} {hash : Hash}
    {counted : EquivocationDetector} (hother : key ≠ other)
    (hcount : detector.countCheck other hash = some counted) :
    counted.seenBlocks.lookup key = detector.seenBlocks.lookup key := by
  rcases countCheck_some hcount with ⟨rfl, -⟩ | ⟨stored, checks, -, -, -, rfl⟩
  · rfl
  · exact Finmap.lookup_insert_of_ne _ hother

theorem lookup_pairCandidate_of_ne {header : BlockHeader} (hkey : key ≠ trackKey header)
    (hroom : detector.seenBlocks.lookup (trackKey header) = none →
      detector.seenBlocks.keys.card < detector.maxTracked) :
    (detector.pairCandidate crypto header).2.seenBlocks.lookup key =
      detector.seenBlocks.lookup key := by
  unfold pairCandidate
  dsimp only
  split
  case h_1 hnone => exact lookup_recordBlock_of_room hkey (hroom hnone)
  case h_2 stored hstored =>
    split
    case h_1 hproof => exact Finmap.lookup_insert_of_ne _ hkey
    case h_2 proof hproof =>
      rw [queuePending_seenBlocks]
      exact Finmap.lookup_insert_of_ne _ hkey

theorem lookup_checkAdmitted_of_ne {header : BlockHeader} (hkey : key ≠ trackKey header)
    (hroom : passes header = true → detector.seenBlocks.lookup (trackKey header) = none →
      detector.seenBlocks.keys.card < detector.maxTracked) :
    (detector.checkAdmitted crypto passes header).2.seenBlocks.lookup key =
      detector.seenBlocks.lookup key := by
  unfold checkAdmitted
  split
  case h_1 hskipped => rfl
  case h_2 counted hcounted =>
    split
    case isTrue hpasses =>
      rw [lookup_pairCandidate_of_ne hkey, lookup_countCheck_of_ne hkey hcounted]
      intro hnone
      rcases countCheck_some hcounted with ⟨rfl, -⟩ | ⟨stored, checks, -, -, -, rfl⟩
      · exact hroom hpasses hnone
      · change (Finmap.insert (trackKey header) _ _ : Column TrackKey Tracked).lookup _ =
          none at hnone
        rw [Finmap.lookup_insert] at hnone
        cases hnone
    case isFalse hpasses => exact lookup_countCheck_of_ne hkey hcounted

theorem apart_append {header : BlockHeader} (hkey : trackKey header = key)
    (hunproved : Unproved crypto admitted key detector)
    (hheader : ∀ other ∈ admitted, trackKey other = key →
      header.hash crypto.blake3 ≠ other.hash crypto.blake3 →
        doubleProductionEvidenceFits crypto key.1 header other = false) :
    ∀ first ∈ admitted ++ [header], ∀ second ∈ admitted ++ [header],
      trackKey first = key → trackKey second = key →
        first.hash crypto.blake3 ≠ second.hash crypto.blake3 →
          doubleProductionEvidenceFits crypto key.1 first second = false := by
  intro first hfirst second hsecond hkeyFirst hkeySecond hne
  rcases List.mem_append.mp hfirst with holdFirst | hnewFirst
  · rcases List.mem_append.mp hsecond with holdSecond | hnewSecond
    · exact hunproved.apart first holdFirst second holdSecond hkeyFirst hkeySecond hne
    · obtain rfl := List.mem_singleton.mp hnewSecond
      have hfalse := hheader first holdFirst hkeyFirst hne.symm
      rw [← Bool.not_eq_true, doubleProductionEvidenceFits_iff] at hfalse ⊢
      omega
  · obtain rfl := List.mem_singleton.mp hnewFirst
    rcases List.mem_append.mp hsecond with holdSecond | hnewSecond
    · exact hheader second holdSecond hkeySecond hne
    · obtain rfl := List.mem_singleton.mp hnewSecond
      exact absurd rfl hne

theorem Unproved.recordBlock {header : BlockHeader}
    (hunproved : Unproved crypto admitted (trackKey header) detector)
    (hnone : detector.seenBlocks.lookup (trackKey header) = none) :
    Unproved crypto (admitted ++ [header]) (trackKey header)
      (detector.recordBlock (trackKey header) (Tracked.new crypto header)) := by
  have habsent := hunproved.absent hnone
  constructor
  case absent =>
    intro hlookup
    rw [lookup_recordBlock_self] at hlookup
    cases hlookup
  case smallest =>
    intro stored hstored
    rw [lookup_recordBlock_self] at hstored
    obtain rfl := Option.some.inj hstored
    refine ⟨rfl, ?_⟩
    intro other hother hkey
    rcases List.mem_append.mp hother with hold | hnew
    · exact absurd hkey (habsent other hold)
    · obtain rfl := List.mem_singleton.mp hnew
      exact le_refl _
  case apart =>
    apply apart_append rfl hunproved
    intro other hother hkey
    exact absurd hkey (habsent other hother)

theorem Unproved.same_hash {header : BlockHeader} {stored : Tracked}
    (hunproved : Unproved crypto admitted (trackKey header) detector)
    (hfaithful : Faithful crypto (· ∈ admitted) detector)
    (hstored : detector.seenBlocks.lookup (trackKey header) = some stored)
    (hhash : stored.hash = header.hash crypto.blake3)
    (hsize : headerSize crypto stored.header = headerSize crypto header) :
    Unproved crypto (admitted ++ [header]) (trackKey header) detector := by
  have hstands := hfaithful _ stored hstored
  obtain ⟨hchecks, hsmallest⟩ := hunproved.smallest stored hstored
  constructor
  case absent =>
    intro hnone
    rw [hstored] at hnone
    cases hnone
  case smallest =>
    intro found hfound
    obtain rfl := Option.some.inj (hstored.symm.trans hfound)
    refine ⟨hchecks, ?_⟩
    intro other hother hkey
    rcases List.mem_append.mp hother with hold | hnew
    · exact hsmallest other hold hkey
    · obtain rfl := List.mem_singleton.mp hnew
      exact (hstands.size_eq.trans hsize).le
  case apart =>
    apply apart_append rfl hunproved
    intro other hother hkey hne
    have hfalse := hunproved.apart stored.header hstands.origin other hother hstands.key_eq
      hkey (by rwa [← hstands.hash_eq, hhash])
    rw [← Bool.not_eq_true, doubleProductionEvidenceFits_iff] at hfalse ⊢
    omega

theorem keep_false (stored candidate : Tracked) :
    keep stored candidate false =
      if candidate.size < stored.size then
        { candidate with checksAfterProof := stored.checksAfterProof }
      else stored := by
  simp [keep]

theorem Unproved.keep {header : BlockHeader} {stored : Tracked}
    {other : EquivocationDetector}
    (hunproved : Unproved crypto admitted (trackKey header) detector)
    (hfaithful : Faithful crypto (· ∈ admitted) detector)
    (hstored : detector.seenBlocks.lookup (trackKey header) = some stored)
    (hfits : doubleProductionEvidenceFits crypto (trackKey header).1 stored.header header =
      false)
    (hkept : other.seenBlocks.lookup (trackKey header) =
      some (EquivocationDetector.keep stored (Tracked.new crypto header) false)) :
    Unproved crypto (admitted ++ [header]) (trackKey header) other := by
  have hstands := hfaithful _ stored hstored
  obtain ⟨hchecks, hsmallest⟩ := hunproved.smallest stored hstored
  rw [← Bool.not_eq_true, doubleProductionEvidenceFits_iff, ← hstands.size_eq] at hfits
  constructor
  case absent =>
    intro hnone
    rw [hkept] at hnone
    cases hnone
  case smallest =>
    intro found hfound
    obtain rfl := Option.some.inj (hkept.symm.trans hfound)
    have hsizes : (EquivocationDetector.keep stored (Tracked.new crypto header) false).size =
        min (headerSize crypto header) stored.size ∧
        (EquivocationDetector.keep stored (Tracked.new crypto header) false).checksAfterProof =
          none := by
      rw [keep_false]
      split
      case isTrue hsmaller => exact ⟨(min_eq_left hsmaller.le).symm, hchecks⟩
      case isFalse hlarger => exact ⟨(min_eq_right (not_lt.mp hlarger)).symm, hchecks⟩
    refine ⟨hsizes.2, ?_⟩
    intro member hmember hkey
    rw [hsizes.1]
    rcases List.mem_append.mp hmember with hold | hnew
    · exact (min_le_right _ _).trans (hsmallest member hold hkey)
    · obtain rfl := List.mem_singleton.mp hnew
      exact min_le_left _ _
  case apart =>
    apply apart_append rfl hunproved
    intro member hmember hkey hne
    have hle := hsmallest member hmember hkey
    rw [← Bool.not_eq_true, doubleProductionEvidenceFits_iff]
    omega

theorem Unproved.checkAdmitted {header : BlockHeader}
    (hunproved : Unproved crypto admitted (trackKey header) detector)
    (hfaithful : Faithful crypto (· ∈ admitted) detector)
    (hsame : ∀ other ∈ admitted, passes header = true →
      other.hash crypto.blake3 = header.hash crypto.blake3 →
        headerSize crypto other = headerSize crypto header) :
    (∃ proof, (detector.checkAdmitted crypto passes header).1 = some proof ∧
        (proof.producer, proof.slot) = trackKey header) ∨
      Unproved crypto (admitted ++ if passes header then [header] else []) (trackKey header)
        (detector.checkAdmitted crypto passes header).2 := by
  unfold EquivocationDetector.checkAdmitted
  split
  case h_1 hskipped =>
    -- only a copy of the stored block is skipped before the first proof
    right
    dsimp only
    split
    case isFalse hpasses => simpa using hunproved
    case isTrue hpasses =>
      cases hstored : detector.seenBlocks.lookup (trackKey header) with
      | none => simp [countCheck, hstored] at hskipped
      | some stored =>
          have hchecks := (hunproved.smallest stored hstored).1
          have hhash : stored.hash = header.hash crypto.blake3 := by
            by_contra hne
            simp [countCheck, hstored, hne, hchecks] at hskipped
          have hstands := hfaithful _ stored hstored
          exact hunproved.same_hash hfaithful hstored hhash
            (hsame stored.header hstands.origin hpasses (hstands.hash_eq ▸ hhash))
  case h_2 counted hcounted =>
    obtain ⟨rfl, -⟩ | ⟨stored, checks, hstored, -, hchecks, -⟩ := countCheck_some hcounted
    case inr =>
      rw [(hunproved.smallest stored hstored).1] at hchecks
      cases hchecks
    case inl =>
      split
      case isFalse hpasses =>
        right
        simpa using hunproved
      case isTrue hpasses =>
        unfold pairCandidate
        dsimp only
        split
        case h_1 hnone => exact .inr (hunproved.recordBlock hnone)
        case h_2 stored hstored =>
          split
          case h_2 proof hproof =>
            left
            obtain ⟨rfl, -⟩ := proofOf_some hproof
            exact ⟨_, rfl, rfl⟩
          case h_1 hproof =>
            right
            have hfits : doubleProductionEvidenceFits crypto (trackKey header).1
                stored.header header = false := by
              unfold proofOf at hproof
              split at hproof
              case isTrue hfits => cases hproof
              case isFalse hfits => exact Bool.not_eq_true _ ▸ hfits
            refine hunproved.keep hfaithful hstored hfits ?_
            rw [hproof]
            exact Finmap.lookup_insert _

theorem Unproved.checkBlockWith {header : BlockHeader} {wallSlot : Nat}
    (hunproved : Unproved crypto admitted key detector)
    (hfaithful : Faithful crypto (· ∈ admitted) detector)
    (hsame : ∀ other ∈ admitted, passes header = true →
      other.hash crypto.blake3 = header.hash crypto.blake3 →
        headerSize crypto other = headerSize crypto header)
    (hroom : passes header = true → detector.seenBlocks.lookup (trackKey header) = none →
      detector.seenBlocks.keys.card < detector.maxTracked)
    (hahead : passes header = true → header.slot.toNat ≤ wallSlot + maxFutureSlots)
    (hslot : ∀ other ∈ admitted ++ (if passes header then [header] else []),
      wallSlot - slidingWindowSlots ≤ (trackKey other).2) :
    (∃ proof, (detector.checkBlockWith crypto passes header wallSlot).1 = some proof ∧
        (proof.producer, proof.slot) = key) ∨
      Unproved crypto (admitted ++ if passes header then [header] else []) key
        (detector.checkBlockWith crypto passes header wallSlot).2 := by
  have hmono : ∀ other, other ∈ admitted →
      other ∈ admitted ++ if passes header then [header] else [] :=
    fun other hother => List.mem_append_left _ hother
  have hstands := (@Faithful.checkAdmitted crypto passes detector _ (hfaithful.mono hmono)
    header fun hpasses => by simp [hpasses]).1
  unfold EquivocationDetector.checkBlockWith
  split
  case isTrue hfuture =>
    have hrefused : passes header = false := by
      by_contra hpasses
      have hle := hahead (Bool.not_eq_false _ ▸ hpasses)
      omega
    right
    simpa [hrefused] using hunproved
  case isFalse hpast =>
    dsimp only
    by_cases hkey : key = trackKey header
    · subst hkey
      rcases hunproved.checkAdmitted hfaithful hsame with hproved | hstill
      · exact .inl hproved
      · exact .inr (hstill.cleanup hstands hslot)
    · right
      refine Unproved.cleanup ?_ hstands hslot
      refine Unproved.of_lookup ?_ (lookup_checkAdmitted_of_ne hkey hroom)
      apply hunproved.append_of_ne
      intro other hother heq
      split at hother
      · rw [List.mem_singleton.mp hother] at heq
        exact hkey heq.symm
      · cases hother

end Unproved

section Completeness

variable {crypto : Crypto} {passes : BlockHeader → Bool} {crossed : Bool}

/-- The cap and the gate flag. -/
def settings (detector : EquivocationDetector) : Nat × Bool :=
  (detector.maxTracked, detector.gateCrossed)

theorem settings_cleanup (detector : EquivocationDetector) (minSlot : Nat) :
    (detector.cleanupBeforeSlot minSlot).settings = detector.settings := by
  unfold cleanupBeforeSlot
  split
  · rfl
  · rfl

theorem settings_pairCandidate (detector : EquivocationDetector) (header : BlockHeader) :
    (detector.pairCandidate crypto header).2.settings = detector.settings := by
  unfold pairCandidate
  dsimp only
  split
  case h_1 hnone => rfl
  case h_2 stored hstored =>
    split
    case h_1 hproof => rfl
    case h_2 proof hproof =>
      unfold queuePending
      dsimp only
      split
      · rfl
      · rfl

theorem settings_checkBlockWith (detector : EquivocationDetector) (header : BlockHeader)
    (wallSlot : Nat) :
    (detector.checkBlockWith crypto passes header wallSlot).2.settings = detector.settings := by
  unfold checkBlockWith
  split
  case isTrue hahead => rfl
  case isFalse hbehind =>
    dsimp only
    rw [settings_cleanup]
    unfold checkAdmitted
    split
    case h_1 hskipped => rfl
    case h_2 counted hcounted =>
      have hcount : counted.settings = detector.settings := by
        rcases countCheck_some hcounted with ⟨rfl, -⟩ | ⟨stored, checks, -, -, -, rfl⟩
        · rfl
        · rfl
      rw [← hcount]
      split
      case isFalse hpasses => rfl
      case isTrue hpasses => exact settings_pairCandidate counted header

theorem settings_stream (events : List DetectorEvent) :
    (stream crypto passes (started crossed) events).2.maxTracked = maxTrackedEntries ∧
      (crossed = true →
        (stream crypto passes (started crossed) events).2.gateCrossed = true) := by
  induction events using List.reverseRecOn with
  | nil => exact ⟨rfl, id⟩
  | append_singleton events event ih =>
      rw [stream_append_singleton]
      cases event with
      | noteGate prospectiveHeight gate =>
          change ((stream crypto passes (started crossed) events).2.noteGate
            prospectiveHeight gate).maxTracked = _ ∧ (_ →
              ((stream crypto passes (started crossed) events).2.noteGate
                prospectiveHeight gate).gateCrossed = true)
          unfold noteGate
          split
          case isTrue hcrossing => exact ⟨ih.1, fun _ => rfl⟩
          case isFalse hkept => exact ih
      | takePendingProofs => exact ih
      | checkBlock header wallSlot =>
          obtain ⟨hmax, hgate⟩ := Prod.mk.inj (@settings_checkBlockWith crypto passes
            (stream crypto passes (started crossed) events).2 header wallSlot)
          exact ⟨hmax.trans ih.1, fun hcrossed => hgate.trans (ih.2 hcrossed)⟩

theorem card_lt_of_new {events : List DetectorEvent} {header : BlockHeader} {wallSlot : Nat}
    (hwindow : InWindow passes crossed (events ++ [.checkBlock header wallSlot]))
    (hpasses : passes header = true)
    (hnone : (stream crypto passes (started crossed) events).2.seenBlocks.lookup
      (trackKey header) = none) :
    (stream crypto passes (started crossed) events).2.seenBlocks.keys.card <
      (stream crypto passes (started crossed) events).2.maxTracked := by
  rw [(settings_stream events).1]
  refine lt_of_lt_of_le ?_ hwindow.room
  have hnew : trackKey header ∉
      (stream crypto passes (started crossed) events).2.seenBlocks.keys := by
    rw [Finmap.mem_keys]
    exact Finmap.lookup_eq_none.mp hnone
  rw [Nat.lt_iff_add_one_le, ← Finset.card_insert_of_notMem hnew]
  apply Finset.card_le_card
  intro key hkey
  rw [List.mem_toFinset, List.mem_map, admittedHeaders_append_singleton]
  rcases Finset.mem_insert.mp hkey with rfl | hold
  · refine ⟨header, List.mem_append_right _ ?_, rfl⟩
    rw [admittedHeader, if_pos hpasses]
    exact List.mem_singleton_self header
  · obtain ⟨tracked, htracked⟩ := Finmap.mem_iff.mp (Finmap.mem_keys.mp hold)
    have hstands := (sound_stream crossed events).1 key tracked htracked
    exact ⟨tracked.header, List.mem_append_left _ hstands.origin, hstands.key_eq⟩

/-- The run rule of completeness: every producer and slot is proved or has
nothing to prove. -/
theorem settled_stream {events : List DetectorEvent}
    (hwindow : InWindow passes crossed events)
    (hsame : ∀ first ∈ admittedHeaders passes events,
      ∀ second ∈ admittedHeaders passes events,
        first.hash crypto.blake3 = second.hash crypto.blake3 →
          headerSize crypto first = headerSize crypto second) (key : TrackKey) :
    (∃ proof ∈ (stream crypto passes (started crossed) events).1,
        (proof.producer, proof.slot) = key) ∨
      Unproved crypto (admittedHeaders passes events) key
        (stream crypto passes (started crossed) events).2 := by
  induction events using List.reverseRecOn with
  | nil =>
      right
      constructor
      · intro hnone header hheader
        cases hheader
      · intro stored hstored
        simp [stream, started, new] at hstored
      · intro first hfirst
        cases hfirst
  | append_singleton events event ih =>
      have hmem : ∀ header ∈ admittedHeaders passes events,
          header ∈ admittedHeaders passes (events ++ [event]) := by
        intro header hheader
        rw [admittedHeaders_append_singleton]
        exact List.mem_append_left _ hheader
      have hbefore := ih hwindow.of_append_singleton fun first hfirst second hsecond =>
        hsame first (hmem first hfirst) second (hmem second hsecond)
      rw [stream_append_singleton]
      rcases hbefore with ⟨proof, hproof, hkey⟩ | hunproved
      · exact .inl ⟨proof, List.mem_append_left _ hproof, hkey⟩
      set detector := (stream crypto passes (started crossed) events).2 with hdetector
      have hfaithful := (@sound_stream crypto passes crossed events).1
      rw [← hdetector] at hfaithful
      rw [admittedHeaders_append_singleton]
      cases event with
      | noteGate prospectiveHeight gate =>
          right
          have hkept : detector.noteGate prospectiveHeight gate = detector := by
            unfold noteGate
            rw [if_neg]
            rcases hwindow.gate with hcrossed | hbelow
            · rw [hdetector, (settings_stream events).2 hcrossed]
              simp
            · have hlt := hbelow prospectiveHeight gate (by simp)
              simp [Nat.not_le_of_lt hlt]
          change Unproved crypto (_ ++ []) key (detector.noteGate prospectiveHeight gate)
          rw [hkept, List.append_nil]
          exact hunproved
      | takePendingProofs =>
          right
          change Unproved crypto (_ ++ []) key detector.takePendingProofs
          rw [List.append_nil]
          exact hunproved.of_lookup rfl
      | checkBlock header wallSlot =>
          have hslots := fun other => @InWindow.le_slot passes crossed events other header
            wallSlot hwindow
          rw [admittedHeaders_append_singleton, toList_admittedHeader] at hslots
          rw [toList_admittedHeader]
          have hsameHeader : ∀ other ∈ admittedHeaders passes events, passes header = true →
              other.hash crypto.blake3 = header.hash crypto.blake3 →
                headerSize crypto other = headerSize crypto header := by
            intro other hother hpasses
            refine hsame other (hmem other hother) header ?_
            rw [mem_admittedHeaders]
            exact ⟨hpasses, wallSlot, by simp⟩
          have hroom := fun hpasses hnone =>
            @card_lt_of_new crypto passes crossed events header wallSlot hwindow hpasses hnone
          rw [← hdetector] at hroom
          have hahead := hwindow.notAhead header wallSlot (by simp)
          rcases hunproved.checkBlockWith hfaithful hsameHeader hroom hahead hslots with
            ⟨proof, hproof, hkey⟩ | hstill
          · refine .inl ⟨proof, List.mem_append_right _ ?_, hkey⟩
            rw [Option.mem_toList]
            exact hproof
          · exact .inr hstill

end Completeness

/-! ## Admission by the evidence rules -/

/-- `detector_admits` above the gate. -/
def admits (ctx : ValidationContext) (header : BlockHeader) : Bool :=
  (evidenceHeaderAdmissible ctx header).isOk

theorem admits_iff {ctx : ValidationContext} {header : BlockHeader} :
    admits ctx header = true ↔ evidenceHeaderAdmissible ctx header = .ok () := by
  unfold admits
  cases evidenceHeaderAdmissible ctx header with
  | error error => simp [Except.isOk, Except.toBool]
  | ok value => simp [Except.isOk, Except.toBool]

/-- The bytes hashed for the admitted headers. -/
def hashedHeaders (ctx : ValidationContext) (events : List DetectorEvent) : Set Bytes :=
  {bytes | ∃ header ∈ admittedHeaders (admits ctx) events, bytes = header.hashPreimage}

theorem equivocation_detected (ctx : ValidationContext) (crossed : Bool)
    (events : List DetectorEvent)
    (hinjective : Set.InjOn ctx.crypto.blake3 (hashedHeaders ctx events)) :
    (∀ proof ∈ (stream ctx.crypto (admits ctx) (started crossed) events).1,
      Proves ctx.crypto (· ∈ admittedHeaders (admits ctx) events) proof) ∧
    (InWindow (admits ctx) crossed events →
      ∀ first ∈ admittedHeaders (admits ctx) events,
      ∀ second ∈ admittedHeaders (admits ctx) events,
        trackKey first = trackKey second →
        first.hash ctx.crypto.blake3 ≠ second.hash ctx.crypto.blake3 →
        doubleProductionEvidenceFits ctx.crypto first.producer first second = true →
          ∃ proof ∈ (stream ctx.crypto (admits ctx) (started crossed) events).1,
            (proof.producer, proof.slot) = trackKey first) := by
  refine ⟨(sound_stream crossed events).2, ?_⟩
  intro hwindow first hfirst second hsecond hkey hne hfits
  have hsame : ∀ left ∈ admittedHeaders (admits ctx) events,
      ∀ right ∈ admittedHeaders (admits ctx) events,
        left.hash ctx.crypto.blake3 = right.hash ctx.crypto.blake3 →
          headerSize ctx.crypto left = headerSize ctx.crypto right := by
    intro left hleft right hright hhash
    refine headerSize_eq_of_hash (admits_iff.mp (mem_admittedHeaders.mp hleft).1)
      (admits_iff.mp (mem_admittedHeaders.mp hright).1) ?_
    exact hinjective ⟨left, hleft, rfl⟩ ⟨right, hright, rfl⟩ hhash
  rcases settled_stream hwindow hsame (trackKey first) with hproved | hunproved
  · exact hproved
  · have hapart := hunproved.apart first hfirst second hsecond rfl hkey.symm hne
    rw [show (trackKey first).1 = first.producer from rfl, hfits] at hapart
    cases hapart

theorem InWindow.of_all {passes : BlockHeader → Bool} {events : List DetectorEvent}
    (hslots : ∀ header wallSlot, .checkBlock header wallSlot ∈ events →
      header.slot.toNat ≤ wallSlot + maxFutureSlots ∧ ∀ later other,
        .checkBlock later other ∈ events →
          other - slidingWindowSlots ≤ header.slot.toNat)
    (hroom : events.length ≤ maxTrackedEntries) : InWindow passes true events where
  notAhead header wallSlot hmem _ := (hslots header wallSlot hmem).1
  notPast before event rest header hsplit hheader later wallSlot hlater := by
    have hevent : header ∈ admittedHeaders passes events := by
      rw [hsplit, admittedHeaders, List.mem_filterMap]
      exact ⟨event, by simp, hheader⟩
    obtain ⟨-, wall, hmem⟩ := mem_admittedHeaders.mp hevent
    refine (hslots header wall hmem).2 later wallSlot ?_
    rw [hsplit]
    exact List.mem_append_right _ hlater
  room := by
    refine (List.toFinset_card_le _).trans ?_
    rw [List.length_map, admittedHeaders]
    exact (List.length_filterMap_le _ _).trans hroom
  gate := .inl rfl

/-- A signed header over the sample hash, with its VDF output. -/
def sampleProduced (merkleRoot : Hash) (signature : Signature) : BlockHeader :=
  let header := { Validation.sampleHeader with
    merkleRoot := merkleRoot
    vdfProof := signature.asBytes }
  { header with
    vdfOutput := (Validation.hashChainVdf sampleBlake3 (header.vdfInput sampleBlake3)
      2).asBytes }

theorem trackKey_sampleProduced (merkleRoot : Hash) (signature : Signature) :
    trackKey (sampleProduced merkleRoot signature) = (⟨5⟩, 5) := rfl

theorem hashPreimage_sampleProduced (merkleRoot : Hash) (first second : Signature) :
    (sampleProduced merkleRoot first).hashPreimage =
      (sampleProduced merkleRoot second).hashPreimage := rfl

def sampleStream (first second : BlockHeader) : List DetectorEvent :=
  [.checkBlock first 5, .checkBlock second 5]

theorem inWindow_sampleStream {first second : BlockHeader} (hfirst : first.slot = 5)
    (hsecond : second.slot = 5) (passes : BlockHeader → Bool) :
    InWindow passes true (sampleStream first second) := by
  have hmem : ∀ header wallSlot, .checkBlock header wallSlot ∈ sampleStream first second →
      header.slot = 5 ∧ wallSlot = 5 := by
    intro header wallSlot hheader
    simp only [sampleStream, List.mem_cons, DetectorEvent.checkBlock.injEq,
      List.not_mem_nil, or_false] at hheader
    rcases hheader with ⟨rfl, rfl⟩ | ⟨rfl, rfl⟩
    · exact ⟨hfirst, rfl⟩
    · exact ⟨hsecond, rfl⟩
  apply InWindow.of_all
  · intro header wallSlot hheader
    obtain ⟨hslot, rfl⟩ := hmem header wallSlot hheader
    rw [hslot]
    refine ⟨by decide, ?_⟩
    intro later other hlater
    obtain ⟨-, rfl⟩ := hmem later other hlater
    decide
  · change 2 ≤ maxTrackedEntries
    decide

theorem injOn_hashedHeaders_pair {ctx : ValidationContext} {events : List DetectorEvent}
    {first second : BlockHeader}
    (hadmitted : admittedHeaders (admits ctx) events = [first, second])
    (hpair : first.hash ctx.crypto.blake3 = second.hash ctx.crypto.blake3 →
      first.hashPreimage = second.hashPreimage) :
    Set.InjOn ctx.crypto.blake3 (hashedHeaders ctx events) := by
  rintro left ⟨header, hheader, rfl⟩ right ⟨other, hother, rfl⟩ hhash
  rw [hadmitted] at hheader hother
  simp only [List.mem_cons, List.not_mem_nil, or_false] at hheader hother
  rcases hheader with rfl | rfl
  · rcases hother with rfl | rfl
    · rfl
    · exact hpair hhash
  · rcases hother with rfl | rfl
    · exact (hpair hhash.symm).symm
    · rfl

/-- Two blocks of one slot under different roots. -/
theorem equivocation_detected_pair :
    ∃ proof ∈ (stream sampleCrypto (admits (Validation.sampleContext 5)) (started true)
        (sampleStream (sampleProduced ⟨1⟩ ⟨1⟩) (sampleProduced ⟨2⟩ ⟨1⟩))).1,
      (proof.producer, proof.slot) = ((⟨5⟩ : PublicKey), 5) := by
  have hadmitted : admittedHeaders (admits (Validation.sampleContext 5))
      (sampleStream (sampleProduced ⟨1⟩ ⟨1⟩) (sampleProduced ⟨2⟩ ⟨1⟩)) =
        [sampleProduced ⟨1⟩ ⟨1⟩, sampleProduced ⟨2⟩ ⟨1⟩] := by
    decide +kernel
  have hnodup : (sampleProduced ⟨1⟩ ⟨1⟩).hash sampleBlake3 ≠
      (sampleProduced ⟨2⟩ ⟨1⟩).hash sampleBlake3 := by
    decide +kernel
  have hinjective : Set.InjOn sampleBlake3 (hashedHeaders (Validation.sampleContext 5)
      (sampleStream (sampleProduced ⟨1⟩ ⟨1⟩) (sampleProduced ⟨2⟩ ⟨1⟩))) :=
    injOn_hashedHeaders_pair hadmitted fun hhash => absurd hhash hnodup
  have hdetected := (equivocation_detected (Validation.sampleContext 5) true
    (sampleStream (sampleProduced ⟨1⟩ ⟨1⟩) (sampleProduced ⟨2⟩ ⟨1⟩)) hinjective).2
      (inWindow_sampleStream rfl rfl _)
  rw [hadmitted] at hdetected
  exact hdetected _ List.mem_cons_self _ (List.mem_cons_of_mem _ List.mem_cons_self) rfl
    hnodup (by decide +kernel)

/-- One block signed twice: two headers, one hash, no proof. -/
theorem signed_twice_undetected :
    ¬∀ (ctx : ValidationContext) (crossed : Bool) (events : List DetectorEvent),
      Set.InjOn ctx.crypto.blake3 (hashedHeaders ctx events) →
      InWindow (admits ctx) crossed events →
      ∀ first ∈ admittedHeaders (admits ctx) events,
      ∀ second ∈ admittedHeaders (admits ctx) events,
        trackKey first = trackKey second → first ≠ second →
        doubleProductionEvidenceFits ctx.crypto first.producer first second = true →
          ∃ proof ∈ (stream ctx.crypto (admits ctx) (started crossed) events).1,
            (proof.producer, proof.slot) = trackKey first := by
  intro hclaim
  have hadmitted : admittedHeaders (admits (Validation.sampleContext 5))
      (sampleStream (sampleProduced ⟨1⟩ ⟨1⟩) (sampleProduced ⟨1⟩ ⟨2⟩)) =
        [sampleProduced ⟨1⟩ ⟨1⟩, sampleProduced ⟨1⟩ ⟨2⟩] := by
    decide +kernel
  have hnone : (stream sampleCrypto (admits (Validation.sampleContext 5)) (started true)
      (sampleStream (sampleProduced ⟨1⟩ ⟨1⟩) (sampleProduced ⟨1⟩ ⟨2⟩))).1 = [] := by
    decide +kernel
  have hinjective : Set.InjOn sampleBlake3 (hashedHeaders (Validation.sampleContext 5)
      (sampleStream (sampleProduced ⟨1⟩ ⟨1⟩) (sampleProduced ⟨1⟩ ⟨2⟩))) :=
    injOn_hashedHeaders_pair hadmitted fun _ => hashPreimage_sampleProduced _ _ _
  have hproved := hclaim (Validation.sampleContext 5) true _ hinjective
    (inWindow_sampleStream rfl rfl _)
  rw [hadmitted] at hproved
  obtain ⟨proof, hproof, -⟩ := hproved _ List.mem_cons_self _
    (List.mem_cons_of_mem _ List.mem_cons_self)
    ((trackKey_sampleProduced _ _).trans (trackKey_sampleProduced _ _).symm)
    (by decide +kernel) (by decide +kernel)
  change proof ∈ (stream sampleCrypto (admits (Validation.sampleContext 5)) (started true)
    (sampleStream (sampleProduced ⟨1⟩ ⟨1⟩) (sampleProduced ⟨1⟩ ⟨2⟩))).1 at hproof
  rw [hnone] at hproof
  cases hproof

end EquivocationDetector

end Doli.Network
