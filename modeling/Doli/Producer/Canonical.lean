import Doli.Producer.Wire

/-!
# What the canonical form fixes

The canonical bytes of a decoded producer set are self-delimiting, so they fix
the rows up to the order inside the sorted vectors, and the exits.
-/

namespace Doli.Producer

open Doli.Core Doli.Lib Doli.Storage

namespace Wire

/-- The 32 bytes of a hash, without a length. -/
def rawHash : Codec Hash :=
  (Codec.raw 32).refine (fun bytes => some (.fromBytes bytes)) Hash.asBytes (fun _ => True)
    (fun value _ => ⟨by simp [Codec.raw], by simp⟩) (fun _ _ _ => trivial)

def canonicalChain : Codec ChainState :=
  (rawHash.pair <| u64.pair <| u32.pair <| u64.pair <| rawHash.pair <| u64.pair <|
    rawHash.pair <| u64.pair u64).wrap
  (fun (bestHash, bestHeight, bestSlot, totalWork, genesisHash, genesisTimestamp,
      lastRegistrationHash, registrationSequence, totalMinted) =>
    { bestHash, bestHeight, bestSlot, totalWork, genesisHash, genesisTimestamp,
      lastRegistrationHash, registrationSequence, totalMinted
      snapSyncHeight := none
      activeProtocolVersion := 0
      pendingProtocolActivation := none })
  (fun state => some (state.bestHash, state.bestHeight, state.bestSlot, state.totalWork,
    state.genesisHash, state.genesisTimestamp, state.lastRegistrationHash,
    state.registrationSequence, state.totalMinted))
  fun _ => rfl

variable (validKey : PublicKey → Bool)

def canonicalSet : Codec (List (Hash × ProducerInfo) × List (Hash × Nat)) :=
  (rawHash.pair ((producerInfo validKey).prefixed 4)).list.pair (rawHash.pair u64).list

end Wire

/-! ## The chain state -/

/-- The fields that the canonical form covers. -/
def rootedFields (state : ChainState) : ChainState :=
  { state with
    snapSyncHeight := none, activeProtocolVersion := 0, pendingProtocolActivation := none }

theorem rootedFields_eq_iff {first second : ChainState} :
    rootedFields first = rootedFields second ↔
      second = { first with
        snapSyncHeight := second.snapSyncHeight
        activeProtocolVersion := second.activeProtocolVersion
        pendingProtocolActivation := second.pendingProtocolActivation } := by
  cases first
  cases second
  simp [rootedFields, ChainState.mk.injEq, eq_comm]

theorem legal_rootedFields {state : ChainState} (hlegal : Wire.chainState.Legal state) :
    Wire.canonicalChain.Legal (rootedFields state) := by
  obtain ⟨part, ⟨hhash, hheight, hslot, hwork, hgenesis, htime, hlast, hsequence, hminted, -⟩,
    rfl⟩ := hlegal
  refine ⟨(_, _, _, _, _, _, _, _, _),
    ⟨trivial, hheight, hslot, hwork, trivial, htime, trivial, hsequence, hminted⟩, rfl⟩

theorem canonicalChainState_inj {first second : ChainState} (hfirst : Wire.chainState.Legal first)
    (hsecond : Wire.chainState.Legal second)
    (hbytes : canonicalChainState first = canonicalChainState second) :
    rootedFields first = rootedFields second :=
  Wire.canonicalChain.encode_inj (legal_rootedFields hfirst) (legal_rootedFields hsecond) hbytes

/-! ## One producer -/

variable {validKey : PublicKey → Bool}

theorem legal_insertionSort {α : Type} {codec : Codec α} {le : α → α → Prop} [DecidableRel le]
    {values : List α} (hlegal : codec.list.Legal values) :
    codec.list.Legal (values.insertionSort le) := by
  refine ⟨?_, fun value hvalue => hlegal.2 value ((List.mem_insertionSort le).mp hvalue)⟩
  rw [List.length_insertionSort]
  exact hlegal.1

theorem legal_producerInfo_iff {info : ProducerInfo} :
    (Wire.producerInfo validKey).Legal info ↔
      (Wire.infoParts validKey).Legal (Wire.infoFields info) :=
  Codec.wrap_legal_iff rfl

theorem legal_sortedVectors {info : ProducerInfo}
    (hlegal : (Wire.producerInfo validKey).Legal info) :
    (Wire.producerInfo validKey).Legal info.sortedVectors := by
  rw [legal_producerInfo_iff] at hlegal ⊢
  simp only [Wire.infoParts, Wire.infoFields, Codec.pair_legal,
    ProducerInfo.sortedVectors] at hlegal ⊢
  obtain ⟨h1, h2, h3, h4, h5, h6, h7, h8, h9, h10, h11, h12, h13, hbonds, h15, h16,
    hreceived, hentries, h19, h20⟩ := hlegal
  exact ⟨h1, h2, h3, h4, h5, h6, h7, h8, h9, h10, h11, h12, h13, legal_insertionSort hbonds,
    h15, h16, legal_insertionSort hreceived, legal_insertionSort hentries, h19, h20⟩

theorem eq_of_sortedVectors {first second : ProducerInfo}
    (hsorted : first.sortedVectors = second.sortedVectors) :
    second = { first with
        additionalBonds := second.additionalBonds
        receivedDelegations := second.receivedDelegations
        bondEntries := second.bondEntries } ∧
      first.additionalBonds.Perm second.additionalBonds ∧
      first.receivedDelegations.Perm second.receivedDelegations ∧
      first.bondEntries.Perm second.bondEntries := by
  have hperm : ∀ {α : Type} {le : α → α → Prop} [DecidableRel le] {left right : List α},
      left.insertionSort le = right.insertionSort le → left.Perm right := by
    intro α le _ left right hsame
    have hleft := List.perm_insertionSort le left
    rw [hsame] at hleft
    exact hleft.symm.trans (List.perm_insertionSort le right)
  refine ⟨?_, hperm (congrArg ProducerInfo.additionalBonds hsorted),
    hperm (congrArg ProducerInfo.receivedDelegations hsorted),
    hperm (congrArg ProducerInfo.bondEntries hsorted)⟩
  cases first
  cases second
  simp only [ProducerInfo.sortedVectors, ProducerInfo.mk.injEq] at hsorted ⊢
  tauto

/-! ## The producer set -/

/-- A set as it comes from the wire. -/
structure WireFits (validKey : PublicKey → Bool) (set : ProducerSet) : Prop where
  producerCount : set.producers.keys.card < 256 ^ 8
  exitCount : set.exitHistory.keys.card < 256 ^ 8
  info : ∀ {key info}, set.producers.lookup key = some info →
    (Wire.producerInfo validKey).Legal info
  exit : ∀ {key height}, set.exitHistory.lookup key = some height → height < 256 ^ 8
  queue : (Wire.pendingUpdate validKey).list.Legal set.pendingUpdates
  index : set.unbondingIndex = ProducerSet.rebuildUnbondingIndex set.producers

theorem wireFits_of_fromSnapshotBytes {bytes : Bytes} {set : ProducerSet}
    (hread : ProducerSet.fromSnapshotBytes validKey bytes = some set) :
    WireFits validKey set := by
  unfold ProducerSet.fromSnapshotBytes at hread
  rw [Option.map_eq_some_iff] at hread
  obtain ⟨⟨⟨producers, exits, queue⟩, rest⟩, hdecode, rfl⟩ := hread
  obtain ⟨hproducers, hexits, hqueue⟩ := (Wire.producerSet validKey).legal_of_decode hdecode
  exact
    { producerCount := (card_insertAll_le producers).trans_lt hproducers.1
      exitCount := (card_insertAll_le exits).trans_lt hexits.1
      info := fun hlookup => (hproducers.2 _ (mem_of_lookup_insertAll hlookup)).2
      exit := fun hlookup => (hexits.2 _ (mem_of_lookup_insertAll hlookup)).2
      queue := hqueue
      index := rfl }

/-- The rows as the canonical form writes them. -/
def canonicalSetRows (set : ProducerSet) : List (Hash × ProducerInfo) × List (Hash × Nat) :=
  ((sortedRows Hash.bytesLe set.producers).map fun row => (row.1, row.2.sortedVectors),
    sortedRows Hash.bytesLe set.exitHistory)

theorem serializeCanonical_eq (set : ProducerSet) :
    set.serializeCanonical validKey =
      (Wire.canonicalSet validKey).encode (canonicalSetRows set) := by
  change _ = (leBytes 8 _ ++ Codec.encodeMany _ _) ++ (leBytes 8 _ ++ Codec.encodeMany _ _)
  unfold ProducerSet.serializeCanonical canonicalSetRows Codec.encodeMany
  dsimp only
  rw [List.length_map, List.map_map, List.append_assoc]
  rfl

theorem legal_canonicalSetRows {set : ProducerSet} (hfits : WireFits validKey set) :
    (Wire.canonicalSet validKey).Legal (canonicalSetRows set) := by
  refine ⟨⟨?_, fun row hrow => ?_⟩, ?_, fun row hrow => ⟨trivial, ?_⟩⟩
  · rw [canonicalSetRows, List.length_map, sortedRows_length]
    exact hfits.producerCount
  · obtain ⟨source, hsource, rfl⟩ := List.mem_map.mp hrow
    exact ⟨trivial, legal_sortedVectors (hfits.info ((mem_sortedRows _).mp hsource))⟩
  · rw [canonicalSetRows, sortedRows_length]
    exact hfits.exitCount
  · exact hfits.exit ((mem_sortedRows _).mp hrow)

/-- Both sets have the same rows up to the order inside the vectors. -/
def SameRows (first second : ProducerSet) : Prop :=
  (∀ key, (first.producers.lookup key).map ProducerInfo.sortedVectors =
      (second.producers.lookup key).map ProducerInfo.sortedVectors) ∧
    first.exitHistory = second.exitHistory

theorem SameRows.unbondingIndex {first second : ProducerSet} (hsame : SameRows first second)
    (hfirst : WireFits validKey first) (hsecond : WireFits validKey second) :
    first.unbondingIndex = second.unbondingIndex := by
  have hkeys : first.producers.keys = second.producers.keys := by
    refine Finset.ext fun key => ?_
    rw [Finmap.mem_keys, Finmap.mem_keys, ← Finmap.lookup_isSome, ← Finmap.lookup_isSome,
      ← Option.isSome_map, hsame.1 key, Option.isSome_map]
  have hstatus : ∀ key, (first.producers.lookup key).map ProducerInfo.status =
      (second.producers.lookup key).map ProducerInfo.status := by
    intro key
    have hrow := congrArg (Option.map ProducerInfo.status) (hsame.1 key)
    rw [Option.map_map, Option.map_map] at hrow
    exact hrow
  have hindex : ProducerSet.indexRow first.producers = ProducerSet.indexRow second.producers := by
    funext index key
    unfold ProducerSet.indexRow
    rw [hstatus]
  rw [hfirst.index, hsecond.index]
  unfold ProducerSet.rebuildUnbondingIndex
  rw [hkeys, hindex]

theorem lookup_of_sortedRows {first second : Column Hash ProducerInfo} (key : Hash)
    (hrows : (sortedRows Hash.bytesLe first).map (fun row => (row.1, row.2.sortedVectors)) =
      (sortedRows Hash.bytesLe second).map fun row => (row.1, row.2.sortedVectors))
    {info : ProducerInfo} (hlookup : first.lookup key = some info) :
    (second.lookup key).map ProducerInfo.sortedVectors = some info.sortedVectors := by
  have hmem : (key, info.sortedVectors) ∈
      (sortedRows Hash.bytesLe first).map fun row => (row.1, row.2.sortedVectors) :=
    List.mem_map.mpr ⟨(key, info), (mem_sortedRows _).mpr hlookup, rfl⟩
  rw [hrows, List.mem_map] at hmem
  obtain ⟨row, hrow, hpair⟩ := hmem
  obtain ⟨rfl, hinfo⟩ := Prod.mk.inj hpair
  rw [(mem_sortedRows _).mp hrow, Option.map_some, hinfo]

theorem sameRows_of_canonicalSetRows {first second : ProducerSet}
    (hrows : canonicalSetRows first = canonicalSetRows second) : SameRows first second := by
  obtain ⟨hproducers, hexits⟩ := Prod.mk.inj hrows
  refine ⟨fun key => ?_, sortedRows_injective _ hexits⟩
  cases hfirst : first.producers.lookup key with
  | some info =>
      rw [lookup_of_sortedRows key hproducers hfirst]
      rfl
  | none =>
      cases hsecond : second.producers.lookup key with
      | none => rfl
      | some info =>
          have hother := lookup_of_sortedRows key hproducers.symm hsecond
          simp [hfirst] at hother

/-- The bytes of the pending queue, which the bound component hashes. -/
def queueBytes (validKey : PublicKey → Bool) (set : ProducerSet) : Bytes :=
  (Wire.pendingUpdate validKey).list.encode set.pendingUpdates

/-- A bound component fixes the rows and the queue: the canonical form ends where
the hash of the queue starts, and an empty queue leaves no hash. -/
theorem stateRootBytes_inj {blake3 : Bytes → Hash} {first second : ProducerSet}
    (hfirst : WireFits validKey first) (hsecond : WireFits validKey second)
    (hhash : blake3 (queueBytes validKey first) = blake3 (queueBytes validKey second) →
      queueBytes validKey first = queueBytes validKey second)
    (hbytes : first.stateRootBytes validKey blake3 true =
      second.stateRootBytes validKey blake3 true) :
    SameRows first second ∧ first.pendingUpdates = second.pendingUpdates := by
  have hsplit : ∀ set : ProducerSet, set.stateRootBytes validKey blake3 true =
      (Wire.canonicalSet validKey).encode (canonicalSetRows set) ++
        if set.pendingUpdates = [] then [] else (blake3 (queueBytes validKey set)).asBytes := by
    intro set
    unfold ProducerSet.stateRootBytes
    rw [serializeCanonical_eq]
    by_cases hempty : set.pendingUpdates = []
    · simp [hempty]
    · simp [hempty, queueBytes]
  rw [hsplit, hsplit] at hbytes
  obtain ⟨hrows, hsuffix⟩ := (Wire.canonicalSet validKey).encode_append_inj
    (legal_canonicalSetRows hfirst) (legal_canonicalSetRows hsecond) hbytes
  refine ⟨sameRows_of_canonicalSetRows hrows, ?_⟩
  have hlength := congrArg List.length hsuffix
  split at hsuffix
  case isTrue hleft =>
    split at hsuffix
    case isTrue hright => rw [hleft, hright]
    case isFalse hright => simp [hleft, hright] at hlength
  case isFalse hleft =>
    split at hsuffix
    case isTrue hright => simp [hleft, hright] at hlength
    case isFalse hright =>
      have hsame := congrArg Hash.fromBytes hsuffix
      rw [Hash.fromBytes_asBytes, Hash.fromBytes_asBytes] at hsame
      exact (Wire.pendingUpdate validKey).list.encode_inj hfirst.queue hsecond.queue
        (hhash hsame)

end Doli.Producer
