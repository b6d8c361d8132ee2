import Doli.Node.Rollback
import Doli.Validation.Prepass
import Doli.Validation.ProducerSchedule

/-!
# Producing a block

A tick of the production timer.  The node decides whether the slot is its own, marks the slot
as signed on the disk, builds the header and signs it, unless the chain has moved meanwhile.
The rest of the node goes on between the readings of a tick, so a tick takes them as they
come.
-/

namespace Doli.Node

open Doli.Core Doli.Lib Doli.Storage Doli.Producer
open Doli.Validation (BlockHeader Crypto Network ConsensusParams ValidationMode reentryInterval
  bootstrapScheduleWithLiveness isProducerEligibleMs hashChainVdf)

/-! ## The bootstrap producers -/

/-- What gossip knows; `gset` is `active_producers(7200)`. -/
structure DiscoveredProducers where
  gset : List PublicKey
  known : List PublicKey

def DiscoveredProducers.keys (found : DiscoveredProducers) : List PublicKey :=
  if found.gset = [] then found.known else found.gset

structure BootstrapLists where
  producers : List PublicKey
  live : List PublicKey
  stale : List PublicKey

def byKey (keys : List PublicKey) : List PublicKey :=
  keys.insertionSort fun left right => left.word.toNat ≤ right.word.toNat

section

variable (config : NodeConfig) (node : NodeState) (found : DiscoveredProducers)
  (height : Nat)

/-- A key that is not registered yet has nothing to wait for. -/
def pastActivationDelay (key : PublicKey) : Bool :=
  match node.producerSet.getByPubkey config.utxo.prim key with
  | none => true
  | some info =>
      info.isActive &&
        (info.registeredAt = 0 || info.registeredAt + activationDelay ≤ height)

def producedWithin (window : Nat) (key : PublicKey) : Bool :=
  match node.producerLiveness.lookup key with
  | some last => height - 1 - window ≤ last
  | none => height - 1 < window

/-- If nobody is live everybody is. -/
def splitByLiveness (producers : List PublicKey) : BootstrapLists :=
  let window := max livenessWindowMin (min (producers.length * 3) (2 ^ 64 - 1))
  let live := producers.filter (producedWithin node height window)
  if live = [] then ⟨producers, producers, []⟩
  else ⟨producers, live, producers.filter fun key => !producedWithin node height window key⟩

/-- The lists of `validate_block_for_apply`.  A synced block is judged without them. -/
def validationLists : ValidationMode → BootstrapLists
  | .full => splitByLiveness node height
      (byKey (found.keys.filter (pastActivationDelay config node height)))
  | .light => ⟨[], [], []⟩
  | .replay => ⟨[], [], []⟩

/-- The list of a producer: the chain's own set first, and its local view when its key is
missing. -/
def bootstrapRoster (key : PublicKey) : List PublicKey :=
  let onChain := config.activeKeys node.producerSet height
  let listed := if onChain ≠ [] then onChain else found.keys
  let own :=
    if key ∈ listed then listed
    else
      let fallback := if found.known ≠ [] then found.known else listed
      if key ∈ fallback then fallback else fallback ++ [key]
  byKey (own.filter (pastActivationDelay config node height))

end

/-! ## The producer -/

/-- `currentForkId` and the gate are those of the network; `sign` is the producer key. -/
structure ProductionConfig where
  node : NodeConfig
  network : Network
  params : ConsensusParams
  crypto : Crypto
  key : PublicKey
  sign : Hash → Bytes
  currentForkId : Hash
  forkIdActivationHeight : Nat
  bootstrapNodes : Bool

/-- The roots of an assembled block. -/
structure BlockContent where
  merkleRoot : Hash
  presenceRoot : Hash
  dataRoot : Hash

/-- What a tick reads, in this order.  Times are in seconds but for those of `Ms`, and a
timer that was never started reads `none`. -/
structure TickReadings where
  rebuildHalt : Bool
  updateBlocked : Bool
  hardforkBlocked : Bool
  now : Nat
  authorized : Bool
  blockStored : Bool
  blockSeen : Bool
  bestPeerHeight : Nat
  bestPeerSlot : Nat
  peerCount : Nat
  noEvidence : Bool
  listChangedSecs : Option Nat
  firstPeerSecs : Option Nat
  nowMs : Nat
  heartbeatMs : Nat
  slotAfterYield : Nat
  swapFails : Bool
  flushFails : Bool
  content : Option BlockContent
  buildTime : UInt64
  drainedBlocks : Nat
  slotAfterDrain : Nat
  heightAfterDrain : Nat
  storedAfterVdf : Bool
  heightAfterVdf : Nat
  hashAfterVdf : Hash
  selfApplied : Bool

section

variable (config : ProductionConfig) (node : NodeState) (found : DiscoveredProducers)
  (reading : TickReadings)

def currentSlot : Nat := config.params.timestampToSlot reading.now

def nextHeight : Nat := node.chainState.bestHeight + 1

def inGenesis : Bool := config.network.params.isInGenesis (nextHeight node)

def isDevnet : Bool := config.network.kind = .devnet

def activeNow : List PublicKey := config.node.activeKeys node.producerSet (nextHeight node)

/-! ### Bootstrap -/

/-- The guards of a node with bootstrap nodes after genesis. -/
def joiningGuards : Bool :=
  let height := nextHeight node
  let grace := if isDevnet config then 15 else 90
  let timeout := if isDevnet config then 60 else 180
  let withinGrace := reading.firstPeerSecs.all (· < grace)
  let pastTimeout := reading.firstPeerSecs.any (timeout ≤ ·)
  let slotGap := currentSlot config reading - node.chainState.bestSlot
  !(height < 3 && 0 < reading.bestPeerHeight && !pastTimeout) &&
    !(0 < height && withinGrace && 1 < slotGap && !pastTimeout) &&
    !(0 < reading.bestPeerHeight && height + 2 < reading.bestPeerHeight)

/-- A seed and a joining node alike wait while they know only themselves. -/
def discoveryGrace : Bool :=
  let grace := if isDevnet config then 5 else 30
  0 < reading.peerCount && found.known.length ≤ 1 && reading.firstPeerSecs.any (· < grace)

def bootstrapGuards : Bool :=
  let stability := if isDevnet config then 3 else 15
  reading.listChangedSecs.all (stability ≤ ·) &&
    !(config.bootstrapNodes && reading.noEvidence) &&
    (!(config.bootstrapNodes && !inGenesis config node) || joiningGuards config node reading) &&
    !discoveryGrace config found reading

def bootstrapSchedule : List PublicKey :=
  let lists := splitByLiveness node (nextHeight node)
    (bootstrapRoster config.node node found (nextHeight node) config.key)
  bootstrapScheduleWithLiveness (currentSlot config reading) lists.live lists.stale
    reentryInterval

/-- After the block of the transition mainnet needs registered producers. -/
def resolveBootstrapEligibility : Option (List PublicKey) :=
  if config.network.kind = .mainnet ∧ inGenesis config node = false ∧
      config.network.params.genesisBlocks + 1 < nextHeight node then none
  else if bootstrapGuards config node found reading = false then none
  else if config.key ∈ bootstrapSchedule config node found reading then
    some (bootstrapSchedule config node found reading)
  else none

/-! ### Epochs -/

def scheduledProducers : List PublicKey :=
  if node.epochState.activeList = [] then node.epochState.producerList
  else node.epochState.activeList

def resolveEpochEligibility : List PublicKey :=
  (turn (scheduledProducers node) (currentSlot config reading)).toList

def shouldDeferEpochProduction : Bool :=
  reading.firstPeerSecs.any (· < if isDevnet config then 5 else 15)

/-! ### The decision -/

def useBootstrap : Bool := inGenesis config node || activeNow config node = []

/-- Nobody, where the source returns early. -/
def eligibleProducers : List PublicKey :=
  if useBootstrap config node then
    (resolveBootstrapEligibility config node found reading).getD []
  else if shouldDeferEpochProduction config reading then []
  else resolveEpochEligibility config node reading

def withinReach : Bool :=
  reading.bestPeerHeight - node.chainState.bestHeight ≤ if nextHeight node < 10 then 3 else 5

/-- The checks before the schedule is read. -/
def gatesOpen (lastProduced : Option Nat) : Bool :=
  let slot := currentSlot config reading
  !reading.rebuildHalt && !reading.updateBlocked && !reading.hardforkBlocked &&
    lastProduced ≠ some slot && reading.authorized &&
    !(reading.blockStored || reading.blockSeen) && node.chainState.bestSlot < slot &&
    withinReach node reading &&
    !(nextHeight node < 10 && !inGenesis config node && 5 < (activeNow config node).length)

def slotOffsetMs : Nat :=
  reading.nowMs - config.params.slotToTimestamp (currentSlot config reading) * 1000

/-- A fallback leaves the slot to a first rank that produced lately. -/
def fallbackWaits (eligible : List PublicKey) : Bool :=
  !useBootstrap config node &&
    match eligible.findIdx? (· = config.key), eligible.head? with
    | some rank, some first => 0 < rank &&
        nextHeight node - (node.producerLiveness.lookup first).getD 0 ≤ 3
    | _, _ => false

/-- On devnet, the time for heartbeats. -/
def heartbeatsCollected : Bool :=
  !isDevnet config ||
    min (config.params.slotDuration * 1000 / 5) 700 ≤
      reading.heartbeatMs - config.params.slotToTimestamp (currentSlot config reading) * 1000

/-- A block came in while the tick yielded for one in flight. -/
def overtakenInFlight : Bool :=
  let prevSlot := node.chainState.bestSlot
  prevSlot ≤ reading.bestPeerSlot && prevSlot + 1 < currentSlot config reading &&
    prevSlot < reading.slotAfterYield

def windowOpen (eligible : List PublicKey) : Bool :=
  eligible ≠ [] && isProducerEligibleMs config.key eligible (slotOffsetMs config reading) &&
    !fallbackWaits config node eligible && 1000 ≤ slotOffsetMs config reading &&
    heartbeatsCollected config reading && !overtakenInFlight config node reading

def readyToSign (lastProduced : Option Nat) : Bool :=
  gatesOpen config node reading lastProduced &&
    windowOpen config node reading (eligibleProducers config node found reading)

end

/-! ## The header -/

def maxMissedPerBlock : Nat := 3

/-- The producers of the skipped slots.  A longer gap is nobody's fault. -/
def missedProducers (list : List PublicKey) (prevSlot slot : Nat) : List PublicKey :=
  if 1 < slot - prevSlot ∧ slot - prevSlot ≤ 3 then
    (List.range' (prevSlot + 1) (slot - (prevSlot + 1))).foldl
      (fun missed skipped =>
        if maxMissedPerBlock ≤ missed.length ∨ list.length / 3 ≤ missed.length then missed
        else
          match turn list skipped with
          | none => missed
          | some key => if key ∈ missed then missed else missed ++ [key]) []
  else []

section

variable (config : ProductionConfig) (node : NodeState) (reading : TickReadings)

/-- `build_block_content` and `BlockBuilder::build`, which take the slot of the clock again. -/
def buildHeader (content : BlockContent) : Option BlockHeader :=
  let prevSlot := node.chainState.bestSlot
  let slot := config.params.timestampToSlot reading.buildTime.toNat
  if slot ≠ currentSlot config reading ∨ slot ≤ prevSlot ∧ 0 < prevSlot then none
  else some
    { version := 2
      prevHash := node.chainState.bestHash
      merkleRoot := content.merkleRoot
      presenceRoot := content.presenceRoot
      genesisHash := config.params.genesisHash
      timestamp := reading.buildTime
      slot := .ofNat slot
      producer := config.key
      vdfOutput := []
      vdfProof := []
      missedProducers := missedProducers node.epochState.producerList prevSlot slot
      dataRoot := content.dataRoot
      forkId :=
        if config.forkIdActivationHeight ≤ nextHeight node then config.currentForkId else ⟨0⟩ }

/-- A block came in with the drained events, or the tip is another one after the work. -/
def chainMoved : Bool :=
  (0 < reading.drainedBlocks && (node.chainState.bestSlot < reading.slotAfterDrain ||
    nextHeight node ≤ reading.heightAfterDrain)) ||
    reading.storedAfterVdf || nextHeight node ≤ reading.heightAfterVdf ||
    reading.hashAfterVdf ≠ node.chainState.bestHash

def computeBlockVdf (header : BlockHeader) : Bytes :=
  if config.network.vdfEnabled then
    (hashChainVdf config.crypto.blake3 (header.vdfInput config.crypto.blake3)
      config.network.heartbeatVdfIterations).asBytes
  else header.prevHash.asBytes

def signBlockHeader (header : BlockHeader) : BlockHeader :=
  { header with vdfProof := config.sign (header.signingMessage config.crypto.blake3) }

def finishHeader (header : BlockHeader) : BlockHeader :=
  signBlockHeader config { header with vdfOutput := computeBlockVdf config header }

def headerToSign : Option BlockHeader :=
  if chainMoved node reading then none
  else (reading.content.bind (buildHeader config node reading)).map (finishHeader config)

end

/-! ## The signed slots -/

/-- The tree of the signed slots, and what of it is on the disk. -/
structure SignedSlots where
  marked : Finset Nat
  flushed : Finset Nat
  flushed_subset : flushed ⊆ marked

namespace SignedSlots

variable (slots : SignedSlots)

/-- A slot that was marked but not flushed is refused from then on. -/
def checkAndMark (slot : Nat) (swapFails flushFails : Bool) : SignedSlots × Bool :=
  if swapFails = true ∨ slot ∈ slots.marked then (slots, false)
  else if flushFails then
    ({ marked := insert slot slots.marked
       flushed := slots.flushed
       flushed_subset := slots.flushed_subset.trans (Finset.subset_insert _ _) }, false)
  else
    ({ marked := insert slot slots.marked
       flushed := insert slot slots.marked
       flushed_subset := subset_rfl }, true)

/-- After a crash; some of what was not flushed may have reached the disk. -/
def reopen (kept : Finset Nat) : SignedSlots where
  marked := slots.flushed ∪ kept ∩ slots.marked
  flushed := slots.flushed ∪ kept ∩ slots.marked
  flushed_subset := subset_rfl

variable {slots}

theorem checkAndMark_allowed {slot : Nat} {swapFails flushFails : Bool}
    (hallowed : (slots.checkAndMark slot swapFails flushFails).2 = true) :
    slot ∉ slots.marked ∧
      (slots.checkAndMark slot swapFails flushFails).1.flushed = insert slot slots.marked := by
  unfold checkAndMark at hallowed ⊢
  split at hallowed
  · simp at hallowed
  rename_i hfresh
  split at hallowed
  · simp at hallowed
  rename_i hflush
  rw [if_neg hfresh, if_neg hflush]
  exact ⟨fun hmarked => hfresh (.inr hmarked), rfl⟩

theorem flushed_subset_checkAndMark (slot : Nat) (swapFails flushFails : Bool) :
    slots.flushed ⊆ (slots.checkAndMark slot swapFails flushFails).1.flushed := by
  unfold checkAndMark
  split
  · exact subset_rfl
  split
  · exact subset_rfl
  · exact slots.flushed_subset.trans (Finset.subset_insert _ _)

end SignedSlots

/-! ## Ticks and restarts -/

/-- `signed` holds every header the producer ever signed; the node keeps no such list. -/
structure ProducerState where
  signedSlots : Option SignedSlots
  lastProducedSlot : Option Nat
  signed : List BlockHeader

/-- Without a database any slot may be signed. -/
def markSlot (reading : TickReadings) (slot : Nat) :
    Option SignedSlots → Option SignedSlots × Bool
  | none => (none, true)
  | some slots =>
      let outcome := slots.checkAndMark slot reading.swapFails reading.flushFails
      (some outcome.1, outcome.2)

inductive ProducerEvent where
  | tick (node : NodeState) (found : DiscoveredProducers) (reading : TickReadings)
  | restart (kept : Finset Nat)

section

variable (config : ProductionConfig)

def tryProduceBlock (node : NodeState) (found : DiscoveredProducers)
    (reading : TickReadings) (state : ProducerState) : ProducerState :=
  let slot := currentSlot config reading
  if readyToSign config node found reading state.lastProducedSlot = false then state
  else
    let outcome := markSlot reading slot state.signedSlots
    match outcome.2, headerToSign config node reading with
    | true, some header =>
        { signedSlots := outcome.1
          lastProducedSlot := if reading.selfApplied then some slot else state.lastProducedSlot
          signed := state.signed ++ [header] }
    | _, _ => { state with signedSlots := outcome.1 }

/-- A crash within a tick is a restart after a tick that its readings cut short. -/
def producerStep (state : ProducerState) : ProducerEvent → ProducerState
  | .tick node found reading => tryProduceBlock config node found reading state
  | .restart kept =>
      { state with
        signedSlots := state.signedSlots.map (·.reopen kept)
        lastProducedSlot := none }

end

/-! ## What is signed -/

theorem timestampToSlot_lt (params : ConsensusParams) (timestamp : Nat) :
    params.timestampToSlot timestamp < 2 ^ 32 := by
  unfold ConsensusParams.timestampToSlot
  split <;> omega

/-- A signed header but for what the assembly of the block puts in. -/
structure SignedIn (config : ProductionConfig) (node : NodeState) (reading : TickReadings)
    (header : BlockHeader) : Prop where
  version : header.version = 2
  prevHash : header.prevHash = node.chainState.bestHash
  genesisHash : header.genesisHash = config.params.genesisHash
  timestamp : header.timestamp = reading.buildTime
  slot : header.slot.toNat = currentSlot config reading
  slot_of_time : config.params.timestampToSlot reading.buildTime.toNat = currentSlot config reading
  producer : header.producer = config.key
  missed : header.missedProducers = missedProducers node.epochState.producerList
    node.chainState.bestSlot (currentSlot config reading)
  forkId : header.forkId =
    if config.forkIdActivationHeight ≤ nextHeight node then config.currentForkId else ⟨0⟩
  vdfOutput : header.vdfOutput = computeBlockVdf config header
  vdfProof : header.vdfProof = config.sign (header.signingMessage config.crypto.blake3)

section

variable {config : ProductionConfig} {node : NodeState} {reading : TickReadings}
  {header : BlockHeader}

theorem signedIn_of_headerToSign (hsign : headerToSign config node reading = some header) :
    SignedIn config node reading header := by
  unfold headerToSign at hsign
  split at hsign
  · simp at hsign
  obtain ⟨built, hbuilt, rfl⟩ := Option.map_eq_some_iff.mp hsign
  obtain ⟨content, -, hbuilt⟩ := Option.bind_eq_some_iff.mp hbuilt
  unfold buildHeader at hbuilt
  dsimp only at hbuilt
  split at hbuilt
  · simp at hbuilt
  rename_i hslot
  have hsame : config.params.timestampToSlot reading.buildTime.toNat =
      currentSlot config reading := by
    by_contra hother
    exact hslot (.inl hother)
  obtain rfl := Option.some.inj hbuilt
  constructor
  case slot =>
    change (UInt32.ofNat (config.params.timestampToSlot reading.buildTime.toNat)).toNat = _
    rw [UInt32.toNat_ofNat_of_lt' (timestampToSlot_lt config.params _), hsame]
  case slot_of_time => exact hsame
  case missed =>
    change missedProducers _ _ (config.params.timestampToSlot reading.buildTime.toNat) = _
    rw [hsame]
  all_goals rfl

end

/-! ## One signature a slot -/

section

variable (config : ProductionConfig) (node : NodeState) (found : DiscoveredProducers)
  (reading : TickReadings) (state : ProducerState)

/-- A tick leaves the slots alone, marks the slot and stops, or signs one header for it. -/
theorem tryProduceBlock_cases :
    (tryProduceBlock config node found reading state).signed = state.signed ∧
        ((tryProduceBlock config node found reading state).signedSlots = state.signedSlots ∨
          (tryProduceBlock config node found reading state).signedSlots =
            (markSlot reading (currentSlot config reading) state.signedSlots).1) ∨
      ∃ header, readyToSign config node found reading state.lastProducedSlot = true ∧
        headerToSign config node reading = some header ∧
        (markSlot reading (currentSlot config reading) state.signedSlots).2 = true ∧
        (tryProduceBlock config node found reading state).signedSlots =
          (markSlot reading (currentSlot config reading) state.signedSlots).1 ∧
        (tryProduceBlock config node found reading state).signed = state.signed ++ [header] := by
  cases hready : readyToSign config node found reading state.lastProducedSlot with
  | false => exact .inl (by simp [tryProduceBlock, hready])
  | true =>
      cases hmark : (markSlot reading (currentSlot config reading) state.signedSlots).2 with
      | false => exact .inl (by simp [tryProduceBlock, hready, hmark])
      | true =>
          cases hheader : headerToSign config node reading with
          | none => exact .inl (by simp [tryProduceBlock, hready, hheader])
          | some header =>
              exact .inr ⟨header, rfl, rfl, rfl, by
                simp [tryProduceBlock, hready, hmark, hheader]⟩

end

def ProducerState.start (slots : SignedSlots) : ProducerState where
  signedSlots := some slots
  lastProducedSlot := none
  signed := []

/-- Every signature is of a slot of its own, which is on the disk and was not there at the
start. -/
structure SlotsRecorded (start : SignedSlots) (state : ProducerState) (slots : SignedSlots) :
    Prop where
  database : state.signedSlots = some slots
  start_subset : start.flushed ⊆ slots.flushed
  recorded : ∀ header ∈ state.signed, header.slot.toNat ∈ slots.flushed
  fresh : ∀ header ∈ state.signed, header.slot.toNat ∉ start.flushed
  nodup : (state.signed.map BlockHeader.slot).Nodup

section

variable {config : ProductionConfig} {start slots : SignedSlots} {state : ProducerState}

theorem SlotsRecorded.grow {next : ProducerState} {grown : SignedSlots}
    (hrecorded : SlotsRecorded start state slots) (hsigned : next.signed = state.signed)
    (hdatabase : next.signedSlots = some grown) (hgrown : slots.flushed ⊆ grown.flushed) :
    SlotsRecorded start next grown := by
  constructor
  case database => exact hdatabase
  case start_subset => exact hrecorded.start_subset.trans hgrown
  all_goals rw [hsigned]
  case recorded => exact fun header hheader => hgrown (hrecorded.recorded header hheader)
  case fresh => exact hrecorded.fresh
  case nodup => exact hrecorded.nodup

theorem SlotsRecorded.sign {next : ProducerState} {grown : SignedSlots} {header : BlockHeader}
    (hrecorded : SlotsRecorded start state slots) (hsigned : next.signed = state.signed ++ [header])
    (hdatabase : next.signedSlots = some grown) (hfresh : header.slot.toNat ∉ slots.marked)
    (hgrown : grown.flushed = insert header.slot.toNat slots.marked) :
    SlotsRecorded start next grown := by
  have hsubset : slots.flushed ⊆ grown.flushed := by
    rw [hgrown]
    exact slots.flushed_subset.trans (Finset.subset_insert _ _)
  have hunflushed : header.slot.toNat ∉ slots.flushed := fun hmem =>
    hfresh (slots.flushed_subset hmem)
  constructor
  case database => exact hdatabase
  case start_subset => exact hrecorded.start_subset.trans hsubset
  case recorded =>
    rw [hsigned, List.forall_mem_append, List.forall_mem_singleton, hgrown]
    exact ⟨fun other hother => hgrown ▸ hsubset (hrecorded.recorded other hother),
      Finset.mem_insert_self _ _⟩
  case fresh =>
    rw [hsigned, List.forall_mem_append, List.forall_mem_singleton]
    exact ⟨hrecorded.fresh, fun hmem => hunflushed (hrecorded.start_subset hmem)⟩
  case nodup =>
    rw [hsigned, List.map_append, List.map_singleton, List.nodup_append_comm,
      List.singleton_append, List.nodup_cons]
    refine ⟨fun hmem => ?_, hrecorded.nodup⟩
    obtain ⟨other, hother, hslot⟩ := List.mem_map.mp hmem
    exact hunflushed (hslot ▸ hrecorded.recorded other hother)

theorem SlotsRecorded.step (hrecorded : SlotsRecorded start state slots)
    (event : ProducerEvent) :
    ∃ grown, SlotsRecorded start (producerStep config state event) grown := by
  cases event with
  | tick node found reading =>
      rw [producerStep]
      rcases tryProduceBlock_cases config node found reading state with
        ⟨hsigned, hslots⟩ | hsigns
      · rcases hslots with hslots | hslots
        · exact ⟨slots, hrecorded.grow hsigned (hslots.trans hrecorded.database) subset_rfl⟩
        · rw [hrecorded.database] at hslots
          exact ⟨_, hrecorded.grow hsigned hslots (SignedSlots.flushed_subset_checkAndMark _ _ _)⟩
      · obtain ⟨header, -, hheader, hallowed, hslots, hsigned⟩ := hsigns
        rw [hrecorded.database] at hallowed hslots
        obtain ⟨hfresh, hgrown⟩ := SignedSlots.checkAndMark_allowed hallowed
        have hslot := (signedIn_of_headerToSign hheader).slot
        rw [← hslot] at hfresh hgrown
        exact ⟨_, hrecorded.sign hsigned (hslot ▸ hslots) hfresh hgrown⟩
  | restart kept =>
      refine ⟨slots.reopen kept, hrecorded.grow rfl ?_ Finset.subset_union_left⟩
      simp [producerStep, hrecorded.database]

theorem slotsRecorded_run (events : List ProducerEvent)
    (hrecorded : SlotsRecorded start state slots) :
    ∃ grown, SlotsRecorded start (events.foldl (producerStep config) state) grown := by
  induction events generalizing state slots with
  | nil => exact ⟨slots, hrecorded⟩
  | cons event events ih =>
      obtain ⟨grown, hgrown⟩ := hrecorded.step event
      exact ih hgrown

variable (config start)

theorem slotsRecorded_start : SlotsRecorded start (.start start) start where
  database := rfl
  start_subset := subset_rfl
  recorded := by simp [ProducerState.start]
  fresh := by simp [ProducerState.start]
  nodup := List.nodup_nil

/-- Whatever the ticks read and however often the node restarts, no slot is signed twice, nor
one that was recorded before. -/
theorem slot_signed_once (events : List ProducerEvent) :
    ((events.foldl (producerStep config) (.start start)).signed.map BlockHeader.slot).Nodup ∧
      ∀ header ∈ (events.foldl (producerStep config) (.start start)).signed,
        header.slot.toNat ∉ start.flushed := by
  obtain ⟨slots, hrecorded⟩ := slotsRecorded_run events (slotsRecorded_start start)
  exact ⟨hrecorded.nodup, hrecorded.fresh⟩

end

end Doli.Node
