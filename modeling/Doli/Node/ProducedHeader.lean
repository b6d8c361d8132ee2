import Doli.Node.Production

/-!
# What a peer makes of a produced header

A node in the state of the producer builds its context from the same lists, so that it
accepts what the producer signed as long as the block was built in the window it was decided
in.  And as no slot is signed twice, what a producer signed never convicts it.
-/

namespace Doli.Node

open Doli.Core Doli.Lib Doli.Storage Doli.Producer
open Doli.Validation (BlockHeader ConsensusParams ValidationContext ValidationMode Verdict
  HoldsWindow bootstrapEligible bootstrapEligible_of_live checkIdentity
  mem_bootstrapScheduleWithLiveness validateBootstrapProducer_eq_ok checkSlot
  isProducerEligibleMs maxDrift maxFutureSlots slotOffset SplitsProducers checkDoubleProduction
  validateBootstrapProducer validateDoubleProduction validateHeader validateProducerEligibility
  validateProducerEligibility_of_rotation validateVdf verifyBlockSignature verifyHashChainVdf)

/-! ## The context -/

section

variable (config : ProductionConfig) (node : NodeState) (found : DiscoveredProducers)

/-- What `validate_block_for_apply` sets of the context, over what it leaves to the network;
`weight` is the bond weight of a producer. -/
def applyContext (base : ValidationContext) (weight : PublicKey → Nat) (mode : ValidationMode)
    (now : Nat) : ValidationContext :=
  let lists := validationLists config.node node found (nextHeight node) mode
  { base with
    crypto := config.crypto
    params := config.params
    network := config.network
    currentTime := now
    currentHeight := nextHeight node
    prevSlot := node.chainState.bestSlot
    prevTimestamp := (node.blockStore.blocks.lookup node.chainState.bestHash).elim 0 Block.timestamp
    activeProducers := activeNow config node
    activeProducersWeighted := (activeNow config node).map fun key => (key, weight key)
    bootstrapProducers := lists.producers
    liveBootstrapProducers := lists.live
    staleBootstrapProducers := lists.stale
    epochProducerList := scheduledProducers node
    expectedForkId := config.currentForkId
    forkIdActivationHeight := config.forkIdActivationHeight }

end

/-- Four bytes in hexadecimal. -/
def shortHex (key : PublicKey) : String :=
  .ofList ((key.asBytes.take 4).flatMap fun byte =>
    [Nat.digitChar (byte.toNat / 16), Nat.digitChar (byte.toNat % 16)])

def checkMissedProducers (list : List PublicKey) (header : BlockHeader) : Verdict := do
  let missed := header.missedProducers
  refuseIf (maxMissedPerBlock < missed.length)
    (.invalidTransaction
      s!"[ERRTX068] missed_producers has {missed.length} entries (max {maxMissedPerBlock})")
  checkWhen (list ≠ []) (checkEach (fun key => refuseIf (key ∉ list)
    (.invalidTransaction (s!"[ERRTX069] missed_producers contains key {shortHex key} " ++
      s!"not in epoch producer list (list_size={list.length})"))) missed)

/-- What `validate_block_for_apply` checks of the header alone. -/
def judgeHeader (ctx : ValidationContext) (list : List PublicKey) (header : BlockHeader) :
    Verdict := do
  checkMissedProducers list header
  checkWhen ctx.signatureRuleActive (verifyBlockSignature header ctx.crypto)
  validateHeader ctx header
  checkWhen (!ctx.params.isBootstrap ctx.currentHeight) (validateVdf ctx header)
  validateProducerEligibility ctx header

/-! ## What holds of every signed header -/

theorem missedProducers_spec (list : List PublicKey) (prevSlot slot : Nat) :
    (missedProducers list prevSlot slot).length ≤ maxMissedPerBlock ∧
      ∀ key ∈ missedProducers list prevSlot slot, key ∈ list := by
  unfold missedProducers
  split
  case isFalse => exact ⟨Nat.zero_le _, by simp⟩
  refine foldl_invariant (fun _ (missed : List PublicKey) =>
    missed.length ≤ maxMissedPerBlock ∧ ∀ key ∈ missed, key ∈ list) ⟨Nat.zero_le _, by simp⟩ ?_
  intro _ skipped _ missed _ hmissed
  split
  · exact hmissed
  rename_i hroom
  split
  · exact hmissed
  rename_i key hturn
  split
  · exact hmissed
  constructor
  · have := not_le.mp fun hfull => hroom (.inl hfull)
    rw [List.length_append, List.length_singleton]
    omega
  · rw [List.forall_mem_append, List.forall_mem_singleton]
    exact ⟨hmissed.2, turn_mem hturn⟩

/-- The signatures of the key verify. -/
def ProductionConfig.SignsForKey (config : ProductionConfig) : Prop :=
  ∀ message, (config.sign message).length = 64 ∧
    config.crypto.verifyStrict message (.fromBytes (config.sign message)) config.key = true

namespace SignedIn

variable {config : ProductionConfig} {node : NodeState} {reading : TickReadings}
  {header : BlockHeader}

theorem missed_ok (hsigned : SignedIn config node reading header) :
    checkMissedProducers node.epochState.producerList header = .ok () := by
  obtain ⟨hlength, hlisted⟩ := missedProducers_spec node.epochState.producerList
    node.chainState.bestSlot (currentSlot config reading)
  rw [← hsigned.missed] at hlength hlisted
  simp only [checkMissedProducers, seq_eq_ok, refuseIf_eq_ok, not_lt, checkWhen_eq_ok,
    checkEach_eq_ok, not_not]
  exact ⟨hlength, fun _ => hlisted⟩

theorem signature_ok (hsigned : SignedIn config node reading header)
    (hsigner : config.SignsForKey) : verifyBlockSignature header config.crypto = .ok () := by
  obtain ⟨hlength, hverify⟩ := hsigner (header.signingMessage config.crypto.blake3)
  simp only [verifyBlockSignature, seq_eq_ok, refuseIf_eq_ok, not_not, hsigned.vdfProof, hlength,
    hsigned.producer, hverify]
  simp

theorem vdf_ok (hsigned : SignedIn config node reading header) {ctx : ValidationContext}
    (hcrypto : ctx.crypto = config.crypto) (hnetwork : ctx.network = config.network) :
    validateVdf ctx header = .ok () := by
  have henabled : config.network.vdfEnabled = true := by
    unfold Validation.Network.vdfEnabled
    split <;> rfl
  unfold validateVdf
  rw [hcrypto, hnetwork, if_neg (by simp [henabled])]
  simp only [seq_eq_ok, refuseIf_eq_ok, not_not, hsigned.vdfOutput, computeBlockVdf, henabled,
    if_true, Hash.asBytes_length, Hash.fromBytes_asBytes, verifyHashChainVdf]
  simp

end SignedIn

/-! ## Slots and times -/

section

variable (params : ConsensusParams)

theorem timestampToSlot_mono {earlier later : Nat} (hle : earlier ≤ later) :
    params.timestampToSlot earlier ≤ params.timestampToSlot later := by
  unfold ConsensusParams.timestampToSlot
  split
  · exact Nat.zero_le _
  rename_i hstarted
  rw [if_neg (by omega)]
  have hdiv := Nat.div_le_div_right (c := params.slotDuration)
    (Nat.sub_le_sub_right hle params.genesisTime)
  omega

theorem timestampToSlot_succ_le (timestamp : Nat) :
    params.timestampToSlot (timestamp + 1) ≤ params.timestampToSlot timestamp + 1 := by
  unfold ConsensusParams.timestampToSlot
  split
  · exact Nat.zero_le _
  split
  case isTrue hbefore =>
    have hzero : timestamp + 1 - params.genesisTime = 0 := by omega
    rw [hzero, Nat.zero_div]
    omega
  case isFalse hstarted =>
    have hsplit : timestamp + 1 - params.genesisTime = timestamp - params.genesisTime + 1 := by
      omega
    have hdiv : (timestamp - params.genesisTime + 1) / params.slotDuration ≤
        (timestamp - params.genesisTime) / params.slotDuration + 1 := by
      rw [Nat.succ_div]
      split <;> omega
    rw [hsplit]
    omega

/-- A slot after the first one starts no later than any time in it. -/
theorem slotToTimestamp_le (timestamp : Nat) (hslot : 0 < params.timestampToSlot timestamp) :
    params.slotToTimestamp (params.timestampToSlot timestamp) ≤ timestamp := by
  unfold ConsensusParams.timestampToSlot at hslot ⊢
  split at hslot
  · omega
  rename_i hstarted
  rw [if_neg hstarted, ConsensusParams.slotToTimestamp]
  have hmin : min ((timestamp - params.genesisTime) / params.slotDuration) (2 ^ 32 - 1) *
      params.slotDuration ≤ timestamp - params.genesisTime :=
    (Nat.mul_le_mul_right _ (min_le_left _ _)).trans (Nat.div_mul_le_self _ _)
  omega

end

/-! ## The verdict on the header -/

section

variable {config : ProductionConfig} {node : NodeState} {reading : TickReadings}
  {header : BlockHeader} (found : DiscoveredProducers) (base : ValidationContext)
  (weight : PublicKey → Nat) (mode : ValidationMode) (now : Nat)

/-- Of the checks on identity, time and slot only the clock of the peer is left. -/
theorem validateHeader_applyContext (hsigned : SignedIn config node reading header)
    (hadvances : node.chainState.bestSlot < currentSlot config reading)
    (hparent : config.params.timestampToSlot
      (applyContext config node found base weight mode now).prevTimestamp ≤
        node.chainState.bestSlot) :
    validateHeader (applyContext config node found base weight mode now) header = .ok () ↔
      header.timestamp.toNat ≤ now + maxDrift := by
  have hslot : config.params.timestampToSlot header.timestamp.toNat = header.slot.toNat := by
    rw [hsigned.timestamp, hsigned.slot_of_time, hsigned.slot]
  have hnew : node.chainState.bestSlot < header.slot.toNat := hsigned.slot ▸ hadvances
  have hafter : (applyContext config node found base weight mode now).prevTimestamp <
      header.timestamp.toNat := by
    by_contra hbefore
    have hmono := timestampToSlot_mono config.params (not_lt.mp hbefore)
    omega
  have hstart := slotToTimestamp_le config.params header.timestamp.toNat (by omega)
  rw [hslot] at hstart
  have hidentity : checkIdentity (applyContext config node found base weight mode now) header =
      .ok () := by
    simp only [checkIdentity, seq_eq_ok, refuseIf_eq_ok, not_and, not_not]
    refine ⟨hsigned.genesisHash, fun hgate => ?_, hsigned.version⟩
    rw [hsigned.forkId]
    exact if_pos hgate
  simp only [validateHeader, checkSlot, seq_eq_ok, refuseIf_eq_ok, not_lt, not_le, hidentity,
    true_and]
  constructor
  · rintro ⟨-, hclock, -⟩
    exact hclock
  · intro hclock
    refine ⟨hafter, hclock, ⟨not_not.mpr hslot.symm, hnew⟩, ?_, ?_⟩
    · exact (Nat.sub_le _ _).trans hstart
    · calc header.slot.toNat = config.params.timestampToSlot header.timestamp.toNat := hslot.symm
        _ ≤ config.params.timestampToSlot (now + maxDrift) :=
            timestampToSlot_mono config.params hclock
        _ ≤ config.params.timestampToSlot now + maxFutureSlots :=
            timestampToSlot_succ_le config.params now

end

/-! ## The lists of the two sides -/

section

variable (node : NodeState) (height : Nat) (producers : List PublicKey)

@[simp] theorem splitByLiveness_producers :
    (splitByLiveness node height producers).producers = producers := by
  unfold splitByLiveness
  dsimp only
  split <;> rfl

variable {node height producers}

theorem splitByLiveness_live_ne_nil (hsome : producers ≠ []) :
    (splitByLiveness node height producers).live ≠ [] := by
  unfold splitByLiveness
  dsimp only
  split
  · exact hsome
  · rename_i hlive
    exact hlive

theorem mem_splitByLiveness {key : PublicKey}
    (hkey : key ∈ (splitByLiveness node height producers).live ∨
      key ∈ (splitByLiveness node height producers).stale) : key ∈ producers := by
  unfold splitByLiveness at hkey
  dsimp only at hkey
  split at hkey
  · simpa using hkey
  · rcases hkey with hkey | hkey
    · exact List.mem_of_mem_filter hkey
    · exact List.mem_of_mem_filter hkey

theorem splitByLiveness_disjoint {key : PublicKey}
    (hstale : key ∈ (splitByLiveness node height producers).stale) :
    key ∉ (splitByLiveness node height producers).live := by
  unfold splitByLiveness at hstale ⊢
  dsimp only at hstale ⊢
  split at hstale
  · simp at hstale
  · rename_i hlive
    rw [if_neg hlive]
    intro hkey
    have hrecent := (List.mem_filter.mp hkey).2
    have hidle := (List.mem_filter.mp hstale).2
    rw [hrecent] at hidle
    exact Bool.false_ne_true hidle

theorem splitByLiveness_stale_nodup (hnodup : producers.Nodup) :
    (splitByLiveness node height producers).stale.Nodup := by
  unfold splitByLiveness
  dsimp only
  split
  · exact List.nodup_nil
  · exact hnodup.filter _

end

theorem byKey_nodup {keys : List PublicKey} (hnodup : keys.Nodup) : (byKey keys).Nodup :=
  (List.perm_insertionSort _ keys).nodup_iff.mpr hnodup

/-- The lists of a full validation leave a stale producer its way back. -/
theorem splitsProducers_applyContext {config : ProductionConfig} {node : NodeState}
    {found : DiscoveredProducers} {base : ValidationContext} {weight : PublicKey → Nat} {now : Nat}
    (hnodup : found.keys.Nodup)
    (hsome : (applyContext config node found base weight .full now).bootstrapProducers ≠ []) :
    SplitsProducers (applyContext config node found base weight .full now) where
  live_ne_nil := splitByLiveness_live_ne_nil ((splitByLiveness_producers ..).symm.trans_ne hsome)
  stale_nodup := splitByLiveness_stale_nodup (byKey_nodup (hnodup.filter _))
  stale_not_live _ hstale := splitByLiveness_disjoint hstale
  stale_known _ hstale := by
    have hlisted := mem_splitByLiveness (.inr hstale)
    simpa [applyContext, validationLists] using hlisted

section

variable {config : ProductionConfig} {node : NodeState} {found : DiscoveredProducers}
  {reading : TickReadings} {header : BlockHeader} {base : ValidationContext}
  {weight : PublicKey → Nat} {now : Nat} {lastProduced : Option Nat}

theorem mem_of_isProducerEligibleMs {key : PublicKey} {eligible : List PublicKey} {offset : Nat}
    (heligible : isProducerEligibleMs key eligible offset = true) : key ∈ eligible := by
  unfold isProducerEligibleMs at heligible
  split at heligible
  · simp at heligible
  rename_i rank hrank
  obtain ⟨hlt, hkey, -⟩ := List.findIdx?_eq_some_iff_getElem.mp hrank
  rw [← of_decide_eq_true hkey]
  exact List.getElem_mem hlt

theorem ready_advances (hready : readyToSign config node found reading lastProduced = true) :
    node.chainState.bestSlot < currentSlot config reading := by
  simp only [readyToSign, gatesOpen, Bool.and_eq_true, decide_eq_true_eq] at hready
  exact hready.1.1.1.2

theorem ready_eligible (hready : readyToSign config node found reading lastProduced = true) :
    config.key ∈ eligibleProducers config node found reading := by
  simp only [readyToSign, windowOpen, Bool.and_eq_true] at hready
  exact mem_of_isProducerEligibleMs hready.2.1.1.1.1.2

/-- With no producer on the chain and the own key among the discovered ones, the producer
lists what its peers list. -/
theorem bootstrapRoster_eq (hactive : activeNow config node = [])
    (hkey : config.key ∈ found.keys) :
    bootstrapRoster config.node node found (nextHeight node) config.key =
      byKey (found.keys.filter (pastActivationDelay config.node node (nextHeight node))) := by
  have honChain : config.node.activeKeys node.producerSet (nextHeight node) = [] := hactive
  unfold bootstrapRoster
  simp only [honChain, ne_eq, not_true, if_false, if_pos hkey]

theorem eligible_of_epoch (hepoch : useBootstrap config node = false)
    (hkey : config.key ∈ eligibleProducers config node found reading) :
    turn (scheduledProducers node) (currentSlot config reading) = some config.key := by
  unfold eligibleProducers at hkey
  rw [if_neg (by simp [hepoch])] at hkey
  split at hkey
  · simp at hkey
  · exact Option.mem_toList.mp hkey

theorem eligible_of_bootstrap (hboot : useBootstrap config node = true)
    (hkey : config.key ∈ eligibleProducers config node found reading) :
    config.key ∈ bootstrapSchedule config node found reading := by
  unfold eligibleProducers resolveBootstrapEligibility at hkey
  rw [if_pos hboot] at hkey
  split at hkey
  · simp at hkey
  split at hkey
  · simp at hkey
  split at hkey
  · rename_i hmem
    exact hmem
  · simp at hkey

/-! ## The verdict on the producer -/

/-- The epoch list of the two sides is one, whatever the time. -/
theorem eligibility_of_epoch {mode : ValidationMode}
    (hsigned : SignedIn config node reading header)
    (hepoch : useBootstrap config node = false)
    (hkey : config.key ∈ eligibleProducers config node found reading) :
    validateProducerEligibility (applyContext config node found base weight mode now) header =
      .ok () := by
  have hturn := eligible_of_epoch hepoch hkey
  have hlist : scheduledProducers node ≠ [] := List.ne_nil_of_mem (turn_mem hturn)
  simp only [useBootstrap, Bool.or_eq_false_iff, decide_eq_false_iff_not] at hepoch
  have huses : (applyContext config node found base weight mode now).usesWindows = false := by
    change (config.network.params.isInGenesis (nextHeight node) || (decide _ && decide _)) = false
    rw [show config.network.params.isInGenesis (nextHeight node) = false from hepoch.1]
    have hlist' : (applyContext config node found base weight mode now).epochProducerList ≠ [] :=
      hlist
    simp [hlist']
  rw [validateProducerEligibility_of_rotation _ huses, hsigned.producer, hsigned.slot]
  exact (congrArg (turn · _) (if_pos hlist)).trans hturn

/-- The judge decides by windows, as the producer did. -/
def WindowsApply (config : ProductionConfig) (node : NodeState) : Prop :=
  inGenesis config node = true ∨
    scheduledProducers node = [] ∧ config.params.isBootstrap (nextHeight node) = true

theorem validateProducerEligibility_of_windowsApply {mode : ValidationMode}
    (hactive : activeNow config node = []) (hrule : WindowsApply config node) :
    validateProducerEligibility (applyContext config node found base weight mode now) header =
      validateBootstrapProducer (applyContext config node found base weight mode now) header := by
  unfold validateProducerEligibility
  rcases hrule with hgenesis | ⟨hlist, hheight⟩
  · exact if_pos hgenesis
  · have hweighted : (applyContext config node found base weight mode now).activeProducersWeighted =
        [] := by
      simp [applyContext, hactive]
    split
    · rfl
    · have hepoch : (applyContext config node found base weight mode now).epochProducerList = [] :=
        hlist
      rw [if_neg (not_not.mpr hepoch), if_neg (not_not.mpr hweighted)]
      exact if_pos hheight

/-- In bootstrap the block has to be built in the producer's window. -/
theorem eligibility_of_bootstrap (hsigned : SignedIn config node reading header)
    (hboot : useBootstrap config node = true)
    (heligible : config.key ∈ eligibleProducers config node found reading)
    (hactive : activeNow config node = []) (hkey : config.key ∈ found.keys)
    (hrule : WindowsApply config node) :
    validateProducerEligibility (applyContext config node found base weight .full now) header =
        .ok () ↔
      HoldsWindow (bootstrapSchedule config node found reading) config.key
        (slotOffset (applyContext config node found base weight .full now) header) := by
  have hmem := eligible_of_bootstrap hboot heligible
  have hlists : validationLists config.node node found (nextHeight node) .full =
      splitByLiveness node (nextHeight node)
        (bootstrapRoster config.node node found (nextHeight node) config.key) := by
    rw [bootstrapRoster_eq hactive hkey]
    rfl
  have hlisted : config.key ∈
      bootstrapRoster config.node node found (nextHeight node) config.key :=
    mem_splitByLiveness (mem_bootstrapScheduleWithLiveness hmem)
  have hsome := List.ne_nil_of_mem hlisted
  have hknown : (applyContext config node found base weight .full now).bootstrapProducers =
      bootstrapRoster config.node node found (nextHeight node) config.key := by
    simp [applyContext, hlists]
  have hlive : (applyContext config node found base weight .full now).liveBootstrapProducers ≠
      [] := by
    simpa [applyContext, hlists] using splitByLiveness_live_ne_nil hsome
  have hschedule : bootstrapEligible (applyContext config node found base weight .full now) header =
      bootstrapSchedule config node found reading := by
    rw [bootstrapEligible_of_live hlive, hsigned.slot]
    simp only [applyContext, hlists, bootstrapSchedule]
  rw [validateProducerEligibility_of_windowsApply hactive hrule,
    validateBootstrapProducer_eq_ok _ _ (hknown ▸ hsome), hschedule, hknown, hsigned.producer]
  exact and_iff_right hlisted

/-- A peer in the producer's state accepts the header, if its clock is not more than a second
behind and, in bootstrap, the block was built within the producer's own window. -/
theorem signed_header_accepted (hsigner : config.SignsForKey)
    (hready : readyToSign config node found reading lastProduced = true)
    (hsign : headerToSign config node reading = some header)
    (hparent : config.params.timestampToSlot
      (applyContext config node found base weight .full now).prevTimestamp ≤
        node.chainState.bestSlot)
    (hboot : useBootstrap config node = true →
      activeNow config node = [] ∧ config.key ∈ found.keys ∧ WindowsApply config node) :
    judgeHeader (applyContext config node found base weight .full now)
        node.epochState.producerList header = .ok () ↔
      header.timestamp.toNat ≤ now + maxDrift ∧ (useBootstrap config node = true →
        HoldsWindow (bootstrapSchedule config node found reading) config.key
          (slotOffset (applyContext config node found base weight .full now) header)) := by
  have hsigned := signedIn_of_headerToSign hsign
  have heligible := ready_eligible hready
  have htime := validateHeader_applyContext found base weight .full now hsigned
    (ready_advances hready) hparent
  have hwork : validateVdf (applyContext config node found base weight .full now) header = .ok () :=
    hsigned.vdf_ok rfl rfl
  have hsignature : verifyBlockSignature header
      (applyContext config node found base weight .full now).crypto = .ok () :=
    hsigned.signature_ok hsigner
  have hproducer : validateProducerEligibility
        (applyContext config node found base weight .full now) header = .ok () ↔
      (useBootstrap config node = true →
        HoldsWindow (bootstrapSchedule config node found reading) config.key
          (slotOffset (applyContext config node found base weight .full now) header)) := by
    cases hmode : useBootstrap config node with
    | true =>
        obtain ⟨hactive, hkey, hrule⟩ := hboot hmode
        rw [eligibility_of_bootstrap hsigned hmode heligible hactive hkey hrule]
        simp
    | false =>
        simp [eligibility_of_epoch hsigned hmode heligible]
  simp only [judgeHeader, seq_eq_ok, hsigned.missed_ok, checkWhen_eq_ok, hsignature, hwork,
    htime, hproducer, true_and, implies_true]

end

/-! ## The only producer of an epoch -/

def soleConfig : ProductionConfig where
  node := sampleConfig
  network := (Validation.sampleContext 0).network
  params := (Validation.sampleContext 0).params
  crypto := Validation.sampleCrypto
  key := ⟨1⟩
  sign _ := List.replicate 64 1
  currentForkId := ⟨11⟩
  forkIdActivationHeight := 2 ^ 64 - 1
  bootstrapNodes := false

def soleNode : NodeState :=
  { sampleNode 400 with
    producerSet := (ProducerSet.new.register samplePrimitives
      (.newWithBonds ⟨1⟩ 1 sampleParams.bondUnit ⟨⟨900⟩, 0⟩ 0 1) 0).toOption.getD .new
    epochState := { (sampleNode 400).epochState with producerList := [⟨1⟩], activeList := [⟨1⟩] } }

/-- Two seconds into slot 401. -/
def soleReading : TickReadings where
  rebuildHalt := false
  updateBlocked := false
  hardforkBlocked := false
  now := 5012
  authorized := true
  blockStored := false
  blockSeen := false
  bestPeerHeight := 400
  bestPeerSlot := 400
  peerCount := 1
  noEvidence := false
  listChangedSecs := none
  firstPeerSecs := none
  nowMs := 5012000
  heartbeatMs := 0
  slotAfterYield := 400
  swapFails := false
  flushFails := false
  content := some ⟨⟨21⟩, ⟨22⟩, ⟨23⟩⟩
  buildTime := 5012
  drainedBlocks := 0
  slotAfterDrain := 400
  heightAfterDrain := 400
  storedAfterVdf := false
  heightAfterVdf := 400
  hashAfterVdf := soleNode.chainState.bestHash
  selfApplied := true

theorem soleConfig_signs : soleConfig.SignsForKey := by
  intro message
  refine ⟨rfl, ?_⟩
  simp only [soleConfig, Validation.sampleCrypto]
  decide +kernel

theorem sole_header_accepted :
    ∃ header, headerToSign soleConfig soleNode soleReading = some header ∧
      judgeHeader (applyContext soleConfig soleNode ⟨[], []⟩ (Validation.sampleContext 0)
        (fun _ => 1) .full 5012) soleNode.epochState.producerList header = .ok () := by
  have hsome : (headerToSign soleConfig soleNode soleReading).isSome = true := by decide +kernel
  obtain ⟨header, hheader⟩ := Option.isSome_iff_exists.mp hsome
  have hepoch : useBootstrap soleConfig soleNode = false := by decide +kernel
  have hready : readyToSign soleConfig soleNode ⟨[], []⟩ soleReading none = true := by
    decide +kernel
  refine ⟨header, hheader, (signed_header_accepted soleConfig_signs hready hheader
    (by decide +kernel) fun hboot => ?_).mpr ⟨?_, fun hboot => ?_⟩⟩
  · exact absurd hboot (by simp [hepoch])
  · rw [(signedIn_of_headerToSign hheader).timestamp]
    decide
  · exact absurd hboot (by simp [hepoch])

/-- Two headers that the producer signed, in whatever run, are no evidence against it. -/
theorem honest_evidence_refused (config : ProductionConfig) (start : SignedSlots)
    (events : List ProducerEvent) (ctx : ValidationContext) (accused : PublicKey)
    (verifyVdf : Bool) {first second : BlockHeader}
    (hfirst : first ∈ (events.foldl (producerStep config) (.start start)).signed)
    (hsecond : second ∈ (events.foldl (producerStep config) (.start start)).signed) :
    validateDoubleProduction ctx accused first second verifyVdf ≠ .ok () := by
  obtain ⟨slots, hrecorded⟩ := slotsRecorded_run events (slotsRecorded_start start)
  intro hok
  simp only [validateDoubleProduction, checkDoubleProduction, seq_eq_ok, refuseIf_eq_ok,
    not_not] at hok
  obtain ⟨⟨-, hslot, hhash, -⟩, -⟩ := hok
  have hsame : first = second := List.inj_on_of_nodup_map hrecorded.nodup hfirst hsecond hslot
  exact hhash (by rw [hsame])

theorem sole_evidence_refused :
    ∃ header, header ∈ ([ProducerEvent.tick soleNode ⟨[], []⟩ soleReading].foldl
        (producerStep soleConfig) (.start ⟨∅, ∅, subset_rfl⟩)).signed ∧
      validateDoubleProduction (Validation.sampleContext 400) ⟨1⟩ header header true ≠ .ok () := by
  have hsome : ([ProducerEvent.tick soleNode ⟨[], []⟩ soleReading].foldl
      (producerStep soleConfig) (.start ⟨∅, ∅, subset_rfl⟩)).signed.head?.isSome = true := by
    decide +kernel
  obtain ⟨header, hheader⟩ := Option.isSome_iff_exists.mp hsome
  have hmem := List.mem_of_head? hheader
  exact ⟨header, hmem, honest_evidence_refused _ _ _ _ _ _ hmem hmem⟩

end Doli.Node
