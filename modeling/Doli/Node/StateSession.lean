import Doli.Node.Snapshot
import Doli.Storage.Staging

/-!
# Chunked snapshots

A session against one peer streams a state in verified ranges, and the node installs what
arrived.  The bodies are staged on the disk as they come; the manifest's digest is checked
over the stream, and the root is taken again from the installed state before the halt that
guards the promotion is lifted.
-/

namespace Doli.Node

open Doli.Core Doli.Lib Doli.Storage Doli.Producer

/-! ## The session and the pipeline -/

structure StagedUtxoMarker where
  utxoHash : Hash
  utxoCount : Nat
  deriving DecidableEq

/-- A snapshot with its `utxo_staged`. -/
structure ReadySnapshot where
  snapshot : VerifiedSnapshot
  utxoStaged : Option StagedUtxoMarker

structure StateManifest where
  sessionId : Nat
  blockHash : Hash
  blockHeight : Nat
  stateRoot : Hash
  utxoHash : Hash
  utxoCount : Nat
  chunkMaxBytes : Nat
  chainState : Bytes
  producerSet : Bytes
  blockHeaderBytes : Option Bytes
  epochStateBytes : Option Bytes

structure StateSessionClient (Peer : Type) where
  manifest : StateManifest
  peer : Peer
  cursor : Option Bytes
  /-- What the hasher has taken in. -/
  digest : Bytes
  image : Bytes

def StateSessionClient.open {Peer : Type} (peer : Peer) (manifest : StateManifest) :
    StateSessionClient Peer where
  manifest := manifest
  peer := peer
  cursor := none
  digest := leBytes 8 manifest.utxoCount
  image := leBytes 8 manifest.utxoCount

/-- The pipelines without a snapshot are one. -/
inductive SyncPipelineData (Peer : Type) where
  | other
  | snapDownloading (targetHash : Hash) (targetHeight : Nat) (quorumRoot : Hash) (peer : Peer)
      (alternatePeers : List (Peer × Hash × Nat))
  | snapReady (ready : ReadySnapshot)

structure SnapNode (Peer : Type) where
  pipeline : SyncPipelineData Peer
  stateSession : Option (StateSessionClient Peer)
  /-- Whether `utxo_chunk_sink` is set. -/
  hasSink : Bool
  genesisHash : Hash
  db : TransferDb

namespace SnapNode

variable {Peer : Type}

def clearUtxoStaging (node : SnapNode Peer) : SnapNode Peer :=
  if node.hasSink then { node with db := node.db.clearStagedUtxos } else node

def clearStateSession (node : SnapNode Peer) : SnapNode Peer :=
  match node.stateSession with
  | none => node
  | some _ => clearUtxoStaging { node with stateSession := none }

def snapFallbackToNormal (node : SnapNode Peer) : SnapNode Peer :=
  { node.clearStateSession with pipeline := .other }

/-- The last of the alternates takes over. -/
def handleSnapDownloadError (node : SnapNode Peer) : SnapNode Peer :=
  match node.pipeline with
  | .snapDownloading _ _ quorumRoot _ alternatePeers =>
      match alternatePeers.getLast? with
      | some (nextPeer, nextHash, nextHeight) =>
          { node.clearStateSession with
            pipeline := .snapDownloading nextHash nextHeight quorumRoot nextPeer
              alternatePeers.dropLast }
      | none => node.clearStateSession.snapFallbackToNormal
  | _ => node

def handleStateManifest (node : SnapNode Peer) (peer : Peer) (manifest : StateManifest) :
    SnapNode Peer :=
  match node.pipeline with
  | .snapDownloading targetHash targetHeight quorumRoot _ _ =>
      if manifest.blockHeight < targetHeight - 100 then node.handleSnapDownloadError
      else if manifest.stateRoot ≠ quorumRoot ∧ targetHeight < manifest.blockHeight then
        node.clearStateSession.snapFallbackToNormal
      else if manifest.stateRoot ≠ quorumRoot then node.clearStateSession.handleSnapDownloadError
      else if manifest.blockHash ≠ targetHash ∨ manifest.blockHeight ≠ targetHeight then
        node.clearStateSession.handleSnapDownloadError
      else
        { node.clearStateSession.clearUtxoStaging with
          stateSession := some (.open peer manifest) }
  | _ => node

/-- What a session hands over when its digest is right. -/
def readySnapshot (session : StateSessionClient Peer) (staged : Bool) : ReadySnapshot where
  snapshot :=
    { blockHash := session.manifest.blockHash
      blockHeight := session.manifest.blockHeight
      blockHeaderBytes := session.manifest.blockHeaderBytes
      chainState := session.manifest.chainState
      utxoSet := if staged then [] else session.image
      producerSet := session.manifest.producerSet
      stateRoot := session.manifest.stateRoot
      epochStateBytes := session.manifest.epochStateBytes }
  utxoStaged :=
    if staged then some ⟨session.manifest.utxoHash, session.manifest.utxoCount⟩ else none

/-- An accepted body goes into the digest, and the last one closes the session. -/
def acceptBody (blake3 : Bytes → Hash) (node : SnapNode Peer)
    (session : StateSessionClient Peer) (body : Bytes) (nextKey : Option Bytes) :
    SnapNode Peer :=
  let session :=
    { session with
      digest := session.digest ++ body
      image := if node.hasSink then session.image else session.image ++ body
      cursor := nextKey }
  if nextKey.isSome then { node with stateSession := some session }
  else if blake3 session.digest ≠ session.manifest.utxoHash then
    { node with stateSession := none }.clearUtxoStaging.handleSnapDownloadError
  else
    { node with
      stateSession := none
      pipeline := .snapReady (readySnapshot session node.hasSink) }

/-- The staging write may fail for reasons of its own. -/
def handleStateChunk (blake3 : Bytes → Hash) (node : SnapNode Peer) [DecidableEq Peer]
    (peer : Peer) (sessionId : Nat) (body : Bytes) (nextKey : Option Bytes)
    (writeFails : Bool) : SnapNode Peer :=
  match node.stateSession with
  | none => node
  | some session =>
      if ¬(session.manifest.sessionId = sessionId ∧ session.peer = peer) then node
      else if node.hasSink then
        match node.db.stageUtxoBytes body with
        | .error _ => node.clearStateSession.handleSnapDownloadError
        | .ok db =>
            if writeFails then node.clearStateSession.handleSnapDownloadError
            else acceptBody blake3 { node with db := db } session body nextKey
      else acceptBody blake3 node session body nextKey

def handleStateSessionUnavailable (node : SnapNode Peer) (sessionId : Nat) : SnapNode Peer :=
  match node.stateSession with
  | none => node
  | some session =>
      if session.manifest.sessionId = sessionId then node.clearStateSession else node

/-- The single frame: the height needs enough peers that report this anchor. -/
def handleSnapSnapshot (node : SnapNode Peer) (snapshot : VerifiedSnapshot)
    (corroborators quorum : Nat) : SnapNode Peer :=
  match node.pipeline with
  | .snapDownloading _ targetHeight quorumRoot _ _ =>
      if snapshot.blockHeight < targetHeight - 100 then node.handleSnapDownloadError
      else if snapshot.stateRoot ≠ quorumRoot then node.handleSnapDownloadError
      else if corroborators < quorum then node.handleSnapDownloadError
      else { node with pipeline := .snapReady ⟨snapshot, none⟩ }
  | _ => node

/-! ## The installation -/

section

variable (config : SnapshotConfig)

/-- `install_staged_utxos` up to the first write. -/
def stagedPrelude (node : SnapNode Peer) (snapshot : VerifiedSnapshot)
    (marker : StagedUtxoMarker) : Option (ChainState × ProducerSet) :=
  if !config.admitsAnchor snapshot.blockHash snapshot.blockHeight snapshot.blockHeaderBytes then
    none
  else
    match Wire.chainState.decode snapshot.chainState with
    | none => none
    | some (chainState, _) =>
        match ProducerSet.fromSnapshotBytes config.validKey snapshot.producerSet with
        | none => none
        | some producerSet =>
            if chainState.bestHash ≠ snapshot.blockHash ∨
                chainState.bestHeight ≠ snapshot.blockHeight then none
            else if node.db.stagedUtxoLen ≠ marker.utxoCount then none
            else
              some ({ chainState with
                  genesisHash := node.genesisHash
                  snapSyncHeight := some snapshot.blockHeight },
                producerSet)

/-- The marker is armed, the rows are promoted, and the root of what is installed decides
whether it is disarmed.  A promotion that stops after some of its writes never gets there. -/
def applyStaged (node : SnapNode Peer) (snapshot : VerifiedSnapshot) (marker : StagedUtxoMarker)
    (stopped : Option Nat) : SnapNode Peer :=
  match stagedPrelude config node snapshot marker with
  | none => { node with db := node.db.clearStagedUtxos }.snapFallbackToNormal
  | some (chainState, producerSet) =>
      let armed := { node.db with rebuildInProgress := some snapshot.blockHeight }
      match stopped with
      | some committed =>
          { node with db := armed.promoteAborted chainState producerSet committed }
      | none =>
          let installed := armed.promoteStagedUtxos chainState producerSet
          if computeStateRootGated config chainState installed.live.utxo producerSet =
              snapshot.stateRoot then
            { node with db := { installed with rebuildInProgress := none } }
          else { node with db := installed }

/-- The decoded image replaces the state in one batch. -/
def applyDecoded (node : SnapNode Peer) (snapshot : VerifiedSnapshot) : SnapNode Peer :=
  match installDecodedUtxos config node.genesisHash snapshot with
  | none => node.snapFallbackToNormal
  | some (chainState, utxoSet, producerSet) =>
      let installed :=
        { node with
          db := { node.db.atomicReplace chainState producerSet (canonicalRows utxoSet) with
            rebuildInProgress := none } }
      if computeStateRootGated config chainState utxoSet producerSet = snapshot.stateRoot then
        installed
      else installed.snapFallbackToNormal

/-- `take_snap_snapshot`, then `apply_snap_snapshot`. -/
def applySnapshot (node : SnapNode Peer) (recoveryMode : Bool) (stopped : Option Nat) :
    SnapNode Peer :=
  match node.pipeline with
  | .snapReady ready =>
      let taken := { node with pipeline := .other }
      if recoveryMode then taken
      else
        match ready.utxoStaged with
        | some marker => applyStaged config taken ready.snapshot marker stopped
        | none => applyDecoded config taken ready.snapshot
  | _ => node

/-- A new process, after `reconcile_staged_utxos_on_startup`. -/
def restart (node : SnapNode Peer) : SnapNode Peer :=
  { node with pipeline := .other, stateSession := none, db := node.db.clearStagedUtxos }

end

end SnapNode

inductive SnapEvent (Peer : Type) where
  /-- A quorum of state roots, or the best group when the time is up. -/
  | target (hash : Hash) (height : Nat) (quorumRoot : Hash) (peer : Peer)
      (alternatePeers : List (Peer × Hash × Nat))
  /-- Any move of the sync engine to a pipeline without a snapshot. -/
  | leave
  | downloadError
  | fallback
  | manifest (peer : Peer) (manifest : StateManifest)
  | chunk (peer : Peer) (sessionId : Nat) (body : Bytes) (nextKey : Option Bytes)
      (writeFails : Bool)
  | unavailable (sessionId : Nat)
  | snapshot (snapshot : VerifiedSnapshot) (corroborators quorum : Nat)
  | apply (recoveryMode : Bool) (stopped : Option Nat)
  | restart

def snapStep {Peer : Type} [DecidableEq Peer] (config : SnapshotConfig)
    (node : SnapNode Peer) : SnapEvent Peer → SnapNode Peer
  | .target hash height quorumRoot peer alternatePeers =>
      { node with pipeline := .snapDownloading hash height quorumRoot peer alternatePeers }
  | .leave => { node with pipeline := .other }
  | .downloadError => node.handleSnapDownloadError
  | .fallback => node.snapFallbackToNormal
  | .manifest peer manifest => node.handleStateManifest peer manifest
  | .chunk peer sessionId body nextKey writeFails =>
      node.handleStateChunk config.blake3 peer sessionId body nextKey writeFails
  | .unavailable sessionId => node.handleStateSessionUnavailable sessionId
  | .snapshot snapshot corroborators quorum =>
      node.handleSnapSnapshot snapshot corroborators quorum
  | .apply recoveryMode stopped => node.applySnapshot config recoveryMode stopped
  | .restart => node.restart

/-! ## What every run keeps -/

/-- The owner index is exact, and a disk whose marker is not armed holds the state that it
started with, unarmed, or one with a root that was set as a target, up to the genesis hash,
which the node keeps its own. -/
structure Safe (config : SnapshotConfig) (roots : Hash → Prop) (initial db : TransferDb) :
    Prop where
  indexed : db.live.Indexed
  unarmed : db.rebuildInProgress = none →
    (initial.rebuildInProgress = none ∧ db.live.utxo = initial.live.utxo ∧
      db.chainState = initial.chainState ∧ db.producerSet = initial.producerSet) ∨
    ∃ genesisHash, roots (computeStateRootGated config
      { db.chainState with genesisHash := genesisHash } db.live.utxo db.producerSet)

/-- The disk, the session and the pipeline tell the same story: the bodies that a session has
taken are some of those heard, in their order, and they are what is staged. -/
structure SnapInv (config : SnapshotConfig) (roots : Hash → Prop) (heard : List Bytes)
    (initial : TransferDb) {Peer : Type} (node : SnapNode Peer) : Prop where
  safe : Safe config roots initial node.db
  target : ∀ {hash height quorumRoot peer alternatePeers},
    node.pipeline = .snapDownloading hash height quorumRoot peer alternatePeers →
      roots quorumRoot
  session : ∀ {session}, node.stateSession = some session →
    roots session.manifest.stateRoot ∧
      (node.hasSink = true → ∃ taken : List Bytes, taken.Sublist heard ∧
        session.digest = leBytes 8 session.manifest.utxoCount ++ taken.flatten ∧
          node.db.StagesStream taken.flatten)
  ready : ∀ {ready}, node.pipeline = .snapReady ready →
    roots ready.snapshot.stateRoot ∧
      ∀ marker, ready.utxoStaged = some marker → node.stateSession = none ∧
        ∃ taken : List Bytes, taken.Sublist heard ∧
          config.blake3 (leBytes 8 marker.utxoCount ++ taken.flatten) = marker.utxoHash ∧
            node.db.StagesStream taken.flatten

section

variable {config : SnapshotConfig} {roots more : Hash → Prop} {heard louder : List Bytes}
  {initial db : TransferDb}

theorem Safe.withStaged (hsafe : Safe config roots initial db)
    (scanned : List (Outpoint × UtxoEntry) × Bytes) :
    Safe config roots initial (db.withStaged scanned) :=
  ⟨hsafe.indexed, hsafe.unarmed⟩

theorem Safe.mono (hsafe : Safe config roots initial db) (hmore : ∀ root, roots root → more root) :
    Safe config more initial db := by
  refine ⟨hsafe.indexed, fun hnone => ?_⟩
  rcases hsafe.unarmed hnone with hsame | ⟨genesisHash, hroot⟩
  · exact .inl hsame
  · exact .inr ⟨genesisHash, hmore _ hroot⟩

namespace SnapInv

variable {Peer : Type} {node : SnapNode Peer}

theorem mono (hinv : SnapInv config roots heard initial node)
    (hmore : ∀ root, roots root → more root) (hheard : heard.Sublist louder) :
    SnapInv config more louder initial node where
  safe := hinv.safe.mono hmore
  target := fun hpipeline => hmore _ (hinv.target hpipeline)
  session := fun hsession => by
    obtain ⟨hroot, hstream⟩ := hinv.session hsession
    refine ⟨hmore _ hroot, fun hsink => ?_⟩
    obtain ⟨taken, htaken, hstaged⟩ := hstream hsink
    exact ⟨taken, htaken.trans hheard, hstaged⟩
  ready := fun hready => by
    obtain ⟨hroot, hstream⟩ := hinv.ready hready
    refine ⟨hmore _ hroot, fun marker hmarker => ?_⟩
    obtain ⟨hnone, taken, htaken, hstaged⟩ := hstream marker hmarker
    exact ⟨hnone, taken, htaken.trans hheard, hstaged⟩

theorem of_idle (hsafe : Safe config roots initial node.db) (hnone : node.stateSession = none)
    (htarget : ∀ {hash height quorumRoot peer alternatePeers},
      node.pipeline = .snapDownloading hash height quorumRoot peer alternatePeers →
        roots quorumRoot)
    (hready : ∀ ready, node.pipeline ≠ .snapReady ready) :
    SnapInv config roots heard initial node where
  safe := hsafe
  target := htarget
  session := fun hsession => by simp [hnone] at hsession
  ready := fun {ready} hpipeline => absurd hpipeline (hready ready)

theorem leave (hinv : SnapInv config roots heard initial node) :
    SnapInv config roots heard initial { node with pipeline := .other } where
  safe := hinv.safe
  target := fun hpipeline => by simp at hpipeline
  session := hinv.session
  ready := fun hpipeline => by simp at hpipeline

theorem retarget (hinv : SnapInv config roots heard initial node) {hash : Hash} {height : Nat}
    {quorumRoot : Hash} {peer : Peer} {alternatePeers : List (Peer × Hash × Nat)}
    (hroot : roots quorumRoot) :
    SnapInv config roots heard initial
      { node with
        pipeline := .snapDownloading hash height quorumRoot peer alternatePeers } where
  safe := hinv.safe
  target := fun hpipeline => by
    cases hpipeline
    exact hroot
  session := hinv.session
  ready := fun hpipeline => by simp at hpipeline

theorem clearUtxoStaging_safe (hsafe : Safe config roots initial node.db) :
    Safe config roots initial node.clearUtxoStaging.db := by
  unfold SnapNode.clearUtxoStaging
  split
  · exact hsafe.withStaged ([], [])
  · exact hsafe

@[simp] theorem clearUtxoStaging_pipeline :
    node.clearUtxoStaging.pipeline = node.pipeline := by
  unfold SnapNode.clearUtxoStaging
  split <;> rfl

@[simp] theorem clearUtxoStaging_stateSession :
    node.clearUtxoStaging.stateSession = node.stateSession := by
  unfold SnapNode.clearUtxoStaging
  split <;> rfl

@[simp] theorem clearUtxoStaging_hasSink : node.clearUtxoStaging.hasSink = node.hasSink := by
  unfold SnapNode.clearUtxoStaging
  split <;> rfl

@[simp] theorem clearStateSession_pipeline :
    node.clearStateSession.pipeline = node.pipeline := by
  unfold SnapNode.clearStateSession
  split
  · rfl
  · exact clearUtxoStaging_pipeline

@[simp] theorem clearStateSession_stateSession : node.clearStateSession.stateSession = none := by
  unfold SnapNode.clearStateSession
  split
  · assumption
  · exact clearUtxoStaging_stateSession

@[simp] theorem clearStateSession_hasSink : node.clearStateSession.hasSink = node.hasSink := by
  unfold SnapNode.clearStateSession
  split
  · rfl
  · exact clearUtxoStaging_hasSink

theorem clearStateSession (hinv : SnapInv config roots heard initial node) :
    SnapInv config roots heard initial node.clearStateSession := by
  cases hsession : node.stateSession with
  | none => simpa [SnapNode.clearStateSession, hsession] using hinv
  | some session =>
      have hsafe : Safe config roots initial node.clearStateSession.db := by
        simp only [SnapNode.clearStateSession, hsession]
        exact clearUtxoStaging_safe hinv.safe
      refine ⟨hsafe, fun hpipeline => hinv.target (clearStateSession_pipeline ▸ hpipeline),
        fun hnone => by simp at hnone, fun hpipeline => ?_⟩
      obtain ⟨hroot, hstaged⟩ := hinv.ready (clearStateSession_pipeline ▸ hpipeline)
      refine ⟨hroot, fun marker hmarker => ?_⟩
      have hnone := (hstaged marker hmarker).1
      simp [hsession] at hnone

theorem snapFallbackToNormal (hinv : SnapInv config roots heard initial node) :
    SnapInv config roots heard initial node.snapFallbackToNormal :=
  hinv.clearStateSession.leave

theorem handleSnapDownloadError (hinv : SnapInv config roots heard initial node) :
    SnapInv config roots heard initial node.handleSnapDownloadError := by
  unfold SnapNode.handleSnapDownloadError
  split
  case h_1 hpipeline =>
    split
    · exact hinv.clearStateSession.retarget (hinv.target hpipeline)
    · exact hinv.clearStateSession.snapFallbackToNormal
  case h_2 => exact hinv

theorem handleStateManifest (hinv : SnapInv config roots heard initial node) (peer : Peer)
    (manifest : StateManifest) :
    SnapInv config roots heard initial (node.handleStateManifest peer manifest) := by
  unfold SnapNode.handleStateManifest
  split
  case h_2 => exact hinv
  case h_1 targetHash targetHeight quorumRoot _ _ hpipeline =>
    have hroot := hinv.target hpipeline
    split
    · exact hinv.handleSnapDownloadError
    · split
      · exact hinv.clearStateSession.snapFallbackToNormal
      · split
        · exact hinv.clearStateSession.handleSnapDownloadError
        case isFalse hsame =>
          rw [not_ne_iff] at hsame
          split
          · exact hinv.clearStateSession.handleSnapDownloadError
          · -- a session starts on an empty staging family
            refine ⟨clearUtxoStaging_safe hinv.clearStateSession.safe, fun htarget => ?_,
              fun hsession => ?_, fun hready => ?_⟩
            · have hkept : node.clearStateSession.clearUtxoStaging.pipeline = _ := htarget
              rw [clearUtxoStaging_pipeline, clearStateSession_pipeline] at hkept
              exact hinv.target hkept
            · obtain rfl := Option.some.inj hsession
              refine ⟨hsame ▸ hroot, fun hsink =>
                ⟨[], List.nil_sublist _, (List.append_nil _).symm, ?_⟩⟩
              have hstages : node.clearStateSession.clearUtxoStaging.db.StagesStream [] := by
                have hsink' : node.clearStateSession.hasSink = true := by
                  have hkept : node.clearStateSession.clearUtxoStaging.hasSink = true := hsink
                  rwa [clearUtxoStaging_hasSink] at hkept
                simp only [SnapNode.clearUtxoStaging, hsink', if_true]
                exact TransferDb.stagesStream_cleared _
              exact hstages
            · have hkept : node.clearStateSession.clearUtxoStaging.pipeline = _ := hready
              rw [clearUtxoStaging_pipeline, clearStateSession_pipeline, hpipeline] at hkept
              simp at hkept

theorem of_cleared (hinv : SnapInv config roots heard initial node)
    (hnone : node.stateSession = none)
    (hready : ∀ ready marker, node.pipeline = .snapReady ready →
      ready.utxoStaged ≠ some marker) :
    SnapInv config roots heard initial node.clearUtxoStaging := by
  refine ⟨clearUtxoStaging_safe hinv.safe,
    fun hpipeline => hinv.target (clearUtxoStaging_pipeline ▸ hpipeline), fun hsession => ?_,
    fun {ready} hpipeline => ?_⟩
  · rw [clearUtxoStaging_stateSession, hnone] at hsession
    simp at hsession
  · rw [clearUtxoStaging_pipeline] at hpipeline
    exact ⟨(hinv.ready hpipeline).1, fun marker hmarker =>
      absurd hmarker (hready ready marker hpipeline)⟩

theorem acceptBody (hinv : SnapInv config roots heard initial node)
    {session : StateSessionClient Peer}
    (hsession : node.stateSession = some session) {db : TransferDb} {body : Bytes}
    (hstaged : node.hasSink = true → node.db.stageUtxoBytes body = .ok db)
    (hkept : node.hasSink = false → db = node.db) (nextKey : Option Bytes) :
    SnapInv config roots (heard ++ [body]) initial
      (SnapNode.acceptBody config.blake3 { node with db := db } session body nextKey) := by
  obtain ⟨hroot, hstream⟩ := hinv.session hsession
  have hnone : ∀ ready marker, node.pipeline = .snapReady ready →
      ready.utxoStaged ≠ some marker := by
    intro ready marker hpipeline hmarker
    have hidle := ((hinv.ready hpipeline).2 marker hmarker).1
    simp [hsession] at hidle
  have hdigest : node.hasSink = true → ∃ taken : List Bytes, taken.Sublist (heard ++ [body]) ∧
      session.digest ++ body = leBytes 8 session.manifest.utxoCount ++ taken.flatten ∧
        db.StagesStream taken.flatten := by
    intro hsink
    obtain ⟨taken, htaken, hdigest, hstages⟩ := hstream hsink
    refine ⟨taken ++ [body], htaken.append (.refl _), ?_, ?_⟩
    · rw [hdigest, List.flatten_append, List.flatten_singleton, List.append_assoc]
    · rw [List.flatten_append, List.flatten_singleton]
      exact (hstages.stage (hstaged hsink)).1
  have hsafe : Safe config roots initial db := by
    cases hsink : node.hasSink with
    | false => exact hkept hsink ▸ hinv.safe
    | true =>
        obtain ⟨taken, -, -, hstages⟩ := hstream hsink
        obtain ⟨-, scanned, rfl⟩ := hstages.stage (hstaged hsink)
        exact hinv.safe.withStaged scanned
  unfold SnapNode.acceptBody
  dsimp only
  split
  · -- the session goes on
    refine ⟨hsafe, hinv.target, fun hnext => ?_, fun {ready} hpipeline => ?_⟩
    · obtain rfl := Option.some.inj hnext
      exact ⟨hroot, hdigest⟩
    · exact ⟨(hinv.ready hpipeline).1, fun marker hmarker =>
        absurd hmarker (hnone ready marker hpipeline)⟩
  · split
    · -- the digest is wrong, and nothing stays staged
      have hdropped : SnapInv config roots (heard ++ [body]) initial
          { node with db := db, stateSession := none } :=
        ⟨hsafe, hinv.target, fun hnext => by simp at hnext, fun {ready} hpipeline =>
          ⟨(hinv.ready hpipeline).1, fun marker hmarker =>
            absurd hmarker (hnone ready marker hpipeline)⟩⟩
      exact (hdropped.of_cleared rfl hnone).handleSnapDownloadError
    case isFalse hright =>
      refine ⟨hsafe, fun hpipeline => by simp at hpipeline, fun hnext => by simp at hnext,
        fun hpipeline => ?_⟩
      cases hpipeline
      refine ⟨hroot, fun marker hmarker => ⟨rfl, ?_⟩⟩
      cases hsink : node.hasSink with
      | false => simp [SnapNode.readySnapshot, hsink] at hmarker
      | true =>
          obtain ⟨taken, htaken, hwhole, hstages⟩ := hdigest hsink
          simp only [SnapNode.readySnapshot, hsink, if_true, Option.some.injEq] at hmarker
          subst hmarker
          refine ⟨taken, htaken, ?_, hstages⟩
          rw [← hwhole]
          exact not_ne_iff.mp hright

theorem handleStateChunk [DecidableEq Peer] (hinv : SnapInv config roots heard initial node)
    (peer : Peer) (sessionId : Nat) (body : Bytes) (nextKey : Option Bytes) (writeFails : Bool) :
    SnapInv config roots (heard ++ [body]) initial
      (node.handleStateChunk config.blake3 peer sessionId body nextKey writeFails) := by
  have hlouder := hinv.mono (fun _ => id) (List.sublist_append_left heard [body])
  unfold SnapNode.handleStateChunk
  split
  · exact hlouder
  case h_2 session hsession =>
    split
    · exact hlouder
    · split
      case isTrue hsink =>
        split
        · exact hlouder.clearStateSession.handleSnapDownloadError
        case h_2 db hstage =>
          split
          · exact hlouder.clearStateSession.handleSnapDownloadError
          · exact hinv.acceptBody hsession (fun _ => hstage)
              (fun hfalse => by simp [hsink] at hfalse) nextKey
      case isFalse hsink =>
        rw [Bool.not_eq_true] at hsink
        exact hinv.acceptBody hsession (fun htrue => by simp [hsink] at htrue) (fun _ => rfl)
          nextKey

theorem handleStateSessionUnavailable (hinv : SnapInv config roots heard initial node)
    (sessionId : Nat) :
    SnapInv config roots heard initial (node.handleStateSessionUnavailable sessionId) := by
  unfold SnapNode.handleStateSessionUnavailable
  split
  · exact hinv
  · split
    · exact hinv.clearStateSession
    · exact hinv

theorem handleSnapSnapshot (hinv : SnapInv config roots heard initial node)
    (snapshot : VerifiedSnapshot) (corroborators quorum : Nat) :
    SnapInv config roots heard initial (node.handleSnapSnapshot snapshot corroborators quorum) := by
  unfold SnapNode.handleSnapSnapshot
  split
  case h_2 => exact hinv
  case h_1 hpipeline =>
    split
    · exact hinv.handleSnapDownloadError
    · split
      · exact hinv.handleSnapDownloadError
      case isFalse hsame =>
        split
        · exact hinv.handleSnapDownloadError
        · refine ⟨hinv.safe, fun htarget => by simp at htarget, hinv.session, fun hready => ?_⟩
          cases hready
          exact ⟨not_ne_iff.mp hsame ▸ hinv.target hpipeline, fun _ hmarker => by
            simp at hmarker⟩

theorem applyStaged (hinv : SnapInv config roots heard initial node)
    (hidle : node.stateSession = none)
    (hpipeline : node.pipeline = .other) {snapshot : VerifiedSnapshot}
    (hroot : roots snapshot.stateRoot) (marker : StagedUtxoMarker) (stopped : Option Nat) :
    SnapInv config roots heard initial (node.applyStaged config snapshot marker stopped) := by
  have hidleAt : ∀ {db : TransferDb}, Safe config roots initial db →
      SnapInv config roots heard initial { node with db := db } := fun hsafe =>
    of_idle hsafe hidle (fun htarget => by simp [hpipeline] at htarget)
      fun ready hready => by simp [hpipeline] at hready
  unfold SnapNode.applyStaged
  split
  · exact (hidleAt (hinv.safe.withStaged ([], []))).snapFallbackToNormal
  case h_2 chainState producerSet _ =>
    dsimp only
    split
    case h_1 committed =>
      refine hidleAt ⟨?_, fun hnone => ?_⟩
      · refine TransferDb.promoteAborted_indexed ?_ chainState producerSet committed
        exact hinv.safe.indexed
      · rw [TransferDb.promoteAborted_rebuildInProgress] at hnone
        simp at hnone
    case h_2 =>
      have hdone := TransferDb.promoteStagedUtxos_promoted
        { node.db with rebuildInProgress := some snapshot.blockHeight } chainState producerSet
      split
      case isTrue hright =>
        refine hidleAt ⟨hdone.indexed, fun _ => .inr ⟨chainState.genesisHash, ?_⟩⟩
        simp only [hdone.chainState, hdone.producerSet]
        rw [hright]
        exact hroot
      case isFalse =>
        refine hidleAt ⟨hdone.indexed, fun hnone => ?_⟩
        rw [hdone.rebuildInProgress] at hnone
        simp at hnone

theorem root_of_verify {chainStateBytes utxoSetBytes producerSetBytes : Bytes} {root : Hash}
    {chainState : ChainState} {utxoSet : UtxoColumn} {producerSet : ProducerSet}
    (hverify : verifyStateRootFromBytesGated config chainStateBytes utxoSetBytes
      producerSetBytes = .ok (root, chainState, utxoSet, producerSet)) :
    computeStateRootGated config chainState utxoSet producerSet = root := by
  unfold verifyStateRootFromBytesGated at hverify
  split at hverify
  · simp at hverify
  · split at hverify
    · simp at hverify
    · split at hverify
      · simp at hverify
      · simp only [Except.ok.injEq, Prod.mk.injEq] at hverify
        obtain ⟨hsame, rfl, rfl, rfl⟩ := hverify
        exact hsame

theorem applyDecoded (hinv : SnapInv config roots heard initial node)
    (hpipeline : node.pipeline = .other) {snapshot : VerifiedSnapshot}
    (hroot : roots snapshot.stateRoot) :
    SnapInv config roots heard initial (node.applyDecoded config snapshot) := by
  unfold SnapNode.applyDecoded
  split
  · exact hinv.snapFallbackToNormal
  case h_2 chainState utxoSet producerSet hinstall =>
    obtain ⟨decoded, hverify, -, rfl⟩ := installDecodedUtxos_some config hinstall
    have hholds := node.db.atomicReplace_holds
      { decoded with
        genesisHash := node.genesisHash, snapSyncHeight := some snapshot.blockHeight }
      producerSet (TransferDb.nodup_canonicalRows utxoSet)
    have hutxo := hholds.utxo.trans (insertAll_sortedRows _ utxoSet)
    have hsafe : Safe config roots initial
        { node.db.atomicReplace
            { decoded with
              genesisHash := node.genesisHash, snapSyncHeight := some snapshot.blockHeight }
            producerSet (canonicalRows utxoSet) with rebuildInProgress := none } := by
      refine ⟨hholds.indexed, fun _ => .inr ⟨decoded.genesisHash, ?_⟩⟩
      rw [hutxo]
      rw [← root_of_verify hverify] at hroot
      exact hroot
    have hinstalled : SnapInv config roots heard initial
        { node with
          db := { node.db.atomicReplace
            { decoded with
              genesisHash := node.genesisHash, snapSyncHeight := some snapshot.blockHeight }
            producerSet (canonicalRows utxoSet) with rebuildInProgress := none } } := by
      refine ⟨hsafe, fun htarget => by simp [hpipeline] at htarget, fun hsession => ?_,
        fun hready => by simp [hpipeline] at hready⟩
      obtain ⟨hset, hstream⟩ := hinv.session hsession
      refine ⟨hset, fun hsink => ?_⟩
      obtain ⟨taken, htaken, hdigest, hstages⟩ := hstream hsink
      exact ⟨taken, htaken, hdigest, hstages.congr rfl rfl⟩
    dsimp only
    split
    · exact hinstalled
    · exact hinstalled.snapFallbackToNormal

theorem applySnapshot (hinv : SnapInv config roots heard initial node) (recoveryMode : Bool)
    (stopped : Option Nat) :
    SnapInv config roots heard initial (node.applySnapshot config recoveryMode stopped) := by
  unfold SnapNode.applySnapshot
  split
  case h_2 => exact hinv
  case h_1 ready hready =>
    obtain ⟨hroot, hstaged⟩ := hinv.ready hready
    dsimp only
    split
    · exact hinv.leave
    · split
      case h_1 marker hmarker =>
        exact hinv.leave.applyStaged (hstaged marker hmarker).1 rfl hroot marker stopped
      case h_2 => exact hinv.leave.applyDecoded rfl hroot

theorem restart (hinv : SnapInv config roots heard initial node) :
    SnapInv config roots heard initial node.restart :=
  of_idle (hinv.safe.withStaged ([], [])) rfl (fun htarget => by simp [SnapNode.restart] at htarget)
    fun ready hready => by simp [SnapNode.restart] at hready

end SnapInv

end

/-! ## Runs -/

section

variable {Peer : Type}

def SnapNode.start (hasSink : Bool) (genesisHash : Hash) (db : TransferDb) : SnapNode Peer where
  pipeline := .other
  stateSession := none
  hasSink := hasSink
  genesisHash := genesisHash
  db := db

/-- The root was set as the target of a download. -/
def Targeted (events : List (SnapEvent Peer)) (root : Hash) : Prop :=
  ∃ hash height peer alternatePeers,
    SnapEvent.target hash height root peer alternatePeers ∈ events

def SnapEvent.heard : SnapEvent Peer → List Bytes
  | .chunk _ _ body _ _ => [body]
  | _ => []

variable {config : SnapshotConfig} {initial : TransferDb}

theorem clearStateSession_live (node : SnapNode Peer) :
    node.clearStateSession.db.live = node.db.live := by
  unfold SnapNode.clearStateSession
  split
  · rfl
  · unfold SnapNode.clearUtxoStaging
    split <;> rfl

theorem applyStaged_live (node : SnapNode Peer) (snapshot : VerifiedSnapshot)
    (marker : StagedUtxoMarker) :
    (node.applyStaged config snapshot marker none).db.live.utxo = node.db.live.utxo ∨
      (node.applyStaged config snapshot marker none).db.live.utxo = node.db.staging := by
  unfold SnapNode.applyStaged
  split
  · left
    change (SnapNode.clearStateSession _).db.live.utxo = _
    rw [clearStateSession_live]
    rfl
  case h_2 chainState producerSet _ =>
    right
    have hdone := TransferDb.promoteStagedUtxos_promoted
      { node.db with rebuildInProgress := some snapshot.blockHeight } chainState producerSet
    dsimp only
    split
    · exact hdone.utxo
    · exact hdone.utxo

variable [DecidableEq Peer]

theorem snapInv_step {events : List (SnapEvent Peer)} {node : SnapNode Peer}
    (hinv : SnapInv config (Targeted events) (events.flatMap SnapEvent.heard) initial node)
    (event : SnapEvent Peer) :
    SnapInv config (Targeted (events ++ [event]))
      ((events ++ [event]).flatMap SnapEvent.heard) initial (snapStep config node event) := by
  have hmore : ∀ root, Targeted events root → Targeted (events ++ [event]) root := by
    rintro root ⟨hash, height, peer, alternatePeers, hevent⟩
    exact ⟨hash, height, peer, alternatePeers, List.mem_append_left _ hevent⟩
  have hheard : (events ++ [event]).flatMap SnapEvent.heard =
      events.flatMap SnapEvent.heard ++ event.heard := by simp
  have hgrown := hinv.mono hmore (List.sublist_append_left _ event.heard)
  rw [hheard]
  cases event with
  | target hash height quorumRoot peer alternatePeers =>
      exact hgrown.retarget ⟨hash, height, peer, alternatePeers, by simp⟩
  | leave => exact hgrown.leave
  | downloadError => exact hgrown.handleSnapDownloadError
  | fallback => exact hgrown.snapFallbackToNormal
  | manifest peer manifest => exact hgrown.handleStateManifest peer manifest
  | chunk peer sessionId body nextKey writeFails =>
      exact (hinv.handleStateChunk peer sessionId body nextKey writeFails).mono hmore (.refl _)
  | unavailable sessionId => exact hgrown.handleStateSessionUnavailable sessionId
  | snapshot snapshot corroborators quorum =>
      exact hgrown.handleSnapSnapshot snapshot corroborators quorum
  | apply recoveryMode stopped => exact hgrown.applySnapshot recoveryMode stopped
  | restart => exact hgrown.restart

theorem snapInv_run (config : SnapshotConfig) (hasSink : Bool) (genesisHash : Hash)
    (hindexed : initial.live.Indexed) (events : List (SnapEvent Peer)) :
    SnapInv config (Targeted events) (events.flatMap SnapEvent.heard) initial
      (events.foldl (snapStep config) (SnapNode.start hasSink genesisHash initial)) := by
  refine foldl_invariant
    (fun done => SnapInv config (Targeted done) (done.flatMap SnapEvent.heard) initial)
    (SnapInv.of_idle ⟨hindexed, fun hnone => .inl ⟨hnone, rfl, rfl, rfl⟩⟩ rfl
      (fun htarget => by simp [SnapNode.start] at htarget)
      fun ready hready => by simp [SnapNode.start] at hready) ?_
  exact fun done event rest node _ hinv => snapInv_step hinv event

end

/-! ## An honest peer -/

section

variable {Peer : Type}

/-- The answers of a peer that serves the ranges of a store, from a cursor to the end. -/
inductive Serves (store : UtxoColumn) (peer : Peer) (sessionId : Nat) :
    Option ByteKey → List (SnapEvent Peer) → List Bytes → Prop where
  | last {start : Option ByteKey} {budget : Nat} {body : Bytes}
      (hread : canonicalRange store start budget = (body, none)) :
      Serves store peer sessionId start [.chunk peer sessionId body none false] [body]
  | next {start : Option ByteKey} {budget : Nat} {body : Bytes} {cursor : ByteKey}
      {events : List (SnapEvent Peer)} {bodies : List Bytes}
      (hread : canonicalRange store start budget = (body, some cursor))
      (hrest : Serves store peer sessionId (some cursor) events bodies) :
      Serves store peer sessionId start
        (.chunk peer sessionId body (some cursor.bytes) false :: events) (body :: bodies)

variable {store : UtxoColumn} {peer : Peer} {sessionId : Nat} {start : Option ByteKey}
  {events : List (SnapEvent Peer)} {bodies : List Bytes}

theorem Serves.follows (hserves : Serves store peer sessionId start events bodies) :
    ∃ budgets, Lib.Follows (canonicalRange store) start budgets bodies := by
  induction hserves with
  | last hread => exact ⟨_, .last hread⟩
  | next hread _ ih =>
      obtain ⟨budgets, hrest⟩ := ih
      exact ⟨_, .next hread hrest⟩

theorem handleStateManifest_opens {node : SnapNode Peer} {manifest : StateManifest}
    {asked : Peer} {alternatePeers : List (Peer × Hash × Nat)}
    (hpipeline : node.pipeline = .snapDownloading manifest.blockHash manifest.blockHeight
      manifest.stateRoot asked alternatePeers)
    (hsink : node.hasSink = true) (peer : Peer) :
    node.handleStateManifest peer manifest =
      { node with
        stateSession := some (.open peer manifest)
        db := node.db.clearStagedUtxos } := by
  have hcleared : node.clearStateSession.clearUtxoStaging =
      { node with stateSession := none, db := node.db.clearStagedUtxos } := by
    unfold SnapNode.clearStateSession
    split
    case h_1 hnone =>
      rw [SnapNode.clearUtxoStaging, if_pos hsink]
      simp only [hnone]
    case h_2 => simp [SnapNode.clearUtxoStaging, hsink, TransferDb.clearStagedUtxos]
  unfold SnapNode.handleStateManifest
  rw [hpipeline]
  dsimp only
  rw [if_neg (by omega), if_neg (by simp), if_neg (by simp), if_neg (by simp), hcleared]
  rw [← hpipeline]

variable {config : SnapshotConfig}

theorem stagedPrelude_some {node : SnapNode Peer} {snapshot : VerifiedSnapshot}
    {marker : StagedUtxoMarker} {chainState : ChainState} {rest : Bytes}
    {producerSet : ProducerSet}
    (hadmits : config.admitsAnchor snapshot.blockHash snapshot.blockHeight
      snapshot.blockHeaderBytes = true)
    (hchain : Wire.chainState.decode snapshot.chainState = some (chainState, rest))
    (hset : ProducerSet.fromSnapshotBytes config.validKey snapshot.producerSet = some producerSet)
    (hbest : chainState.bestHash = snapshot.blockHash)
    (hheight : chainState.bestHeight = snapshot.blockHeight)
    (hlen : node.db.stagedUtxoLen = marker.utxoCount) :
    node.stagedPrelude config snapshot marker =
      some ({ chainState with
          genesisHash := node.genesisHash, snapSyncHeight := some snapshot.blockHeight },
        producerSet) := by
  simp [SnapNode.stagedPrelude, hadmits, hchain, hset, hbest, hheight, hlen]

theorem applyStaged_installs {node : SnapNode Peer} {snapshot : VerifiedSnapshot}
    {marker : StagedUtxoMarker} {chainState : ChainState} {producerSet : ProducerSet}
    (hprelude : node.stagedPrelude config snapshot marker = some (chainState, producerSet))
    (hroot : computeStateRootGated config chainState node.db.staging producerSet =
      snapshot.stateRoot) :
    node.applyStaged config snapshot marker none =
      { node with
        db := { ({ node.db with
          rebuildInProgress := some snapshot.blockHeight }).promoteStagedUtxos chainState
            producerSet with rebuildInProgress := none } } := by
  have hdone := TransferDb.promoteStagedUtxos_promoted
    { node.db with rebuildInProgress := some snapshot.blockHeight } chainState producerSet
  unfold SnapNode.applyStaged
  rw [hprelude]
  dsimp only
  rw [hdone.utxo, if_pos hroot]

variable [DecidableEq Peer]

theorem Serves.run (hserves : Serves store peer sessionId start events bodies) :
    ∀ (node : SnapNode Peer) (session : StateSessionClient Peer) {final : TransferDb},
      node.stateSession = some session → node.hasSink = true →
      session.manifest.sessionId = sessionId → session.peer = peer →
      Doli.Lib.run TransferDb.stageUtxoBytes bodies node.db = .ok final →
      config.blake3 (session.digest ++ bodies.flatten) = session.manifest.utxoHash →
        events.foldl (snapStep config) node =
          { node with
            stateSession := none
            db := final
            pipeline := .snapReady (SnapNode.readySnapshot session true) } := by
  induction hserves with
  | @last start budget body hread =>
      intro node session final hsession hsink hid hpeer hstage hdigest
      obtain ⟨db, hbody, hend⟩ := run_cons_ok.mp hstage
      obtain rfl := Except.ok.inj hend
      rw [List.flatten_singleton] at hdigest
      simp [snapStep, SnapNode.handleStateChunk, hsession, hsink, hid, hpeer, hbody,
        SnapNode.acceptBody, hdigest, SnapNode.readySnapshot]
  | @next start budget body cursor events bodies hread hrest ih =>
      intro node session final hsession hsink hid hpeer hstage hdigest
      obtain ⟨db, hbody, hend⟩ := run_cons_ok.mp hstage
      rw [List.flatten_cons, ← List.append_assoc] at hdigest
      let later := { session with
        digest := session.digest ++ body, cursor := some cursor.bytes }
      have hstep : snapStep config node (.chunk peer sessionId body (some cursor.bytes) false) =
          { node with db := db, stateSession := some later } := by
        simp [snapStep, SnapNode.handleStateChunk, hsession, hsink, hid, hpeer, hbody,
          SnapNode.acceptBody, later]
      have hend' := ih { node with db := db, stateSession := some later } later rfl hsink hid
        hpeer hend hdigest
      rw [List.foldl_cons, hstep, hend']
      rfl

theorem Serves.ready (hserves : Serves store peer sessionId none events bodies)
    (hfits : StoreFits store)
    (hextra : ∀ {outpoint entry}, store.lookup outpoint = some entry →
      entry.output.extraData.length < 2 ^ 32)
    {node : SnapNode Peer} {manifest : StateManifest} {asked : Peer}
    {alternatePeers : List (Peer × Hash × Nat)}
    (hpipeline : node.pipeline = .snapDownloading manifest.blockHash manifest.blockHeight
      manifest.stateRoot asked alternatePeers)
    (hsink : node.hasSink = true) (hid : manifest.sessionId = sessionId)
    (hcount : manifest.utxoCount = (canonicalRows store).length)
    (hhash : manifest.utxoHash = config.blake3 (serializeCanonical store)) :
    (SnapEvent.manifest peer manifest :: events).foldl (snapStep config) node =
      { node with
        stateSession := none
        db := { node.db with staging := store, residual := none }
        pipeline := .snapReady (SnapNode.readySnapshot (.open peer manifest) true) } := by
  obtain ⟨budgets, hfollows⟩ := hserves.follows
  have hstage := transfer_stages_store hfits hextra hfollows node.db
  have hbytes : leBytes 8 manifest.utxoCount ++ bodies.flatten = serializeCanonical store := by
    rw [(canonicalRange_follows hfits hfollows).1, hcount]
    rfl
  have hdigest : config.blake3
      ((StateSessionClient.open peer manifest).digest ++ bodies.flatten) = manifest.utxoHash := by
    rw [hhash, ← hbytes]
    rfl
  have hrun := hserves.run { node with
      stateSession := some (.open peer manifest)
      db := node.db.clearStagedUtxos } (.open peer manifest) rfl hsink hid rfl hstage hdigest
  rw [List.foldl_cons, snapStep, handleStateManifest_opens hpipeline hsink, hrun]

end

/-! ## On a store of one row -/

namespace StateSessionSample

def manifest : StateManifest where
  sessionId := 4
  blockHash := ⟨5⟩
  blockHeight := 5
  stateRoot := ⟨96⟩
  utxoHash := SnapshotSample.config.blake3 (serializeCanonical (wideStore 3))
  utxoCount := (canonicalRows (wideStore 3)).length
  chunkMaxBytes := 0
  chainState := SnapshotSample.honest.chainState
  producerSet := SnapshotSample.honest.producerSet
  blockHeaderBytes := none
  epochStateBytes := none

/-- A node with a marker that an aborted promotion has left. -/
def node : SnapNode Nat := .start true ⟨1⟩ sampleTransferDb

theorem extraFits {outpoint : Outpoint} {entry : UtxoEntry}
    (hlookup : (wideStore 3).lookup outpoint = some entry) :
    entry.output.extraData.length < 2 ^ 32 := by
  rw [(wideStore_lookup hlookup).2]
  decide

def answers : List (SnapEvent Nat) :=
  [.manifest 0 manifest, .chunk 0 4 (canonicalBody (wideStore 3)) none false]

def asked : SnapNode Nat :=
  snapStep SnapshotSample.config node (.target ⟨5⟩ 5 ⟨96⟩ 0 [])

theorem serves : Serves (wideStore 3) 0 4 none
    [.chunk 0 4 (canonicalBody (wideStore 3)) none false] [canonicalBody (wideStore 3)] := by
  have hread : canonicalRange (wideStore 3) none 0 = (canonicalBody (wideStore 3), none) := by
    simp [canonicalRange, canonicalBody, emittedRows, canonicalRows_wideStore, readRange, readRows,
      rowsFrom, rowsImage]
  exact .last hread

theorem answers_ready : answers.foldl (snapStep SnapshotSample.config) asked =
    { asked with
      stateSession := none
      db := { sampleTransferDb with staging := wideStore 3, residual := none }
      pipeline := .snapReady (SnapNode.readySnapshot (.open 0 manifest) true) } := by
  have hready := serves.ready (wideStore_fits 3) extraFits
    (show asked.pipeline = .snapDownloading manifest.blockHash manifest.blockHeight
      manifest.stateRoot 0 [] from rfl) rfl rfl rfl
    (show manifest.utxoHash = SnapshotSample.config.blake3 _ from rfl)
  exact hready

theorem canonicalBody_length : (canonicalBody (wideStore 3)).length = 100 := by
  rw [canonicalBody_eq, canonicalRows_wideStore]
  decide

end StateSessionSample

end Doli.Node
