import Doli.Core.EpochState
import Doli.Producer.Canonical
import Doli.Storage.CanonicalImage

/-!
# Installing a state snapshot

A snapshot is checked against its state root and installed.  The root covers the
canonical forms of the three stores; the epoch state is the sender's.
-/

namespace Doli.Node

open Doli.Core Doli.Lib Doli.Storage Doli.Producer

/-! ## The snapshot and its root -/

/-- The fields of a snapshot that the installation reads. -/
structure VerifiedSnapshot where
  blockHash : Hash
  blockHeight : Nat
  blockHeaderBytes : Option Bytes
  chainState : Bytes
  utxoSet : Bytes
  producerSet : Bytes
  stateRoot : Hash
  epochStateBytes : Option Bytes

/-- BLAKE3, the point check of a key, the gate, the checks on the anchor, and the
epoch state a node derives without the sender's. -/
structure SnapshotConfig where
  blake3 : Bytes → Hash
  validKey : PublicKey → Bool
  incI181PendingRootActivationHeight : Nat
  admitsAnchor : Hash → Nat → Option Bytes → Bool
  reconstructEpoch : VerifiedSnapshot → ProducerSet → EpochState → EpochState

/-- What the node keeps of its own. -/
structure LocalState where
  genesisHash : Hash
  epochState : EpochState

structure InstalledState where
  chainState : ChainState
  utxoSet : UtxoColumn
  producerSet : ProducerSet
  epochState : EpochState

inductive SnapshotError where
  | chainState (length : Nat)
  | producerSet (length : Nat)
  | utxoSet (error : CanonicalError)
  deriving DecidableEq, Repr

section

variable (config : SnapshotConfig)

def composeStateRoot (csHash utxoHash psHash : Hash) : Hash :=
  config.blake3 (csHash.asBytes ++ (utxoHash.asBytes ++ psHash.asBytes))

def pendingBound (chainState : ChainState) : Bool :=
  config.incI181PendingRootActivationHeight ≤ chainState.bestHeight

/-- `compute_state_root_gated` -/
def computeStateRootGated (chainState : ChainState) (utxoSet : UtxoColumn)
    (producerSet : ProducerSet) : Hash :=
  composeStateRoot config (config.blake3 (canonicalChainState chainState))
    (config.blake3 (serializeCanonical utxoSet))
    (config.blake3 (producerSet.stateRootBytes config.validKey config.blake3
      (pendingBound config chainState)))

/-- `verify_state_root_from_bytes_gated` -/
def verifyStateRootFromBytesGated (chainStateBytes utxoSetBytes producerSetBytes : Bytes) :
    Except SnapshotError (Hash × ChainState × UtxoColumn × ProducerSet) :=
  match Wire.chainState.decode chainStateBytes with
  | none => .error (.chainState chainStateBytes.length)
  | some (chainState, _) =>
      match ProducerSet.fromSnapshotBytes config.validKey producerSetBytes with
      | none => .error (.producerSet producerSetBytes.length)
      | some producerSet =>
          match deserializeCanonical utxoSetBytes with
          | .error error => .error (.utxoSet error)
          | .ok utxoSet =>
              .ok (computeStateRootGated config chainState utxoSet producerSet, chainState,
                utxoSet, producerSet)

/-! ## The installation -/

/-- The fields of an `EpochState` in the order of their declaration. -/
def epochStateFields :=
  let keys := (Wire.publicKey config.validKey).list
  let credits := ((Wire.publicKey config.validKey).pair Wire.u32.list).list
  Wire.u64.pair <| (Wire.hash.pair Wire.u64).list.pair <| keys.pair <| keys.pair <|
    (keys.pair <| keys.pair keys).pair <| (credits.pair <| credits.pair credits).pair
      ((Wire.publicKey config.validKey).pair Wire.u32).list

/-- `EpochState::deserialize` -/
def decodeEpochState (bytes : Bytes) : Option EpochState :=
  let minutes (rows : List (PublicKey × List Nat)) : Column PublicKey (Finset Nat) :=
    Journal.insertAll (rows.map fun row => (row.1, row.2.toFinset)) ∅
  ((epochStateFields config).decode bytes).map
    fun ((epoch, bonds, producerList, activeList, (attested, attested', attested''),
        (accum, accum', accum''), produced), _) =>
      { epoch := epoch
        bondSnapshot := Journal.insertAll bonds ∅
        producerList := producerList
        activeList := activeList
        attestedSets := ⟨attested.toFinset, attested'.toFinset, attested''.toFinset⟩
        attestationAccum := ⟨minutes accum, minutes accum', minutes accum''⟩
        blocksProduced := Journal.insertAll produced ∅ }

/-- `install_decoded_utxos` behind the checks on the anchor. -/
def installDecodedUtxos (genesisHash : Hash) (snapshot : VerifiedSnapshot) :
    Option (ChainState × UtxoColumn × ProducerSet) :=
  if !config.admitsAnchor snapshot.blockHash snapshot.blockHeight snapshot.blockHeaderBytes then
    none
  else
    match verifyStateRootFromBytesGated config snapshot.chainState snapshot.utxoSet
        snapshot.producerSet with
    | .error _ => none
    | .ok (computedRoot, chainState, utxoSet, producerSet) =>
        if computedRoot ≠ snapshot.stateRoot then none
        else if chainState.bestHash ≠ snapshot.blockHash ∨
            chainState.bestHeight ≠ snapshot.blockHeight then none
        else
          some ({ chainState with
              genesisHash := genesisHash, snapSyncHeight := some snapshot.blockHeight },
            utxoSet, producerSet)

/-- The sender's epoch state as it is, or one derived without it. -/
def snapEpochState (producerSet : ProducerSet) (prior : EpochState)
    (snapshot : VerifiedSnapshot) : EpochState :=
  let loaded := (snapshot.epochStateBytes.bind (decodeEpochState config)).getD prior
  if snapshot.epochStateBytes = none ∨ loaded.producerList = [] then
    config.reconstructEpoch snapshot producerSet loaded
  else loaded

/-- `apply_snap_snapshot` without staged rows.  The root of the installed stores
is taken again, and a difference leaves the epoch state alone. -/
def applySnapSnapshot (node : LocalState) (snapshot : VerifiedSnapshot) :
    Option InstalledState :=
  match installDecodedUtxos config node.genesisHash snapshot with
  | none => none
  | some (chainState, utxoSet, producerSet) =>
      if computeStateRootGated config chainState utxoSet producerSet = snapshot.stateRoot then
        some ⟨chainState, utxoSet, producerSet,
          snapEpochState config producerSet node.epochState snapshot⟩
      else some ⟨chainState, utxoSet, producerSet, node.epochState⟩

/-- What is hashed for the root of a snapshot. -/
def rootPreimages (snapshot : VerifiedSnapshot) : List Bytes :=
  match verifyStateRootFromBytesGated config snapshot.chainState snapshot.utxoSet
      snapshot.producerSet with
  | .error _ => []
  | .ok (_, chainState, utxoSet, producerSet) =>
      let chainBytes := canonicalChainState chainState
      let utxoBytes := serializeCanonical utxoSet
      let setBytes := producerSet.stateRootBytes config.validKey config.blake3
        (pendingBound config chainState)
      [chainBytes, utxoBytes, setBytes, queueBytes config.validKey producerSet,
        (config.blake3 chainBytes).asBytes ++ ((config.blake3 utxoBytes).asBytes ++
          (config.blake3 setBytes).asBytes)]

/-! ## What the root fixes -/

section Root

variable {config} {first second : VerifiedSnapshot} {root root' : Hash}
  {chainState chainState' : ChainState} {utxoSet utxoSet' : UtxoColumn}
  {producerSet producerSet' : ProducerSet}

theorem verifyStateRoot_ok
    (hverify : verifyStateRootFromBytesGated config first.chainState first.utxoSet
      first.producerSet = .ok (root, chainState, utxoSet, producerSet)) :
    Wire.chainState.Legal chainState ∧ WireFits config.validKey producerSet ∧
      (StoreFits utxoSet ∧ ∀ row ∈ canonicalRows utxoSet, RowFits row) ∧
      root = computeStateRootGated config chainState utxoSet producerSet := by
  unfold verifyStateRootFromBytesGated at hverify
  cases hchain : Wire.chainState.decode first.chainState with
  | none => simp [hchain] at hverify
  | some read =>
      cases hset : ProducerSet.fromSnapshotBytes config.validKey first.producerSet with
      | none => simp [hchain, hset] at hverify
      | some set =>
          cases hstore : deserializeCanonical first.utxoSet with
          | error error => simp [hchain, hset, hstore] at hverify
          | ok store =>
              simp only [hchain, hset, hstore, Except.ok.injEq, Prod.mk.injEq] at hverify
              obtain ⟨rfl, rfl, rfl, rfl⟩ := hverify
              exact ⟨Wire.chainState.legal_of_decode hchain,
                wireFits_of_fromSnapshotBytes hset, fits_of_deserializeCanonical hstore, rfl⟩

/-- A hash that collides on nothing the two roots hash. -/
def CollisionFree (config : SnapshotConfig) (first second : VerifiedSnapshot) : Prop :=
  Set.InjOn config.blake3
    {bytes | bytes ∈ rootPreimages config first ∨ bytes ∈ rootPreimages config second}

theorem stores_of_computeStateRoot
    (hverify : verifyStateRootFromBytesGated config first.chainState first.utxoSet
      first.producerSet = .ok (root, chainState, utxoSet, producerSet))
    (hverify' : verifyStateRootFromBytesGated config second.chainState second.utxoSet
      second.producerSet = .ok (root', chainState', utxoSet', producerSet'))
    (hfree : CollisionFree config first second) (hroot : root = root')
    (hgate : config.incI181PendingRootActivationHeight ≤ chainState.bestHeight) :
    rootedFields chainState = rootedFields chainState' ∧ utxoSet = utxoSet' ∧
      SameRows producerSet producerSet' ∧
      producerSet.unbondingIndex = producerSet'.unbondingIndex ∧
      producerSet.pendingUpdates = producerSet'.pendingUpdates := by
  obtain ⟨hchain, hset, ⟨hstore, hrows⟩, rfl⟩ := verifyStateRoot_ok hverify
  obtain ⟨hchain', hset', ⟨hstore', hrows'⟩, rfl⟩ := verifyStateRoot_ok hverify'
  unfold CollisionFree rootPreimages at hfree
  rw [hverify, hverify'] at hfree
  have hbytes := hfree (.inl (by simp)) (.inr (by simp)) hroot
  obtain ⟨hchainHash, hrest⟩ := List.append_inj hbytes (by simp)
  obtain ⟨hutxoHash, hsetHash⟩ := List.append_inj hrest (by simp)
  have hchainBytes := hfree (.inl (by simp)) (.inr (by simp)) (Hash.asBytes_inj hchainHash)
  have hutxoBytes := hfree (.inl (by simp)) (.inr (by simp)) (Hash.asBytes_inj hutxoHash)
  have hsetBytes := hfree (.inl (by simp)) (.inr (by simp)) (Hash.asBytes_inj hsetHash)
  have hrooted := canonicalChainState_inj hchain hchain' hchainBytes
  have hheight : chainState.bestHeight = chainState'.bestHeight := by
    have hsame := congrArg ChainState.bestHeight hrooted
    exact hsame
  have hbound : pendingBound config chainState = true := decide_eq_true hgate
  have hbound' : pendingBound config chainState' = true := by
    rw [← hbound]
    unfold pendingBound
    rw [hheight]
  rw [hbound, hbound'] at hsetBytes
  obtain ⟨hsame, hqueue⟩ := stateRootBytes_inj hset hset'
    (fun hsame => hfree (.inl (by simp)) (.inr (by simp)) hsame) hsetBytes
  exact ⟨hrooted, serializeCanonical_inj hstore hrows hstore' hrows' hutxoBytes, hsame,
    hsame.unbondingIndex hset hset', hqueue⟩

end Root

/-! ## What is installed -/

theorem installDecodedUtxos_some {genesisHash : Hash} {snapshot : VerifiedSnapshot}
    {chainState : ChainState} {utxoSet : UtxoColumn} {producerSet : ProducerSet}
    (hinstall : installDecodedUtxos config genesisHash snapshot =
      some (chainState, utxoSet, producerSet)) :
    ∃ decoded, verifyStateRootFromBytesGated config snapshot.chainState snapshot.utxoSet
        snapshot.producerSet = .ok (snapshot.stateRoot, decoded, utxoSet, producerSet) ∧
      decoded.bestHeight = snapshot.blockHeight ∧
      chainState = { decoded with
        genesisHash := genesisHash, snapSyncHeight := some snapshot.blockHeight } := by
  unfold installDecodedUtxos at hinstall
  split at hinstall
  case isTrue => simp at hinstall
  case isFalse =>
    cases hverify : verifyStateRootFromBytesGated config snapshot.chainState snapshot.utxoSet
        snapshot.producerSet with
    | error error => simp [hverify] at hinstall
    | ok read =>
        obtain ⟨computedRoot, decoded, store, set⟩ := read
        simp only [hverify] at hinstall
        split at hinstall
        case isTrue => simp at hinstall
        case isFalse hroot =>
          split at hinstall
          case isTrue => simp at hinstall
          case isFalse henvelope =>
            obtain ⟨rfl, rfl, rfl⟩ := by simpa using hinstall
            rw [not_ne_iff] at hroot
            rw [not_or, not_ne_iff, not_ne_iff] at henvelope
            exact ⟨decoded, by rw [hroot], henvelope.2, rfl⟩

theorem applySnapSnapshot_some {node : LocalState} {snapshot : VerifiedSnapshot}
    {installed : InstalledState}
    (hinstall : applySnapSnapshot config node snapshot = some installed) :
    installDecodedUtxos config node.genesisHash snapshot =
      some (installed.chainState, installed.utxoSet, installed.producerSet) := by
  unfold applySnapSnapshot at hinstall
  split at hinstall
  · simp at hinstall
  case h_2 hdecoded =>
    rw [hdecoded]
    split at hinstall
    all_goals
      rw [← Option.some.inj hinstall]

theorem applySnapSnapshot_epochStateBytes (node : LocalState) (snapshot : VerifiedSnapshot)
    (bytes : Option Bytes) :
    (applySnapSnapshot config node { snapshot with epochStateBytes := bytes }).map
        (fun installed => (installed.chainState, installed.utxoSet, installed.producerSet)) =
      installDecodedUtxos config node.genesisHash snapshot := by
  have hsame : installDecodedUtxos config node.genesisHash
      { snapshot with epochStateBytes := bytes } =
      installDecodedUtxos config node.genesisHash snapshot := rfl
  unfold applySnapSnapshot
  rw [hsame]
  cases installDecodedUtxos config node.genesisHash snapshot with
  | none => rfl
  | some parts =>
      obtain ⟨chainState, utxoSet, producerSet⟩ := parts
      dsimp only
      split <;> rfl

end

/-- Above the gate, two snapshots of one root that a node installs agree on the
chain state but for the protocol version and the pending activation, on the UTXO
set, on the pending queue in its order, and on the producers up to the order
inside the sorted vectors.  The epoch state takes no part in what is checked. -/
theorem snapshots_agree {config : SnapshotConfig} {node : LocalState}
    {first second : VerifiedSnapshot} {installed installed' : InstalledState}
    (hfirst : applySnapSnapshot config node first = some installed)
    (hsecond : applySnapSnapshot config node second = some installed')
    (hroot : first.stateRoot = second.stateRoot)
    (hfree : CollisionFree config first second)
    (hgate : config.incI181PendingRootActivationHeight ≤ installed.chainState.bestHeight) :
    installed'.chainState = { installed.chainState with
        activeProtocolVersion := installed'.chainState.activeProtocolVersion
        pendingProtocolActivation := installed'.chainState.pendingProtocolActivation } ∧
      installed'.utxoSet = installed.utxoSet ∧
      installed'.producerSet.exitHistory = installed.producerSet.exitHistory ∧
      installed'.producerSet.unbondingIndex = installed.producerSet.unbondingIndex ∧
      installed'.producerSet.pendingUpdates = installed.producerSet.pendingUpdates ∧
      (∀ key, (installed'.producerSet.producers.lookup key).map ProducerInfo.sortedVectors =
        (installed.producerSet.producers.lookup key).map ProducerInfo.sortedVectors) ∧
      (∀ key info info', installed.producerSet.producers.lookup key = some info →
        installed'.producerSet.producers.lookup key = some info' →
          info' = { info with
              additionalBonds := info'.additionalBonds
              receivedDelegations := info'.receivedDelegations
              bondEntries := info'.bondEntries } ∧
            info.additionalBonds.Perm info'.additionalBonds ∧
            info.receivedDelegations.Perm info'.receivedDelegations ∧
            info.bondEntries.Perm info'.bondEntries) ∧
      (∀ bytes, (applySnapSnapshot config node { first with epochStateBytes := bytes }).map
          (fun other => (other.chainState, other.utxoSet, other.producerSet)) =
        some (installed.chainState, installed.utxoSet, installed.producerSet)) := by
  have hparts := applySnapSnapshot_some config hfirst
  obtain ⟨decoded, hverify, hheight, hchain⟩ := installDecodedUtxos_some config hparts
  obtain ⟨decoded', hverify', hheight', hchain'⟩ := installDecodedUtxos_some config
    (applySnapSnapshot_some config hsecond)
  have hdecodedGate : config.incI181PendingRootActivationHeight ≤ decoded.bestHeight := by
    rw [hchain] at hgate
    exact hgate
  obtain ⟨hrooted, hutxo, hrows, hindex, hqueue⟩ :=
    stores_of_computeStateRoot hverify hverify' hfree hroot hdecodedGate
  refine ⟨?_, hutxo.symm, hrows.2.symm, hindex.symm, hqueue.symm, fun key => (hrows.1 key).symm,
    fun key info info' hinfo hinfo' => ?_, fun bytes => ?_⟩
  · have hsame := rootedFields_eq_iff.mp hrooted
    have hblock : first.blockHeight = second.blockHeight := by
      rw [← hheight, ← hheight', hsame]
    rw [hchain, hchain', hblock, hsame]
  · have hsorted := hrows.1 key
    rw [hinfo, hinfo'] at hsorted
    exact eq_of_sortedVectors (Option.some.inj hsorted)
  · rw [applySnapSnapshot_epochStateBytes, hparts]

/-! ## Two snapshots of one root -/

namespace SnapshotSample

def emptyEpoch : EpochState :=
  ⟨0, ∅, [], [], ⟨∅, ∅, ∅⟩, ⟨∅, ∅, ∅⟩, ∅⟩

/-- A hash that tells the five preimages apart by their lengths. -/
def config : SnapshotConfig where
  blake3 bytes := ⟨BitVec.ofNat 256 bytes.length⟩
  validKey _ := true
  incI181PendingRootActivationHeight := 3
  admitsAnchor _ _ _ := true
  reconstructEpoch _ _ epochState := epochState

def node : LocalState := ⟨⟨1⟩, emptyEpoch⟩

def key : PublicKey := ⟨7⟩

def chainState (version : Nat) (pending : Option (Nat × Nat)) : ChainState where
  bestHash := ⟨5⟩
  bestHeight := 5
  bestSlot := 6
  totalWork := 5
  genesisHash := ⟨1⟩
  genesisTimestamp := 9
  snapSyncHeight := none
  activeProtocolVersion := version
  pendingProtocolActivation := pending

def info (entries : List StoredBondEntry) : ProducerInfo where
  publicKey := key
  registeredAt := 0
  bondAmount := 30
  bondOutpoint := ⟨⟨2⟩, 0⟩
  status := .active
  registrationEra := 0
  hasPriorExit := false
  lastActivity := 4
  bondCount := 2
  additionalBonds := []
  delegatedTo := none
  delegatedBonds := 0
  receivedDelegations := []
  bondEntries := entries
  withdrawalPendingCount := 0
  blsPubkey := []

def snapshot (version : Nat) (pending : Option (Nat × Nat)) (entries : List StoredBondEntry)
    (epoch : Nat) : VerifiedSnapshot where
  blockHash := ⟨5⟩
  blockHeight := 5
  blockHeaderBytes := none
  chainState := Wire.chainState.encode (chainState version pending)
  utxoSet := leBytes 8 0
  producerSet := (Wire.producerSet config.validKey).encode
    ([(⟨8⟩, info entries)], [(⟨4⟩, 2)], [.revokeDelegation key])
  stateRoot := ⟨96⟩
  epochStateBytes := some ((epochStateFields config).encode
    (epoch, [(⟨8⟩, 2)], [key], [key], ([], [], []), ([], [], []), []))

def honest : VerifiedSnapshot := snapshot 1 none [⟨1, 10⟩, ⟨2, 20⟩] 1

def planted : VerifiedSnapshot := snapshot 2 (some (3, 9)) [⟨2, 20⟩, ⟨1, 10⟩] 7

theorem collisionFree : CollisionFree config honest planted := by
  have hsame : rootPreimages config planted = rootPreimages config honest := by decide +kernel
  have hnodup : ((rootPreimages config honest).map config.blake3).Nodup := by decide +kernel
  intro first hfirst second hsecond
  rw [Set.mem_ofPred_eq, hsame, or_self] at hfirst hsecond
  exact List.inj_on_of_nodup_map hnodup hfirst hsecond

def parts (installed : InstalledState) :=
  (installed.chainState, (installed.producerSet.producers.lookup ⟨8⟩).map
    ProducerInfo.bondEntries, installed.epochState.epoch)

theorem honest_installs : (applySnapSnapshot config node honest).map parts =
    some ({ chainState 1 none with snapSyncHeight := some 5 }, some [⟨1, 10⟩, ⟨2, 20⟩], 1) := by
  decide +kernel

theorem planted_installs : (applySnapSnapshot config node planted).map parts =
    some ({ chainState 2 (some (3, 9)) with snapSyncHeight := some 5 },
      some [⟨2, 20⟩, ⟨1, 10⟩], 7) := by
  decide +kernel

end SnapshotSample

open SnapshotSample in
/-- Under one root a peer hands out another protocol version, a pending
activation, the bond entries in another order and another epoch. -/
theorem root_leaves_open :
    CollisionFree config honest planted ∧ honest.stateRoot = planted.stateRoot ∧
      ∃ installed installed', applySnapSnapshot config node honest = some installed ∧
        applySnapSnapshot config node planted = some installed' ∧
        config.incI181PendingRootActivationHeight ≤ installed.chainState.bestHeight ∧
        installed.chainState.activeProtocolVersion ≠
          installed'.chainState.activeProtocolVersion ∧
        installed.chainState.pendingProtocolActivation ≠
          installed'.chainState.pendingProtocolActivation ∧
        (installed.producerSet.producers.lookup ⟨8⟩).map ProducerInfo.bondEntries ≠
          (installed'.producerSet.producers.lookup ⟨8⟩).map ProducerInfo.bondEntries ∧
        installed.epochState.epoch ≠ installed'.epochState.epoch := by
  obtain ⟨installed, hfirst, hparts⟩ := Option.map_eq_some_iff.mp honest_installs
  obtain ⟨installed', hsecond, hparts'⟩ := Option.map_eq_some_iff.mp planted_installs
  unfold parts at hparts hparts'
  obtain ⟨hchain, hentries, hepoch⟩ := by simpa only [Prod.mk.injEq] using hparts
  obtain ⟨hchain', hentries', hepoch'⟩ := by simpa only [Prod.mk.injEq] using hparts'
  refine ⟨collisionFree, rfl, installed, installed', hfirst, hsecond, ?_⟩
  rw [hchain, hchain', hentries, hentries', hepoch, hepoch']
  decide

open SnapshotSample in
theorem snapshots_agree_sample :
    ∃ installed installed', applySnapSnapshot config node honest = some installed ∧
      applySnapSnapshot config node planted = some installed' ∧
      installed'.utxoSet = installed.utxoSet ∧
      installed'.producerSet.exitHistory = installed.producerSet.exitHistory ∧
      installed'.producerSet.pendingUpdates = installed.producerSet.pendingUpdates := by
  obtain ⟨installed, hfirst, hparts⟩ := Option.map_eq_some_iff.mp honest_installs
  obtain ⟨installed', hsecond, -⟩ := Option.map_eq_some_iff.mp planted_installs
  have hgate : config.incI181PendingRootActivationHeight ≤ installed.chainState.bestHeight := by
    have hchain : installed.chainState = _ := congrArg Prod.fst hparts
    rw [hchain]
    decide
  obtain ⟨-, hutxo, hexits, -, hqueue, -⟩ :=
    snapshots_agree hfirst hsecond rfl collisionFree hgate
  exact ⟨installed, installed', hfirst, hsecond, hutxo, hexits, hqueue⟩

end Doli.Node
