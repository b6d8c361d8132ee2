import Doli.Node.AppliedBlock

/-!
# The producer set that a restart loads

A block either writes the whole producer set or the rows of its dirty keys.
The transactions mark every producer they change, the unbonding scan marks
none.
-/

namespace Doli.Producer.ProducerSet

open Doli.Core Doli.Lib Doli.Storage

/-! ## What an unbonding scan does -/

/-- The scan would complete the producer of an index row. -/
def Completes (set : ProducerSet) (height : Nat) (row : Nat × Hash) : Prop :=
  ∃ info, set.producers.lookup row.2 = some info ∧
    info.isUnbondingComplete height unbondingPeriod = true

def CompletesUnbonding (set : ProducerSet) (height : Nat) : Prop :=
  ∃ row ∈ set.unbondingCandidates height unbondingPeriod, set.Completes height row

variable {prim : Primitives} {set : ProducerSet} {height : Nat}

theorem completeUnbonding_of_completes {row : Nat × Hash}
    (hcompletes : set.Completes height row) :
    (set.completeUnbonding prim height unbondingPeriod row).exitHistory =
      set.exitHistory.insert row.2 height := by
  obtain ⟨info, hinfo, hdone⟩ := hcompletes
  simp [completeUnbonding, hinfo, hdone]

theorem completeUnbonding_of_not_completes {row : Nat × Hash}
    (hpending : ¬set.Completes height row) :
    (set.completeUnbonding prim height unbondingPeriod row).producers = set.producers ∧
      (set.completeUnbonding prim height unbondingPeriod row).exitHistory =
        set.exitHistory := by
  unfold completeUnbonding
  cases hinfo : set.producers.lookup row.2 with
  | none => exact ⟨rfl, rfl⟩
  | some info =>
      have hdone : ¬info.isUnbondingComplete height unbondingPeriod = true :=
        fun hdone => hpending ⟨info, hinfo, hdone⟩
      simp only [if_neg hdone]
      exact ⟨trivial, trivial⟩

theorem completeUnbonding_exit {row : Nat × Hash} {key : Hash}
    (hexit : set.exitHistory.lookup key = some height) :
    (set.completeUnbonding prim height unbondingPeriod row).exitHistory.lookup key =
      some height := by
  by_cases hcompletes : set.Completes height row
  · rw [completeUnbonding_of_completes hcompletes]
    by_cases hkey : key = row.2
    · rw [hkey, Finmap.lookup_insert]
    · rw [Finmap.lookup_insert_of_ne _ hkey, hexit]
  · rw [(completeUnbonding_of_not_completes hcompletes).2, hexit]

theorem foldl_completeUnbonding_exit {rows : List (Nat × Hash)} {key : Hash}
    (hexit : set.exitHistory.lookup key = some height) :
    (rows.foldl (completeUnbonding prim height unbondingPeriod)
      set).exitHistory.lookup key = some height := by
  induction rows generalizing set with
  | nil => exact hexit
  | cons row rows ih => exact ih (completeUnbonding_exit hexit)

theorem foldl_completeUnbonding {rows : List (Nat × Hash)} :
    ((∃ row ∈ rows, set.Completes height row) →
      ∃ key, (rows.foldl (completeUnbonding prim height unbondingPeriod)
        set).exitHistory.lookup key = some height) ∧
    ((¬∃ row ∈ rows, set.Completes height row) →
      (rows.foldl (completeUnbonding prim height unbondingPeriod) set).producers =
          set.producers ∧
        (rows.foldl (completeUnbonding prim height unbondingPeriod) set).exitHistory =
          set.exitHistory) := by
  induction rows generalizing set with
  | nil => simp
  | cons row rows ih =>
      rw [List.foldl_cons]
      by_cases hcompletes : set.Completes height row
      · constructor
        · intro _
          refine ⟨row.2, foldl_completeUnbonding_exit ?_⟩
          rw [completeUnbonding_of_completes hcompletes, Finmap.lookup_insert]
        · intro hnone
          exact absurd ⟨row, List.mem_cons_self, hcompletes⟩ hnone
      · obtain ⟨hproducers, hexits⟩ :=
          @completeUnbonding_of_not_completes prim set height row hcompletes
        have hsame : ∀ other,
            (set.completeUnbonding prim height unbondingPeriod row).Completes height
              other ↔ set.Completes height other := by
          intro other
          unfold Completes
          rw [hproducers]
        obtain ⟨hsome, hnone⟩ :=
          @ih (set.completeUnbonding prim height unbondingPeriod row)
        simp only [hsame, hproducers, hexits] at hsome hnone
        simp only [List.mem_cons, exists_eq_or_imp, hcompletes, false_or]
        exact ⟨hsome, hnone⟩

end Doli.Producer.ProducerSet

namespace Doli.Node

open Doli.Core Doli.Lib Doli.Storage Doli.Producer

/-! ## What the transactions mark -/

/-- Outside the dirty keys `state` holds the producers of `set`, and a change
touches neither the status of a producer nor an exit nor the index. -/
structure Marked (set : ProducerSet) (state : BlockProducers) : Prop where
  clean : ∀ key, key ∉ state.dirtyProducerKeys →
    state.producers.producers.lookup key = set.producers.lookup key
  status : ∀ key, (state.producers.producers.lookup key).map ProducerInfo.status =
    (set.producers.lookup key).map ProducerInfo.status
  exits : state.producers.exitHistory = set.exitHistory
  index : state.producers.unbondingIndex = set.unbondingIndex

variable {set : ProducerSet}

theorem Marked.charge {state : BlockProducers} (hmarked : Marked set state)
    (hash : Hash) (bonds : Nat) : Marked set (state.charge hash bonds) where
  clean key hkey := by
    obtain ⟨hother, hclean⟩ : key ≠ hash ∧ key ∉ state.dirtyProducerKeys := by
      simpa [BlockProducers.charge] using hkey
    simp only [BlockProducers.charge, chargeWithdrawal]
    rw [ProducerSet.lookup_modify_ne _ _ hother, hmarked.clean key hclean]
  status key := by
    simp only [BlockProducers.charge, chargeWithdrawal, ProducerSet.lookup_modify,
      Option.map_map]
    rw [← hmarked.status key]
    congr 1
    funext info
    simp only [Function.comp_apply]
    split <;> rfl
  exits := by simpa [BlockProducers.charge, chargeWithdrawal] using hmarked.exits
  index := by simpa [BlockProducers.charge, chargeWithdrawal] using hmarked.index

theorem processProducerEffects_marked (ctx : BlockContext) (txs : List Transaction)
    (set : ProducerSet) :
    Marked set (processProducerEffects ctx txs (.initial set)) := by
  apply processProducerEffects_keeps (Marked set)
  · intro state update _ _ hmarked
    exact ⟨hmarked.clean, hmarked.status, hmarked.exits, hmarked.index⟩
  · intro state key info bonds _ _ hmarked
    exact hmarked.charge _ bonds
  · intro state keys hmarked
    exact ⟨hmarked.clean, hmarked.status, hmarked.exits, hmarked.index⟩
  · exact ⟨fun _ _ => rfl, fun _ => rfl, rfl, rfl⟩

theorem Marked.completesUnbonding {state : BlockProducers} (hmarked : Marked set state)
    {height : Nat} :
    state.producers.CompletesUnbonding height ↔ set.CompletesUnbonding height := by
  have hsame : ∀ row, state.producers.Completes height row ↔
      set.Completes height row := by
    intro row
    have hdone : ∀ (found : Option ProducerInfo),
        (∃ info, found = some info ∧
          info.isUnbondingComplete height unbondingPeriod = true) ↔
        ∃ startedAt, found.map ProducerInfo.status = some (.unbonding startedAt) ∧
          startedAt + unbondingPeriod ≤ height := by
      intro found
      cases found with
      | none => simp
      | some info =>
          cases hstatus : info.status <;>
            simp [ProducerInfo.isUnbondingComplete, hstatus]
    unfold ProducerSet.Completes
    rw [hdone, hdone, hmarked.status]
  unfold ProducerSet.CompletesUnbonding ProducerSet.unbondingCandidates
  simp only [hmarked.index, hsame]

theorem Marked.commit_puts {state : BlockProducers} (hmarked : Marked set state) :
    commit (puts (listing Hash.bytesLe state.dirtyProducerKeys)
      state.producers.producers) set.producers = state.producers.producers := by
  refine Finmap.ext_lookup fun key => ?_
  simp only [lookup_commit_puts, mem_listing]
  split
  case isTrue hdirty =>
    cases hfound : state.producers.producers.lookup key with
    | some info => rfl
    | none =>
        have hstatus := hmarked.status key
        rw [hfound, Option.map_none, eq_comm, Option.map_eq_none_iff] at hstatus
        rw [hstatus]
        rfl
  case isFalse hclean => exact (hmarked.clean key hclean).symm

/-! ## Exits lie in the past -/

/-- No exit is recorded, and no slash queued, for a height above `height`. -/
structure PastExits (set : ProducerSet) (height : Nat) : Prop where
  exits : ∀ key exited, set.exitHistory.lookup key = some exited → exited ≤ height
  slashes : ∀ pubkey slashed, .slash pubkey slashed ∈ set.pendingUpdates →
    slashed ≤ height

theorem PastExits.mono {height later : Nat} (hpast : PastExits set height)
    (hlater : height ≤ later) : PastExits set later where
  exits key exited hexit := le_trans (hpast.exits key exited hexit) hlater
  slashes pubkey slashed hslash := le_trans (hpast.slashes pubkey slashed hslash) hlater

theorem processProducerEffects_pastExits {ctx : BlockContext} {txs : List Transaction}
    (hpast : PastExits set ctx.height) :
    PastExits (processProducerEffects ctx txs (.initial set)).producers ctx.height := by
  apply processProducerEffects_keeps
    (fun state => PastExits state.producers ctx.height)
  · intro state update hqueued _ hstate
    refine ⟨hstate.exits, ?_⟩
    intro pubkey slashed hslash
    rcases List.mem_append.mp hslash with hold | hnew
    · exact hstate.slashes pubkey slashed hold
    · obtain rfl := List.mem_singleton.mp hnew
      exact le_of_eq hqueued
  · intro state key info bonds _ _ hstate
    constructor
    · simpa [BlockProducers.charge, chargeWithdrawal] using hstate.exits
    · simpa [BlockProducers.charge, chargeWithdrawal] using hstate.slashes
  · exact fun _ _ hstate => hstate
  · exact hpast

theorem PastExits.processUnbonding {prim : Primitives} {height : Nat}
    (hpast : PastExits set height) :
    PastExits (set.processUnbonding prim height unbondingPeriod) height := by
  unfold ProducerSet.processUnbonding
  generalize set.unbondingCandidates height unbondingPeriod = rows
  induction rows generalizing set with
  | nil => exact hpast
  | cons row rows ih =>
      apply ih
      constructor
      · intro key exited hexit
        by_cases hcompletes : set.Completes height row
        · rw [ProducerSet.completeUnbonding_of_completes hcompletes] at hexit
          by_cases hkey : key = row.2
          · rw [hkey, Finmap.lookup_insert] at hexit
            exact le_of_eq (Option.some.inj hexit).symm
          · rw [Finmap.lookup_insert_of_ne _ hkey] at hexit
            exact hpast.exits key exited hexit
        · rw [(ProducerSet.completeUnbonding_of_not_completes hcompletes).2] at hexit
          exact hpast.exits key exited hexit
      · simpa using hpast.slashes

theorem foldl_applyUpdate_exit {prim : Primitives} {cap : Nat}
    {updates : List PendingProducerUpdate} {key : Hash} {exited : Nat}
    (hexit : (updates.foldl (ProducerSet.applyUpdate prim cap) set).exitHistory.lookup
      key = some exited) :
    set.exitHistory.lookup key = some exited ∨ ∃ pubkey, .slash pubkey exited ∈ updates := by
  induction updates generalizing set with
  | nil => exact .inl hexit
  | cons update updates ih =>
      rcases ih hexit with hfirst | ⟨pubkey, hmem⟩
      · rcases ProducerSet.exitHistory_applyUpdate prim hfirst with hold | ⟨pubkey, rfl⟩
        · exact .inl hold
        · exact .inr ⟨pubkey, List.mem_cons_self⟩
      · exact .inr ⟨pubkey, List.mem_cons_of_mem _ hmem⟩

theorem PastExits.applyDeferred {ctx : BlockContext} {height : Nat}
    (hpast : PastExits set height) : PastExits (applyDeferred ctx set) height := by
  unfold Node.applyDeferred
  split_ifs
  · exact hpast
  · constructor
    · intro key exited hexit
      rcases foldl_applyUpdate_exit hexit with hold | ⟨pubkey, hslash⟩
      · exact hpast.exits key exited hold
      · exact hpast.slashes pubkey exited hslash
    · simp
  · exact hpast

theorem completeGenesis_pastExits {config : NodeConfig} {height : Nat}
    {keys : List PublicKey} {bls : Column PublicKey Bytes} {utxo : UtxoState}
    (hpast : PastExits set height) :
    PastExits (completeGenesis config height keys bls utxo set).2 height := by
  have hfold : ∀ (poolConsumed : Nat) (start : GenesisState),
      PastExits start.set height → PastExits (keys.foldl
        (registerGenesisProducer config height poolConsumed bls) start).set height := by
    intro poolConsumed start hstart
    apply foldl_invariant (fun _ (state : GenesisState) => PastExits state.set height)
    · exact hstart
    · intro _ key _ state _ hstate
      unfold registerGenesisProducer
      dsimp only
      split
      · exact hstate
      · unfold ProducerSet.register
        dsimp only
        split
        · exact ⟨hstate.exits, hstate.slashes⟩
        · split
          · exact ⟨hstate.exits, hstate.slashes⟩
          · exact hstate
  unfold completeGenesis
  dsimp only
  have hcleared : PastExits set.clear height :=
    ⟨hpast.exits, by simp [ProducerSet.clear]⟩
  split
  · exact hfold _ _ hcleared
  · exact hfold _ _ hcleared

section Block

variable {config : NodeConfig} {node after : NodeState} {block : Block}
  {mode : ValidationMode} {state : LoopState}

theorem Applied.pastExits (happlied : Applied config node block mode state after)
    (hpast : PastExits node.producerSet node.chainState.bestHeight) :
    PastExits after.producerSet after.chainState.bestHeight := by
  have hloop : PastExits state.producers.producers (node.chainState.bestHeight + 1) := by
    rw [happlied.producers]
    exact processProducerEffects_pastExits (hpast.mono (Nat.le_succ _))
  have hsettled : PastExits (settledProducers
      (blockContext config block (node.chainState.bestHeight + 1) mode)
      state.producers.producers) (node.chainState.bestHeight + 1) :=
    hloop.processUnbonding.applyDeferred
  rw [happlied.bestHeight, happlied.producerSet]
  unfold completedBlock maybeCompleteGenesis
  split_ifs
  · split
    · exact hsettled
    · exact completeGenesis_pastExits hsettled
  · exact hsettled

/-! ## Rows and memory -/

variable (config node block mode)

/-- The block flushes a queue or completes the genesis phase. -/
def WritesWholeSet : Prop :=
  flushesQueue config (node.chainState.bestHeight + 1)
      (processProducerEffects
        (blockContext config block (node.chainState.bestHeight + 1) mode)
        block.transactions (.initial node.producerSet)).producers = true ∨
    genesisCompletesAt config.utxo.params (node.chainState.bestHeight + 1) = true ∧
      config.deriveGenesisProducers
        (node.markLive block.producer (node.chainState.bestHeight + 1)) ≠ []

variable {config node block mode}

theorem Applied.writesFullSet_iff
    (happlied : Applied config node block mode state after) :
    writesFullSet config node block mode state = true ↔
      WritesWholeSet config node block mode := by
  unfold writesFullSet WritesWholeSet completedBlock maybeCompleteGenesis
  rw [Bool.or_eq_true, happlied.producers]
  apply or_congr_right
  split_ifs with hgenesis
  · cases hkeys : config.deriveGenesisProducers
        (node.markLive block.producer (node.chainState.bestHeight + 1)) with
    | nil => simp
    | cons key keys => simp [hgenesis]
  · simp [hgenesis]

theorem Applied.producerSet_of_dirty
    (happlied : Applied config node block mode state after)
    (hdirty : writesFullSet config node block mode state = false) :
    after.producerSet = state.producers.producers.processUnbonding config.utxo.prim
      (node.chainState.bestHeight + 1) unbondingPeriod := by
  unfold writesFullSet at hdirty
  obtain ⟨hflush, hgenesis⟩ := Bool.or_eq_false_iff.mp hdirty
  rw [happlied.producerSet]
  unfold completedBlock maybeCompleteGenesis at hgenesis ⊢
  have hsettled : settledProducers
      (blockContext config block (node.chainState.bestHeight + 1) mode)
      state.producers.producers = state.producers.producers.processUnbonding
        config.utxo.prim (node.chainState.bestHeight + 1) unbondingPeriod := by
    unfold settledProducers applyDeferred
    unfold flushesQueue at hflush
    simp only [blockContext, ProducerSet.processUnbonding_pendingUpdates]
    split_ifs with hflushes hempty
    · rfl
    · simp [hflushes, hempty] at hflush
    · rfl
  split_ifs at hgenesis ⊢
  · split at hgenesis
    · exact hsettled
    · contradiction
  · exact hsettled

/-- The rows of a restart are the set in memory exactly if the block wrote the
whole set or no unbonding was over. -/
theorem persisted_iff (hrows : node.producerRows = node.producerSet.asParts)
    (hpast : PastExits node.producerSet node.chainState.bestHeight)
    (happly : applyBlock config node block mode = (.ok .applied, after)) :
    after.producerRows.loadProducerSet.asParts = after.producerSet.asParts ↔
      WritesWholeSet config node block mode ∨
        ¬node.producerSet.CompletesUnbonding (node.chainState.bestHeight + 1) := by
  obtain ⟨state, happlied⟩ := applyBlock_applied happly
  have hmarked : Marked node.producerSet state.producers := by
    rw [happlied.producers]
    exact processProducerEffects_marked _ _ _
  rw [ProducerParts.loadProducerSet, ProducerSet.asParts_fromParts,
    happlied.producerRows, ← happlied.writesFullSet_iff]
  unfold writeProducers
  cases hfull : writesFullSet config node block mode state with
  | true => simp
  | false =>
      simp only [Bool.false_eq_true, if_false, false_or]
      rw [happlied.producerSet_of_dirty hfull, ← hmarked.completesUnbonding,
        ProducerParts.writeDirtyProducers_eq, hrows]
      obtain ⟨hsome, hnone⟩ := @ProducerSet.foldl_completeUnbonding config.utxo.prim
        state.producers.producers (node.chainState.bestHeight + 1)
        (state.producers.producers.unbondingCandidates (node.chainState.bestHeight + 1)
          unbondingPeriod)
      constructor
      · intro hsame hcompletes
        obtain ⟨key, hexit⟩ := hsome hcompletes
        have hexits : node.producerSet.exitHistory = _ :=
          congrArg ProducerParts.exitHistory hsame
        have hlate := hpast.exits key (node.chainState.bestHeight + 1) (by
          rw [hexits]
          exact hexit)
        omega
      · intro hpending
        obtain ⟨hproducers, hexits⟩ := hnone hpending
        have hscanned : ∀ scanned : ProducerSet,
            scanned.producers = state.producers.producers.producers →
            scanned.exitHistory = state.producers.producers.exitHistory →
            (⟨commit (puts (listing Hash.bytesLe state.producers.dirtyProducerKeys)
                scanned.producers) node.producerSet.producers,
              node.producerSet.exitHistory, scanned.pendingUpdates⟩ : ProducerParts) =
              scanned.asParts := by
          intro scanned hkept hexits
          rw [hkept, hmarked.commit_puts, ← hmarked.exits, ← hkept, ← hexits]
          rfl
        exact hscanned _ hproducers hexits

end Block

/-! ## A completed unbonding -/

def retiringHash : Hash := samplePrimitives.cryptoHash ⟨77⟩

/-- A producer that started to unbond at height 5. -/
def retiringSet : ProducerSet :=
  .fromParts
    { producers := Finmap.singleton retiringHash
        { ProducerInfo.newWithBonds ⟨77⟩ 0 1000000000 ⟨⟨1⟩, 0⟩ 0 1 with
          status := .unbonding 5 }
      exitHistory := ∅
      pendingUpdates := [] }

/-- The tip below the end of its unbonding period. -/
def retiringNode : NodeState :=
  { sampleNode 60484 with
    producerSet := retiringSet, producerRows := retiringSet.asParts }

def retiredNode : NodeState :=
  (applyBlock sampleConfig retiringNode (sampleBlock 60485 []) .full).2

theorem retiringSet_pastExits (height : Nat) : PastExits retiringSet height where
  exits key exited hexit := by simp [retiringSet, ProducerSet.fromParts] at hexit
  slashes pubkey slashed hslash := by simp [retiringSet, ProducerSet.fromParts] at hslash

theorem persisted_sample :
    retiredNode.producerRows.loadProducerSet.asParts = retiredNode.producerSet.asParts ↔
      WritesWholeSet sampleConfig retiringNode (sampleBlock 60485 []) .full ∨
        ¬retiringSet.CompletesUnbonding 60485 :=
  @persisted_iff sampleConfig retiringNode retiredNode (sampleBlock 60485 []) .full rfl
    (retiringSet_pastExits _) (Prod.ext (by decide +kernel) rfl)

/-- In memory the producer has exited, on disk it is unbonding still. -/
theorem persisted_misses_exit :
    applyBlock sampleConfig retiringNode (sampleBlock 60485 []) .full =
        (.ok .applied, retiredNode) ∧
      retiringNode.producerRows.loadProducerSet.asParts =
        retiringNode.producerSet.asParts ∧
      retiredNode.producerRows.loadProducerSet.asParts ≠
        retiredNode.producerSet.asParts := by
  refine ⟨Prod.ext (by decide +kernel) rfl, rfl, ?_⟩
  have hmemory : (retiredNode.producerSet.asParts.producers.lookup retiringHash).map
      ProducerInfo.status = some .exited := by
    decide +kernel
  have hdisk : (retiredNode.producerRows.loadProducerSet.asParts.producers.lookup
      retiringHash).map ProducerInfo.status = some (.unbonding 5) := by
    decide +kernel
  intro hsame
  rw [hsame, hmemory] at hdisk
  contradiction

end Doli.Node
