import Doli.Node.AppliedBlock

/-!
# What a refused block leaves behind

The transactions of a block change the producer set and the maintainer root in
place.  After a refusal the snapshots put both back; the liveness entry of the
block's producer, written before the first transaction, stays.
-/

namespace Doli.Node

open Doli.Core Doli.Lib Doli.Storage Doli.Producer

/-- The six state classes of the node are what they were. -/
structure Untouched (before after : NodeState) : Prop where
  chainState : after.chainState = before.chainState
  producers : after.producerSet.asParts = before.producerSet.asParts
  maintainer : after.maintainerState = before.maintainerState
  utxo : after.stateDb = before.stateDb
  epochState : after.epochState = before.epochState
  liveness : after.producerLiveness = before.producerLiveness

/-! ## The transaction loop -/

section Loop

variable {config : NodeConfig} {node : NodeState} {block : Block} {height : Nat}
  {mode : ValidationMode}

theorem applyTransactions_maintainer
    (hother : blockMutatesMaintainerSet block = false) :
    (applyTransactions config node block height mode).1.maintainer =
      node.maintainerState := by
  unfold blockMutatesMaintainerSet at hother
  rw [List.any_eq_false] at hother
  refine runKeeping_invariant
    (fun (state : LoopState) => state.maintainer = node.maintainerState) rfl ?_
  intro item hitem state next hstate hstep
  have hkeeps := hother item.1 (mem_transactions hitem)
  rw [(applyTransaction_ok hstep).2.1,
    processTransactionGovernance_maintainer (by simpa using hkeeps), hstate]

theorem processTransactionGovernance_isSome {tx : Transaction} {set : ProducerSet}
    {maintainer : Option MaintainerState} :
    (processTransactionGovernance config tx height set maintainer).1.isSome =
      maintainer.isSome := by
  unfold processTransactionGovernance
  split <;> simp

theorem applyTransactions_maintainer_isSome :
    (applyTransactions config node block height mode).1.maintainer.isSome =
      node.maintainerState.isSome := by
  refine runKeeping_invariant (fun (state : LoopState) =>
    state.maintainer.isSome = node.maintainerState.isSome) rfl ?_
  intro item hitem state next hstate hstep
  rw [(applyTransaction_ok hstep).2.1, processTransactionGovernance_isSome, hstate]

theorem restoreProducerSet_loop :
    (restoreProducerSet (capture config node block height) true
      (applyTransactions config node block height mode).1.producers.producers).asParts =
      node.producerSet.asParts := by
  unfold restoreProducerSet capture
  by_cases hneeds : needsProducerSnapshot config node.producerSet block height
  · simp [hneeds]
  · have hother : blockMutatesProducerSet block = false := by
      unfold needsProducerSnapshot at hneeds
      simp only [Bool.or_eq_true, not_or, Bool.not_eq_true] at hneeds
      exact hneeds.1.2
    simp [hneeds, applyTransactions_producers hother, BlockProducers.initial]

theorem restoreMaintainerSet_loop :
    restoreMaintainerSet (capture config node block height)
      (applyTransactions config node block height mode).1.maintainer =
      node.maintainerState := by
  unfold restoreMaintainerSet capture
  by_cases hrotates : blockMutatesMaintainerSet block
  · have hsome : (applyTransactions config node block height mode).1.maintainer.isSome =
        node.maintainerState.isSome := applyTransactions_maintainer_isSome
    cases hbefore : node.maintainerState with
    | none => simpa [hrotates, hbefore] using hsome
    | some before =>
        rw [hbefore, Option.isSome_some, Option.isSome_iff_exists] at hsome
        obtain ⟨after, hafter⟩ := hsome
        simp [hrotates, hafter]
  · rw [Bool.not_eq_true] at hrotates
    simp [hrotates, applyTransactions_maintainer hrotates]

end Loop

/-! ## The refusal -/

section Refusal

variable {config : NodeConfig} {node after : NodeState} {block : Block}
  {mode : ValidationMode} {error : ApplyBlockError}

/-- The check that refuses the block before its transactions run. -/
def RefusedEarly (config : NodeConfig) (node : NodeState) (block : Block)
    (mode : ValidationMode) : Prop :=
  config.validateBlockForApply node block (node.chainState.bestHeight + 1) mode ≠ .ok () ∨
    config.validateBlockEconomics node block (node.chainState.bestHeight + 1) mode ≠
      .ok ()

theorem restoreMaintainerSet_self {height : Nat} :
    restoreMaintainerSet (capture config node block height) node.maintainerState =
      node.maintainerState := by
  unfold restoreMaintainerSet capture
  cases node.maintainerState <;> split <;> simp_all

theorem finishBlock_error {height : Nat} {undo : ProducerUndo} {state : LoopState}
    (herror : (finishBlock config node block height mode undo state).result =
      .error error) : error.isRefusal = false := by
  unfold finishBlock at herror
  dsimp only at herror
  split at herror
  · obtain rfl := Except.error.inj herror
    rfl
  · contradiction

/-- A refused block leaves everything but the liveness map as it was, and the
liveness map too if a check of the whole block refused it. -/
theorem applyBlock_refusal
    (happly : applyBlock config node block mode = (.error error, after))
    (hrefusal : error.isRefusal = true) :
    (RefusedEarly config node block mode → Untouched node after) ∧
      (¬RefusedEarly config node block mode → Untouched
        (node.markLive block.producer (node.chainState.bestHeight + 1)) after) := by
  unfold applyBlock at happly
  dsimp only at happly
  split at happly
  · simp at happly
  case h_2 failed hfailed =>
    obtain ⟨rfl, rfl⟩ : failed = error ∧ _ := by simpa using happly
    unfold applyBlockInner at hfailed ⊢
    by_cases hskips : skipsBlock node block (node.chainState.bestHeight + 1) mode
    · simp [hskips] at hfailed
    simp only [hskips] at hfailed ⊢
    cases hchecked : config.validateBlockForApply node block
        (node.chainState.bestHeight + 1) mode with
    | error reason =>
        have hearly : RefusedEarly config node block mode := .inl (by simp [hchecked])
        refine ⟨fun _ => ?_, fun hlate => absurd hearly hlate⟩
        exact ⟨rfl, rfl, restoreMaintainerSet_self, rfl, rfl, rfl⟩
    | ok _ =>
        simp only [hchecked] at hfailed ⊢
        cases heconomics : config.validateBlockEconomics node block
            (node.chainState.bestHeight + 1) mode with
        | error reason =>
            have hearly : RefusedEarly config node block mode :=
              .inr (by simp [heconomics])
            refine ⟨fun _ => ?_, fun hlate => absurd hearly hlate⟩
            exact ⟨rfl, rfl, restoreMaintainerSet_self, rfl, rfl, rfl⟩
        | ok _ =>
            simp only [heconomics] at hfailed ⊢
            have hlate : ¬RefusedEarly config node block mode := by
              simp [RefusedEarly, hchecked, heconomics]
            refine ⟨fun hearly => absurd hearly hlate, fun _ => ?_⟩
            have hproducers := @restoreProducerSet_loop config node block
              (node.chainState.bestHeight + 1) mode
            have hmaintainer := @restoreMaintainerSet_loop config node block
              (node.chainState.bestHeight + 1) mode
            cases hloop : applyTransactions config node block
                (node.chainState.bestHeight + 1) mode with
            | mk state failure =>
                simp only [hloop] at hfailed hproducers hmaintainer ⊢
                cases failure with
                | none =>
                    have hstore := finishBlock_error hfailed
                    rw [hrefusal] at hstore
                    contradiction
                | some cause => exact ⟨rfl, hproducers, hmaintainer, rfl, rfl, rfl⟩

/-- A refused block leaves no trace exactly if it was refused before its
transactions ran or the liveness map had its producer at this height already. -/
theorem refused_untouched_iff
    (happly : applyBlock config node block mode = (.error error, after))
    (hrefusal : error.isRefusal = true) :
    Untouched node after ↔ RefusedEarly config node block mode ∨
      node.producerLiveness.lookup block.producer =
        some (node.chainState.bestHeight + 1) := by
  obtain ⟨hearly, hlate⟩ := applyBlock_refusal happly hrefusal
  by_cases hrefused : RefusedEarly config node block mode
  · simp [hrefused, hearly hrefused]
  · have hkept := hlate hrefused
    rw [← insert_eq_self_iff, or_iff_right hrefused]
    constructor
    · intro huntouched
      have hlive := hkept.liveness
      rw [huntouched.liveness] at hlive
      exact hlive.symm
    · intro hsame
      exact { hkept with liveness := hkept.liveness.trans hsame }

end Refusal

/-- A block whose transfer spends what nobody has. -/
def orphanBlock : Block :=
  sampleBlock 12 [sampleCoinbase, sampleTransfer [⟨⟨5⟩, 0⟩] []]

set_option maxRecDepth 4000 in
theorem applyBlock_orphanBlock :
    applyBlock sampleConfig (sampleNode 11) orphanBlock .full =
      (.error (.transaction (.utxoValidation (.outputNotFound ⟨⟨5⟩, 0⟩))),
        (sampleNode 11).markLive ⟨1⟩ 12) := by
  rfl

theorem refused_untouched_sample :
    Untouched (sampleNode 11) ((sampleNode 11).markLive ⟨1⟩ 12) ↔
      RefusedEarly sampleConfig (sampleNode 11) orphanBlock .full ∨
        (sampleNode 11).producerLiveness.lookup ⟨1⟩ = some 12 :=
  refused_untouched_iff applyBlock_orphanBlock rfl

/-- The producer of the refused block counts as live at its height. -/
theorem refused_leaves_trace :
    ∃ error after,
      applyBlock sampleConfig (sampleNode 11) orphanBlock .full = (.error error, after) ∧
        error.isRefusal = true ∧ ¬Untouched (sampleNode 11) after := by
  refine ⟨_, _, applyBlock_orphanBlock, rfl, ?_⟩
  intro huntouched
  have hentry := congrArg (Finmap.lookup ⟨1⟩) huntouched.liveness
  simp [NodeState.markLive, sampleNode] at hentry

end Doli.Node
