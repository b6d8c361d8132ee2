import Doli.Core.OracleSunset
import Doli.Node.Rollback

/-!
# The oracle sunset state over blocks and rollbacks

A boundary block advances the sunset state by the share of the epoch it closes.
No rollback takes that back: the state follows the canonical chain exactly when
every undone boundary kept the zone it had found.
-/

namespace Doli.Node

open Doli.Core Doli.Lib Doli.Storage Doli.Producer

/-- `unwind` is the undo half of a reorg, several blocks at once; neither it nor
a rollback names the sunset state. -/
structure OracleContext where
  config : NodeConfig
  oracleActivationHeight : Nat
  structuralPubkeyHashes : List Hash
  rewind : RewindContext
  unwind : NodeState → Nat → Option NodeState

structure OracleNode where
  node : NodeState
  sunset : OracleSunsetState
  oracleSunsetTriggered : Bool

/-- What the aggregator reads at a boundary. -/
structure BoundaryShare where
  shareBps : Option Nat
  epoch : Nat
  deriving DecidableEq, Repr

/-- The registrations of the closing list, from the set after the block. -/
def closingRegistrations (config : NodeConfig) (closing : EpochState)
    (set : ProducerSet) : Column Hash Nat :=
  closing.producerList.foldl (fun rows key =>
    match set.getByPubkey config.utxo.prim key with
    | none => rows
    | some info => rows.insert (config.utxo.prim.addressOf key) info.registeredAt) ∅

/-- The gate, and the share of the epoch that the block of `height` closes. -/
def boundaryShare (ctx : OracleContext) (before after : NodeState) (block : Block)
    (height : Nat) : Option BoundaryShare :=
  let config := ctx.config
  if isEpochBoundaryWith height config.blocksPerEpoch ∧
      ctx.oracleActivationHeight ≤ height then
    let closing := creditAttestations config height
      (config.activeKeys after.producerSet height) block before.epochState
    some
      { shareBps := computeStructuralShareBps closing.bondSnapshot
          (closingRegistrations config closing after.producerSet) height
          config.blocksPerEpoch ctx.structuralPubkeyHashes
        epoch := height / config.blocksPerEpoch }
  else none

def advance (state : OracleSunsetState) : Option BoundaryShare → OracleSunsetState
  | none => state
  | some boundary => (state.transition boundary.shareBps boundary.epoch).1

/-- The block with the boundary it closed. -/
def applyWithOracle (ctx : OracleContext) (oracle : OracleNode) (block : Block)
    (mode : ValidationMode) : OracleNode × Option (Option BoundaryShare) :=
  match applyBlock ctx.config oracle.node block mode with
  | (.ok .applied, after) =>
      let boundary := boundaryShare ctx oracle.node after block
        (oracle.node.chainState.bestHeight + 1)
      ({ node := after
         sunset := advance oracle.sunset boundary
         oracleSunsetTriggered :=
          match boundary with
          | none => oracle.oracleSunsetTriggered
          | some boundary => (oracle.sunset.transition boundary.shareBps
              boundary.epoch).2.isSunsetTriggered },
        some boundary)
  | (_, after) => ({ oracle with node := after }, none)

/-- Only the flag is read anew, from the state as it is kept. -/
def rollbackWithOracle (ctx : OracleContext) (oracle : OracleNode)
    (authority : RollbackAuthority) : OracleNode × RollbackOutcome :=
  match rollbackOneBlock ctx.rewind authority oracle.node with
  | (.rolledBack, after) =>
      let target := oracle.node.chainState.bestHeight - 1
      ({ oracle with
          node := after
          oracleSunsetTriggered :=
            (oracle.sunset.health (target / ctx.config.blocksPerEpoch)).isSunsetTriggered },
        .rolledBack)
  | (outcome, after) => ({ oracle with node := after }, outcome)

/-! ## Runs -/

inductive OracleStep where
  | apply (block : Block) (mode : ValidationMode)
  | rollback (authority : RollbackAuthority)
  | unwind (count : Nat)

/-- A node with the blocks it applied since the start and still has, tip first;
of each the boundary it closed. -/
structure OracleRun where
  oracle : OracleNode
  applied : List (Option BoundaryShare)

/-- The run went below its starting state. -/
inductive BelowStart where
  | belowStart

def oracleStep (ctx : OracleContext) (state : OracleRun) :
    OracleStep → Except BelowStart OracleRun
  | .apply block mode =>
      match applyWithOracle ctx state.oracle block mode with
      | (oracle, none) => .ok { state with oracle := oracle }
      | (oracle, some boundary) => .ok ⟨oracle, boundary :: state.applied⟩
  | .rollback authority =>
      match rollbackWithOracle ctx state.oracle authority with
      | (oracle, .rolledBack) =>
          if state.applied = [] then .error .belowStart
          else .ok ⟨oracle, state.applied.drop 1⟩
      | (oracle, _) => .ok { state with oracle := oracle }
  | .unwind count =>
      match ctx.unwind state.oracle.node count with
      | none => .ok state
      | some after =>
          if state.applied.length < count then .error .belowStart
          else .ok ⟨{ state.oracle with node := after }, state.applied.drop count⟩

/-- The sunset state that the blocks of a chain lead to, in order. -/
def replaySunset (start : OracleSunsetState) (applied : List (Option BoundaryShare)) :
    OracleSunsetState :=
  applied.foldr (fun boundary state => advance state boundary) start

/-- How many blocks of the canonical chain a step undoes. -/
def undoneBy (ctx : OracleContext) (state : OracleRun) : OracleStep → Nat
  | .apply _ _ => 0
  | .rollback authority =>
      match (rollbackWithOracle ctx state.oracle authority).2 with
      | .rolledBack => 1
      | _ => 0
  | .unwind count => (ctx.unwind state.oracle.node count).elim 0 fun _ => count

/-- Every boundary among the first `count` blocks kept the zone it had found. -/
def BoundariesKept (start : OracleSunsetState) :
    Nat → List (Option BoundaryShare) → Prop
  | 0, _ => True
  | _, [] => True
  | count + 1, boundary :: applied =>
      (∀ closed, boundary = some closed →
        (replaySunset start applied).KeepsZone closed.shareBps closed.epoch) ∧
      BoundariesKept start count applied

theorem advance_eq_self_iff {state : OracleSunsetState}
    {boundary : Option BoundaryShare} :
    advance state boundary = state ↔
      ∀ closed, boundary = some closed →
        state.KeepsZone closed.shareBps closed.epoch := by
  cases boundary with
  | none => simp [advance]
  | some closed =>
      simp only [advance, Option.some.injEq, forall_eq']
      exact OracleSunsetState.transition_eq_self_iff

theorem BoundariesKept.replay_drop {start : OracleSunsetState} {count : Nat}
    {applied : List (Option BoundaryShare)}
    (hkept : BoundariesKept start count applied) :
    replaySunset start (applied.drop count) = replaySunset start applied := by
  induction count, applied using BoundariesKept.induct with
  | case1 applied => rfl
  | case2 count => rw [List.drop_nil]
  | case3 count boundary applied ih =>
      obtain ⟨htip, hrest⟩ := hkept
      rw [List.drop_succ_cons, ih hrest]
      exact (advance_eq_self_iff.mpr htip).symm

theorem boundariesKept_of_inside {start : OracleSunsetState} {count : Nat}
    {applied : List (Option BoundaryShare)}
    (hinside : applied.all (· = none) = true) : BoundariesKept start count applied := by
  induction count, applied using BoundariesKept.induct with
  | case1 applied => trivial
  | case2 count hcount => cases count <;> trivial
  | case3 count boundary applied ih =>
      simp only [List.all_cons, Bool.and_eq_true, decide_eq_true_eq] at hinside
      obtain ⟨rfl, hrest⟩ := hinside
      exact ⟨by simp, ih hrest⟩

section Run

variable {ctx : OracleContext} {start : OracleNode} {state next : OracleRun}
  {step : OracleStep}

def OracleRun.Follows (start : OracleNode) (state : OracleRun) : Prop :=
  state.oracle.sunset = replaySunset start.sunset state.applied

theorem oracleStep_undone (hstep : oracleStep ctx state step = .ok next)
    (hfollows : state.Follows start) :
    next.Follows start ↔
      replaySunset start.sunset (state.applied.drop (undoneBy ctx state step)) =
        replaySunset start.sunset state.applied := by
  unfold OracleRun.Follows at hfollows ⊢
  cases step with
  | apply block mode =>
      refine iff_of_true ?_ rfl
      simp only [oracleStep, applyWithOracle] at hstep
      split at hstep
      case h_1 oracle hnone =>
        obtain rfl := Except.ok.inj hstep
        split at hnone
        · simp at hnone
        · obtain ⟨rfl, -⟩ := Prod.mk.inj hnone
          exact hfollows
      case h_2 oracle boundary hsome =>
        obtain rfl := Except.ok.inj hstep
        split at hsome
        · obtain ⟨rfl, hboundary⟩ := Prod.mk.inj hsome
          obtain rfl := Option.some.inj hboundary
          simp only [replaySunset, List.foldr_cons]
          rw [hfollows]
          rfl
        · simp at hsome
  | rollback authority =>
      have hsunset : (rollbackWithOracle ctx state.oracle authority).1.sunset =
          state.oracle.sunset := by
        unfold rollbackWithOracle
        split <;> rfl
      simp only [oracleStep] at hstep
      simp only [undoneBy]
      split at hstep
      case h_1 oracle hrolled =>
        split at hstep
        · contradiction
        · obtain rfl := Except.ok.inj hstep
          rw [hrolled] at hsunset ⊢
          rw [hsunset, hfollows, eq_comm]
      case h_2 oracle outcome hother hrefused =>
        obtain rfl := Except.ok.inj hstep
        rw [hrefused] at hsunset ⊢
        refine iff_of_true (hsunset.trans hfollows) ?_
        cases outcome with
        | rolledBack => exact (hother rfl).elim
        | refusedNoMutation => rfl
        | refusedNotAuthorized => rfl
  | unwind count =>
      simp only [oracleStep] at hstep
      simp only [undoneBy]
      split at hstep
      case h_1 hnone =>
        obtain rfl := Except.ok.inj hstep
        rw [hnone]
        exact iff_of_true hfollows rfl
      case h_2 after hsome =>
        split at hstep
        · contradiction
        · obtain rfl := Except.ok.inj hstep
          rw [hsome, hfollows, eq_comm]
          rfl

/-- A rollback keeps to the canonical chain exactly if the boundary that the
block closed, if any, kept the zone. -/
theorem rollback_follows_iff {authority : RollbackAuthority}
    (hstep : oracleStep ctx state (.rollback authority) = .ok next)
    (hrolled : undoneBy ctx state (.rollback authority) = 1)
    (hfollows : state.Follows start) :
    next.Follows start ↔ BoundariesKept start.sunset 1 state.applied := by
  rw [oracleStep_undone hstep hfollows, hrolled]
  cases happlied : state.applied with
  | nil => simp [BoundariesKept]
  | cons boundary applied =>
      rw [List.drop_succ_cons, List.drop_zero, eq_comm]
      simp only [BoundariesKept, and_true]
      exact advance_eq_self_iff

end Run

/-! ## A boundary that is rolled back -/

/-- The oracle is active from the start, and no producer is structural. -/
def sampleOracle : OracleContext where
  config := sampleConfig
  oracleActivationHeight := 0
  structuralPubkeyHashes := []
  rewind := sampleRewind
  unwind _ _ := none

def sampleOracleNode (height : Nat) : OracleNode :=
  ⟨{ sampleNode height with
    chainState := { (sampleNode height).chainState with totalWork := height } },
    .initial, false⟩

def sampleSteps (height : Nat) : List OracleStep :=
  [.apply (coinbaseBlockAt height) .full, .rollback (.coordinatorApproved 1)]

def sunsetAfter (start : OracleNode) (steps : List OracleStep) :
    Option (OracleSunsetState × List (Option BoundaryShare)) :=
  (run (oracleStep sampleOracle) steps ⟨start, []⟩).toOption.map fun reached =>
    (reached.oracle.sunset, reached.applied)

end Doli.Node
