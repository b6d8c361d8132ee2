import Doli.Core.Transaction
import Doli.Lib.Column
import Doli.Lib.Run
import Mathlib.Algebra.BigOperators.Group.Finset.Basic

/-!
# The oracle sunset

`OracleSunsetState`: a state machine of three zones, advanced at every epoch
boundary by the share of the bonds that the structural producers hold.
-/

namespace Doli.Core

open Doli.Lib

def sunsetThresholdBps : Nat := 5500

def sunsetWarningBps : Nat := 6000

def oracleRecoveryEpochs : Nat := 4

inductive OracleHealthState where
  | healthy
  | warning
  | haltRecoverable
  | haltPermanent
  deriving DecidableEq, Repr

def OracleHealthState.isSunsetTriggered : OracleHealthState → Bool
  | .haltRecoverable => true
  | .haltPermanent => true
  | _ => false

structure OracleSunsetState where
  warningSinceEpoch : Option Nat
  haltSinceEpoch : Option Nat
  haltPermanent : Bool
  deriving DecidableEq, Repr

/-- The structural share in basis points; bonds of producers younger than one
epoch do not count. -/
def computeStructuralShareBps (bondSnapshot registeredAt : Column Hash Nat)
    (currentEpochStartHeight blocksPerEpoch : Nat) (structuralHashes : List Hash) :
    Option Nat :=
  let oneEpochAgo := currentEpochStartHeight - blocksPerEpoch
  let structuralBonds :=
    (structuralHashes.map fun key => (bondSnapshot.lookup key).getD 0).sum
  let totalBondsEligible := ∑ key ∈ bondSnapshot.keys,
    if (registeredAt.lookup key).any (· ≤ oneEpochAgo) then
      (bondSnapshot.lookup key).getD 0
    else 0
  if totalBondsEligible = 0 then none
  else some (min (structuralBonds * 10000 / totalBondsEligible) 10000)

namespace OracleSunsetState

/-- `OracleSunsetState::default` -/
def initial : OracleSunsetState := ⟨none, none, false⟩

def health (state : OracleSunsetState) (currentEpoch : Nat) : OracleHealthState :=
  if state.haltPermanent then .haltPermanent
  else
    match state.haltSinceEpoch with
    | some haltEpoch =>
        if oracleRecoveryEpochs ≤ currentEpoch - haltEpoch then .haltPermanent
        else .haltRecoverable
    | none => if state.warningSinceEpoch.isSome then .warning else .healthy

def transition (state : OracleSunsetState) (shareBps : Option Nat)
    (currentEpoch : Nat) : OracleSunsetState × OracleHealthState :=
  if state.haltPermanent then (state, .haltPermanent)
  else
    let bps := shareBps.getD 0
    let warned := some (state.warningSinceEpoch.getD currentEpoch)
    if sunsetWarningBps ≤ bps then
      ({ state with warningSinceEpoch := none, haltSinceEpoch := none }, .healthy)
    else if sunsetThresholdBps ≤ bps then
      match state.haltSinceEpoch with
      | some haltEpoch =>
          if oracleRecoveryEpochs ≤ currentEpoch - haltEpoch then
            ({ state with haltPermanent := true }, .haltPermanent)
          else
            ({ state with warningSinceEpoch := warned, haltSinceEpoch := none }, .warning)
      | none => ({ state with warningSinceEpoch := warned }, .warning)
    else
      let haltEpoch := state.haltSinceEpoch.getD currentEpoch
      let halted :=
        { state with warningSinceEpoch := warned, haltSinceEpoch := some haltEpoch }
      if oracleRecoveryEpochs ≤ currentEpoch - haltEpoch then
        ({ halted with haltPermanent := true }, .haltPermanent)
      else (halted, .haltRecoverable)

/-- The share lies in the zone that the state already records. -/
def KeepsZone (state : OracleSunsetState) (shareBps : Option Nat)
    (currentEpoch : Nat) : Prop :=
  state.haltPermanent = true ∨
    sunsetWarningBps ≤ shareBps.getD 0 ∧ state.warningSinceEpoch = none ∧
      state.haltSinceEpoch = none ∨
    sunsetThresholdBps ≤ shareBps.getD 0 ∧ shareBps.getD 0 < sunsetWarningBps ∧
      state.warningSinceEpoch ≠ none ∧ state.haltSinceEpoch = none ∨
    shareBps.getD 0 < sunsetThresholdBps ∧ state.warningSinceEpoch ≠ none ∧
      ∃ haltEpoch, state.haltSinceEpoch = some haltEpoch ∧
        currentEpoch - haltEpoch < oracleRecoveryEpochs

theorem transition_eq_self_iff {state : OracleSunsetState} {shareBps : Option Nat}
    {currentEpoch : Nat} :
    (state.transition shareBps currentEpoch).1 = state ↔
      state.KeepsZone shareBps currentEpoch := by
  obtain ⟨warning, halt, permanent⟩ := state
  unfold transition KeepsZone
  generalize shareBps.getD 0 = bps
  have hzones : sunsetThresholdBps < sunsetWarningBps := by decide
  cases permanent with
  | true => simp
  | false =>
      simp only [Bool.false_eq_true, if_false, false_or]
      by_cases hhealthy : sunsetWarningBps ≤ bps
      · have habove : ¬bps < sunsetThresholdBps := by omega
        simp [hhealthy, habove, eq_comm]
      · by_cases hwarned : sunsetThresholdBps ≤ bps
        · have habove : ¬bps < sunsetThresholdBps := by omega
          simp only [hhealthy, hwarned, if_true, if_false, habove]
          cases halt with
          | none => cases warning <;> simp [Nat.not_le.mp hhealthy]
          | some haltEpoch =>
              dsimp only
              split <;> simp
        · simp only [hhealthy, hwarned, if_false, Nat.not_le.mp hwarned]
          cases halt with
          | none => split <;> simp
          | some haltEpoch =>
              simp only [Option.getD_some]
              split
              case isTrue hlate => simp [hlate]
              case isFalse hsoon => cases warning <;> simp [Nat.not_le.mp hsoon]

end OracleSunsetState

/-!
## The recovery window

A halt that begins at an epoch may end while fewer than `oracleRecoveryEpochs` have gone
by.  The warning zone and the halt zone both look at the deadline; the healthy zone clears
the halt without a look at it.
-/

structure ShareReport where
  shareBps : Option Nat
  epoch : Nat
  deriving DecidableEq, Repr

/-- No eligible bonds count as a share of zero. -/
def ShareReport.bps (report : ShareReport) : Nat := report.shareBps.getD 0

namespace OracleSunsetState

def advance (state : OracleSunsetState) (report : ShareReport) : OracleSunsetState :=
  (state.transition report.shareBps report.epoch).1

def verdict (state : OracleSunsetState) (report : ShareReport) : OracleHealthState :=
  (state.transition report.shareBps report.epoch).2

def advanceAll (state : OracleSunsetState) (reports : List ShareReport) : OracleSunsetState :=
  reports.foldl advance state

/-- The report finds no halt and leaves one that began at its epoch. -/
def BeginsHalt (state : OracleSunsetState) (report : ShareReport) : Prop :=
  state.haltSinceEpoch = none ∧ (state.advance report).haltSinceEpoch = some report.epoch

/-- Every report at `deadline` or later is answered with the permanent halt. -/
def ClosedFrom (deadline : Nat) (state : OracleSunsetState) (reports : List ShareReport) :
    Prop :=
  ∀ done report rest, reports = done ++ report :: rest → deadline ≤ report.epoch →
    (state.advanceAll done).verdict report = .haltPermanent

/-- After every transition, the health at its epoch is what it returned. -/
def HealthAgrees (state : OracleSunsetState) (reports : List ShareReport) : Prop :=
  ∀ done report rest, reports = done ++ report :: rest →
    ((state.advanceAll done).advance report).health report.epoch =
      (state.advanceAll done).verdict report

/-- The first report at `deadline` or later is below the warning threshold. -/
def FirstLateReportLow (deadline : Nat) (reports : List ShareReport) : Prop :=
  ∀ report, reports.find? (fun report => deadline ≤ report.epoch) = some report →
    report.bps < sunsetWarningBps

/-! ## One transition -/

section

variable {state : OracleSunsetState} {report : ShareReport} {haltEpoch : Nat}

theorem health_advance (state : OracleSunsetState) (report : ShareReport) :
    (state.advance report).health report.epoch = state.verdict report := by
  obtain ⟨warning, halt, permanent⟩ := state
  unfold advance verdict transition
  cases permanent with
  | true => rfl
  | false =>
      simp only [Bool.false_eq_true, if_false]
      split
      · rfl
      · split
        · cases halt with
          | none => rfl
          | some haltEpoch =>
              dsimp only
              split
              · rfl
              · rfl
        · split
          case isTrue => rfl
          case isFalse hsoon => simp [health, hsoon]

theorem advance_of_permanent (hpermanent : state.haltPermanent = true)
    (report : ShareReport) : state.advance report = state := by
  simp [advance, transition, hpermanent]

theorem verdict_of_permanent (hpermanent : state.haltPermanent = true)
    (report : ShareReport) : state.verdict report = .haltPermanent := by
  simp [verdict, transition, hpermanent]

/-- A halt that is not permanent, by the epoch at which it began. -/
structure HaltedSince (state : OracleSunsetState) (haltEpoch : Nat) : Prop where
  since : state.haltSinceEpoch = some haltEpoch
  recoverable : state.haltPermanent = false

theorem HaltedSince.advance_of_low (hhalted : state.HaltedSince haltEpoch)
    (hlow : report.bps < sunsetThresholdBps)
    (hsoon : report.epoch < haltEpoch + oracleRecoveryEpochs) :
    (state.advance report).HaltedSince haltEpoch := by
  have hzones : sunsetThresholdBps < sunsetWarningBps := by decide
  have hbelow : ¬sunsetWarningBps ≤ report.shareBps.getD 0 := by
    unfold ShareReport.bps at hlow
    omega
  have hhalt : ¬sunsetThresholdBps ≤ report.shareBps.getD 0 := Nat.not_le.mpr hlow
  have helapsed : ¬oracleRecoveryEpochs ≤ report.epoch - haltEpoch := by
    have hpositive : 0 < oracleRecoveryEpochs := by decide
    omega
  simp only [advance, transition, hhalted.recoverable, hhalted.since, Bool.false_eq_true,
    hbelow, hhalt, Option.getD_some, helapsed, if_false]
  exact ⟨rfl, rfl⟩

/-- Past the deadline only a report in the healthy zone is not answered with the permanent
halt. -/
theorem HaltedSince.verdict_of_late (hhalted : state.HaltedSince haltEpoch)
    (hlate : haltEpoch + oracleRecoveryEpochs ≤ report.epoch) :
    state.verdict report = .haltPermanent ↔ report.bps < sunsetWarningBps := by
  have helapsed : oracleRecoveryEpochs ≤ report.epoch - haltEpoch := by omega
  unfold verdict transition ShareReport.bps
  simp only [hhalted.recoverable, hhalted.since, Bool.false_eq_true, if_false,
    Option.getD_some, helapsed, if_true]
  split
  case isTrue hhealthy => simp [hhealthy]
  case isFalse hbelow =>
    split
    · simp [Nat.not_le.mp hbelow]
    · simp [Nat.not_le.mp hbelow]

theorem HaltedSince.permanent_of_late (hhalted : state.HaltedSince haltEpoch)
    (hlate : haltEpoch + oracleRecoveryEpochs ≤ report.epoch)
    (hbelow : report.bps < sunsetWarningBps) :
    (state.advance report).haltPermanent = true := by
  have helapsed : oracleRecoveryEpochs ≤ report.epoch - haltEpoch := by omega
  have hwarning : ¬sunsetWarningBps ≤ report.shareBps.getD 0 := Nat.not_le.mpr hbelow
  unfold advance transition
  simp only [hhalted.recoverable, hhalted.since, Bool.false_eq_true, if_false,
    Option.getD_some, helapsed, if_true, hwarning]
  split
  · rfl
  · rfl

theorem haltedSince_of_begins (hbegins : state.BeginsHalt report) :
    (state.advance report).HaltedSince report.epoch := by
  obtain ⟨hnone, hsome⟩ := hbegins
  refine ⟨hsome, ?_⟩
  revert hsome
  unfold advance transition
  rw [hnone]
  split
  · simp [hnone]
  case isFalse hrecoverable =>
    dsimp only
    split
    · simp
    · split
      · simp
      · simp [oracleRecoveryEpochs, hrecoverable]

end

/-! ## Runs -/

section

variable {state : OracleSunsetState} {reports : List ShareReport} {haltEpoch : Nat}

theorem advanceAll_of_permanent (hpermanent : state.haltPermanent = true)
    (reports : List ShareReport) : state.advanceAll reports = state :=
  foldl_invariant (fun _ (current : OracleSunsetState) => current = state) rfl
    fun _ report _ _ _ hcurrent =>
      hcurrent ▸ advance_of_permanent (hcurrent ▸ hpermanent) report

theorem closedFrom_of_permanent (hpermanent : state.haltPermanent = true) (deadline : Nat)
    (reports : List ShareReport) : state.ClosedFrom deadline reports := by
  intro done report rest _ _
  rw [advanceAll_of_permanent hpermanent]
  exact verdict_of_permanent hpermanent report

theorem closedFrom_cons {deadline : Nat} {report : ShareReport} :
    state.ClosedFrom deadline (report :: reports) ↔
      (deadline ≤ report.epoch → state.verdict report = .haltPermanent) ∧
        (state.advance report).ClosedFrom deadline reports := by
  constructor
  · intro hclosed
    refine ⟨hclosed [] report reports rfl, ?_⟩
    intro done other rest hsplit
    exact hclosed (report :: done) other rest (by rw [hsplit, List.cons_append])
  · rintro ⟨hfirst, hrest⟩ done other rest hsplit
    cases done with
    | nil =>
        obtain ⟨rfl, rfl⟩ := List.cons.inj hsplit
        exact hfirst
    | cons head done =>
        obtain ⟨rfl, htail⟩ := List.cons.inj hsplit
        exact hrest done other rest htail

theorem HaltedSince.closedFrom_iff (hhalted : state.HaltedSince haltEpoch)
    (hlow : ∀ report ∈ reports, report.epoch < haltEpoch + oracleRecoveryEpochs →
      report.bps < sunsetThresholdBps) :
    state.ClosedFrom (haltEpoch + oracleRecoveryEpochs) reports ↔
      FirstLateReportLow (haltEpoch + oracleRecoveryEpochs) reports := by
  induction reports generalizing state with
  | nil => simp [ClosedFrom, FirstLateReportLow]
  | cons report reports ih =>
      obtain ⟨hfirst, hothers⟩ := List.forall_mem_cons.mp hlow
      rw [closedFrom_cons]
      by_cases hlate : haltEpoch + oracleRecoveryEpochs ≤ report.epoch
      · have hfind : FirstLateReportLow (haltEpoch + oracleRecoveryEpochs)
            (report :: reports) ↔ report.bps < sunsetWarningBps := by
          simp [FirstLateReportLow, hlate]
        rw [hfind, ← hhalted.verdict_of_late hlate]
        constructor
        · exact fun hclosed => hclosed.1 hlate
        · intro hverdict
          refine ⟨fun _ => hverdict, closedFrom_of_permanent ?_ _ _⟩
          exact hhalted.permanent_of_late hlate ((hhalted.verdict_of_late hlate).mp hverdict)
      · have hfind : FirstLateReportLow (haltEpoch + oracleRecoveryEpochs)
            (report :: reports) ↔
              FirstLateReportLow (haltEpoch + oracleRecoveryEpochs) reports := by
          simp [FirstLateReportLow, hlate]
        have hsoon := Nat.not_le.mp hlate
        rw [hfind, ← ih (hhalted.advance_of_low (hfirst hsoon) hsoon) hothers]
        exact ⟨fun hclosed => hclosed.2, fun hclosed => ⟨fun hdeadline => absurd hdeadline hlate,
          hclosed⟩⟩

end

/-- From the start on, over any reports: a halt that lasts to its deadline is closed for good
just when the first report past the deadline is below the warning threshold. -/
theorem recovery_window_iff (before after : List ShareReport) (start : ShareReport)
    (hbegins : (initial.advanceAll before).BeginsHalt start)
    (hlow : ∀ report ∈ after, report.epoch < start.epoch + oracleRecoveryEpochs →
      report.bps < sunsetThresholdBps) :
    (((initial.advanceAll before).advance start).ClosedFrom
        (start.epoch + oracleRecoveryEpochs) after ∧
      initial.HealthAgrees (before ++ start :: after)) ↔
      FirstLateReportLow (start.epoch + oracleRecoveryEpochs) after := by
  have hhealth : initial.HealthAgrees (before ++ start :: after) :=
    fun done report _ _ => health_advance (initial.advanceAll done) report
  rw [← (haltedSince_of_begins hbegins).closedFrom_iff hlow]
  exact ⟨fun hclosed => hclosed.1, fun hclosed => ⟨hclosed, hhealth⟩⟩

/-- Four epochs of halt, and then a report in the given zone. -/
def sampleReports (lastBps : Nat) : List ShareReport :=
  [⟨some 5000, 11⟩, ⟨none, 12⟩, ⟨some 5000, 13⟩, ⟨some lastBps, 14⟩]

theorem recovery_window_iff_sample :
    ((initial.advanceAll []).advance ⟨some 5000, 10⟩).ClosedFrom 14 (sampleReports 5900) ∧
      initial.HealthAgrees ([] ++ ⟨some 5000, 10⟩ :: sampleReports 5900) :=
  (recovery_window_iff [] (sampleReports 5900) ⟨some 5000, 10⟩ ⟨rfl, rfl⟩ (by decide)).mpr
    (by simp [FirstLateReportLow, sampleReports, ShareReport.bps, oracleRecoveryEpochs,
      sunsetWarningBps])

/-- The share comes back to 60% at the deadline, and the halt is over. -/
theorem late_recovery_revives :
    ¬∀ before start after,
      ((before ++ start :: after).map ShareReport.epoch).Pairwise (· < ·) →
      (initial.advanceAll before).BeginsHalt start →
      (∀ report ∈ after, report.epoch < start.epoch + oracleRecoveryEpochs →
        report.bps < sunsetThresholdBps) →
      ((initial.advanceAll before).advance start).ClosedFrom
        (start.epoch + oracleRecoveryEpochs) after := by
  intro hall
  have hclosed := hall [] ⟨some 5000, 10⟩ (sampleReports 6000) (by decide) ⟨rfl, rfl⟩
    (by decide)
  have hverdict := hclosed [⟨some 5000, 11⟩, ⟨none, 12⟩, ⟨some 5000, 13⟩] ⟨some 6000, 14⟩ []
    rfl (by decide)
  exact absurd hverdict (by decide)

end OracleSunsetState

end Doli.Core
