import Doli.Lib.Run
import Doli.Lib.Worth
import Doli.Producer.Discipline

/-!
# The bond ledger of a producer

A record keeps its stake three times: as a count, as an amount, and as a list of entries.
The runs here are of one record: from the way it was built, through additions, requests,
withdrawals, exits and slashes in any order.
-/

namespace Doli.Producer

open Doli.Core Doli.Lib Doli.Storage

namespace ProducerInfo

/-- `withdrawal_pending_count += bonds` -/
def chargePending (info : ProducerInfo) (bonds : Nat) : ProducerInfo :=
  { info with withdrawalPendingCount := (info.withdrawalPendingCount + bonds) % 2 ^ 32 }

/-- A withdrawal request, where `inFlight` queued bonds count towards the allowance. -/
def requestWithdrawal (info : ProducerInfo) (bonds inFlight : Nat) : ProducerInfo :=
  if bonds ≤ satAdd info.bondCount inFlight - info.withdrawalPendingCount then
    info.chargePending bonds
  else info

/-- An exit asks for all bonds, whatever is pending already. -/
def requestExit (info : ProducerInfo) : ProducerInfo :=
  if 0 < info.bondCount then info.chargePending info.bondCount else info

end ProducerInfo

/-! ## Runs of a record -/

/-- A record of the time before entries: both fields that came with them take their
defaults when it is loaded. -/
structure LegacyProducer where
  info : ProducerInfo
  bondEntries_eq : info.bondEntries = []
  withdrawalPendingCount_eq : info.withdrawalPendingCount = 0
  bondCount_le : info.bondCount ≤ maxBondsPerProducer

inductive BondOrigin where
  | newWithBonds (publicKey : PublicKey) (registeredAt bondAmount : Nat)
      (bondOutpoint : Outpoint) (registrationEra bondCount : Nat)
  | newWithPriorExit (publicKey : PublicKey) (registeredAt bondAmount : Nat)
      (bondOutpoint : Outpoint) (registrationEra bondUnit : Nat)
  | migrateBondEntries (legacy : LegacyProducer) (bondUnit : Nat)

def BondOrigin.build : BondOrigin → ProducerInfo
  | .newWithBonds publicKey registeredAt bondAmount bondOutpoint registrationEra bondCount =>
      .newWithBonds publicKey registeredAt bondAmount bondOutpoint registrationEra bondCount
  | .newWithPriorExit publicKey registeredAt bondAmount bondOutpoint registrationEra bondUnit =>
      .newWithPriorExit publicKey registeredAt bondAmount bondOutpoint registrationEra bondUnit
  | .migrateBondEntries legacy bondUnit => legacy.info.migrateBondEntries bondUnit

inductive BondMove where
  | addBonds (outpoints : List Outpoint) (amountPerBond creationSlot : Nat)
  | requestWithdrawal (bonds inFlight : Nat)
  | requestExit
  | applyWithdrawal (count bondUnit : Nat)
  | startUnbonding (height : Nat)
  | completeExit
  | slash (height : Nat)
  deriving DecidableEq, Repr

def bondStep (info : ProducerInfo) : BondMove → ProducerInfo
  | .addBonds outpoints amountPerBond creationSlot =>
      (info.addBonds outpoints amountPerBond creationSlot).1
  | .requestWithdrawal bonds inFlight => info.requestWithdrawal bonds inFlight
  | .requestExit => info.requestExit
  | .applyWithdrawal count bondUnit => info.applyWithdrawal count bondUnit
  | .startUnbonding height => info.startUnbonding height
  | .completeExit => info.completeExit
  | .slash height => info.slash height

/-! ## The count -/

/-- As many bonds as entries, and no more than a producer may have. -/
structure Counted (info : ProducerInfo) : Prop where
  entries : info.bondCount = info.bondEntries.length
  capped : info.bondCount ≤ maxBondsPerProducer

section Additions

variable (info : ProducerInfo) (outpoints : List Outpoint) (amountPerBond creationSlot : Nat)

/-- How many bonds an addition takes: a producer at the cap takes none. -/
def acceptedBonds : Nat :=
  if info.isActive then
    min (outpoints.length % 2 ^ 32) (maxBondsPerProducer - info.bondCount)
  else 0

theorem addBonds_bondCount :
    (info.addBonds outpoints amountPerBond creationSlot).1.bondCount =
      info.bondCount + acceptedBonds info outpoints := by
  simp only [acceptedBonds, ProducerInfo.addBonds]
  split <;> rfl

theorem addBonds_pending :
    (info.addBonds outpoints amountPerBond creationSlot).1.withdrawalPendingCount =
      info.withdrawalPendingCount := by
  simp only [ProducerInfo.addBonds]
  split <;> rfl

theorem addBonds_status :
    (info.addBonds outpoints amountPerBond creationSlot).1.status = info.status := by
  simp only [ProducerInfo.addBonds]
  split <;> rfl

theorem length_take_accepted (room : Nat) :
    (outpoints.take (min (outpoints.length % 2 ^ 32) room)).length =
      min (outpoints.length % 2 ^ 32) room := by
  have hmod := Nat.mod_le outpoints.length (2 ^ 32)
  rw [List.length_take]
  omega

theorem addBonds_bondEntries :
    (info.addBonds outpoints amountPerBond creationSlot).1.bondEntries =
      info.bondEntries ++ List.replicate (acceptedBonds info outpoints)
        { creationSlot := creationSlot, amount := amountPerBond } := by
  simp only [acceptedBonds, ProducerInfo.addBonds]
  split
  · rw [List.map_const', length_take_accepted]
  · rw [List.replicate_zero, List.append_nil]

theorem addBonds_bondAmount :
    (info.addBonds outpoints amountPerBond creationSlot).1.bondAmount =
      (List.replicate (acceptedBonds info outpoints) amountPerBond).foldl satAddAmount
        info.bondAmount := by
  simp only [acceptedBonds, ProducerInfo.addBonds]
  split
  · rw [← List.foldl_map, List.map_const', length_take_accepted]
  · rfl

end Additions

theorem foldl_satAddAmount_replicate (amount each count : Nat) :
    (List.replicate (count + 1) each).foldl satAddAmount amount =
      min (amount + (count + 1) * each) (2 ^ 64 - 1) := by
  induction count generalizing amount with
  | zero => simp [satAddAmount]
  | succ count ih =>
      rw [List.replicate_succ, List.foldl_cons, ih, satAddAmount]
      rw [Nat.succ_mul (count + 1)]
      omega

theorem foldl_satAddAmount_eq_iff {amount each count : Nat} :
    (List.replicate count each).foldl satAddAmount amount = amount + count * each ↔
      count = 0 ∨ amount + count * each < 2 ^ 64 := by
  cases count with
  | zero => simp
  | succ count =>
      rw [foldl_satAddAmount_replicate]
      omega

section Withdrawals

variable {info : ProducerInfo} (count bondUnit : Nat)

/-- The unit a withdrawal reckons with. -/
def unitOr (default bondUnit : Nat) : Nat := if bondUnit = 0 then default else bondUnit

theorem unitOr_pos {default bondUnit : Nat} (hdefault : 0 < default) :
    0 < unitOr default bondUnit := by
  unfold unitOr
  split <;> omega

theorem takeWithdrawal_of_counted (hcounted : Counted info) (unit : Nat) :
    info.takeWithdrawal count unit =
      { info.dropBonds (min count info.bondEntries.length) unit with
        bondEntries := info.bondEntries.drop (min count info.bondEntries.length)
        additionalBonds := info.additionalBonds.drop (min count info.bondEntries.length) } := by
  have hentries := hcounted.entries
  have hcapped : info.bondCount ≤ 3000 := hcounted.capped
  have hword : info.bondEntries.length % 2 ^ 32 = info.bondEntries.length :=
    Nat.mod_eq_of_lt (by omega)
  simp only [ProducerInfo.takeWithdrawal, hword]
  rw [if_neg]
  simp only [ProducerInfo.dropBonds]
  omega

theorem applyWithdrawal_eq (info : ProducerInfo) :
    ∃ status, info.applyWithdrawal count bondUnit =
      { info.takeWithdrawal count (unitOr coreBondUnit bondUnit) with status := status } := by
  simp only [ProducerInfo.applyWithdrawal, unitOr]
  generalize (if bondUnit = 0 then coreBondUnit else bondUnit) = unit
  split
  · exact ⟨.exited, rfl⟩
  · exact ⟨_, rfl⟩

theorem applyWithdrawal_ledger (hcounted : Counted info) :
    (info.applyWithdrawal count bondUnit).bondEntries = info.bondEntries.drop count ∧
      (info.applyWithdrawal count bondUnit).withdrawalPendingCount =
        info.withdrawalPendingCount - min count info.bondEntries.length ∧
      (info.applyWithdrawal count bondUnit).bondAmount =
        info.bondAmount - min count info.bondEntries.length *
          unitOr coreBondUnit bondUnit % 2 ^ 64 := by
  have hdrop : info.bondEntries.drop (min count info.bondEntries.length) =
      info.bondEntries.drop count := by
    rcases Nat.le_total count info.bondEntries.length with hle | hge
    · rw [Nat.min_eq_left hle]
    · rw [Nat.min_eq_right hge, List.drop_length, List.drop_eq_nil_of_le hge]
  obtain ⟨status, hstatus⟩ := applyWithdrawal_eq count bondUnit info
  rw [hstatus, takeWithdrawal_of_counted count hcounted, hdrop]
  exact ⟨rfl, rfl, rfl⟩

end Withdrawals

/-! ## One step -/

section Steps

variable {info : ProducerInfo}

theorem requestWithdrawal_frame (info : ProducerInfo) (bonds inFlight : Nat) :
    (info.requestWithdrawal bonds inFlight).status = info.status ∧
      (info.requestWithdrawal bonds inFlight).bondCount = info.bondCount ∧
      (info.requestWithdrawal bonds inFlight).bondAmount = info.bondAmount ∧
      (info.requestWithdrawal bonds inFlight).bondEntries = info.bondEntries := by
  unfold ProducerInfo.requestWithdrawal
  split
  · exact ⟨rfl, rfl, rfl, rfl⟩
  · exact ⟨rfl, rfl, rfl, rfl⟩

theorem requestExit_frame (info : ProducerInfo) :
    info.requestExit.status = info.status ∧
      info.requestExit.bondCount = info.bondCount ∧
      info.requestExit.bondAmount = info.bondAmount ∧
      info.requestExit.bondEntries = info.bondEntries := by
  unfold ProducerInfo.requestExit
  split
  · exact ⟨rfl, rfl, rfl, rfl⟩
  · exact ⟨rfl, rfl, rfl, rfl⟩

theorem requestWithdrawal_pending (info : ProducerInfo) (bonds inFlight : Nat) :
    (info.requestWithdrawal bonds inFlight).withdrawalPendingCount =
      if bonds ≤ satAdd info.bondCount inFlight - info.withdrawalPendingCount then
        (info.withdrawalPendingCount + bonds) % 2 ^ 32
      else info.withdrawalPendingCount := by
  unfold ProducerInfo.requestWithdrawal
  split <;> rfl

theorem requestExit_pending (info : ProducerInfo) :
    info.requestExit.withdrawalPendingCount =
      if 0 < info.bondCount then (info.withdrawalPendingCount + info.bondCount) % 2 ^ 32
      else info.withdrawalPendingCount := by
  unfold ProducerInfo.requestExit
  split <;> rfl

/-- Additions go behind, withdrawals come off the front, nothing else moves an entry. -/
def entryMove (info : ProducerInfo) : BondMove → FifoMove StoredBondEntry
  | .addBonds outpoints amountPerBond creationSlot =>
      .enter (List.replicate (acceptedBonds info outpoints)
        { creationSlot := creationSlot, amount := amountPerBond })
  | .applyWithdrawal count _ => .leave count
  | _ => .enter []

theorem bondEntries_bondStep (hcounted : Counted info) (move : BondMove) :
    (bondStep info move).bondEntries = (entryMove info move).apply info.bondEntries := by
  cases move with
  | addBonds outpoints amountPerBond creationSlot =>
      exact addBonds_bondEntries info outpoints amountPerBond creationSlot
  | applyWithdrawal count bondUnit => exact (applyWithdrawal_ledger count bondUnit hcounted).1
  | requestWithdrawal bonds inFlight =>
      simp [bondStep, entryMove, FifoMove.apply, requestWithdrawal_frame]
  | requestExit => simp [bondStep, entryMove, FifoMove.apply, requestExit_frame]
  | startUnbonding height => exact (List.append_nil _).symm
  | completeExit => exact (List.append_nil _).symm
  | slash height => exact (List.append_nil _).symm

theorem Counted.bondStep (hcounted : Counted info) (move : BondMove) :
    Counted (bondStep info move) := by
  have hentries := hcounted.entries
  have hcapped := hcounted.capped
  have hqueue := congrArg List.length (bondEntries_bondStep hcounted move)
  cases move with
  | addBonds outpoints amountPerBond creationSlot =>
      have hcount := addBonds_bondCount info outpoints amountPerBond creationSlot
      have hroom : acceptedBonds info outpoints ≤ maxBondsPerProducer - info.bondCount := by
        unfold acceptedBonds
        split <;> omega
      simp only [entryMove, FifoMove.apply, List.length_append, List.length_replicate] at hqueue
      simp only [Producer.bondStep] at hqueue ⊢
      exact ⟨by omega, by omega⟩
  | applyWithdrawal count bondUnit =>
      have hcount := ProducerInfo.applyWithdrawal_bondCount info count bondUnit
      simp only [entryMove, FifoMove.apply, List.length_drop] at hqueue
      simp only [Producer.bondStep] at hqueue ⊢
      exact ⟨by omega, by omega⟩
  | requestWithdrawal bonds inFlight =>
      obtain ⟨-, hcount, -, hsame⟩ := requestWithdrawal_frame info bonds inFlight
      exact ⟨by rw [Producer.bondStep, hcount, hsame, hentries],
        by rw [Producer.bondStep, hcount]; exact hcapped⟩
  | requestExit =>
      obtain ⟨-, hcount, -, hsame⟩ := requestExit_frame info
      exact ⟨by rw [Producer.bondStep, hcount, hsame, hentries],
        by rw [Producer.bondStep, hcount]; exact hcapped⟩
  | startUnbonding height => exact ⟨hentries, hcapped⟩
  | completeExit => exact ⟨hentries, hcapped⟩
  | slash height => exact ⟨hentries, hcapped⟩

/-- What is asked for is held: no request is granted on queued bonds, and no exit
comes on top of pending withdrawals. -/
def Covered (info : ProducerInfo) : BondMove → Prop
  | .requestWithdrawal bonds inFlight =>
      bonds ≤ satAdd info.bondCount inFlight - info.withdrawalPendingCount →
        info.withdrawalPendingCount + bonds ≤ info.bondCount
  | .requestExit => 0 < info.bondCount → info.withdrawalPendingCount = 0
  | _ => True

theorem pending_bondStep_iff (hcounted : Counted info)
    (hpending : info.withdrawalPendingCount ≤ info.bondCount) (move : BondMove) :
    (bondStep info move).withdrawalPendingCount ≤ (bondStep info move).bondCount ↔
      Covered info move := by
  have hentries := hcounted.entries
  have hcapped : info.bondCount ≤ 3000 := hcounted.capped
  cases move with
  | addBonds outpoints amountPerBond creationSlot =>
      have hcount := addBonds_bondCount info outpoints amountPerBond creationSlot
      have hsame := addBonds_pending info outpoints amountPerBond creationSlot
      simp only [bondStep, Covered, hcount, hsame, iff_true]
      omega
  | applyWithdrawal count bondUnit =>
      have hcount := ProducerInfo.applyWithdrawal_bondCount info count bondUnit
      obtain ⟨-, htaken, -⟩ := applyWithdrawal_ledger count bondUnit hcounted
      simp only [bondStep, Covered, hcount, htaken, iff_true]
      omega
  | requestWithdrawal bonds inFlight =>
      rw [bondStep, (requestWithdrawal_frame info bonds inFlight).2.1, requestWithdrawal_pending,
        Covered]
      split
      case isTrue hgranted =>
        have hword := hgranted.trans (Nat.sub_le_sub_right (Nat.min_le_right _ _) _)
        rw [forall_prop_of_true hgranted]
        omega
      case isFalse hrefused => exact iff_of_true hpending fun hgranted => absurd hgranted hrefused
  | requestExit =>
      rw [bondStep, (requestExit_frame info).2.1, requestExit_pending, Covered]
      split
      case isTrue hbonds =>
        rw [forall_prop_of_true hbonds]
        omega
      case isFalse hnone => exact iff_of_true hpending fun hbonds => absurd hbonds hnone
  | startUnbonding height => exact iff_of_true hpending trivial
  | completeExit => exact iff_of_true hpending trivial
  | slash height => exact iff_of_true hpending trivial

/-- An amount that counts each entry once. -/
def AmountExact (info : ProducerInfo) : Prop :=
  info.bondAmount = total StoredBondEntry.amount info.bondEntries

/-- The amount does not overflow, and a withdrawal takes off what the entries it takes
are worth. -/
def Valued (info : ProducerInfo) : BondMove → Prop
  | .addBonds outpoints amountPerBond _ =>
      acceptedBonds info outpoints = 0 ∨
        info.bondAmount + acceptedBonds info outpoints * amountPerBond < 2 ^ 64
  | .applyWithdrawal count bondUnit =>
      min info.bondAmount (min count info.bondEntries.length *
        unitOr coreBondUnit bondUnit % 2 ^ 64) =
          total StoredBondEntry.amount (info.bondEntries.take count)
  | _ => True

theorem total_replicate (count : Nat) (entry : StoredBondEntry) :
    total StoredBondEntry.amount (List.replicate count entry) = count * entry.amount := by
  simp [total]

theorem amountExact_bondStep_iff (hcounted : Counted info) (hexact : AmountExact info)
    (move : BondMove) : AmountExact (bondStep info move) ↔ Valued info move := by
  unfold AmountExact at hexact
  cases move with
  | addBonds outpoints amountPerBond creationSlot =>
      rw [AmountExact, bondEntries_bondStep hcounted, bondStep, addBonds_bondAmount, entryMove,
        FifoMove.apply, total_append, total_replicate, ← hexact, Valued,
        foldl_satAddAmount_eq_iff]
  | applyWithdrawal count bondUnit =>
      obtain ⟨hleft, -, hamount⟩ := applyWithdrawal_ledger count bondUnit hcounted
      have hsplit : total StoredBondEntry.amount (info.bondEntries.take count) +
          total StoredBondEntry.amount (info.bondEntries.drop count) = info.bondAmount := by
        rw [← total_append, List.take_append_drop, hexact]
      simp only [AmountExact, bondStep, hleft, hamount, Valued]
      omega
  | requestWithdrawal bonds inFlight =>
      obtain ⟨-, -, hamount, hsame⟩ := requestWithdrawal_frame info bonds inFlight
      simp only [AmountExact, bondStep, hamount, hsame, Valued, hexact]
  | requestExit =>
      obtain ⟨-, -, hamount, hsame⟩ := requestExit_frame info
      simp only [AmountExact, bondStep, hamount, hsame, Valued, hexact]
  | startUnbonding height => exact iff_of_true hexact trivial
  | completeExit => exact iff_of_true hexact trivial
  | slash height => exact iff_of_true hexact trivial

end Steps

/-! ## The records that runs start from -/

/-- The amount is the count times what an entry holds. -/
def BondOrigin.Even : BondOrigin → Prop
  | .newWithBonds _ _ bondAmount _ _ bondCount =>
      max 1 (min bondCount maxBondsPerProducer) ∣ bondAmount
  | .newWithPriorExit _ _ bondAmount _ _ bondUnit =>
      ∃ bonds, 1 ≤ bonds ∧ bonds ≤ maxBondsPerProducer ∧
        bondAmount = bonds * unitOr storageBondUnit bondUnit
  | .migrateBondEntries legacy bondUnit =>
      legacy.info.bondAmount = legacy.info.bondCount * unitOr coreBondUnit bondUnit

theorem migrateBondEntries_eq (legacy : LegacyProducer) (bondUnit : Nat) :
    legacy.info.migrateBondEntries bondUnit =
      { legacy.info with
        bondEntries := List.replicate legacy.info.bondCount
          { creationSlot := legacy.info.registeredAt % 2 ^ 32
            amount := unitOr coreBondUnit bondUnit } } := by
  unfold ProducerInfo.migrateBondEntries
  split
  case isTrue hbonds => rfl
  case isFalse hnone =>
    have hentries := legacy.bondEntries_eq
    have hzero : legacy.info.bondCount = 0 := by
      rw [hentries] at hnone
      simpa using hnone
    rw [hzero, List.replicate_zero, ← hentries]

theorem BondOrigin.counted_build (origin : BondOrigin) : Counted origin.build := by
  cases origin with
  | newWithBonds publicKey registeredAt bondAmount bondOutpoint registrationEra bondCount =>
      refine ⟨List.length_replicate.symm, ?_⟩
      exact max_le (by decide) (Nat.min_le_right _ _)
  | newWithPriorExit publicKey registeredAt bondAmount bondOutpoint registrationEra bondUnit =>
      refine ⟨List.length_replicate.symm, ?_⟩
      exact max_le (Nat.min_le_right _ _) (by decide)
  | migrateBondEntries legacy bondUnit =>
      rw [build, migrateBondEntries_eq]
      exact ⟨List.length_replicate.symm, legacy.bondCount_le⟩

theorem BondOrigin.pending_build (origin : BondOrigin) :
    origin.build.withdrawalPendingCount = 0 := by
  cases origin with
  | newWithBonds publicKey registeredAt bondAmount bondOutpoint registrationEra bondCount => rfl
  | newWithPriorExit publicKey registeredAt bondAmount bondOutpoint registrationEra bondUnit => rfl
  | migrateBondEntries legacy bondUnit =>
      rw [build, migrateBondEntries_eq]
      exact legacy.withdrawalPendingCount_eq

theorem BondOrigin.amountExact_build_iff (origin : BondOrigin) :
    AmountExact origin.build ↔ origin.Even := by
  cases origin with
  | newWithBonds publicKey registeredAt bondAmount bondOutpoint registrationEra bondCount =>
      simp only [build, AmountExact, ProducerInfo.newWithBonds, total_replicate, Even]
      rw [eq_comm, Nat.dvd_iff_mod_eq_zero]
      have hdiv := Nat.div_add_mod bondAmount (max 1 (min bondCount maxBondsPerProducer))
      omega
  | newWithPriorExit publicKey registeredAt bondAmount bondOutpoint registrationEra bondUnit =>
      have hunit : 0 < unitOr storageBondUnit bondUnit := unitOr_pos (by decide)
      have hbuild : AmountExact (build (.newWithPriorExit publicKey registeredAt bondAmount
          bondOutpoint registrationEra bondUnit)) ↔
          bondAmount = max (min (bondAmount / unitOr storageBondUnit bondUnit)
            maxBondsPerProducer) 1 * unitOr storageBondUnit bondUnit := by
        simp only [build, AmountExact, ProducerInfo.newWithPriorExit, total_replicate, unitOr]
      rw [hbuild, Even]
      constructor
      · intro heven
        exact ⟨_, Nat.le_max_right _ _, max_le (Nat.min_le_right _ _) (by decide), heven⟩
      · rintro ⟨bonds, hone, hmax, rfl⟩
        rw [Nat.mul_div_cancel bonds hunit, Nat.min_eq_left hmax, Nat.max_eq_left hone]
  | migrateBondEntries legacy bondUnit =>
      rw [build, migrateBondEntries_eq, AmountExact, total_replicate, Even]

/-! ## Whole runs -/

section Runs

variable {start : ProducerInfo} {done rest moves : List BondMove}

/-- The entries of the record and all that additions have put behind them. -/
def entriesEver (start : ProducerInfo) (moves : List BondMove) : List StoredBondEntry :=
  start.bondEntries ++ FifoMove.entered (FifoMove.along bondStep entryMove start moves)

/-- The entries that withdrawals have taken, in the order in which they went. -/
def entriesGone (start : ProducerInfo) (moves : List BondMove) : List StoredBondEntry :=
  FifoMove.departed start.bondEntries (FifoMove.along bondStep entryMove start moves)

def SlotsAscend (entries : List StoredBondEntry) : Prop :=
  entries.Pairwise fun first later => first.creationSlot ≤ later.creationSlot

theorem everyState_counted (hcounted : Counted start) :
    EveryState bondStep start moves Counted :=
  everyState_of_keeps hcounted fun _ move hkept => hkept.bondStep move

theorem pending_run_iff (hcounted : Counted start)
    (hpending : start.withdrawalPendingCount ≤ start.bondCount) :
    EveryState bondStep start moves (fun info => info.withdrawalPendingCount ≤ info.bondCount) ↔
      EveryStep bondStep start moves Covered := by
  rw [everyState_iff hcounted (fun _ move hkept => hkept.bondStep move)
    fun _ move hkept hheld => pending_bondStep_iff hkept hheld move]
  exact and_iff_right hpending

theorem amountExact_run_iff (hcounted : Counted start) :
    EveryState bondStep start moves AmountExact ↔
      AmountExact start ∧ EveryStep bondStep start moves Valued :=
  everyState_iff hcounted (fun _ move hkept => hkept.bondStep move)
    fun _ move hkept hheld => amountExact_bondStep_iff hkept hheld move

theorem bondEntries_run (hcounted : Counted start) (moves : List BondMove) :
    (moves.foldl bondStep start).bondEntries =
      (FifoMove.along bondStep entryMove start moves).foldl FifoMove.apply start.bondEntries :=
  FifoMove.foldl_queue (fun _ move hkept => Counted.bondStep hkept move)
    (fun _ move hkept => bondEntries_bondStep hkept move) hcounted moves

theorem entriesGone_append (hcounted : Counted start) (moves : List BondMove) :
    entriesGone start moves ++ (moves.foldl bondStep start).bondEntries =
      entriesEver start moves := by
  rw [bondEntries_run hcounted]
  exact FifoMove.departed_append_run _ _

theorem slotsAscend_run (hcounted : Counted start)
    (hascend : SlotsAscend (entriesEver start (done ++ rest))) :
    SlotsAscend (done.foldl bondStep start).bondEntries := by
  rw [entriesEver, FifoMove.along_append, FifoMove.entered_append, ← List.append_assoc] at hascend
  rw [bondEntries_run hcounted]
  exact FifoMove.pairwise_run (List.pairwise_append.mp hascend).1

theorem requestWithdrawal_pending_le (info : ProducerInfo) (bonds inFlight : Nat) :
    (info.requestWithdrawal bonds inFlight).withdrawalPendingCount ≤
      max info.withdrawalPendingCount (info.bondCount + inFlight) := by
  rw [requestWithdrawal_pending, satAdd]
  have hmod := Nat.mod_le (info.withdrawalPendingCount + bonds) (2 ^ 32)
  split
  · omega
  · exact Nat.le_max_left _ _

end Runs

/-- In every run of a record: the count is that of the entries; the pending withdrawals
stay within it as long as every request is covered by what is held; the amount stays that
of the entries as long as it starts so and every move keeps to their worth; and the
entries leave in the order in which they came. -/
theorem bond_ledger_consistent (origin : BondOrigin) (moves : List BondMove) :
    (EveryState bondStep origin.build moves fun info =>
      info.bondCount = info.bondEntries.length) ∧
    (EveryStep bondStep origin.build moves Covered →
      EveryState bondStep origin.build moves fun info =>
        info.withdrawalPendingCount ≤ info.bondCount) ∧
    (EveryStep bondStep origin.build moves fun info move => ∀ bonds inFlight,
      move = .requestWithdrawal bonds inFlight →
        (bondStep info move).withdrawalPendingCount ≤
          max info.withdrawalPendingCount (info.bondCount + inFlight)) ∧
    (origin.Even → EveryStep bondStep origin.build moves Valued →
      EveryState bondStep origin.build moves AmountExact) ∧
    entriesGone origin.build moves ++ (moves.foldl bondStep origin.build).bondEntries =
      entriesEver origin.build moves ∧
    (EveryStep bondStep origin.build moves fun info move => ∀ count bondUnit,
      move = .applyWithdrawal count bondUnit →
        info.bondEntries.take count ++ (bondStep info move).bondEntries = info.bondEntries ∧
        (SlotsAscend (entriesEver origin.build moves) →
          ∀ gone ∈ info.bondEntries.take count, ∀ kept ∈ (bondStep info move).bondEntries,
            gone.creationSlot ≤ kept.creationSlot)) := by
  have hcounted := origin.counted_build
  have hreached : EveryState bondStep origin.build moves Counted := everyState_counted hcounted
  refine ⟨fun done rest hmoves => (hreached done rest hmoves).entries, ?_, ?_, ?_, ?_, ?_⟩
  · intro hcovered
    refine (pending_run_iff hcounted ?_).mpr hcovered
    exact origin.pending_build.trans_le (Nat.zero_le _)
  · rintro done move rest - bonds inFlight rfl
    exact requestWithdrawal_pending_le _ bonds inFlight
  · intro heven hvalued
    exact (amountExact_run_iff hcounted).mpr ⟨origin.amountExact_build_iff.mpr heven, hvalued⟩
  · exact entriesGone_append hcounted moves
  · rintro done move rest hmoves count bondUnit rfl
    have hleft := (applyWithdrawal_ledger count bondUnit (hreached done _ hmoves)).1
    rw [bondStep, hleft]
    refine ⟨List.take_append_drop _ _, fun hascend => ?_⟩
    rw [hmoves] at hascend
    exact FifoMove.pairwise_leave (slotsAscend_run hcounted hascend) count

/-! ## The records of a producer set -/

/-- What bond moves read and write of a record. -/
def stake (info : ProducerInfo) :
    ProducerStatus × Nat × Nat × List StoredBondEntry × Nat :=
  (info.status, info.bondCount, info.bondAmount, info.bondEntries, info.withdrawalPendingCount)

theorem stake_ignoresDelegation : ProducerSet.IgnoresDelegation stake := fun _ _ _ _ => rfl

theorem stake_bondStep {left right : ProducerInfo} (hleft : Counted left)
    (hright : Counted right) (hsame : stake left = stake right) (move : BondMove) :
    stake (bondStep left move) = stake (bondStep right move) := by
  simp only [stake, Prod.mk.injEq] at hsame
  obtain ⟨hstatus, hcount, hamount, hentries, hpending⟩ := hsame
  cases move with
  | addBonds outpoints amountPerBond creationSlot =>
      have hactive : left.isActive = right.isActive := by
        simp only [ProducerInfo.isActive, hstatus]
      have haccepted : acceptedBonds left outpoints = acceptedBonds right outpoints := by
        simp only [acceptedBonds, hactive, hcount]
      simp only [bondStep, stake, addBonds_status, addBonds_bondCount, addBonds_bondAmount,
        addBonds_bondEntries, addBonds_pending, haccepted, hstatus, hcount, hamount, hentries,
        hpending]
  | requestWithdrawal bonds inFlight =>
      simp only [bondStep, stake, requestWithdrawal_frame, requestWithdrawal_pending, hstatus,
        hcount, hamount, hentries, hpending]
  | requestExit =>
      simp only [bondStep, stake, requestExit_frame, requestExit_pending, hstatus, hcount,
        hamount, hentries, hpending]
  | applyWithdrawal count bondUnit =>
      have htaken := applyWithdrawal_ledger count bondUnit hleft
      have hother := applyWithdrawal_ledger count bondUnit hright
      have hslashed : left.isSlashed = right.isSlashed := by
        simp only [ProducerInfo.isSlashed, hstatus]
      simp only [bondStep, stake, htaken, hother, ProducerInfo.applyWithdrawal_bondCount,
        ProducerInfo.applyWithdrawal_status, hslashed, hstatus, hcount, hamount, hentries,
        hpending]
  | startUnbonding height =>
      simp only [bondStep, stake, ProducerInfo.startUnbonding, hcount, hamount, hentries, hpending]
  | completeExit =>
      simp only [bondStep, stake, ProducerInfo.completeExit, hcount, hamount, hentries, hpending]
  | slash height =>
      simp only [bondStep, stake, ProducerInfo.slash, hcount, hamount, hentries, hpending]

/-- A run of bond moves leads to the record, its keys and delegations aside. -/
def Grown (info : ProducerInfo) : Prop :=
  ∃ (origin : BondOrigin) (moves : List BondMove),
    stake info = stake (moves.foldl bondStep origin.build)

namespace Grown

variable {info other : ProducerInfo}

theorem build (origin : BondOrigin) : Grown origin.build := ⟨origin, [], rfl⟩

theorem of_stake (hgrown : Grown info) (hsame : stake other = stake info) : Grown other := by
  obtain ⟨origin, moves, hrun⟩ := hgrown
  exact ⟨origin, moves, hsame.trans hrun⟩

theorem counted (hgrown : Grown info) : Counted info := by
  obtain ⟨origin, moves, hrun⟩ := hgrown
  have hreached : Counted (moves.foldl bondStep origin.build) :=
    everyState_counted origin.counted_build moves [] (List.append_nil _).symm
  simp only [stake, Prod.mk.injEq] at hrun
  obtain ⟨-, hcount, -, hentries, -⟩ := hrun
  exact ⟨by rw [hcount, hentries, hreached.entries], hcount ▸ hreached.capped⟩

theorem bondStep (hgrown : Grown info) (move : BondMove) : Grown (bondStep info move) := by
  have hcounted := hgrown.counted
  obtain ⟨origin, moves, hrun⟩ := hgrown
  have hreached : Counted (moves.foldl Producer.bondStep origin.build) :=
    everyState_counted origin.counted_build moves [] (List.append_nil _).symm
  refine ⟨origin, moves ++ [move], ?_⟩
  rw [List.foldl_append]
  exact stake_bondStep hcounted hreached hrun move

end Grown

namespace ProducerSet

/-- Every record, registered or queued to be, is grown. -/
structure AllGrown (set : ProducerSet) : Prop where
  records : ∀ key info, set.producers.lookup key = some info → Grown info
  queued : ∀ info height, .register info height ∈ set.pendingUpdates → Grown info

namespace AllGrown

variable {prim : Primitives} {set next : ProducerSet} {hash : Hash}

theorem of_sameStake (hgrown : set.AllGrown) (hsame : SameView stake set next)
    (hqueue : next.pendingUpdates = set.pendingUpdates) : next.AllGrown where
  records key info hinfo := by
    have hview := hsame key
    rw [hinfo, Option.map_some, eq_comm, Option.map_eq_some_iff] at hview
    obtain ⟨before, hbefore, hstake⟩ := hview
    exact (hgrown.records key before hbefore).of_stake hstake.symm
  queued := by rw [hqueue]; exact hgrown.queued

theorem modify (hgrown : set.AllGrown) {change : ProducerInfo → ProducerInfo}
    (hchange : ∀ info, set.producers.lookup hash = some info → Grown info →
      Grown (change info)) : (set.modify hash change).AllGrown where
  records key info hinfo := by
    rw [lookup_modify] at hinfo
    obtain ⟨before, hbefore, rfl⟩ := Option.map_eq_some_iff.mp hinfo
    have hheld := hgrown.records key before hbefore
    split
    case isTrue hkey => exact hchange before (hkey ▸ hbefore) hheld
    case isFalse => exact hheld
  queued := by rw [modify_pendingUpdates]; exact hgrown.queued

theorem bondStep (hgrown : set.AllGrown) (hash : Hash) (move : BondMove) :
    (set.modify hash (Producer.bondStep · move)).AllGrown :=
  hgrown.modify fun _ _ hheld => hheld.bondStep move

theorem cleanup (hgrown : set.AllGrown) (hash : Hash) :
    (set.cleanupAllDelegations prim hash).AllGrown :=
  hgrown.of_sameStake (.cleanup stake_ignoresDelegation hash)
    (cleanupAllDelegations_frame prim set hash).2.2

theorem congr (hgrown : set.AllGrown) (hproducers : next.producers = set.producers)
    (hqueue : next.pendingUpdates = set.pendingUpdates) : next.AllGrown :=
  hgrown.of_sameStake (fun key => by rw [hproducers]) hqueue

theorem queueUpdate (hgrown : set.AllGrown) {update : PendingProducerUpdate}
    (hupdate : ∀ info height, update = .register info height → Grown info) :
    (set.queueUpdate update).AllGrown where
  records := hgrown.records
  queued info height hmem := by
    rcases List.mem_append.mp hmem with hqueued | hnew
    · exact hgrown.queued info height hqueued
    · exact hupdate info height (List.mem_singleton.mp hnew).symm

theorem register (hgrown : set.AllGrown) {info : ProducerInfo} (hinfo : Grown info)
    (height : Nat) : ((set.register prim info height).toOption.getD set).AllGrown := by
  cases hok : set.register prim info height with
  | error error => exact hgrown
  | ok next =>
      obtain ⟨⟨flag, rfl⟩, -⟩ := register_ok hok
      refine ⟨fun key found hfound => ?_, hgrown.queued⟩
      by_cases hkey : key = prim.cryptoHash info.publicKey
      · subst hkey
        simp only [Except.toOption, Option.getD_some, Finmap.lookup_insert,
          Option.some.injEq] at hfound
        subst hfound
        exact hinfo.of_stake rfl
      · simp only [Except.toOption, Option.getD_some, Finmap.lookup_insert_of_ne _ hkey] at hfound
        exact hgrown.records key found hfound

theorem requestExit (hgrown : set.AllGrown) (pubkey : PublicKey) (height : Nat) :
    ((set.requestExit prim pubkey height).toOption.getD set).AllGrown := by
  have hstarted : ((set.modify (prim.cryptoHash pubkey)
      (·.startUnbonding height)).cleanupAllDelegations prim (prim.cryptoHash pubkey)).AllGrown :=
    (hgrown.bondStep _ (.startUnbonding height)).cleanup _
  simp only [ProducerSet.requestExit]
  split
  · exact hgrown
  split
  · exact hstarted.congr rfl rfl
  · exact hgrown

theorem slashProducer (hgrown : set.AllGrown) (pubkey : PublicKey) (height : Nat) :
    (((set.slashProducer prim pubkey height).toOption.map Prod.fst).getD set).AllGrown := by
  have hslashed : ((set.modify (prim.cryptoHash pubkey)
      (·.slash height)).cleanupAllDelegations prim (prim.cryptoHash pubkey)).AllGrown :=
    (hgrown.bondStep _ (.slash height)).cleanup _
  simp only [ProducerSet.slashProducer]
  split
  · exact hgrown
  split
  · exact hgrown
  · exact hslashed.congr rfl rfl

theorem applyUpdate (hgrown : set.AllGrown) {cap : Nat} {update : PendingProducerUpdate}
    (hupdate : ∀ info height, update = .register info height → Grown info) :
    (set.applyUpdate prim cap update).AllGrown := by
  cases update with
  | register info height => exact hgrown.register (hupdate info height rfl) height
  | exit pubkey height => exact hgrown.requestExit pubkey height
  | slash pubkey height => exact hgrown.slashProducer pubkey height
  | addBond pubkey outpoints bondUnit creationSlot =>
      exact hgrown.bondStep _ (.addBonds outpoints bondUnit creationSlot)
  | delegateBond delegator delegate bondCount =>
      exact hgrown.of_sameStake
        (.delegateBondsCapped stake_ignoresDelegation delegator delegate bondCount cap)
        (delegateBondsCapped_frame ..).2.2
  | revokeDelegation delegator =>
      exact hgrown.of_sameStake (.revokeDelegation stake_ignoresDelegation delegator)
        (revokeDelegation_frame ..).2.2
  | requestWithdrawal pubkey bondCount bondUnit =>
      have hwithdrawn := hgrown.bondStep (prim.cryptoHash pubkey)
        (.applyWithdrawal bondCount bondUnit)
      simp only [ProducerSet.applyUpdate]
      split
      · exact hwithdrawn.cleanup _
      · exact hwithdrawn
  | rotateBlsKey pubkey newBlsPubkey height =>
      exact hgrown.of_sameStake (.modify fun _ => rfl) (modify_pendingUpdates ..)

theorem flush (hgrown : set.AllGrown) (cap : Nat) :
    (set.applyPendingUpdatesWithCap prim cap).AllGrown := by
  unfold applyPendingUpdatesWithCap
  refine foldl_invariant (fun _ (state : ProducerSet) => state.AllGrown)
    ⟨hgrown.records, fun info height hnone => absurd hnone List.not_mem_nil⟩ ?_
  intro done update rest current hqueue hcurrent
  refine hcurrent.applyUpdate fun info height hupdate => hgrown.queued info height ?_
  rw [hqueue, ← hupdate]
  exact List.mem_append_right _ List.mem_cons_self

theorem processUnbonding (hgrown : set.AllGrown) (height duration : Nat) :
    (set.processUnbonding prim height duration).AllGrown := by
  unfold ProducerSet.processUnbonding
  refine foldl_invariant (fun _ (state : ProducerSet) => state.AllGrown) hgrown ?_
  intro done row rest current _ hcurrent
  have hexited : ({ current.modify row.2 ProducerInfo.completeExit with
      exitHistory := (current.modify row.2
        ProducerInfo.completeExit).exitHistory.insert row.2 height } :
      ProducerSet).AllGrown := (hcurrent.bondStep row.2 .completeExit).congr rfl rfl
  simp only [completeUnbonding]
  split
  · split
    · exact (hexited.cleanup row.2).congr rfl rfl
    · exact hcurrent.congr rfl rfl
  · exact hcurrent.congr rfl rfl

end AllGrown

end ProducerSet

/-! ## Records that drift -/

/-- What `validate_registration` asks of the total of the Bond outputs and of the
declared count. -/
def registrationAdmits (requiredBond totalBond bondCount : Nat) : Bool :=
  totalBond < 2 ^ 64 && requiredBond ≤ totalBond && 1 ≤ bondCount &&
    bondCount ≤ maxBondsPerProducer

instance (info : ProducerInfo) : Decidable (AmountExact info) :=
  inferInstanceAs (Decidable (_ = _))

instance (info : ProducerInfo) : (move : BondMove) → Decidable (Covered info move)
  | .requestWithdrawal _ _ => inferInstanceAs (Decidable (_ → _))
  | .requestExit => inferInstanceAs (Decidable (_ → _))
  | .addBonds _ _ _ | .applyWithdrawal _ _ | .startUnbonding _ | .completeExit | .slash _ =>
      instDecidableTrue

instance (info : ProducerInfo) : (move : BondMove) → Decidable (Valued info move)
  | .addBonds _ _ _ => inferInstanceAs (Decidable (_ ∨ _))
  | .applyWithdrawal _ _ => inferInstanceAs (Decidable (_ = _))
  | .requestWithdrawal _ _ | .requestExit | .startUnbonding _ | .completeExit | .slash _ =>
      instDecidableTrue

def sampleBondOrigin (bondAmount bondCount : Nat) : BondOrigin :=
  .newWithBonds ⟨7⟩ 10 bondAmount ⟨⟨1⟩, 0⟩ 0 bondCount

/-- The pending withdrawals of the record and its bonds, after `moves`. -/
def pendingAndHeld (origin : BondOrigin) (moves : List BondMove) : Nat × Nat :=
  ((moves.foldl bondStep origin.build).withdrawalPendingCount,
    (moves.foldl bondStep origin.build).bondCount)

/-- Two units in one bond, a total that three bonds do not divide, a request granted on
two queued bonds, and an exit on top of a request. -/
theorem bond_ledger_drifts :
    (registrationAdmits 1000000000 2000000000 1 = true ∧
      ¬AmountExact ([BondMove.applyWithdrawal 1 1000000000].foldl bondStep
        (sampleBondOrigin 2000000000 1).build)) ∧
    (registrationAdmits 1000000000 3500000000 3 = true ∧
      ¬AmountExact (sampleBondOrigin 3500000000 3).build) ∧
    (registrationAdmits 1000000000 5000000000 5 = true ∧
      pendingAndHeld (sampleBondOrigin 5000000000 5) [.requestWithdrawal 7 2] = (7, 5) ∧
      pendingAndHeld (sampleBondOrigin 5000000000 5)
        [.requestWithdrawal 1 0, .requestExit] = (6, 5)) := by
  decide +kernel

/-- Three bonds and two more, two of them withdrawn, then an exit. -/
def sampleMoves : List BondMove :=
  [.addBonds [⟨⟨2⟩, 0⟩, ⟨⟨2⟩, 1⟩] 1000000000 20, .requestWithdrawal 2 0,
    .applyWithdrawal 2 1000000000, .requestExit, .applyWithdrawal 3 1000000000]

theorem bond_ledger_consistent_sample :
    let start := (sampleBondOrigin 3000000000 3).build
    EveryState bondStep start sampleMoves (fun info =>
        info.withdrawalPendingCount ≤ info.bondCount) ∧
      EveryState bondStep start sampleMoves AmountExact := by
  intro start
  have hkept := bond_ledger_consistent (sampleBondOrigin 3000000000 3) sampleMoves
  refine ⟨hkept.2.1 ?_, hkept.2.2.2.1 ?_ ?_⟩
  · simp only [sampleMoves, everyStep_cons, everyStep_nil]
    decide +kernel
  · exact ⟨1000000000, rfl⟩
  · simp only [sampleMoves, everyStep_cons, everyStep_nil]
    decide +kernel

end Doli.Producer
