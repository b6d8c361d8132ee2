import Doli.Node.WithdrawalEnqueue
import Doli.Validation.BlockRules
import Doli.Validation.PoolChange

/-!
# The vesting penalty

What a withdrawal may pay out is bounded by the net of its Bonds and the amounts of its other
inputs.  Every other amount counts, a token's like a coin's, so tokens pay the penalty back
wherever the Bonds lose more than the fee.
-/

namespace Doli.Core

/-! ## The net of a bond -/

theorem rate_antitone {age later : Nat} (hage : age ≤ later) (quarterSlots : Nat) :
    withdrawalPenaltyRateWithQuarter later quarterSlots ≤
      withdrawalPenaltyRateWithQuarter age quarterSlots := by
  have hquarter : age / quarterSlots ≤ later / quarterSlots := Nat.div_le_div_right hage
  unfold withdrawalPenaltyRateWithQuarter
  generalize age / quarterSlots = quarter at hquarter ⊢
  generalize later / quarterSlots = laterQuarter at hquarter ⊢
  rcases quarter with _ | _ | _ | quarter <;>
    rcases laterQuarter with _ | _ | _ | laterQuarter <;> simp at hquarter ⊢

theorem penalizedBondNet_le (amount creationSlot blockSlot quarterSlots : Nat) :
    penalizedBondNet amount creationSlot blockSlot quarterSlots ≤ amount :=
  Nat.sub_le _ _

theorem penalizedBondNet_mono (amount creationSlot : Nat) {blockSlot later : Nat}
    (hslot : blockSlot ≤ later) (quarterSlots : Nat) :
    penalizedBondNet amount creationSlot blockSlot quarterSlots ≤
      penalizedBondNet amount creationSlot later quarterSlots := by
  have hrate := rate_antitone (Nat.sub_le_sub_right hslot creationSlot) quarterSlots
  exact Nat.sub_le_sub_left (Nat.div_le_div_right (Nat.mul_le_mul_left amount hrate)) amount

end Doli.Core

namespace Doli.Node

open Doli.Core Doli.Lib Doli.Storage Doli.Producer
open Doli.Validation (SpendingContext nativeAmount minimumFee totalSupply consumedOutputs
  checkConservation checkInternalDoubleSpend Spends)

/-! ## What is spent and what is paid -/

section Definitions

variable (node : BlockContext)

/-- What a spent output may pay out as a Bond. -/
def vestedNet (spent : Output) : Nat :=
  if spent.outputType = .bond then
    (stampedSlot spent).elim 0 fun created =>
      penalizedBondNet spent.amount created node.slot node.utxo.params.vestingQuarterSlots
  else 0

def nonBondNative (spent : Output) : Nat :=
  if spent.outputType = .bond then 0 else nativeAmount spent

/-- Tokens, shares and whatever else has an amount that is not DOLI. -/
def nonNative (spent : Output) : Nat :=
  if spent.outputType.isNativeAmount then 0 else spent.amount

def vestingLive : Prop :=
  node.utxo.params.incI171VestingPenaltyActivationHeight ≤ node.height ∧
    node.height < node.utxo.params.incI171VestingPenaltyDisableHeight

def vestingVerdict (tx : Transaction) (lookup : Outpoint → Option UtxoEntry) (owner : Hash) :
    Except VestingError Unit :=
  vestingBoundVerdict tx (resolveWithdrawalInputs tx lookup owner) node.slot node.height
    node.utxo.params.vestingQuarterSlots
    node.utxo.params.incI171VestingPenaltyActivationHeight
    node.utxo.params.incI171VestingPenaltyDisableHeight

/-- The withdrawal with its one output paying `amount`. -/
def paying (tx : Transaction) (output : Output) (amount : Nat) : Transaction :=
  { tx with outputs := [{ output with amount := amount }] }

/-- The rules that read how much a withdrawal pays out. -/
structure PayoutRules (ctx : SpendingContext) (tx : Transaction)
    (lookup : Outpoint → Option UtxoEntry) (owner : Hash) : Prop where
  supply : total nativeAmount tx.outputs ≤ totalSupply
  fits : total nativeAmount (consumedOutputs tx lookup) < 2 ^ 64
  conservation : checkConservation ctx tx (consumedOutputs tx lookup) = .ok ()
  fee : Validation.checkFee ctx tx (consumedOutputs tx lookup) = .ok ()
  vesting : node.mode ≠ .replay → vestingVerdict node tx lookup owner = .ok ()

/-- The native DOLI paid out is covered by the net of the Bonds and by the native DOLI of
the other inputs. -/
def PenaltyPaid (tx : Transaction) (lookup : Outpoint → Option UtxoEntry) : Prop :=
  total nativeAmount tx.outputs ≤ total (vestedNet node) (consumedOutputs tx lookup) +
    total nonBondNative (consumedOutputs tx lookup)

/-- What is spent leaves no room for a payout above the net.  A replay asks less: it only
reports what the vesting rule refuses. -/
inductive PenaltyKept (tx : Transaction) (consumed : List Output) : Prop
  | nativeOnly : node.mode ≠ .replay → total nonNative consumed = 0 → PenaltyKept tx consumed
  | lostInFee : total nativeAmount consumed ≤
      total (vestedNet node) consumed + total nonBondNative consumed + minimumFee tx →
        PenaltyKept tx consumed
  | unstamped {spent : Output} : node.mode ≠ .replay → spent ∈ consumed → 
      spent.outputType = .bond → stampedSlot spent = none → PenaltyKept tx consumed
  | badQuarter : node.mode ≠ .replay → node.utxo.params.vestingQuarterSlots = 0 ∨
      2 ^ 32 - 1 < node.utxo.params.vestingQuarterSlots → PenaltyKept tx consumed
  | beyondSupply : totalSupply ≤ total (vestedNet node) consumed +
      total nonBondNative consumed → PenaltyKept tx consumed
  | overflowing : 2 ^ 64 ≤ total nativeAmount consumed → PenaltyKept tx consumed

/-- A withdrawal of a block that both validators let pass, with the set it spends from. -/
structure AcceptedWithdrawal (ctx : SpendingContext) (db : StateDb) (producers : ProducerSet)
    (txs : List Transaction) (tx : Transaction) : Prop where
  kind : tx.txType = .requestWithdrawal
  member : tx ∈ txs
  doubleSpend : checkInternalDoubleSpend txs = .ok ()
  spending : ctx.validateTransactionWithUtxos tx db.getUtxo = .ok ()
  economics : checkWithdrawalEconomics node db producers txs = .ok ()

end Definitions

/-! ## The resolved inputs -/

section Resolved

variable {lookup : Outpoint → Option UtxoEntry} {owner : Hash} {tx : Transaction}

def nonBondAmount (spent : Output) : Nat :=
  if spent.outputType = .bond then 0 else spent.amount

theorem nonBondAmount_eq (spent : Output) :
    nonBondAmount spent = nonBondNative spent + nonNative spent := by
  unfold nonBondAmount nonBondNative nonNative nativeAmount
  by_cases hbond : spent.outputType = .bond
  · simp [hbond, OutputType.isNativeAmount]
  · cases hnative : spent.outputType.isNativeAmount <;> simp [hbond]

/-- The three answers about the inputs that the vesting rule reads. -/
structure Resolves (resolved : WithdrawalInputs) (consumed : List Output) : Prop where
  spentBonds : resolved.spentBonds =
    (consumed.filter fun spent => spent.outputType = .bond).map fun spent =>
      (spent.amount, stampedSlot spent)
  nonBondTotal : resolved.nonBondTotal = min (total nonBondAmount consumed) (2 ^ 64 - 1)
  malformed : resolved.malformedBondInputs = [] ↔
    ∀ spent ∈ consumed, spent.outputType = .bond → (stampedSlot spent).isSome

theorem Resolves.resolveInput {resolved : WithdrawalInputs} {consumed : List Output}
    (hresolves : Resolves resolved consumed) (row : Input × Nat) :
    Resolves (WithdrawalInputs.resolveInput lookup owner resolved row)
      (consumed ++ ((lookup (inputOutpoint row.1)).map UtxoEntry.output).toList) := by
  unfold WithdrawalInputs.resolveInput
  cases hentry : lookup (inputOutpoint row.1) with
  | none => simpa using hresolves
  | some entry =>
      simp only [Option.map_some, Option.toList_some]
      by_cases hbond : entry.output.outputType = .bond
      · rw [if_neg (not_not.mpr hbond)]
        constructor
        case spentBonds => simp [hresolves.spentBonds, hbond]
        case nonBondTotal => simp [hresolves.nonBondTotal, nonBondAmount, hbond]
        case malformed =>
          have hbefore := hresolves.malformed
          cases hstamp : stampedSlot entry.output with
          | none => simp [hbond, hstamp]
          | some slot =>
              simp only [Option.isNone_some, Bool.false_eq_true, if_false, hbefore,
                List.forall_mem_append, List.forall_mem_singleton, hstamp, Option.isSome_some,
                implies_true, and_true]
      · rw [if_pos hbond]
        constructor
        case spentBonds => simp [hresolves.spentBonds, hbond]
        case nonBondTotal =>
          simp only [satAddAmount, hresolves.nonBondTotal, total_append, total_cons, total_nil,
            nonBondAmount, if_neg hbond]
          omega
        case malformed =>
          simp only [hresolves.malformed, List.forall_mem_append, List.forall_mem_singleton,
            hbond, false_implies, and_true]

theorem resolves_resolveWithdrawalInputs (tx : Transaction) :
    Resolves (resolveWithdrawalInputs tx lookup owner) (consumedOutputs tx lookup) := by
  have hfold : ∀ (rows : List (Input × Nat)) (resolved : WithdrawalInputs)
      (consumed : List Output), Resolves resolved consumed →
        Resolves (rows.foldl (WithdrawalInputs.resolveInput lookup owner) resolved)
          (consumed ++ rows.filterMap fun row =>
            (lookup (inputOutpoint row.1)).map UtxoEntry.output) := by
    intro rows
    induction rows with
    | nil =>
        intro resolved consumed hresolves
        simpa using hresolves
    | cons row rows ih =>
        intro resolved consumed hresolves
        have hnext : Resolves (WithdrawalInputs.resolveInput lookup owner resolved row) _ :=
          hresolves.resolveInput row
        have hrest := ih _ _ hnext
        rw [List.append_assoc] at hrest
        rw [List.foldl_cons, List.filterMap_cons]
        cases hentry : (lookup (inputOutpoint row.1)).map UtxoEntry.output with
        | none => simpa [hentry] using hrest
        | some spent => simpa [hentry] using hrest
  have hempty : Resolves .empty [] := ⟨rfl, rfl, by simp [WithdrawalInputs.empty]⟩
  have hrows : tx.inputs.zipIdx.filterMap (fun row =>
      (lookup (inputOutpoint row.1)).map UtxoEntry.output) = consumedOutputs tx lookup := by
    unfold consumedOutputs
    conv_rhs => rw [← List.zipIdx_map_fst 0 tx.inputs, List.filterMap_map]
    rfl
  have hall := hfold tx.inputs.zipIdx .empty [] hempty
  rw [List.nil_append, hrows] at hall
  exact hall

theorem Resolves.vested {node : BlockContext} {resolved : WithdrawalInputs}
    {consumed : List Output} (hresolves : Resolves resolved consumed) :
    ((resolved.spentBonds.filterMap fun bond => bond.2.map fun slot => (bond.1, slot)).map
      fun bond => penalizedBondNet bond.1 bond.2 node.slot
        node.utxo.params.vestingQuarterSlots).sum = total (vestedNet node) consumed := by
  rw [hresolves.spentBonds]
  clear hresolves
  induction consumed with
  | nil => rfl
  | cons spent consumed ih =>
      rw [total_cons, ← ih]
      unfold vestedNet
      by_cases hbond : spent.outputType = .bond
      · cases hstamp : stampedSlot spent with
        | none => simp [hbond, hstamp]
        | some slot => simp [hbond, hstamp]
      · simp [hbond]

end Resolved

/-! ## The verdict -/

section Verdict

variable {node : BlockContext} {ctx : SpendingContext} {tx : Transaction} {output : Output}
  {lookup : Outpoint → Option UtxoEntry} {owner : Hash} {amount : Nat}

theorem payoutBound_ok_iff {payout : Nat} {spentBonds : List (Nat × Nat)}
    {nonBondTotal slot quarterSlots height activation disable : Nat}
    (hlive : activation ≤ height ∧ height < disable) :
    checkWithdrawalPayoutBound payout spentBonds nonBondTotal slot quarterSlots height
        activation disable = .ok () ↔
      (0 < quarterSlots ∧ quarterSlots ≤ 2 ^ 32 - 1) ∧
        payout ≤ min (min (spentBonds.map fun bond =>
          penalizedBondNet bond.1 bond.2 slot quarterSlots).sum (2 ^ 64 - 1) + nonBondTotal)
            (2 ^ 64 - 1) := by
  unfold checkWithdrawalPayoutBound
  rw [if_neg (by omega)]
  by_cases hquarter : quarterSlots = 0 ∨ 2 ^ 32 - 1 < quarterSlots
  · rw [if_pos hquarter]
    simp only [reduceCtorEq, false_iff, not_and]
    omega
  · rw [if_neg hquarter]
    dsimp only
    split
    case isTrue hover =>
      simp only [reduceCtorEq, false_iff, not_and, not_le]
      exact fun _ => hover
    case isFalse hwithin =>
      simp only [true_iff]
      exact ⟨by omega, Nat.le_of_not_lt hwithin⟩

/-- Above the gate the rule bounds the payout by the net of the Bonds and by whatever else
has an amount. -/
theorem vestingVerdict_ok_iff (hlive : vestingLive node) :
    vestingVerdict node (paying tx output amount) lookup owner = .ok () ↔
      (∀ spent ∈ consumedOutputs tx lookup, spent.outputType = .bond →
        (stampedSlot spent).isSome) ∧
      (0 < node.utxo.params.vestingQuarterSlots ∧
        node.utxo.params.vestingQuarterSlots ≤ 2 ^ 32 - 1) ∧
      min amount (2 ^ 64 - 1) ≤
        min (min (total (vestedNet node) (consumedOutputs tx lookup)) (2 ^ 64 - 1) +
          min (total nonBondAmount (consumedOutputs tx lookup)) (2 ^ 64 - 1)) (2 ^ 64 - 1) := by
  have hresolves : Resolves (resolveWithdrawalInputs (paying tx output amount) lookup owner)
      (consumedOutputs tx lookup) :=
    resolves_resolveWithdrawalInputs (paying tx output amount)
  have hpayout : (paying tx output amount).outputs.foldl (fun sum output =>
      satAddAmount sum output.amount) 0 = min amount (2 ^ 64 - 1) := by
    simp [paying, satAddAmount]
  unfold vestingVerdict vestingBoundVerdict
  rw [if_neg (by unfold vestingLive at hlive; omega)]
  cases hmalformed : (resolveWithdrawalInputs (paying tx output amount) lookup
      owner).malformedBondInputs with
  | cons first rest =>
      have hnot := mt hresolves.malformed.mpr (by simp [hmalformed])
      simp only [reduceCtorEq, false_iff, not_and]
      exact fun hstamped => absurd hstamped hnot
  | nil =>
      dsimp only
      rw [payoutBound_ok_iff hlive, hresolves.vested, hresolves.nonBondTotal, hpayout]
      exact (and_iff_right (hresolves.malformed.mp hmalformed)).symm

theorem total_nonBondAmount (consumed : List Output) :
    total nonBondAmount consumed = total nonBondNative consumed + total nonNative consumed := by
  rw [← total_add]
  exact total_congr fun spent _ => nonBondAmount_eq spent

theorem vested_le_native (node : BlockContext) (consumed : List Output) :
    total (vestedNet node) consumed + total nonBondNative consumed ≤
      total nativeAmount consumed := by
  rw [← total_add]
  apply total_le_total
  intro spent _
  unfold vestedNet nonBondNative nativeAmount
  by_cases hbond : spent.outputType = .bond
  · simp only [hbond, if_true, OutputType.isNativeAmount, Nat.add_zero]
    cases stampedSlot spent with
    | none => exact Nat.zero_le _
    | some created => exact penalizedBondNet_le _ _ _ _
  · simp [hbond]

theorem nativeAmount_paying (hnative : output.outputType = .normal ∨
    output.outputType = .unbonding) :
    total nativeAmount (paying tx output amount).outputs = amount := by
  rcases hnative with hnative | hnative <;>
    simp [paying, nativeAmount, hnative, OutputType.isNativeAmount]

theorem totalOutput_paying (hnative : output.outputType = .normal ∨
    output.outputType = .unbonding) :
    UtxoContext.totalOutput (paying tx output amount) = min (2 ^ 64 - 1) amount := by
  rcases hnative with hnative | hnative <;>
    simp [paying, UtxoContext.totalOutput, hnative, OutputType.isNativeAmount]

theorem balance_ok_iff (hkind : tx.txType = .requestWithdrawal)
    (hnative : output.outputType = .normal ∨ output.outputType = .unbonding)
    (hamount : amount < 2 ^ 64) (consumed : List Output) :
    (checkConservation ctx (paying tx output amount) consumed = .ok () ∧
        Validation.checkFee ctx (paying tx output amount) consumed = .ok ()) ↔
      amount + minimumFee (paying tx output 0) ≤ total nativeAmount consumed := by
  have hpool : Validation.isAmmPoolTx (paying tx output amount) = false := by
    simp [Validation.isAmmPoolTx, paying, hkind, Validation.needsPool]
  have hexempt : (Validation.isNativeFeeExempt (paying tx output amount).txType ||
      Validation.slashFeeExempt ctx.base (paying tx output amount)) = false := by
    simp [Validation.isNativeFeeExempt, Validation.slashFeeExempt, paying, hkind]
  have hfee : minimumFee (paying tx output amount) = minimumFee (paying tx output 0) := rfl
  have hpositive : 0 < minimumFee (paying tx output 0) := Nat.add_pos_left (by decide) _
  unfold checkConservation Validation.checkFee
  rw [hpool, hexempt, totalOutput_paying hnative, hfee]
  simp only [Bool.false_eq_true, false_and, if_false, refuseIf_eq_ok, not_lt]
  omega

theorem totalSupply_lt : totalSupply < 2 ^ 64 := by
  norm_num [totalSupply]

theorem payoutRules_iff (hlive : vestingLive node) (hkind : tx.txType = .requestWithdrawal)
    (hnative : output.outputType = .normal ∨ output.outputType = .unbonding) :
    PayoutRules node ctx (paying tx output amount) lookup owner ↔
      amount ≤ totalSupply ∧ total nativeAmount (consumedOutputs tx lookup) < 2 ^ 64 ∧
        amount + minimumFee (paying tx output 0) ≤
          total nativeAmount (consumedOutputs tx lookup) ∧
        (node.mode ≠ .replay →
          (∀ spent ∈ consumedOutputs tx lookup, spent.outputType = .bond →
            (stampedSlot spent).isSome) ∧
          (0 < node.utxo.params.vestingQuarterSlots ∧
            node.utxo.params.vestingQuarterSlots ≤ 2 ^ 32 - 1) ∧
          amount ≤ total (vestedNet node) (consumedOutputs tx lookup) +
            total nonBondNative (consumedOutputs tx lookup) +
            total nonNative (consumedOutputs tx lookup)) := by
  have hvested := vested_le_native node (consumedOutputs tx lookup)
  have hsplit := total_nonBondAmount (consumedOutputs tx lookup)
  have hsupply := totalSupply_lt
  have hconsumed : consumedOutputs (paying tx output amount) lookup =
      consumedOutputs tx lookup := rfl
  constructor
  · rintro ⟨hle, hfits, hconservation, hfee, hvesting⟩
    rw [nativeAmount_paying hnative] at hle
    rw [hconsumed] at hfits hconservation hfee
    have hbalance :=
      (balance_ok_iff hkind hnative (by omega) _).mp ⟨hconservation, hfee⟩
    refine ⟨hle, hfits, hbalance, fun hmode => ?_⟩
    obtain ⟨hstamped, hquarter, hbound⟩ := (vestingVerdict_ok_iff hlive).mp (hvesting hmode)
    exact ⟨hstamped, hquarter, by omega⟩
  · rintro ⟨hle, hfits, hbalance, hvesting⟩
    obtain ⟨hconservation, hfee⟩ := (balance_ok_iff hkind hnative (by omega) _).mpr hbalance
    refine ⟨?_, hfits, hconservation, hfee, fun hmode => ?_⟩
    · rwa [nativeAmount_paying hnative]
    · obtain ⟨hstamped, hquarter, hbound⟩ := hvesting hmode
      exact (vestingVerdict_ok_iff hlive).mpr ⟨hstamped, hquarter, by omega⟩

theorem payouts_within_iff (hlive : vestingLive node) (hkind : tx.txType = .requestWithdrawal)
    (hnative : output.outputType = .normal ∨ output.outputType = .unbonding) :
    (∀ amount, PayoutRules node ctx (paying tx output amount) lookup owner →
        PenaltyPaid node (paying tx output amount) lookup) ↔
      PenaltyKept node (paying tx output 0) (consumedOutputs tx lookup) := by
  have hpaid : ∀ amount, PenaltyPaid node (paying tx output amount) lookup ↔
      amount ≤ total (vestedNet node) (consumedOutputs tx lookup) +
        total nonBondNative (consumedOutputs tx lookup) := by
    intro amount
    rw [PenaltyPaid, nativeAmount_paying hnative]
    rfl
  simp only [payoutRules_iff hlive hkind hnative, hpaid]
  constructor
  · intro hwithin
    by_contra hnot
    -- one unit more than the net passes every rule
    have hover := hwithin (total (vestedNet node) (consumedOutputs tx lookup) +
      total nonBondNative (consumedOutputs tx lookup) + 1)
    have hlost : ¬ total nativeAmount (consumedOutputs tx lookup) ≤
        total (vestedNet node) (consumedOutputs tx lookup) +
          total nonBondNative (consumedOutputs tx lookup) + minimumFee (paying tx output 0) :=
      fun hle => hnot (.lostInFee hle)
    have hsupply : ¬ totalSupply ≤ total (vestedNet node) (consumedOutputs tx lookup) +
        total nonBondNative (consumedOutputs tx lookup) :=
      fun hbeyond => hnot (.beyondSupply hbeyond)
    have hfits : ¬ 2 ^ 64 ≤ total nativeAmount (consumedOutputs tx lookup) :=
      fun hoverflow => hnot (.overflowing hoverflow)
    have hvesting (hmode : node.mode ≠ .replay) :
        (∀ spent ∈ consumedOutputs tx lookup, spent.outputType = .bond →
          (stampedSlot spent).isSome) ∧
        (0 < node.utxo.params.vestingQuarterSlots ∧
          node.utxo.params.vestingQuarterSlots ≤ 2 ^ 32 - 1) ∧
        0 < total nonNative (consumedOutputs tx lookup) := by
      have hquarter : ¬ (node.utxo.params.vestingQuarterSlots = 0 ∨
          2 ^ 32 - 1 < node.utxo.params.vestingQuarterSlots) :=
        fun hbad => hnot (.badQuarter hmode hbad)
      refine ⟨?_, by omega, Nat.pos_of_ne_zero fun hzero => hnot (.nativeOnly hmode hzero)⟩
      intro spent hspent hbond
      rw [Option.isSome_iff_ne_none]
      exact fun hnone => hnot (.unstamped hmode hspent hbond hnone)
    have hle := hover ⟨by omega, by omega, by omega, fun hmode =>
      ⟨(hvesting hmode).1, (hvesting hmode).2.1, Nat.add_le_add_left (hvesting hmode).2.2 _⟩⟩
    omega
  · rintro hkept amount ⟨hle, hfits, hbalance, hvesting⟩
    cases hkept with
    | nativeOnly hmode hzero =>
        have hbound := (hvesting hmode).2.2
        omega
    | lostInFee hlost => omega
    | unstamped hmode hspent hbond hnone =>
        have hsome := (hvesting hmode).1 _ hspent hbond
        simp [hnone] at hsome
    | badQuarter hmode hbad =>
        have hquarter := (hvesting hmode).2.1
        omega
    | beyondSupply hbeyond => omega
    | overflowing hoverflow => omega

end Verdict

/-! ## Accepted withdrawals -/

section Accepted

variable {node : BlockContext} {ctx : SpendingContext} {db : StateDb} {producers : ProducerSet}
  {txs : List Transaction} {tx : Transaction}

theorem AcceptedWithdrawal.inputs_nodup
    (haccepted : AcceptedWithdrawal node ctx db producers txs tx) :
    (tx.inputs.map inputOutpoint).Nodup := by
  have hall := (Validation.nodup_of_checkDoubleSpendFrom haccepted.doubleSpend).1
  exact (List.nodup_flatMap.mp hall).1 tx haccepted.member

theorem AcceptedWithdrawal.output
    (haccepted : AcceptedWithdrawal node ctx db producers txs tx) :
    ∃ output data, tx = paying tx output output.amount ∧
      tx.withdrawalRequestData = some data ∧
      (output.outputType = .normal ∨ output.outputType = .unbonding) := by
  have hstructure := Validation.structure_of_accepted haccepted.spending
  have hpayload := Validation.payload_of_structure (by simp [haccepted.kind])
    (by simp [haccepted.kind]) hstructure
  simp only [Validation.validatePayload, haccepted.kind, Validation.validateWithdrawalRequestData,
    bind_eq_ok, exists_unit, refuseIf_eq_ok, orRefuse_eq_ok] at hpayload
  obtain ⟨-, output, houtput, hnative, -, data, hdata, -⟩ := hpayload
  unfold Validation.soleOutput at houtput
  split at houtput
  case h_2 => contradiction
  case h_1 sole hsole =>
    obtain rfl := Except.ok.inj houtput
    refine ⟨sole, data, ?_, ?_, ?_⟩
    · simp only [paying, ← hsole]
    · simpa [Transaction.withdrawalRequestData, haccepted.kind] using hdata
    · by_contra hother
      exact hnative (not_or.mp hother)

/-- The block pass judges every withdrawal by the vesting rule, which stops all but a
replay. -/
theorem AcceptedWithdrawal.vesting
    (haccepted : AcceptedWithdrawal node ctx db producers txs tx) (hlive : vestingLive node)
    (hmode : node.mode ≠ .replay) {data : WithdrawalRequestData}
    (hdata : tx.withdrawalRequestData = some data) :
    vestingVerdict node tx db.getUtxo
      (node.utxo.prim.addressOf data.producerPubkey) = .ok () := by
  have hentered : economicsPassEntered node = true := by
    simp only [economicsPassEntered, decide_eq_true_eq]
    exact .inr (.inl hlive)
  obtain ⟨final, hrun⟩ := economics_run_of_entered hentered haccepted.economics
  obtain ⟨done, rest, rfl⟩ := List.append_of_mem haccepted.member
  obtain ⟨econ, -, hrest⟩ := run_append_ok.mp hrun
  obtain ⟨next, hstep, -⟩ := run_cons_ok.mp hrest
  simp only [econStep, haccepted.kind] at hstep
  split at hstep
  · contradiction
  case h_2 charged hcharged =>
    simp only [withdrawalStep, hdata] at hcharged
    split at hcharged
    · contradiction
    case h_2 held hheld =>
      simp only [vestingStep, if_neg hmode] at hcharged
      split at hcharged
      case h_1 hverdict => exact hverdict
      case h_2 => contradiction

theorem AcceptedWithdrawal.payoutRules
    (haccepted : AcceptedWithdrawal node ctx db producers txs tx) (hlive : vestingLive node)
    {data : WithdrawalRequestData} (hdata : tx.withdrawalRequestData = some data) :
    PayoutRules node ctx tx db.getUtxo (node.utxo.prim.addressOf data.producerPubkey) := by
  obtain ⟨output, _, hpaying, -, -⟩ := haccepted.output
  have hcoinbase : tx.isCoinbase = false := by
    simp [Transaction.isCoinbase, haccepted.kind]
  have hreward : tx.isEpochReward = false := by
    simp [Transaction.isEpochReward, haccepted.kind]
  have hspends : Spends ctx tx (consumedOutputs tx db.getUtxo) := by
    simpa [hcoinbase, hreward] using Validation.accepted_cases haccepted.spending
  have hbalance := (Validation.checkSpending_eq_ok.mp hspends.checked).2.2.1
  unfold Validation.checkBalance at hbalance
  split at hbalance
  case isTrue hstate =>
    have hempty := Validation.isStateOnly_outputs hstate
    rw [hpaying] at hempty
    contradiction
  case isFalse =>
    obtain ⟨hconservation, hfee⟩ := seq_eq_ok.mp hbalance
    exact ⟨Validation.native_le_of_structure
      (Validation.structure_of_accepted haccepted.spending), hspends.fits, hconservation, hfee,
      fun hmode => haccepted.vesting hlive hmode hdata⟩

/-- Above the gate the rules keep every payout within the net of the Bonds and the native DOLI
beside them exactly where what is spent does; an accepted withdrawal passes them and spends
each outpoint once, and a Bond is worth no less as it ages and never more than its amount. -/
theorem penalty_kept_iff (node : BlockContext) (hlive : vestingLive node) :
    (∀ (ctx : SpendingContext) (tx : Transaction) (output : Output)
        (lookup : Outpoint → Option UtxoEntry) (owner : Hash),
      tx.txType = .requestWithdrawal →
      output.outputType = .normal ∨ output.outputType = .unbonding →
        ((∀ amount, PayoutRules node ctx (paying tx output amount) lookup owner →
          PenaltyPaid node (paying tx output amount) lookup) ↔
            PenaltyKept node (paying tx output 0) (consumedOutputs tx lookup))) ∧
    (∀ (ctx : SpendingContext) (db : StateDb) (producers : ProducerSet)
        (txs : List Transaction) (tx : Transaction),
      AcceptedWithdrawal node ctx db producers txs tx →
        (tx.inputs.map inputOutpoint).Nodup ∧
        (∃ output data, tx = paying tx output output.amount ∧
          (output.outputType = .normal ∨ output.outputType = .unbonding) ∧
          tx.withdrawalRequestData = some data ∧
          PayoutRules node ctx tx db.getUtxo
            (node.utxo.prim.addressOf data.producerPubkey)) ∧
        (PenaltyKept node tx (consumedOutputs tx db.getUtxo) →
          PenaltyPaid node tx db.getUtxo)) ∧
    ∀ amount created slot quarterSlots,
      penalizedBondNet amount created slot quarterSlots ≤ amount ∧
        ∀ later, slot ≤ later → penalizedBondNet amount created slot quarterSlots ≤
          penalizedBondNet amount created later quarterSlots := by
  refine ⟨?exact, ?accepted, ?net⟩
  case exact =>
    intro ctx tx output lookup owner hkind hnative
    exact payouts_within_iff hlive hkind hnative
  case accepted =>
    intro ctx db producers txs tx haccepted
    obtain ⟨output, data, hpaying, hdata, hnative⟩ := haccepted.output
    have hrules := haccepted.payoutRules hlive hdata
    refine ⟨haccepted.inputs_nodup, ⟨output, data, hpaying, hnative, hdata, hrules⟩, ?_⟩
    intro hkept
    rw [hpaying] at hkept hrules ⊢
    -- the minimum fee of a withdrawal does not depend on what it pays
    have hsame : PenaltyKept node (paying tx output 0) (consumedOutputs tx db.getUtxo) := by
      cases hkept with
      | nativeOnly hmode hzero => exact .nativeOnly hmode hzero
      | lostInFee hlost => exact .lostInFee hlost
      | unstamped hmode hspent hbond hnone => exact .unstamped hmode hspent hbond hnone
      | badQuarter hmode hbad => exact .badQuarter hmode hbad
      | beyondSupply hbeyond => exact .beyondSupply hbeyond
      | overflowing hoverflow => exact .overflowing hoverflow
    exact (payouts_within_iff hlive haccepted.kind hnative).mpr hsame _ hrules
  case net =>
    intro amount created slot quarterSlots
    exact ⟨penalizedBondNet_le _ _ _ _, fun later hlater => penalizedBondNet_mono _ _ hlater _⟩

end Accepted

/-! ## A bond of the first quarter beside a token -/

/-- The gate of the penalty is open, and a quarter lasts a thousand slots. -/
def vestingContext : BlockContext :=
  { sampleBlockContext with
    utxo := { sampleUtxoContext with
      params := { sampleParams with incI171VestingPenaltyActivationHeight := 0 } } }

/-- A bond and another output. -/
def vestingDb (other : Output) : StateDb :=
  sampleDb [(⟨⟨900⟩, 0⟩, sampleEntry (sampleBond ⟨5⟩)), (⟨⟨900⟩, 1⟩, sampleEntry other)]

def vestingLedger : ProducerSet where
  producers := Finmap.insert (samplePrimitives.cryptoHash ⟨5⟩) (sampleProducer ⟨5⟩ 1) ∅
  exitHistory := ∅
  unbondingIndex := []
  pendingUpdates := []

/-- Spends the bond and the other output. -/
def vestingWithdrawal (amount : Nat) : Transaction where
  version := 1
  txType := .requestWithdrawal
  inputs := [Validation.sampleSpend 1 ⟨⟨900⟩, 0⟩, Validation.sampleSpend 1 ⟨⟨900⟩, 1⟩]
  outputs := [⟨.unbonding, amount, samplePrimitives.addressOf ⟨5⟩, 61480, []⟩]
  extraData := PublicKey.asBytes ⟨5⟩ ++ leBytes 4 1 ++
    Hash.asBytes (samplePrimitives.addressOf ⟨5⟩) ++ Signature.asBytes ⟨1⟩

theorem penalty_kept_iff_native :
    PenaltyPaid vestingContext (vestingWithdrawal 250000900)
      (vestingDb (Validation.samplePaid 1000)).getUtxo := by
  have haccepted : AcceptedWithdrawal vestingContext Validation.sampleSpendingContext
      (vestingDb (Validation.samplePaid 1000)) vestingLedger [vestingWithdrawal 250000900]
      (vestingWithdrawal 250000900) :=
    ⟨rfl, by simp, by decide +kernel, by decide +kernel, by decide +kernel⟩
  exact ((penalty_kept_iff vestingContext (by unfold vestingLive; decide)).2.1 _ _ _ _ _
    haccepted).2.2 (.nativeOnly (by decide) (by decide +kernel))

/-- A token of a thousand million units brings a bond of three quarters' penalty out whole,
less the fee. -/
theorem tokens_pay_penalty :
    AcceptedWithdrawal vestingContext Validation.sampleSpendingContext
        (vestingDb (Validation.sampleTokens 1000000000)) vestingLedger
        [vestingWithdrawal 999999000] (vestingWithdrawal 999999000) ∧
      vestingLive vestingContext ∧ vestingContext.mode = .full ∧
      ¬ PenaltyPaid vestingContext (vestingWithdrawal 999999000)
        (vestingDb (Validation.sampleTokens 1000000000)).getUtxo := by
  refine ⟨⟨rfl, by simp, by decide +kernel, by decide +kernel, by decide +kernel⟩,
    by unfold vestingLive; decide, rfl, ?_⟩
  unfold PenaltyPaid
  decide +kernel

end Doli.Node
