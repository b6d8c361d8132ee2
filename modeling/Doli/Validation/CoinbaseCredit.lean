import Doli.Validation.PoolChange
import Doli.Validation.ShareChange

/-!
# The coinbase credit of a transaction

A block may mint, over its reward, the per-byte fees of its transactions.  An accepted
transaction burned at least what it is credited.
-/

namespace Doli.Validation

open Doli.Core Doli.Lib Doli.Storage

/-- The per-byte fees, a `u64` sum. -/
def txCoinbaseCredit (exemptGateActive : Bool) (tx : Transaction) : Nat :=
  if exemptGateActive && isNativeFeeExempt tx.txType then 0
  else
    total (fun output => output.extraData.length * feePerByte / feeDivisor) tx.outputs % 2 ^ 64

/-- The coinbase, the EpochReward and the registrations of the genesis pay no fee. -/
def paysExtraFees (tx : Transaction) : Bool :=
  !(tx.isCoinbase || tx.isEpochReward ||
    tx.txType = .registration && tx.inputs.isEmpty && tx.outputs.isEmpty)

theorem txCoinbaseCredit_le_fee (exemptGateActive : Bool) (tx : Transaction) :
    txCoinbaseCredit exemptGateActive tx ≤ extraBytes tx * feePerByte / feeDivisor := by
  unfold txCoinbaseCredit
  split
  · exact Nat.zero_le _
  · have hfloor := total_div_le (fun output : Output => output.extraData.length * feePerByte)
      feeDivisor tx.outputs
    have hbytes : total (fun output : Output => output.extraData.length * feePerByte)
        tx.outputs = extraBytes tx * feePerByte := by
      simp [feePerByte, extraBytes]
    rw [hbytes] at hfloor
    exact (Nat.mod_le _ _).trans hfloor

theorem txCoinbaseCredit_of_empty {tx : Transaction} (hempty : tx.outputs = [])
    (exemptGateActive : Bool) : txCoinbaseCredit exemptGateActive tx = 0 := by
  simp [txCoinbaseCredit, hempty]

/-! ## Normal outputs -/

section

variable {rules : OpenRules} {base : ValidationContext} {tx : Transaction}

theorem checkOutput_plain {earlier : List Output} {sum next : Nat} {output : Output}
    (hok : checkOutput rules base earlier sum output = .ok next)
    (hnormal : output.outputType = .normal) : output.extraData = [] := by
  simp only [checkOutput, bind_eq_ok, exists_unit, checkOutputType, hnormal, refuseIf_eq_ok,
    not_not] at hok
  exact hok.2.2.2.2.1.2

theorem validateOutputsFrom_plain {earlier outputs : List Output} {sum final : Nat}
    (hok : validateOutputsFrom rules base earlier outputs sum = .ok final) :
    ∀ output ∈ outputs, output.outputType = .normal → output.extraData = [] := by
  induction outputs generalizing earlier sum with
  | nil => simp
  | cons first outputs ih =>
      obtain ⟨next, hnext, hrest⟩ := bind_eq_ok.mp hok
      intro output houtput
      rcases List.mem_cons.mp houtput with rfl | hmem
      · exact checkOutput_plain hnext
      · exact ih hrest output hmem

theorem plain_of_epochReward (hreward : tx.isEpochReward = true)
    (hstructure : validateTransactionSkipRegistrationVdf rules base tx = .ok ()) :
    ∀ output ∈ tx.outputs, output.outputType = .normal → output.extraData = [] := by
  have htype : tx.txType = .epochReward := of_decide_eq_true hreward
  simp only [validateTransactionSkipRegistrationVdf, htype] at hstructure
  obtain ⟨-, -, -, -, sum, hsum, -⟩ := validateTransaction_eq_ok.mp hstructure
  exact validateOutputsFrom_plain hsum

end

theorem txCoinbaseCredit_of_plain {tx : Transaction}
    (hplain : ∀ output ∈ tx.outputs, output.extraData = []) (exemptGateActive : Bool) :
    txCoinbaseCredit exemptGateActive tx = 0 := by
  have hnone : total (fun output : Output => output.extraData.length * feePerByte / feeDivisor)
      tx.outputs = 0 :=
    total_eq_zero fun output houtput => by simp [hplain output houtput]
  simp [txCoinbaseCredit, hnone]

/-! ## EpochReward -/

theorem epochRewardInputs_spec {utxo : UtxoContext} {lookup : Outpoint → Option UtxoEntry}
    {inputs : List Input} {index sum amount : Nat}
    (hok : utxo.epochRewardInputs lookup inputs index sum = .ok amount) :
    amount = sum + total nativeAmount
      (inputs.filterMap fun input => (lookup (inputOutpoint input)).map UtxoEntry.output) := by
  induction inputs generalizing index sum with
  | nil =>
      cases hok
      rfl
  | cons input inputs ih =>
      simp only [UtxoContext.epochRewardInputs] at hok
      split at hok
      · contradiction
      case h_2 entry hentry =>
        split at hok
        · contradiction
        · split at hok
          · contradiction
          case h_2 next hnext =>
            have hadded : next = sum + nativeAmount entry.output := by
              unfold UtxoContext.addNative at hnext
              unfold nativeAmount
              split at hnext
              case isTrue hnative =>
                rw [if_pos hnative]
                split at hnext
                · cases hnext
                  rfl
                · contradiction
              case isFalse hother =>
                rw [if_neg hother]
                cases hnext
                rfl
            rw [ih hok, hadded, List.filterMap_cons, hentry, Option.map_some, total_cons,
              Nat.add_assoc]

section

variable {ctx : SpendingContext} {tx : Transaction} {lookup : Outpoint → Option UtxoEntry}

theorem native_le_of_epochReward (hreward : tx.isEpochReward = true) (hinputs : tx.inputs ≠ [])
    (hok : ctx.validateTransactionWithUtxos tx lookup = .ok ()) :
    total nativeAmount tx.outputs ≤ total nativeAmount (consumedOutputs tx lookup) := by
  have hstructure := structure_of_accepted hok
  have htotal := totalOutput_eq (native_le_of_structure hstructure)
  have htype : tx.txType = .epochReward := of_decide_eq_true hreward
  have hcoinbase : tx.isCoinbase = false := by simp [Transaction.isCoinbase, htype]
  unfold SpendingContext.validateTransactionWithUtxos
    UtxoContext.validateTransactionWithUtxos at hok
  split at hok
  · contradiction
  · rw [hcoinbase, if_neg Bool.false_ne_true, if_pos hreward,
      if_neg (by simpa using hinputs)] at hok
    split at hok
    · contradiction
    case h_2 amount hamount =>
      have hsum := epochRewardInputs_spec hamount
      rw [Nat.zero_add] at hsum
      split at hok
      · contradiction
      case isFalse hcovered =>
        rw [htotal, hsum] at hcovered
        exact Nat.not_lt.mp hcovered

/-! ## Every type -/

theorem Spends.credit_le {consumed : List Output}
    (hstructure : validateTransactionSkipRegistrationVdf ctx.rules.withPools ctx.base tx =
      .ok ())
    (hpays : isNativeFeeExempt tx.txType = false) (hspends : Spends ctx tx consumed)
    (exemptGateActive : Bool) :
    tx.outputs = [] ∨ txCoinbaseCredit exemptGateActive tx + total nativeAmount tx.outputs ≤
      total nativeAmount consumed := by
  have hbalance := (checkSpending_eq_ok.mp hspends.checked).2.2.1
  unfold checkBalance at hbalance
  split at hbalance
  case isTrue hstate => exact .inl (isStateOnly_outputs hstate)
  case isFalse =>
    have hfee := (seq_eq_ok.mp hbalance).2
    unfold checkFee at hfee
    split at hfee
    case isTrue hexempt =>
      left
      rw [hpays, Bool.false_or] at hexempt
      simp only [slashFeeExempt, Bool.and_eq_true, decide_eq_true_eq] at hexempt
      exact outputs_of_validateSlash hexempt.2
    case isFalse =>
      right
      rw [refuseIf_eq_ok, not_lt, totalOutput_eq (native_le_of_structure hstructure)] at hfee
      have hcredit := txCoinbaseCredit_le_fee exemptGateActive tx
      unfold minimumFee baseFee at hfee
      omega

theorem isAmm_of_pays {kind : TxType} (hpays : isNativeFeeExempt kind = false) :
    isAmm kind = false := by
  cases kind <;> simp_all [isNativeFeeExempt, isAmm]

/-- With the gates open an accepted transaction took in the DOLI it gives out, in amounts
and in reserves, and the credit on top of that. -/
theorem credit_backed (hopen : ctx.GatesOpen) (hcoinbase : tx.isCoinbase = false)
    (hexplicit : tx.isEpochReward = true → tx.inputs ≠ [])
    (hok : ctx.validateTransactionWithUtxos tx lookup = .ok ()) :
    txCoinbaseCredit true tx + total Output.doliValue tx.outputs ≤
      total Output.doliValue (consumedOutputs tx lookup) := by
  have hstructure := structure_of_accepted hok
  rcases accepted_cases hok with hminted | hreward | hspends
  · rw [hcoinbase] at hminted
    contradiction
  · have hnormal := normal_of_reward hopen (.inr hreward) hstructure
    have hplain := plain_of_epochReward hreward hstructure
    have hcredit := txCoinbaseCredit_of_plain
      (fun output houtput => hplain output houtput (hnormal output houtput)) true
    have hnone : ∀ output ∈ tx.outputs, output.outputType ≠ .pool := by
      intro output houtput hpool
      rw [hnormal output houtput] at hpool
      contradiction
    have hnative := native_le_of_epochReward hreward (hexplicit hreward) hok
    have hworth : total nativeAmount (consumedOutputs tx lookup) ≤
        total Output.doliValue (consumedOutputs tx lookup) :=
      total_le_total fun output _ => nativeAmount_le_doliValue output
    rw [total_doliValue_of_poolless hnone]
    omega
  · cases hpays : isNativeFeeExempt tx.txType with
    | true =>
        have hcredit : txCoinbaseCredit true tx = 0 := by simp [txCoinbaseCredit, hpays]
        have hdoli := hspends.doli_le hopen hstructure
        omega
    | false =>
        have hpoolless := hspends.poolless hopen (isAmm_of_pays hpays) hstructure
        rw [total_doliValue_of_poolless hpoolless.declared,
          total_doliValue_of_poolless hpoolless.spent]
        rcases hspends.credit_le hstructure hpays true with hempty | hpaid
        · rw [txCoinbaseCredit_of_empty hempty, hempty]
          exact Nat.zero_le _
        · exact hpaid

end

end Doli.Validation
