import Doli.Validation.Payload

/-!
# The outputs of a transaction

Amounts, sizes and shapes output by output, then where Unbonding, Bond and Pool
outputs may stand.
-/

namespace Doli.Validation

open Doli.Core Doli.Lib

/-! ## Output by output -/

/-- The types whose amount may be zero. -/
def allowsZeroAmount : OutputType → Bool
  | .pool => true
  | .zkRollup => true
  | .oraclePrice => true
  | _ => false

section

variable (rules : OpenRules) (ctx : ValidationContext)

/-- The consistency of one output with its type. -/
def checkOutputType (earlier : List Output) (output : Output) : Verdict :=
  let index := earlier.length
  match output.outputType with
  | .normal => do
      refuseIf (output.lockUntil ≠ 0)
        (.invalidTransaction
          s!"[ERRTX005] normal output {index} has non-zero lock_until={output.lockUntil}")
      refuseIf (output.extraData ≠ [])
        (.invalidTransaction
          s!"[ERRTX006] normal output {index} has non-empty extra_data ({output.extraData.length} bytes)")
  | .unbonding =>
      refuseIf (output.lockUntil = 0 ∨ output.extraData ≠ [])
        (.invalidTransaction
          s!"[ERRTX-UNBOND007] unbonding output {index} needs a non-zero lock_until and empty extra_data")
  | .bond => do
      refuseIf (output.lockUntil = 0)
        (.invalidBond s!"bond output {index} has zero lock_until")
      refuseIf (output.extraData.length ≠ 4)
        (.invalidTransaction
          s!"[ERRTX007] bond output {index} has {output.extraData.length} bytes extra_data, expected 4 (creation_slot)")
  | _ => rules.typedOutput ctx earlier index output

/-- The native total with this output, if it passes. -/
def checkOutput (earlier : List Output) (total : Nat) (output : Output) :
    Except ValidationError Nat := do
  let index := earlier.length
  refuseIf (output.amount = 0 ∧ allowsZeroAmount output.outputType = false)
    (.invalidTransaction s!"[ERRTX003] output {index} has zero amount")
  refuseIf (output.outputType.isNativeAmount ∧ totalSupply < output.amount)
    (.amountExceedsSupply output.amount totalSupply)
  let next := if output.outputType.isNativeAmount then total + output.amount else total
  refuseIf (2 ^ 64 ≤ next) (.amountOverflow index)
  refuseIf (maxExtraDataSize ctx.currentHeight < output.extraData.length)
    (.invalidTransaction s!"[ERRTX004] output {index} extra_data exceeds max size")
  checkOutputType rules ctx earlier output
  refuseIf (output.pubkeyHash = ⟨0⟩)
    (.invalidTransaction s!"[ERRTX032] output {index} has zero pubkey_hash (amount={output.amount})")
  return next

def validateOutputsFrom (earlier : List Output) : List Output → Nat →
    Except ValidationError Nat
  | [], total => .ok total
  | output :: rest, total => do
      let next ← checkOutput rules ctx earlier total output
      validateOutputsFrom (earlier ++ [output]) rest next

def validateOutputs (outputs : List Output) : Except ValidationError Nat :=
  validateOutputsFrom rules ctx [] outputs 0

end

/-! ## Placement -/

/-- The Bond and Unbonding rules are those of the UTXO layer, at the gates of the
context. -/
def ValidationContext.utxo (ctx : ValidationContext) : UtxoContext where
  prim := ctx.crypto.primitives
  params :=
    { ctx.network.params with
      incI257UnbondingActivationHeight := ctx.incI257UnbondingActivationHeight
      unbondingPeriod := ctx.unbondingPeriod }
  rules := { structural _ _ := true, spending _ _ _ := true }

def isAmm : TxType → Bool
  | .createPool => true
  | .swap => true
  | .addLiquidity => true
  | .removeLiquidity => true
  | _ => false

def poolIndices (outputs : List Output) : List Nat :=
  (outputs.zipIdx.filter fun row => row.1.outputType = .pool).map Prod.snd

/-- From the activation height on, Pool outputs stand alone at the head of an AMM
transaction and a coinbase is Normal only. -/
def checkPoolPlacement (ctx : ValidationContext) (tx : Transaction) : Verdict :=
  if ctx.currentHeight < ctx.incI234ActivationHeight then .ok ()
  else if tx.isCoinbase then
    refuseIf (tx.outputs.any fun output => output.outputType ≠ .normal)
      (.invalidTransaction "[ERRTX-AUTH005] coinbase output is not Normal")
  else if isAmm tx.txType then
    refuseIf (poolIndices tx.outputs ≠ [0])
      (.invalidTransaction
        "[ERRTX-AUTH001] must carry exactly one Pool output at index 0")
  else
    refuseIf (poolIndices tx.outputs ≠ [])
      (.invalidTransaction "[ERRTX-AUTH001] may not create Pool outputs")

def checkOutputPlacement (ctx : ValidationContext) (tx : Transaction) : Verdict := do
  (ctx.utxo.checkUnbondingOutputs ctx.ruleHeight tx).mapError .placement
  (ctx.utxo.checkBondOutputs ctx.ruleHeight tx).mapError .placement
  checkPoolPlacement ctx tx

/-! ## What acceptance gives -/

theorem checkOutputPlacement_eq_ok {ctx : ValidationContext} {tx : Transaction} :
    checkOutputPlacement ctx tx = .ok () ↔
      ctx.utxo.checkUnbondingOutputs ctx.ruleHeight tx = .ok () ∧
        ctx.utxo.checkBondOutputs ctx.ruleHeight tx = .ok () ∧
          checkPoolPlacement ctx tx = .ok () := by
  rw [checkOutputPlacement, seq_eq_ok, seq_eq_ok, mapError_eq_ok, mapError_eq_ok]

theorem bond_owner_of_checkBondOutputs {utxo : UtxoContext} {height : Nat} {tx : Transaction}
    {producer : PublicKey} (hactive : utxo.params.incI257UnbondingActivationHeight ≤ height)
    (hproducer : utxo.bondProducer tx = .ok producer)
    (hok : utxo.checkBondOutputs height tx = .ok ()) :
    ∀ output ∈ tx.outputs, output.outputType = .bond →
      output.pubkeyHash = utxo.prim.addressOf producer := by
  intro output houtput htype
  have hany : (tx.outputs.any fun output => output.outputType = .bond) = true := by
    rw [List.any_eq_true]
    exact ⟨output, houtput, decide_eq_true htype⟩
  rw [UtxoContext.checkBondOutputs, if_neg (Nat.not_lt.mpr hactive), if_pos hany,
    hproducer] at hok
  dsimp only at hok
  split at hok
  case h_1 => simp at hok
  case h_2 hindex =>
    have hgood := List.findIdx?_eq_none_iff.mp hindex output houtput
    rw [decide_eq_false_iff_not] at hgood
    exact not_not.mp fun howner => hgood ⟨htype, .inl howner⟩

theorem payout_owner_of_checkWithdrawalPayout {utxo : UtxoContext} {height : Nat}
    {tx : Transaction} (hok : utxo.checkWithdrawalPayout height tx = .ok ()) :
    ∃ output data, tx.outputs = [output] ∧
      WithdrawalRequestData.fromBytes tx.extraData = some data ∧
        output.outputType = .unbonding ∧
          output.pubkeyHash = utxo.prim.addressOf data.producerPubkey := by
  unfold UtxoContext.checkWithdrawalPayout at hok
  split at hok
  case h_1 output houtputs =>
    split at hok
    case h_1 => simp at hok
    case h_2 data hdata =>
      split at hok
      case isTrue hpayout => exact ⟨output, data, houtputs, hdata, hpayout.1, hpayout.2.1⟩
      case isFalse => simp at hok
  case h_2 => simp at hok

@[simp] theorem validateOutputs_nil (rules : OpenRules) (ctx : ValidationContext) :
    validateOutputs rules ctx [] = .ok 0 := rfl

end Doli.Validation
