import Doli.Validation.Registration

/-!
# The rules of a transaction

`validate_transaction`, and the variant that leaves the proofs of sequential work of
registrations and slash evidence to its caller.
-/

namespace Doli.Validation

open Doli.Core Doli.Lib

/-- The types that judge the absence of inputs themselves. -/
def judgesOwnInputs (tx : Transaction) : Bool :=
  tx.isCoinbase ||
    match tx.txType with
    | .exit => true
    | .claimReward => true
    | .claimBond => true
    | .slashProducer => true
    | .addBond => true
    | .requestWithdrawal => true
    | .claimWithdrawal => true
    | .mintAsset => true
    | .burnAsset => true
    | .epochReward => true
    | .delegateBond => true
    | .revokeDelegation => true
    | .registration => true
    | .addMaintainer => true
    | .removeMaintainer => true
    | .protocolActivation => true
    | .priceAttestation => true
    | _ => false

/-- The types that judge the absence of outputs themselves. -/
def judgesOwnOutputs (kind : TxType) : Bool :=
  match kind with
  | .exit => true
  | .slashProducer => true
  | .addBond => true
  | .requestWithdrawal => true
  | .claimWithdrawal => true
  | .mintAsset => true
  | .burnAsset => true
  | .epochReward => true
  | .delegateBond => true
  | .revokeDelegation => true
  | .registration => true
  | .addMaintainer => true
  | .removeMaintainer => true
  | .protocolActivation => true
  | .priceAttestation => true
  | _ => false

def validateAddBondData (tx : Transaction) : Verdict := do
  refuseIf (tx.inputs = []) (.invalidAddBond "add bond transaction must have inputs")
  refuseIf (¬tx.outputs.any fun output => output.outputType = .bond)
    (.invalidAddBond "add bond must have a Bond output")
  refuseIf (tx.outputs.any fun output =>
      output.outputType ≠ .normal ∧ output.outputType ≠ .bond)
    (.invalidAddBond "add bond outputs must be Bond or Normal type")
  let data ← orRefuse (AddBondData.fromBytes tx.extraData)
    (.invalidAddBond "invalid add bond data")
  refuseIf (data.bondCount = 0) (.invalidAddBond "bond count must be positive")

def soleOutput (tx : Transaction) (error : ValidationError) :
    Except ValidationError Output :=
  match tx.outputs with
  | [output] => .ok output
  | _ => .error error

def validateWithdrawalRequestData (tx : Transaction) : Verdict := do
  refuseIf (tx.inputs = [])
    (.invalidWithdrawalRequest "withdrawal request must have Bond UTXO inputs")
  let output ← soleOutput tx
    (.invalidWithdrawalRequest "withdrawal request must have exactly 1 output")
  refuseIf (output.outputType ≠ .normal ∧ output.outputType ≠ .unbonding)
    (.invalidWithdrawalRequest "withdrawal output must be Normal type")
  refuseIf (output.amount = 0)
    (.invalidWithdrawalRequest "withdrawal output amount must be positive")
  let data ← orRefuse (WithdrawalRequestData.fromBytes tx.extraData)
    (.invalidWithdrawalRequest "invalid withdrawal request data")
  refuseIf (data.bondCount = 0)
    (.invalidWithdrawalRequest "withdrawal bond count must be positive")
  refuseIf (data.destination = ⟨0⟩)
    (.invalidWithdrawalRequest "destination cannot be zero hash")
  refuseIf (output.pubkeyHash ≠ data.destination)
    (.invalidWithdrawalRequest
      "output destination must match withdrawal data destination")

section

variable (rules : OpenRules) (ctx : ValidationContext)

def validatePayload (tx : Transaction) : Verdict :=
  match tx.txType with
  | .transfer => .ok ()
  | .coinbase => .ok ()
  | .registration => validateRegistrationData ctx tx
  | .slashProducer => validateSlashData ctx tx
  | .addBond => validateAddBondData tx
  | .requestWithdrawal => validateWithdrawalRequestData tx
  | .claimWithdrawal =>
      .error (.invalidClaimWithdrawal "ClaimWithdrawal is not supported")
  | .rotateBlsKey => (rotateStateless ctx tx).map fun _ => ()
  | _ => rules.typedPayload ctx tx

def validateTransaction (tx : Transaction) : Verdict := do
  refuseIf (tx.version ≠ 1) (.invalidVersion tx.version)
  refuseIf (tx.inputs = [] ∧ judgesOwnInputs tx = false)
    (.invalidTransaction "[ERRTX001] transaction must have inputs")
  refuseIf (tx.outputs = [] ∧ judgesOwnOutputs tx.txType = false)
    (.invalidTransaction "[ERRTX002] transaction must have outputs")
  refuseIf (isAmm tx.txType ∧ ctx.currentHeight < ctx.ammActivationHeight)
    (.ammNotActivated tx.txType.toNat ctx.ammActivationHeight ctx.currentHeight)
  let total ← validateOutputs rules ctx tx.outputs
  checkOutputPlacement ctx tx
  checkProducerAuth ctx tx
  refuseIf (totalSupply < total) (.amountExceedsSupply total totalSupply)
  validateNotSlashedRegistrant ctx tx
  validatePayload rules ctx tx

def validateTransactionSkipRegistrationVdf (tx : Transaction) : Verdict :=
  match tx.txType with
  | .registration => do
      refuseIf (tx.version ≠ 1) (.invalidVersion tx.version)
      let total ← validateOutputs rules ctx tx.outputs
      refuseIf (totalSupply < total) (.amountExceedsSupply total totalSupply)
      checkOutputPlacement ctx tx
      checkProducerAuth ctx tx
      validateNotSlashedRegistrant ctx tx
      validateRegistrationDataSkipVdf ctx tx
  | .slashProducer => do
      refuseIf (tx.version ≠ 1) (.invalidVersion tx.version)
      checkOutputPlacement ctx tx
      validateSlashDataSkipVdf ctx tx
  | _ => validateTransaction rules ctx tx

end

/-! ## What acceptance gives -/

variable {rules : OpenRules} {ctx : ValidationContext} {tx : Transaction}

theorem validateTransaction_eq_ok :
    validateTransaction rules ctx tx = .ok () ↔
      tx.version = 1 ∧ ¬(tx.inputs = [] ∧ judgesOwnInputs tx = false) ∧
        ¬(tx.outputs = [] ∧ judgesOwnOutputs tx.txType = false) ∧
          ¬(isAmm tx.txType ∧ ctx.currentHeight < ctx.ammActivationHeight) ∧
            ∃ total, validateOutputs rules ctx tx.outputs = .ok total ∧
              checkOutputPlacement ctx tx = .ok () ∧ checkProducerAuth ctx tx = .ok () ∧
                total ≤ totalSupply ∧ validateNotSlashedRegistrant ctx tx = .ok () ∧
                  validatePayload rules ctx tx = .ok () := by
  simp only [validateTransaction, bind_eq_ok, exists_unit, refuseIf_eq_ok, not_not, not_lt]

end Doli.Validation
