import Doli.Mempool.Verdicts

/-!
# Admission

What `add_transaction` refuses before it changes anything but the watermark, in the order
of its checks.
-/

namespace Doli

open Doli.Core Doli.Lib Doli.Storage Doli.Producer Doli.Node
open Validation (ValidationContext needsPool isConditioned isAmmPoolTx isNativeFeeExempt
  nativeAmount minimumFee slashFeeExempt signingMessageForInput evalEnv checkValueAuthority
  verifyAmmConservation validateTransaction rotateStateless)

structure ContentionInfo where
  competingCount : Nat
  poolUtxoTx : Hash
  poolUtxoIndex : Nat
  deriving DecidableEq, Repr

/-- What an admitted transaction is inserted with. -/
structure Admission where
  txHash : Hash
  fee : Nat
  judged : Option ValidationContext
  slashExempt : Bool
  ancestors : Finset Hash
  poolOutpoint : Option Outpoint
  contention : Option ContentionInfo

section

variable (config : MempoolConfig) (view : NodeView) (pool : Mempool) (db : StateDb)
  (tx : Transaction)

/-! ## The rules without inputs -/

def rotationAdmissible (ctx : ValidationContext) : Except MempoolError Unit :=
  if tx.txType = .rotateBlsKey then
    ((rotateStateless ctx tx).map fun _ => ()).mapError fun error =>
      .invalidTransaction (.rotation error)
  else .ok ()

/-- Size, shape and payload, judged at the tip; slashes at the height after it. -/
def admitStructure (height slot : Nat) : Except MempoolError (Option ValidationContext) := do
  let txHash := config.prim.txHash tx
  refuseIf (txHash ∈ pool.entries) .alreadyExists
  refuseIf (pool.policy.maxTxSize < config.size tx)
    (.tooLarge (config.size tx) pool.policy.maxTxSize)
  let ctx := config.admissionBaseCtx view height slot (pendingKeysFor config view pool tx txHash)
  rotationAdmissible tx ctx
  let judged ← admissionCtx view ctx db tx
  (validateTransaction config.gates.rules.withPools ctx tx).mapError .validation
  residentRefusal ctx tx pool.residents
  return judged

/-! ## Signatures and conditions -/

/-- The Pool in front of an AMM transaction is authorized by the invariant. -/
def ammPoolInputExempt (height index : Nat) (spent : Output) : Bool :=
  decide (config.gates.incI092ActivationHeight ≤ height) && decide (index = 0) &&
    needsPool tx.txType && decide (spent.outputType = .pool)

/-- The outputs that are spent by a signature at the tip. -/
def signatureRequired (height index : Nat) (spent : Output) : Bool :=
  !isConditioned spent.outputType && decide (config.sigVerificationHeight ≤ height) &&
    !ammPoolInputExempt config tx height index spent

def checkInputSignature (index : Nat) (input : Input) (spent : Output) :
    Except Refusal Unit := do
  let key ← orRefuse input.publicKey (.missingPublicKey index config.sigVerificationHeight)
  refuseIf (spent.pubkeyHash ≠ config.prim.addressOf key)
    (.pubkeyHashMismatch index spent.pubkeyHash (config.prim.addressOf key))
  refuseIf (config.crypto.verifyHash (signingMessageForInput config.crypto tx input)
      input.signature key = false)
    (.invalidSignature index)

def checkInputCondition (height index : Nat) (input : Input) (spent : Output) :
    Except Refusal Unit := do
  let condition ← ((Condition.decodePrefix spent.extraData).map Prod.fst).mapError fun error =>
    .invalidCondition index error
  refuseIf (maxConditionOps < condition.opsCount) (.tooManyOps index condition.opsCount)
  let witness ← (Witness.decode config.crypto.validKey
      ((tx.getCovenantWitness index).getD [])).mapError fun error =>
    .invalidWitness index error
  refuseIf (((evalEnv config.crypto height tx input witness).evaluate condition 0).1 = false)
    (.conditionNotSatisfied index)

/-- Only an input of the UTXO set is checked. -/
def checkSpend (height : Nat) (row : Input × Nat) : Except Refusal Unit :=
  match db.getUtxo (inputOutpoint row.1) with
  | none => .ok ()
  | some entry => do
      checkWhen (signatureRequired config tx height row.2 entry.output)
        (checkInputSignature config tx row.2 row.1 entry.output)
      checkWhen (isConditioned entry.output.outputType)
        (checkInputCondition config tx height row.2 row.1 entry.output)

/-- Signatures and conditions, then the rules on bonds. -/
def admitSpends (height : Nat) : Except Refusal Unit := do
  checkEach (checkSpend config db tx height) tx.inputs.zipIdx
  withdrawalVerdict config view pool db tx height true true
  bondSpendRefusal config tx (slashBondOwners config pool height) db
  addbondHoldingsVerdict config view tx height

/-! ## Inputs and fee -/

/-- The output of a resident parent. -/
def parentOutput (input : Input) : Option (MempoolEntry × Output) :=
  (pool.entries.lookup input.prevTxHash).bind fun parent =>
    parent.tx.outputs[input.outputIndex]?.map fun output => (parent, output)

/-- One input of `calculate_inputs`: the mempool is asked before the UTXO set, and the total
is a `u64`. -/
def calculateInput (height : Nat) (sum : Nat × Finset Hash) (input : Input) :
    Except MempoolError (Nat × Finset Hash) :=
  match parentOutput pool input with
  | some (parent, output) => do
      (checkOutput config tx.txType output height).mapError .invalidTransaction
      return ((sum.1 + nativeAmount output) % 2 ^ 64,
        sum.2 ∪ insert input.prevTxHash parent.ancestors)
  | none =>
      match db.getUtxo (inputOutpoint input) with
      | some utxo => do
          (checkUtxo config tx.txType utxo height).mapError .invalidTransaction
          return ((sum.1 + nativeAmount utxo.output) % 2 ^ 64, sum.2)
      | none => .error (.missingInput input.prevTxHash input.outputIndex)

def calculateInputs (height : Nat) : Except MempoolError (Nat × Finset Hash) :=
  run (calculateInput config pool db tx height) tx.inputs (0, ∅)

/-- The UTXO set is asked before the mempool. -/
def consumedOutput (input : Input) : Option Output :=
  ((db.getUtxo (inputOutpoint input)).map UtxoEntry.output).or
    ((parentOutput pool input).map Prod.snd)

def resolveConsumedOutputs : List Input → Except MempoolError (List Output)
  | [] => .ok []
  | input :: inputs => do
      let output ← orRefuse (consumedOutput pool db input)
        (.missingInput input.prevTxHash input.outputIndex)
      let outputs ← resolveConsumedOutputs inputs
      return output :: outputs

def ammGated (height : Nat) : Bool :=
  isAmmPoolTx tx && decide (config.gates.incI096ActivationHeight ≤ height)

def authorityGated (height : Nat) : Bool :=
  decide (config.gates.base.incI234ActivationHeight ≤ height)

/-- `ValidationError::InsufficientFunds` is reported under the code of the mempool. -/
def conservationError : Validation.ValidationError → MempoolError
  | .insufficientFunds inputs outputs => .invalidTransaction (.insufficientFunds inputs outputs)
  | error => .validation error

/-- The fee: the DOLI surplus of a pool transaction, else inputs less outputs. -/
def calculateFee (height totalInput : Nat) (consumed : List Output) :
    Except MempoolError Nat :=
  if ammGated config tx height then
    ((verifyAmmConservation tx.txType consumed tx.outputs).mapError conservationError).map
      fun _ => (total Output.doliValue consumed - total Output.doliValue tx.outputs) % 2 ^ 64
  else do
    refuseIf (totalInput < UtxoContext.totalOutput tx)
      (.invalidTransaction (.insufficientFunds totalInput (UtxoContext.totalOutput tx)))
    return totalInput - UtxoContext.totalOutput tx

def checkFee (height fee : Nat) (slashExempt : Bool) : Except MempoolError Unit :=
  checkWhen (!ammGated config tx height && !(isNativeFeeExempt tx.txType || slashExempt)) do
    refuseIf (fee < minimumFee tx) (.feeTooLow fee (minimumFee tx))
    refuseIf (0 < pool.policy.minFeeRate ∧ fee / config.size tx < pool.policy.minFeeRate)
      (.feeTooLow (fee / config.size tx) pool.policy.minFeeRate)

/-- The fee and the resident ancestors of a transaction that can pay. -/
def admitPayment (height slot : Nat) (slashExempt : Bool) :
    Except MempoolError (Nat × Finset Hash) := do
  let ctx := config.admissionBaseCtx view height slot
    (pendingKeysFor config view pool tx (config.prim.txHash tx))
  let inputs ← calculateInputs config pool db tx height
  let consumed ←
    if ammGated config tx height || authorityGated config height then
      resolveConsumedOutputs pool db tx.inputs
    else .ok []
  checkWhen (authorityGated config height)
    ((checkValueAuthority ctx tx consumed).mapError .validation)
  let fee ← calculateFee config tx height inputs.1 consumed
  checkFee config pool tx height fee slashExempt
  return (fee, inputs.2)

/-! ## Limits and conflicts -/

def checkDescendants (hash : Hash) : Except MempoolError Unit :=
  match pool.entries.lookup hash with
  | none => .ok ()
  | some ancestor =>
      refuseIf (pool.policy.maxDescendants ≤ ancestor.descendants.card)
        (.tooManyDescendants (ancestor.descendants.card + 1) pool.policy.maxDescendants)

/-- `find_pool_input`: the first input that spends a Pool of the UTXO set. -/
def findPoolInput : Option Outpoint :=
  (tx.inputs.find? fun input =>
    (db.getUtxo (inputOutpoint input)).any fun entry => entry.output.outputType = .pool).map
      inputOutpoint

def poolInput : Option Outpoint :=
  if isPoolContentionType tx.txType then findPoolInput db tx else none

def contentionInfo (outpoint : Outpoint) : Option ContentionInfo :=
  (pool.poolUtxoContention.lookup outpoint).map fun competing =>
    ⟨competing.card, outpoint.txHash, outpoint.index⟩

def checkDoubleSpend (input : Input) : Except MempoolError Unit :=
  match pool.spentOutputs.lookup (inputOutpoint input) with
  | none => .ok ()
  | some spending =>
      refuseIf (spending ≠ config.prim.txHash tx)
        (.doubleSpend input.prevTxHash input.outputIndex spending)

def checkLimits (ancestors : Finset Hash) : Except MempoolError Unit := do
  refuseIf (pool.policy.maxAncestors < ancestors.card)
    (.tooManyAncestors ancestors.card pool.policy.maxAncestors)
  checkEach (checkDescendants pool) (listing Hash.bytesLe ancestors)
  checkEach (checkDoubleSpend config pool tx) tx.inputs

def admissionOf (height slot : Nat) : Except MempoolError Admission := do
  let judged ← admitStructure config view pool db tx height slot
  (admitSpends config view pool db tx height).mapError .invalidTransaction
  let slashExempt := judged.any fun ctx => slashFeeExempt ctx tx
  let payment ← admitPayment config view pool db tx height slot slashExempt
  checkLimits config pool tx payment.2
  let outpoint := poolInput db tx
  return ⟨config.prim.txHash tx, payment.1, judged, slashExempt, payment.2, outpoint,
    outpoint.bind (contentionInfo pool)⟩

end

/-! ## What admission gives -/

section

variable {config : MempoolConfig} {view : NodeView} {pool : Mempool} {db : StateDb}
  {tx : Transaction} {height slot : Nat} {admission : Admission}

theorem admissionOf_eq_ok :
    admissionOf config view pool db tx height slot = .ok admission ↔
      ∃ judged payment, admitStructure config view pool db tx height slot = .ok judged ∧
        admitSpends config view pool db tx height = .ok () ∧
          admitPayment config view pool db tx height slot
              (judged.any fun ctx => slashFeeExempt ctx tx) = .ok payment ∧
            checkLimits config pool tx payment.2 = .ok () ∧
              admission = ⟨config.prim.txHash tx, payment.1, judged,
                judged.any fun ctx => slashFeeExempt ctx tx, payment.2, poolInput db tx,
                (poolInput db tx).bind (contentionInfo pool)⟩ := by
  simp only [admissionOf, bind_eq_ok, exists_unit, mapError_eq_ok, pure, Except.pure,
    Except.ok.injEq]
  constructor
  · rintro ⟨judged, hjudged, hspends, payment, hpayment, hlimits, rfl⟩
    exact ⟨judged, payment, hjudged, hspends, hpayment, hlimits, rfl⟩
  · rintro ⟨judged, payment, hjudged, hspends, hpayment, hlimits, rfl⟩
    exact ⟨judged, hjudged, hspends, payment, hpayment, hlimits, rfl⟩

theorem admitPayment_eq_ok {slashExempt : Bool} {payment : Nat × Finset Hash} :
    admitPayment config view pool db tx height slot slashExempt = .ok payment ↔
      ∃ inputs consumed fee, calculateInputs config pool db tx height = .ok inputs ∧
        (if ammGated config tx height || authorityGated config height then
          resolveConsumedOutputs pool db tx.inputs else .ok []) = .ok consumed ∧
          (authorityGated config height = true →
            checkValueAuthority (config.admissionBaseCtx view height slot
              (pendingKeysFor config view pool tx (config.prim.txHash tx))) tx consumed =
                .ok ()) ∧
            calculateFee config tx height inputs.1 consumed = .ok fee ∧
              checkFee config pool tx height fee slashExempt = .ok () ∧
                payment = (fee, inputs.2) := by
  have hpair : ∀ fee ancestors, ((fee, ancestors) : Nat × Finset Hash) = payment ↔
      payment = (fee, ancestors) := fun _ _ => eq_comm
  unfold admitPayment
  rw [bind_eq_ok]
  simp only [pick_eq_ok, bind_eq_ok, exists_unit, checkWhen_eq_ok, mapError_eq_ok, pure,
    Except.pure, Except.ok.injEq, hpair]
  constructor
  · rintro ⟨inputs, hinputs, consumed, hconsumed, hauthority, fee, hfee, hchecked, hsame⟩
    exact ⟨inputs, consumed, fee, hinputs, hconsumed, hauthority, hfee, hchecked, hsame⟩
  · rintro ⟨inputs, consumed, fee, hinputs, hconsumed, hauthority, hfee, hchecked, hsame⟩
    exact ⟨inputs, hinputs, consumed, hconsumed, hauthority, fee, hfee, hchecked, hsame⟩

theorem notMem_of_admitStructure {judged : Option ValidationContext}
    (hok : admitStructure config view pool db tx height slot = .ok judged) :
    config.prim.txHash tx ∉ pool.entries := by
  simp only [admitStructure, bind_eq_ok, exists_unit, refuseIf_eq_ok] at hok
  exact hok.1

theorem spent_of_checkLimits {ancestors : Finset Hash}
    (hok : checkLimits config pool tx ancestors = .ok ()) {outpoint : Outpoint}
    (hmem : outpoint ∈ tx.inputs.map inputOutpoint) {hash : Hash}
    (hspent : pool.spentOutputs.lookup outpoint = some hash) :
    hash = config.prim.txHash tx := by
  simp only [checkLimits, seq_eq_ok, checkEach_eq_ok] at hok
  obtain ⟨input, hinput, rfl⟩ := List.mem_map.mp hmem
  have hfree := hok.2.2 input hinput
  rw [checkDoubleSpend, hspent] at hfree
  dsimp only at hfree
  rwa [refuseIf_eq_ok, not_not] at hfree

theorem poolInput_eq_some {outpoint : Outpoint} (hpool : poolInput db tx = some outpoint) :
    isPoolContentionType tx.txType = true ∧ outpoint ∈ tx.inputs.map inputOutpoint := by
  unfold poolInput at hpool
  split at hpool
  case isFalse => cases hpool
  case isTrue htype =>
    obtain ⟨input, hinput, rfl⟩ := Option.map_eq_some_iff.mp hpool
    exact ⟨htype, List.mem_map_of_mem (List.mem_of_find?_eq_some hinput)⟩

end

end Doli
