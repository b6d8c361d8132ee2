import Doli.Storage.StateDb
import Mathlib.Algebra.GroupWithZero.Nat
import Mathlib.Data.List.Basic

/-!
# UTXO validation of one transaction

`validate_transaction_with_utxos` reads the set only at the inputs of the
transaction.  The input loop, the lock rule and the Bond and Unbonding output
rules are spelled out; the structural checks and the checks on the consumed
outputs that follow the loop are the two fields of `UtxoRules`.
-/

namespace Doli.Core

open Doli.Lib Doli.Storage

/-- Activation heights and parameters of a network. -/
structure NetworkParams where
  bondUnit : Nat
  genesisBlocks : Nat
  blocksPerRewardEpoch : Nat
  incI255SlashingActivationHeight : Nat
  incI236BlockSignatureActivationHeight : Nat
  incI181PendingRootActivationHeight : Nat
  incI257UnbondingActivationHeight : Nat
  unbondingPeriod : Nat
  delegationAuthActivationHeight : Nat
  receivedDelegationCapActivationHeight : Nat
  receivedDelegationCap : Nat
  addbondCapEnforcementActivationHeight : Nat
  withdrawalHoldingsGateActivationHeight : Nat
  incI171VestingPenaltyActivationHeight : Nat
  incI171VestingPenaltyDisableHeight : Nat
  blsKeyRotationActivationHeight : Nat
  blocksPerEra : Nat
  vestingQuarterSlots : Nat
  deriving DecidableEq, Repr

def NetworkParams.effectiveSlashingActivationHeight (params : NetworkParams) : Nat :=
  max (max params.incI255SlashingActivationHeight
    params.incI236BlockSignatureActivationHeight)
    params.incI181PendingRootActivationHeight

def NetworkParams.isInGenesis (params : NetworkParams) (height : Nat) : Bool :=
  0 < params.genesisBlocks && height ≤ params.genesisBlocks

/-- `height_to_era`, clamped to a `u32`. -/
def NetworkParams.heightToEra (params : NetworkParams) (height : Nat) : Nat :=
  min (height / params.blocksPerEra) (2 ^ 32 - 1)

inductive ValidationError where
  | structural
  | outputNotFound (outpoint : Outpoint)
  | notPoolUtxo (index : Nat)
  | amountOverflow (index : Nat)
  | insufficientFunds (inputs outputs : Nat)
  | zkRollupInput (index : Nat)
  | bondSpentBy (spending : TxType)
  | outputLocked (lockHeight currentHeight : Nat)
  | bondOutput (index : Nat)
  | bondOutputsIn (txType : TxType)
  | bondOutputsWithoutProducer
  | unbondingOutputsIn (txType : TxType)
  | unbondingBelowActivation
  | withdrawalPayout
  | spending
  deriving DecidableEq, Repr

/-- `structural` is the rest of `validate_transaction_skip_registration_vdf`;
`spending` is everything after the input loop, on the consumed outputs
together with the signatures of the inputs. -/
structure UtxoRules where
  structural : Nat → Transaction → Bool
  spending : Nat → Transaction → List Output → Bool

structure UtxoContext where
  prim : Primitives
  params : NetworkParams
  rules : UtxoRules

def rewardPoolPubkeyHash (prim : Primitives) : Hash :=
  prim.hashWithDomain (ascii "REWARD_POOL") (ascii "doli")

/-! ## Bond and Unbonding outputs -/

def isSlashBurnable (output : Output) (height : Nat) : Bool :=
  match output.outputType with
  | .bond => true
  | .unbonding => height < output.lockUntil
  | _ => false

/-- Lock verdict for spending `spent` in a transaction mined at `height`. -/
def spendLockVerdict (spending : TxType) (spent : Output)
    (height unbondingActivationHeight : Nat) : Except ValidationError Unit :=
  if height < unbondingActivationHeight then
    if spent.outputType = .bond ∧ (spending = .requestWithdrawal ∨ spending = .exit) then
      .ok ()
    else if spent.isSpendableAt height then .ok ()
    else .error (.outputLocked spent.lockUntil height)
  else if spent.outputType = .bond then
    if spending = .requestWithdrawal then .ok () else .error (.bondSpentBy spending)
  else if spent.isSpendableAt height then .ok ()
  else .error (.outputLocked spent.lockUntil height)

namespace UtxoContext

variable (ctx : UtxoContext)

def bondProducer (tx : Transaction) : Except ValidationError PublicKey :=
  match tx.txType with
  | .registration =>
      match tx.registrationData ctx.prim with
      | some data => .ok data.publicKey
      | none => .error .bondOutputsWithoutProducer
  | .addBond =>
      match tx.addBondData with
      | some data => .ok data.producerPubkey
      | none => .error .bondOutputsWithoutProducer
  | other => .error (.bondOutputsIn other)

/-- From the activation height on, Bond outputs appear only in Registration
and AddBond, owned by the producer and worth one bond unit each. -/
def checkBondOutputs (height : Nat) (tx : Transaction) :
    Except ValidationError Unit :=
  if height < ctx.params.incI257UnbondingActivationHeight then .ok ()
  else if tx.outputs.any fun output => output.outputType = .bond then
    match ctx.bondProducer tx with
    | .error error => .error error
    | .ok producer =>
        match tx.outputs.findIdx? fun output =>
            output.outputType = .bond ∧
              (output.pubkeyHash ≠ ctx.prim.addressOf producer ∨
                output.amount ≠ ctx.params.bondUnit) with
        | some index => .error (.bondOutput index)
        | none => .ok ()
  else .ok ()

def checkWithdrawalPayout (height : Nat) (tx : Transaction) :
    Except ValidationError Unit :=
  match tx.outputs with
  | [output] =>
      match WithdrawalRequestData.fromBytes tx.extraData with
      | none => .error .withdrawalPayout
      | some data =>
          if output.outputType = .unbonding ∧
              output.pubkeyHash = ctx.prim.addressOf data.producerPubkey ∧
              min (height + ctx.params.unbondingPeriod) (2 ^ 64 - 1) ≤
                output.lockUntil then
            .ok ()
          else .error .withdrawalPayout
  | _ => .error .withdrawalPayout

def checkUnbondingOutputs (height : Nat) (tx : Transaction) :
    Except ValidationError Unit :=
  let hasUnbonding := tx.outputs.any fun output => output.outputType = .unbonding
  if height < ctx.params.incI257UnbondingActivationHeight then
    if hasUnbonding then .error .unbondingBelowActivation else .ok ()
  else if tx.txType ≠ .requestWithdrawal then
    if hasUnbonding then .error (.unbondingOutputsIn tx.txType) else .ok ()
  else ctx.checkWithdrawalPayout height tx

/-! ## Inputs -/

def totalOutput (tx : Transaction) : Nat :=
  min (2 ^ 64 - 1)
    ((tx.outputs.filter fun output => output.outputType.isNativeAmount).map
      Output.amount).sum

/-- Native total so far plus one consumed output. -/
def addNative (index total : Nat) (spent : Output) :
    Except ValidationError Nat :=
  if spent.outputType.isNativeAmount then
    if total + spent.amount < 2 ^ 64 then .ok (total + spent.amount)
    else .error (.amountOverflow index)
  else .ok total

/-- Pool inputs of an EpochReward: they exist and belong to the pool. -/
def epochRewardInputs (lookup : Outpoint → Option UtxoEntry) :
    List Input → Nat → Nat → Except ValidationError Nat
  | [], _, total => .ok total
  | input :: inputs, index, total =>
      match lookup (inputOutpoint input) with
      | none => .error (.outputNotFound (inputOutpoint input))
      | some entry =>
          if entry.output.pubkeyHash ≠ rewardPoolPubkeyHash ctx.prim then
            .error (.notPoolUtxo index)
          else
            match addNative index total entry.output with
            | .error error => .error error
            | .ok next => epochRewardInputs lookup inputs (index + 1) next

/-- The input loop: the consumed outputs, in input order. -/
def spendingInputs (height : Nat) (tx : Transaction)
    (lookup : Outpoint → Option UtxoEntry) :
    List Input → Nat → Nat → Except ValidationError (List Output)
  | [], _, _ => .ok []
  | input :: inputs, index, total =>
      match lookup (inputOutpoint input) with
      | none => .error (.outputNotFound (inputOutpoint input))
      | some entry =>
          if entry.output.outputType = .zkRollup ∧ tx.txType ≠ .zkSettle then
            .error (.zkRollupInput index)
          else
            match spendLockVerdict tx.txType entry.output height
                ctx.params.incI257UnbondingActivationHeight with
            | .error error => .error error
            | .ok () =>
                match addNative index total entry.output with
                | .error error => .error error
                | .ok next =>
                    match spendingInputs height tx lookup inputs (index + 1) next with
                    | .error error => .error error
                    | .ok consumed => .ok (entry.output :: consumed)

def validateStructure (height : Nat) (tx : Transaction) :
    Except ValidationError Unit :=
  match ctx.checkUnbondingOutputs height tx with
  | .error error => .error error
  | .ok () =>
      match ctx.checkBondOutputs height tx with
      | .error error => .error error
      | .ok () =>
          if ctx.rules.structural height tx then .ok () else .error .structural

/-- `validate_transaction_with_utxos` -/
def validateTransactionWithUtxos (height : Nat) (tx : Transaction)
    (lookup : Outpoint → Option UtxoEntry) : Except ValidationError Unit :=
  match ctx.validateStructure height tx with
  | .error error => .error error
  | .ok () =>
      if tx.isCoinbase then .ok ()
      else if tx.isEpochReward then
        if tx.inputs.isEmpty then .ok ()
        else
          match ctx.epochRewardInputs lookup tx.inputs 0 0 with
          | .error error => .error error
          | .ok total =>
              if total < totalOutput tx then
                .error (.insufficientFunds total (totalOutput tx))
              else .ok ()
      else
        match ctx.spendingInputs height tx lookup tx.inputs 0 0 with
        | .error error => .error error
        | .ok consumed =>
            if ctx.rules.spending height tx consumed then .ok ()
            else .error .spending

/-! ## What acceptance gives -/

variable {ctx}

theorem epochRewardInputs_isSome {lookup : Outpoint → Option UtxoEntry}
    {inputs : List Input} {index total amount : Nat}
    (hok : ctx.epochRewardInputs lookup inputs index total = .ok amount) :
    ∀ input ∈ inputs, (lookup (inputOutpoint input)).isSome := by
  induction inputs generalizing index total with
  | nil => simp
  | cons input inputs ih =>
      simp only [epochRewardInputs] at hok
      split at hok
      · contradiction
      case h_2 entry hentry =>
        split at hok
        · contradiction
        · split at hok
          · contradiction
          · intro other hother
            rcases List.mem_cons.mp hother with rfl | hother
            · simp [hentry]
            · exact ih hok other hother

theorem spendingInputs_consumed {height : Nat} {tx : Transaction}
    {lookup : Outpoint → Option UtxoEntry} {inputs : List Input}
    {index total : Nat} {consumed : List Output}
    (hok : ctx.spendingInputs height tx lookup inputs index total = .ok consumed) :
    ∀ input ∈ inputs, ∃ entry, lookup (inputOutpoint input) = some entry ∧
      spendLockVerdict tx.txType entry.output height
        ctx.params.incI257UnbondingActivationHeight = .ok () := by
  induction inputs generalizing index total consumed with
  | nil => simp
  | cons input inputs ih =>
      simp only [spendingInputs] at hok
      split at hok
      · contradiction
      case h_2 entry hentry =>
        split at hok
        · contradiction
        · split at hok
          · contradiction
          case h_2 hlock =>
            split at hok
            · contradiction
            · split at hok
              · contradiction
              case h_2 rest hrest =>
                intro other hother
                rcases List.mem_cons.mp hother with rfl | hother
                · exact ⟨entry, hentry, hlock⟩
                · exact ih hrest other hother

theorem validateTransactionWithUtxos_inputs {height : Nat} {tx : Transaction}
    {lookup : Outpoint → Option UtxoEntry}
    (hok : ctx.validateTransactionWithUtxos height tx lookup = .ok ()) :
    ∀ input ∈ tx.inputs, (lookup (inputOutpoint input)).isSome := by
  unfold validateTransactionWithUtxos at hok
  split at hok
  · contradiction
  · split at hok
    case isTrue hcoinbase =>
      have hempty := (Transaction.isCoinbase_iff.mp hcoinbase).2.1
      simp [hempty]
    · split at hok
      · split at hok
        case isTrue hempty => simp [List.isEmpty_iff.mp hempty]
        · split at hok
          · contradiction
          case h_2 total htotal => exact epochRewardInputs_isSome htotal
      · split at hok
        · contradiction
        case h_2 consumed hconsumed =>
          intro input hinput
          obtain ⟨entry, hentry, -⟩ := spendingInputs_consumed hconsumed input hinput
          simp [hentry]

/-! ## Only the rows at the inputs are read -/

theorem epochRewardInputs_congr {lookup other : Outpoint → Option UtxoEntry}
    {inputs : List Input}
    (hsame : ∀ input ∈ inputs,
      other (inputOutpoint input) = lookup (inputOutpoint input))
    (index total : Nat) :
    ctx.epochRewardInputs other inputs index total =
      ctx.epochRewardInputs lookup inputs index total := by
  induction inputs generalizing index total with
  | nil => rfl
  | cons input inputs ih =>
      have hrest := ih fun row hrow => hsame row (List.mem_cons_of_mem _ hrow)
      simp only [epochRewardInputs, hsame input List.mem_cons_self, hrest]

theorem spendingInputs_congr {height : Nat} {tx : Transaction}
    {lookup other : Outpoint → Option UtxoEntry} {inputs : List Input}
    (hsame : ∀ input ∈ inputs,
      other (inputOutpoint input) = lookup (inputOutpoint input))
    (index total : Nat) :
    ctx.spendingInputs height tx other inputs index total =
      ctx.spendingInputs height tx lookup inputs index total := by
  induction inputs generalizing index total with
  | nil => rfl
  | cons input inputs ih =>
      have hrest := ih fun row hrow => hsame row (List.mem_cons_of_mem _ hrow)
      simp only [spendingInputs, hsame input List.mem_cons_self, hrest]

theorem validateTransactionWithUtxos_congr {height : Nat} {tx : Transaction}
    {lookup other : Outpoint → Option UtxoEntry}
    (hsame : ∀ input ∈ tx.inputs,
      other (inputOutpoint input) = lookup (inputOutpoint input)) :
    ctx.validateTransactionWithUtxos height tx other =
      ctx.validateTransactionWithUtxos height tx lookup := by
  simp only [validateTransactionWithUtxos, epochRewardInputs_congr hsame,
    spendingInputs_congr hsame]

end UtxoContext

/-! ## An executable instance -/

/-- Every gate is open from height 0 on and there is no genesis phase. -/
def sampleParams : NetworkParams where
  bondUnit := 1000000000
  genesisBlocks := 0
  blocksPerRewardEpoch := 10
  incI255SlashingActivationHeight := 0
  incI236BlockSignatureActivationHeight := 0
  incI181PendingRootActivationHeight := 0
  incI257UnbondingActivationHeight := 0
  unbondingPeriod := 60480
  delegationAuthActivationHeight := 0
  receivedDelegationCapActivationHeight := 0
  receivedDelegationCap := 2 ^ 64 - 1
  addbondCapEnforcementActivationHeight := 0
  withdrawalHoldingsGateActivationHeight := 0
  incI171VestingPenaltyActivationHeight := 2 ^ 64 - 1
  incI171VestingPenaltyDisableHeight := 2 ^ 64 - 1
  blsKeyRotationActivationHeight := 0
  blocksPerEra := 1000
  vestingQuarterSlots := 1000

/-- Balance and minimum fee alone, with the fee-exempt types exempt. -/
def sampleRules : UtxoRules where
  structural _ _ := true
  spending _ tx consumed :=
    tx.txType = .createPool || tx.isZeroFlow || tx.txType = .slashProducer ||
      UtxoContext.totalOutput tx + 1 ≤
        ((consumed.filter fun output => output.outputType.isNativeAmount).map
          Output.amount).sum

def sampleUtxoContext : UtxoContext where
  prim := samplePrimitives
  params := sampleParams
  rules := sampleRules

/-!
## The vesting bound

What a withdrawal may pay out for the Bonds it spends, by the age of each.
-/

inductive VestingError where
  | bondExtraDataMalformed (inputIndex len : Nat)
  | quarterInvalid (quarterSlots : Nat)
  | payoutExceedsVestedNet (payout bound bondInputs nonBondValue : Nat)
  deriving DecidableEq, Repr

def withdrawalPenaltyRateWithQuarter (age quarterSlots : Nat) : Nat :=
  match age / quarterSlots with
  | 0 => 75
  | 1 => 50
  | 2 => 25
  | _ => 0

def penalizedBondNet (amount creationSlot blockSlot quarterSlots : Nat) : Nat :=
  amount - amount *
    withdrawalPenaltyRateWithQuarter (blockSlot - creationSlot) quarterSlots / 100

/-- Outside `[activation, disable)` nothing is read. -/
def checkWithdrawalPayoutBound (payout : Nat) (spentBonds : List (Nat × Nat))
    (nonBondInputTotal blockSlot quarterSlots height activation disable : Nat) :
    Except VestingError Unit :=
  if height < activation ∨ disable ≤ height then .ok ()
  else if quarterSlots = 0 ∨ 2 ^ 32 - 1 < quarterSlots then
    .error (.quarterInvalid quarterSlots)
  else
    let vested := (spentBonds.map fun bond =>
      penalizedBondNet bond.1 bond.2 blockSlot quarterSlots).sum
    let bound := min (min vested (2 ^ 64 - 1) + nonBondInputTotal) (2 ^ 64 - 1)
    if bound < payout then
      .error (.payoutExceedsVestedNet payout bound
        (min spentBonds.length (2 ^ 32 - 1)) nonBondInputTotal)
    else .ok ()

/-!
## Slashes and the Bond UTXOs of the accused

A block that holds a slash spends no Bond of the accused: neither one of the set before
the block nor one that an earlier transaction of the block created.
-/

def maxSlashDataBytes : Nat := 64 * 1024

def maxSlashTxsPerBlock : Nat := 8

/-- `decode_slash_data` under the bounded decoder. -/
def decodeSlashData (prim : Primitives) (bytes : Bytes) : Option SlashData :=
  if maxSlashDataBytes < bytes.length then none else prim.decodeSlash bytes

namespace UtxoContext

variable (ctx : UtxoContext)

/-- Every production site passes the effective slashing height, which the
block-signature height never exceeds. -/
def slashRuleActive (height : Nat) : Bool :=
  decide (ctx.params.incI236BlockSignatureActivationHeight ≤ height) &&
    decide (ctx.params.effectiveSlashingActivationHeight ≤ height)

/-- The accused of a slash of the block. -/
def accusedBy (tx : Transaction) : Option PublicKey :=
  if tx.txType = .slashProducer then
    (decodeSlashData ctx.prim tx.extraData).map SlashData.producerPubkey
  else none

def isBond (output : Output) : Bool :=
  output.outputType = .bond

/-- An input spends a Bond that one of `owners` holds in the set. -/
def spendsOwnedBond (tx : Transaction) (owners : List Hash)
    (lookup : Outpoint → Option UtxoEntry) : Bool :=
  !owners.isEmpty && tx.inputs.any fun input =>
    (lookup (inputOutpoint input)).any fun entry =>
      isBond entry.output && decide (entry.output.pubkeyHash ∈ owners)

/-- The Bonds of `owners` among the outputs of a transaction. -/
def createdBonds (tx : Transaction) (owners : List Hash) : List Outpoint :=
  (tx.outputs.zipIdx.filter fun row =>
    isBond row.1 && decide (row.1.pubkeyHash ∈ owners)).map fun row =>
      .ofOutput (ctx.prim.txHash tx) row.2

/-- The scan of the block, with the Bonds created so far. -/
def noBondSpend (owners : List Hash) (lookup : Outpoint → Option UtxoEntry) :
    List Transaction → List Outpoint → Bool
  | [], _ => true
  | tx :: txs, created =>
      !(tx.inputs.any fun input => decide (inputOutpoint input ∈ created)) &&
        !spendsOwnedBond tx owners lookup &&
        noBondSpend owners lookup txs (created ++ ctx.createdBonds tx owners)

/-- `validate_slash_bond_spends` -/
def validateSlashBondSpends (height : Nat) (txs : List Transaction)
    (lookup : Outpoint → Option UtxoEntry) : Bool :=
  if ctx.slashRuleActive height then
    let owners := (txs.filterMap ctx.accusedBy).map ctx.prim.addressOf
    if owners.isEmpty then true else ctx.noBondSpend owners lookup txs []
  else true

end UtxoContext

end Doli.Core
