import Doli.Node.ProducerEffects
import Doli.Producer.WithdrawalInputs

/-!
# The withdrawal gate

`check_withdrawal_economics`: no withdrawal of a slashed producer, no Bond of
an accused spent, and for every withdrawal an allowance that follows the
ledger and the transactions before it in the block.
-/

namespace Doli.Node

open Doli.Core Doli.Lib Doli.Storage Doli.Producer

inductive EconError where
  | withdrawalSlashed (producer : Hash)
  | slashBondSpend
  | unknownProducer (producer : Hash) (requested : Nat)
  | overHoldings (producer : Hash) (requested allowance : Nat)
  | sameBlockInput (producer : Hash)
  | bondCountMismatch (producer : Hash) (declared owned all : Nat)
  | incompleteDrain (producer : Hash) (declared spent owned : Nat)
  | vesting (producer : Hash) (error : VestingError)
  deriving DecidableEq, Repr

/-- `check_slashed_withdrawals`: the first offender, in every mode. -/
def checkSlashedWithdrawals (ctx : BlockContext) (producers : ProducerSet)
    (txs : List Transaction) : Except EconError Unit :=
  if ctx.height < ctx.utxo.params.effectiveSlashingActivationHeight then .ok ()
  else
    match txs.findSome? fun tx =>
        tx.withdrawalRequestData.bind fun data =>
          if producers.isSlashedOrSlashQueued ctx.utxo.prim data.producerPubkey then
            some (ctx.utxo.prim.cryptoHash data.producerPubkey)
          else none with
    | some producer => .error (.withdrawalSlashed producer)
    | none => .ok ()

def checkSlashBondSpend (ctx : BlockContext) (db : StateDb)
    (txs : List Transaction) : Except EconError Unit :=
  if ctx.utxo.validateSlashBondSpends ctx.height txs db.getUtxo then .ok ()
  else .error .slashBondSpend

/-! ## The pass over the block -/

/-- The tallies of the transactions at lower indices. -/
structure EconState where
  addBonds : Hash → Nat
  withdrawn : Hash → Nat
  earlierHashes : List Hash

namespace EconState

def initial : EconState := ⟨fun _ => 0, fun _ => 0, []⟩

def addBond (state : EconState) (producer : Hash) (bonds : Nat) : EconState :=
  { state with
    addBonds := Function.update state.addBonds producer
      (satAdd (state.addBonds producer) bonds) }

def withdraw (state : EconState) (producer : Hash) (bonds : Nat) : EconState :=
  { state with
    withdrawn := Function.update state.withdrawn producer
      (satAdd (state.withdrawn producer) bonds) }

def remember (state : EconState) (txHash : Hash) : EconState :=
  { state with earlierHashes := state.earlierHashes ++ [txHash] }

end EconState

section Pass

variable (ctx : BlockContext) (db : StateDb) (producers : ProducerSet)

/-- Bonds requested by an AddBond, counted as a `u32`. -/
def requestedBonds (tx : Transaction) : Nat :=
  (tx.outputs.filter fun output => output.outputType = .bond).length % 2 ^ 32

def liveBonds (owner : Hash) : Nat :=
  min (db.getBondEntries owner).length (2 ^ 32 - 1)

/-- The allowance of a registered producer at this point of the block. -/
def gateAllowance (key : PublicKey) (info : ProducerInfo) (state : EconState) :
    Nat :=
  satAdd (satAdd info.bondCount (producers.pendingAddbondCount key))
      (state.addBonds (ctx.utxo.prim.cryptoHash key)) -
    info.withdrawalPendingCount - state.withdrawn (ctx.utxo.prim.cryptoHash key)

/-- The two shapes: a full exit spends every Bond owned, a partial withdrawal
as many as it declares. -/
def boundInputs (data : WithdrawalRequestData) (allowance : Nat)
    (resolved : WithdrawalInputs) : Except EconError Unit :=
  let producer := ctx.utxo.prim.cryptoHash data.producerPubkey
  if resolved.allBonds ≠ resolved.ownedBonds then
    .error (.bondCountMismatch producer data.bondCount resolved.ownedBonds
      resolved.allBonds)
  else if data.bondCount = allowance ∧ 0 < data.bondCount then
    let owned := liveBonds db (ctx.utxo.prim.addressOf data.producerPubkey)
    if resolved.ownedBonds ≠ owned then
      .error (.incompleteDrain producer data.bondCount resolved.ownedBonds owned)
    else .ok ()
  else if data.bondCount ≠ resolved.ownedBonds then
    .error (.bondCountMismatch producer data.bondCount resolved.ownedBonds
      resolved.allBonds)
  else .ok ()

/-- The holdings rules for one withdrawal. -/
def holdingsStep (tx : Transaction) (data : WithdrawalRequestData)
    (resolved : WithdrawalInputs) (state : EconState) :
    Except EconError EconState :=
  let producer := ctx.utxo.prim.cryptoHash data.producerPubkey
  if ctx.height < ctx.utxo.params.withdrawalHoldingsGateActivationHeight then
    .ok state
  else
    match producers.getByPubkey ctx.utxo.prim data.producerPubkey with
    | none =>
        if ctx.mode = .replay then .ok state
        else .error (.unknownProducer producer data.bondCount)
    | some info =>
        let allowance := gateAllowance ctx producers data.producerPubkey info state
        if allowance < data.bondCount then
          .error (.overHoldings producer data.bondCount allowance)
        else if tx.inputs.any fun input =>
            decide (input.prevTxHash ∈ state.earlierHashes) then
          .error (.sameBlockInput producer)
        else if ctx.mode = .replay then .ok (state.withdraw producer data.bondCount)
        else
          match boundInputs ctx db data allowance resolved with
          | .error error => .error error
          | .ok () => .ok (state.withdraw producer data.bondCount)

/-- The vesting rule; a replay only reports it. -/
def vestingStep (tx : Transaction) (data : WithdrawalRequestData)
    (resolved : WithdrawalInputs) (state : EconState) :
    Except EconError EconState :=
  match vestingBoundVerdict tx resolved ctx.slot ctx.height
      ctx.utxo.params.vestingQuarterSlots
      ctx.utxo.params.incI171VestingPenaltyActivationHeight
      ctx.utxo.params.incI171VestingPenaltyDisableHeight with
  | .ok () => .ok state
  | .error error =>
      if ctx.mode = .replay then .ok state
      else .error
        (.vesting (ctx.utxo.prim.cryptoHash data.producerPubkey) error)

def withdrawalStep (tx : Transaction) (state : EconState) :
    Except EconError EconState :=
  match tx.withdrawalRequestData with
  | none => .ok state
  | some data =>
      let resolved := resolveWithdrawalInputs tx db.getUtxo
        (ctx.utxo.prim.addressOf data.producerPubkey)
      match holdingsStep ctx db producers tx data resolved state with
      | .error error => .error error
      | .ok next => vestingStep ctx tx data resolved next

/-- An Exit is charged what the ledger holds now, as often as it is repeated. -/
def exitStep (tx : Transaction) (state : EconState) : EconState :=
  match tx.exitData ctx.utxo.prim with
  | none => state
  | some data =>
      state.withdraw (ctx.utxo.prim.cryptoHash data.publicKey)
        ((producers.getByPubkey ctx.utxo.prim data.publicKey).elim 0
          ProducerInfo.bondCount)

def addBondStep (tx : Transaction) (state : EconState) : EconState :=
  match tx.addBondData with
  | none => state
  | some data =>
      state.addBond (ctx.utxo.prim.cryptoHash data.producerPubkey)
        (requestedBonds tx)

def econStep (state : EconState) (tx : Transaction) :
    Except EconError EconState :=
  let judged : Except EconError EconState :=
    match tx.txType with
    | .addBond => .ok (addBondStep ctx tx state)
    | .exit => .ok (exitStep ctx producers tx state)
    | .requestWithdrawal => withdrawalStep ctx db producers tx state
    | _ => .ok state
  match judged with
  | .error error => .error error
  | .ok next => .ok (next.remember (ctx.utxo.prim.txHash tx))

/-- Whether either gate, or the observe-only shadow of the second, is live. -/
def economicsPassEntered : Bool :=
  let params := ctx.utxo.params
  let vestingLive := params.incI171VestingPenaltyActivationHeight ≤ ctx.height ∧
    ctx.height < params.incI171VestingPenaltyDisableHeight
  let shadowActive :=
    ctx.mode = .full ∧ ctx.height < params.incI171VestingPenaltyActivationHeight
  decide (params.withdrawalHoldingsGateActivationHeight ≤ ctx.height ∨
    vestingLive ∨ shadowActive)

def economicsPass (txs : List Transaction) : Except EconError Unit :=
  if economicsPassEntered ctx then
    match run (econStep ctx db producers) txs .initial with
    | .error error => .error error
    | .ok _ => .ok ()
  else .ok ()

/-- `check_withdrawal_economics` -/
def checkWithdrawalEconomics (txs : List Transaction) : Except EconError Unit :=
  match checkSlashedWithdrawals ctx producers txs with
  | .error error => .error error
  | .ok () =>
      match checkSlashBondSpend ctx db txs with
      | .error error => .error error
      | .ok () => economicsPass ctx db producers txs

end Pass

end Doli.Node
