import Doli.Mempool.Pool
import Doli.Lib.Listing
import Doli.Node.SlashFacts
import Doli.Node.WithdrawalParity
import Doli.Validation.InputSignature

/-!
# What the mempool asks about a transaction

The contexts that the mempool judges in, and the rules that read the state of the node:
slashes, withdrawals, added bonds, registrations and locked outputs.  Some judge at the tip
and some at the height after it, as each of them says.
-/

namespace Doli

open Doli.Core Doli.Lib Doli.Storage Doli.Producer Doli.Node
open Validation (ValidationContext SpendingContext isConditioned isSlash slashRegistrant
  validateSlashTarget validateNotSlashedRegistrant validateTransaction bondWithdrawalProducer
  bondOwner slashFeeExempt rotateStateless checkProducerAuth)

/-! ## Errors -/

/-- What stands behind `InvalidTransaction`, each with its own text. -/
inductive Refusal where
  | rotation (error : Validation.ValidationError)
  | missingPublicKey (index sigHeight : Nat)
  | pubkeyHashMismatch (index : Nat) (expected actual : Hash)
  | invalidSignature (index : Nat)
  | invalidCondition (index : Nat) (error : ConditionError)
  | tooManyOps (index ops : Nat)
  | invalidWitness (index : Nat) (error : ConditionError)
  | conditionNotSatisfied (index : Nat)
  | insufficientFunds (inputs outputs : Nat)
  | spendLock (error : Core.ValidationError)
  | immature (spendableAt tip maturity : Nat)
  | withdrawalBesideSlash (producer : PublicKey)
  | withdrawalOfSlashed (producer : PublicKey)
  | economics (error : EconError)
  | bondSpend (txHash : Hash)
  | addBondCap (error : AddBondCapExceeded)
  | changesAtCap (cap : Nat)
  | zeroFlow (code : String)
  deriving DecidableEq, Repr

inductive MempoolError where
  | alreadyExists
  | full
  | busy
  | invalidTransaction (refusal : Refusal)
  | validation (error : Validation.ValidationError)
  | feeTooLow (actual minimum : Nat)
  | tooLarge (size max : Nat)
  | tooManyAncestors (count max : Nat)
  | tooManyDescendants (count max : Nat)
  | missingInput (txHash : Hash) (outputIndex : Nat)
  | doubleSpend (txHash : Hash) (outputIndex : Nat) (spendingTx : Hash)
  deriving DecidableEq, Repr

/-! ## Contexts -/

/-- What the node shares with the mempool, as one call reads it: `live` is the producer set
where it is wired, and `some none` while it is locked. -/
structure NodeView where
  activeProducersWeighted : List (PublicKey × Nat)
  pendingProducerKeys : List PublicKey
  live : Option (Option ProducerSet)
  holdings : Option (List (PublicKey × ProducerHoldings))

/-- `gates` has the activation heights of the network and the rules that the validators
leave open; `size` is the length of the bincode encoding and `changeTarget` the target that
the payload of a maintainer change names. -/
structure MempoolConfig where
  gates : SpendingContext
  sigVerificationHeight : Nat
  coinbaseMaturity : Nat
  size : Transaction → Nat
  changeTarget : Bytes → Option PublicKey

namespace MempoolConfig

variable (config : MempoolConfig)

def crypto : Validation.Crypto := config.gates.base.crypto

def prim : Primitives := config.gates.base.crypto.primitives

def params : NetworkParams := config.gates.base.network.params

/-- `admission_base_ctx` -/
def admissionBaseCtx (view : NodeView) (height slot : Nat) (pendingKeys : List PublicKey) :
    ValidationContext :=
  { config.gates.base with
    currentTime := 0
    currentHeight := height
    prevSlot := slot
    activeProducers := view.activeProducersWeighted.map Prod.fst
    activeProducersWeighted := view.activeProducersWeighted
    pendingProducerKeys := pendingKeys
    incI257RulesAtNextHeight := true
    slashTargets := fun _ => none }

/-- The context of the system lane judges every rule at the tip. -/
def systemCtx (view : NodeView) (height : Nat) (pendingKeys : List PublicKey) :
    ValidationContext :=
  { config.admissionBaseCtx view height 0 pendingKeys with incI257RulesAtNextHeight := false }

end MempoolConfig

/-- `saturating_add(1)` -/
def nextHeight (height : Nat) : Nat := min (height + 1) (2 ^ 64 - 1)

def minedAt (ctx : ValidationContext) : ValidationContext :=
  { ctx with currentHeight := nextHeight ctx.currentHeight }

def withSlashTargets (ctx : ValidationContext)
    (targets : List (PublicKey × Validation.SlashTargetState)) : ValidationContext :=
  { ctx with slashTargets := lastTarget targets }

/-! ## Residents -/

namespace Mempool

variable (pool : Mempool)

def rows : List (Hash × MempoolEntry) := sortedRows Hash.bytesLe pool.entries

def residents : List Transaction := pool.rows.map fun row => row.2.tx

def select (test : MempoolEntry → Bool) : List Hash :=
  (pool.rows.filter fun row => test row.2).map Prod.fst

end Mempool

section

variable (config : MempoolConfig) (view : NodeView)

/-! ## Registrations -/

def registrationKeyOf (tx : Transaction) : Option PublicKey :=
  if tx.txType = .registration then
    (tx.registrationData config.prim).map RegistrationData.publicKey
  else none

/-- The keys with a registration that is mined but not flushed, or resident under another
hash than `exclude`. -/
def pendingKeysFor (pool : Mempool) (tx : Transaction) (exclude : Hash) : List PublicKey :=
  if tx.txType = .registration then
    view.pendingProducerKeys ++
      (pool.rows.filter fun row => row.1 ≠ exclude).filterMap fun row =>
        registrationKeyOf config row.2.tx
  else []

/-- Resident registrations of a producer that is active or pending by now. -/
def registrationsThatBecameDuplicates (pool : Mempool) : List Hash :=
  pool.select fun entry =>
    (registrationKeyOf config entry.tx).any fun key =>
      decide (key ∈ view.activeProducersWeighted.map Prod.fst ∨
        key ∈ view.pendingProducerKeys)

/-! ## Slashes -/

def mempoolSlashTargets (ctx : ValidationContext) (producers : ProducerSet) (db : StateDb)
    (tx : Transaction) : List (PublicKey × Validation.SlashTargetState) :=
  let settled := (slashAccused ctx tx).bind fun key =>
    (targetState ctx.crypto.primitives producers key).bind fun state =>
      if state.slashed || state.slashQueued then some (key, state) else none
  match settled with
  | some target => [target]
  | none => slashTargets ctx producers db [tx]

/-- The slashed-registrant rule at the height after the tip. -/
def registrantRefusal (ctx : ValidationContext) (tx : Transaction) :
    Except Validation.ValidationError Unit :=
  if nextHeight ctx.currentHeight < ctx.incI255SlashingActivationHeight then .ok ()
  else
    match slashRegistrant ctx tx with
    | none => .ok ()
    | some key =>
        match view.live with
        | some (some producers) =>
            let state := (targetState ctx.crypto.primitives producers key).map fun state =>
              (key, state)
            validateNotSlashedRegistrant (withSlashTargets (minedAt ctx) state.toList) tx
        | _ => .ok ()

/-- The context a slash is judged in, with the state of its accused.  The evidence is
checked before any state is read. -/
def slashAdmissionCtx (ctx : ValidationContext) (db : StateDb) (tx : Transaction) :
    Except MempoolError ValidationContext :=
  match view.live with
  | none => .ok (minedAt ctx)
  | some live =>
      if slashFeeExempt (minedAt ctx) tx then
        match live with
        | none => .error .busy
        | some producers =>
            let judged := withSlashTargets (minedAt ctx)
              (mempoolSlashTargets (minedAt ctx) producers db tx)
            ((validateSlashTarget judged tx).mapError .validation).map fun _ => judged
      else ((validateSlashTarget (minedAt ctx) tx).mapError .validation).map fun _ => minedAt ctx

/-- `admission_ctx` -/
def admissionCtx (ctx : ValidationContext) (db : StateDb) (tx : Transaction) :
    Except MempoolError (Option ValidationContext) :=
  if tx.txType = .registration ∨ tx.txType = .addBond then
    ((registrantRefusal view ctx tx).mapError .validation).map fun _ => none
  else if tx.txType = .slashProducer then (slashAdmissionCtx view ctx db tx).map some
  else .ok none

/-- At most one resident slash for an accused, and no registrant beside it. -/
def residentRefusal (ctx : ValidationContext) (tx : Transaction) (residents : List Transaction) :
    Except MempoolError Unit :=
  let accused := slashAccused ctx tx
  if nextHeight ctx.currentHeight < ctx.incI255SlashingActivationHeight then .ok ()
  else
    match accused.or (slashRegistrant ctx tx) with
    | none => .ok ()
    | some key =>
        if key ∈ residents.filterMap (slashAccused ctx) then
          if accused.isSome then
            .error (.validation (.invalidSlash "slash target already has a resident slash"))
          else .error (.validation (.slashedRegistrant key))
        else .ok ()

/-- The residents that a slash admitted under the gate puts out. -/
def withdrawalsForSlash (ctx : ValidationContext) (judged : Option ValidationContext)
    (pool : Mempool) (db : StateDb) (tx : Transaction) : List Hash :=
  let accused := judged.bind fun judged =>
    if judged.currentHeight < judged.incI255SlashingActivationHeight then none
    else slashAccused judged tx
  match accused with
  | none => []
  | some key =>
      pool.select fun entry =>
        decide ((bondWithdrawalProducer entry.tx).or (slashRegistrant ctx entry.tx) =
          some key) ||
          UtxoContext.spendsOwnedBond entry.tx [bondOwner ctx key] db.getUtxo

/-- The owners of the Bonds that no resident may spend. -/
def slashBondOwners (pool : Mempool) (height : Nat) : List Hash :=
  if nextHeight height < config.params.effectiveSlashingActivationHeight then []
  else (pool.residents.filterMap (slashAccused config.gates.base)).map config.prim.addressOf

def bondSpendRefusal (tx : Transaction) (owners : List Hash) (db : StateDb) :
    Except Refusal Unit :=
  refuseIf (UtxoContext.spendsOwnedBond tx owners db.getUtxo = true)
    (.bondSpend (config.prim.txHash tx))

/-- Resident slashes and registrants that fail their rule at the height after the tip. -/
def slashRuleEvictions (ctx : ValidationContext) (pool : Mempool) (db : StateDb) : List Hash :=
  let mined := minedAt ctx
  let judgedType (kind : TxType) : Bool :=
    decide (kind = .slashProducer ∨ kind = .registration ∨ kind = .addBond)
  if mined.currentHeight < mined.incI255SlashingActivationHeight then []
  else
    match view.live with
    | some (some producers) =>
        let judged := pool.residents.filter fun tx => judgedType tx.txType
        let targets :=
          slashTargets mined producers db (judged.filter fun tx => !isSlash tx) ++
            (judged.filter isSlash).flatMap (mempoolSlashTargets mined producers db)
        let full := withSlashTargets mined targets
        pool.select fun entry =>
          judgedType entry.tx.txType &&
            (decide (validateSlashTarget full entry.tx ≠ .ok ()) ||
              decide (validateNotSlashedRegistrant full entry.tx ≠ .ok ()))
    | _ => []

/-! ## Withdrawals and added bonds -/

def holdingsLookup (key : PublicKey) : HoldingsLookup :=
  match view.live with
  | some (some producers) => ofProducerSet config.prim producers key
  | _ =>
      match view.holdings with
      | none => .unavailable
      | some [] => .unavailable
      | some rows =>
          match rows.find? fun row => row.1 = key with
          | some row => .found row.2
          | none => .unregistered 0

/-- A withdrawal beside a resident slash, or of a slashed producer. -/
def withdrawalRefusal (pool : Mempool) (producer : PublicKey) (height : Nat) :
    Except Refusal Unit :=
  if nextHeight height < config.params.effectiveSlashingActivationHeight then .ok ()
  else if producer ∈ pool.residents.filterMap (slashAccused config.gates.base) then
    .error (.withdrawalBesideSlash producer)
  else
    match view.live with
    | some (some producers) =>
        refuseIf (producers.isSlashedOrSlashQueued config.prim producer = true)
          (.withdrawalOfSlashed producer)
    | _ => .ok ()

/-- Bonds that the resident withdrawals of the producer claim. -/
def residentWithdrawn (pool : Mempool) (producer : PublicKey) : Nat :=
  ((pool.residents.filterMap Transaction.withdrawalRequestData).filter fun data =>
    data.producerPubkey = producer).foldl (fun sum data => satAdd sum data.bondCount) 0

/-- `withdrawal_holdings::check` -/
def withdrawalHoldingsCheck (db : StateDb) (tx : Transaction) (resolved : WithdrawalInputs)
    (lookup : HoldingsLookup) (inMempoolWithdrawn : Nat) : Except EconError Unit :=
  match tx.withdrawalRequestData with
  | none => .ok ()
  | some data =>
      let producer := config.prim.cryptoHash data.producerPubkey
      let mismatch : EconError := .bondCountMismatch producer data.bondCount
        resolved.ownedBonds resolved.allBonds
      match lookup with
      | .unavailable => .ok ()
      | .unregistered _ => .error (.unknownProducer producer data.bondCount)
      | .found holdings =>
          let allowance := holdings.allowanceWith 0 inMempoolWithdrawn
          if allowance < data.bondCount then
            .error (.overHoldings producer data.bondCount allowance)
          else if resolved.allBonds ≠ resolved.ownedBonds then .error mismatch
          else if data.bondCount = allowance ∧ 0 < data.bondCount then
            let owned := min
              (db.getBondEntries (config.prim.addressOf data.producerPubkey)).length (2 ^ 32 - 1)
            refuseIf (resolved.ownedBonds ≠ owned)
              (.incompleteDrain producer data.bondCount resolved.ownedBonds owned)
          else refuseIf (data.bondCount ≠ resolved.ownedBonds) mismatch

/-- The vesting bound runs in the admission lane only, at the watermark and not at the slot
of the call; a watermark of zero means that no slot ever arrived. -/
def withdrawalVerdict (pool : Mempool) (db : StateDb) (tx : Transaction) (height : Nat)
    (vestingLane countResidents : Bool) : Except Refusal Unit :=
  match bondWithdrawalProducer tx with
  | none => .ok ()
  | some producer => do
      withdrawalRefusal config view pool producer height
      let resolved := resolveWithdrawalInputs tx db.getUtxo (config.prim.addressOf producer)
      checkWhen (config.params.withdrawalHoldingsGateActivationHeight ≤ height)
        ((withdrawalHoldingsCheck config db tx resolved (holdingsLookup config view producer)
          (if countResidents then residentWithdrawn pool producer else 0)).mapError .economics)
      checkWhen (vestingLane && decide (pool.slotWatermark ≠ 0))
        (if tx.txType = .requestWithdrawal then
          (vestingBoundVerdict tx resolved pool.slotWatermark height
            config.params.vestingQuarterSlots
            config.params.incI171VestingPenaltyActivationHeight
            config.params.incI171VestingPenaltyDisableHeight).mapError fun error =>
              .economics (.vesting (config.prim.cryptoHash producer) error)
        else .ok ())

def addbondHoldingsVerdict (tx : Transaction) (height : Nat) : Except Refusal Unit :=
  match tx.addBondData with
  | none => .ok ()
  | some data =>
      (addbondCapVerdict tx (holdingsLookup config view data.producerPubkey) 0 height
        config.params.addbondCapEnforcementActivationHeight).mapError .addBondCap

/-! ## Locked outputs -/

/-- The spend lock at the height after the tip. -/
def checkOutput (kind : TxType) (spent : Output) (tip : Nat) : Except Refusal Unit :=
  (spendLockVerdict kind spent (nextHeight tip)
    config.params.incI257UnbondingActivationHeight).mapError .spendLock

/-- The spend lock, then the maturity of a minted output at the tip. -/
def checkUtxo (kind : TxType) (utxo : UtxoEntry) (tip : Nat) : Except Refusal Unit := do
  checkOutput config kind utxo.output tip
  refuseIf ((utxo.isCoinbase = true ∨ utxo.isEpochReward = true) ∧
      ¬(kind = .requestWithdrawal ∨ kind = .exit) ∧
        tip - utxo.height < config.coinbaseMaturity)
    (.immature (min (utxo.height + config.coinbaseMaturity) (2 ^ 64 - 1)) tip
      config.coinbaseMaturity)

/-- Residents that fail the unbonding or the authorization rule after the tip. -/
def unmineableProducerTxs (pool : Mempool) (height : Nat) : List Hash :=
  let ctx : ValidationContext :=
    { config.gates.base with currentHeight := height, incI257RulesAtNextHeight := true }
  pool.select fun entry =>
    match entry.tx.txType with
    | .requestWithdrawal =>
        decide (ctx.utxo.checkUnbondingOutputs ctx.ruleHeight entry.tx ≠ .ok ()) ||
          decide (ctx.utxo.checkBondOutputs ctx.ruleHeight entry.tx ≠ .ok ()) ||
            decide (checkProducerAuth ctx entry.tx ≠ .ok ())
    | .registration => decide (checkProducerAuth ctx entry.tx ≠ .ok ())
    | .addBond => decide (checkProducerAuth ctx entry.tx ≠ .ok ())
    | _ => false

end

end Doli
