import Doli.Mempool.PackageRun
import Doli.Validation.SpendingAccepted

/-!
# Admission and consensus

What admission leaves to the validation of the block.  The inputs, their locks, the
signatures, the value authority, the balance and the fee are judged before; the rules on
the state of the assets, the conditions and every rule whose gate opens in between are not.
-/

namespace Doli

open Doli.Core Doli.Lib Doli.Storage Doli.Producer Doli.Node
open Validation (ValidationContext SpendingContext OpenRules validateOutputs totalSupply
  validateNotSlashedRegistrant validatePayload validateRegistrationDataSkipVdf
  validateSlashDataSkipVdf validateTransactionSkipRegistrationVdf checkPoolPlacement
  checkProducerAuth checkCommittedOutputs conditionsExempt verifyInputConditions nativeAmount
  checkValueAuthority checkConservation checkTypeState isStateOnly isAmmPoolTx
  consumedOutputs InputSpends judgesOwnInputs judgesOwnOutputs isAmm checkOutputPlacement)

section

variable (config : MempoolConfig)

/-- The context of a block: the conditions of its inputs are those of the network. -/
def minedContext (chain : ValidationContext) : SpendingContext :=
  { config.gates with
    base := chain
    spending :=
      { config.gates.spending with
        inputConditions := fun height tx index spent =>
          match tx.inputs[index]? with
          | none => .ok ()
          | some input =>
              verifyInputConditions config.crypto config.sigVerificationHeight height tx index
                input spent } }

/-- The block after the tip, on the same network. -/
structure MinedAfter (tip : Nat) (chain : ValidationContext) : Prop where
  height : chain.currentHeight = tip + 1
  inRange : tip + 1 < 2 ^ 64
  rules : chain.incI257RulesAtNextHeight = false
  crypto : chain.crypto = config.gates.base.crypto
  params : chain.params = config.gates.base.params
  network : chain.network = config.gates.base.network
  amm : chain.ammActivationHeight = config.gates.base.ammActivationHeight
  incI182 : chain.incI182ProducerAuthActivationHeight =
    config.gates.base.incI182ProducerAuthActivationHeight
  incI234 : chain.incI234ActivationHeight = config.gates.base.incI234ActivationHeight
  incI257 : chain.incI257UnbondingActivationHeight =
    config.gates.base.incI257UnbondingActivationHeight
  unbonding : chain.unbondingPeriod = config.gates.base.unbondingPeriod
  incI257Params : config.params.incI257UnbondingActivationHeight =
    config.gates.base.incI257UnbondingActivationHeight

/-! ## What was judged -/

/-- A lane of the mempool, with what it read.  The system lane reads no inputs. -/
inductive Judgement where
  | user (pool : Mempool) (utxos : StateDb) (tip : Nat)
  | system (tip : Nat)

namespace Judgement

def tip : Judgement → Nat
  | user _ _ tip => tip
  | system tip => tip

/-- The rules on producers are judged at the height after the tip in the user lane. -/
def ruleHeight : Judgement → Nat
  | user _ _ tip => nextHeight tip
  | system tip => tip

def readsInputs : Judgement → Bool
  | user .. => true
  | system _ => false

/-- The signature of an input was checked when the input was in the UTXO set. -/
def signed (tx : Transaction) (index : Nat) (input : Input) (spent : Output) :
    Judgement → Bool
  | user _ utxos tip => (utxos.getUtxo (inputOutpoint input)).isSome &&
      signatureRequired config tx tip index spent
  | system _ => false

/-- The outputs that were read are those of the UTXO set now. -/
def Agrees (utxos : StateDb) (tx : Transaction) : Judgement → Prop
  | user pool judged _ => ∀ input ∈ tx.inputs, ∀ entry,
      utxos.getUtxo (inputOutpoint input) = some entry →
        (∀ old, judged.getUtxo (inputOutpoint input) = some old →
          old.output = entry.output) ∧
        ∀ row, parentOutput pool input = some row → row.2 = entry.output
  | system _ => True

end Judgement

inductive Admitted (tx : Transaction) : Judgement → Prop where
  | user {view : NodeView} {pool : Mempool} {utxos : StateDb} {tip slot : Nat}
      {admission : Admission} (hok : admissionOf config view pool utxos tx tip slot = .ok admission) :
      Admitted tx (.user pool utxos tip)
  | system {view : NodeView} {policy : Transaction → Nat → Except MempoolError Unit}
      {pool : Mempool} {tip : Nat}
      (hok : checkSystemTransaction config view policy pool tx tip = .ok ()) :
      Admitted tx (.system tip)

/-! ## What is left -/

/-- The rules without inputs that read the height, the outputs or the state of the chain. -/
structure OwnRulesLeft (rules : OpenRules) (ctx : ValidationContext) (tx : Transaction) :
    Prop where
  outputs : tx.txType ≠ .slashProducer → ∃ sum, validateOutputs rules ctx tx.outputs = .ok sum ∧
    sum ≤ totalSupply
  registrant : tx.txType ≠ .slashProducer → validateNotSlashedRegistrant ctx tx = .ok ()
  payload : (match tx.txType with
    | .registration => validateRegistrationDataSkipVdf ctx tx
    | .slashProducer => validateSlashDataSkipVdf ctx tx
    | _ => validatePayload rules ctx tx) = .ok ()

variable (chain : ValidationContext) (tx : Transaction)

/-- What is left to check at one input. -/
structure InputLeft (judgement : Judgement) (index : Nat) (input : Input) (spent : Output) :
    Prop where
  committed : checkCommittedOutputs tx index input = .ok ()
  rollup : spent.outputType = .zkRollup → tx.txType = .zkSettle
  unlocked : judgement.readsInputs = false ∨
      (nextHeight judgement.tip < config.params.incI257UnbondingActivationHeight ∧
        config.params.incI257UnbondingActivationHeight ≤ chain.currentHeight) →
    spendLockVerdict tx.txType spent chain.currentHeight
      config.params.incI257UnbondingActivationHeight = .ok ()
  conditions : conditionsExempt (minedContext config chain) tx index spent = true ∨
    judgement.signed config tx index input spent = true ∨
      verifyInputConditions config.crypto config.sigVerificationHeight chain.currentHeight tx
        index input spent = .ok ()

structure LeftOpen (utxos : StateDb) (judgement : Judgement) : Prop where
  own : OwnRulesLeft config.gates.rules.withPools chain tx
  placement : judgement.ruleHeight ≠ chain.currentHeight →
    chain.utxo.checkUnbondingOutputs chain.currentHeight tx = .ok () ∧
      chain.utxo.checkBondOutputs chain.currentHeight tx = .ok () ∧
        checkProducerAuth chain tx = .ok ()
  pools : judgement.tip < chain.incI234ActivationHeight →
    checkPoolPlacement chain tx = .ok ()
  inputs : ∀ row ∈ (tx.inputs.zip (consumedOutputs tx utxos.getUtxo)).zipIdx,
    InputLeft config chain tx judgement row.2 row.1.1 row.1.2
  fits : total nativeAmount (consumedOutputs tx utxos.getUtxo) < 2 ^ 64
  authority : judgement.readsInputs = false ∨
      judgement.tip < chain.incI234ActivationHeight →
    checkValueAuthority chain tx (consumedOutputs tx utxos.getUtxo) = .ok ()
  conservation : isStateOnly (minedContext config chain) tx = false →
    judgement.readsInputs = false ∨
        (isAmmPoolTx tx = true ∧ judgement.tip < config.gates.incI096ActivationHeight) →
      checkConservation (minedContext config chain) tx (consumedOutputs tx utxos.getUtxo) =
        .ok ()
  fee : isStateOnly (minedContext config chain) tx = false →
    judgement.readsInputs = false ∨ tx.txType = .slashProducer →
      Validation.checkFee (minedContext config chain) tx (consumedOutputs tx utxos.getUtxo) =
        .ok ()
  state : checkTypeState (minedContext config chain) tx (consumedOutputs tx utxos.getUtxo) =
    .ok ()

end

/-! ## The rules without inputs -/

/-- The version, and whether there is something on either side. -/
def Shaped (ctx : ValidationContext) (tx : Transaction) : Prop :=
  tx.version = 1 ∧ (tx.txType ≠ .registration → tx.txType ≠ .slashProducer →
    ¬(tx.inputs = [] ∧ judgesOwnInputs tx = false) ∧
      ¬(tx.outputs = [] ∧ judgesOwnOutputs tx.txType = false) ∧
        ¬(isAmm tx.txType ∧ ctx.currentHeight < ctx.ammActivationHeight))

section

variable {rules : OpenRules} {ctx chain : ValidationContext} {tx : Transaction}

theorem checkProducerAuth_slash (htype : tx.txType = .slashProducer) :
    checkProducerAuth ctx tx = .ok () := by
  rw [checkProducerAuth, if_pos (.inl (by rw [htype]; rfl))]

theorem structure_iff_registration (hregistration : tx.txType = .registration) :
    validateTransactionSkipRegistrationVdf rules ctx tx = .ok () ↔
      Shaped ctx tx ∧ OwnRulesLeft rules ctx tx ∧ checkOutputPlacement ctx tx = .ok () ∧
        checkProducerAuth ctx tx = .ok () := by
  have hstructure : validateTransactionSkipRegistrationVdf rules ctx tx = .ok () ↔
      tx.version = 1 ∧ ∃ sum, validateOutputs rules ctx tx.outputs = .ok sum ∧
        sum ≤ totalSupply ∧ checkOutputPlacement ctx tx = .ok () ∧
          checkProducerAuth ctx tx = .ok () ∧ validateNotSlashedRegistrant ctx tx = .ok () ∧
            validateRegistrationDataSkipVdf ctx tx = .ok () := by
    simp only [validateTransactionSkipRegistrationVdf, hregistration, bind_eq_ok,
      exists_unit, refuseIf_eq_ok, not_not, not_lt]
  rw [hstructure]
  constructor
  · rintro ⟨hversion, sum, hsum, hle, hplacement, hauth, hregistrant, hpayload⟩
    refine ⟨⟨hversion, fun hother => absurd hregistration hother⟩, ⟨fun _ => ⟨sum, hsum, hle⟩,
      fun _ => hregistrant, by rw [hregistration]; exact hpayload⟩, hplacement, hauth⟩
  · rintro ⟨⟨hversion, -⟩, ⟨houtputs, hregistrant, hpayload⟩, hplacement, hauth⟩
    have hother : tx.txType ≠ .slashProducer := by simp [hregistration]
    obtain ⟨sum, hsum, hle⟩ := houtputs hother
    rw [hregistration] at hpayload
    exact ⟨hversion, sum, hsum, hle, hplacement, hauth, hregistrant hother, hpayload⟩

theorem structure_iff_slash (hslash : tx.txType = .slashProducer) :
    validateTransactionSkipRegistrationVdf rules ctx tx = .ok () ↔
      Shaped ctx tx ∧ OwnRulesLeft rules ctx tx ∧ checkOutputPlacement ctx tx = .ok () ∧
        checkProducerAuth ctx tx = .ok () := by
  have hstructure : validateTransactionSkipRegistrationVdf rules ctx tx = .ok () ↔
      tx.version = 1 ∧ checkOutputPlacement ctx tx = .ok () ∧
        validateSlashDataSkipVdf ctx tx = .ok () := by
    simp only [validateTransactionSkipRegistrationVdf, hslash, bind_eq_ok, exists_unit,
      refuseIf_eq_ok, not_not]
  rw [hstructure]
  constructor
  · rintro ⟨hversion, hplacement, hpayload⟩
    refine ⟨⟨hversion, fun _ hother => absurd hslash hother⟩, ⟨fun hother =>
      absurd hslash hother, fun hother => absurd hslash hother, by rw [hslash]; exact hpayload⟩,
      hplacement, checkProducerAuth_slash hslash⟩
  · rintro ⟨⟨hversion, -⟩, ⟨-, -, hpayload⟩, hplacement, -⟩
    rw [hslash] at hpayload
    exact ⟨hversion, hplacement, hpayload⟩

theorem structure_iff_plain (hregistration : tx.txType ≠ .registration)
    (hslash : tx.txType ≠ .slashProducer) :
    validateTransactionSkipRegistrationVdf rules ctx tx = .ok () ↔
      Shaped ctx tx ∧ OwnRulesLeft rules ctx tx ∧ checkOutputPlacement ctx tx = .ok () ∧
        checkProducerAuth ctx tx = .ok () := by
  have hstructure : validateTransactionSkipRegistrationVdf rules ctx tx =
      Validation.validateTransaction rules ctx tx := by
    unfold validateTransactionSkipRegistrationVdf
    split
    case h_1 htype => exact absurd htype hregistration
    case h_2 htype => exact absurd htype hslash
    case h_3 => rfl
  have hpayload : (match tx.txType with
      | .registration => validateRegistrationDataSkipVdf ctx tx
      | .slashProducer => validateSlashDataSkipVdf ctx tx
      | _ => validatePayload rules ctx tx) = validatePayload rules ctx tx := by
    split
    case h_1 htype => exact absurd htype hregistration
    case h_2 htype => exact absurd htype hslash
    case h_3 => rfl
  rw [hstructure, Validation.validateTransaction_eq_ok]
  constructor
  · rintro ⟨hversion, hinputs, houtputs, hamm, sum, hsum, hplacement, hauth, hle,
      hregistrant, hown⟩
    exact ⟨⟨hversion, fun _ _ => ⟨hinputs, houtputs, hamm⟩⟩, ⟨fun _ => ⟨sum, hsum, hle⟩,
      fun _ => hregistrant, hpayload.trans hown⟩, hplacement, hauth⟩
  · rintro ⟨⟨hversion, hshape⟩, ⟨houtputs, hregistrant, hown⟩, hplacement, hauth⟩
    obtain ⟨hinputs, houtput, hamm⟩ := hshape hregistration hslash
    obtain ⟨sum, hsum, hle⟩ := houtputs hslash
    exact ⟨hversion, hinputs, houtput, hamm, sum, hsum, hplacement, hauth, hle,
      hregistrant hslash, hpayload.symm.trans hown⟩

theorem structure_iff :
    validateTransactionSkipRegistrationVdf rules ctx tx = .ok () ↔
      Shaped ctx tx ∧ OwnRulesLeft rules ctx tx ∧ checkOutputPlacement ctx tx = .ok () ∧
        checkProducerAuth ctx tx = .ok () := by
  by_cases hregistration : tx.txType = .registration
  · exact structure_iff_registration hregistration
  · by_cases hslash : tx.txType = .slashProducer
    · exact structure_iff_slash hslash
    · exact structure_iff_plain hregistration hslash

end

/-! ## A later height -/

section

variable {rules : OpenRules} {ctx chain : ValidationContext} {tx : Transaction}

theorem Shaped.later (hshaped : Shaped ctx tx)
    (hamm : chain.ammActivationHeight = ctx.ammActivationHeight)
    (hle : ctx.currentHeight ≤ chain.currentHeight) : Shaped chain tx := by
  refine ⟨hshaped.1, fun hregistration hslash => ?_⟩
  obtain ⟨hinputs, houtputs, hactive⟩ := hshaped.2 hregistration hslash
  refine ⟨hinputs, houtputs, fun hearly => hactive ⟨hearly.1, ?_⟩⟩
  have hlate := hearly.2
  omega

theorem checkPoolPlacement_later (hgate : chain.incI234ActivationHeight = ctx.incI234ActivationHeight)
    (hactive : ctx.incI234ActivationHeight ≤ ctx.currentHeight)
    (hle : ctx.currentHeight ≤ chain.currentHeight)
    (hok : checkPoolPlacement ctx tx = .ok ()) : checkPoolPlacement chain tx = .ok () := by
  rw [checkPoolPlacement, if_neg (by omega)] at hok ⊢
  exact hok

theorem checkProducerAuth_congr (hheight : chain.ruleHeight = ctx.ruleHeight)
    (hgate : chain.incI182ProducerAuthActivationHeight = ctx.incI182ProducerAuthActivationHeight)
    (hcrypto : chain.crypto = ctx.crypto) (hparams : chain.params = ctx.params) :
    checkProducerAuth chain tx = checkProducerAuth ctx tx := by
  unfold checkProducerAuth
  rw [hheight, hgate, hcrypto, hparams]

theorem checkValueAuthority_later {consumed : List Output}
    (hgate : chain.incI234ActivationHeight = ctx.incI234ActivationHeight)
    (hcrypto : chain.crypto = ctx.crypto)
    (hactive : ctx.incI234ActivationHeight ≤ ctx.currentHeight)
    (hle : ctx.currentHeight ≤ chain.currentHeight)
    (hok : checkValueAuthority ctx tx consumed = .ok ()) :
    checkValueAuthority chain tx consumed = .ok () := by
  rw [checkValueAuthority, if_neg (by omega)] at hok ⊢
  rw [hcrypto]
  exact hok

theorem spendLockVerdict_later {kind : TxType} {spent : Output} {low high gate : Nat}
    (hle : low ≤ high) (hgate : ¬(low < gate ∧ gate ≤ high))
    (hok : spendLockVerdict kind spent low gate = .ok ()) :
    spendLockVerdict kind spent high gate = .ok () := by
  have hspendable : spent.isSpendableAt low = true → spent.isSpendableAt high = true := by
    unfold Output.isSpendableAt
    simp only [decide_eq_true_eq]
    omega
  have hside : low < gate ↔ high < gate := by omega
  unfold spendLockVerdict at hok ⊢
  simp only [hside] at hok
  split at hok
  case isTrue hearly =>
    rw [if_pos hearly]
    split at hok
    case isTrue hbond => rw [if_pos hbond]
    case isFalse hbond =>
      rw [if_neg hbond]
      split at hok
      case isTrue hfree => rw [if_pos (hspendable hfree)]
      case isFalse => cases hok
  case isFalse hlate =>
    rw [if_neg hlate]
    split at hok
    case isTrue hbond => rw [if_pos hbond]; exact hok
    case isFalse hbond =>
      rw [if_neg hbond]
      split at hok
      case isTrue hfree => rw [if_pos (hspendable hfree)]
      case isFalse => cases hok

end

/-! ## What both lanes judge -/

section

variable {config : MempoolConfig} {chain : ValidationContext} {tx : Transaction}
  {judgement : Judgement} {tip : Nat}

/-- The context that a lane judges the rules without inputs in. -/
structure Judges (config : MempoolConfig) (judgement : Judgement) (ctx : ValidationContext) :
    Prop where
  tip : ctx.currentHeight = judgement.tip
  rules : ctx.ruleHeight = min judgement.ruleHeight (2 ^ 64 - 1)
  utxo : ctx.utxo = config.gates.base.utxo
  crypto : ctx.crypto = config.gates.base.crypto
  params : ctx.params = config.gates.base.params
  amm : ctx.ammActivationHeight = config.gates.base.ammActivationHeight
  incI182 : ctx.incI182ProducerAuthActivationHeight =
    config.gates.base.incI182ProducerAuthActivationHeight
  incI234 : ctx.incI234ActivationHeight = config.gates.base.incI234ActivationHeight

theorem judged_of_admitted (hadmitted : Admitted config tx judgement) :
    ∃ ctx, Judges config judgement ctx ∧
      Validation.validateTransaction config.gates.rules.withPools ctx tx = .ok () := by
  cases hadmitted with
  | @user view pool utxos tip slot admission hok =>
      obtain ⟨judged, payment, hstructure, -, -, -, -⟩ := admissionOf_eq_ok.mp hok
      simp only [admitStructure, bind_eq_ok, exists_unit, mapError_eq_ok] at hstructure
      obtain ⟨-, -, -, found, -, hvalid, -⟩ := hstructure
      refine ⟨config.admissionBaseCtx view tip slot
        (pendingKeysFor config view pool tx (config.prim.txHash tx)),
        ⟨rfl, ?_, rfl, rfl, rfl, rfl, rfl, rfl⟩, hvalid⟩
      unfold ValidationContext.ruleHeight Judgement.ruleHeight nextHeight
      change min (tip + 1) (2 ^ 64 - 1) = min (min (tip + 1) (2 ^ 64 - 1)) (2 ^ 64 - 1)
      rw [Nat.min_assoc, Nat.min_self]
  | @system view policy pool tip hok =>
      simp only [checkSystemTransaction, bind_eq_ok, exists_unit, mapError_eq_ok] at hok
      obtain ⟨-, -, hvalid, -⟩ := hok
      exact ⟨config.systemCtx view tip
        (pendingKeysFor config view pool tx (config.prim.txHash tx)),
        ⟨rfl, rfl, rfl, rfl, rfl, rfl, rfl, rfl⟩, hvalid⟩

theorem utxo_of_minedAfter (hmined : MinedAfter config tip chain) :
    chain.utxo = config.gates.base.utxo := by
  unfold ValidationContext.utxo
  rw [hmined.crypto, hmined.network, hmined.incI257, hmined.unbonding]

theorem structure_of_left (hadmitted : Admitted config tx judgement)
    (hmined : MinedAfter config tip chain) (hle : judgement.tip ≤ tip)
    (hown : OwnRulesLeft config.gates.rules.withPools chain tx)
    (hplacement : judgement.ruleHeight ≠ chain.currentHeight →
      chain.utxo.checkUnbondingOutputs chain.currentHeight tx = .ok () ∧
        chain.utxo.checkBondOutputs chain.currentHeight tx = .ok () ∧
          checkProducerAuth chain tx = .ok ())
    (hpools : judgement.tip < chain.incI234ActivationHeight →
      checkPoolPlacement chain tx = .ok ()) :
    validateTransactionSkipRegistrationVdf config.gates.rules.withPools chain tx = .ok () := by
  obtain ⟨ctx, hjudges, hvalid⟩ := judged_of_admitted hadmitted
  obtain ⟨hversion, hinputs, houtputs, hamm, sum, hsum, hplaced, hauth, -, -, -⟩ :=
    Validation.validateTransaction_eq_ok.mp hvalid
  have hheight := hmined.height
  have hrange := hmined.inRange
  have hlater : ctx.currentHeight ≤ chain.currentHeight := by
    rw [hjudges.tip]
    omega
  have hrule : chain.ruleHeight = chain.currentHeight := by
    simp only [ValidationContext.ruleHeight, hmined.rules, Bool.toNat_false]
    omega
  have hshaped : Shaped ctx tx := ⟨hversion, fun _ _ => ⟨hinputs, houtputs, hamm⟩⟩
  rw [Validation.checkOutputPlacement_eq_ok] at hplaced
  have hpoolPlacement : checkPoolPlacement chain tx = .ok () := by
    by_cases hearly : judgement.tip < chain.incI234ActivationHeight
    · exact hpools hearly
    · rw [hmined.incI234, ← hjudges.incI234] at hearly
      have hgate : chain.incI234ActivationHeight = ctx.incI234ActivationHeight := by
        rw [hmined.incI234, hjudges.incI234]
      exact checkPoolPlacement_later hgate (by rw [hjudges.tip]; omega) hlater hplaced.2.2
  have hproducer : chain.utxo.checkUnbondingOutputs chain.currentHeight tx = .ok () ∧
      chain.utxo.checkBondOutputs chain.currentHeight tx = .ok () ∧
        checkProducerAuth chain tx = .ok () := by
    by_cases hsame : judgement.ruleHeight = chain.currentHeight
    · have hctx : ctx.ruleHeight = chain.currentHeight := by
        rw [hjudges.rules, hsame]
        omega
      have hutxo : chain.utxo = ctx.utxo := by
        rw [utxo_of_minedAfter hmined, hjudges.utxo]
      rw [hutxo, ← hctx]
      refine ⟨hplaced.1, hplaced.2.1, ?_⟩
      rw [checkProducerAuth_congr (hrule.trans hctx.symm)
        (hmined.incI182.trans hjudges.incI182.symm) (hmined.crypto.trans hjudges.crypto.symm)
        (hmined.params.trans hjudges.params.symm)]
      exact hauth
    · exact hplacement hsame
  rw [structure_iff, Validation.checkOutputPlacement_eq_ok, hrule]
  exact ⟨hshaped.later (hmined.amm.trans hjudges.amm.symm) hlater, hown,
    ⟨hproducer.1, hproducer.2.1, hpoolPlacement⟩, hproducer.2.2⟩

end

/-! ## What the user lane reads -/

/-- The output that the inputs are totalled with. -/
def readOutput (pool : Mempool) (utxos : StateDb) (input : Input) : Option Output :=
  ((parentOutput pool input).map Prod.snd).or
    ((utxos.getUtxo (inputOutpoint input)).map UtxoEntry.output)

section

variable {config : MempoolConfig} {pool : Mempool} {judged utxos : StateDb} {tx : Transaction}
  {tip : Nat}

/-- Every output read is free at the height after the tip. -/
structure ReadInputs (config : MempoolConfig) (pool : Mempool) (judged : StateDb)
    (kind : TxType) (tip : Nat) (inputs : List Input) (sum : Nat × Finset Hash) : Prop where
  unlocked : ∀ input ∈ inputs, ∃ spent, readOutput pool judged input = some spent ∧
    spendLockVerdict kind spent (nextHeight tip) config.params.incI257UnbondingActivationHeight =
      .ok ()
  total : sum.1 =
    total (fun input => (readOutput pool judged input).elim 0 nativeAmount) inputs % 2 ^ 64

theorem ReadInputs.step {done : List Input} {input : Input} {sum after : Nat × Finset Hash}
    (hread : ReadInputs config pool judged tx.txType tip done sum)
    (hok : calculateInput config pool judged tx tip sum input = .ok after) :
    ReadInputs config pool judged tx.txType tip (done ++ [input]) after := by
  obtain ⟨spent, hspent, hlock, hsum⟩ : ∃ spent, readOutput pool judged input = some spent ∧
      checkOutput config tx.txType spent tip = .ok () ∧
        after.1 = (sum.1 + nativeAmount spent) % 2 ^ 64 := by
    unfold calculateInput at hok
    split at hok
    case h_1 parent output hparent =>
      simp only [bind_eq_ok, exists_unit, mapError_eq_ok, pure, Except.pure,
        Except.ok.injEq] at hok
      obtain ⟨hlock, rfl⟩ := hok
      exact ⟨output, by simp [readOutput, hparent], hlock, rfl⟩
    case h_2 hnone =>
      cases hutxo : judged.getUtxo (inputOutpoint input) with
      | none => simp [hutxo] at hok
      | some utxo =>
          simp only [hutxo, bind_eq_ok, exists_unit, mapError_eq_ok, pure, Except.pure,
            Except.ok.injEq] at hok
          obtain ⟨hchecked, rfl⟩ := hok
          simp only [checkUtxo, bind_eq_ok, exists_unit] at hchecked
          exact ⟨utxo.output, by simp [readOutput, hnone, hutxo], hchecked.1, rfl⟩
  rw [checkOutput, mapError_eq_ok] at hlock
  refine ⟨?unlocked, ?total⟩
  case unlocked =>
    intro other hother
    rcases List.mem_append.mp hother with hdone | hlast
    · exact hread.unlocked other hdone
    · rw [List.mem_singleton.mp hlast]
      exact ⟨spent, hspent, hlock⟩
  case total =>
    rw [hsum, hread.total, total_append, total_cons, total_nil, hspent, Option.elim_some,
      Nat.add_zero, Nat.mod_add_mod]

theorem readInputs_of_calculateInputs {sum : Nat × Finset Hash}
    (hok : calculateInputs config pool judged tx tip = .ok sum) :
    ReadInputs config pool judged tx.txType tip tx.inputs sum := by
  refine run_invariant (ReadInputs config pool judged tx.txType tip) ⟨by simp, by simp⟩ ?_ hok
  intro done input rest current after _ hcurrent hstep
  exact hcurrent.step hstep

theorem output_of_agrees (hsame : (Judgement.user pool judged tip).Agrees utxos tx)
    {input : Input} (hinput : input ∈ tx.inputs) {entry : UtxoEntry}
    (hentry : utxos.getUtxo (inputOutpoint input) = some entry) {spent : Output}
    (hread : readOutput pool judged input = some spent ∨
      consumedOutput pool judged input = some spent) : spent = entry.output := by
  obtain ⟨hold, hparent⟩ := hsame input hinput entry hentry
  have hrow : ∀ found, (parentOutput pool input).map Prod.snd = some found →
      found = entry.output := by
    intro found hfound
    obtain ⟨row, hrow, rfl⟩ := Option.map_eq_some_iff.mp hfound
    exact hparent row hrow
  have hutxo : ∀ found, (judged.getUtxo (inputOutpoint input)).map UtxoEntry.output =
      some found → found = entry.output := by
    intro found hfound
    obtain ⟨old, hat, rfl⟩ := Option.map_eq_some_iff.mp hfound
    exact hold old hat
  unfold readOutput consumedOutput at hread
  simp only [Option.or_eq_some_iff] at hread
  rcases hread with (hmempool | ⟨-, hset⟩) | (hset | ⟨-, hmempool⟩)
  · exact hrow spent hmempool
  · exact hutxo spent hset
  · exact hutxo spent hset
  · exact hrow spent hmempool

theorem filterMap_of_resolve {inputs : List Input} {consumed : List Output}
    {output : Input → Option Output}
    (hread : ∀ input ∈ inputs, ∀ spent, consumedOutput pool judged input = some spent →
      output input = some spent)
    (hok : resolveConsumedOutputs pool judged inputs = .ok consumed) :
    consumed = inputs.filterMap output := by
  induction inputs generalizing consumed with
  | nil =>
      cases hok
      rfl
  | cons input inputs ih =>
      simp only [resolveConsumedOutputs, bind_eq_ok, orRefuse_eq_ok, pure, Except.pure,
        Except.ok.injEq] at hok
      obtain ⟨spent, hspent, rest, hrest, rfl⟩ := hok
      rw [List.filterMap_cons, hread input List.mem_cons_self spent hspent,
        ih (fun other hother => hread other (List.mem_cons_of_mem input hother)) hrest]

section

variable (hsame : (Judgement.user pool judged tip).Agrees utxos tx)
  (hinputs : ∀ input ∈ tx.inputs, (utxos.getUtxo (inputOutpoint input)).isSome)

include hsame hinputs

theorem consumed_of_resolve {consumed : List Output}
    (hok : resolveConsumedOutputs pool judged tx.inputs = .ok consumed) :
    consumed = consumedOutputs tx utxos.getUtxo := by
  refine filterMap_of_resolve ?_ hok
  intro input hinput spent hspent
  obtain ⟨entry, hentry⟩ := Option.isSome_iff_exists.mp (hinputs input hinput)
  rw [hentry, output_of_agrees hsame hinput hentry (.inr hspent), Option.map_some]

theorem native_of_readInputs {sum : Nat × Finset Hash}
    (hread : ReadInputs config pool judged tx.txType tip tx.inputs sum) :
    sum.1 = total nativeAmount (consumedOutputs tx utxos.getUtxo) % 2 ^ 64 := by
  rw [hread.total, consumedOutputs, total_filterMap]
  congr 1
  apply total_congr
  intro input hinput
  obtain ⟨entry, hentry⟩ := Option.isSome_iff_exists.mp (hinputs input hinput)
  obtain ⟨spent, hspent, -⟩ := hread.unlocked input hinput
  rw [hspent, hentry, output_of_agrees hsame hinput hentry (.inl hspent), Option.map_some]

end

/-! ## What the user lane judges -/

theorem feeExempt_of_needsPool {kind : TxType} (hneeds : Validation.needsPool kind = true) :
    Validation.isNativeFeeExempt kind = true := by
  cases kind <;> simp [Validation.needsPool] at hneeds <;> rfl

section

variable {view : NodeView} {chain : ValidationContext} {height slot : Nat} {admission : Admission}
  (hok : admissionOf config view pool judged tx tip slot = .ok admission)
  (hsame : (Judgement.user pool judged tip).Agrees utxos tx)

include hok hsame

theorem conditions_of_signed {index : Nat} {input : Input} {entry : UtxoEntry}
    (hinput : (input, index) ∈ tx.inputs.zipIdx)
    (hentry : utxos.getUtxo (inputOutpoint input) = some entry)
    (hsigned : (Judgement.user pool judged tip).signed config tx index input entry.output = true) :
    verifyInputConditions config.crypto config.sigVerificationHeight height tx index input
      entry.output = .ok () := by
  obtain ⟨payment, found, -, hspends, -, -, -⟩ := admissionOf_eq_ok.mp hok
  simp only [admitSpends, bind_eq_ok, exists_unit, checkEach_eq_ok] at hspends
  have hspend := hspends.1 (input, index) hinput
  simp only [Judgement.signed, Bool.and_eq_true] at hsigned
  obtain ⟨old, hold⟩ := Option.isSome_iff_exists.mp hsigned.1
  have hmem : input ∈ tx.inputs := (List.mem_zipIdx' hinput).2 ▸ List.getElem_mem _
  have hsameOutput := (hsame input hmem entry hentry).1 old hold
  simp only [checkSpend, hold, seq_eq_ok, checkWhen_eq_ok, hsameOutput] at hspend
  have hsignature := hspend.1 hsigned.2
  simp only [checkInputSignature, bind_eq_ok, exists_unit, orRefuse_eq_ok, refuseIf_eq_ok,
    ne_eq, not_not, Bool.not_eq_false] at hsignature
  obtain ⟨key, hkey, hhash, hverified⟩ := hsignature
  have hplain : Validation.isConditioned entry.output.outputType = false := by
    have hrequired := hsigned.2
    simp only [signatureRequired, Bool.and_eq_true, Bool.not_eq_true'] at hrequired
    exact hrequired.1.1
  rw [verifyInputConditions, if_neg (by simp [hplain]), Validation.verifyInputSignature, hkey]
  simp only [seq_eq_ok, refuseIf_eq_ok, ne_eq, not_not, Bool.not_eq_false]
  exact ⟨hhash, hverified⟩

theorem unlocked_of_admission {input : Input} (hinput : input ∈ tx.inputs) {entry : UtxoEntry}
    (hentry : utxos.getUtxo (inputOutpoint input) = some entry) :
    spendLockVerdict tx.txType entry.output (nextHeight tip)
      config.params.incI257UnbondingActivationHeight = .ok () := by
  obtain ⟨found, payment, -, -, hpayment, -, -⟩ := admissionOf_eq_ok.mp hok
  obtain ⟨inputs, consumed, fee, hread, -⟩ := admitPayment_eq_ok.mp hpayment
  obtain ⟨spent, hspent, hlock⟩ := (readInputs_of_calculateInputs hread).unlocked input hinput
  rwa [output_of_agrees hsame hinput hentry (.inl hspent)] at hlock

variable (hinputs : ∀ input ∈ tx.inputs, (utxos.getUtxo (inputOutpoint input)).isSome)

include hinputs

theorem authority_of_admission (hmined : MinedAfter config height chain) (hle : tip ≤ height)
    (hactive : config.gates.base.incI234ActivationHeight ≤ tip) :
    checkValueAuthority chain tx (consumedOutputs tx utxos.getUtxo) = .ok () := by
  obtain ⟨found, payment, -, -, hpayment, -, -⟩ := admissionOf_eq_ok.mp hok
  obtain ⟨inputs, consumed, fee, -, hconsumed, hauthority, -⟩ := admitPayment_eq_ok.mp hpayment
  have hgated : authorityGated config tip = true := decide_eq_true hactive
  simp only [hgated, Bool.or_true, if_true] at hconsumed
  rw [← consumed_of_resolve hsame hinputs hconsumed]
  have hheight := hmined.height
  have hlater : tip ≤ chain.currentHeight := by omega
  exact @checkValueAuthority_later (config.admissionBaseCtx view tip slot
    (pendingKeysFor config view pool tx (config.prim.txHash tx))) chain tx consumed
    hmined.incI234 hmined.crypto hactive hlater (hauthority hgated)

theorem conservation_of_admission (hmined : MinedAfter config height chain) (hle : tip ≤ height)
    (hfits : total nativeAmount (consumedOutputs tx utxos.getUtxo) < 2 ^ 64)
    (hgate : ¬(isAmmPoolTx tx = true ∧ tip < config.gates.incI096ActivationHeight)) :
    checkConservation (minedContext config chain) tx (consumedOutputs tx utxos.getUtxo) =
      .ok () := by
  obtain ⟨found, payment, -, -, hpayment, -, -⟩ := admissionOf_eq_ok.mp hok
  obtain ⟨inputs, consumed, fee, hread, hconsumed, -, hfee, -⟩ := admitPayment_eq_ok.mp hpayment
  have hnative := native_of_readInputs hsame hinputs (readInputs_of_calculateInputs hread)
  rw [Nat.mod_eq_of_lt hfits] at hnative
  have hheight := hmined.height
  unfold calculateFee at hfee
  cases hamm : isAmmPoolTx tx with
  | true =>
      rw [hamm] at hgate
      have hopen : config.gates.incI096ActivationHeight ≤ tip := by
        by_contra hearly
        exact hgate ⟨rfl, by omega⟩
      have hgated : ammGated config tx tip = true := by
        simp [ammGated, hamm, hopen]
      rw [hgated] at hconsumed hfee
      simp only [Bool.true_or, if_true] at hconsumed hfee
      have hamount : Validation.verifyAmmConservation tx.txType consumed tx.outputs = .ok () := by
        cases hverdict : Validation.verifyAmmConservation tx.txType consumed tx.outputs with
        | error error => simp [hverdict, Except.mapError, Except.map] at hfee
        | ok _ => rfl
      have hlater : config.gates.incI096ActivationHeight ≤ chain.currentHeight := by omega
      rw [checkConservation, if_pos ⟨hamm, hlater⟩,
        ← consumed_of_resolve hsame hinputs hconsumed]
      exact hamount
  | false =>
      have hgated : ammGated config tx tip = false := by
        simp [ammGated, hamm]
      rw [hgated] at hfee
      simp only [Bool.false_eq_true, if_false, bind_eq_ok, exists_unit, refuseIf_eq_ok] at hfee
      rw [checkConservation, if_neg (by simp [hamm]), refuseIf_eq_ok, ← hnative]
      exact hfee.1

theorem fee_of_admission (hslash : tx.txType ≠ .slashProducer)
    (hfits : total nativeAmount (consumedOutputs tx utxos.getUtxo) < 2 ^ 64) :
    Validation.checkFee (minedContext config chain) tx (consumedOutputs tx utxos.getUtxo) =
      .ok () := by
  obtain ⟨found, payment, -, -, hpayment, -, -⟩ := admissionOf_eq_ok.mp hok
  obtain ⟨inputs, consumed, fee, hread, -, -, hfee, hchecked, -⟩ :=
    admitPayment_eq_ok.mp hpayment
  have hnative := native_of_readInputs hsame hinputs (readInputs_of_calculateInputs hread)
  rw [Nat.mod_eq_of_lt hfits] at hnative
  unfold Validation.checkFee
  split
  · rfl
  case isFalse hpays =>
    simp only [Bool.not_eq_true, Bool.or_eq_false_iff] at hpays
    have hexempt : (found.any fun ctx => Validation.slashFeeExempt ctx tx) = false := by
      cases found with
      | none => rfl
      | some ctx => simp [Validation.slashFeeExempt, hslash]
    have hneeds : Validation.needsPool tx.txType = false := by
      rw [Bool.eq_false_iff]
      intro hneeds
      rw [feeExempt_of_needsPool hneeds] at hpays
      cases hpays.1
    have hgated : ammGated config tx tip = false := by
      simp [ammGated, isAmmPoolTx, hneeds]
    simp only [Doli.checkFee, hgated, hpays.1, hexempt, Bool.not_false, Bool.or_self,
      Bool.and_self, checkWhen_eq_ok, seq_eq_ok, refuseIf_eq_ok, forall_const] at hchecked
    rw [calculateFee, hgated] at hfee
    simp only [Bool.false_eq_true, if_false, bind_eq_ok, exists_unit, refuseIf_eq_ok, pure,
      Except.pure, Except.ok.injEq] at hfee
    rw [refuseIf_eq_ok, ← hnative, hfee.2]
    exact hchecked.1

end

end

/-! ## The two together -/

section

variable {config : MempoolConfig} {chain : ValidationContext} {utxos : StateDb}
  {tx : Transaction} {judgement : Judgement} {tip : Nat}

section

variable {index : Nat} {input : Input} {entry : UtxoEntry}
  (hmined : MinedAfter config tip chain) (hinput : (input, index) ∈ tx.inputs.zipIdx)

include hmined hinput

theorem inputLeft_of_checked {spent : Output}
    (hspends : InputSpends (minedContext config chain).utxo chain.currentHeight tx.txType spent)
    (hchecked : Validation.checkInput (minedContext config chain) tx ((input, spent), index) =
      .ok ()) :
    InputLeft config chain tx judgement index input spent := by
  simp only [Validation.checkInput, seq_eq_ok, checkWhen_eq_ok, Bool.not_eq_true'] at hchecked
  have hat : tx.inputs[index]? = some input := List.mk_mem_zipIdx_iff_getElem?.mp hinput
  refine ⟨hchecked.1, hspends.rollup, fun _ => ?_, ?_⟩
  · rw [hmined.incI257Params, ← hmined.incI257]
    exact hspends.unlocked
  · cases hexempt : conditionsExempt (minedContext config chain) tx index spent with
    | true => exact .inl rfl
    | false =>
        have hconditions := hchecked.2 hexempt
        simp only [minedContext, hat] at hconditions
        exact .inr (.inr hconditions)

theorem checked_of_inputLeft (hadmitted : Admitted config tx judgement)
    (hsame : judgement.Agrees utxos tx) (hle : judgement.tip ≤ tip)
    (hentry : utxos.getUtxo (inputOutpoint input) = some entry)
    (hleft : InputLeft config chain tx judgement index input entry.output) :
    InputSpends (minedContext config chain).utxo chain.currentHeight tx.txType entry.output ∧
      Validation.checkInput (minedContext config chain) tx ((input, entry.output), index) =
        .ok () := by
  have hat : tx.inputs[index]? = some input := List.mk_mem_zipIdx_iff_getElem?.mp hinput
  have hmem : input ∈ tx.inputs := List.mem_of_getElem? hat
  have hheight := hmined.height
  have hrange := hmined.inRange
  constructor
  · refine ⟨hleft.rollup, ?_⟩
    change spendLockVerdict tx.txType entry.output chain.currentHeight
      chain.incI257UnbondingActivationHeight = .ok ()
    rw [hmined.incI257, ← hmined.incI257Params]
    cases hadmitted with
    | system hok => exact hleft.unlocked (.inl rfl)
    | @user view pool judged before slot admission hok =>
        by_cases hgate : nextHeight before < config.params.incI257UnbondingActivationHeight ∧
            config.params.incI257UnbondingActivationHeight ≤ chain.currentHeight
        · exact hleft.unlocked (.inr hgate)
        · have hlater : nextHeight before ≤ chain.currentHeight := by
            change before ≤ tip at hle
            unfold nextHeight
            omega
          exact spendLockVerdict_later hlater hgate (unlocked_of_admission hok hsame hmem hentry)
  · simp only [Validation.checkInput, seq_eq_ok, checkWhen_eq_ok, Bool.not_eq_true']
    refine ⟨hleft.committed, fun hexempt => ?_⟩
    simp only [minedContext, hat]
    rcases hleft.conditions with hfree | hsigned | hverified
    · rw [hfree] at hexempt
      cases hexempt
    · cases hadmitted with
      | system hok => cases hsigned
      | @user view pool judged before slot admission hok =>
          exact conditions_of_signed hok hsame hinput hentry hsigned
    · exact hverified

end

section

variable (hadmitted : Admitted config tx judgement) (hsame : judgement.Agrees utxos tx)
  (hle : judgement.tip ≤ tip) (hmined : MinedAfter config tip chain)
  (hinputs : ∀ input ∈ tx.inputs, (utxos.getUtxo (inputOutpoint input)).isSome)
  (hleft : LeftOpen config chain tx utxos judgement)

include hadmitted hsame hle hmined hinputs hleft

theorem authority_of_leftOpen :
    checkValueAuthority chain tx (consumedOutputs tx utxos.getUtxo) = .ok () := by
  cases hadmitted with
  | system hok => exact hleft.authority (.inl rfl)
  | @user view pool judged before slot admission hok =>
      by_cases hearly : before < chain.incI234ActivationHeight
      · exact hleft.authority (.inr hearly)
      · rw [hmined.incI234, Nat.not_lt] at hearly
        exact authority_of_admission hok hsame hinputs hmined hle hearly

theorem balance_of_leftOpen :
    Validation.checkBalance (minedContext config chain) tx (consumedOutputs tx utxos.getUtxo) =
      .ok () := by
  unfold Validation.checkBalance
  split
  · rfl
  case isFalse hpays =>
    rw [Bool.not_eq_true] at hpays
    rw [seq_eq_ok]
    cases hadmitted with
    | system hok => exact ⟨hleft.conservation hpays (.inl rfl), hleft.fee hpays (.inl rfl)⟩
    | @user view pool judged before slot admission hok =>
        constructor
        · by_cases hgate : isAmmPoolTx tx = true ∧ before < config.gates.incI096ActivationHeight
          · exact hleft.conservation hpays (.inr hgate)
          · exact conservation_of_admission hok hsame hinputs hmined hle hleft.fits hgate
        · by_cases hslash : tx.txType = .slashProducer
          · exact hleft.fee hpays (.inr hslash)
          · exact fee_of_admission hok hsame hinputs hslash hleft.fits

end

end

/-! ## Residents -/

namespace Mempool

variable {config : MempoolConfig}

def AllAdmitted (config : MempoolConfig) (pool : Mempool) : Prop :=
  ∀ hash entry, pool.bareAt hash = some entry → ∃ judgement, Admitted config entry.tx judgement

theorem residents_admitted_of_run (policy : MempoolPolicy) (ops : List MempoolOp) :
    AllAdmitted config (mempoolRun config policy ops) := by
  intro hash bare hbare
  obtain ⟨entry, hinserted, rfl⟩ := inserted_of_run policy ops hash bare hbare
  cases hinserted with
  | user now hadmission => exact ⟨_, .user hadmission⟩
  | system now hchecked => exact ⟨_, .system hchecked⟩

end Mempool

/-! ## On given inputs -/

open Validation (sampleContext sampleSpend)

def sampleCommitted : Transaction :=
  { samplePayment ⟨⟨9⟩, 0⟩ 4900 with
    inputs := [{ sampleSpend 1 ⟨⟨9⟩, 0⟩ with committedOutputCount := 1 }] }

theorem sampleMinedAfter : MinedAfter sampleMempoolConfig 20 (sampleContext 21) := by
  constructor
  case inRange => norm_num
  all_goals rfl

theorem admitted_of_isOk {config : MempoolConfig} {view : NodeView} {pool : Mempool}
    {utxos : StateDb} {tx : Transaction} {tip slot : Nat}
    (hok : (admissionOf config view pool utxos tx tip slot).isOk = true) :
    Admitted config tx (.user pool utxos tip) := by
  obtain ⟨admission, hadmission⟩ := exists_eq_ok hok
  exact .user hadmission

theorem agrees_of_empty {policy : MempoolPolicy} {utxos : StateDb} {tx : Transaction}
    {tip : Nat} : (Judgement.user (.new policy) utxos tip).Agrees utxos tx := by
  intro input _ entry hentry
  constructor
  · intro old hold
    rw [hentry] at hold
    cases hold
    rfl
  · intro row hrow
    simp [parentOutput, Mempool.new] at hrow

end Doli
