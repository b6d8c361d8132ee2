import Doli.Validation.BlockRules

/-!
# The parallel pass changes no verdict

The pass and the sequential checks read one payload with one decoder, so a transaction
passes both exactly when it passes `validateTransaction`.  What the pass skips the
sequential checks refuse.
-/

namespace Doli.Validation

open Doli.Core Doli.Lib

variable {rules : OpenRules} {ctx : ValidationContext} {tx : Transaction} {block : Block}

theorem map_eq_ok {α ε : Type} {result : Except ε α} :
    (result.map fun _ => ()) = .ok () ↔ ∃ value, result = .ok value := by
  cases result with
  | error error => simp [Except.map]
  | ok value => simp [Except.map]

/-! ## One transaction -/

theorem heavyVdf_registration {data : RegistrationData} (htype : tx.txType = .registration)
    (hread : readRegistration ctx tx = .ok data) :
    heavyVdf ctx tx = validateRegistrationVdf ctx data := by
  obtain ⟨hextra, hdecode⟩ := readRegistration_eq_ok.mp hread
  rw [heavyVdf, if_neg hextra]
  simp only [htype, hdecode]

theorem registration_split (htype : tx.txType = .registration) :
    validateRegistrationData ctx tx = .ok () ↔
      heavyVdf ctx tx = .ok () ∧ validateRegistrationDataSkipVdf ctx tx = .ok () := by
  rw [validateRegistrationData, validateRegistrationDataSkipVdf,
    validateRegistrationDataInner_eq_ok, validateRegistrationDataInner_eq_ok]
  constructor
  · rintro ⟨data, hread, hholds, hvdf⟩
    exact ⟨(heavyVdf_registration htype hread).trans hvdf, data, hread, hholds, rfl⟩
  · rintro ⟨hheavy, data, hread, hholds, -⟩
    exact ⟨data, hread, hholds, (heavyVdf_registration htype hread).symm.trans hheavy⟩

theorem checkHeaderVdf_eq_ok {header : BlockHeader} {message : String} :
    checkHeaderVdf ctx header message = .ok () ↔ validateVdf ctx header = .ok () :=
  mapError_eq_ok

theorem checkEvidence_split {data : Validation.SlashData}
    (htype : tx.txType = .slashProducer) (hextra : tx.extraData ≠ [])
    (hread : decodeSlashData ctx tx.extraData = .ok data) :
    checkEvidence ctx data true = .ok () ↔
      heavyVdf ctx tx = .ok () ∧ checkEvidence ctx data false = .ok () := by
  rw [heavyVdf, if_neg hextra]
  obtain ⟨accused, evidence, signature⟩ := data
  cases evidence with
  | doubleProduction first second =>
      simp only [htype, hread, checkEvidence, validateDoubleProduction, checkEvidenceVdf,
        checkWhen_eq_ok, bind_eq_ok, exists_unit, mapError_eq_ok, checkHeaderVdf_eq_ok,
        true_implies, Bool.false_eq_true, false_implies, and_true]
      exact and_comm
  | priceAttestationEquivocation first second =>
      simp only [htype, hread, checkEvidence, true_and]

theorem validateSlash_eq_ok {verifyVdf : Bool} {data : Validation.SlashData} :
    validateSlash ctx tx verifyVdf = .ok data ↔
      tx.inputs = [] ∧ tx.outputs = [] ∧ tx.extraData ≠ [] ∧
        decodeSlashData ctx tx.extraData = .ok data ∧
          checkWhen ctx.slashRuleActive (checkCanonical ctx tx data) = .ok () ∧
            checkEvidence ctx data verifyVdf = .ok () := by
  simp only [validateSlash, bind_eq_ok, exists_unit, refuseIf_eq_ok, not_not, ne_eq]
  constructor
  · rintro ⟨hinputs, houtputs, hextra, found, hread, hcanonical, hevidence, hdata⟩
    obtain rfl := Except.ok.inj hdata
    exact ⟨hinputs, houtputs, hextra, hread, hcanonical, hevidence⟩
  · rintro ⟨hinputs, houtputs, hextra, hread, hcanonical, hevidence⟩
    exact ⟨hinputs, houtputs, hextra, data, hread, hcanonical, hevidence, rfl⟩

theorem slash_split (htype : tx.txType = .slashProducer) :
    validateSlashData ctx tx = .ok () ↔
      heavyVdf ctx tx = .ok () ∧ validateSlashDataSkipVdf ctx tx = .ok () := by
  rw [validateSlashData, validateSlashDataSkipVdf, map_eq_ok, map_eq_ok]
  simp only [validateSlash_eq_ok]
  constructor
  · rintro ⟨data, hinputs, houtputs, hextra, hread, hcanonical, hevidence⟩
    obtain ⟨hheavy, hevidence⟩ := (checkEvidence_split htype hextra hread).mp hevidence
    exact ⟨hheavy, data, hinputs, houtputs, hextra, hread, hcanonical, hevidence⟩
  · rintro ⟨hheavy, data, hinputs, houtputs, hextra, hread, hcanonical, hevidence⟩
    exact ⟨data, hinputs, houtputs, hextra, hread, hcanonical,
      (checkEvidence_split htype hextra hread).mpr ⟨hheavy, hevidence⟩⟩

theorem heavyVdf_light (hregistration : tx.txType ≠ .registration)
    (hslash : tx.txType ≠ .slashProducer) : heavyVdf ctx tx = .ok () := by
  unfold heavyVdf
  split
  case isTrue => rfl
  case isFalse =>
    split
    case h_1 htype => exact absurd htype hregistration
    case h_2 htype => exact absurd htype hslash
    case h_3 => rfl

theorem validateTransaction_registration (htype : tx.txType = .registration) :
    validateTransaction rules ctx tx = .ok () ↔
      tx.version = 1 ∧ ∃ total, validateOutputs rules ctx tx.outputs = .ok total ∧
        checkOutputPlacement ctx tx = .ok () ∧ checkProducerAuth ctx tx = .ok () ∧
          total ≤ totalSupply ∧ validateNotSlashedRegistrant ctx tx = .ok () ∧
            validateRegistrationData ctx tx = .ok () := by
  have hinputs : judgesOwnInputs tx = true := by simp [judgesOwnInputs, htype]
  simp only [validateTransaction_eq_ok, validatePayload, htype, hinputs, judgesOwnOutputs,
    isAmm, and_false, false_and, not_false_eq_true, true_and, Bool.true_eq_false,
    Bool.false_eq_true]

theorem validateTransaction_slash (htype : tx.txType = .slashProducer) :
    validateTransaction rules ctx tx = .ok () ↔
      tx.version = 1 ∧ checkOutputPlacement ctx tx = .ok () ∧
        validateSlashData ctx tx = .ok () := by
  have hinputs : judgesOwnInputs tx = true := by simp [judgesOwnInputs, htype]
  have hauth : checkProducerAuth ctx tx = .ok () := by
    simp [checkProducerAuth, isProducerPayload, htype]
  have hregistrant : validateNotSlashedRegistrant ctx tx = .ok () := by
    simp [validateNotSlashedRegistrant, slashRegistrant, htype]
  simp only [validateTransaction_eq_ok, validatePayload, htype, hinputs, hauth, hregistrant,
    judgesOwnOutputs, isAmm, and_false, false_and, not_false_eq_true, true_and,
    Bool.true_eq_false, Bool.false_eq_true]
  constructor
  · rintro ⟨hversion, total, -, hplacement, -, hslash⟩
    exact ⟨hversion, hplacement, hslash⟩
  · rintro ⟨hversion, hplacement, hslash⟩
    obtain ⟨data, hdata⟩ := map_eq_ok.mp hslash
    have houtputs := (validateSlash_eq_ok.mp hdata).2.1
    rw [houtputs, validateOutputs_nil]
    exact ⟨hversion, 0, rfl, hplacement, Nat.zero_le _, hslash⟩

theorem validateTransaction_split :
    validateTransaction rules ctx tx = .ok () ↔
      heavyVdf ctx tx = .ok () ∧
        validateTransactionSkipRegistrationVdf rules ctx tx = .ok () := by
  unfold validateTransactionSkipRegistrationVdf
  split
  case h_1 htype =>
    rw [validateTransaction_registration htype, registration_split htype]
    simp only [bind_eq_ok, exists_unit, refuseIf_eq_ok, not_not, not_lt, ne_eq]
    constructor
    · rintro ⟨hversion, total, houtputs, hplacement, hauth, hsupply, hregistrant, hheavy,
        hdata⟩
      exact ⟨hheavy, hversion, total, houtputs, hsupply, hplacement, hauth, hregistrant,
        hdata⟩
    · rintro ⟨hheavy, hversion, total, houtputs, hsupply, hplacement, hauth, hregistrant,
        hdata⟩
      exact ⟨hversion, total, houtputs, hplacement, hauth, hsupply, hregistrant, hheavy,
        hdata⟩
  case h_2 htype =>
    rw [validateTransaction_slash htype, slash_split htype]
    simp only [bind_eq_ok, exists_unit, refuseIf_eq_ok, not_not, ne_eq]
    constructor
    · rintro ⟨hversion, hplacement, hheavy, hdata⟩
      exact ⟨hheavy, hversion, hplacement, hdata⟩
    · rintro ⟨hheavy, hversion, hplacement, hdata⟩
      exact ⟨hversion, hplacement, hheavy, hdata⟩
  case h_3 hregistration hslash =>
    rw [heavyVdf_light hregistration hslash, eq_self, true_and]

/-! ## A block -/

/-- The checks of the Full arm with every transaction validated in order. -/
def validateBlockSequential (rules : OpenRules) (ctx : ValidationContext)
    (block : Block) : Verdict := do
  checkEveryMode ctx block
  validateFull ctx block (checkEach (validateTransaction rules ctx) block.transactions)

theorem checkTransactions_eq_ok :
    checkTransactions rules ctx block = .ok () ↔
      checkEach (validateTransaction rules ctx) block.transactions = .ok () := by
  unfold checkTransactions
  split
  case isTrue hheavy =>
    simp only [seq_eq_ok, parallelVdfPass, checkEach_eq_ok, validateTransaction_split]
    constructor
    · rintro ⟨hpass, hskip⟩ tx htx
      exact ⟨hpass tx htx, hskip tx htx⟩
    · intro hboth
      exact ⟨fun tx htx => (hboth tx htx).1, fun tx htx => (hboth tx htx).2⟩
  case isFalse => rfl

theorem validateFull_eq_ok {checkTxs : Verdict} :
    validateFull ctx block checkTxs = .ok () ↔
      validateHeader ctx block.header = .ok () ∧ checkBody ctx block = .ok () ∧
        checkTxs = .ok () ∧ checkInternalDoubleSpend block.transactions = .ok () ∧
          checkHeaderWork ctx block = .ok () ∧
            validateProducerEligibility ctx block.header = .ok () := by
  simp only [validateFull, bind_eq_ok, exists_unit]

theorem checkIdentity_checkSlot_of_validateHeader {header : BlockHeader}
    (hok : validateHeader ctx header = .ok ()) :
    checkIdentity ctx header = .ok () ∧ checkSlot ctx header = .ok () := by
  simp only [validateHeader, bind_eq_ok, exists_unit] at hok
  obtain ⟨hidentity, -, -, hslot, -⟩ := hok
  exact ⟨hidentity, hslot⟩

theorem light_of_full
    (hfull : validateBlockWithMode rules ctx block .full = .ok ()) :
    validateBlockWithMode rules ctx block .light = .ok () := by
  simp only [validateBlockWithMode, seq_eq_ok, validateFull_eq_ok, checkTransactions_eq_ok]
    at hfull
  obtain ⟨hevery, hheader, hbody, htxs, hspends, -, -⟩ := hfull
  obtain ⟨hidentity, hslot⟩ := checkIdentity_checkSlot_of_validateHeader hheader
  simp only [validateBlockWithMode, validateLight, seq_eq_ok]
  exact ⟨hevery, hidentity, hslot, hbody, htxs, hspends⟩

/-- The parallel pass changes no verdict, and Full acceptance is Light acceptance. -/
theorem prepass_changes_no_verdict (rules : OpenRules) (ctx : ValidationContext)
    (block : Block) :
    (validateBlockWithMode rules ctx block .full = .ok () ↔
      validateBlockSequential rules ctx block = .ok ()) ∧
    (validateBlockWithMode rules ctx block .full = .ok () →
      validateBlockWithMode rules ctx block .light = .ok ()) := by
  constructor
  · simp only [validateBlockWithMode, validateBlockSequential, seq_eq_ok, validateFull_eq_ok,
      checkTransactions_eq_ok]
  · exact light_of_full

end Doli.Validation
