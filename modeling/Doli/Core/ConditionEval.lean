import Doli.Core.Payload
import Doli.Core.Condition
import Doli.Lib.Checks

/-!
# Evaluation of conditions

`evaluate` walks a condition with a cursor into the branch selectors of the witness.  Every
`Or` it meets takes the next selector; once they run out it tries both sides.  What it
accepts is satisfied, and without selectors it accepts all that is.
-/

namespace Doli.Core

open Doli.Lib

/-- Witness and context of an evaluation; `verifyHash` is the signature check. -/
structure EvalEnv where
  prim : Primitives
  verifyHash : Hash → Signature → PublicKey → Bool
  witness : Witness
  currentHeight : Nat
  signingHash : Hash
  transaction : Option Transaction

namespace EvalEnv

variable (env : EvalEnv)

/-- The length of an address, up to which key hashes are compared. -/
def addressLength : Nat := 20

/-- The key of a witness signature has the address, and the signature verifies. -/
def signsFor (expected : Hash) (signed : WitnessSignature) : Bool :=
  decide ((env.prim.addressOf signed.pubkey).asBytes.take addressLength =
      expected.asBytes.take addressLength) &&
    env.verifyHash env.signingHash signed.signature signed.pubkey

def hasSignature (expected : Hash) : Bool :=
  env.witness.signatures.any (env.signsFor expected)

/-- The loop over the keys; the `u8` counter stops at the threshold. -/
def multisigMet (required : Nat) : List Hash → Nat → Bool
  | [], _ => false
  | key :: keys, satisfied =>
      let next := if env.hasSignature key then satisfied + 1 else satisfied
      if required ≤ next then true else multisigMet required keys next

def preimageMet (expected : Hash) : Bool :=
  match env.witness.preimage with
  | some preimage => env.prim.hashWithDomain (ascii "DOLI_HASHLOCK") preimage = expected
  | none => false

/-- The output of the spending transaction that a guard looks at. -/
def outputAt (index : Nat) : Option Output :=
  env.transaction.bind fun tx => tx.outputs[index]?

/-- `u64::abs_diff` -/
def absDiff (left right : Nat) : Nat := (left - right) + (right - left)

/-- The product of a `u64` and 10000 saturates no `u128`. -/
def deltaWithin (maxChangeBps referenceAmount : Nat) (output : Output) : Bool :=
  if referenceAmount = 0 then false
  else absDiff output.amount referenceAmount * 10000 / referenceAmount ≤ maxChangeBps

def ratioKept (minRatioBps : Nat) (reserve debt : Output) : Bool :=
  if debt.amount = 0 then false
  else minRatioBps ≤ reserve.amount * 10000 / debt.amount

def guardMet (index : Nat) (test : Output → Bool) : Bool :=
  match env.outputAt index with
  | some output => test output
  | none => false

mutual

/-- The verdict, and the cursor afterwards. -/
def evaluate : Condition → Nat → Bool × Nat
  | .signature expected, cursor => (env.hasSignature expected, cursor)
  | .multisig required keys, cursor => (env.multisigMet required keys 0, cursor)
  | .hashlock expected, cursor => (env.preimageMet expected, cursor)
  | .timelock minHeight, cursor => (decide (minHeight ≤ env.currentHeight), cursor)
  | .timelockExpiry maxHeight, cursor => (decide (maxHeight ≤ env.currentHeight), cursor)
  | .and left right, cursor =>
      match evaluate left cursor with
      | (false, next) => (false, next)
      | (true, next) => evaluate right next
  | .or left right, cursor =>
      match env.witness.orBranches[cursor]? with
      | some true => evaluate right (cursor + 1)
      | some false => evaluate left (cursor + 1)
      | none =>
          match evaluate left cursor with
          | (true, next) => (true, next)
          | (false, next) => evaluate right next
  | .threshold n conditions, cursor => evaluateThreshold n conditions 0 cursor
  | .amountGuard minAmount outputIndex, cursor =>
      (env.guardMet outputIndex fun output => minAmount ≤ output.amount, cursor)
  | .outputTypeGuard expectedType outputIndex, cursor =>
      (env.guardMet outputIndex fun output => output.outputType = expectedType, cursor)
  | .recipientGuard expectedPubkeyHash outputIndex, cursor =>
      (env.guardMet outputIndex fun output => output.pubkeyHash = expectedPubkeyHash, cursor)
  | .maxDeltaGuard maxChangeBps referenceAmount outputIndex, cursor =>
      (env.guardMet outputIndex (deltaWithin maxChangeBps referenceAmount), cursor)
  | .reserveRatioGuard minRatioBps reserveOutputIndex debtOutputIndex, cursor =>
      (env.guardMet reserveOutputIndex fun reserve =>
        env.guardMet debtOutputIndex (ratioKept minRatioBps reserve), cursor)

/-- The loop over the conditions of a threshold. -/
def evaluateThreshold (n : Nat) : List Condition → Nat → Nat → Bool × Nat
  | [], _, cursor => (false, cursor)
  | condition :: conditions, satisfied, cursor =>
      match evaluate condition cursor with
      | (true, next) =>
          if n ≤ satisfied + 1 then (true, next)
          else evaluateThreshold n conditions (satisfied + 1) next
      | (false, next) => evaluateThreshold n conditions satisfied next

end

/-! ## Satisfaction -/

/-- A signature in the witness is good for the address. -/
def Signed (expected : Hash) : Prop :=
  ∃ signed ∈ env.witness.signatures, env.signsFor expected signed = true

/-- The declarative meaning of a condition. -/
inductive Satisfied : Condition → Prop
  | signature {expected : Hash} (hsigned : env.Signed expected) :
      Satisfied (.signature expected)
  | multisig {required : Nat} {keys signers : List Hash} (hlisted : signers.Sublist keys)
      (henough : required ≤ signers.length) (hsigned : ∀ key ∈ signers, env.Signed key) :
      Satisfied (.multisig required keys)
  | hashlock {expected : Hash} {preimage : Bytes}
      (hshown : env.witness.preimage = some preimage)
      (hhash : env.prim.hashWithDomain (ascii "DOLI_HASHLOCK") preimage = expected) :
      Satisfied (.hashlock expected)
  | timelock {minHeight : Nat} (hreached : minHeight ≤ env.currentHeight) :
      Satisfied (.timelock minHeight)
  | timelockExpiry {maxHeight : Nat} (hreached : maxHeight ≤ env.currentHeight) :
      Satisfied (.timelockExpiry maxHeight)
  | and {left right : Condition} (hleft : Satisfied left) (hright : Satisfied right) :
      Satisfied (.and left right)
  | orLeft {left right : Condition} (hleft : Satisfied left) : Satisfied (.or left right)
  | orRight {left right : Condition} (hright : Satisfied right) : Satisfied (.or left right)
  | threshold {n : Nat} {conditions chosen : List Condition}
      (hlisted : chosen.Sublist conditions) (henough : n ≤ chosen.length)
      (hall : ∀ condition ∈ chosen, Satisfied condition) :
      Satisfied (.threshold n conditions)
  | amountGuard {minAmount index : Nat} {output : Output}
      (houtput : env.outputAt index = some output) (hamount : minAmount ≤ output.amount) :
      Satisfied (.amountGuard minAmount index)
  | outputTypeGuard {expectedType : OutputType} {index : Nat} {output : Output}
      (houtput : env.outputAt index = some output) (htype : output.outputType = expectedType) :
      Satisfied (.outputTypeGuard expectedType index)
  | recipientGuard {expected : Hash} {index : Nat} {output : Output}
      (houtput : env.outputAt index = some output) (howner : output.pubkeyHash = expected) :
      Satisfied (.recipientGuard expected index)
  | maxDeltaGuard {maxChangeBps referenceAmount index : Nat} {output : Output}
      (houtput : env.outputAt index = some output) (hreference : referenceAmount ≠ 0)
      (hdelta : absDiff output.amount referenceAmount * 10000 / referenceAmount ≤
        maxChangeBps) :
      Satisfied (.maxDeltaGuard maxChangeBps referenceAmount index)
  | reserveRatioGuard {minRatioBps reserveIndex debtIndex : Nat} {reserve debt : Output}
      (hreserve : env.outputAt reserveIndex = some reserve)
      (hdebt : env.outputAt debtIndex = some debt) (hpositive : debt.amount ≠ 0)
      (hratio : minRatioBps ≤ reserve.amount * 10000 / debt.amount) :
      Satisfied (.reserveRatioGuard minRatioBps reserveIndex debtIndex)

end EvalEnv

/-! ## Induction -/

@[elab_as_elim]
theorem Condition.treeInduction {motive : Condition → Prop}
    (hsignature : ∀ hash, motive (.signature hash))
    (hmultisig : ∀ required keys, motive (.multisig required keys))
    (hhashlock : ∀ hash, motive (.hashlock hash))
    (htimelock : ∀ height, motive (.timelock height))
    (hexpiry : ∀ height, motive (.timelockExpiry height))
    (hand : ∀ left right, motive left → motive right → motive (.and left right))
    (hor : ∀ left right, motive left → motive right → motive (.or left right))
    (hthreshold : ∀ n conditions, (∀ condition ∈ conditions, motive condition) →
      motive (.threshold n conditions))
    (hamount : ∀ amount index, motive (.amountGuard amount index))
    (htype : ∀ outputType index, motive (.outputTypeGuard outputType index))
    (hrecipient : ∀ hash index, motive (.recipientGuard hash index))
    (hdelta : ∀ bps amount index, motive (.maxDeltaGuard bps amount index))
    (hratio : ∀ bps reserve debt, motive (.reserveRatioGuard bps reserve debt))
    (condition : Condition) : motive condition := by
  refine @Condition.rec motive (fun conditions => ∀ condition ∈ conditions, motive condition)
    hsignature hmultisig hhashlock htimelock hexpiry hand hor hthreshold hamount htype
    hrecipient hdelta hratio ?_ ?_ condition
  · simp
  · intro condition conditions hfirst hrest
    exact List.forall_mem_cons.mpr ⟨hfirst, hrest⟩

namespace EvalEnv

variable {env : EvalEnv}

/-! ## Signatures -/

theorem hasSignature_iff {expected : Hash} :
    env.hasSignature expected = true ↔ env.Signed expected :=
  List.any_eq_true

theorem multisigMet_iff {required : Nat} {keys : List Hash} {satisfied : Nat} :
    env.multisigMet required keys satisfied = true ↔
      keys ≠ [] ∧ required ≤ satisfied + keys.countP env.hasSignature := by
  induction keys generalizing satisfied with
  | nil => simp [multisigMet]
  | cons key keys ih =>
      have hcount : (if env.hasSignature key then satisfied + 1 else satisfied) +
          keys.countP env.hasSignature = satisfied + (key :: keys).countP env.hasSignature := by
        rw [List.countP_cons]
        split
        · omega
        · rfl
      unfold multisigMet
      dsimp only
      generalize (if env.hasSignature key then satisfied + 1 else satisfied) = next at hcount ⊢
      split
      case isTrue hmet =>
        refine ⟨fun _ => ⟨List.cons_ne_nil key keys, ?_⟩, fun _ => rfl⟩
        omega
      case isFalse hmore =>
        rw [ih, hcount]
        constructor
        · exact fun hrest => ⟨List.cons_ne_nil key keys, hrest.2⟩
        · rintro ⟨-, henough⟩
          refine ⟨?_, henough⟩
          rintro rfl
          rw [List.countP_nil] at hcount
          omega

theorem countP_of_signers {keys signers : List Hash} (hlisted : signers.Sublist keys)
    (hsigned : ∀ key ∈ signers, env.Signed key) :
    signers.length ≤ keys.countP env.hasSignature := by
  have hall : signers.countP env.hasSignature = signers.length :=
    List.countP_eq_length.mpr fun key hkey => hasSignature_iff.mpr (hsigned key hkey)
  rw [← hall]
  exact hlisted.countP_le

/-! ## Guards -/

theorem guardMet_iff {index : Nat} {test : Output → Bool} :
    env.guardMet index test = true ↔
      ∃ output, env.outputAt index = some output ∧ test output = true := by
  unfold guardMet
  cases env.outputAt index with
  | none => simp
  | some output => simp

theorem deltaWithin_iff {maxChangeBps referenceAmount : Nat} {output : Output} :
    deltaWithin maxChangeBps referenceAmount output = true ↔
      referenceAmount ≠ 0 ∧
        absDiff output.amount referenceAmount * 10000 / referenceAmount ≤ maxChangeBps := by
  unfold deltaWithin
  split
  case isTrue hzero => simp [hzero]
  case isFalse hpositive => simp [hpositive]

theorem ratioKept_iff {minRatioBps : Nat} {reserve debt : Output} :
    ratioKept minRatioBps reserve debt = true ↔
      debt.amount ≠ 0 ∧ minRatioBps ≤ reserve.amount * 10000 / debt.amount := by
  unfold ratioKept
  split
  case isTrue hzero => simp [hzero]
  case isFalse hpositive => simp [hpositive]

/-! ## What is accepted is satisfied -/

theorem chosen_of_evaluateThreshold {n : Nat} {conditions : List Condition}
    (hsound : ∀ condition ∈ conditions, ∀ cursor,
      (env.evaluate condition cursor).1 = true → env.Satisfied condition)
    {satisfied cursor : Nat}
    (htrue : (env.evaluateThreshold n conditions satisfied cursor).1 = true) :
    ∃ chosen : List Condition, chosen.Sublist conditions ∧ n ≤ satisfied + chosen.length ∧
      ∀ condition ∈ chosen, env.Satisfied condition := by
  induction conditions generalizing satisfied cursor with
  | nil => simp [evaluateThreshold] at htrue
  | cons condition conditions ih =>
      obtain ⟨hfirst, hothers⟩ := List.forall_mem_cons.mp hsound
      have hverdict := hfirst cursor
      unfold evaluateThreshold at htrue
      split at htrue
      case h_1 next hnext =>
        rw [hnext] at hverdict
        have hmet := hverdict rfl
        split at htrue
        case isTrue henough =>
          refine ⟨[condition], ?_, henough, ?_⟩
          · exact List.singleton_sublist.mpr List.mem_cons_self
          · intro other hother
            rw [List.mem_singleton.mp hother]
            exact hmet
        case isFalse =>
          obtain ⟨chosen, hlisted, henough, hall⟩ := ih hothers htrue
          refine ⟨condition :: chosen, hlisted.cons_cons condition, ?_, ?_⟩
          · rw [List.length_cons]
            omega
          · exact List.forall_mem_cons.mpr ⟨hmet, hall⟩
      case h_2 =>
        obtain ⟨chosen, hlisted, henough, hall⟩ := ih hothers htrue
        exact ⟨chosen, hlisted.cons condition, henough, hall⟩

theorem satisfied_of_evaluate {condition : Condition} {cursor : Nat}
    (htrue : (env.evaluate condition cursor).1 = true) : env.Satisfied condition := by
  induction condition using Condition.treeInduction generalizing cursor with
  | hsignature hash => exact .signature (hasSignature_iff.mp htrue)
  | hmultisig required keys =>
      have hmet := (multisigMet_iff.mp htrue).2
      rw [Nat.zero_add, List.countP_eq_length_filter] at hmet
      refine .multisig List.filter_sublist hmet ?_
      intro key hkey
      exact hasSignature_iff.mp (List.mem_filter.mp hkey).2
  | hhashlock hash =>
      change env.preimageMet hash = true at htrue
      unfold preimageMet at htrue
      split at htrue
      case h_1 preimage hshown => exact .hashlock hshown (of_decide_eq_true htrue)
      case h_2 => contradiction
  | htimelock height => exact .timelock (of_decide_eq_true htrue)
  | hexpiry height => exact .timelockExpiry (of_decide_eq_true htrue)
  | hand left right ihLeft ihRight =>
      unfold evaluate at htrue
      split at htrue
      case h_1 => contradiction
      case h_2 next hleft => exact .and (ihLeft (by rw [hleft])) (ihRight htrue)
  | hor left right ihLeft ihRight =>
      unfold evaluate at htrue
      split at htrue
      case h_1 => exact .orRight (ihRight htrue)
      case h_2 => exact .orLeft (ihLeft htrue)
      case h_3 =>
        split at htrue
        case h_1 next hleft => exact .orLeft (ihLeft (by rw [hleft]))
        case h_2 => exact .orRight (ihRight htrue)
  | hthreshold n conditions ih =>
      have hsound : ∀ condition ∈ conditions, ∀ cursor,
          (env.evaluate condition cursor).1 = true → env.Satisfied condition :=
        fun condition hcondition cursor hmet => ih condition hcondition hmet
      obtain ⟨chosen, hlisted, henough, hall⟩ := chosen_of_evaluateThreshold hsound htrue
      exact .threshold hlisted (by omega) hall
  | hamount amount index =>
      obtain ⟨output, houtput, hmet⟩ := guardMet_iff.mp htrue
      exact .amountGuard houtput (of_decide_eq_true hmet)
  | htype outputType index =>
      obtain ⟨output, houtput, hmet⟩ := guardMet_iff.mp htrue
      exact .outputTypeGuard houtput (of_decide_eq_true hmet)
  | hrecipient hash index =>
      obtain ⟨output, houtput, hmet⟩ := guardMet_iff.mp htrue
      exact .recipientGuard houtput (of_decide_eq_true hmet)
  | hdelta bps amount index =>
      obtain ⟨output, houtput, hmet⟩ := guardMet_iff.mp htrue
      have hwithin := deltaWithin_iff.mp hmet
      exact .maxDeltaGuard houtput hwithin.1 hwithin.2
  | hratio bps reserve debt =>
      obtain ⟨output, hreserve, hmet⟩ := guardMet_iff.mp htrue
      obtain ⟨owed, hdebt, hmet⟩ := guardMet_iff.mp hmet
      have hkept := ratioKept_iff.mp hmet
      exact .reserveRatioGuard hreserve hdebt hkept.1 hkept.2

/-! ## Without selectors all that is satisfied is accepted -/

section Free

variable (hfree : env.witness.orBranches = [])

include hfree

omit hfree in
theorem cursor_evaluateThreshold {n : Nat} {conditions : List Condition}
    (hkept : ∀ condition ∈ conditions, ∀ cursor, (env.evaluate condition cursor).2 = cursor)
    (satisfied cursor : Nat) :
    (env.evaluateThreshold n conditions satisfied cursor).2 = cursor := by
  induction conditions generalizing satisfied with
  | nil => rfl
  | cons condition conditions ih =>
      obtain ⟨hfirst, hothers⟩ := List.forall_mem_cons.mp hkept
      have hcursor := hfirst cursor
      unfold evaluateThreshold
      split
      case h_1 next hnext =>
        rw [hnext] at hcursor
        obtain rfl : next = cursor := hcursor
        split
        · rfl
        · exact ih hothers (satisfied + 1)
      case h_2 next hnext =>
        rw [hnext] at hcursor
        obtain rfl : next = cursor := hcursor
        exact ih hothers satisfied

theorem cursor_evaluate (condition : Condition) (cursor : Nat) :
    (env.evaluate condition cursor).2 = cursor := by
  induction condition using Condition.treeInduction generalizing cursor with
  | hsignature => rfl
  | hmultisig => rfl
  | hhashlock => rfl
  | htimelock => rfl
  | hexpiry => rfl
  | hand left right ihLeft ihRight =>
      have hleft := ihLeft cursor
      unfold evaluate
      split
      case h_1 next hnext =>
        rw [hnext] at hleft
        exact hleft
      case h_2 next hnext =>
        rw [hnext] at hleft
        obtain rfl : next = cursor := hleft
        exact ihRight next
  | hor left right ihLeft ihRight =>
      have hleft := ihLeft cursor
      unfold evaluate
      rw [hfree, List.getElem?_nil]
      dsimp only
      split
      case h_1 next hnext =>
        rw [hnext] at hleft
        exact hleft
      case h_2 next hnext =>
        rw [hnext] at hleft
        obtain rfl : next = cursor := hleft
        exact ihRight next
  | hthreshold n conditions ih => exact cursor_evaluateThreshold ih 0 cursor
  | hamount => rfl
  | htype => rfl
  | hrecipient => rfl
  | hdelta => rfl
  | hratio => rfl

theorem evaluate_eq (condition : Condition) (cursor : Nat) :
    env.evaluate condition cursor = ((env.evaluate condition cursor).1, cursor) :=
  Prod.ext rfl (cursor_evaluate hfree condition cursor)

theorem evaluateThreshold_of_chosen {n : Nat} {conditions chosen : List Condition}
    (hlisted : chosen.Sublist conditions) {cursor : Nat}
    (hall : ∀ condition ∈ chosen, (env.evaluate condition cursor).1 = true)
    {satisfied : Nat} (hopen : satisfied < n) (henough : n ≤ satisfied + chosen.length) :
    (env.evaluateThreshold n conditions satisfied cursor).1 = true := by
  induction hlisted generalizing satisfied with
  | slnil =>
      rw [List.length_nil] at henough
      omega
  | @cons chosen conditions condition hlisted ih =>
      unfold evaluateThreshold
      rw [evaluate_eq hfree condition cursor]
      cases (env.evaluate condition cursor).1 with
      | true =>
          dsimp only
          split
          · rfl
          · exact ih hall (by omega) (by omega)
      | false => exact ih hall hopen henough
  | @cons_cons chosen conditions condition hlisted ih =>
      obtain ⟨hfirst, hothers⟩ := List.forall_mem_cons.mp hall
      unfold evaluateThreshold
      rw [evaluate_eq hfree condition cursor, hfirst]
      dsimp only
      split
      · rfl
      · rw [List.length_cons] at henough
        exact ih hothers (by omega) (by omega)

theorem evaluate_of_satisfied {condition : Condition} (hsatisfied : env.Satisfied condition)
    (hlimits : condition.validateStructure = .ok ()) (cursor : Nat) :
    (env.evaluate condition cursor).1 = true := by
  induction hsatisfied with
  | signature hsigned => exact hasSignature_iff.mpr hsigned
  | @multisig required keys signers hlisted henough hsigned =>
      have hbounds := Condition.bounds_of_validateStructure_multisig hlimits
      have hcount := countP_of_signers hlisted hsigned
      apply multisigMet_iff.mpr
      refine ⟨List.ne_nil_of_length_pos (by omega), by omega⟩
  | hashlock hshown hhash =>
      change env.preimageMet _ = true
      rw [preimageMet, hshown]
      exact decide_eq_true hhash
  | timelock hreached => exact decide_eq_true hreached
  | timelockExpiry hreached => exact decide_eq_true hreached
  | @and left right hleft hright ihLeft ihRight =>
      obtain ⟨hleftLimits, hrightLimits⟩ := seq_eq_ok.mp hlimits
      unfold evaluate
      rw [evaluate_eq hfree left cursor, ihLeft hleftLimits]
      exact ihRight hrightLimits
  | @orLeft left right hleft ihLeft =>
      obtain ⟨hleftLimits, -⟩ := seq_eq_ok.mp hlimits
      unfold evaluate
      rw [hfree, List.getElem?_nil, evaluate_eq hfree left cursor, ihLeft hleftLimits]
  | @orRight left right hright ihRight =>
      obtain ⟨-, hrightLimits⟩ := seq_eq_ok.mp hlimits
      unfold evaluate
      rw [hfree, List.getElem?_nil, evaluate_eq hfree left cursor]
      cases (env.evaluate left cursor).1 with
      | true => rfl
      | false => exact ihRight hrightLimits
  | @threshold n conditions chosen hlisted henough hall ih =>
      have hbounds := Condition.bounds_of_validateStructure_threshold hlimits
      apply evaluateThreshold_of_chosen hfree hlisted
      · intro condition hcondition
        exact ih condition hcondition
          (Condition.validateStructures_iff.mp hbounds.2.2.2 condition
            (hlisted.subset hcondition))
      · exact hbounds.1
      · omega
  | amountGuard houtput hamount =>
      exact guardMet_iff.mpr ⟨_, houtput, decide_eq_true hamount⟩
  | outputTypeGuard houtput htype =>
      exact guardMet_iff.mpr ⟨_, houtput, decide_eq_true htype⟩
  | recipientGuard houtput howner =>
      exact guardMet_iff.mpr ⟨_, houtput, decide_eq_true howner⟩
  | maxDeltaGuard houtput hreference hdelta =>
      exact guardMet_iff.mpr ⟨_, houtput, deltaWithin_iff.mpr ⟨hreference, hdelta⟩⟩
  | reserveRatioGuard hreserve hdebt hpositive hratio =>
      exact guardMet_iff.mpr ⟨_, hreserve,
        guardMet_iff.mpr ⟨_, hdebt, ratioKept_iff.mpr ⟨hpositive, hratio⟩⟩⟩

end Free

/-- Acceptance is sound for every condition and every cursor, and without selectors it is
complete for the conditions that pass `validate`. -/
theorem evaluate_refines (env : EvalEnv) (condition : Condition) (cursor : Nat) :
    ((env.evaluate condition cursor).1 = true → env.Satisfied condition) ∧
      (env.witness.orBranches = [] → condition.validate = .ok () →
        env.Satisfied condition → (env.evaluate condition cursor).1 = true) :=
  ⟨satisfied_of_evaluate, fun hfree hvalid hsatisfied =>
    evaluate_of_satisfied hfree hsatisfied (Condition.limits_of_validate hvalid).2 cursor⟩

/-- A chain at height 101 without a witness. -/
def sampleEnv : EvalEnv where
  prim := samplePrimitives
  verifyHash _ _ _ := false
  witness := .empty
  currentHeight := 101
  signingHash := ⟨0⟩
  transaction := none

/-- An expiry is met from its height on, not up to it, and a threshold of none of the
conditions is not met. -/
theorem expiry_met_afterwards :
    (sampleEnv.evaluate (.timelockExpiry 100) 0).1 = true ∧ ¬ sampleEnv.currentHeight ≤ 100 ∧
      (sampleEnv.evaluate (.timelockExpiry 102) 0).1 = false ∧ sampleEnv.currentHeight ≤ 102 ∧
        (sampleEnv.evaluate (.threshold 0 []) 0).1 = false ∧
          sampleEnv.Satisfied (.threshold 0 []) :=
  ⟨by decide, by decide, by decide, by decide, by decide,
    .threshold (List.Sublist.refl []) (Nat.le_refl 0) fun _ hmem => absurd hmem List.not_mem_nil⟩

theorem evaluate_refines_sample :
    sampleEnv.Satisfied (.or (.timelockExpiry 102) (.timelock 100)) ∧
      (sampleEnv.evaluate (.or (.timelockExpiry 102) (.timelock 100)) 0).1 = true := by
  have hrefines := evaluate_refines sampleEnv (.or (.timelockExpiry 102) (.timelock 100)) 0
  have hsatisfied := hrefines.1 (by decide)
  exact ⟨hsatisfied, hrefines.2 rfl rfl hsatisfied⟩

end EvalEnv

end Doli.Core
