import Doli.Validation.Spending

/-!
# Accepted transactions

What a transaction that passes `validate_transaction_with_utxos` is known to be: where
its pools stand, what its native amounts add up to, and which rules its consumed outputs
passed.
-/

namespace Doli.Validation

open Doli.Core Doli.Lib Doli.Storage

/-! ## Pools among outputs -/

theorem mem_poolIndices {outputs : List Output} {index : Nat} :
    index ∈ poolIndices outputs ↔
      ∃ output, outputs[index]? = some output ∧ output.outputType = .pool := by
  simp only [poolIndices, List.mem_map, List.mem_filter, decide_eq_true_eq, Prod.exists,
    List.mk_mem_zipIdx_iff_getElem?]
  constructor
  · rintro ⟨output, position, ⟨hrow, htype⟩, rfl⟩
    exact ⟨output, hrow, htype⟩
  · rintro ⟨output, hrow, htype⟩
    exact ⟨output, index, ⟨hrow, htype⟩, rfl⟩

theorem poolIndices_eq_nil {outputs : List Output} :
    poolIndices outputs = [] ↔ ∀ output ∈ outputs, output.outputType ≠ .pool := by
  simp only [List.eq_nil_iff_forall_not_mem, mem_poolIndices, not_exists, not_and]
  constructor
  · intro hnone output houtput
    obtain ⟨index, hindex⟩ := List.mem_iff_getElem?.mp houtput
    exact hnone index output hindex
  · intro hnone index output hindex
    exact hnone output (List.mem_of_getElem? hindex)

structure PoolFirst (outputs rest : List Output) (pool : Output) : Prop where
  list : outputs = pool :: rest
  isPool : pool.outputType = .pool
  alone : ∀ output ∈ rest, output.outputType ≠ .pool

theorem poolFirst_of_poolIndices {outputs : List Output} (hpools : poolIndices outputs = [0]) :
    ∃ pool rest, PoolFirst outputs rest pool := by
  obtain ⟨pool, hpool, htype⟩ := mem_poolIndices.mp (hpools ▸ List.mem_singleton_self 0)
  cases outputs with
  | nil => simp at hpool
  | cons first rest =>
      cases hpool
      refine ⟨pool, rest, rfl, htype, ?_⟩
      intro output houtput hother
      obtain ⟨index, hindex⟩ := List.mem_iff_getElem?.mp houtput
      have hmem : index + 1 ∈ poolIndices (pool :: rest) :=
        mem_poolIndices.mpr ⟨output, hindex, hother⟩
      simp [hpools] at hmem

section

variable {outputs rest : List Output} {pool : Output}

theorem doliValue_of_ne {output : Output} (htype : output.outputType ≠ .pool) :
    output.doliValue = nativeAmount output := by
  simp [Output.doliValue, nativeAmount, htype]

theorem total_doliValue_of_poolless (hnone : ∀ output ∈ outputs, output.outputType ≠ .pool) :
    total Output.doliValue outputs = total nativeAmount outputs :=
  total_congr fun output houtput => doliValue_of_ne (hnone output houtput)

namespace PoolFirst

variable (hfirst : PoolFirst outputs rest pool)

include hfirst

theorem total_nativeAmount : total nativeAmount outputs = total nativeAmount rest := by
  simp [hfirst.list, nativeAmount, hfirst.isPool, OutputType.isNativeAmount]

theorem total_doliValue {record : PoolMetadata} (hrecord : pool.poolMetadata = some record) :
    total Output.doliValue outputs = record.reserveA + total nativeAmount outputs := by
  rw [hfirst.total_nativeAmount, hfirst.list, total_cons, Output.doliValue_of_pool hrecord,
    total_doliValue_of_poolless hfirst.alone]

theorem head : outputs[0]? = some pool := by
  simp [hfirst.list]

end PoolFirst

end

/-! ## The structure of an accepted transaction -/

section

variable {rules : OpenRules} {ctx : ValidationContext} {tx : Transaction}

theorem outputPlacement_of_structure
    (hok : validateTransactionSkipRegistrationVdf rules ctx tx = .ok ()) :
    checkOutputPlacement ctx tx = .ok () := by
  unfold validateTransactionSkipRegistrationVdf at hok
  split at hok
  case h_1 =>
    simp only [bind_eq_ok, exists_unit] at hok
    obtain ⟨-, total, -, -, hplacement, -⟩ := hok
    exact hplacement
  case h_2 =>
    simp only [bind_eq_ok, exists_unit] at hok
    exact hok.2.1
  case h_3 =>
    obtain ⟨-, -, -, -, total, -, hplacement, -⟩ := validateTransaction_eq_ok.mp hok
    exact hplacement

theorem placement_of_structure
    (hok : validateTransactionSkipRegistrationVdf rules ctx tx = .ok ()) :
    checkPoolPlacement ctx tx = .ok () :=
  (checkOutputPlacement_eq_ok.mp (outputPlacement_of_structure hok)).2.2

theorem checkOutput_total {earlier : List Output} {sum next : Nat} {output : Output}
    (hok : checkOutput rules ctx earlier sum output = .ok next) :
    next = sum + nativeAmount output := by
  simp only [checkOutput, bind_eq_ok, exists_unit, pure, Except.pure, Except.ok.injEq] at hok
  obtain ⟨-, -, -, -, -, -, rfl⟩ := hok
  unfold nativeAmount
  split
  · rfl
  · rfl

theorem validateOutputsFrom_total {earlier outputs : List Output} {sum final : Nat}
    (hok : validateOutputsFrom rules ctx earlier outputs sum = .ok final) :
    final = sum + total nativeAmount outputs := by
  induction outputs generalizing earlier sum with
  | nil =>
      cases hok
      rfl
  | cons output outputs ih =>
      obtain ⟨next, hnext, hrest⟩ := bind_eq_ok.mp hok
      rw [ih hrest, checkOutput_total hnext, total_cons, Nat.add_assoc]

theorem validateOutputs_total {outputs : List Output} {sum : Nat}
    (hok : validateOutputs rules ctx outputs = .ok sum) : sum = total nativeAmount outputs := by
  rw [validateOutputsFrom_total hok, Nat.zero_add]

theorem outputs_of_validateSlash (hok : validateSlashDataSkipVdf ctx tx = .ok ()) :
    tx.outputs = [] := by
  unfold validateSlashDataSkipVdf at hok
  cases hslash : validateSlash ctx tx false with
  | error error => simp [hslash, Except.map] at hok
  | ok data =>
      simp only [validateSlash, bind_eq_ok, exists_unit, refuseIf_eq_ok, not_not] at hslash
      exact hslash.2.1

theorem native_le_of_structure
    (hok : validateTransactionSkipRegistrationVdf rules ctx tx = .ok ()) :
    total nativeAmount tx.outputs ≤ totalSupply := by
  unfold validateTransactionSkipRegistrationVdf at hok
  split at hok
  case h_1 =>
    simp only [bind_eq_ok, exists_unit, refuseIf_eq_ok, not_lt] at hok
    obtain ⟨-, sum, hsum, hle, -⟩ := hok
    exact validateOutputs_total hsum ▸ hle
  case h_2 =>
    simp only [bind_eq_ok, exists_unit] at hok
    rw [outputs_of_validateSlash hok.2.2]
    exact Nat.zero_le _
  case h_3 =>
    obtain ⟨-, -, -, -, sum, hsum, -, -, hle, -⟩ := validateTransaction_eq_ok.mp hok
    exact validateOutputs_total hsum ▸ hle

theorem payload_of_structure (hregistration : tx.txType ≠ .registration)
    (hslash : tx.txType ≠ .slashProducer)
    (hok : validateTransactionSkipRegistrationVdf rules ctx tx = .ok ()) :
    validatePayload rules ctx tx = .ok () := by
  unfold validateTransactionSkipRegistrationVdf at hok
  split at hok
  case h_1 htype => exact absurd htype hregistration
  case h_2 htype => exact absurd htype hslash
  case h_3 =>
    obtain ⟨-, -, -, -, sum, -, -, -, -, -, hpayload⟩ := validateTransaction_eq_ok.mp hok
    exact hpayload

theorem pools_of_structure (hactive : ctx.incI234ActivationHeight ≤ ctx.currentHeight)
    (hok : validateTransactionSkipRegistrationVdf rules ctx tx = .ok ()) :
    poolIndices tx.outputs = if isAmm tx.txType then [0] else [] := by
  have hplacement := placement_of_structure hok
  rw [checkPoolPlacement, if_neg (Nat.not_lt.mpr hactive)] at hplacement
  split at hplacement
  case isTrue hcoinbase =>
    have htype := (Transaction.isCoinbase_iff.mp hcoinbase).1
    simp only [htype, isAmm, Bool.false_eq_true, if_false]
    apply poolIndices_eq_nil.mpr
    intro output houtput hpool
    simp only [refuseIf_eq_ok, List.any_eq_true, decide_eq_true_eq, not_exists, not_and,
      not_not] at hplacement
    rw [hplacement output houtput] at hpool
    contradiction
  case isFalse =>
    split at hplacement
    case isTrue hamm => simpa [hamm] using hplacement
    case isFalse hamm => simpa [hamm] using hplacement

theorem normal_of_coinbase (hactive : ctx.incI234ActivationHeight ≤ ctx.currentHeight)
    (hcoinbase : tx.isCoinbase = true)
    (hok : validateTransactionSkipRegistrationVdf rules ctx tx = .ok ()) :
    ∀ output ∈ tx.outputs, output.outputType = .normal := by
  have hplacement := placement_of_structure hok
  rw [checkPoolPlacement, if_neg (Nat.not_lt.mpr hactive), if_pos hcoinbase] at hplacement
  simpa only [refuseIf_eq_ok, List.any_eq_true, decide_eq_true_eq, not_exists, not_and,
    not_not] using hplacement

end

/-! ## The consumed outputs -/

def consumedOutputs (tx : Transaction) (lookup : Outpoint → Option UtxoEntry) : List Output :=
  tx.inputs.filterMap fun input => (lookup (inputOutpoint input)).map UtxoEntry.output

theorem addNative_eq_ok {index sum next : Nat} {spent : Output} (hsum : sum < 2 ^ 64) :
    UtxoContext.addNative index sum spent = .ok next ↔
      next = sum + nativeAmount spent ∧ next < 2 ^ 64 := by
  unfold UtxoContext.addNative nativeAmount
  split
  case isTrue =>
    split
    case isTrue hfits =>
      rw [Except.ok.injEq]
      constructor
      · rintro rfl
        exact ⟨rfl, hfits⟩
      · exact fun hnext => hnext.1.symm
    case isFalse hover =>
      simp only [reduceCtorEq, false_iff, not_and]
      rintro rfl
      exact hover
  case isFalse =>
    rw [Except.ok.injEq, Nat.add_zero]
    constructor
    · rintro rfl
      exact ⟨rfl, hsum⟩
    · exact fun hnext => hnext.1.symm

/-- What the loop asks of the output at one input. -/
structure InputSpends (utxo : UtxoContext) (height : Nat) (kind : TxType) (spent : Output) :
    Prop where
  rollup : spent.outputType = .zkRollup → kind = .zkSettle
  unlocked : spendLockVerdict kind spent height utxo.params.incI257UnbondingActivationHeight =
    .ok ()

theorem spendingInputs_spec {utxo : UtxoContext} {height : Nat} {tx : Transaction}
    {lookup : Outpoint → Option UtxoEntry} {inputs : List Input} {index sum : Nat}
    {consumed : List Output} (hsum : sum < 2 ^ 64)
    (hok : utxo.spendingInputs height tx lookup inputs index sum = .ok consumed) :
    consumed = inputs.filterMap (fun input =>
        (lookup (inputOutpoint input)).map UtxoEntry.output) ∧
      sum + total nativeAmount consumed < 2 ^ 64 := by
  induction inputs generalizing index sum consumed with
  | nil =>
      cases hok
      exact ⟨rfl, hsum⟩
  | cons input inputs ih =>
      simp only [UtxoContext.spendingInputs] at hok
      split at hok
      · contradiction
      case h_2 entry hentry =>
        split at hok
        · contradiction
        · split at hok
          · contradiction
          · split at hok
            · contradiction
            case h_2 next hnext =>
              split at hok
              · contradiction
              case h_2 rest hrest =>
                cases hok
                obtain ⟨hadded, hnextFits⟩ := (addNative_eq_ok hsum).mp hnext
                obtain ⟨hlist, hfits⟩ := ih hnextFits hrest
                constructor
                · rw [List.filterMap_cons, hentry, Option.map_some, hlist]
                · rw [total_cons, ← Nat.add_assoc, ← hadded]
                  exact hfits

theorem spendingInputs_isOk_iff {utxo : UtxoContext} {height : Nat} {tx : Transaction}
    {lookup : Outpoint → Option UtxoEntry} {inputs : List Input} {index sum : Nat}
    (hsum : sum < 2 ^ 64)
    (hinputs : ∀ input ∈ inputs, (lookup (inputOutpoint input)).isSome) :
    (∃ consumed, utxo.spendingInputs height tx lookup inputs index sum = .ok consumed) ↔
      (∀ spent ∈ inputs.filterMap fun input =>
          (lookup (inputOutpoint input)).map UtxoEntry.output,
        InputSpends utxo height tx.txType spent) ∧
        sum + total nativeAmount (inputs.filterMap fun input =>
          (lookup (inputOutpoint input)).map UtxoEntry.output) < 2 ^ 64 := by
  induction inputs generalizing index sum with
  | nil => simpa [UtxoContext.spendingInputs] using hsum
  | cons input inputs ih =>
      obtain ⟨entry, hentry⟩ := Option.isSome_iff_exists.mp (hinputs input List.mem_cons_self)
      have hrest := fun other hother => hinputs other (List.mem_cons_of_mem input hother)
      rw [List.filterMap_cons, hentry, Option.map_some, List.forall_mem_cons, total_cons,
        ← Nat.add_assoc]
      simp only [UtxoContext.spendingInputs, hentry]
      constructor
      · rintro ⟨consumed, hok⟩
        split at hok
        case isTrue => contradiction
        case isFalse hrollup =>
          split at hok
          · contradiction
          case h_2 hlock =>
            split at hok
            · contradiction
            case h_2 next hnext =>
              split at hok
              · contradiction
              case h_2 rest hconsumed =>
                obtain ⟨rfl, hfits⟩ := (addNative_eq_ok hsum).mp hnext
                obtain ⟨hspends, htotal⟩ := (ih hfits hrest).mp ⟨rest, hconsumed⟩
                refine ⟨⟨⟨fun hkind => ?_, hlock⟩, hspends⟩, htotal⟩
                by_contra hother
                exact hrollup ⟨hkind, hother⟩
      · rintro ⟨⟨hhead, hspends⟩, htotal⟩
        have hfits : sum + nativeAmount entry.output < 2 ^ 64 :=
          Nat.lt_of_le_of_lt (Nat.le_add_right _ _) htotal
        obtain ⟨rest, hconsumed⟩ :=
          (@ih (index + 1) (sum + nativeAmount entry.output) hfits hrest).mpr ⟨hspends, htotal⟩
        have hnext := (@addNative_eq_ok index sum _ entry.output hsum).mpr ⟨rfl, hfits⟩
        rw [if_neg fun hrollup => hrollup.2 (hhead.rollup hrollup.1), hhead.unlocked]
        simp only [hnext, hconsumed]
        exact ⟨_, rfl⟩

/-- A transaction that went through the input loop and the rules after it. -/
structure Spends (ctx : SpendingContext) (tx : Transaction) (consumed : List Output) :
    Prop where
  fits : total nativeAmount consumed < 2 ^ 64
  checked : checkSpending ctx tx consumed = .ok ()

section

variable {ctx : SpendingContext} {tx : Transaction} {lookup : Outpoint → Option UtxoEntry}

theorem structure_of_accepted (hok : ctx.validateTransactionWithUtxos tx lookup = .ok ()) :
    validateTransactionSkipRegistrationVdf ctx.rules.withPools ctx.base tx = .ok () := by
  unfold SpendingContext.validateTransactionWithUtxos
    UtxoContext.validateTransactionWithUtxos at hok
  split at hok
  · contradiction
  case h_2 hstructure =>
    unfold UtxoContext.validateStructure at hstructure
    split at hstructure
    · contradiction
    · split at hstructure
      · contradiction
      · split at hstructure
        case isTrue hrules => exact of_decide_eq_true hrules
        case isFalse => contradiction

theorem accepted_cases (hok : ctx.validateTransactionWithUtxos tx lookup = .ok ()) :
    tx.isCoinbase = true ∨ tx.isEpochReward = true ∨
      Spends ctx tx (consumedOutputs tx lookup) := by
  unfold SpendingContext.validateTransactionWithUtxos
    UtxoContext.validateTransactionWithUtxos at hok
  split at hok
  · contradiction
  · split at hok
    case isTrue hcoinbase => exact .inl hcoinbase
    case isFalse =>
      split at hok
      case isTrue hreward => exact .inr (.inl hreward)
      case isFalse =>
        split at hok
        · contradiction
        case h_2 consumed hconsumed =>
          obtain ⟨rfl, hfits⟩ := spendingInputs_spec (by norm_num) hconsumed
          split at hok
          case isTrue hrules =>
            exact .inr (.inr ⟨(Nat.zero_add _).symm.trans_lt hfits, of_decide_eq_true hrules⟩)
          case isFalse => contradiction

end

section

variable {ctx : SpendingContext} {tx : Transaction} {lookup : Outpoint → Option UtxoEntry}

theorem validateStructure_eq_ok (hrules : ctx.base.incI257RulesAtNextHeight = false)
    (hrange : ctx.base.currentHeight < 2 ^ 64) :
    ctx.utxo.validateStructure ctx.base.currentHeight tx = .ok () ↔
      validateTransactionSkipRegistrationVdf ctx.rules.withPools ctx.base tx = .ok () := by
  have hheight : ctx.base.ruleHeight = ctx.base.currentHeight := by
    simp only [ValidationContext.ruleHeight, hrules, Bool.toNat_false]
    omega
  unfold UtxoContext.validateStructure
  constructor
  · intro hok
    split at hok
    · contradiction
    · split at hok
      · contradiction
      · split at hok
        case isTrue hstructural => exact of_decide_eq_true hstructural
        case isFalse => contradiction
  · intro hok
    obtain ⟨hunbonding, hbond, -⟩ :=
      checkOutputPlacement_eq_ok.mp (outputPlacement_of_structure hok)
    rw [hheight] at hunbonding hbond
    have hunbondingCtx : ctx.utxo.checkUnbondingOutputs ctx.base.currentHeight tx = .ok () :=
      hunbonding
    have hbondCtx : ctx.utxo.checkBondOutputs ctx.base.currentHeight tx = .ok () := hbond
    simp only [hunbondingCtx, hbondCtx]
    exact if_pos (decide_eq_true hok)

theorem accepted_iff (hrules : ctx.base.incI257RulesAtNextHeight = false)
    (hrange : ctx.base.currentHeight < 2 ^ 64) (hcoinbase : tx.isCoinbase = false)
    (hreward : tx.isEpochReward = false)
    (hinputs : ∀ input ∈ tx.inputs, (lookup (inputOutpoint input)).isSome) :
    ctx.validateTransactionWithUtxos tx lookup = .ok () ↔
      validateTransactionSkipRegistrationVdf ctx.rules.withPools ctx.base tx = .ok () ∧
        (∀ spent ∈ consumedOutputs tx lookup,
          InputSpends ctx.utxo ctx.base.currentHeight tx.txType spent) ∧
          Spends ctx tx (consumedOutputs tx lookup) := by
  have hloop := @spendingInputs_isOk_iff ctx.utxo ctx.base.currentHeight tx lookup tx.inputs 0 0
    (by norm_num) hinputs
  rw [Nat.zero_add] at hloop
  rw [← validateStructure_eq_ok hrules hrange]
  constructor
  · intro hok
    have hspends : Spends ctx tx (consumedOutputs tx lookup) := by
      simpa [hcoinbase, hreward] using accepted_cases hok
    refine ⟨(validateStructure_eq_ok hrules hrange).mpr (structure_of_accepted hok), ?_, hspends⟩
    have hconsumed : ∃ consumed, ctx.utxo.spendingInputs ctx.base.currentHeight tx lookup
        tx.inputs 0 0 = .ok consumed := by
      unfold SpendingContext.validateTransactionWithUtxos
        UtxoContext.validateTransactionWithUtxos at hok
      rw [hcoinbase, hreward] at hok
      split at hok
      · contradiction
      · simp only [Bool.false_eq_true, if_false] at hok
        split at hok
        · contradiction
        case h_2 consumed hconsumed => exact ⟨consumed, hconsumed⟩
    exact (hloop.mp hconsumed).1
  · rintro ⟨hstructure, hrows, hspends⟩
    obtain ⟨consumed, hconsumed⟩ := hloop.mpr ⟨hrows, hspends.fits⟩
    obtain ⟨rfl, -⟩ := spendingInputs_spec (by norm_num) hconsumed
    unfold SpendingContext.validateTransactionWithUtxos
      UtxoContext.validateTransactionWithUtxos
    rw [hstructure, hcoinbase, hreward, hconsumed]
    exact if_pos (decide_eq_true hspends.checked)

end

/-! ## The rules it passed -/

section

variable {ctx : SpendingContext} {tx : Transaction} {consumed : List Output}

theorem checkSpending_eq_ok :
    checkSpending ctx tx consumed = .ok () ↔
      checkEach (checkInput ctx tx) (tx.inputs.zip consumed).zipIdx = .ok () ∧
        checkValueAuthority ctx.base tx consumed = .ok () ∧
          checkBalance ctx tx consumed = .ok () ∧ checkTypeState ctx tx consumed = .ok () := by
  simp only [checkSpending, bind_eq_ok, exists_unit]

theorem Spends.authorized (hspends : Spends ctx tx consumed)
    (hactive : ctx.base.incI234ActivationHeight ≤ ctx.base.currentHeight) :
    Authorized ctx.base.crypto.primitives tx consumed :=
  authorized_of_checkValueAuthority hactive (checkSpending_eq_ok.mp hspends.checked).2.1

theorem totalOutput_eq (hle : total nativeAmount tx.outputs ≤ totalSupply) :
    UtxoContext.totalOutput tx = total nativeAmount tx.outputs := by
  have hsum : ((tx.outputs.filter fun output => output.outputType.isNativeAmount).map
      Output.amount).sum = total nativeAmount tx.outputs :=
    @total_filter _ Output.amount _ fun output => output.outputType.isNativeAmount
  rw [UtxoContext.totalOutput, hsum]
  apply min_eq_right
  unfold totalSupply at hle
  omega

theorem isStateOnly_outputs (hstate : isStateOnly ctx tx = true) : tx.outputs = [] := by
  unfold isStateOnly at hstate
  split at hstate
  case isTrue =>
    simp only [Transaction.isZeroFlow, Bool.and_eq_true, List.isEmpty_iff] at hstate
    exact hstate.1.2
  case isFalse =>
    simp only [Bool.and_eq_true, List.isEmpty_iff] at hstate
    exact hstate.1.2

theorem Spends.conservation (hspends : Spends ctx tx consumed) :
    tx.outputs = [] ∨ checkConservation ctx tx consumed = .ok () := by
  have hbalance := (checkSpending_eq_ok.mp hspends.checked).2.2.1
  unfold checkBalance at hbalance
  split at hbalance
  case isTrue hstate => exact .inl (isStateOnly_outputs hstate)
  case isFalse => exact .inr (seq_eq_ok.mp hbalance).1

theorem Spends.typeState (hspends : Spends ctx tx consumed) :
    checkTypeState ctx tx consumed = .ok () :=
  (checkSpending_eq_ok.mp hspends.checked).2.2.2

end

end Doli.Validation
