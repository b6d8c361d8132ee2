import Doli.Node.BlockEconomics
import Doli.Node.ShareBacking

/-!
# Issuance

What a block makes of the DOLI it finds.  DOLI is held in native amounts and in the reserves
of pools; each transaction is charged with the outputs that the overlay shows at its inputs
when its turn comes.
-/

namespace Doli.Node

open Doli.Core Doli.Lib Doli.Storage
open Doli.Validation (SpendingContext consumedOutputs nativeAmount txCoinbaseCredit
  paysExtraFees credit_backed sampleCrypto sampleSpendingContext samplePaid sampleSpend
  sampleTokens samplePoolRecord)

/-- The transactions of a run, each with the outputs it consumes. -/
def flows (block : BlockContext) : List (Transaction × Nat) → UtxoState →
    List (Transaction × List Output)
  | [], _ => []
  | (tx, txIndex) :: rows, state =>
      (tx, consumedOutputs tx state.batch.getUtxo) ::
        match processTransactionUtxos block txIndex tx state with
        | .ok next => flows block rows next
        | .error _ => []

/-- What the outputs of the transactions are worth. -/
def created (worth : Output → Nat) (rows : List (Transaction × List Output)) : Nat :=
  total (fun row => total worth row.1.outputs) rows

def consumed (worth : Output → Nat) (rows : List (Transaction × List Output)) : Nat :=
  total (fun row => total worth row.2) rows

@[simp] theorem created_cons (worth : Output → Nat) (tx : Transaction) (outputs : List Output)
    (rows : List (Transaction × List Output)) :
    created worth ((tx, outputs) :: rows) = total worth tx.outputs + created worth rows :=
  total_cons

@[simp] theorem consumed_cons (worth : Output → Nat) (tx : Transaction) (outputs : List Output)
    (rows : List (Transaction × List Output)) :
    consumed worth ((tx, outputs) :: rows) = total worth outputs + consumed worth rows :=
  total_cons

/-- All DOLI of a UTXO set. -/
def doliHeld (utxo : UtxoColumn) : Nat :=
  holdings (fun entry => entry.output.doliValue) utxo

/-! ## One transaction -/

theorem doliValue_stampOutput (output : Output) (slot : Nat) :
    (stampOutput output slot).doliValue = output.doliValue := by
  unfold stampOutput
  split
  case h_1 htype => simp [Output.doliValue, htype]
  case h_2 htype =>
    split
    case h_1 record hrecord =>
      have hfits := (Output.poolMetadata_fits hrecord).reserveA
      have hkept : (Output.pool (stampPool record slot)).doliValue = record.reserveA := by
        simp only [Output.doliValue, Output.poolMetadata_pool_truncated, stampPool]
        exact Nat.mod_eq_of_lt hfits
      rw [hkept]
      simp [Output.doliValue, htype, hrecord, OutputType.isNativeAmount]
    case h_2 => rfl
  case h_3 => rfl

theorem doli_txRows (block : BlockContext) (tx : Transaction) (txIndex : Nat) :
    total (fun row => row.2.output.doliValue) (txRows block (tx, txIndex)) =
      total Output.doliValue tx.outputs := by
  have hstored := newRows_outputs (block.utxo.prim.txHash tx) block.height block.slot
    (isRewardTx txIndex tx) tx.isEpochReward tx.outputs 0
  have hrows : total (fun row => row.2.output.doliValue) (txRows block (tx, txIndex)) =
      total Output.doliValue ((txRows block (tx, txIndex)).map fun row => row.2.output) := by
    simp [total, Function.comp_def]
  rw [hrows, txRows, hstored, total, List.map_map]
  exact total_congr fun output _ => doliValue_stampOutput output block.slot

section Step

variable {ctx : SpendingContext} {block : BlockContext} {txIndex : Nat} {tx : Transaction}
  {state next : UtxoState}

/-- The set after a transaction holds no more than it held and what the outputs are worth,
less what the inputs were worth. -/
theorem LedgerStep.doliHeld_le (hstep : LedgerStep ctx block txIndex tx state next)
    (hcoherent : BlockBatch.Coherent state.batch)
    (hminted : isRewardTx txIndex tx = true → tx.inputs = []) :
    doliHeld next.batch.view + total Output.doliValue (consumedOutputs tx state.batch.getUtxo) ≤
      doliHeld state.batch.view + total Output.doliValue tx.outputs := by
  obtain ⟨spent, burned, taken, heffect⟩ := processTransactionUtxos_effect hstep.process
  by_cases htype : tx.txType = .slashProducer
  · obtain ⟨hinputs, houtputs⟩ := hstep.slash_moves_nothing htype
    have hview : next.batch.view =
        Journal.eraseAll ((burned ++ taken).map Prod.fst) state.batch.view := by
      rw [heffect.batch_eq, BlockBatch.addRows_view, heffect.spends.view]
      simp [txRows, houtputs, BlockBatch.newRows, Journal.insertAll]
    have hburned := holdings_eraseAll_le (fun entry : UtxoEntry => entry.output.doliValue)
      ((burned ++ taken).map Prod.fst) state.batch.view
    simpa [doliHeld, hview, consumedOutputs, hinputs, houtputs] using hburned
  · have hview := (hstep.view_eq htype heffect).2
    have hworth : total (worthAt (fun entry : UtxoEntry => entry.output.doliValue)
        state.batch.view) (spentInputs tx (isRewardTx txIndex tx)) =
          total Output.doliValue (consumedOutputs tx state.batch.getUtxo) := by
      cases hreward : isRewardTx txIndex tx with
      | true => simp [spentInputs, consumedOutputs, hminted hreward]
      | false =>
          rw [total_worthAt, ← hstep.consumedRows_eq hcoherent hreward, consumedRows, hreward]
          simp [total, Function.comp_def]
    have hdistinct : (spentInputs tx (isRewardTx txIndex tx)).Nodup := by
      unfold spentInputs
      split
      · exact List.nodup_nil
      · exact hstep.distinct
    have herased := holdings_eraseAll (fun entry : UtxoEntry => entry.output.doliValue)
      hdistinct state.batch.view
    have hput := holdings_insertAll_le (fun entry : UtxoEntry => entry.output.doliValue)
      (txRows block (tx, txIndex))
      (Journal.eraseAll (spentInputs tx (isRewardTx txIndex tx)) state.batch.view)
    rw [← hview, doli_txRows] at hput
    unfold doliHeld
    omega

theorem LedgerStep.coherent (hstep : LedgerStep ctx block txIndex tx state next)
    (hcoherent : BlockBatch.Coherent state.batch) : BlockBatch.Coherent next.batch := by
  obtain ⟨spent, burned, taken, heffect⟩ := processTransactionUtxos_effect hstep.process
  rw [heffect.batch_eq]
  exact (heffect.spends.coherent hcoherent).addRows

end Step

/-! ## One block -/

/-- The block passes the economics of its height, where the fee-exempt types are credited
nothing. -/
structure IssuedUnder (econ : EconomicsContext) (item : LedgerBlock) : Prop where
  height : econ.height = item.ctx.base.currentHeight
  mode : econ.mode = applyMode item.mode
  gate : econ.incI233ActivationHeight ≤ econ.height
  valid : econ.validateBlockEconomics item.block.transactions = .ok ()

/-- A row of the block whose transaction mints nothing. -/
structure Spending (item : LedgerBlock) (row : Transaction × Nat) : Prop where
  inBlock : row.1 ∈ item.block.transactions
  isCoinbase : row.1.isCoinbase = false
  explicit : row.1.isEpochReward = true → row.1.inputs ≠ []
  later : isRewardTx row.2 row.1 = false

section Block

variable {prim : Primitives} {item : LedgerBlock} {econ : EconomicsContext}
  {rows : List (Transaction × Nat)} {start final : UtxoState}

theorem flows_cons {tx : Transaction} {txIndex : Nat} {next : UtxoState}
    (hstep : processTransactionUtxos item.context txIndex tx start = .ok next) :
    flows item.context ((tx, txIndex) :: rows) start =
      (tx, consumedOutputs tx start.batch.getUtxo) :: flows item.context rows next := by
  rw [flows, hstep]

theorem flows_fst (hrun : run (processStep item.context) rows start = .ok final) :
    (flows item.context rows start).map Prod.fst = rows.map Prod.fst := by
  induction rows generalizing start with
  | nil => rfl
  | cons row rows ih =>
      obtain ⟨next, hstep, hrest⟩ := run_cons_ok.mp hrun
      rw [flows_cons hstep, List.map_cons, List.map_cons, ih hrest]

theorem doliHeld_flows (haccepted : item.Accepted prim)
    (hrows : ∀ row ∈ rows, row.1 ∈ item.block.transactions ∧
      (isRewardTx row.2 row.1 = true → row.1.inputs = []))
    (hcoherent : BlockBatch.Coherent start.batch)
    (hrun : run (processStep item.context) rows start = .ok final) :
    doliHeld final.batch.view + consumed Output.doliValue (flows item.context rows start) ≤
      doliHeld start.batch.view +
        created Output.doliValue (flows item.context rows start) := by
  induction rows generalizing start with
  | nil =>
      cases hrun
      exact Nat.le_refl _
  | cons row rows ih =>
      obtain ⟨next, hprocess, hrest⟩ := run_cons_ok.mp hrun
      obtain ⟨hmem, hminted⟩ := hrows row List.mem_cons_self
      have hstep := haccepted.ledgerStep hmem hprocess
      have hone := hstep.doliHeld_le hcoherent hminted
      have hothers := ih (fun other hother => hrows other (List.mem_cons_of_mem _ hother))
        (hstep.coherent hcoherent) hrest
      rw [flows_cons hprocess, created_cons, consumed_cons]
      omega

theorem credit_flows (haccepted : item.Accepted prim)
    (hrows : ∀ row ∈ rows, Spending item row)
    (hrun : run (processStep item.context) rows start = .ok final) :
    ∀ flow ∈ flows item.context rows start,
      txCoinbaseCredit true flow.1 + total Output.doliValue flow.1.outputs ≤
        total Output.doliValue flow.2 := by
  induction rows generalizing start with
  | nil => simp [flows]
  | cons row rows ih =>
      obtain ⟨next, hprocess, hrest⟩ := run_cons_ok.mp hrun
      have hrow := hrows row List.mem_cons_self
      have hstep := haccepted.ledgerStep hrow.inBlock hprocess
      rw [flows_cons hprocess]
      intro flow hflow
      rcases List.mem_cons.mp hflow with rfl | hflow
      · exact credit_backed haccepted.opened hrow.isCoinbase hrow.explicit
          (hstep.validated hrow.later)
      · exact ih (fun other hother => hrows other (List.mem_cons_of_mem _ hother)) hrest
          flow hflow

theorem created_add_credits {entries : List (Transaction × List Output)}
    (hcredited : ∀ flow ∈ entries,
      txCoinbaseCredit true flow.1 + total Output.doliValue flow.1.outputs ≤
        total Output.doliValue flow.2) :
    total (txCoinbaseCredit true) ((entries.map Prod.fst).filter paysExtraFees) +
        created Output.doliValue entries ≤ consumed Output.doliValue entries := by
  have hsum := total_le_total hcredited
  rw [total_add] at hsum
  have hall : total (fun flow => txCoinbaseCredit true flow.1) entries =
      total (txCoinbaseCredit true) (entries.map Prod.fst) := by
    simp [total, Function.comp_def]
  have hsome := total_filter_le (txCoinbaseCredit true) paysExtraFees (entries.map Prod.fst)
  unfold created consumed
  omega

theorem spending_of_mintsWithin {coinbase : Transaction} {others : List Transaction}
    (haccepted : item.Accepted prim) (hissued : IssuedUnder econ item)
    (hsplit : item.block.transactions = coinbase :: others)
    (hmints : EconomicsContext.MintsWithin econ coinbase others) :
    ∀ row ∈ others.zipIdx 1, Spending item row := by
  have hlive : econ.mode ≠ .replay := by
    rw [hissued.mode]
    cases hmode : item.mode with
    | full => simp [applyMode]
    | light => simp [applyMode]
    | replay => exact absurd hmode haccepted.live
  obtain ⟨found, -, hreward⟩ := bind_eq_ok.mp hissued.valid
  rintro ⟨tx, txIndex⟩ hrow
  have htx : tx ∈ others := List.fst_mem_of_mem_zipIdx hrow
  have hmem : tx ∈ item.block.transactions := by
    rw [hsplit]
    exact List.mem_cons_of_mem _ htx
  have hindex := List.le_snd_of_mem_zipIdx hrow
  constructor
  case inBlock => exact hmem
  case isCoinbase => exact hmints.alone tx htx
  case explicit => exact EconomicsContext.inputs_of_checkEpochReward hreward hlive hmem
  case later =>
    have hlater : txIndex ≠ 0 := Nat.one_le_iff_ne_zero.mp hindex
    simp [isRewardTx, hlater]

theorem rewards_without_inputs {coinbase : Transaction} {others : List Transaction}
    (haccepted : item.Accepted prim) (hissued : IssuedUnder econ item)
    (hsplit : item.block.transactions = coinbase :: others)
    (hmints : EconomicsContext.MintsWithin econ coinbase others) :
    ∀ row ∈ item.block.transactions.zipIdx,
      row.1 ∈ item.block.transactions ∧ (isRewardTx row.2 row.1 = true → row.1.inputs = []) := by
  have hzip : item.block.transactions.zipIdx = (coinbase, 0) :: others.zipIdx 1 := by
    rw [hsplit]
    rfl
  rw [hzip]
  intro row hrow
  rcases List.mem_cons.mp hrow with rfl | hlater
  · refine ⟨?_, fun _ => (Transaction.isCoinbase_iff.mp hmints.isCoinbase).2.1⟩
    rw [hsplit]
    exact List.mem_cons_self
  · have hspending := spending_of_mintsWithin haccepted hissued hsplit hmints row hlater
    refine ⟨hspending.inBlock, ?_⟩
    intro hreward
    rw [hspending.later] at hreward
    contradiction

theorem doliValue_of_coinbase {coinbase : Transaction} {output : Output}
    (haccepted : item.Accepted prim) (hfirst : coinbase ∈ item.block.transactions)
    (hcoinbase : coinbase.isCoinbase = true) (houtputs : coinbase.outputs = [output]) :
    total Output.doliValue coinbase.outputs = output.amount := by
  have hnormal := Validation.normal_of_reward haccepted.opened (.inl hcoinbase)
    (haccepted.structural hfirst)
  rw [houtputs] at hnormal ⊢
  have htype := hnormal output (List.mem_singleton_self output)
  simp [Output.doliValue, htype, OutputType.isNativeAmount]

/-- In a block with all gates open each transaction after the first took in the DOLI it
gives out and the credit on top, and the block as a whole adds no more than the reward of
its height to the DOLI it found. -/
theorem issuance_within_reward {db : StateDb} {state : UtxoState}
    (haccepted : item.Accepted prim) (hissued : IssuedUnder econ item)
    (hprocess : processTransactions item.context item.block.transactions db = .ok state) :
    (∀ flow ∈ flows item.context item.block.transactions.zipIdx (.initial db),
      flow.1.isCoinbase = false →
        txCoinbaseCredit true flow.1 + total Output.doliValue flow.1.outputs ≤
          total Output.doliValue flow.2) ∧
      created Output.doliValue
          (flows item.context item.block.transactions.zipIdx (.initial db)) ≤
        econ.baseReward + consumed Output.doliValue
          (flows item.context item.block.transactions.zipIdx (.initial db)) ∧
        doliHeld state.batch.view ≤ doliHeld db.utxo + econ.baseReward := by
  obtain ⟨found, hcheck, -⟩ := bind_eq_ok.mp hissued.valid
  obtain ⟨coinbase, others, hsplit, hmints⟩ :=
    EconomicsContext.mintsWithin_of_checkCoinbase hcheck
  have hrows := spending_of_mintsWithin haccepted hissued hsplit hmints
  have hzip : item.block.transactions.zipIdx = (coinbase, 0) :: others.zipIdx 1 := by
    rw [hsplit]
    rfl
  have hinputs := (Transaction.isCoinbase_iff.mp hmints.isCoinbase).2.1
  have hfirst : coinbase ∈ item.block.transactions := by
    rw [hsplit]
    exact List.mem_cons_self
  have hplaces := rewards_without_inputs haccepted hissued hsplit hmints
  have hheld := doliHeld_flows haccepted hplaces (BlockBatch.coherent_beginBatch db) hprocess
  have hstart : doliHeld (UtxoState.initial db).batch.view = doliHeld db.utxo := rfl
  unfold processTransactions at hprocess
  rw [hzip] at hprocess hheld ⊢
  obtain ⟨next, hstep, hrest⟩ := run_cons_ok.mp hprocess
  have hcredits := credit_flows haccepted hrows hrest
  have hothers := created_add_credits hcredits
  have hothersFst : (flows item.context (others.zipIdx 1) next).map Prod.fst = others := by
    rw [flows_fst hrest, List.zipIdx_map_fst]
  have hnone : consumedOutputs coinbase (UtxoState.initial db).batch.getUtxo = [] := by
    simp [consumedOutputs, hinputs]
  have hgate : econ.exemptGateActive = true := by
    simpa [EconomicsContext.exemptGateActive] using hissued.gate
  obtain ⟨output, houtputs, hamount⟩ := hmints.output
  have hworth := doliValue_of_coinbase haccepted hfirst hmints.isCoinbase houtputs
  rw [hgate, ← hothersFst] at hamount
  rw [flows_cons hstep] at hheld ⊢
  have htotal : created Output.doliValue
      ((coinbase, consumedOutputs coinbase (UtxoState.initial db).batch.getUtxo) ::
        flows item.context (others.zipIdx 1) next) ≤
      econ.baseReward + consumed Output.doliValue
        ((coinbase, consumedOutputs coinbase (UtxoState.initial db).batch.getUtxo) ::
          flows item.context (others.zipIdx 1) next) := by
    rw [created_cons, consumed_cons, hworth, hnone, total_nil]
    omega
  refine ⟨?_, htotal, ?_⟩
  · intro flow hflow hspending
    rcases List.mem_cons.mp hflow with rfl | hflow
    · rw [hmints.isCoinbase] at hspending
      contradiction
    · exact hcredits flow hflow
  · dsimp only at hheld
    omega

end Block

/-! ## A removal of liquidity -/

def removalMint : Transaction where
  version := 1
  txType := .transfer
  inputs := []
  outputs := [{ samplePaid 1000 with
    pubkeyHash := rewardPoolPubkeyHash sampleCrypto.primitives }]
  extraData := leBytes 8 20

/-- The pool, and a tenth of its shares. -/
def removalDb : StateDb :=
  sampleDb [(⟨⟨10⟩, 0⟩, ⟨.pool samplePoolRecord, 2, false, false⟩),
    (⟨⟨9⟩, 2⟩, ⟨.lpShare 200 samplePoolRecord.poolId ⟨5⟩, 2, false, false⟩)]

def removal : Transaction where
  version := 1
  txType := .removeLiquidity
  inputs := [sampleSpend 0 ⟨⟨10⟩, 0⟩, sampleSpend 1 ⟨⟨9⟩, 2⟩]
  outputs := [.pool { samplePoolRecord with
      reserveA := 3600
      reserveB := 7200
      totalLpShares := 1800 }, samplePaid 400, sampleTokens 800]
  extraData := []

def removalBlock : LedgerBlock where
  ctx := sampleSpendingContext
  block :=
    { header := { Validation.sampleHeader with
        merkleRoot := Validation.computeMerkleRoot sampleCrypto.primitives
          [removalMint, removal] }
      transactions := [removalMint, removal]
      aggregateBlsSignature := []
      attestationBitfield := [] }
  mode := .light

def removalEconomics : EconomicsContext where
  prim := sampleCrypto.primitives
  network := sampleSpendingContext.base.network.params
  rewards := ⟨1000, 100000⟩
  incI233ActivationHeight := 0
  height := sampleSpendingContext.base.currentHeight
  mode := .light
  poolRows := []
  epochRewards := none

theorem removalBlock_accepted : removalBlock.Accepted sampleCrypto.primitives where
  prim_eq := rfl
  opened := Validation.sampleSpendingContext_gatesOpen
  live := by decide
  valid := by
    simp only [Validation.validateBlockWithMode, removalBlock, Validation.validateLight,
      seq_eq_ok, Validation.checkBody_eq_ok]
    exact ⟨by decide +kernel, by decide +kernel, by decide +kernel,
      ⟨by decide +kernel, rfl⟩, by decide +kernel, by decide +kernel⟩

theorem removalBlock_issued : IssuedUnder removalEconomics removalBlock where
  height := rfl
  mode := rfl
  gate := Nat.zero_le _
  valid := by decide +kernel

/-- The removal is credited nothing and burns nothing: it pays the share of the reserve out
in native amounts, over the reward. -/
theorem removal_pays_reserve :
    removalBlock.Accepted sampleCrypto.primitives ∧
      IssuedUnder removalEconomics removalBlock ∧
        ∃ state, processTransactions removalBlock.context [removalMint, removal] removalDb =
            .ok state ∧
          removalEconomics.baseReward + consumed nativeAmount
              (flows removalBlock.context [(removalMint, 0), (removal, 1)]
                (.initial removalDb)) <
            created nativeAmount
              (flows removalBlock.context [(removalMint, 0), (removal, 1)]
                (.initial removalDb)) ∧
          ∀ flow ∈ flows removalBlock.context [(removal, 1)] (.initial removalDb),
            total nativeAmount flow.2 <
              txCoinbaseCredit true flow.1 + total nativeAmount flow.1.outputs := by
  refine ⟨removalBlock_accepted, removalBlock_issued, ?_⟩
  obtain ⟨state, hprocess, -⟩ := @ok_of_any _ _
    (processTransactions removalBlock.context [removalMint, removal] removalDb)
    (fun _ => true) (by decide +kernel)
  exact ⟨state, hprocess, by decide +kernel, by decide +kernel⟩

theorem issuance_within_reward_removal :
    ∃ state, processTransactions removalBlock.context [removalMint, removal] removalDb =
        .ok state ∧
      doliHeld state.batch.view ≤ doliHeld removalDb.utxo + removalEconomics.baseReward := by
  obtain ⟨state, hprocess, -⟩ := @ok_of_any _ _
    (processTransactions removalBlock.context [removalMint, removal] removalDb)
    (fun _ => true) (by decide +kernel)
  exact ⟨state, hprocess,
    (issuance_within_reward removalBlock_accepted removalBlock_issued hprocess).2.2⟩

end Doli.Node
