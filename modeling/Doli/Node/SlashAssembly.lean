import Doli.Node.SlashFacts
import Doli.Node.SlashSubmit
import Doli.Validation.PoolChange

/-!
# A block of picked slashes

The transactions a builder picks from its mempool, with a context that judges the whole
mempool, stand in a block that is judged by itself.  What one judge accepts the other
accepts, and the running budget is what the rules of the block ask for.
-/

namespace Doli.Node

open Doli.Core Doli.Lib Doli.Producer Doli.Storage
open Doli.Validation (ValidationContext SpendingContext SlashTargetState Assembly isSlash
  slashRegistrant bondWithdrawalProducer decodeSlashData accusedKeys bondOwner validateSlash
  validateSlashTarget validateSlashWindow validateBlockSlashes validateSlashBondSpends
  KeepsOwners sampleCrypto sampleSpendingContext)

/-! ## The picked transactions -/

section

variable (ctx : SpendingContext) (others : List Transaction → Transaction → Bool)
  (producers : ProducerSet) (db : StateDb) (mempool : List Transaction)

/-- The context of the builder, which judges its whole mempool. -/
def building : SpendingContext :=
  { ctx with base := judging ctx.base producers db mempool }

/-- `others` are the gates with no part in slashing: the rotations, the unique ids, the
size, the deadline and the holdings. -/
def builderGates (lookup : Outpoint → Option UtxoEntry) (included : List Transaction)
    (tx : Transaction) : Bool :=
  others included tx && decide (validateSlashTarget ctx.base tx = .ok ()) &&
    decide (ctx.validateTransactionWithUtxos tx lookup = .ok ())

def selectTransactions : List Transaction :=
  let builder := building ctx producers db mempool
  (Assembly.build builder.base (builderGates builder others db.getUtxo) db.getUtxo
    mempool).included

end

/-- What the node adds of its own: a coinbase, an EpochReward of the reward pool, or a
registration while nobody owns a bond yet. -/
structure OwnTransaction (prim : Primitives) (db : StateDb) (tx : Transaction) : Prop where
  kind : tx.txType = .transfer ∨ tx.txType = .epochReward ∨ tx.txType = .registration
  genesis : tx.txType = .registration → ∀ outpoint entry, db.getUtxo outpoint = some entry →
    entry.output.outputType ≠ .bond ∧ entry.output.outputType ≠ .unbonding
  inputs : ∀ input ∈ tx.inputs, ∃ entry, db.getUtxo (inputOutpoint input) = some entry ∧
    entry.output.pubkeyHash = rewardPoolPubkeyHash prim

section

variable {producers : ProducerSet} {db : StateDb}

theorem withCollateral_of_unbonded {ctx : ValidationContext} {key : PublicKey}
    {state : SlashTargetState}
    (hunbonded : ∀ outpoint entry, db.getUtxo outpoint = some entry →
      entry.output.outputType ≠ .bond ∧ entry.output.outputType ≠ .unbonding) :
    withCollateral ctx db key state = state := by
  have hrows : ∀ row ∈ db.getUtxosByPubkey (bondOwner ctx key), ∀ state,
      addCollateral ctx.currentHeight state row = state := by
    rintro ⟨outpoint, entry⟩ hrow state
    obtain ⟨hbond, hunbonding⟩ := hunbonded outpoint entry
      (StateDb.getUtxo_of_mem_getUtxosByPubkey hrow)
    simp [addCollateral, bondCreationSlot, hbond, hunbonding]
  unfold withCollateral
  generalize db.getUtxosByPubkey (bondOwner ctx key) = rows at hrows
  induction rows with
  | nil => rfl
  | cons row rows ih =>
      rw [List.foldl_cons, hrows row List.mem_cons_self]
      exact ih fun other hother => hrows other (List.mem_cons_of_mem _ hother)

theorem judging_active {ctx : ValidationContext} {txs : List Transaction}
    (hactive : ctx.slashRuleActive = true) :
    (judging ctx producers db txs).slashRuleActive = true := hactive

theorem judging_inactive {ctx : ValidationContext} {txs : List Transaction}
    (hinactive : ctx.slashRuleActive = false) :
    (judging ctx producers db txs).slashRuleActive = false := hinactive

theorem Judged.known {ctx : ValidationContext} {txs : List Transaction} {tx : Transaction}
    {data : Validation.SlashData} {state : SlashTargetState}
    (hactive : ctx.slashRuleActive = true)
    (hjudged : Judged (judging ctx producers db txs) tx data state) :
    ∃ bare, targetState ctx.crypto.primitives producers data.producerPubkey = some bare ∧
      state = withCollateral ctx db data.producerPubkey bare ∧ state ≠ bare := by
  obtain ⟨bare, htarget, hstate⟩ := judging_known hactive hjudged.registered
  have hne : state ≠ bare := by
    intro heq
    obtain ⟨info, -, hbare⟩ := Option.map_eq_some_iff.mp htarget
    have hcollateral := hjudged.collateral (judging_active hactive)
    simp [heq, ← hbare] at hcollateral
  exact ⟨bare, htarget, hstate.resolve_left hne, hne⟩

theorem slashAccused_of_judged {ctx : ValidationContext} {tx : Transaction}
    {data : Validation.SlashData} {state : SlashTargetState} (htype : isSlash tx = true)
    (hjudged : Judged ctx tx data state) : slashAccused ctx tx = some data.producerPubkey := by
  have hread := (Validation.validateSlash_eq_ok.mp hjudged.evidence).2.2.2.1
  simp only [Validation.decodeSlashData, seq_eq_ok, orRefuse_eq_ok] at hread
  unfold slashAccused
  rw [if_pos (of_decide_eq_true htype), hread.2]
  rfl

theorem slashAccused_length_le (ctx : ValidationContext) (txs : List Transaction) :
    (txs.filterMap (slashAccused ctx)).length ≤ txs.countP isSlash := by
  induction txs with
  | nil => exact Nat.le_refl _
  | cons tx txs ih =>
      cases haccused : slashAccused ctx tx with
      | none =>
          rw [List.filterMap_cons_none haccused, List.countP_cons]
          omega
      | some key =>
          have htype : isSlash tx = true := by
            unfold slashAccused at haccused
            split at haccused
            case isTrue htype => exact decide_eq_true htype
            case isFalse => cases haccused
          rw [List.filterMap_cons_some haccused, List.countP_cons, if_pos htype,
            List.length_cons]
          omega

theorem validateSlashTarget_transfer {builder validator : ValidationContext}
    (hsame : SameSlashRules builder validator) {mempool txs : List Transaction}
    {tx : Transaction} (hcount : txs.countP isSlash ≤ Core.maxSlashTxsPerBlock)
    (htx : tx ∈ txs)
    (hok : validateSlashTarget (judging builder producers db mempool) tx = .ok ()) :
    validateSlashTarget (judging validator producers db txs) tx = .ok () := by
  cases htype : isSlash tx with
  | false => exact validateSlashTarget_other htype
  | true =>
      cases hactive : validator.slashRuleActive with
      | false => exact validateSlashTarget_inactive hactive
      | true =>
          have hbuilder : builder.slashRuleActive = true := hsame.slashRuleActive.trans hactive
          have hjudges : SameSlashRules (judging builder producers db mempool)
              (judging validator producers db txs) := hsame.judging
          obtain ⟨data, state, hjudged⟩ :=
            (validateSlashTarget_eq_ok (judging_active hbuilder) htype).mp hok
          obtain ⟨bare, htarget, hstate, -⟩ := hjudged.known hbuilder
          have haccused : slashAccused validator tx = some data.producerPubkey := by
            rw [← slashAccused_of_judged htype hjudged]
            exact (hsame.slashAccused tx).symm
          have hlooked : (judging validator producers db txs).slashTargets data.producerPubkey =
              some (withCollateral validator db data.producerPubkey bare) := judging_looked hactive
            ((slashAccused_length_le validator txs).trans hcount)
            (List.mem_filterMap.mpr ⟨tx, htx, haccused⟩) (hsame.crypto ▸ htarget)
          rw [← hsame.withCollateral, ← hstate] at hlooked
          apply (validateSlashTarget_eq_ok (judging_active hactive) htype).mpr
          exact ⟨data, state,
            { evidence := (hjudges.validateSlash tx).symm.trans hjudged.evidence
              registered := hlooked
              notSlashed := hjudged.notSlashed
              notQueued := hjudged.notQueued
              bonded := hjudged.bonded
              window := (hjudges.validateSlashWindow _ _).symm.trans hjudged.window }⟩

end

/-! ## The block -/

theorem spendsOwnedBond_congr {tx : Transaction} {lookup : Outpoint → Option UtxoEntry}
    {first second : List Hash} (hsame : ∀ owner, owner ∈ first ↔ owner ∈ second) :
    UtxoContext.spendsOwnedBond tx first lookup = UtxoContext.spendsOwnedBond tx second lookup := by
  have hempty : first.isEmpty = second.isEmpty := by
    rw [Bool.eq_iff_iff, List.isEmpty_iff, List.isEmpty_iff, List.eq_nil_iff_forall_not_mem,
      List.eq_nil_iff_forall_not_mem]
    exact forall_congr' fun owner => not_congr (hsame owner)
  unfold UtxoContext.spendsOwnedBond
  simp only [hempty, hsame]

theorem accusedKeys_append (ctx : ValidationContext) (first second : List Transaction) :
    accusedKeys ctx (first ++ second) = accusedKeys ctx first ++ accusedKeys ctx second := by
  simp [Validation.accusedKeys, List.filter_append, List.filterMap_append]

theorem accusedKeys_of_no_slash {ctx : ValidationContext} {txs : List Transaction}
    (hnone : ∀ tx ∈ txs, isSlash tx = false) : accusedKeys ctx txs = [] := by
  have hfilter : (txs.filter fun tx => decide (tx.txType = .slashProducer)) = [] := by
    rw [List.filter_eq_nil_iff]
    intro tx htx
    rw [show decide (tx.txType = .slashProducer) = isSlash tx from rfl, hnone tx htx]
    simp
  unfold Validation.accusedKeys
  rw [hfilter]
  rfl

section

variable {prim : Primitives} {db : StateDb} {tx : Transaction}

theorem OwnTransaction.isSlash (hown : OwnTransaction prim db tx) : isSlash tx = false := by
  rcases hown.kind with htype | htype | htype <;> simp [Validation.isSlash, htype]

theorem OwnTransaction.bondWithdrawalProducer (hown : OwnTransaction prim db tx) :
    bondWithdrawalProducer tx = none := by
  rcases hown.kind with htype | htype | htype <;>
    simp [Validation.bondWithdrawalProducer, Transaction.withdrawalRequestData, htype]

theorem OwnTransaction.registration {ctx : ValidationContext} {key : PublicKey}
    (hown : OwnTransaction prim db tx) (hregistrant : slashRegistrant ctx tx = some key) :
    tx.txType = .registration := by
  rcases hown.kind with htype | htype | htype
  · simp [slashRegistrant, htype] at hregistrant
  · simp [slashRegistrant, htype] at hregistrant
  · exact htype

theorem OwnTransaction.spends {owners : List Hash} (hown : OwnTransaction prim db tx)
    (howners : rewardPoolPubkeyHash prim ∉ owners) :
    UtxoContext.spendsOwnedBond tx owners db.getUtxo = false := by
  have hnone : (tx.inputs.any fun input => (db.getUtxo (inputOutpoint input)).any fun entry =>
      UtxoContext.isBond entry.output && decide (entry.output.pubkeyHash ∈ owners)) = false := by
    rw [List.any_eq_false]
    intro input hinput
    obtain ⟨entry, hentry, hpool⟩ := hown.inputs input hinput
    simp [hentry, hpool, howners]
  unfold UtxoContext.spendsOwnedBond
  rw [hnone, Bool.and_false]

end

section

variable {ctx : SpendingContext} {others : List Transaction → Transaction → Bool}
  {producers : ProducerSet} {db : StateDb} {mempool : List Transaction}

theorem selected_gates : ∀ tx ∈ selectTransactions ctx others producers db mempool,
    validateSlashTarget (judging ctx.base producers db mempool) tx = .ok () ∧
      (building ctx producers db mempool).validateTransactionWithUtxos tx db.getUtxo =
        .ok () := by
  intro tx htx
  obtain ⟨before, hgates⟩ := Assembly.build_gates mempool tx htx
  simp only [builderGates, Bool.and_eq_true, decide_eq_true_eq] at hgates
  exact ⟨hgates.1.2, hgates.2⟩

theorem selected_slash_inputs (hactive : ctx.base.slashRuleActive = true) :
    ∀ tx ∈ selectTransactions ctx others producers db mempool, isSlash tx = true →
      tx.inputs = [] := by
  intro tx htx htype
  obtain ⟨data, state, hjudged⟩ :=
    (validateSlashTarget_eq_ok (judging_active hactive) htype).mp (selected_gates tx htx).1
  exact (Validation.validateSlash_eq_ok.mp hjudged.evidence).1

theorem selected_no_slash (hactive : ctx.base.slashRuleActive = true)
    (hunbonded : ∀ outpoint entry, db.getUtxo outpoint = some entry →
      entry.output.outputType ≠ .bond ∧ entry.output.outputType ≠ .unbonding) :
    ∀ tx ∈ selectTransactions ctx others producers db mempool, isSlash tx = false := by
  intro tx htx
  cases htype : isSlash tx with
  | false => rfl
  | true =>
      obtain ⟨data, state, hjudged⟩ :=
        (validateSlashTarget_eq_ok (judging_active hactive) htype).mp (selected_gates tx htx).1
      obtain ⟨bare, -, hstate, hne⟩ := hjudged.known hactive
      rw [withCollateral_of_unbonded hunbonded] at hstate
      exact absurd hstate hne

end

section

variable {ctx : SpendingContext} {validator : ValidationContext}
  {others : List Transaction → Transaction → Bool} {producers : ProducerSet} {db : StateDb}
  {mempool own : List Transaction}

/-- The budget the builder ends with. -/
def finalBudget (ctx : SpendingContext) (others : List Transaction → Transaction → Bool)
    (producers : ProducerSet) (db : StateDb) (mempool : List Transaction) :
    Validation.SlashBlockBudget :=
  let builder := building ctx producers db mempool
  (Assembly.build builder.base (builderGates builder others db.getUtxo) db.getUtxo
    mempool).budget

theorem selected_balanced (ctx : SpendingContext)
    (others : List Transaction → Transaction → Bool) (producers : ProducerSet) (db : StateDb)
    (mempool : List Transaction) (hactive : ctx.base.slashRuleActive = true) :
    Assembly.Balanced (judging ctx.base producers db mempool) db.getUtxo
      ⟨finalBudget ctx others producers db mempool,
        selectTransactions ctx others producers db mempool⟩ :=
  Assembly.build_balanced (judging_active hactive) mempool

theorem accusedKeys_selected_perm (hsame : SameSlashRules ctx.base validator)
    (hactive : ctx.base.slashRuleActive = true) :
    (accusedKeys validator (selectTransactions ctx others producers db mempool)).Perm
      (finalBudget ctx others producers db mempool).accused := by
  rw [← hsame.accusedKeys]
  exact (selected_balanced ctx others producers db mempool hactive).accused

theorem accusedKeys_block (hown : ∀ tx ∈ own, isSlash tx = false) :
    accusedKeys validator (own ++ selectTransactions ctx others producers db mempool) =
      accusedKeys validator (selectTransactions ctx others producers db mempool) := by
  rw [accusedKeys_append, accusedKeys_of_no_slash hown, List.nil_append]

theorem countP_isSlash_block (hactive : ctx.base.slashRuleActive = true)
    (hown : ∀ tx ∈ own, isSlash tx = false) :
    (own ++ selectTransactions ctx others producers db mempool).countP isSlash ≤
      Core.maxSlashTxsPerBlock := by
  have hbalanced := selected_balanced ctx others producers db mempool hactive
  have hnone : own.countP isSlash = 0 := by
    rw [List.countP_eq_zero]
    intro tx htx
    simp [hown tx htx]
  rw [List.countP_append, hnone, Nat.zero_add, hbalanced.decoded]
  exact hbalanced.room

theorem accused_empty_of_registration (hactive : ctx.base.slashRuleActive = true)
    {prim : Primitives} (hown : ∀ tx ∈ own, OwnTransaction prim db tx) {tx : Transaction}
    (htx : tx ∈ own)
    {key : PublicKey} (hregistrant : slashRegistrant validator tx = some key) :
    (accusedKeys validator (own ++ selectTransactions ctx others producers db mempool)) = [] := by
  have hunbonded := (hown tx htx).genesis ((hown tx htx).registration hregistrant)
  rw [accusedKeys_append, accusedKeys_of_no_slash fun tx htx => (hown tx htx).isSlash,
    accusedKeys_of_no_slash (selected_no_slash hactive hunbonded)]
  rfl

theorem checkSlashCounts_block (hsame : SameSlashRules ctx.base validator)
    (hactive : ctx.base.slashRuleActive = true) {prim : Primitives}
    (hown : ∀ tx ∈ own, OwnTransaction prim db tx) :
    Validation.checkSlashCounts validator
      (own ++ selectTransactions ctx others producers db mempool) = .ok () := by
  have hnone : ∀ tx ∈ own, isSlash tx = false := fun tx htx => (hown tx htx).isSlash
  have hbalanced := selected_balanced ctx others producers db mempool hactive
  have hperm : (accusedKeys validator (selectTransactions ctx others producers db mempool)).Perm
      (finalBudget ctx others producers db mempool).accused :=
    accusedKeys_selected_perm hsame hactive
  rw [← accusedKeys_block hnone] at hperm
  apply Validation.checkSlashCounts_of
  · exact countP_isSlash_block hactive hnone
  · exact hperm.nodup_iff.mpr hbalanced.distinct
  · intro tx htx key hwithdrawal
    rw [hperm.mem_iff]
    rcases List.mem_append.mp htx with hmine | hpicked
    · rw [(hown tx hmine).bondWithdrawalProducer] at hwithdrawal
      cases hwithdrawal
    · cases htype : isSlash tx with
      | true =>
          rw [Validation.bondWithdrawalProducer_of_slash htype] at hwithdrawal
          cases hwithdrawal
      | false => exact (hbalanced.harmless tx hpicked htype).withdrawal key hwithdrawal
  · intro tx htx key hregistrant
    rcases List.mem_append.mp htx with hmine | hpicked
    · rw [accused_empty_of_registration hactive hown hmine hregistrant]
      exact List.not_mem_nil
    · rw [hperm.mem_iff]
      rw [← hsame.slashRegistrant] at hregistrant
      cases htype : isSlash tx with
      | true =>
          rw [Validation.slashRegistrant_of_slash htype] at hregistrant
          cases hregistrant
      | false => exact (hbalanced.harmless tx hpicked htype).registrant key hregistrant

theorem spends_block (hsame : SameSlashRules ctx.base validator)
    (hactive : ctx.base.slashRuleActive = true)
    (hpool : ∀ key ∈ accusedKeys validator (selectTransactions ctx others producers db mempool),
      validator.crypto.primitives.addressOf key ≠
        rewardPoolPubkeyHash validator.crypto.primitives)
    (hown : ∀ tx ∈ own, OwnTransaction validator.crypto.primitives db tx) :
    ∀ tx ∈ own ++ selectTransactions ctx others producers db mempool,
      UtxoContext.spendsOwnedBond tx ((accusedKeys validator
        (own ++ selectTransactions ctx others producers db mempool)).map (bondOwner validator))
          db.getUtxo = false := by
  have hbalanced := selected_balanced ctx others producers db mempool hactive
  rw [accusedKeys_block fun tx htx => (hown tx htx).isSlash]
  have howners : ∀ owner, owner ∈ (accusedKeys validator
      (selectTransactions ctx others producers db mempool)).map (bondOwner validator) ↔
        owner ∈ (finalBudget ctx others producers db mempool).owners := by
    intro owner
    rw [hbalanced.owners, ((accusedKeys_selected_perm hsame hactive).map _).mem_iff]
    unfold Validation.bondOwner
    rw [← hsame.crypto]
    rfl
  intro tx htx
  rcases List.mem_append.mp htx with hmine | hpicked
  · apply (hown tx hmine).spends
    rw [List.mem_map]
    rintro ⟨key, hkey, heq⟩
    exact hpool key hkey heq
  · rw [spendsOwnedBond_congr howners]
    cases htype : isSlash tx with
    | true =>
        unfold UtxoContext.spendsOwnedBond
        rw [selected_slash_inputs hactive tx hpicked htype, List.any_nil, Bool.and_false]
    | false => exact (hbalanced.harmless tx hpicked htype).spends

end

/-- The block of what the builder picked, behind what the node adds of its own, is refused
by no slash rule. -/
theorem selected_passes_slash_rules (ctx : SpendingContext) (validator : ValidationContext)
    (hsame : SameSlashRules ctx.base validator)
    (others : List Transaction → Transaction → Bool) (producers : ProducerSet) (db : StateDb)
    (mempool own : List Transaction)
    (hpool : ∀ key ∈ accusedKeys validator (selectTransactions ctx others producers db mempool),
      validator.crypto.primitives.addressOf key ≠
        rewardPoolPubkeyHash validator.crypto.primitives)
    (hown : ∀ tx ∈ own, OwnTransaction validator.crypto.primitives db tx)
    (hkeeps : KeepsOwners validator.crypto.primitives db.getUtxo
      (own ++ selectTransactions ctx others producers db mempool)) :
    let txs := own ++ selectTransactions ctx others producers db mempool
    validateBlockSlashes (judging validator producers db txs) txs = .ok () ∧
      validateSlashBondSpends (judging validator producers db txs) txs db.getUtxo = .ok () := by
  intro txs
  cases hrule : validator.slashRuleActive with
  | false =>
      constructor
      · unfold validateBlockSlashes
        rw [seq_eq_ok, checkWhen_eq_ok, checkEach_eq_ok]
        exact ⟨fun hactive => absurd hactive (by simp [judging_inactive hrule]),
          fun tx _ => validateSlashTarget_inactive (judging_inactive hrule)⟩
      · unfold validateSlashBondSpends
        rw [if_pos (judging_inactive hrule)]
  | true =>
      have hactive : ctx.base.slashRuleActive = true := hsame.slashRuleActive.trans hrule
      constructor
      · unfold validateBlockSlashes
        rw [seq_eq_ok, checkWhen_eq_ok, checkEach_eq_ok]
        constructor
        · have hcounts : Validation.checkSlashCounts validator txs = .ok () :=
            checkSlashCounts_block hsame hactive hown
          exact fun _ => hcounts
        · intro tx htx
          rcases List.mem_append.mp htx with hmine | hpicked
          · exact validateSlashTarget_other (hown tx hmine).isSlash
          · exact validateSlashTarget_transfer hsame
              (countP_isSlash_block hactive fun tx htx => (hown tx htx).isSlash) htx
              (selected_gates tx hpicked).1
      · -- the targets have no part in the spends
        change validateSlashBondSpends validator txs db.getUtxo = .ok ()
        apply Validation.validateSlashBondSpends_of
        · exact spends_block hsame hactive hpool hown
        · intro tx htx input hinput
          rcases List.mem_append.mp htx with hmine | hpicked
          · obtain ⟨entry, hentry, -⟩ := (hown tx hmine).inputs input hinput
            rw [hentry]
            rfl
          · exact UtxoContext.validateTransactionWithUtxos_inputs (selected_gates tx hpicked).2
              input hinput
        · exact hkeeps

/-! ## A run -/

/-- A slash of the producer of the sample headers. -/
def sampleProvenSlash : Transaction :=
  Validation.newSlashProducer sampleCrypto
    (Validation.SlashData.doubleProduction sampleBlake3 ⟨5⟩
      (Network.EquivocationDetector.sampleProduced ⟨1⟩ ⟨1⟩)
      (Network.EquivocationDetector.sampleProduced ⟨2⟩ ⟨1⟩))

/-- Registered at height 1 with a Bond of slot 3. -/
def sampleAccused : ProducerSet where
  producers := (∅ : Column Hash ProducerInfo).insert
    (sampleCrypto.primitives.cryptoHash ⟨5⟩)
    (ProducerInfo.newWithBonds ⟨5⟩ 1 1000 ⟨⟨80⟩, 0⟩ 0 1)
  exitHistory := ∅
  unbondingIndex := []
  pendingUpdates := []

def sampleBonded : StateDb :=
  StateDb.empty.insertUtxo ⟨⟨80⟩, 0⟩
    { output :=
        { outputType := .bond
          amount := 1000
          pubkeyHash := sampleCrypto.primitives.addressOf ⟨5⟩
          lockUntil := 2 ^ 64 - 1
          extraData := leBytes 4 3 }
      height := 1
      isCoinbase := false
      isEpochReward := false }

/-- The slash is offered twice and picked once. -/
theorem selected_passes_slash_rules_sample :
    selectTransactions sampleSpendingContext (fun _ _ => true) sampleAccused
        sampleBonded [sampleProvenSlash, sampleProvenSlash] = [sampleProvenSlash] ∧
      validateBlockSlashes (judging sampleSpendingContext.base sampleAccused
        sampleBonded [sampleProvenSlash]) [sampleProvenSlash] = .ok () := by
  have hselected : selectTransactions sampleSpendingContext (fun _ _ => true)
      sampleAccused sampleBonded [sampleProvenSlash, sampleProvenSlash] = [sampleProvenSlash] := by
    decide +kernel
  have hpool : ∀ key ∈ accusedKeys sampleSpendingContext.base [sampleProvenSlash],
      sampleSpendingContext.base.crypto.primitives.addressOf key ≠
        rewardPoolPubkeyHash sampleSpendingContext.base.crypto.primitives := by
    decide +kernel
  have hkeeps : KeepsOwners sampleSpendingContext.base.crypto.primitives
      sampleBonded.getUtxo [sampleProvenSlash] := by
    intro tx htx index output entry houtput
    rw [List.mem_singleton.mp htx] at houtput
    simp [sampleProvenSlash, Validation.newSlashProducer] at houtput
  have hpasses := selected_passes_slash_rules sampleSpendingContext
    sampleSpendingContext.base (.refl _) (fun _ _ => true) sampleAccused sampleBonded
      [sampleProvenSlash, sampleProvenSlash] [] (by rwa [hselected]) (by simp) (by rwa [hselected])
  rw [hselected] at hpasses
  exact ⟨hselected, hpasses.1⟩

end Doli.Node
