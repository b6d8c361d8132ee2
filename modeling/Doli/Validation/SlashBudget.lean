import Doli.Core.Validation
import Doli.Lib.Run
import Doli.Validation.Spending

/-!
# The slashes a block builder picks

`slashes_first`, `SlashBlockBudget` and the loop of the builder around them, beside
`validate_slash_bond_spends`.  The builder keeps a running budget, the validator looks at
the whole block; what the one picks the other accepts.
-/

namespace Doli.Validation

open Doli.Core Doli.Lib Doli.Storage

section

variable (ctx : ValidationContext)

def isSlash (tx : Transaction) : Bool := tx.txType = .slashProducer

/-- Owner of the Bond UTXOs that a slash of the producer burns. -/
def bondOwner (producer : PublicKey) : Hash := ctx.crypto.primitives.addressOf producer

/-- From the slash rule, no Bond of an accused of the block is spent in it: neither one of
the set before the block nor one that an earlier transaction of the block created. -/
def validateSlashBondSpends (txs : List Transaction)
    (lookup : Outpoint → Option UtxoEntry) : Verdict :=
  if ctx.slashRuleActive = false then .ok ()
  else
    let owners := (accusedKeys ctx txs).map (bondOwner ctx)
    if owners.isEmpty then .ok ()
    else
      refuseIf (ctx.utxo.noBondSpend owners lookup txs [] = false)
        (.invalidSlash "block holds a slash and a spend of the accused's bond")

/-- Stable: every slash comes first, else the order is kept. -/
def slashesFirst (txs : List Transaction) : List Transaction :=
  if ctx.slashRuleActive then txs.filter isSlash ++ txs.filter fun tx => !isSlash tx
  else txs

/-! ## The budget -/

/-- The accused picked so far, and the owners of their Bonds. -/
structure SlashBlockBudget where
  accused : List PublicKey
  owners : List Hash
  deriving DecidableEq, Repr

namespace SlashBlockBudget

def empty : SlashBlockBudget := ⟨[], []⟩

variable (budget : SlashBlockBudget) (tx : Transaction)

def fits : Bool :=
  if ctx.slashRuleActive = false then true
  else
    match (bondWithdrawalProducer tx).or (slashRegistrant ctx tx) with
    | some producer => decide (producer ∉ budget.accused)
    | none =>
        if isSlash tx = false then true
        else
          match decodeSlashData ctx tx.extraData with
          | .error _ => false
          | .ok data =>
              decide (budget.accused.length < maxSlashTxsPerBlock) &&
                decide (data.producerPubkey ∉ budget.accused)

def spendsAccusedBond (lookup : Outpoint → Option UtxoEntry) : Bool :=
  UtxoContext.spendsOwnedBond tx budget.owners lookup

def accept : SlashBlockBudget :=
  if isSlash tx = false ∨ ctx.slashRuleActive = false then budget
  else
    match decodeSlashData ctx tx.extraData with
    | .error _ => budget
    | .ok data =>
        { accused := data.producerPubkey :: budget.accused.filter (· ≠ data.producerPubkey)
          owners := bondOwner ctx data.producerPubkey ::
            budget.owners.filter (· ≠ bondOwner ctx data.producerPubkey) }

end SlashBlockBudget

/-! ## The loop of the builder -/

/-- The budget and the candidates included so far. -/
structure Assembly where
  budget : SlashBlockBudget
  included : List Transaction
  deriving DecidableEq

namespace Assembly

def empty : Assembly := ⟨.empty, []⟩

variable (gates : List Transaction → Transaction → Bool)
  (lookup : Outpoint → Option UtxoEntry)

/-- One candidate; `gates` are the other reasons to skip it, which may look at what is
included before it. -/
def consider (state : Assembly) (tx : Transaction) : Assembly :=
  if gates state.included tx && state.budget.fits ctx tx &&
      !state.budget.spendsAccusedBond tx lookup then
    ⟨state.budget.accept ctx tx, state.included ++ [tx]⟩
  else state

def build (mempool : List Transaction) : Assembly :=
  (slashesFirst ctx mempool).foldl (consider ctx gates lookup) .empty

end Assembly

end

/-! ## What the loop keeps -/

section

variable {ctx : ValidationContext} {gates : List Transaction → Transaction → Bool}
  {lookup : Outpoint → Option UtxoEntry}

/-- A transaction that is no slash names no accused of the budget and spends none of their
Bonds. -/
structure Harmless (ctx : ValidationContext) (budget : SlashBlockBudget)
    (lookup : Outpoint → Option UtxoEntry) (tx : Transaction) : Prop where
  withdrawal : ∀ producer, bondWithdrawalProducer tx = some producer →
    producer ∉ budget.accused
  registrant : ∀ producer, slashRegistrant ctx tx = some producer → producer ∉ budget.accused
  spends : UtxoContext.spendsOwnedBond tx budget.owners lookup = false

/-- The budget is that of the included slashes, and nothing included offends it. -/
structure Assembly.Balanced (ctx : ValidationContext) (lookup : Outpoint → Option UtxoEntry)
    (state : Assembly) : Prop where
  accused : (accusedKeys ctx state.included).Perm state.budget.accused
  owners : ∀ owner, owner ∈ state.budget.owners ↔
    owner ∈ state.budget.accused.map (bondOwner ctx)
  distinct : state.budget.accused.Nodup
  room : state.budget.accused.length ≤ maxSlashTxsPerBlock
  decoded : state.included.countP isSlash = state.budget.accused.length
  harmless : ∀ tx ∈ state.included, isSlash tx = false → Harmless ctx state.budget lookup tx

theorem Assembly.balanced_empty : Assembly.empty.Balanced ctx lookup where
  accused := List.Perm.refl _
  owners owner := by simp [Assembly.empty, SlashBlockBudget.empty]
  distinct := List.nodup_nil
  room := Nat.zero_le _
  decoded := rfl
  harmless tx htx := by simp [Assembly.empty] at htx

theorem bondWithdrawalProducer_of_slash {tx : Transaction} (htype : isSlash tx = true) :
    bondWithdrawalProducer tx = none := by
  have htype : tx.txType = .slashProducer := of_decide_eq_true htype
  simp [bondWithdrawalProducer, Transaction.withdrawalRequestData, htype]

theorem slashRegistrant_of_slash {tx : Transaction} (htype : isSlash tx = true) :
    slashRegistrant ctx tx = none := by
  have htype : tx.txType = .slashProducer := of_decide_eq_true htype
  simp [slashRegistrant, htype]

theorem slashRegistrant_of_withdrawal {tx : Transaction} {producer : PublicKey}
    (hwithdrawal : bondWithdrawalProducer tx = some producer) : slashRegistrant ctx tx = none := by
  unfold bondWithdrawalProducer Transaction.withdrawalRequestData at hwithdrawal
  split at hwithdrawal
  case isTrue htype => simp [slashRegistrant, htype]
  case isFalse => simp at hwithdrawal

theorem fits_of_slash {budget : SlashBlockBudget} {tx : Transaction}
    (hactive : ctx.slashRuleActive = true) (htype : isSlash tx = true)
    (hfits : budget.fits ctx tx = true) :
    ∃ data, decodeSlashData ctx tx.extraData = .ok data ∧
      budget.accused.length < maxSlashTxsPerBlock ∧ data.producerPubkey ∉ budget.accused := by
  unfold SlashBlockBudget.fits at hfits
  rw [if_neg (by simp [hactive]), bondWithdrawalProducer_of_slash htype,
    slashRegistrant_of_slash htype] at hfits
  dsimp only [Option.or] at hfits
  rw [if_neg (by simp [htype])] at hfits
  cases hdata : decodeSlashData ctx tx.extraData with
  | error error => simp [hdata] at hfits
  | ok data =>
      rw [hdata, Bool.and_eq_true, decide_eq_true_eq, decide_eq_true_eq] at hfits
      exact ⟨data, rfl, hfits.1, hfits.2⟩

theorem harmless_of_fits {budget : SlashBlockBudget} {tx : Transaction}
    (hactive : ctx.slashRuleActive = true) (hfits : budget.fits ctx tx = true)
    (hspends : budget.spendsAccusedBond tx lookup = false) : Harmless ctx budget lookup tx := by
  unfold SlashBlockBudget.fits at hfits
  rw [if_neg (by simp [hactive])] at hfits
  refine ⟨?_, ?_, hspends⟩
  · intro producer hproducer
    rw [hproducer] at hfits
    exact of_decide_eq_true hfits
  · intro producer hproducer
    cases hwithdrawal : bondWithdrawalProducer tx with
    | some other =>
        rw [slashRegistrant_of_withdrawal hwithdrawal] at hproducer
        cases hproducer
    | none =>
        rw [hwithdrawal, hproducer] at hfits
        exact of_decide_eq_true hfits

theorem accusedKeys_append_of_slash {txs : List Transaction} {tx : Transaction}
    {data : SlashData} (htype : isSlash tx = true)
    (hdata : decodeSlashData ctx tx.extraData = .ok data) :
    accusedKeys ctx (txs ++ [tx]) = accusedKeys ctx txs ++ [data.producerPubkey] := by
  have htype : tx.txType = .slashProducer := of_decide_eq_true htype
  simp [accusedKeys, List.filter_append, htype, hdata, Except.toOption]

theorem accusedKeys_append_of_other {txs : List Transaction} {tx : Transaction}
    (htype : isSlash tx = false) : accusedKeys ctx (txs ++ [tx]) = accusedKeys ctx txs := by
  have htype : ¬ tx.txType = .slashProducer := of_decide_eq_false htype
  simp [accusedKeys, List.filter_append, htype]

theorem Assembly.balanced_slash {state : Assembly} {tx : Transaction}
    (hactive : ctx.slashRuleActive = true) (hstate : state.Balanced ctx lookup)
    (htype : isSlash tx = true) (hslashes : ∀ other ∈ state.included, isSlash other = true)
    (hfits : state.budget.fits ctx tx = true) :
    Assembly.Balanced ctx lookup ⟨state.budget.accept ctx tx, state.included ++ [tx]⟩ := by
  obtain ⟨data, hdata, hroom, hnew⟩ := fits_of_slash hactive htype hfits
  have hsame : state.budget.accused.filter (· ≠ data.producerPubkey) = state.budget.accused :=
    List.filter_eq_self.mpr fun key hkey => decide_eq_true fun heq => hnew (heq ▸ hkey)
  have haccept : state.budget.accept ctx tx =
      { accused := data.producerPubkey :: state.budget.accused
        owners := bondOwner ctx data.producerPubkey ::
          state.budget.owners.filter (· ≠ bondOwner ctx data.producerPubkey) } := by
    unfold SlashBlockBudget.accept
    rw [if_neg (by simp [htype, hactive]), hdata]
    dsimp only
    rw [hsame]
  rw [haccept]
  constructor
  · rw [accusedKeys_append_of_slash htype hdata]
    exact (List.perm_append_singleton _ _).trans (hstate.accused.cons _)
  · intro owner
    have hother := hstate.owners owner
    simp only [List.mem_cons, List.mem_filter, List.map_cons, hother, decide_eq_true_eq]
    tauto
  · exact List.nodup_cons.mpr ⟨hnew, hstate.distinct⟩
  · exact hroom
  · simp [List.countP_append, hstate.decoded, htype]
  · intro other hother hkind
    rcases List.mem_append.mp hother with hold | hlast
    · rw [hslashes other hold] at hkind
      cases hkind
    · rw [List.mem_singleton.mp hlast, htype] at hkind
      cases hkind

theorem Assembly.balanced_other {state : Assembly} {tx : Transaction}
    (hactive : ctx.slashRuleActive = true) (hstate : state.Balanced ctx lookup)
    (htype : isSlash tx = false) (hfits : state.budget.fits ctx tx = true)
    (hspends : state.budget.spendsAccusedBond tx lookup = false) :
    Assembly.Balanced ctx lookup ⟨state.budget.accept ctx tx, state.included ++ [tx]⟩ := by
  have haccept : state.budget.accept ctx tx = state.budget := by
    unfold SlashBlockBudget.accept
    rw [if_pos (.inl htype)]
  rw [haccept]
  constructor
  · rw [accusedKeys_append_of_other htype]
    exact hstate.accused
  · exact hstate.owners
  · exact hstate.distinct
  · exact hstate.room
  · simp [List.countP_append, hstate.decoded, htype]
  · intro other hother hkind
    rcases List.mem_append.mp hother with hold | hlast
    · exact hstate.harmless other hold hkind
    · rw [List.mem_singleton.mp hlast]
      exact harmless_of_fits hactive hfits hspends

theorem Assembly.consider_cases (state : Assembly) (tx : Transaction) :
    state.consider ctx gates lookup tx = state ∨
      gates state.included tx = true ∧ state.budget.fits ctx tx = true ∧
        state.budget.spendsAccusedBond tx lookup = false ∧
          state.consider ctx gates lookup tx =
            ⟨state.budget.accept ctx tx, state.included ++ [tx]⟩ := by
  unfold Assembly.consider
  split
  case isTrue hok =>
    simp only [Bool.and_eq_true, Bool.not_eq_true'] at hok
    exact .inr ⟨hok.1.1, hok.1.2, hok.2, rfl⟩
  case isFalse => exact .inl rfl

theorem slashesFirst_pairwise (hactive : ctx.slashRuleActive = true) (txs : List Transaction) :
    (slashesFirst ctx txs).Pairwise fun first second =>
      isSlash second = true → isSlash first = true := by
  unfold slashesFirst
  rw [if_pos hactive, List.pairwise_append]
  refine ⟨?_, ?_, ?_⟩
  · exact List.pairwise_of_forall_mem_list fun first hfirst _ _ _ => (List.mem_filter.mp hfirst).2
  · apply List.pairwise_of_forall_mem_list
    intro first _ second hsecond hslash
    have hkind := (List.mem_filter.mp hsecond).2
    simp [hslash] at hkind
  · exact fun first hfirst _ _ _ => (List.mem_filter.mp hfirst).2

theorem Assembly.build_balanced (hactive : ctx.slashRuleActive = true)
    (mempool : List Transaction) :
    (Assembly.build ctx gates lookup mempool).Balanced ctx lookup := by
  have horder := slashesFirst_pairwise hactive mempool
  refine (foldl_invariant (fun done (state : Assembly) =>
    state.Balanced ctx lookup ∧ ∀ tx ∈ state.included, tx ∈ done)
    ⟨balanced_empty, by simp [Assembly.empty]⟩ ?_).1
  rintro done tx rest state hitems ⟨hstate, hdone⟩
  rcases state.consider_cases tx with hskip | ⟨-, hfits, hspends, hnext⟩
  · rw [hskip]
    exact ⟨hstate, fun other hother => List.mem_append_left _ (hdone other hother)⟩
  · rw [hnext]
    constructor
    · cases htype : isSlash tx with
      | true =>
          rw [hitems, List.pairwise_append] at horder
          have hslashes : ∀ other ∈ state.included, isSlash other = true :=
            fun other hother => horder.2.2 other (hdone other hother) tx List.mem_cons_self htype
          exact balanced_slash hactive hstate htype hslashes hfits
      | false => exact balanced_other hactive hstate htype hfits hspends
    · intro other hother
      rcases List.mem_append.mp hother with hold | hlast
      · exact List.mem_append_left _ (hdone other hold)
      · exact List.mem_append_right _ hlast

theorem Assembly.build_gates (mempool : List Transaction) :
    ∀ tx ∈ (Assembly.build ctx gates lookup mempool).included,
      ∃ before, gates before tx = true := by
  refine foldl_invariant (fun _ (state : Assembly) =>
    ∀ tx ∈ state.included, ∃ before, gates before tx = true) (by simp [Assembly.empty]) ?_
  intro done tx rest state _ hstate
  rcases state.consider_cases tx with hskip | ⟨hgates, -, -, hnext⟩
  · rwa [hskip]
  · rw [hnext, List.forall_mem_append]
    exact ⟨hstate, List.forall_mem_singleton.mpr ⟨state.included, hgates⟩⟩

/-! ## What the validator asks -/

theorem checkSlashCounts_of {txs : List Transaction}
    (hcount : txs.countP isSlash ≤ maxSlashTxsPerBlock) (hdistinct : (accusedKeys ctx txs).Nodup)
    (hwithdrawal : ∀ tx ∈ txs, ∀ producer, bondWithdrawalProducer tx = some producer →
      producer ∉ accusedKeys ctx txs)
    (hregistrant : ∀ tx ∈ txs, ∀ producer, slashRegistrant ctx tx = some producer →
      producer ∉ accusedKeys ctx txs) : checkSlashCounts ctx txs = .ok () := by
  unfold checkSlashCounts
  have hcountP : (txs.countP fun tx => decide (tx.txType = .slashProducer)) =
      txs.countP isSlash := rfl
  have hnone : ((txs.filterMap (slashRegistrant ctx)).find? fun key =>
      (accusedKeys ctx txs).contains key) = none := by
    rw [List.find?_eq_none]
    intro key hkey
    obtain ⟨tx, htx, hproducer⟩ := List.mem_filterMap.mp hkey
    simpa using hregistrant tx htx key hproducer
  simp only [seq_eq_ok, refuseIf_eq_ok, hcountP, not_lt, not_not, hnone]
  refine ⟨hcount, hdistinct, ?_, trivial⟩
  rw [List.any_eq_true]
  rintro ⟨key, hkey, hmem⟩
  obtain ⟨tx, htx, hproducer⟩ := List.mem_filterMap.mp hkey
  exact hwithdrawal tx htx key hproducer (by simpa using hmem)

/-- The rows under the id of a transaction have the type and the owner of its outputs. -/
def KeepsOwners (prim : Primitives) (lookup : Outpoint → Option UtxoEntry)
    (txs : List Transaction) : Prop :=
  ∀ tx ∈ txs, ∀ index output entry, tx.outputs[index]? = some output →
    lookup (.ofOutput (prim.txHash tx) index) = some entry →
      entry.output.outputType = output.outputType ∧
        entry.output.pubkeyHash = output.pubkeyHash

/-- An input that spends a Bond created in the block, of a row in the set, spends that row
as a Bond of the same owner. -/
theorem spends_of_created {owners : List Hash} {creator spender : Transaction}
    {outpoint : Outpoint} (hkeeps : KeepsOwners ctx.crypto.primitives lookup [creator])
    (hcreated : outpoint ∈ ctx.utxo.createdBonds creator owners)
    (hspent : outpoint ∈ spender.inputs.map inputOutpoint)
    (hexists : ∀ input ∈ spender.inputs, (lookup (inputOutpoint input)).isSome) :
    UtxoContext.spendsOwnedBond spender owners lookup = true := by
  obtain ⟨row, hrow, houtpoint⟩ := List.mem_map.mp hcreated
  obtain ⟨hzip, hbond⟩ := List.mem_filter.mp hrow
  obtain ⟨input, hinput, hat⟩ := List.mem_map.mp hspent
  obtain ⟨entry, hentry⟩ := Option.isSome_iff_exists.mp (hexists input hinput)
  have houtput : creator.outputs[row.2]? = some row.1 := List.mk_mem_zipIdx_iff_getElem?.mp hzip
  have hsame := hkeeps creator List.mem_cons_self row.2 row.1 entry houtput
    (by rw [← hentry, hat]; exact congrArg lookup houtpoint)
  simp only [UtxoContext.isBond, Bool.and_eq_true, decide_eq_true_eq] at hbond
  unfold UtxoContext.spendsOwnedBond
  rw [Bool.and_eq_true, List.any_eq_true]
  refine ⟨?_, input, hinput, ?_⟩
  · cases owners with
    | nil => simp at hbond
    | cons owner owners => rfl
  · rw [hentry]
    simp [UtxoContext.isBond, hsame, hbond]

theorem noBondSpend_of {owners : List Hash} {txs : List Transaction} {created : List Outpoint}
    (hspends : ∀ tx ∈ txs, UtxoContext.spendsOwnedBond tx owners lookup = false)
    (hcreated : ∀ tx ∈ txs, ∀ outpoint ∈ created, outpoint ∉ tx.inputs.map inputOutpoint)
    (hown : ∀ tx ∈ txs, ∀ creator ∈ txs, ∀ outpoint ∈ ctx.utxo.createdBonds creator owners,
      outpoint ∉ tx.inputs.map inputOutpoint) :
    ctx.utxo.noBondSpend owners lookup txs created = true := by
  induction txs generalizing created with
  | nil => rfl
  | cons tx txs ih =>
      have hfree : (tx.inputs.any fun input => decide (inputOutpoint input ∈ created)) = false := by
        rw [List.any_eq_false]
        intro input hinput hmem
        exact hcreated tx List.mem_cons_self _ (of_decide_eq_true hmem)
          (List.mem_map_of_mem hinput)
      have hnext : ∀ other ∈ txs, ∀ outpoint ∈ created ++ ctx.utxo.createdBonds tx owners,
          outpoint ∉ other.inputs.map inputOutpoint := by
        intro other hother outpoint houtpoint
        rcases List.mem_append.mp houtpoint with hold | hnew
        · exact hcreated other (List.mem_cons_of_mem _ hother) outpoint hold
        · exact hown other (List.mem_cons_of_mem _ hother) tx List.mem_cons_self outpoint hnew
      have hrest := ih (fun other hother => hspends other (List.mem_cons_of_mem _ hother)) hnext
        fun other hother creator hcreator =>
          hown other (List.mem_cons_of_mem _ hother) creator (List.mem_cons_of_mem _ hcreator)
      rw [UtxoContext.noBondSpend, hfree, hspends tx List.mem_cons_self, hrest]
      rfl

theorem validateSlashBondSpends_of {txs : List Transaction}
    (hspends : ∀ tx ∈ txs, UtxoContext.spendsOwnedBond tx
      ((accusedKeys ctx txs).map (bondOwner ctx)) lookup = false)
    (hexists : ∀ tx ∈ txs, ∀ input ∈ tx.inputs, (lookup (inputOutpoint input)).isSome)
    (hkeeps : KeepsOwners ctx.crypto.primitives lookup txs) :
    validateSlashBondSpends ctx txs lookup = .ok () := by
  have hnone : ctx.utxo.noBondSpend ((accusedKeys ctx txs).map (bondOwner ctx)) lookup txs [] =
      true := by
    refine noBondSpend_of hspends (by simp) ?_
    intro tx htx creator hcreator outpoint houtpoint hspent
    have hcreator : KeepsOwners ctx.crypto.primitives lookup [creator] :=
      List.forall_mem_singleton.mpr (hkeeps creator hcreator)
    have hspend := spends_of_created hcreator houtpoint hspent (hexists tx htx)
    rw [hspends tx htx] at hspend
    cases hspend
  unfold validateSlashBondSpends
  dsimp only
  rw [hnone]
  split
  · rfl
  · split <;> rfl

end

end Doli.Validation
