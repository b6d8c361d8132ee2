import Doli.Lib.Backing
import Doli.Validation.PoolRun

/-!
# Shares under accepted transactions

A pool issues the shares that it counts, less the minimum that nobody holds, and share
outputs hold them.  With the gates open an accepted transaction moves one pool, founds
one, or leaves all pools alone, and creates no shares but those that its pool counts.
-/

namespace Doli.Validation

open Doli.Core Doli.Lib Doli.Storage

def lpIssuance : Issuance Hash Output where
  issuer output := output.poolMetadata.map fun pool => (pool.poolId, pool.totalLpShares)
  claim := Output.lpAmount
  floor := minimumLiquidity

/-! ## Stored outputs -/

theorem issuer_stampOutput (output : Output) (slot : Nat) :
    lpIssuance.issuer (stampOutput output slot) = lpIssuance.issuer output := by
  cases hrecord : output.poolMetadata with
  | some record =>
      obtain ⟨stored, hstored, hsame⟩ := poolMetadata_stampOutput hrecord slot
      have hshares : stored.totalLpShares = record.totalLpShares :=
        congrArg Reserves.shares hsame.reserves
      simp [lpIssuance, hrecord, hstored, hsame.poolId, hshares]
  | none =>
      have hkept : (stampOutput output slot).poolMetadata = none := by
        unfold stampOutput
        split
        case h_1 htype => exact Output.poolMetadata_of_ne (by simp [htype])
        case h_2 => simp [hrecord]
        case h_3 => exact hrecord
      simp [lpIssuance, hrecord, hkept]

theorem lpAmount_stampOutput (output : Output) (slot : Nat) (poolId : Hash) :
    (stampOutput output slot).lpAmount poolId = output.lpAmount poolId := by
  unfold stampOutput
  split
  case h_1 htype =>
    rw [@Output.lpAmount_of_ne output (by simp [htype])]
    exact Output.lpAmount_of_ne (by simp [htype]) poolId
  case h_2 htype =>
    rw [@Output.lpAmount_of_ne output (by simp [htype])]
    split
    · exact Output.lpAmount_of_ne (by simp) poolId
    · exact Output.lpAmount_of_ne (by simp [htype]) poolId
  case h_3 => rfl

variable {ctx : SpendingContext} {tx : Transaction} {consumed created : List Output}

theorem change_stampOutput {old new : Option (Hash × Nat)}
    (hchange : lpIssuance.Change consumed created old new) (slot : Nat) :
    lpIssuance.Change consumed (created.map fun output => stampOutput output slot) old new := by
  have htotal : ∀ poolId, total (lpIssuance.claim poolId)
      (created.map fun output => stampOutput output slot) =
        total (lpIssuance.claim poolId) created := by
    intro poolId
    rw [total, List.map_map]
    exact total_congr fun output _ => lpAmount_stampOutput output slot poolId
  constructor
  case spent => exact hchange.spent
  case stored =>
    rw [← hchange.stored, List.filterMap_map]
    exact List.filterMap_congr fun output _ => issuer_stampOutput output slot
  case covered =>
    intro poolId hother
    rw [htotal]
    exact hchange.covered poolId hother
  case moved =>
    intro poolId count hold
    rw [htotal]
    exact hchange.moved poolId count hold
  case founded =>
    intro hold poolId count hnew
    rw [htotal]
    exact hchange.founded hold poolId count hnew

/-! ## The pools among outputs -/

theorem issuer_of_ne {output : Output} (htype : output.outputType ≠ .pool) :
    lpIssuance.issuer output = none := by
  simp [lpIssuance, htype]

theorem issuers_of_poolless {outputs : List Output}
    (hnone : ∀ output ∈ outputs, output.outputType ≠ .pool) :
    outputs.filterMap lpIssuance.issuer = [] :=
  List.filterMap_eq_nil_iff.mpr fun output houtput => issuer_of_ne (hnone output houtput)

theorem PoolFirst.issuers {outputs rest : List Output} {pool : Output} {record : PoolMetadata}
    (hfirst : PoolFirst outputs rest pool) (hrecord : pool.poolMetadata = some record) :
    outputs.filterMap lpIssuance.issuer = [(record.poolId, record.totalLpShares)] := by
  rw [hfirst.list, List.filterMap_cons, issuers_of_poolless hfirst.alone]
  simp [lpIssuance, hrecord]

theorem lpAmount_of_normal {outputs : List Output}
    (hnormal : ∀ output ∈ outputs, output.outputType = .normal) (poolId : Hash) :
    total (Output.lpAmount poolId) outputs = 0 :=
  total_eq_zero fun output houtput =>
    Output.lpAmount_of_ne (by simp [hnormal output houtput]) poolId

/-! ## The change of a transaction -/

theorem change_of_normal (hspent : ∀ output ∈ consumed, output.poolMetadata = none)
    (hnormal : ∀ output ∈ created, output.outputType = .normal) :
    lpIssuance.Change consumed created none none where
  spent := List.filterMap_eq_nil_iff.mpr fun output houtput => by
    simp [lpIssuance, hspent output houtput]
  stored := issuers_of_poolless fun output houtput => by simp [hnormal output houtput]
  covered poolId _ := (lpAmount_of_normal hnormal poolId).trans_le (Nat.zero_le _)
  moved _ _ hold := by contradiction
  founded _ _ _ hnew := by contradiction

theorem PoolChange.change {oldPool newPool : PoolMetadata}
    (hchange : PoolChange tx consumed oldPool newPool)
    (hcovered : ∀ poolId, poolId ≠ oldPool.poolId →
      total (Output.lpAmount poolId) tx.outputs ≤ total (Output.lpAmount poolId) consumed) :
    lpIssuance.Change consumed tx.outputs (some (oldPool.poolId, oldPool.totalLpShares))
      (some (newPool.poolId, newPool.totalLpShares)) := by
  obtain ⟨spent, rest, hspent, hold⟩ := hchange.spent
  obtain ⟨declared, others, hdeclared, hnew⟩ := hchange.declared
  constructor
  case spent => exact hspent.issuers hold
  case stored => exact hdeclared.issuers hnew
  case covered =>
    intro poolId hother
    apply hcovered
    rintro rfl
    rw [hchange.poolId] at hother
    exact hother _ rfl
  case moved =>
    intro poolId count hsame
    cases hsame
    exact ⟨newPool.totalLpShares, by rw [hchange.poolId], hchange.conserved.shares⟩
  case founded =>
    intro hnone
    contradiction

theorem CreatedPool.shares {prim : Primitives} {pool : PoolMetadata}
    (hcreated : CreatedPool prim created pool) :
    total (Output.lpAmount pool.poolId) created + minimumLiquidity = pool.totalLpShares := by
  obtain ⟨first, share, change, hlist, hshare, hminimum, hchange⟩ := hcreated.share
  have hpool : first.outputType = .pool := by
    have hdeclared := hcreated.declared
    rw [hlist] at hdeclared
    exact Output.outputType_of_poolMetadata hdeclared
  have hfirst : first.lpAmount pool.poolId = 0 :=
    Output.lpAmount_of_ne (by simp [hpool]) pool.poolId
  have hrest : total (Output.lpAmount pool.poolId) change = 0 := by
    apply total_eq_zero
    intro output houtput
    apply Output.lpAmount_of_ne
    rcases hchange output houtput with htype | htype
    · simp [htype]
    · simp [htype]
  have hheld : share.lpAmount pool.poolId = share.amount := by
    simp [Output.lpAmount, hshare]
  rw [hlist, total_cons, total_cons, hfirst, hrest, hheld, Nat.zero_add, Nat.add_zero]
  exact hminimum

theorem PoolCreation.change {prim : Primitives} {pool : PoolMetadata}
    (hcreation : PoolCreation prim tx consumed pool)
    (hcovered : ∀ poolId, poolId ≠ pool.poolId →
      total (Output.lpAmount poolId) tx.outputs ≤ total (Output.lpAmount poolId) consumed) :
    lpIssuance.Change consumed tx.outputs none (some (pool.poolId, pool.totalLpShares)) := by
  obtain ⟨declared, others, hdeclared, hrecord⟩ := hcreation.declared
  constructor
  case spent => exact issuers_of_poolless hcreation.poolless
  case stored => exact hdeclared.issuers hrecord
  case covered =>
    intro poolId hother
    apply hcovered
    rintro rfl
    exact hother _ rfl
  case moved =>
    intro poolId count hnone
    contradiction
  case founded =>
    intro _ poolId count hsame
    cases hsame
    exact hcreation.created.shares.le

/-- The transaction creates the pool, under the id that its asset and fee derive. -/
def Founds (prim : Primitives) (tx : Transaction) (poolId : Hash) : Prop :=
  tx.txType = .createPool ∧ ∃ pool, declaredPool tx = some pool ∧ pool.poolId = poolId ∧
    poolId = Output.computePoolId prim ⟨0⟩ pool.assetBId pool.feeBps

/-- How a transaction changes the pools. -/
structure ChangesPools (prim : Primitives) (tx : Transaction) (consumed : List Output)
    (old new : Option (Hash × Nat)) : Prop where
  change : lpIssuance.Change consumed tx.outputs old new
  founds : old = none → ∀ poolId count, new = some (poolId, count) → Founds prim tx poolId

theorem ChangesPools.still {prim : Primitives}
    (hchange : lpIssuance.Change consumed tx.outputs none none) :
    ChangesPools prim tx consumed none none where
  change := hchange
  founds _ _ _ hnone := by contradiction

theorem Spends.changesPools (hopen : ctx.GatesOpen)
    (hstructure : validateTransactionSkipRegistrationVdf ctx.rules.withPools ctx.base tx =
      .ok ())
    (hspends : Spends ctx tx consumed) :
    ∃ old new, ChangesPools ctx.base.crypto.primitives tx consumed old new := by
  have hauthorized := hspends.authorized hopen.incI234
  cases hneeds : needsPool tx.txType with
  | true =>
      obtain ⟨oldPool, newPool, hchange⟩ := hspends.poolChange hopen hneeds hstructure
      have hown : ownPool tx consumed = consumed[0]? := by
        rw [ownPool, if_neg]
        intro htype
        simp [htype, needsPool] at hneeds
      refine ⟨_, _, hchange.change fun poolId hother => ?_, fun hnone => by contradiction⟩
      apply hauthorized.shares_covered
      intro pool _ hpool
      rw [hown, hchange.conserved.old] at hpool
      cases hpool
      exact hother
  | false =>
      by_cases htype : tx.txType = .createPool
      · obtain ⟨created, hcreation⟩ := hspends.poolCreation hopen htype hstructure
        refine ⟨_, _, hcreation.change fun poolId hother => ?_, fun _ poolId count hsame => ?_⟩
        · apply hauthorized.shares_covered
          intro pool _ hpool
          rw [ownPool, if_pos htype, hcreation.created.declared] at hpool
          cases hpool
          exact hother
        · cases hsame
          exact ⟨htype, created, hcreation.created.declared, rfl, hcreation.created.identity⟩
      · have hamm : isAmm tx.txType = false := by
          rw [← Bool.not_eq_true, isAmm_iff]
          simp [htype, hneeds]
        have hpoolless := hspends.poolless hopen hamm hstructure
        refine ⟨none, none, .still ?_⟩
        constructor
        case spent => exact issuers_of_poolless hpoolless.spent
        case stored => exact issuers_of_poolless hpoolless.declared
        case covered =>
          intro poolId _
          apply hauthorized.shares_covered
          simp [hamm]
        case moved =>
          intro poolId count hnone
          contradiction
        case founded =>
          intro _ poolId count hnone
          contradiction

/-! ## Rewards -/

theorem normal_of_reward (hopen : ctx.GatesOpen)
    (hreward : tx.isCoinbase = true ∨ tx.isEpochReward = true)
    (hstructure : validateTransactionSkipRegistrationVdf ctx.rules.withPools ctx.base tx =
      .ok ()) :
    ∀ output ∈ tx.outputs, output.outputType = .normal := by
  rcases hreward with hcoinbase | hepoch
  · exact normal_of_coinbase hopen.incI234 hcoinbase hstructure
  · have htype : tx.txType = .epochReward := of_decide_eq_true hepoch
    have hpayload := payload_of_structure (by simp [htype]) (by simp [htype]) hstructure
    simp only [validatePayload, htype, OpenRules.withPools] at hpayload
    exact normal_of_validateEpochRewardData hpayload

theorem owner_of_epochRewardInputs {utxo : UtxoContext} {lookup : Outpoint → Option UtxoEntry}
    {inputs : List Input} {index sum amount : Nat}
    (hok : utxo.epochRewardInputs lookup inputs index sum = .ok amount) :
    ∀ input ∈ inputs, ∀ entry, lookup (inputOutpoint input) = some entry →
      entry.output.pubkeyHash = rewardPoolPubkeyHash utxo.prim := by
  induction inputs generalizing index sum with
  | nil => simp
  | cons head inputs ih =>
      intro input hinput entry hentry
      simp only [UtxoContext.epochRewardInputs] at hok
      split at hok
      · contradiction
      case h_2 found hfound =>
        split at hok
        · contradiction
        case isFalse howner =>
          split at hok
          · contradiction
          case h_2 next hnext =>
            rcases List.mem_cons.mp hinput with rfl | hinput
            · rw [hfound] at hentry
              cases hentry
              exact not_not.mp howner
            · exact ih hok input hinput entry hentry

theorem owner_of_epochReward {lookup : Outpoint → Option UtxoEntry}
    (hepoch : tx.isEpochReward = true)
    (hok : ctx.validateTransactionWithUtxos tx lookup = .ok ()) :
    ∀ input ∈ tx.inputs, ∀ entry, lookup (inputOutpoint input) = some entry →
      entry.output.pubkeyHash = rewardPoolPubkeyHash ctx.base.crypto.primitives := by
  have htype : tx.txType = .epochReward := of_decide_eq_true hepoch
  unfold SpendingContext.validateTransactionWithUtxos
    UtxoContext.validateTransactionWithUtxos at hok
  split at hok
  · contradiction
  · split at hok
    case isTrue hcoinbase => simp [Transaction.isCoinbase, htype] at hcoinbase
    case isFalse =>
      split at hok
      case isTrue hempty => simp [List.isEmpty_iff.mp hempty]
      case isFalse =>
        split at hok
        · contradiction
        case h_2 amount hamount => exact owner_of_epochRewardInputs hamount

/-- Every accepted transaction changes the pools in one of the known ways, as long as
no pool at its inputs belongs to the reward pool. -/
theorem changesPools_of_accepted {lookup : Outpoint → Option UtxoEntry}
    (hopen : ctx.GatesOpen) (hok : ctx.validateTransactionWithUtxos tx lookup = .ok ())
    (hapart : ∀ input ∈ tx.inputs, ∀ entry, lookup (inputOutpoint input) = some entry →
      entry.output.poolMetadata.isSome →
        entry.output.pubkeyHash ≠ rewardPoolPubkeyHash ctx.base.crypto.primitives) :
    ∃ old new, ChangesPools ctx.base.crypto.primitives tx (consumedOutputs tx lookup) old new := by
  have hstructure := structure_of_accepted hok
  rcases accepted_cases hok with hcoinbase | hepoch | hspends
  · refine ⟨none, none, .still (change_of_normal ?_
      (normal_of_reward hopen (.inl hcoinbase) hstructure))⟩
    have hinputs := (Transaction.isCoinbase_iff.mp hcoinbase).2.1
    simp [consumedOutputs, hinputs]
  · refine ⟨none, none, .still (change_of_normal ?_
      (normal_of_reward hopen (.inr hepoch) hstructure))⟩
    intro output houtput
    obtain ⟨input, hinput, hfound⟩ := List.mem_filterMap.mp houtput
    obtain ⟨entry, hentry, rfl⟩ := Option.map_eq_some_iff.mp hfound
    by_contra hpool
    exact hapart input hinput entry hentry (Option.isSome_iff_ne_none.mpr hpool)
      (owner_of_epochReward hepoch hok input hinput entry hentry)
  · exact hspends.changesPools hopen hstructure

end Doli.Validation
