import Doli.Node.StakeWeight

/-!
# What the gate admits, the block enqueues

The gate judges a withdrawal against the ledger before the block and its own
tallies; the block charges a ledger that it changes as it goes.  `Follows`
relates the two after the same transactions.
-/

namespace Doli.Node

open Doli.Core Doli.Lib Doli.Storage Doli.Producer Doli.Producer.ProducerSet

/-- The producer whose bonds a transaction adds, requests or leaves. -/
def namedProducer (prim : Primitives) (tx : Transaction) : Option PublicKey :=
  match tx.txType with
  | .requestWithdrawal => tx.withdrawalRequestData.map (·.producerPubkey)
  | .exit => (tx.exitData prim).map (·.publicKey)
  | .addBond => tx.addBondData.map (·.producerPubkey)
  | _ => none

def namedProducers (prim : Primitives) (txs : List Transaction) : Set PublicKey :=
  { key | ∃ tx ∈ txs, namedProducer prim tx = some key }

/-- The bonds an AddBond of `key` asks for. -/
def addedBonds (key : PublicKey) (tx : Transaction) : Nat :=
  tx.addBondData.elim 0 fun data =>
    if data.producerPubkey = key then requestedBonds tx else 0

def blockAddBonds (key : PublicKey) (txs : List Transaction) : Nat :=
  (txs.map (addedBonds key)).sum

theorem blockAddBonds_append (key : PublicKey) (first second : List Transaction) :
    blockAddBonds key (first ++ second) =
      blockAddBonds key first + blockAddBonds key second := by
  simp [blockAddBonds]

def isWithdrawal : PendingProducerUpdate → Bool
  | .requestWithdrawal _ _ _ => true
  | _ => false

/-- The withdrawal a transaction is to leave in the queue: the declared bonds of
a RequestWithdrawal, all the bonds of a producer that exits. -/
def askedWithdrawal (ctx : BlockContext) (set : ProducerSet) (tx : Transaction) :
    Option PendingProducerUpdate :=
  match tx.txType with
  | .requestWithdrawal =>
      tx.withdrawalRequestData.map fun data =>
        .requestWithdrawal data.producerPubkey data.bondCount ctx.utxo.params.bondUnit
  | .exit =>
      (tx.exitData ctx.utxo.prim).bind fun data =>
        (set.getByPubkey ctx.utxo.prim data.publicKey).bind fun info =>
          if 0 < info.bondCount then
            some (.requestWithdrawal data.publicKey info.bondCount
              ctx.utxo.params.bondUnit)
          else none
  | _ => none

/-- Bonds queued for `key`, before the count is cut to a `u32`. -/
def queuedBonds (set : ProducerSet) (key : PublicKey) : Nat :=
  (set.pendingUpdates.map (queuedOutpoints key)).sum

section Queue

variable (set : ProducerSet) (key : PublicKey)

theorem pendingAddbondCount_eq :
    set.pendingAddbondCount key = queuedBonds set key % 2 ^ 32 := rfl

@[simp] theorem queuedBonds_queueUpdate (update : PendingProducerUpdate) :
    queuedBonds (set.queueUpdate update) key =
      queuedBonds set key + queuedOutpoints key update := by
  simp [queuedBonds]

@[simp] theorem queuedBonds_chargeWithdrawal (hash : Hash) (bonds : Nat) :
    queuedBonds (chargeWithdrawal set hash bonds) key = queuedBonds set key := by
  simp [queuedBonds, chargeWithdrawal]

end Queue

theorem bondOutpoints_length (prim : Primitives) (tx : Transaction) :
    (bondOutpoints prim tx).length % 2 ^ 32 = requestedBonds tx := by
  have hsame : (bondOutputs tx).map Prod.fst =
      tx.outputs.filter fun output => output.outputType = .bond := by
    rw [bondOutputs, ← List.zipIdx_map_fst 0 tx.outputs, List.filter_map,
      List.zipIdx_map_fst]
    rfl
  rw [requestedBonds, ← hsame]
  simp [bondOutpoints]

/-! ## What a transaction does to the queue -/

section Effects

variable (ctx : BlockContext) (tx : Transaction) (state : BlockProducers)

/-- Queued by any other transaction: neither a bond nor a withdrawal. -/
def Unrelated (update : PendingProducerUpdate) : Prop :=
  isWithdrawal update = false ∧ ∀ key, queuedOutpoints key update = 0

/-- A transaction that names no producer in this sense queues one unrelated
update or nothing. -/
theorem unnamed_effect (hnone : namedProducer ctx.utxo.prim tx = none) :
    (processTransactionProducerEffects ctx tx state).producers = state.producers ∨
      ∃ update, Unrelated update ∧
        (processTransactionProducerEffects ctx tx state).producers =
          state.producers.queueUpdate update := by
  unfold namedProducer at hnone
  unfold processTransactionProducerEffects
  cases htype : tx.txType with
  | registration =>
      dsimp only
      unfold registrationEffect
      split_ifs
      · exact .inl rfl
      split
      · exact .inl rfl
      split
      · exact .inl rfl
      case h_2 info hinfo =>
        exact .inr ⟨.register info ctx.height, ⟨rfl, fun _ => rfl⟩, rfl⟩
  | exit =>
      simp only [htype, Option.map_eq_none_iff] at hnone
      exact .inl (by simp [exitEffect, hnone])
  | slashProducer =>
      dsimp only
      unfold slashEffect
      split
      · exact .inl rfl
      case h_2 data hdata =>
        exact .inr ⟨.slash data.producerPubkey ctx.height, ⟨rfl, fun _ => rfl⟩, rfl⟩
  | addBond =>
      simp only [htype, Option.map_eq_none_iff] at hnone
      exact .inl (by simp [addBondEffect, hnone])
  | requestWithdrawal =>
      simp only [htype, Option.map_eq_none_iff] at hnone
      exact .inl (by simp [withdrawalEffect, hnone])
  | delegateBond =>
      dsimp only
      unfold delegateEffect
      split
      · exact .inl rfl
      case h_2 data hdata =>
        dsimp only
        split
        · exact .inr ⟨.delegateBond data.delegator data.delegate data.bondCount,
            ⟨rfl, fun _ => rfl⟩, rfl⟩
        · exact .inl rfl
  | revokeDelegation =>
      dsimp only
      unfold revokeEffect
      split
      · exact .inl rfl
      case h_2 data hdata =>
        split
        · exact .inr ⟨.revokeDelegation data.delegator, ⟨rfl, fun _ => rfl⟩, rfl⟩
        · exact .inl rfl
  | rotateBlsKey =>
      dsimp only
      unfold rotateEffect
      split_ifs
      · split
        · exact .inl rfl
        case h_2 data hdata =>
          simp only [ProducerSet.applyRotation]
          cases rotateVerdict data
              (state.producers.resolveRotationInputs ctx.utxo.prim data) with
          | ok _ => exact .inr ⟨.rotateBlsKey _ _ _, ⟨rfl, fun _ => rfl⟩, rfl⟩
          | error _ => exact .inl rfl
      · exact .inl rfl
  | _ => exact .inl rfl

end Effects

/-! ## The two sides after the same transactions -/

/-- The set a block has reached beside the tallies of the gate. -/
structure Follows (ctx : BlockContext) (set : ProducerSet) (keys : Set PublicKey)
    (done : List Transaction) (econ : EconState) (reached : ProducerSet) : Prop where
  bonds : ∀ hash, (reached.producers.lookup hash).map (·.bondCount) =
    (set.producers.lookup hash).map (·.bondCount)
  charged : ∀ hash info before, reached.producers.lookup hash = some info →
    set.producers.lookup hash = some before →
      info.withdrawalPendingCount ≤
        before.withdrawalPendingCount + econ.withdrawn hash
  saturated : ∀ hash, econ.withdrawn hash < 2 ^ 32
  queued : ∀ key, (set.getByPubkey ctx.utxo.prim key).isSome →
    queuedBonds reached key = queuedBonds set key + blockAddBonds key done
  tallied : ∀ key ∈ keys,
    econ.addBonds (ctx.utxo.prim.cryptoHash key) ≤ blockAddBonds key done

namespace Follows

variable {ctx : BlockContext} {set reached : ProducerSet} {keys : Set PublicKey}
  {done : List Transaction} {econ : EconState} {tx : Transaction}

theorem initial : Follows ctx set keys [] .initial set where
  bonds _ := rfl
  charged hash info before hinfo hbefore := by
    obtain rfl := Option.some.inj (hinfo.symm.trans hbefore)
    exact Nat.le_add_right _ _
  saturated _ := Nat.two_pow_pos 32
  queued _ _ := rfl
  tallied _ _ := Nat.zero_le _

theorem getByPubkey (hfollows : Follows ctx set keys done econ reached)
    {key : PublicKey} {before : ProducerInfo}
    (hbefore : set.getByPubkey ctx.utxo.prim key = some before) :
    ∃ info, reached.getByPubkey ctx.utxo.prim key = some info ∧
      info.bondCount = before.bondCount := by
  have hbonds := hfollows.bonds (ctx.utxo.prim.cryptoHash key)
  rw [show set.producers.lookup _ = some before from hbefore] at hbonds
  simpa [ProducerSet.getByPubkey] using hbonds

theorem getByPubkey_none (hfollows : Follows ctx set keys done econ reached)
    {key : PublicKey} (hnone : set.getByPubkey ctx.utxo.prim key = none) :
    reached.getByPubkey ctx.utxo.prim key = none := by
  have hbonds := hfollows.bonds (ctx.utxo.prim.cryptoHash key)
  rw [show set.producers.lookup _ = none from hnone] at hbonds
  simpa [ProducerSet.getByPubkey] using hbonds

theorem remember (hfollows : Follows ctx set keys done econ reached) (hash : Hash) :
    Follows ctx set keys done (econ.remember hash) reached :=
  ⟨hfollows.bonds, hfollows.charged, hfollows.saturated, hfollows.queued,
    hfollows.tallied⟩

theorem snoc (hfollows : Follows ctx set keys done econ reached)
    (hnone : tx.addBondData = none) :
    Follows ctx set keys (done ++ [tx]) econ reached := by
  have hsame : ∀ key, blockAddBonds key (done ++ [tx]) = blockAddBonds key done := by
    intro key
    simp [blockAddBonds, addedBonds, hnone]
  refine ⟨hfollows.bonds, hfollows.charged, hfollows.saturated, fun key hkey => ?_,
    fun key hkey => ?_⟩
  · rw [hsame]
    exact hfollows.queued key hkey
  · rw [hsame]
    exact hfollows.tallied key hkey

theorem queue (hfollows : Follows ctx set keys done econ reached)
    {update : PendingProducerUpdate} (hnone : ∀ key, queuedOutpoints key update = 0) :
    Follows ctx set keys done econ (reached.queueUpdate update) where
  bonds := hfollows.bonds
  charged := hfollows.charged
  saturated := hfollows.saturated
  queued key hkey := by
    rw [queuedBonds_queueUpdate, hnone, hfollows.queued key hkey, Nat.add_zero]
  tallied := hfollows.tallied

theorem withdraw (hfollows : Follows ctx set keys done econ reached) (hash : Hash)
    (bonds : Nat) : Follows ctx set keys done (econ.withdraw hash bonds) reached where
  bonds := hfollows.bonds
  charged key info before hinfo hbefore := by
    have hcharged := hfollows.charged key info before hinfo hbefore
    have hsmall := hfollows.saturated key
    by_cases hkey : key = hash
    · subst hkey
      simp only [EconState.withdraw, Function.update_self, satAdd]
      omega
    · simpa only [EconState.withdraw, Function.update_of_ne hkey] using hcharged
  saturated key := by
    by_cases hkey : key = hash
    · subst hkey
      simp only [EconState.withdraw, Function.update_self, satAdd]
      omega
    · simpa only [EconState.withdraw, Function.update_of_ne hkey] using
        hfollows.saturated key
  queued := hfollows.queued
  tallied := hfollows.tallied

/-- What the gate charges bounds what the ledger is charged, the wrap of the `u32`
included. -/
theorem charge (hfollows : Follows ctx set keys done econ reached) (hash : Hash)
    (bonds : Nat) :
    Follows ctx set keys done (econ.withdraw hash bonds)
      (chargeWithdrawal reached hash bonds) where
  bonds key := by
    rw [← hfollows.bonds key, chargeWithdrawal, lookup_modify]
    cases reached.producers.lookup key with
    | none => rfl
    | some info =>
        simp only [Option.map_some, Option.some.injEq]
        split <;> rfl
  charged key info before hinfo hbefore := by
    rw [chargeWithdrawal, lookup_modify] at hinfo
    obtain ⟨current, hcurrent, rfl⟩ := Option.map_eq_some_iff.mp hinfo
    have hcharged := hfollows.charged key current before hcurrent hbefore
    by_cases hkey : key = hash
    · subst hkey
      simp only [if_pos, EconState.withdraw, Function.update_self, satAdd]
      omega
    · simpa only [if_neg hkey, EconState.withdraw, Function.update_of_ne hkey] using
        hcharged
  saturated := (hfollows.withdraw hash bonds).saturated
  queued key hkey := by
    rw [queuedBonds_chargeWithdrawal]
    exact hfollows.queued key hkey
  tallied := hfollows.tallied

/-- An AddBond reaches the tally of its producer and, for a producer of the set,
the queue. -/
theorem addBond (hfollows : Follows ctx set keys done econ reached)
    (hinj : Set.InjOn ctx.utxo.prim.cryptoHash keys) {data : AddBondData}
    (hdata : tx.addBondData = some data) (hkey : data.producerPubkey ∈ keys)
    {after : ProducerSet} (hafter : after = reached.queueUpdate
        (.addBond data.producerPubkey (bondOutpoints ctx.utxo.prim tx)
          ctx.utxo.params.bondUnit ctx.slot) ∨
      after = reached ∧ set.getByPubkey ctx.utxo.prim data.producerPubkey = none) :
    Follows ctx set keys (done ++ [tx])
      (econ.addBond (ctx.utxo.prim.cryptoHash data.producerPubkey)
        (requestedBonds tx)) after := by
  have hsnoc : ∀ key, blockAddBonds key (done ++ [tx]) = blockAddBonds key done +
      if data.producerPubkey = key then requestedBonds tx else 0 := by
    intro key
    simp [blockAddBonds, addedBonds, hdata]
  refine ⟨?_, ?_, hfollows.saturated, fun key hknown => ?_, fun key hnamed => ?_⟩
  · rcases hafter with rfl | ⟨rfl, -⟩ <;> exact hfollows.bonds
  · rcases hafter with rfl | ⟨rfl, -⟩ <;> exact hfollows.charged
  · rw [hsnoc, ← Nat.add_assoc, ← hfollows.queued key hknown]
    rcases hafter with rfl | ⟨rfl, hnone⟩
    · rw [queuedBonds_queueUpdate]
      simp only [queuedOutpoints, bondOutpoints_length]
    · rw [if_neg, Nat.add_zero]
      rintro rfl
      simp [hnone] at hknown
  · have htally := hfollows.tallied key hnamed
    rw [hsnoc]
    by_cases hsame : data.producerPubkey = key
    · subst hsame
      simp only [EconState.addBond, Function.update_self, satAdd, if_pos]
      omega
    · have hhash : ctx.utxo.prim.cryptoHash key ≠
          ctx.utxo.prim.cryptoHash data.producerPubkey :=
        fun heq => hsame (hinj hkey hnamed heq.symm)
      simpa only [EconState.addBond, Function.update_of_ne hhash, if_neg hsame,
        Nat.add_zero] using htally

end Follows

/-! ## One admitted transaction -/

section Admitted

variable {ctx : BlockContext} {db : StateDb} {set : ProducerSet}
  {econ next : EconState} {tx : Transaction}

theorem addBondData_of_unnamed {prim : Primitives}
    (hnone : namedProducer prim tx = none) : tx.addBondData = none := by
  unfold namedProducer at hnone
  unfold Transaction.addBondData at hnone ⊢
  cases htype : tx.txType with
  | addBond => simpa [htype] using hnone
  | _ => rfl

theorem econStep_unnamed (hnone : namedProducer ctx.utxo.prim tx = none) :
    econStep ctx db set econ tx = .ok (econ.remember (ctx.utxo.prim.txHash tx)) := by
  unfold namedProducer at hnone
  unfold econStep
  cases htype : tx.txType with
  | addBond =>
      simp only [htype, Option.map_eq_none_iff] at hnone
      simp [addBondStep, hnone]
  | exit =>
      simp only [htype, Option.map_eq_none_iff] at hnone
      simp [exitStep, hnone]
  | requestWithdrawal =>
      simp only [htype, Option.map_eq_none_iff] at hnone
      simp [withdrawalStep, hnone]
  | _ => rfl

/-- An admitted withdrawal names a producer of the set, keeps within its allowance
and is charged. -/
theorem withdrawalStep_ok (hmode : ctx.mode ≠ .replay)
    (hgate : ctx.utxo.params.withdrawalHoldingsGateActivationHeight ≤ ctx.height)
    {data : WithdrawalRequestData} (hdata : tx.withdrawalRequestData = some data)
    (hstep : withdrawalStep ctx db set tx econ = .ok next) :
    ∃ before, set.getByPubkey ctx.utxo.prim data.producerPubkey = some before ∧
      data.bondCount ≤ gateAllowance ctx set data.producerPubkey before econ ∧
      next = econ.withdraw (ctx.utxo.prim.cryptoHash data.producerPubkey)
        data.bondCount := by
  simp only [withdrawalStep, hdata] at hstep
  split at hstep
  · contradiction
  case h_2 charged hholdings =>
    have hnext : next = charged := by
      simp only [vestingStep, if_neg hmode] at hstep
      split at hstep
      · exact (Except.ok.inj hstep).symm
      · contradiction
    subst hnext
    simp only [holdingsStep, if_neg (Nat.not_lt.mpr hgate), if_neg hmode] at hholdings
    split at hholdings
    · contradiction
    case h_2 before hbefore =>
      refine ⟨before, hbefore, ?_⟩
      split_ifs at hholdings with hover hchained
      split at hholdings
      · contradiction
      · exact ⟨Nat.le_of_not_lt hover, (Except.ok.inj hholdings).symm⟩

variable {keys : Set PublicKey} {done : List Transaction} {state : BlockProducers}

theorem Follows.withdrawalEffect
    (hfollows : Follows ctx set keys done econ state.producers)
    {data : WithdrawalRequestData} (hdata : tx.withdrawalRequestData = some data) :
    Follows ctx set keys done
      (econ.withdraw (ctx.utxo.prim.cryptoHash data.producerPubkey) data.bondCount)
      (withdrawalEffect ctx tx state).producers := by
  unfold Node.withdrawalEffect
  rw [hdata]
  dsimp only
  split
  · exact hfollows.withdraw _ _
  case h_2 info hinfo =>
    have hrevoked : ∀ p q : Prop, [Decidable p] → [Decidable q] →
        Follows ctx set keys done econ
          (if p then
            if q then state.queue (.revokeDelegation data.producerPubkey) else state
          else state).producers := by
      intro p q _ _
      split_ifs
      · exact hfollows.queue fun _ => rfl
      · exact hfollows
      · exact hfollows
    split
    · exact ((hrevoked _ _).charge _ _).queue fun _ => rfl
    · exact (hrevoked _ _).withdraw _ _

theorem Follows.exitEffect
    (hfollows : Follows ctx set keys done econ state.producers) :
    Follows ctx set keys done (exitStep ctx set tx econ)
      (exitEffect ctx tx state).producers := by
  unfold Node.exitEffect exitStep
  cases hdata : tx.exitData ctx.utxo.prim with
  | none => exact hfollows
  | some data =>
    dsimp only
    cases hbefore : set.getByPubkey ctx.utxo.prim data.publicKey with
    | none =>
        rw [hfollows.getByPubkey_none hbefore]
        exact hfollows.withdraw _ _
    | some before =>
        obtain ⟨info, hinfo, hbonds⟩ := hfollows.getByPubkey hbefore
        rw [hinfo, Option.elim_some, ← hbonds]
        dsimp only
        split
        · exact (hfollows.charge _ _).queue fun _ => rfl
        · exact (hfollows.withdraw _ _).queue fun _ => rfl

theorem Follows.addBondEffect
    (hfollows : Follows ctx set keys done econ state.producers)
    (hinj : Set.InjOn ctx.utxo.prim.cryptoHash keys) {data : AddBondData}
    (hdata : tx.addBondData = some data) (hkey : data.producerPubkey ∈ keys) :
    Follows ctx set keys (done ++ [tx]) (addBondStep ctx tx econ)
      (addBondEffect ctx tx state).producers := by
  simp only [Node.addBondEffect, addBondStep, hdata]
  refine hfollows.addBond hinj hdata hkey ?_
  split
  case isTrue hunknown =>
    refine .inr ⟨rfl, ?_⟩
    by_contra hsome
    obtain ⟨before, hbefore⟩ := Option.ne_none_iff_exists'.mp hsome
    obtain ⟨info, hinfo, -⟩ := hfollows.getByPubkey hbefore
    simp [hinfo] at hunknown
  · exact .inl rfl

/-- The step lemma: the ledger of the block follows the tallies of the gate through
every transaction the gate lets pass. -/
theorem Follows.step (hmode : ctx.mode ≠ .replay)
    (hgate : ctx.utxo.params.withdrawalHoldingsGateActivationHeight ≤ ctx.height)
    (hinj : Set.InjOn ctx.utxo.prim.cryptoHash keys)
    (hnamed : ∀ key, namedProducer ctx.utxo.prim tx = some key → key ∈ keys)
    (hfollows : Follows ctx set keys done econ state.producers)
    (hstep : econStep ctx db set econ tx = .ok next) :
    Follows ctx set keys (done ++ [tx]) next
      (processTransactionProducerEffects ctx tx state).producers := by
  cases hname : namedProducer ctx.utxo.prim tx with
  | none =>
      rw [econStep_unnamed hname] at hstep
      obtain rfl := Except.ok.inj hstep
      refine (Follows.snoc ?_ (addBondData_of_unnamed hname)).remember _
      rcases unnamed_effect ctx tx state hname with hsame | ⟨update, hupdate, hqueue⟩
      · rw [hsame]
        exact hfollows
      · rw [hqueue]
        exact hfollows.queue hupdate.2
  | some key =>
      have hkey := hnamed key hname
      unfold econStep at hstep
      unfold processTransactionProducerEffects
      unfold namedProducer at hname
      cases htype : tx.txType with
      | exit =>
          simp only [htype] at hstep ⊢
          obtain rfl := Except.ok.inj hstep
          refine (hfollows.exitEffect.snoc ?_).remember _
          simp [Transaction.addBondData, htype]
      | addBond =>
          simp only [htype] at hstep hname ⊢
          obtain rfl := Except.ok.inj hstep
          obtain ⟨data, hdata, rfl⟩ := Option.map_eq_some_iff.mp hname
          exact (hfollows.addBondEffect hinj hdata hkey).remember _
      | requestWithdrawal =>
          simp only [htype] at hstep hname ⊢
          obtain ⟨data, hdata, -⟩ := Option.map_eq_some_iff.mp hname
          split at hstep
          · contradiction
          case h_2 charged hcharged =>
            obtain rfl := Except.ok.inj hstep
            obtain ⟨-, -, -, rfl⟩ := withdrawalStep_ok hmode hgate hdata hcharged
            refine ((hfollows.withdrawalEffect hdata).snoc ?_).remember _
            simp [Transaction.addBondData, htype]
      | _ => simp [htype] at hname

/-- The allowance of the gate is no more than what the ledger of the block still
holds, as long as the queued bonds fit in a `u32`. -/
theorem Follows.allowance_le
    (hgate : ctx.utxo.params.withdrawalHoldingsGateActivationHeight ≤ ctx.height)
    {reached : ProducerSet} (hfollows : Follows ctx set keys done econ reached)
    {key : PublicKey} (hkey : key ∈ keys) {before info : ProducerInfo}
    (hbefore : set.getByPubkey ctx.utxo.prim key = some before)
    (hinfo : reached.getByPubkey ctx.utxo.prim key = some info)
    (hfits : set.pendingAddbondCount key + blockAddBonds key done < 2 ^ 32) :
    gateAllowance ctx set key before econ ≤
      remainingBonds ctx.utxo ctx.height reached key info := by
  obtain ⟨found, hfound, hbonds⟩ := hfollows.getByPubkey hbefore
  obtain rfl : found = info := Option.some.inj (hfound.symm.trans hinfo)
  have hcharged := hfollows.charged _ found before hfound hbefore
  have htally := hfollows.tallied key hkey
  have hqueued : reached.pendingAddbondCount key =
      set.pendingAddbondCount key + blockAddBonds key done := by
    rw [pendingAddbondCount_eq, hfollows.queued key (by simp [hbefore]),
      ← Nat.mod_add_mod, ← pendingAddbondCount_eq, Nat.mod_eq_of_lt hfits]
  simp only [gateAllowance, remainingBonds, inFlightBonds, if_pos hgate, hqueued,
    hbonds, satAdd]
  omega

/-- The withdrawals in the queue after one transaction, when a RequestWithdrawal
passes the test on what remains. -/
theorem Follows.enqueue (hfollows : Follows ctx set keys done econ state.producers)
    (htest : ∀ data, tx.withdrawalRequestData = some data →
      ∃ info, state.producers.getByPubkey ctx.utxo.prim data.producerPubkey = some info ∧
        data.bondCount ≤ remainingBonds ctx.utxo ctx.height state.producers
          data.producerPubkey info) :
    (processTransactionProducerEffects ctx tx state).producers.pendingUpdates.filter
        isWithdrawal =
      state.producers.pendingUpdates.filter isWithdrawal ++
        (askedWithdrawal ctx set tx).toList := by
  cases hname : namedProducer ctx.utxo.prim tx with
  | none =>
      have hasked : askedWithdrawal ctx set tx = none := by
        unfold namedProducer at hname
        unfold askedWithdrawal
        cases htype : tx.txType with
        | exit =>
            simp only [htype, Option.map_eq_none_iff] at hname
            simp [hname]
        | requestWithdrawal =>
            simp only [htype, Option.map_eq_none_iff] at hname
            simp [hname]
        | _ => rfl
      rw [hasked, Option.toList_none, List.append_nil]
      rcases unnamed_effect ctx tx state hname with hsame | ⟨update, hupdate, hqueue⟩
      · rw [hsame]
      · rw [hqueue]
        simp [hupdate.1]
  | some key =>
      unfold processTransactionProducerEffects askedWithdrawal
      unfold namedProducer at hname
      cases htype : tx.txType with
      | exit =>
          simp only [htype] at hname ⊢
          obtain ⟨data, hdata, -⟩ := Option.map_eq_some_iff.mp hname
          simp only [Node.exitEffect, hdata, Option.bind_some]
          cases hbefore : set.getByPubkey ctx.utxo.prim data.publicKey with
          | none => simp [hfollows.getByPubkey_none hbefore]
          | some before =>
              obtain ⟨info, hinfo, hbonds⟩ := hfollows.getByPubkey hbefore
              rw [hinfo, Option.bind_some, ← hbonds]
              dsimp only
              split
              · simp [BlockProducers.queue, BlockProducers.charge, chargeWithdrawal,
                  isWithdrawal]
              · simp [BlockProducers.queue, isWithdrawal]
      | addBond =>
          simp only [htype] at hname ⊢
          obtain ⟨data, hdata, -⟩ := Option.map_eq_some_iff.mp hname
          simp only [Node.addBondEffect, hdata]
          split
          · simp
          · simp [BlockProducers.queue, isWithdrawal]
      | requestWithdrawal =>
          simp only [htype] at hname ⊢
          obtain ⟨data, hdata, -⟩ := Option.map_eq_some_iff.mp hname
          obtain ⟨info, hinfo, hremaining⟩ := htest data hdata
          simp only [Node.withdrawalEffect, hdata, hinfo, if_pos hremaining]
          split_ifs
          all_goals
            simp [BlockProducers.queue, BlockProducers.charge, chargeWithdrawal,
              isWithdrawal]
      | _ => simp [htype] at hname

end Admitted

/-! ## The block -/

section Block

variable {ctx : BlockContext} {db : StateDb} {set : ProducerSet}
  {txs : List Transaction}

/-- For every producer the block withdraws from, the bonds in the queue and those
of the block are counted without wrapping. -/
def QueueFits (set : ProducerSet) (txs : List Transaction) : Prop :=
  ∀ tx ∈ txs, ∀ data ∈ tx.withdrawalRequestData,
    set.pendingAddbondCount data.producerPubkey +
      blockAddBonds data.producerPubkey txs < 2 ^ 32

theorem follows_run (hmode : ctx.mode ≠ .replay)
    (hgate : ctx.utxo.params.withdrawalHoldingsGateActivationHeight ≤ ctx.height)
    (hinj : Set.InjOn ctx.utxo.prim.cryptoHash (namedProducers ctx.utxo.prim txs))
    {done : List Transaction} (hdone : done ⊆ txs) {econ : EconState}
    (hrun : run (econStep ctx db set) done .initial = .ok econ) :
    Follows ctx set (namedProducers ctx.utxo.prim txs) done econ
      (processProducerEffects ctx done (.initial set)).producers := by
  refine run_invariant (fun done econ => Follows ctx set _ done econ
    (processProducerEffects ctx done (.initial set)).producers) .initial ?_ hrun
  intro earlier tx rest current next hsplit hfollows hnext
  rw [processProducerEffects, List.foldl_append]
  refine hfollows.step hmode hgate hinj (fun key hname => ⟨tx, hdone ?_, hname⟩) hnext
  simp [hsplit]

theorem economics_run_of_entered (hentered : economicsPassEntered ctx = true)
    (hadmitted : checkWithdrawalEconomics ctx db set txs = .ok ()) :
    ∃ econ, run (econStep ctx db set) txs .initial = .ok econ := by
  simp only [checkWithdrawalEconomics] at hadmitted
  split at hadmitted
  · contradiction
  split at hadmitted
  · contradiction
  simp only [economicsPass, hentered, if_true] at hadmitted
  split at hadmitted
  · contradiction
  case h_2 econ hrun => exact ⟨econ, hrun⟩

theorem economics_run
    (hgate : ctx.utxo.params.withdrawalHoldingsGateActivationHeight ≤ ctx.height)
    (hadmitted : checkWithdrawalEconomics ctx db set txs = .ok ()) :
    ∃ econ, run (econStep ctx db set) txs .initial = .ok econ := by
  have hentered : economicsPassEntered ctx = true := by
    simp only [economicsPassEntered, decide_eq_true_eq]
    exact .inl hgate
  exact economics_run_of_entered hentered hadmitted

/-- Each withdrawal of an admitted block is tested against a ledger that still holds
its bonds. -/
theorem admitted_test (hmode : ctx.mode ≠ .replay)
    (hgate : ctx.utxo.params.withdrawalHoldingsGateActivationHeight ≤ ctx.height)
    (hinj : Set.InjOn ctx.utxo.prim.cryptoHash (namedProducers ctx.utxo.prim txs))
    (hfits : QueueFits set txs)
    (hadmitted : checkWithdrawalEconomics ctx db set txs = .ok ())
    {done rest : List Transaction} {tx : Transaction} (hsplit : txs = done ++ tx :: rest)
    {data : WithdrawalRequestData} (hdata : tx.withdrawalRequestData = some data) :
    ∃ info, (processProducerEffects ctx done (.initial set)).producers.getByPubkey
        ctx.utxo.prim data.producerPubkey = some info ∧
      data.bondCount ≤ remainingBonds ctx.utxo ctx.height
        (processProducerEffects ctx done (.initial set)).producers
        data.producerPubkey info := by
  obtain ⟨final, hrun⟩ := economics_run hgate hadmitted
  rw [hsplit] at hrun
  obtain ⟨econ, hdone, hrest⟩ := run_append_ok.mp hrun
  obtain ⟨next, hstep, -⟩ := run_cons_ok.mp hrest
  have hfollows := follows_run hmode hgate hinj (by simp [hsplit]) hdone
  have htype : tx.txType = .requestWithdrawal := by
    by_contra hother
    simp [Transaction.withdrawalRequestData, hother] at hdata
  have hkey : data.producerPubkey ∈ namedProducers ctx.utxo.prim txs :=
    ⟨tx, by simp [hsplit], by simp [namedProducer, htype, hdata]⟩
  simp only [econStep, htype] at hstep
  split at hstep
  · contradiction
  case h_2 charged hcharged =>
    obtain ⟨before, hbefore, hallowed, -⟩ :=
      withdrawalStep_ok hmode hgate hdata hcharged
    obtain ⟨info, hinfo, -⟩ := hfollows.getByPubkey hbefore
    refine ⟨info, hinfo, hallowed.trans (hfollows.allowance_le hgate hkey hbefore hinfo ?_)⟩
    have htotal := hfits tx (by simp [hsplit]) data hdata
    rw [hsplit, blockAddBonds_append] at htotal
    omega

/-- An admitted block leaves in the queue a withdrawal for every RequestWithdrawal,
with the bonds it declares, and for every Exit of a producer with bonds, in the order
of the transactions. -/
theorem admission_enqueues (hmode : ctx.mode ≠ .replay)
    (hgate : ctx.utxo.params.withdrawalHoldingsGateActivationHeight ≤ ctx.height)
    (hinj : Set.InjOn ctx.utxo.prim.cryptoHash (namedProducers ctx.utxo.prim txs))
    (hfits : QueueFits set txs)
    (hadmitted : checkWithdrawalEconomics ctx db set txs = .ok ()) :
    (∀ done tx rest data, txs = done ++ tx :: rest →
      tx.withdrawalRequestData = some data →
        ∃ info, (processProducerEffects ctx done (.initial set)).producers.getByPubkey
            ctx.utxo.prim data.producerPubkey = some info ∧
          data.bondCount ≤ remainingBonds ctx.utxo ctx.height
            (processProducerEffects ctx done (.initial set)).producers
            data.producerPubkey info) ∧
    (processProducerEffects ctx txs (.initial set)).producers.pendingUpdates.filter
        isWithdrawal =
      set.pendingUpdates.filter isWithdrawal ++
        txs.filterMap (askedWithdrawal ctx set) := by
  refine ⟨fun done tx rest data hsplit hdata =>
    admitted_test hmode hgate hinj hfits hadmitted hsplit hdata, ?_⟩
  obtain ⟨final, hrun⟩ := economics_run hgate hadmitted
  refine (foldl_invariant (fun done (state : BlockProducers) =>
    state = processProducerEffects ctx done (.initial set) ∧
      state.producers.pendingUpdates.filter isWithdrawal =
        set.pendingUpdates.filter isWithdrawal ++
          done.filterMap (askedWithdrawal ctx set)) 
    ⟨rfl, by simp [processProducerEffects, BlockProducers.initial]⟩ ?_).2
  rintro done tx rest state hsplit ⟨rfl, hqueue⟩
  refine ⟨by simp [processProducerEffects], ?_⟩
  rw [hsplit] at hrun
  obtain ⟨econ, hdone, -⟩ := run_append_ok.mp hrun
  have hfollows := follows_run hmode hgate hinj (by simp [hsplit]) hdone
  rw [hfollows.enqueue fun data hdata =>
    admitted_test hmode hgate hinj hfits hadmitted hsplit hdata, hqueue]
  cases hasked : askedWithdrawal ctx set tx with
  | none => simp [hasked]
  | some update => simp [hasked]

end Block

/-! ## A queue that wraps -/

def sampleAddBond (key : PublicKey) (bonds : Nat) : Transaction where
  version := 1
  txType := .addBond
  inputs := [sampleInput ⟨⟨901⟩, 0⟩]
  outputs := List.replicate bonds (sampleBond key)
  extraData := key.asBytes ++ leBytes 4 bonds

/-- One producer, and as many of its bonds in the queue. -/
def sampleLedger (bonds queued : Nat) : ProducerSet where
  producers := Finmap.insert (samplePrimitives.cryptoHash sampleKey)
    (sampleProducer sampleKey bonds) ∅
  exitHistory := ∅
  unbondingIndex := []
  pendingUpdates := [.addBond sampleKey (List.replicate queued ⟨⟨902⟩, 0⟩)
    sampleParams.bondUnit 0]

/-- Adds a bond and withdraws `withdrawn` others. -/
def addAndWithdraw (withdrawn : Nat) : List Transaction :=
  [sampleAddBond sampleKey 1, sampleWithdrawal sampleKey withdrawn withdrawn]

theorem injOn_of_named {prim : Primitives} {txs : List Transaction} {key : PublicKey}
    (hnamed : ∀ tx ∈ txs, namedProducer prim tx = some key) :
    Set.InjOn prim.cryptoHash (namedProducers prim txs) := by
  rintro first ⟨tx, htx, hfirst⟩ second ⟨other, hother, hsecond⟩ -
  rw [hnamed tx htx] at hfirst
  rw [hnamed other hother] at hsecond
  exact (Option.some.inj hfirst).symm.trans (Option.some.inj hsecond)

theorem admission_enqueues_sample :
    (processProducerEffects sampleBlockContext (addAndWithdraw 3)
        (.initial (sampleLedger 5 1))).producers.pendingUpdates.filter isWithdrawal =
      [.requestWithdrawal sampleKey 3 sampleParams.bondUnit] := by
  have hnamed : ∀ tx ∈ addAndWithdraw 3,
      namedProducer sampleBlockContext.utxo.prim tx = some sampleKey := by decide +kernel
  have hadmitted : checkWithdrawalEconomics sampleBlockContext (sampleBondDb sampleKey 5)
      (sampleLedger 5 1) (addAndWithdraw 3) = .ok () := by decide +kernel
  refine (admission_enqueues (by decide) (by decide) (injOn_of_named hnamed) ?_
    hadmitted).2.trans (by decide +kernel)
  unfold QueueFits
  decide +kernel

theorem pendingAddbondCount_sampleLedger (bonds queued : Nat) :
    (sampleLedger bonds queued).pendingAddbondCount sampleKey = queued % 2 ^ 32 := by
  simp [pendingAddbondCount, sampleLedger, queuedOutpoints]

section FullQueue

variable {set : ProducerSet}
  (hbefore : set.getByPubkey samplePrimitives sampleKey = some (sampleProducer sampleKey 1))

/-- What the withdrawal of two bonds says. -/
def twoBonds : WithdrawalRequestData := ⟨sampleKey, 2, .fromBytes (leBytes 32 1)⟩

theorem sampleWithdrawal_data :
    (sampleWithdrawal sampleKey 2 2).withdrawalRequestData = some twoBonds := by
  decide +kernel

/-- The tallies after the added bond. -/
def afterAddBond : EconState :=
  (EconState.initial.addBond (samplePrimitives.cryptoHash sampleKey) 1).remember
    (samplePrimitives.txHash (sampleAddBond sampleKey 1))

include hbefore

/-- Over a queue that is full the gate sees the saturated count, and two bonds of it
may leave. -/
theorem economics_of_full_queue (hcount : set.pendingAddbondCount sampleKey = 2 ^ 32 - 1) :
    ∃ final, run (econStep sampleBlockContext (sampleBondDb sampleKey 2) set)
      (addAndWithdraw 2) .initial = .ok final := by
  have hallowance : gateAllowance sampleBlockContext set sampleKey
      (sampleProducer sampleKey 1) afterAddBond = 2 ^ 32 - 1 := by
    rw [gateAllowance, hcount]
    decide +kernel
  have hresolved : resolveWithdrawalInputs (sampleWithdrawal sampleKey 2 2)
      (sampleBondDb sampleKey 2).getUtxo
      (sampleBlockContext.utxo.prim.addressOf twoBonds.producerPubkey) =
        ⟨2, 2, [(sampleParams.bondUnit, some 0), (sampleParams.bondUnit, some 0)], 0, []⟩ := by
    decide +kernel
  have hholdings : holdingsStep sampleBlockContext (sampleBondDb sampleKey 2) set
      (sampleWithdrawal sampleKey 2 2) twoBonds
      ⟨2, 2, [(sampleParams.bondUnit, some 0), (sampleParams.bondUnit, some 0)], 0, []⟩
      afterAddBond = .ok (afterAddBond.withdraw (samplePrimitives.cryptoHash sampleKey) 2) := by
    unfold holdingsStep
    rw [if_neg (by decide), show set.getByPubkey sampleBlockContext.utxo.prim
      twoBonds.producerPubkey = _ from hbefore]
    dsimp only
    rw [show gateAllowance sampleBlockContext set twoBonds.producerPubkey _ _ = _ from hallowance,
      if_neg (by decide), if_neg (by decide +kernel), if_neg (by decide)]
    rfl
  have hfirst : econStep sampleBlockContext (sampleBondDb sampleKey 2) set .initial
      (sampleAddBond sampleKey 1) = .ok afterAddBond := by
    rfl
  have hsecond : ∃ next, econStep sampleBlockContext (sampleBondDb sampleKey 2) set
      afterAddBond (sampleWithdrawal sampleKey 2 2) = .ok next := by
    unfold econStep
    rw [show (sampleWithdrawal sampleKey 2 2).txType = .requestWithdrawal from rfl]
    dsimp only
    rw [withdrawalStep, sampleWithdrawal_data]
    dsimp only
    rw [hresolved, hholdings]
    exact ⟨_, rfl⟩
  obtain ⟨next, hnext⟩ := hsecond
  exact ⟨next, run_cons_ok.mpr ⟨_, hfirst, run_cons_ok.mpr ⟨_, hnext, rfl⟩⟩⟩

/-- One bond more and the count of the queue starts over: two bonds are more than the
ledger of the block still holds. -/
theorem full_queue_skips (hcount : set.pendingAddbondCount sampleKey = 2 ^ 32 - 1) :
    (processProducerEffects sampleBlockContext (addAndWithdraw 2)
      (.initial set)).producers.pendingUpdates.filter isWithdrawal =
        set.pendingUpdates.filter isWithdrawal := by
  set queued : BlockProducers := (BlockProducers.initial set).queue
    (.addBond sampleKey (bondOutpoints samplePrimitives (sampleAddBond sampleKey 1))
      sampleParams.bondUnit 20) with hqueued
  have hadd : processTransactionProducerEffects sampleBlockContext
      (sampleAddBond sampleKey 1) (.initial set) = queued := by
    rw [processTransactionProducerEffects,
      show (sampleAddBond sampleKey 1).txType = .addBond from rfl]
    dsimp only
    rw [addBondEffect, show (sampleAddBond sampleKey 1).addBondData = some ⟨sampleKey, 1⟩
      from by decide +kernel]
    dsimp only
    rw [show (BlockProducers.initial set).producers.getByPubkey
      sampleBlockContext.utxo.prim sampleKey = _ from hbefore]
    rfl
  have hwrapped : queued.producers.pendingAddbondCount sampleKey = 0 := by
    rw [pendingAddbondCount_eq, hqueued, BlockProducers.queue, queuedBonds_queueUpdate,
      ← Nat.mod_add_mod, ← pendingAddbondCount_eq,
      show (BlockProducers.initial set).producers = set from rfl, hcount]
    decide +kernel
  have hremaining : remainingBonds sampleBlockContext.utxo sampleBlockContext.height
      queued.producers sampleKey (sampleProducer sampleKey 1) = 1 := by
    rw [remainingBonds, inFlightBonds, if_pos (by decide), hwrapped]
    decide +kernel
  have hwithdraw : processTransactionProducerEffects sampleBlockContext
      (sampleWithdrawal sampleKey 2 2) queued = queued := by
    rw [processTransactionProducerEffects,
      show (sampleWithdrawal sampleKey 2 2).txType = .requestWithdrawal from rfl]
    dsimp only
    rw [withdrawalEffect, sampleWithdrawal_data]
    dsimp only
    rw [show queued.producers.getByPubkey sampleBlockContext.utxo.prim
      twoBonds.producerPubkey = _ from hbefore]
    dsimp only
    rw [show remainingBonds _ _ queued.producers twoBonds.producerPubkey _ = _ from
      hremaining]
    rfl
  rw [processProducerEffects, addAndWithdraw, List.foldl_cons, List.foldl_cons,
    List.foldl_nil, hadd, hwithdraw, hqueued]
  simp [BlockProducers.queue, BlockProducers.initial, isWithdrawal]

end FullQueue

/-- The gate admits a withdrawal over a queue of as many bonds as a `u32` counts; the
block spends the two Bonds and queues no withdrawal. -/
theorem full_queue_drops_withdrawal :
    checkWithdrawalEconomics sampleBlockContext (sampleBondDb sampleKey 2)
        (sampleLedger 1 (2 ^ 32 - 1)) (addAndWithdraw 2) = .ok () ∧
      (processProducerEffects sampleBlockContext (addAndWithdraw 2)
        (.initial (sampleLedger 1 (2 ^ 32 - 1)))).producers.pendingUpdates.filter
          isWithdrawal = [] := by
  have hbefore : (sampleLedger 1 (2 ^ 32 - 1)).getByPubkey samplePrimitives sampleKey =
      some (sampleProducer sampleKey 1) := by decide +kernel
  have hcount : (sampleLedger 1 (2 ^ 32 - 1)).pendingAddbondCount sampleKey = 2 ^ 32 - 1 := by
    rw [pendingAddbondCount_sampleLedger, Nat.mod_eq_of_lt (by decide)]
  refine ⟨?_, (full_queue_skips hbefore hcount).trans (by decide +kernel)⟩
  obtain ⟨final, hfinal⟩ := economics_of_full_queue hbefore hcount
  have hslashed : checkSlashedWithdrawals sampleBlockContext (sampleLedger 1 (2 ^ 32 - 1))
      (addAndWithdraw 2) = .ok () := by decide +kernel
  have hspend : checkSlashBondSpend sampleBlockContext (sampleBondDb sampleKey 2)
      (addAndWithdraw 2) = .ok () := by decide +kernel
  rw [checkWithdrawalEconomics, hslashed, hspend]
  dsimp only
  rw [economicsPass, if_pos (by decide), hfinal]

end Doli.Node
