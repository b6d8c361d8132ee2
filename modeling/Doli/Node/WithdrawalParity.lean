import Doli.Lib.Checks
import Doli.Node.WithdrawalEnqueue

/-!
# What the builder keeps of the gate

`WithdrawalParity` repeats the rules on bonds while a block is picked: it reads the
producers once, under keys of its own, and tallies what it lets pass.  `Mirrors` relates
its tallies to those of the gate after the same transactions.
-/

namespace Doli.Node

open Doli.Core Doli.Lib Doli.Storage Doli.Producer Doli.Producer.ProducerSet

/-! ## The cap on added bonds -/

structure AddBondCapExceeded where
  current : Nat
  pending : Nat
  requested : Nat
  max : Nat
  deriving DecidableEq, Repr

def checkAddbondCap (current pending requested height activationHeight : Nat) :
    Except AddBondCapExceeded Unit :=
  if height < activationHeight then .ok ()
  else if maxBondsPerProducer < satAdd (satAdd current pending) requested then
    .error ⟨current, pending, requested, maxBondsPerProducer⟩
  else .ok ()

/-- `count_bond_outputs`, which saturates where the gate wraps. -/
def countBondOutputs (tx : Transaction) : Nat :=
  min (tx.outputs.filter fun output => output.outputType = .bond).length (2 ^ 32 - 1)

section Gate

variable (ctx : BlockContext) (producers : ProducerSet)

def addbondCapStep (inBlock : Hash → Nat) (tx : Transaction) :
    Except AddBondCapExceeded (Hash → Nat) :=
  match tx.addBondData with
  | none => .ok inBlock
  | some data =>
      let producer := ctx.utxo.prim.cryptoHash data.producerPubkey
      let current :=
        (producers.getByPubkey ctx.utxo.prim data.producerPubkey).elim 0
          ProducerInfo.bondCount
      let pending :=
        satAdd (producers.pendingAddbondCount data.producerPubkey) (inBlock producer)
      match checkAddbondCap current pending (requestedBonds tx) ctx.height
          ctx.utxo.params.addbondCapEnforcementActivationHeight with
      | .error error => .error error
      | .ok () => .ok
          (Function.update inBlock producer
            (satAdd (inBlock producer) (requestedBonds tx)))

/-- The last rule of `validate_block_economics`. -/
def checkBlockAddbondCap (txs : List Transaction) : Except AddBondCapExceeded Unit :=
  if ctx.utxo.params.addbondCapEnforcementActivationHeight ≤ ctx.height then
    match run (addbondCapStep ctx producers) txs fun _ => 0 with
    | .error error => .error error
    | .ok _ => .ok ()
  else .ok ()

end Gate

/-! ## Holdings -/

structure ProducerHoldings where
  bondCount : Nat
  pendingAddbond : Nat
  withdrawalPending : Nat
  deriving DecidableEq, Repr

def ProducerHoldings.allowanceWith (holdings : ProducerHoldings)
    (inBlockAddbond inBlockWithdrawn : Nat) : Nat :=
  satAdd (satAdd holdings.bondCount holdings.pendingAddbond) inBlockAddbond -
    holdings.withdrawalPending - inBlockWithdrawn

inductive HoldingsLookup where
  | unavailable
  | unregistered (pendingAddbond : Nat)
  | found (holdings : ProducerHoldings)
  deriving DecidableEq, Repr

def ofProducerSet (prim : Primitives) (set : ProducerSet) (key : PublicKey) :
    HoldingsLookup :=
  match set.getByPubkey prim key with
  | some info => .found
      ⟨info.bondCount, set.pendingAddbondCount key, info.withdrawalPendingCount⟩
  | none => .unregistered (set.pendingAddbondCount key)

def addbondCapVerdict (tx : Transaction) (holdings : HoldingsLookup)
    (inBlockPrior height activationHeight : Nat) : Except AddBondCapExceeded Unit :=
  if tx.txType ≠ .addBond ∨ height < activationHeight then .ok ()
  else
    let judged (current pending : Nat) : Except AddBondCapExceeded Unit :=
      match tx.addBondData with
      | none => .ok ()
      | some _ =>
          checkAddbondCap current (satAdd pending inBlockPrior) (countBondOutputs tx)
            height activationHeight
    match holdings with
    | .unavailable => .ok ()
    | .unregistered pending => judged 0 pending
    | .found found => judged found.bondCount found.pendingAddbond

/-! ## The builder's side -/

/-- The vesting window and the slot the builder evaluates at. -/
structure VestingGate where
  slot : Nat
  quarterSlots : Nat
  activation : Nat
  disable : Nat
  deriving DecidableEq, Repr

namespace VestingGate

def openAt (gate : VestingGate) (height : Nat) : Bool :=
  decide (gate.activation ≤ height ∧ height < gate.disable)

def atSlot (slot : Nat) (params : NetworkParams) : VestingGate where
  slot := slot
  quarterSlots := params.vestingQuarterSlots
  activation := params.incI171VestingPenaltyActivationHeight
  disable := params.incI171VestingPenaltyDisableHeight

end VestingGate

/-- Why a candidate is skipped. -/
inductive ParitySkip where
  | unknownProducer (producer : PublicKey)
  | overHoldings (declared allowance : Nat)
  | sameBlockInput
  | foreignBonds (owned all : Nat)
  | incompleteDrain (declared spent owned : Nat)
  | bondCountMismatch (declared spent : Nat)
  | vesting (error : VestingError)
  | addBondCap (error : AddBondCapExceeded)
  deriving DecidableEq, Repr

structure WithdrawalParity where
  active : Bool
  addbondAh : Nat
  height : Nat
  holdings : PublicKey → Option ProducerHoldings
  /-- Keys the set does not carry, with their queued bonds. -/
  absent : PublicKey → Option Nat
  inBlockAddbond : PublicKey → Nat
  inBlockWithdrawn : PublicKey → Nat
  earlierHashes : List Hash
  ownedLiveBonds : Hash → Option Nat
  vesting : VestingGate

namespace WithdrawalParity

def new (active : Bool) (addbondAh height : Nat) (vesting : VestingGate) :
    WithdrawalParity where
  active := active
  addbondAh := addbondAh
  height := height
  holdings _ := none
  absent _ := none
  inBlockAddbond _ := 0
  inBlockWithdrawn _ := 0
  earlierHashes := []
  ownedLiveBonds _ := none
  vesting := vesting

section

variable (parity : WithdrawalParity)

def addbondActive : Bool := decide (parity.addbondAh ≤ parity.height)

def anyActive : Bool := parity.active || parity.addbondActive

/-- What the two maps say of a key. -/
def heldAs (key : PublicKey) : HoldingsLookup :=
  match parity.holdings key with
  | some holdings => .found holdings
  | none =>
      match parity.absent key with
      | some pending => .unregistered pending
      | none => .unavailable

def tallyAddBond (key : PublicKey) (bonds : Nat) : WithdrawalParity :=
  { parity with
    inBlockAddbond := Function.update parity.inBlockAddbond key
      (satAdd (parity.inBlockAddbond key) bonds) }

def tallyWithdrawn (key : PublicKey) (bonds : Nat) : WithdrawalParity :=
  { parity with
    inBlockWithdrawn := Function.update parity.inBlockWithdrawn key
      (satAdd (parity.inBlockWithdrawn key) bonds) }

def remember (txHash : Hash) : WithdrawalParity :=
  { parity with earlierHashes := parity.earlierHashes ++ [txHash] }

end

section Load

variable (prim : Primitives) (producers : ProducerSet)

/-- The producer one candidate names, unless it was resolved before. -/
def resolve (parity : WithdrawalParity) (tx : Transaction) : WithdrawalParity :=
  match namedProducer prim tx with
  | none => parity
  | some key =>
      if (parity.holdings key).isSome || (parity.absent key).isSome then parity
      else
        match ofProducerSet prim producers key with
        | .found holdings =>
            { parity with holdings := Function.update parity.holdings key (some holdings) }
        | .unregistered pending =>
            { parity with absent := Function.update parity.absent key (some pending) }
        | .unavailable => parity

def load (parity : WithdrawalParity) (txs : List Transaction) : WithdrawalParity :=
  if parity.anyActive then txs.foldl (resolve prim producers) parity else parity

end Load

section Allow

variable (db : StateDb) (parity : WithdrawalParity)

/-- The Bonds an owner holds, counted at the first question. -/
def liveBondsOf (owner : Hash) : Nat × WithdrawalParity :=
  match parity.ownedLiveBonds owner with
  | some owned => (owned, parity)
  | none =>
      (liveBonds db owner,
        { parity with
          ownedLiveBonds :=
            Function.update parity.ownedLiveBonds owner (some (liveBonds db owner)) })

def allowVesting (tx : Transaction) (resolved : WithdrawalInputs) :
    Except ParitySkip Unit :=
  (vestingBoundVerdict tx resolved parity.vesting.slot parity.height
    parity.vesting.quarterSlots parity.vesting.activation
    parity.vesting.disable).mapError .vesting

/-- The verdict, and the parity with what it counted on the way. -/
def allowHoldings (tx : Transaction) (data : WithdrawalRequestData) (owner : Hash)
    (resolved : WithdrawalInputs) : Except ParitySkip Unit × WithdrawalParity :=
  match parity.holdings data.producerPubkey with
  | none => (.error (.unknownProducer data.producerPubkey), parity)
  | some info =>
      let allowance := info.allowanceWith (parity.inBlockAddbond data.producerPubkey)
        (parity.inBlockWithdrawn data.producerPubkey)
      if allowance < data.bondCount then
        (.error (.overHoldings data.bondCount allowance), parity)
      else if tx.inputs.any fun input =>
          decide (input.prevTxHash ∈ parity.earlierHashes) then
        (.error .sameBlockInput, parity)
      else if resolved.allBonds ≠ resolved.ownedBonds then
        (.error (.foreignBonds resolved.ownedBonds resolved.allBonds), parity)
      else if data.bondCount = allowance ∧ 0 < data.bondCount then
        let (owned, counted) := parity.liveBondsOf db owner
        if resolved.ownedBonds ≠ owned then
          (.error (.incompleteDrain data.bondCount resolved.ownedBonds owned), counted)
        else (.ok (), counted)
      else if data.bondCount ≠ resolved.ownedBonds then
        (.error (.bondCountMismatch data.bondCount resolved.ownedBonds), parity)
      else (.ok (), parity)

def allowAddBond (tx : Transaction) : Except ParitySkip Unit :=
  match tx.addBondData with
  | none => .ok ()
  | some data =>
      (addbondCapVerdict tx (parity.heldAs data.producerPubkey)
        (parity.inBlockAddbond data.producerPubkey) parity.height
        parity.addbondAh).mapError .addBondCap

def allow (prim : Primitives) (tx : Transaction) :
    Except ParitySkip Unit × WithdrawalParity :=
  match tx.txType with
  | .addBond => (parity.allowAddBond tx, parity)
  | .requestWithdrawal =>
      match tx.withdrawalRequestData with
      | none => (.ok (), parity)
      | some data =>
          let owner := prim.addressOf data.producerPubkey
          let resolved := resolveWithdrawalInputs tx db.getUtxo owner
          if parity.active then
            match parity.allowHoldings db tx data owner resolved with
            | (.error skip, counted) => (.error skip, counted)
            | (.ok (), counted) => (counted.allowVesting tx resolved, counted)
          else if parity.vesting.openAt parity.height then
            (parity.allowVesting tx resolved, parity)
          else (.ok (), parity)
  | _ => (.ok (), parity)

end Allow

/-- Tallies a transaction that was selected; a repeated Exit is charged again. -/
def accept (prim : Primitives) (parity : WithdrawalParity) (tx : Transaction) :
    WithdrawalParity :=
  if !parity.anyActive then parity
  else
    let remembered := parity.remember (prim.txHash tx)
    match tx.txType with
    | .addBond =>
        match tx.addBondData with
        | none => remembered
        | some data => remembered.tallyAddBond data.producerPubkey (countBondOutputs tx)
    | .exit =>
        match tx.exitData prim with
        | none => remembered
        | some data =>
            remembered.tallyWithdrawn data.publicKey
              ((parity.holdings data.publicKey).elim 0 ProducerHoldings.bondCount)
    | .requestWithdrawal =>
        match tx.withdrawalRequestData with
        | none => remembered
        | some data => remembered.tallyWithdrawn data.producerPubkey data.bondCount
    | _ => remembered

end WithdrawalParity

/-! ## The selection -/

section Selection

variable (ctx : BlockContext) (db : StateDb) (producers : ProducerSet)

structure HoldingsSelection where
  parity : WithdrawalParity
  included : List Transaction

/-- One turn of the loop, for a candidate that passed the other filters. -/
def offer (selection : HoldingsSelection) (tx : Transaction) : HoldingsSelection :=
  match selection.parity.allow db ctx.utxo.prim tx with
  | (.ok (), parity) => ⟨parity.accept ctx.utxo.prim tx, selection.included ++ [tx]⟩
  | (.error _, parity) => ⟨parity, selection.included⟩

/-- The parity `build_block_content` arms for the block it builds. -/
def armedParity : WithdrawalParity :=
  .new (decide (ctx.utxo.params.withdrawalHoldingsGateActivationHeight ≤ ctx.height))
    ctx.utxo.params.addbondCapEnforcementActivationHeight ctx.height
    (.atSlot ctx.slot ctx.utxo.params)

def selectByHoldings (candidates offered : List Transaction) : List Transaction :=
  (offered.foldl (offer ctx db)
    ⟨(armedParity ctx).load ctx.utxo.prim producers candidates, []⟩).included

end Selection

/-! ## What the builder reads -/

section Reads

variable {prim : Primitives} {producers : ProducerSet} {parity : WithdrawalParity}

theorem ofProducerSet_ne_unavailable (key : PublicKey) :
    ofProducerSet prim producers key ≠ .unavailable := by
  unfold ofProducerSet
  split <;> simp

namespace WithdrawalParity

theorem heldAs_eq_unavailable {key : PublicKey} :
    parity.heldAs key = .unavailable ↔
      ¬((parity.holdings key).isSome || (parity.absent key).isSome) := by
  unfold heldAs
  cases parity.holdings key with
  | some holdings => simp
  | none => cases parity.absent key <;> simp

theorem holdings_of_heldAs {key : PublicKey}
    (hheld : parity.heldAs key = ofProducerSet prim producers key) :
    parity.holdings key = (producers.getByPubkey prim key).map fun info =>
      ⟨info.bondCount, producers.pendingAddbondCount key, info.withdrawalPendingCount⟩ := by
  unfold heldAs ofProducerSet at hheld
  cases hinfo : producers.getByPubkey prim key with
  | none =>
      rw [hinfo] at hheld
      cases hholdings : parity.holdings key with
      | none => rfl
      | some holdings => simp [hholdings] at hheld
  | some info =>
      rw [hinfo] at hheld
      cases hholdings : parity.holdings key with
      | some holdings =>
          rw [hholdings] at hheld
          rw [HoldingsLookup.found.inj hheld]
          rfl
      | none => cases habsent : parity.absent key <;> simp [hholdings, habsent] at hheld

theorem heldAs_resolve_of_ne {tx : Transaction} {key : PublicKey}
    (hname : namedProducer prim tx ≠ some key) :
    (resolve prim producers parity tx).heldAs key = parity.heldAs key := by
  unfold resolve
  split
  · rfl
  case h_2 named hnamed =>
    have hne : key ≠ named := by
      rintro rfl
      exact hname hnamed
    split
    · rfl
    split
    · simp only [heldAs, Function.update_of_ne hne]
    · simp only [heldAs, Function.update_of_ne hne]
    · rfl

theorem heldAs_resolve_of_named {tx : Transaction} {key : PublicKey}
    (hname : namedProducer prim tx = some key) :
    (resolve prim producers parity tx).heldAs key =
      if parity.heldAs key = .unavailable then ofProducerSet prim producers key
      else parity.heldAs key := by
  unfold resolve
  rw [hname]
  dsimp only
  by_cases hknown : (parity.holdings key).isSome || (parity.absent key).isSome
  · rw [if_pos hknown, if_neg fun hheld => heldAs_eq_unavailable.mp hheld hknown]
  · have hheld : parity.heldAs key = .unavailable := heldAs_eq_unavailable.mpr hknown
    rw [if_neg hknown, if_pos hheld]
    simp only [Bool.or_eq_true, not_or, Bool.not_eq_true, Option.isSome_eq_false_iff,
      Option.isNone_iff_eq_none] at hknown
    split
    case h_1 holdings hfound => simp [heldAs, hfound]
    case h_2 pending hfound => simp [heldAs, hfound, hknown.1]
    case h_3 hfound => exact absurd hfound (ofProducerSet_ne_unavailable key)

variable (prim producers) in
theorem settings_resolve (tx : Transaction) :
    ∃ holdings absent, resolve prim producers parity tx =
      { parity with holdings := holdings, absent := absent } := by
  unfold resolve
  split
  · exact ⟨_, _, rfl⟩
  split
  · exact ⟨_, _, rfl⟩
  split
  · exact ⟨_, _, rfl⟩
  · exact ⟨_, _, rfl⟩
  · exact ⟨_, _, rfl⟩

variable (prim producers) in
/-- After `load` every key that a candidate names is known as the set has it, and
nothing else of the parity has moved. -/
theorem load_spec (txs : List Transaction) (hactive : parity.anyActive = true)
    (hnew : ∀ key, parity.heldAs key = .unavailable) :
    (∀ key ∈ namedProducers prim txs, (parity.load prim producers txs).heldAs key =
        ofProducerSet prim producers key) ∧
      ∃ holdings absent, parity.load prim producers txs =
        { parity with holdings := holdings, absent := absent } := by
  rw [load, if_pos hactive]
  have hall : (∀ key, (txs.foldl (resolve prim producers) parity).heldAs key =
      ofProducerSet prim producers key ∨ key ∉ namedProducers prim txs ∧
        (txs.foldl (resolve prim producers) parity).heldAs key = .unavailable) ∧
      ∃ holdings absent, txs.foldl (resolve prim producers) parity =
        { parity with holdings := holdings, absent := absent } := by
    refine foldl_invariant (fun done reached => (∀ key, reached.heldAs key =
      ofProducerSet prim producers key ∨ key ∉ namedProducers prim done ∧
        reached.heldAs key = .unavailable) ∧
      ∃ holdings absent, reached = { parity with holdings := holdings, absent := absent })
      ⟨fun key => .inr ⟨by simp [namedProducers], hnew key⟩, _, _, rfl⟩ ?_
    rintro done tx rest reached - ⟨hknown, holdings, absent, hsettings⟩
    constructor
    · intro key
      by_cases hname : namedProducer prim tx = some key
      · rw [heldAs_resolve_of_named hname]
        rcases hknown key with hheld | ⟨-, hheld⟩
        · rw [hheld, ite_self]
          exact .inl rfl
        · exact .inl (if_pos hheld)
      · rw [heldAs_resolve_of_ne hname]
        refine (hknown key).imp_right fun ⟨hnamed, hheld⟩ => ⟨?_, hheld⟩
        rintro ⟨other, hother, hsome⟩
        rcases List.mem_append.mp hother with hdone | hlast
        · exact hnamed ⟨other, hdone, hsome⟩
        · exact hname (List.mem_singleton.mp hlast ▸ hsome)
    · obtain ⟨nextHoldings, nextAbsent, hnext⟩ :
          ∃ holdings absent, resolve prim producers reached tx =
            { reached with holdings := holdings, absent := absent } :=
        settings_resolve prim producers tx
      rw [hnext, hsettings]
      exact ⟨_, _, rfl⟩
  refine ⟨fun key hkey => ?_, hall.2⟩
  rcases hall.1 key with hheld | ⟨hnamed, -⟩
  · exact hheld
  · exact absurd hkey hnamed

end WithdrawalParity

end Reads

/-! ## The two sides after the same transactions -/

/-- The tallies of the builder beside those of the gate, the keys hashed there. -/
structure Mirrors (ctx : BlockContext) (db : StateDb) (set : ProducerSet)
    (keys : Set PublicKey) (econ : EconState) (inBlock : Hash → Nat)
    (parity : WithdrawalParity) : Prop where
  active : parity.active = true
  height : parity.height = ctx.height
  addbondAh : parity.addbondAh = ctx.utxo.params.addbondCapEnforcementActivationHeight
  vesting : parity.vesting = .atSlot ctx.slot ctx.utxo.params
  known : ∀ key ∈ keys, parity.heldAs key = ofProducerSet ctx.utxo.prim set key
  addBonds : ∀ key ∈ keys,
    econ.addBonds (ctx.utxo.prim.cryptoHash key) = parity.inBlockAddbond key
  capped : ∀ key ∈ keys, inBlock (ctx.utxo.prim.cryptoHash key) = parity.inBlockAddbond key
  withdrawn : ∀ key ∈ keys,
    econ.withdrawn (ctx.utxo.prim.cryptoHash key) = parity.inBlockWithdrawn key
  earlier : econ.earlierHashes = parity.earlierHashes
  counted : ∀ owner owned, parity.ownedLiveBonds owner = some owned →
    owned = liveBonds db owner

/-- Where hashing tells the keys apart, one tally moves under the key as the other does
under its hash. -/
theorem update_of_mirrored {prim : Primitives} {keys : Set PublicKey}
    (hinj : Set.InjOn prim.cryptoHash keys) {hashed : Hash → Nat} {keyed : PublicKey → Nat}
    (hsame : ∀ key ∈ keys, hashed (prim.cryptoHash key) = keyed key) {key : PublicKey}
    (hkey : key ∈ keys) (bonds : Nat) :
    ∀ other ∈ keys,
      Function.update hashed (prim.cryptoHash key)
          (satAdd (hashed (prim.cryptoHash key)) bonds) (prim.cryptoHash other) =
        Function.update keyed key (satAdd (keyed key) bonds) other := by
  intro other hother
  by_cases heq : other = key
  · subst heq
    rw [Function.update_self, Function.update_self, hsame other hkey]
  · rw [Function.update_of_ne fun hhash => heq (hinj hother hkey hhash),
      Function.update_of_ne heq, hsame other hother]

namespace Mirrors

variable {ctx : BlockContext} {db : StateDb} {set : ProducerSet} {keys : Set PublicKey}
  {econ : EconState} {inBlock : Hash → Nat} {parity : WithdrawalParity} {tx : Transaction}

theorem anyActive (hmirrors : Mirrors ctx db set keys econ inBlock parity) :
    parity.anyActive = true := by
  simp [WithdrawalParity.anyActive, hmirrors.active]

theorem remember (hmirrors : Mirrors ctx db set keys econ inBlock parity) (hash : Hash) :
    Mirrors ctx db set keys (econ.remember hash) inBlock (parity.remember hash) :=
  { hmirrors with
    earlier := congrArg (· ++ [hash]) hmirrors.earlier }

theorem tallyWithdrawn (hmirrors : Mirrors ctx db set keys econ inBlock parity)
    (hinj : Set.InjOn ctx.utxo.prim.cryptoHash keys) {key : PublicKey} (hkey : key ∈ keys)
    (bonds : Nat) :
    Mirrors ctx db set keys (econ.withdraw (ctx.utxo.prim.cryptoHash key) bonds) inBlock
      (parity.tallyWithdrawn key bonds) :=
  { hmirrors with
    withdrawn := update_of_mirrored hinj hmirrors.withdrawn hkey bonds }

theorem tallyAddBond (hmirrors : Mirrors ctx db set keys econ inBlock parity)
    (hinj : Set.InjOn ctx.utxo.prim.cryptoHash keys) {key : PublicKey} (hkey : key ∈ keys)
    (bonds : Nat) :
    Mirrors ctx db set keys (econ.addBond (ctx.utxo.prim.cryptoHash key) bonds)
      (Function.update inBlock (ctx.utxo.prim.cryptoHash key)
        (satAdd (inBlock (ctx.utxo.prim.cryptoHash key)) bonds))
      (parity.tallyAddBond key bonds) :=
  { hmirrors with
    addBonds := update_of_mirrored hinj hmirrors.addBonds hkey bonds
    capped := update_of_mirrored hinj hmirrors.capped hkey bonds }

theorem liveBondsOf (hmirrors : Mirrors ctx db set keys econ inBlock parity) (owner : Hash) :
    (parity.liveBondsOf db owner).1 = liveBonds db owner ∧
      Mirrors ctx db set keys econ inBlock (parity.liveBondsOf db owner).2 := by
  unfold WithdrawalParity.liveBondsOf
  split
  case h_1 owned howned => exact ⟨hmirrors.counted owner owned howned, hmirrors⟩
  case h_2 hnone =>
    refine ⟨rfl, { hmirrors with counted := fun other owned howned => ?_ }⟩
    by_cases heq : other = owner
    · subst heq
      simpa using howned.symm
    · exact hmirrors.counted other owned (by simpa [Function.update_of_ne heq] using howned)

theorem allowance_eq (hmirrors : Mirrors ctx db set keys econ inBlock parity)
    {key : PublicKey} (hkey : key ∈ keys) (info : ProducerInfo) :
    ProducerHoldings.allowanceWith
        ⟨info.bondCount, set.pendingAddbondCount key, info.withdrawalPendingCount⟩
        (parity.inBlockAddbond key) (parity.inBlockWithdrawn key) =
      gateAllowance ctx set key info econ := by
  unfold ProducerHoldings.allowanceWith gateAllowance
  rw [hmirrors.addBonds key hkey, hmirrors.withdrawn key hkey]

theorem allowHoldings (hmirrors : Mirrors ctx db set keys econ inBlock parity)
    {data : WithdrawalRequestData} (hkey : data.producerPubkey ∈ keys)
    (resolved : WithdrawalInputs)
    {verdict : Except ParitySkip Unit} {counted : WithdrawalParity}
    (hallow : parity.allowHoldings db tx data
      (ctx.utxo.prim.addressOf data.producerPubkey) resolved = (verdict, counted)) :
    Mirrors ctx db set keys econ inBlock counted ∧
      (verdict = .ok () →
        ctx.utxo.params.withdrawalHoldingsGateActivationHeight ≤ ctx.height →
        holdingsStep ctx db set tx data resolved econ =
          .ok (econ.withdraw (ctx.utxo.prim.cryptoHash data.producerPubkey)
            data.bondCount)) := by
  have hholdings := WithdrawalParity.holdings_of_heldAs (hmirrors.known _ hkey)
  obtain ⟨howned, hlive⟩ := hmirrors.liveBondsOf (ctx.utxo.prim.addressOf data.producerPubkey)
  unfold WithdrawalParity.allowHoldings at hallow
  unfold holdingsStep boundInputs
  rw [hholdings] at hallow
  cases hinfo : set.getByPubkey ctx.utxo.prim data.producerPubkey with
  | none =>
      rw [hinfo] at hallow
      obtain ⟨rfl, rfl⟩ := Prod.mk.inj hallow
      exact ⟨hmirrors, fun hok => nomatch hok⟩
  | some info =>
      rw [hinfo] at hallow
      simp only [Option.map_some, hmirrors.allowance_eq hkey, ← hmirrors.earlier, howned]
        at hallow
      dsimp only
      split_ifs at hallow with hover hchained hforeign hfull hdrained hcount
      all_goals
        obtain ⟨rfl, rfl⟩ := Prod.mk.inj hallow
        refine ⟨by assumption, fun hok hgate => ?_⟩
        try cases hok
      · rw [if_neg (Nat.not_lt.mpr hgate), if_neg hover, if_neg hchained, if_neg hforeign,
          if_pos hfull, if_neg hdrained, ite_self]
      · rw [if_neg (Nat.not_lt.mpr hgate), if_neg hover, if_neg hchained, if_neg hforeign,
          if_neg hfull, if_neg hcount, ite_self]

theorem allow_withdrawal (hmirrors : Mirrors ctx db set keys econ inBlock parity)
    (hgate : ctx.utxo.params.withdrawalHoldingsGateActivationHeight ≤ ctx.height)
    (htype : tx.txType = .requestWithdrawal) {data : WithdrawalRequestData}
    (hdata : tx.withdrawalRequestData = some data) (hkey : data.producerPubkey ∈ keys)
    {counted : WithdrawalParity}
    (hallow : parity.allow db ctx.utxo.prim tx = (.ok (), counted)) :
    Mirrors ctx db set keys econ inBlock counted ∧
      withdrawalStep ctx db set tx econ =
        .ok (econ.withdraw (ctx.utxo.prim.cryptoHash data.producerPubkey)
          data.bondCount) := by
  unfold WithdrawalParity.allow at hallow
  simp only [htype, hdata, hmirrors.active, if_true] at hallow
  split at hallow
  · cases hallow
  case h_2 reached hreached =>
    obtain ⟨hverdict, rfl⟩ := Prod.mk.inj hallow
    obtain ⟨hreads, hcharged⟩ := hmirrors.allowHoldings hkey _ hreached
    refine ⟨hreads, ?_⟩
    unfold WithdrawalParity.allowVesting at hverdict
    rw [mapError_eq_ok, hreads.vesting, hreads.height] at hverdict
    unfold withdrawalStep vestingStep
    simp only [VestingGate.atSlot] at hverdict
    simp only [hdata, hcharged rfl hgate, hverdict]

theorem allow_addBond (hmirrors : Mirrors ctx db set keys econ inBlock parity)
    (hcap : ctx.utxo.params.addbondCapEnforcementActivationHeight ≤ ctx.height)
    (htype : tx.txType = .addBond) {data : AddBondData}
    (hdata : tx.addBondData = some data) (hkey : data.producerPubkey ∈ keys)
    {counted : WithdrawalParity}
    (hallow : parity.allow db ctx.utxo.prim tx = (.ok (), counted)) :
    counted = parity ∧ countBondOutputs tx = requestedBonds tx ∧
      addbondCapStep ctx set inBlock tx = .ok
        (Function.update inBlock (ctx.utxo.prim.cryptoHash data.producerPubkey)
          (satAdd (inBlock (ctx.utxo.prim.cryptoHash data.producerPubkey))
            (requestedBonds tx))) := by
  unfold WithdrawalParity.allow WithdrawalParity.allowAddBond at hallow
  simp only [htype, hdata] at hallow
  obtain ⟨hverdict, rfl⟩ := Prod.mk.inj hallow
  rw [mapError_eq_ok, hmirrors.known _ hkey, hmirrors.height, hmirrors.addbondAh,
    ← hmirrors.capped _ hkey] at hverdict
  have hjudged : checkAddbondCap
      ((set.getByPubkey ctx.utxo.prim data.producerPubkey).elim 0 ProducerInfo.bondCount)
      (satAdd (set.pendingAddbondCount data.producerPubkey)
        (inBlock (ctx.utxo.prim.cryptoHash data.producerPubkey)))
      (countBondOutputs tx) ctx.height
      ctx.utxo.params.addbondCapEnforcementActivationHeight = .ok () := by
    unfold addbondCapVerdict ofProducerSet at hverdict
    rw [if_neg (by simp [htype]; omega)] at hverdict
    cases hinfo : set.getByPubkey ctx.utxo.prim data.producerPubkey with
    | none => simpa [hinfo, hdata] using hverdict
    | some info => simpa [hinfo, hdata] using hverdict
  have hcount : countBondOutputs tx = requestedBonds tx := by
    unfold checkAddbondCap at hjudged
    split_ifs at hjudged with hbelow hover
    · omega
    · simp only [satAdd, maxBondsPerProducer, countBondOutputs] at hover
      simp only [countBondOutputs, requestedBonds]
      omega
  refine ⟨rfl, hcount, ?_⟩
  rw [hcount] at hjudged
  unfold addbondCapStep
  simp only [hdata, hjudged]

theorem allow_unnamed (hmirrors : Mirrors ctx db set keys econ inBlock parity)
    (hnone : namedProducer ctx.utxo.prim tx = none) :
    parity.allow db ctx.utxo.prim tx = (.ok (), parity) ∧
      parity.accept ctx.utxo.prim tx = parity.remember (ctx.utxo.prim.txHash tx) := by
  unfold namedProducer at hnone
  unfold WithdrawalParity.allow WithdrawalParity.accept
  rw [hmirrors.anyActive]
  cases htype : tx.txType with
  | addBond =>
      simp only [htype, Option.map_eq_none_iff] at hnone
      simp [WithdrawalParity.allowAddBond, hnone]
  | exit =>
      simp only [htype, Option.map_eq_none_iff] at hnone
      simp [hnone]
  | requestWithdrawal =>
      simp only [htype, Option.map_eq_none_iff] at hnone
      simp [hnone]
  | _ => exact ⟨rfl, rfl⟩

theorem allow_keeps (hmirrors : Mirrors ctx db set keys econ inBlock parity)
    (hnamed : ∀ key, namedProducer ctx.utxo.prim tx = some key → key ∈ keys)
    {verdict : Except ParitySkip Unit} {counted : WithdrawalParity}
    (hallow : parity.allow db ctx.utxo.prim tx = (verdict, counted)) :
    Mirrors ctx db set keys econ inBlock counted := by
  unfold WithdrawalParity.allow at hallow
  split at hallow
  case h_1 =>
    obtain ⟨-, rfl⟩ := Prod.mk.inj hallow
    exact hmirrors
  case h_2 htype =>
    split at hallow
    case h_1 =>
      obtain ⟨-, rfl⟩ := Prod.mk.inj hallow
      exact hmirrors
    case h_2 data hdata =>
      have hkey : data.producerPubkey ∈ keys :=
        hnamed _ (by simp [namedProducer, htype, hdata])
      simp only [hmirrors.active, if_true] at hallow
      split at hallow
      case h_1 skip reached hreached =>
        obtain ⟨-, rfl⟩ := Prod.mk.inj hallow
        exact (hmirrors.allowHoldings hkey _ hreached).1
      case h_2 reached hreached =>
        obtain ⟨-, rfl⟩ := Prod.mk.inj hallow
        exact (hmirrors.allowHoldings hkey _ hreached).1
  case h_3 =>
    obtain ⟨-, rfl⟩ := Prod.mk.inj hallow
    exact hmirrors

/-- The step lemma: what the builder lets pass and tallies, both rules of the gate pass
and tally. -/
theorem step (hmirrors : Mirrors ctx db set keys econ inBlock parity)
    (hgate : ctx.utxo.params.withdrawalHoldingsGateActivationHeight ≤ ctx.height)
    (hcap : ctx.utxo.params.addbondCapEnforcementActivationHeight ≤ ctx.height)
    (hinj : Set.InjOn ctx.utxo.prim.cryptoHash keys)
    (hnamed : ∀ key, namedProducer ctx.utxo.prim tx = some key → key ∈ keys)
    {counted : WithdrawalParity}
    (hallow : parity.allow db ctx.utxo.prim tx = (.ok (), counted)) :
    ∃ next tally, econStep ctx db set econ tx = .ok next ∧
      addbondCapStep ctx set inBlock tx = .ok tally ∧
      Mirrors ctx db set keys next tally (counted.accept ctx.utxo.prim tx) := by
  cases hname : namedProducer ctx.utxo.prim tx with
  | none =>
      obtain ⟨hsame, haccept⟩ := hmirrors.allow_unnamed hname
      obtain ⟨-, rfl⟩ := Prod.mk.inj (hsame.symm.trans hallow)
      refine ⟨_, inBlock, econStep_unnamed hname, ?_, haccept ▸ hmirrors.remember _⟩
      simp [addbondCapStep, addBondData_of_unnamed hname]
  | some key =>
      have hkey := hnamed key hname
      unfold econStep
      unfold namedProducer at hname
      cases htype : tx.txType with
      | exit =>
          simp only [htype] at hname
          obtain ⟨data, hdata, rfl⟩ := Option.map_eq_some_iff.mp hname
          obtain rfl : parity = counted := by
            simpa [WithdrawalParity.allow, htype] using hallow
          have hheld : (parity.holdings data.publicKey).elim 0 ProducerHoldings.bondCount =
              (set.getByPubkey ctx.utxo.prim data.publicKey).elim 0
                ProducerInfo.bondCount := by
            rw [WithdrawalParity.holdings_of_heldAs (hmirrors.known _ hkey)]
            cases set.getByPubkey ctx.utxo.prim data.publicKey <;> rfl
          refine ⟨_, inBlock, rfl, by simp [addbondCapStep, Transaction.addBondData, htype], ?_⟩
          have hcharged := (hmirrors.tallyWithdrawn hinj hkey
            ((set.getByPubkey ctx.utxo.prim data.publicKey).elim 0
              ProducerInfo.bondCount)).remember (ctx.utxo.prim.txHash tx)
          simp only [exitStep, hdata, WithdrawalParity.accept, hmirrors.anyActive, htype,
            hheld]
          exact hcharged
      | addBond =>
          simp only [htype] at hname
          obtain ⟨data, hdata, rfl⟩ := Option.map_eq_some_iff.mp hname
          obtain ⟨rfl, hcount, htally⟩ := hmirrors.allow_addBond hcap htype hdata hkey hallow
          refine ⟨_, _, rfl, htally, ?_⟩
          have hadded := (hmirrors.tallyAddBond hinj hkey (requestedBonds tx)).remember
            (ctx.utxo.prim.txHash tx)
          simp only [addBondStep, hdata, WithdrawalParity.accept, hmirrors.anyActive, htype,
            hcount]
          exact hadded
      | requestWithdrawal =>
          simp only [htype] at hname
          obtain ⟨data, hdata, rfl⟩ := Option.map_eq_some_iff.mp hname
          obtain ⟨hreads, hcharge⟩ :=
            hmirrors.allow_withdrawal hgate htype hdata hkey hallow
          refine ⟨_, inBlock, by rw [hcharge],
            by simp [addbondCapStep, Transaction.addBondData, htype], ?_⟩
          have hcharged := (hreads.tallyWithdrawn hinj hkey data.bondCount).remember
            (ctx.utxo.prim.txHash tx)
          simp only [hdata, WithdrawalParity.accept, hreads.anyActive, htype]
          exact hcharged
      | _ => simp [htype] at hname

end Mirrors

/-! ## The block the builder picks -/

section Picked

variable {ctx : BlockContext} {db : StateDb} {set : ProducerSet}
  {candidates offered : List Transaction}

theorem armedParity_mirrors
    (hgate : ctx.utxo.params.withdrawalHoldingsGateActivationHeight ≤ ctx.height) :
    Mirrors ctx db set (namedProducers ctx.utxo.prim candidates) .initial (fun _ => 0)
      ((armedParity ctx).load ctx.utxo.prim set candidates) := by
  have hactive : (armedParity ctx).active = true := by
    simp [armedParity, WithdrawalParity.new, hgate]
  have hany : (armedParity ctx).anyActive = true := by
    simp [WithdrawalParity.anyActive, hactive]
  obtain ⟨hknown, holdings, absent, hload⟩ :=
    WithdrawalParity.load_spec ctx.utxo.prim set candidates hany fun _ => rfl
  refine ⟨?_, ?_, ?_, ?_, hknown, ?_, ?_, ?_, ?_, ?_⟩
  all_goals rw [hload]
  · exact hactive
  · rfl
  · rfl
  · rfl
  · exact fun _ _ => rfl
  · exact fun _ _ => rfl
  · exact fun _ _ => rfl
  · rfl
  · intro owner owned howned
    cases howned

variable (db set) in
/-- Both rules of the gate run through what the builder has picked so far, and their
tallies are the builder's. -/
theorem offers_mirror
    (hgate : ctx.utxo.params.withdrawalHoldingsGateActivationHeight ≤ ctx.height)
    (hcap : ctx.utxo.params.addbondCapEnforcementActivationHeight ≤ ctx.height)
    (hinj : Set.InjOn ctx.utxo.prim.cryptoHash (namedProducers ctx.utxo.prim candidates))
    (hoffered : offered ⊆ candidates) :
    ∃ econ tally,
      run (econStep ctx db set) (selectByHoldings ctx db set candidates offered) .initial =
        .ok econ ∧
      run (addbondCapStep ctx set) (selectByHoldings ctx db set candidates offered)
        (fun _ => 0) = .ok tally := by
  suffices hall : ∃ econ tally,
      run (econStep ctx db set) (offered.foldl (offer ctx db)
        ⟨(armedParity ctx).load ctx.utxo.prim set candidates, []⟩).included .initial =
          .ok econ ∧
      run (addbondCapStep ctx set) (offered.foldl (offer ctx db)
        ⟨(armedParity ctx).load ctx.utxo.prim set candidates, []⟩).included (fun _ => 0) =
          .ok tally ∧
      Mirrors ctx db set (namedProducers ctx.utxo.prim candidates) econ tally
        (offered.foldl (offer ctx db)
          ⟨(armedParity ctx).load ctx.utxo.prim set candidates, []⟩).parity by
    obtain ⟨econ, tally, hecon, htally, -⟩ := hall
    exact ⟨econ, tally, hecon, htally⟩
  refine foldl_invariant (fun _ (selection : HoldingsSelection) => ∃ econ tally,
    run (econStep ctx db set) selection.included .initial = .ok econ ∧
    run (addbondCapStep ctx set) selection.included (fun _ => 0) = .ok tally ∧
    Mirrors ctx db set (namedProducers ctx.utxo.prim candidates) econ tally
      selection.parity) ⟨.initial, fun _ => 0, rfl, rfl, armedParity_mirrors hgate⟩ ?_
  rintro done tx rest selection hsplit ⟨econ, tally, hecon, htally, hmirrors⟩
  have hnamed : ∀ key, namedProducer ctx.utxo.prim tx = some key →
      key ∈ namedProducers ctx.utxo.prim candidates :=
    fun key hname => ⟨tx, hoffered (by simp [hsplit]), hname⟩
  unfold offer
  split
  case h_1 counted hallow =>
    obtain ⟨next, nextTally, hstep, hcounted, hnext⟩ :=
      hmirrors.step hgate hcap hinj hnamed hallow
    refine ⟨next, nextTally, ?_, ?_, hnext⟩
    · exact run_append_ok.mpr ⟨econ, hecon, run_cons_ok.mpr ⟨next, hstep, rfl⟩⟩
    · exact run_append_ok.mpr ⟨tally, htally, run_cons_ok.mpr ⟨nextTally, hcounted, rfl⟩⟩
  case h_2 skip counted hallow =>
    exact ⟨econ, tally, hecon, htally, hmirrors.allow_keeps hnamed hallow⟩

/-- The block the builder picks is within the cap on added bonds and passes the rules on
holdings and vesting: the gate admits it where its two rules on slashes do. -/
theorem parity_admits
    (hgate : ctx.utxo.params.withdrawalHoldingsGateActivationHeight ≤ ctx.height)
    (hcap : ctx.utxo.params.addbondCapEnforcementActivationHeight ≤ ctx.height)
    (hinj : Set.InjOn ctx.utxo.prim.cryptoHash (namedProducers ctx.utxo.prim candidates))
    (hoffered : offered ⊆ candidates) :
    checkBlockAddbondCap ctx set (selectByHoldings ctx db set candidates offered) = .ok () ∧
      (checkWithdrawalEconomics ctx db set
          (selectByHoldings ctx db set candidates offered) = .ok () ↔
        checkSlashedWithdrawals ctx set
            (selectByHoldings ctx db set candidates offered) = .ok () ∧
          checkSlashBondSpend ctx db
            (selectByHoldings ctx db set candidates offered) = .ok ()) := by
  obtain ⟨econ, tally, hecon, htally⟩ :=
    offers_mirror db set hgate hcap hinj hoffered
  have hpass : economicsPass ctx db set (selectByHoldings ctx db set candidates offered) =
      .ok () := by
    unfold economicsPass
    rw [hecon, ite_self]
  constructor
  · unfold checkBlockAddbondCap
    rw [if_pos hcap, htally]
  · unfold checkWithdrawalEconomics
    rw [hpass]
    cases checkSlashedWithdrawals ctx set
        (selectByHoldings ctx db set candidates offered) with
    | error error => simp
    | ok value =>
        cases checkSlashBondSpend ctx db
            (selectByHoldings ctx db set candidates offered) with
        | error error => simp
        | ok value => simp

end Picked

/-! ## On given producers -/

/-- The producer withdraws all of its bonds while a slash of it waits in the queue. -/
def sampleSlashedLedger : ProducerSet :=
  { sampleLedger 3 0 with pendingUpdates := [.slash sampleKey 4] }

theorem parity_admits_sample :
    checkBlockAddbondCap sampleBlockContext (sampleLedger 5 1)
        (selectByHoldings sampleBlockContext (sampleBondDb sampleKey 5) (sampleLedger 5 1)
          (addAndWithdraw 3) (addAndWithdraw 3)) = .ok () ∧
      checkWithdrawalEconomics sampleBlockContext (sampleBondDb sampleKey 5)
        (sampleLedger 5 1)
        (selectByHoldings sampleBlockContext (sampleBondDb sampleKey 5) (sampleLedger 5 1)
          (addAndWithdraw 3) (addAndWithdraw 3)) = .ok () := by
  have hnamed : ∀ tx ∈ addAndWithdraw 3,
      namedProducer sampleBlockContext.utxo.prim tx = some sampleKey := by decide +kernel
  constructor
  · exact (parity_admits (by decide) (by decide) (injOn_of_named hnamed)
      (List.Subset.refl _)).1
  · exact (parity_admits (by decide) (by decide) (injOn_of_named hnamed)
      (List.Subset.refl _)).2.mpr ⟨by decide +kernel, by decide +kernel⟩

/-- The builder asks nothing about slashes: it picks a withdrawal of a producer whose
slash is queued, and the gate refuses the block. -/
theorem slashed_withdrawal_picked :
    selectByHoldings sampleBlockContext (sampleBondDb sampleKey 3) sampleSlashedLedger
        [sampleWithdrawal sampleKey 3 3] [sampleWithdrawal sampleKey 3 3] =
      [sampleWithdrawal sampleKey 3 3] ∧
    checkWithdrawalEconomics sampleBlockContext (sampleBondDb sampleKey 3)
        sampleSlashedLedger [sampleWithdrawal sampleKey 3 3] =
      .error (.withdrawalSlashed (samplePrimitives.cryptoHash sampleKey)) := by
  decide +kernel

end Doli.Node
