import Doli.Node.ProcessUtxos
import Doli.Validation.CoinbaseCredit

/-!
# The economics of a block

What `validate_block_economics` asks of the coinbase and of the EpochReward: how much DOLI
the first transaction may mint, and which distribution of the reward pool a boundary block
may carry.  The withdrawals and the bond caps have modules of their own.
-/

namespace Doli.Node

open Doli.Core Doli.Lib Doli.Storage
open Doli.Validation (txCoinbaseCredit paysExtraFees)

inductive BlockEconomicsError where
  | coinbaseMissing (height : Nat)
  | coinbaseInvalid (height : Nat)
  | extraCoinbase (index height : Nat)
  | coinbaseAmount (amount expected base extraFees height : Nat)
  | coinbaseRecipient (recipient pool : Hash) (height : Nat)
  | epochNotBoundary (height blocksPerEpoch : Nat)
  | epochUnderflow (height blocksPerEpoch : Nat)
  | epochZero (height : Nat)
  | epochDuplicate (count height : Nat)
  | epochExtraData (length height : Nat)
  | epochHeight (embedded height : Nat)
  | epochNumber (embedded completed height : Nat)
  | epochOverflow (distributed balance height : Nat)
  | epochDistribution (height expectedCount expectedTotal actualCount actualTotal : Nat)
  | epochNoInputs (height : Nat)
  | epochInputsMismatch (height : Nat)
  | epochPreInputs (height : Nat)
  | epochMissing (height completedEpoch expectedCount : Nat)
  deriving DecidableEq, Repr

/-- `ConsensusParams`, as far as the reward needs it. -/
structure RewardParams where
  initialReward : Nat
  blocksPerEra : Nat

namespace RewardParams

variable (params : RewardParams)

/-- The era is clamped to a `u32`. -/
def heightToEra (height : Nat) : Nat :=
  min (height / params.blocksPerEra) (2 ^ 32 - 1)

def blockReward (height : Nat) : Nat :=
  if 64 ≤ params.heightToEra height then 0
  else params.initialReward / 2 ^ params.heightToEra height

end RewardParams

/-- What the checks read besides the block: the rows of the reward pool, and what the node
computes for the completed epoch, if its store has the blocks of it. -/
structure EconomicsContext where
  prim : Primitives
  network : NetworkParams
  rewards : RewardParams
  incI233ActivationHeight : Nat
  height : Nat
  mode : ValidationMode
  poolRows : List (Outpoint × UtxoEntry)
  epochRewards : Option (List (Nat × Hash))

namespace EconomicsContext

variable (econ : EconomicsContext)

def exemptGateActive : Bool :=
  econ.incI233ActivationHeight ≤ econ.height

def baseReward : Nat :=
  econ.rewards.blockReward econ.height

/-! ## Coinbase -/

def extraFees (txs : List Transaction) : Nat :=
  total (txCoinbaseCredit econ.exemptGateActive) (txs.filter paysExtraFees) % 2 ^ 64

def expectedWithFees (txs : List Transaction) : Nat :=
  (econ.baseReward + econ.extraFees txs) % 2 ^ 64

/-- The first transaction, with its one output. -/
def coinbaseOf (txs : List Transaction) : Except BlockEconomicsError Output := do
  let coinbase ← orRefuse txs.head? (.coinbaseMissing econ.height)
  refuseIf (coinbase.isCoinbase = false) (.coinbaseInvalid econ.height)
  orRefuse coinbase.outputs[0]? (.coinbaseInvalid econ.height)

/-- Without fees the amount is that of an older version, and accepted as well. -/
def checkCoinbaseOutput (txs : List Transaction) (output : Output) :
    Except BlockEconomicsError Unit := do
  refuseIf (output.amount ≠ econ.expectedWithFees txs ∧ output.amount ≠ econ.baseReward)
    (.coinbaseAmount output.amount (econ.expectedWithFees txs) econ.baseReward
      (econ.extraFees txs) econ.height)
  refuseIf (output.pubkeyHash ≠ rewardPoolPubkeyHash econ.prim)
    (.coinbaseRecipient output.pubkeyHash (rewardPoolPubkeyHash econ.prim) econ.height)

def checkCoinbase (txs : List Transaction) : Except BlockEconomicsError Output := do
  let output ← econ.coinbaseOf txs
  checkEach (fun row => refuseIf (row.1.isCoinbase = true) (.extraCoinbase row.2 econ.height))
    (txs.zipIdx.drop 1)
  econ.checkCoinbaseOutput txs output
  return output

/-! ## EpochReward -/

def blocksPerEpoch : Nat := econ.network.blocksPerRewardEpoch

def isEpochBoundary : Bool :=
  0 < econ.height && !econ.network.isInGenesis econ.height &&
    decide (econ.blocksPerEpoch ∣ econ.height)

def completedEpoch : Nat := econ.height / econ.blocksPerEpoch - 1

/-- All rows of the pool count, whatever their type.  Below the explicit inputs the
coinbase of the block is distributed as well. -/
def poolBalance (coinbaseAmount : Nat) : Nat :=
  let held := total (fun row => row.2.output.amount) econ.poolRows % 2 ^ 64
  if epochRewardExplicitInputsHeight ≤ econ.height then held
  else (held + coinbaseAmount) % 2 ^ 64

def rewardLe (left right : Nat × Hash) : Prop :=
  left.2.word.toNat < right.2.word.toNat ∨ left.2 = right.2 ∧ left.1 ≤ right.1

instance : DecidableRel rewardLe := fun left right =>
  inferInstanceAs (Decidable (left.2.word.toNat < right.2.word.toNat ∨
    left.2 = right.2 ∧ left.1 ≤ right.1))

def outpointLe (left right : Outpoint) : Prop :=
  left.txHash.word.toNat < right.txHash.word.toNat ∨
    left.txHash = right.txHash ∧ left.index ≤ right.index

instance : DecidableRel outpointLe := fun left right =>
  inferInstanceAs (Decidable (left.txHash.word.toNat < right.txHash.word.toNat ∨
    left.txHash = right.txHash ∧ left.index ≤ right.index))

/-- `amount, pubkey_hash` of every output. -/
def distributed (tx : Transaction) : List (Nat × Hash) :=
  tx.outputs.map fun output => (output.amount, output.pubkeyHash)

def poolInputs : List Outpoint :=
  (econ.poolRows.map Prod.fst).insertionSort outpointLe

/-- The wire fields of the one EpochReward of a boundary block. -/
def checkEpochFields (count : Nat) (tx : Transaction) : Except BlockEconomicsError Unit := do
  refuseIf (econ.isEpochBoundary = false) (.epochNotBoundary econ.height econ.blocksPerEpoch)
  refuseIf (econ.height / econ.blocksPerEpoch = 0)
    (.epochUnderflow econ.height econ.blocksPerEpoch)
  refuseIf (econ.completedEpoch = 0) (.epochZero econ.height)
  refuseIf (count ≠ 1) (.epochDuplicate count econ.height)
  refuseIf (tx.extraData.length < 16) (.epochExtraData tx.extraData.length econ.height)
  refuseIf (leNat (slice tx.extraData 0 8) ≠ econ.height)
    (.epochHeight (leNat (slice tx.extraData 0 8)) econ.height)
  refuseIf (leNat (slice tx.extraData 8 16) ≠ econ.completedEpoch)
    (.epochNumber (leNat (slice tx.extraData 8 16)) econ.completedEpoch econ.height)

def checkEpochTotal (coinbaseAmount : Nat) (tx : Transaction) :
    Except BlockEconomicsError Unit :=
  let sum := total Output.amount tx.outputs % 2 ^ 64
  refuseIf (econ.poolBalance coinbaseAmount < sum ∧ econ.mode ≠ .replay)
    (.epochOverflow sum (econ.poolBalance coinbaseAmount) econ.height)

/-- Full mode compares with the rewards of its own, where it has them. -/
def checkDistribution (tx : Transaction) : Except BlockEconomicsError Unit :=
  checkWhen (decide (econ.mode = .full))
    (match econ.epochRewards with
    | none => .ok ()
    | some expected =>
        refuseIf (expected.insertionSort rewardLe ≠ (distributed tx).insertionSort rewardLe)
          (.epochDistribution econ.height expected.length
            (total Prod.fst expected % 2 ^ 64) tx.outputs.length
            (total Output.amount tx.outputs % 2 ^ 64)))

/-- The whole pool is spent, in the order of the outpoints. -/
def checkPoolInputs (tx : Transaction) : Except BlockEconomicsError Unit :=
  if econ.mode = .replay then .ok ()
  else if epochRewardExplicitInputsHeight ≤ econ.height then do
    refuseIf (tx.inputs = []) (.epochNoInputs econ.height)
    refuseIf (tx.inputs.map inputOutpoint ≠ econ.poolInputs) (.epochInputsMismatch econ.height)
  else refuseIf (tx.inputs ≠ []) (.epochPreInputs econ.height)

/-- A full node that knows the rewards of the epoch does not let them be left out. -/
def checkEpochMissing : Except BlockEconomicsError Unit :=
  checkWhen (econ.isEpochBoundary && decide (econ.mode = .full) &&
      decide (0 < econ.completedEpoch))
    (match econ.epochRewards with
    | none => .ok ()
    | some expected =>
        refuseIf (expected ≠ [])
          (.epochMissing econ.height econ.completedEpoch expected.length))

def checkEpochReward (txs : List Transaction) (coinbaseAmount : Nat) :
    Except BlockEconomicsError Unit :=
  match txs.filter Transaction.isEpochReward with
  | [] => econ.checkEpochMissing
  | tx :: rest => do
      econ.checkEpochFields (rest.length + 1) tx
      econ.checkEpochTotal coinbaseAmount tx
      econ.checkDistribution tx
      econ.checkPoolInputs tx

/-- The coinbase part and the EpochReward part of `validate_block_economics`. -/
def validateBlockEconomics (txs : List Transaction) : Except BlockEconomicsError Unit := do
  let output ← econ.checkCoinbase txs
  econ.checkEpochReward txs output.amount

/-! ## What acceptance gives -/

variable {econ} {txs : List Transaction}

/-- Only the first transaction mints, and no more than the reward and the credits of the
others. -/
structure MintsWithin (econ : EconomicsContext) (coinbase : Transaction)
    (others : List Transaction) : Prop where
  isCoinbase : coinbase.isCoinbase = true
  output : ∃ output, coinbase.outputs = [output] ∧
    output.amount ≤ econ.baseReward +
      total (txCoinbaseCredit econ.exemptGateActive) (others.filter paysExtraFees)
  alone : ∀ tx ∈ others, tx.isCoinbase = false

theorem checkCoinbaseOutput_amount {output : Output}
    (hok : econ.checkCoinbaseOutput txs output = .ok ()) :
    output.amount ≤ econ.baseReward +
      total (txCoinbaseCredit econ.exemptGateActive) (txs.filter paysExtraFees) := by
  simp only [checkCoinbaseOutput, seq_eq_ok, refuseIf_eq_ok] at hok
  have hextra := Nat.mod_le
    (total (txCoinbaseCredit econ.exemptGateActive) (txs.filter paysExtraFees)) (2 ^ 64)
  have hsum := Nat.mod_le (econ.baseReward + econ.extraFees txs) (2 ^ 64)
  unfold expectedWithFees extraFees at hok hsum
  omega

theorem filter_paysExtraFees_cons {coinbase : Transaction} {others : List Transaction}
    (hcoinbase : coinbase.isCoinbase = true) :
    (coinbase :: others).filter paysExtraFees = others.filter paysExtraFees := by
  have hfree : paysExtraFees coinbase = false := by simp [paysExtraFees, hcoinbase]
  rw [List.filter_cons, hfree, if_neg Bool.false_ne_true]

theorem mintsWithin_of_checkCoinbase {output : Output}
    (hok : econ.checkCoinbase txs = .ok output) :
    ∃ coinbase others, txs = coinbase :: others ∧ MintsWithin econ coinbase others := by
  simp only [checkCoinbase, bind_eq_ok, exists_unit, coinbaseOf] at hok
  obtain ⟨found, ⟨coinbase, hhead, hcoinbase, houtput⟩, halone, hamount, -⟩ := hok
  rw [orRefuse_eq_ok] at hhead houtput
  simp only [refuseIf_eq_ok, Bool.not_eq_false] at hcoinbase
  cases txs with
  | nil => contradiction
  | cons first others =>
      obtain rfl := Option.some.inj hhead
      refine ⟨first, others, rfl, hcoinbase, ?_, ?_⟩
      · have hlength := (Transaction.isCoinbase_iff.mp hcoinbase).2.2
        obtain ⟨only, honly⟩ := List.length_eq_one_iff.mp hlength
        rw [honly] at houtput
        obtain rfl := Option.some.inj houtput
        refine ⟨only, honly, ?_⟩
        have hbound := checkCoinbaseOutput_amount hamount
        rwa [filter_paysExtraFees_cons hcoinbase] at hbound
      · intro tx htx
        have hrows : ((first :: others).zipIdx.drop 1) = others.zipIdx 1 := rfl
        rw [hrows] at halone
        obtain ⟨position, hrow⟩ := checkEach_zipIdx_ok halone htx
        simpa using hrow

theorem explicitInputs (height : Nat) : epochRewardExplicitInputsHeight ≤ height :=
  Nat.zero_le height

theorem inputs_of_checkEpochReward {coinbaseAmount : Nat}
    (hok : econ.checkEpochReward txs coinbaseAmount = .ok ()) (hlive : econ.mode ≠ .replay)
    {tx : Transaction} (htx : tx ∈ txs) (hreward : tx.isEpochReward = true) :
    tx.inputs ≠ [] := by
  have hmem : tx ∈ txs.filter Transaction.isEpochReward := List.mem_filter.mpr ⟨htx, hreward⟩
  unfold checkEpochReward at hok
  split at hok
  case h_1 hnone => simp [hnone] at hmem
  case h_2 first rest hrows =>
    simp only [seq_eq_ok] at hok
    have hcount : rest.length + 1 = 1 := by
      have hfields := hok.1
      simp only [checkEpochFields, seq_eq_ok, refuseIf_eq_ok] at hfields
      omega
    have hrest : rest = [] := List.length_eq_zero_iff.mp (by omega)
    rw [hrows, hrest, List.mem_singleton] at hmem
    rw [hmem]
    have hinputs := hok.2.2.2
    unfold checkPoolInputs at hinputs
    rw [if_neg hlive, if_pos (explicitInputs econ.height)] at hinputs
    simp only [seq_eq_ok, refuseIf_eq_ok] at hinputs
    exact hinputs.1

end EconomicsContext

end Doli.Node
