import Doli.Core.Pool
import Doli.Validation.PoolChange

/-!
# What the rule of a swap binds

The rule compares the products of the reserves and not the price.  What a trader takes out
is bounded by the price without the fee, and the released amounts are computed by `u64`
operations that nothing guards.
-/

namespace Doli.Validation

open Doli.Core Doli.Lib Doli.Storage

/-- What an accepted swap has declared about the pool it consumed. -/
structure SwapChecked (tx : Transaction) (oldPool newPool : PoolMetadata) : Prop where
  product : oldPool.reserveA * oldPool.reserveB ≤ newPool.reserveA * newPool.reserveB
  released : checkReleased tx oldPool newPool = .ok ()
  left : newPool.reserveA ≠ 0 ∧ newPool.reserveB ≠ 0

theorem swapChecked_of_checkSwapState {tx : Transaction} {consumed : List Output}
    {oldPool newPool : PoolMetadata} (hold : consumed[0]?.bind Output.poolMetadata = some oldPool)
    (hnew : declaredPool tx = some newPool) (hok : checkSwapState tx consumed = .ok ()) :
    SwapChecked tx oldPool newPool := by
  simp only [checkSwapState, bind_eq_ok, exists_unit, orRefuse_eq_ok, refuseIf_eq_ok,
    not_lt, not_or] at hok
  obtain ⟨first, hfirst, -, found, hfound, declared, hdeclared, -, -, -, -, hproduct, hreleased,
    hleft⟩ := hok
  rw [hfirst, Option.bind_some, hfound] at hold
  rw [hdeclared] at hnew
  cases hold
  cases hnew
  exact ⟨hproduct, hreleased, hleft⟩

theorem checkSwapState_of_accepted {ctx : SpendingContext} {tx : Transaction}
    {lookup : Outpoint → Option UtxoEntry} (htype : tx.txType = .swap)
    (hok : ctx.validateTransactionWithUtxos tx lookup = .ok ()) :
    checkSwapState tx (consumedOutputs tx lookup) = .ok () := by
  have hspends : Spends ctx tx (consumedOutputs tx lookup) := by
    simpa [Transaction.isCoinbase, Transaction.isEpochReward, htype] using accepted_cases hok
  have hstate := hspends.typeState
  rwa [checkTypeState, htype] at hstate

/-! ## The price -/

theorem taken_le_payout {into out intoNew outNew : Nat} (hproduct : into * out ≤ intoNew * outNew)
    (hgrown : into < intoNew) : out - outNew ≤ payout into out (intoNew - into) := by
  by_cases hle : outNew ≤ out
  · have hinto : into + (intoNew - into) = intoNew := Nat.add_sub_cancel' hgrown.le
    rw [← product_le_iff (by omega) (Nat.sub_le out outNew), hinto, Nat.sub_sub_self hle]
    exact hproduct
  · rw [Nat.sub_eq_zero_of_le (Nat.le_of_not_le hle)]
    exact Nat.zero_le _

theorem computeSwap_free {reserveA reserveB dx dy reserveANew reserveBNew : Nat}
    (hreserveA : reserveA < 2 ^ 64) (hreserveB : reserveB < 2 ^ 64) (hdx : dx < 2 ^ 64)
    (hswap : computeSwap reserveA reserveB dx 0 = some (dy, reserveANew, reserveBNew)) :
    dy = payout reserveA reserveB dx := by
  have hpriced := (computeSwap_eq_some hreserveA hreserveB hdx (Nat.zero_le _) hswap).1
  rw [hpriced.paid, effectiveInput_free hdx]

/-- No product of reserves falls, and what one of them loses is at most the price of what
the other gains, without the fee. -/
theorem swap_within_free_price {ctx : SpendingContext} {tx : Transaction}
    {lookup : Outpoint → Option UtxoEntry} {oldPool newPool : PoolMetadata}
    (htype : tx.txType = .swap) (hok : ctx.validateTransactionWithUtxos tx lookup = .ok ())
    (hold : (consumedOutputs tx lookup)[0]?.bind Output.poolMetadata = some oldPool)
    (hnew : declaredPool tx = some newPool) :
    verifyInvariant oldPool.reserveA oldPool.reserveB newPool.reserveA newPool.reserveB = true ∧
      (oldPool.reserveA < newPool.reserveA →
        oldPool.reserveB - newPool.reserveB ≤
            payout oldPool.reserveA oldPool.reserveB (newPool.reserveA - oldPool.reserveA) ∧
          ∀ dy reserveA reserveB,
            computeSwap oldPool.reserveA oldPool.reserveB
              (newPool.reserveA - oldPool.reserveA) 0 = some (dy, reserveA, reserveB) →
                oldPool.reserveB - newPool.reserveB ≤ dy) ∧
      (oldPool.reserveB < newPool.reserveB →
        oldPool.reserveA - newPool.reserveA ≤
            payout oldPool.reserveB oldPool.reserveA (newPool.reserveB - oldPool.reserveB) ∧
          ∀ dy reserveB reserveA,
            computeSwap oldPool.reserveB oldPool.reserveA
              (newPool.reserveB - oldPool.reserveB) 0 = some (dy, reserveB, reserveA) →
                oldPool.reserveA - newPool.reserveA ≤ dy) := by
  have hchecked := swapChecked_of_checkSwapState hold hnew (checkSwapState_of_accepted htype hok)
  obtain ⟨first, -, hfound⟩ := Option.bind_eq_some_iff.mp hold
  have hfits := Output.poolMetadata_fits hfound
  obtain ⟨output, -, hdeclared⟩ := Option.bind_eq_some_iff.mp hnew
  have hdeclaredFits := Output.poolMetadata_fits hdeclared
  refine ⟨decide_eq_true hchecked.product, ?_, ?_⟩
  · intro hgrown
    have htaken := taken_le_payout hchecked.product hgrown
    refine ⟨htaken, fun dy reserveA reserveB hswap => ?_⟩
    have hdx : newPool.reserveA - oldPool.reserveA < 2 ^ 64 :=
      (Nat.sub_le _ _).trans_lt hdeclaredFits.reserveA
    exact htaken.trans_eq (computeSwap_free hfits.reserveA hfits.reserveB hdx hswap).symm
  · intro hgrown
    have hproduct := hchecked.product
    rw [Nat.mul_comm oldPool.reserveA, Nat.mul_comm newPool.reserveA] at hproduct
    have htaken := taken_le_payout hproduct hgrown
    refine ⟨htaken, fun dy reserveB reserveA hswap => ?_⟩
    have hdx : newPool.reserveB - oldPool.reserveB < 2 ^ 64 :=
      (Nat.sub_le _ _).trans_lt hdeclaredFits.reserveB
    exact htaken.trans_eq (computeSwap_free hfits.reserveB hfits.reserveA hdx hswap).symm

def sampleBuy (declared : PoolMetadata) (tokens : Nat) : Transaction where
  version := 1
  txType := .swap
  inputs := [sampleSpend 0 ⟨⟨10⟩, 0⟩, sampleSpend 1 ⟨⟨9⟩, 0⟩]
  outputs := [.pool declared, sampleTokens tokens, samplePaid 4600]
  extraData := []

def sampleBought : PoolMetadata :=
  { samplePoolRecord with reserveA := 4400, reserveB := 7273 }

/-- The price without the fee, which the pool asks thirty basis points of. -/
def sampleFreeBuy : Transaction :=
  sampleBuy sampleBought 727

theorem sampleFreeBuy_accepted :
    sampleSpendingContext.validateTransactionWithUtxos sampleFreeBuy sampleLookup = .ok () ∧
      (consumedOutputs sampleFreeBuy sampleLookup)[0]?.bind Output.poolMetadata =
        some samplePoolRecord ∧
      declaredPool sampleFreeBuy = some sampleBought :=
  ⟨by decide +kernel, by decide +kernel, by decide +kernel⟩

theorem swap_above_price :
    sampleSpendingContext.validateTransactionWithUtxos sampleFreeBuy sampleLookup = .ok () ∧
      (consumedOutputs sampleFreeBuy sampleLookup)[0]?.bind Output.poolMetadata =
        some samplePoolRecord ∧
      declaredPool sampleFreeBuy = some sampleBought ∧
      sampleBought.reserveA = samplePoolRecord.reserveA + 400 ∧
      computeSwap samplePoolRecord.reserveA samplePoolRecord.reserveB 400
        samplePoolRecord.feeBps = some (723, 4400, 7277) ∧
      723 < samplePoolRecord.reserveB - sampleBought.reserveB := by
  obtain ⟨haccepted, hold, hnew⟩ := sampleFreeBuy_accepted
  exact ⟨haccepted, hold, hnew, by decide, by decide +kernel, by decide⟩

theorem swap_within_free_price_sample :
    samplePoolRecord.reserveB - sampleBought.reserveB ≤
        payout samplePoolRecord.reserveA samplePoolRecord.reserveB
          (sampleBought.reserveA - samplePoolRecord.reserveA) ∧
      payout samplePoolRecord.reserveA samplePoolRecord.reserveB
        (sampleBought.reserveA - samplePoolRecord.reserveA) = 727 := by
  obtain ⟨haccepted, hold, hnew⟩ := sampleFreeBuy_accepted
  exact ⟨((swap_within_free_price rfl haccepted hold hnew).2.1 (by decide)).1, by decide⟩

/-! ## The arithmetic of the release -/

/-- The amounts that the release check adds up. -/
def receivedTokens (tx : Transaction) : List Nat :=
  ((tx.outputs.drop 1).filter fun output => output.outputType = .fungibleAsset).map
    Output.amount

/-- The two sides that the release check compares, in the direction of the swap. -/
def releaseSides (arith : WordArith) (tx : Transaction) (oldPool newPool : PoolMetadata) :
    Option (Nat × Nat) :=
  if oldPool.reserveA < newPool.reserveA then do
    let tokensOut ← arith.sub oldPool.reserveB newPool.reserveB
    let tokensToUser ← arith.sum (receivedTokens tx) 0
    some (tokensOut, tokensToUser)
  else if oldPool.reserveB < newPool.reserveB then do
    let doliOut ← arith.sub oldPool.reserveA newPool.reserveA
    some (doliOut, oldPool.reserveA)
  else some (0, 0)

/-- Every subtraction and every addition of the check is exact. -/
def ReleaseExact (tx : Transaction) (oldPool newPool : PoolMetadata) : Prop :=
  (releaseSides (.checked (2 ^ 64)) tx oldPool newPool).isSome

section

variable {tx : Transaction} {oldPool newPool : PoolMetadata}

theorem total_received (outputs : List Output) :
    total Output.amount outputs = (outputs.map Output.amount).sum := rfl

theorem checkReleased_iff (hold : oldPool.Fits) (hnew : newPool.Fits) :
    checkReleased tx oldPool newPool = .ok () ↔
      ∃ sides, releaseSides (.wrapping (2 ^ 64)) tx oldPool newPool = some sides ∧
        (oldPool.reserveA < newPool.reserveA → sides.2 = sides.1) ∧
        (¬ oldPool.reserveA < newPool.reserveA → sides.1 ≤ sides.2) := by
  have hreserveB := hnew.reserveB
  unfold checkReleased releaseSides
  dsimp only
  by_cases hbuys : oldPool.reserveA < newPool.reserveA
  · have hsub : (WordArith.wrapping (2 ^ 64)).sub oldPool.reserveB newPool.reserveB =
        some ((2 ^ 64 + oldPool.reserveB - newPool.reserveB) % 2 ^ 64) := by
      simp only [WordArith.wrapping, Nat.mod_eq_of_lt hreserveB]
      congr 2
      omega
    rw [if_pos hbuys, if_pos hbuys, hsub, WordArith.wrapping_sum _ (by norm_num), Nat.zero_add,
      refuseIf_eq_ok, not_not, total_received]
    simp [hbuys, receivedTokens]
  · have hsub : (WordArith.wrapping (2 ^ 64)).sub oldPool.reserveA newPool.reserveA =
        some (oldPool.reserveA - newPool.reserveA) :=
      (WordArith.wrapping_sound _).sub_exact (Nat.le_of_not_lt hbuys) hold.reserveA
    rw [if_neg hbuys, if_neg hbuys, hsub, refuseIf_eq_ok]
    by_cases hsells : oldPool.reserveB < newPool.reserveB
    · simp [hbuys, hsells]
    · simp [hbuys, hsells]

theorem releaseExact_iff :
    ReleaseExact tx oldPool newPool ↔
      ¬ (oldPool.reserveA < newPool.reserveA ∧ oldPool.reserveB < newPool.reserveB) ∧
        (oldPool.reserveA < newPool.reserveA → (receivedTokens tx).sum < 2 ^ 64) := by
  have hsub := @WordArith.isSome_checked_sub (2 ^ 64) oldPool.reserveB newPool.reserveB
  have hsum := @WordArith.isSome_checked_sum (2 ^ 64) (receivedTokens tx) (by norm_num)
  unfold ReleaseExact releaseSides
  by_cases hbuys : oldPool.reserveA < newPool.reserveA
  · rw [if_pos hbuys]
    have hboth : (do
        let tokensOut ← (WordArith.checked (2 ^ 64)).sub oldPool.reserveB newPool.reserveB
        let tokensToUser ← (WordArith.checked (2 ^ 64)).sum (receivedTokens tx) 0
        some (tokensOut, tokensToUser)).isSome ↔
          newPool.reserveB ≤ oldPool.reserveB ∧ (receivedTokens tx).sum < 2 ^ 64 := by
      rw [← hsub, ← hsum]
      cases (WordArith.checked (2 ^ 64)).sub oldPool.reserveB newPool.reserveB with
      | none => simp
      | some tokensOut =>
          cases (WordArith.checked (2 ^ 64)).sum (receivedTokens tx) 0 with
          | none => simp
          | some tokensToUser => simp
    rw [hboth]
    simp [hbuys]
  · rw [if_neg hbuys]
    by_cases hsells : oldPool.reserveB < newPool.reserveB
    · rw [if_pos hsells]
      have hpaid : ((WordArith.checked (2 ^ 64)).sub oldPool.reserveA newPool.reserveA) =
          some (oldPool.reserveA - newPool.reserveA) :=
        WordArith.checked_sub.mpr ⟨Nat.le_of_not_lt hbuys, rfl⟩
      rw [hpaid]
      simp [hbuys]
    · simp [hbuys, hsells]

theorem ReleaseExact.conserved (hexact : ReleaseExact tx oldPool newPool) (hold : oldPool.Fits)
    (hnew : newPool.Fits) (hreleased : checkReleased tx oldPool newPool = .ok ())
    (hbuys : oldPool.reserveA < newPool.reserveA) :
    (receivedTokens tx).sum + newPool.reserveB = oldPool.reserveB := by
  obtain ⟨hone, hfits⟩ := releaseExact_iff.mp hexact
  have hle : newPool.reserveB ≤ oldPool.reserveB :=
    Nat.le_of_not_lt fun hgrown => hone ⟨hbuys, hgrown⟩
  obtain ⟨sides, hsides, hequal, -⟩ := (checkReleased_iff hold hnew).mp hreleased
  have hsub := (WordArith.wrapping_sound (2 ^ 64)).sub_exact hle hold.reserveB
  have hsum : (WordArith.wrapping (2 ^ 64)).sum (receivedTokens tx) 0 =
      some (0 + (receivedTokens tx).sum) :=
    (WordArith.wrapping_sound _).sum_exact ((Nat.zero_add _).trans_lt (hfits hbuys))
  rw [releaseSides, if_pos hbuys, hsub, hsum] at hsides
  cases hsides
  have hsame := hequal hbuys
  dsimp only at hsame
  omega

end

/-- The arithmetic of an accepted swap is exact if and only if not both of its reserves
grow and the tokens it buys fit a `u64`; the pool then releases what is bought. -/
theorem swap_release_exact_iff {tx : Transaction} {consumed : List Output}
    {oldPool newPool : PoolMetadata} (hold : consumed[0]?.bind Output.poolMetadata = some oldPool)
    (hnew : declaredPool tx = some newPool) (hok : checkSwapState tx consumed = .ok ()) :
    (ReleaseExact tx oldPool newPool ↔
        ¬ (oldPool.reserveA < newPool.reserveA ∧ oldPool.reserveB < newPool.reserveB) ∧
          (oldPool.reserveA < newPool.reserveA → (receivedTokens tx).sum < 2 ^ 64)) ∧
      (ReleaseExact tx oldPool newPool → oldPool.reserveA < newPool.reserveA →
        (receivedTokens tx).sum + newPool.reserveB = oldPool.reserveB) := by
  obtain ⟨first, -, hfound⟩ := Option.bind_eq_some_iff.mp hold
  obtain ⟨output, -, hdeclared⟩ := Option.bind_eq_some_iff.mp hnew
  have hchecked := swapChecked_of_checkSwapState hold hnew hok
  exact ⟨releaseExact_iff, fun hexact hbuys => hexact.conserved
    (Output.poolMetadata_fits hfound) (Output.poolMetadata_fits hdeclared) hchecked.released hbuys⟩

/-- Tokens of which more than a `u64` holds are in the set. -/
def sampleHoard (outpoint : Outpoint) : Option UtxoEntry :=
  if outpoint = ⟨⟨9⟩, 2⟩ ∨ outpoint = ⟨⟨9⟩, 3⟩ then
    some ⟨sampleTokens (2 ^ 63), 1, false, false⟩
  else sampleLookup outpoint

def sampleGrown : PoolMetadata :=
  { samplePoolRecord with reserveA := 4400, reserveB := 8001 }

def sampleGrowth : Transaction where
  version := 1
  txType := .swap
  inputs := [sampleSpend 0 ⟨⟨10⟩, 0⟩, sampleSpend 1 ⟨⟨9⟩, 0⟩, sampleSpend 1 ⟨⟨9⟩, 2⟩,
    sampleSpend 1 ⟨⟨9⟩, 3⟩]
  outputs := [.pool sampleGrown, sampleTokens (2 ^ 64 - 1), samplePaid 4600]
  extraData := []

theorem growth_accepted_inexact :
    sampleSpendingContext.validateTransactionWithUtxos sampleGrowth sampleHoard = .ok () ∧
      (consumedOutputs sampleGrowth sampleHoard)[0]?.bind Output.poolMetadata =
        some samplePoolRecord ∧
      declaredPool sampleGrowth = some sampleGrown ∧
      ¬ ReleaseExact sampleGrowth samplePoolRecord sampleGrown := by
  refine ⟨by decide +kernel, by decide +kernel, by decide +kernel, ?_⟩
  rw [releaseExact_iff]
  exact fun hexact => hexact.1 (by decide)

theorem swap_release_exact_iff_sample :
    ReleaseExact sampleFreeBuy samplePoolRecord sampleBought ∧
      (receivedTokens sampleFreeBuy).sum + sampleBought.reserveB = samplePoolRecord.reserveB := by
  obtain ⟨haccepted, hold, hnew⟩ := sampleFreeBuy_accepted
  have hiff := swap_release_exact_iff hold hnew (checkSwapState_of_accepted rfl haccepted)
  have hexact := hiff.1.mpr ⟨by decide, fun _ => by decide +kernel⟩
  exact ⟨hexact, hiff.2 hexact (by decide)⟩

end Doli.Validation
