import Doli.Core.Metadata
import Doli.Core.Payload
import Doli.Lib.Newton
import Doli.Lib.Overflow
import Doli.Lib.Reserves
import Mathlib.Tactic.NormNum

/-!
# Pools

The arithmetic of a pool, its derived ids, and what one output is worth in DOLI, in a
fungible asset and in shares of a pool.
-/

namespace Doli.Core

open Doli.Lib

def poolIdDomain : Bytes := ascii "DOLI_POOL_V2"

def poolMaxFeeBps : Nat := 1000

def minimumLiquidity : Nat := 1000

def lpShareVersion : Nat := 1

def lpShareMetadataSize : Nat := 33

/-! ## Arithmetic -/

/-- The quotients are cast to a `u64`. -/
def computeLpShares (amountA amountB reserveA reserveB totalShares : Nat) : Option Nat :=
  if reserveA = 0 ∨ reserveB = 0 ∨ totalShares = 0 then none
  else
    let shares := min (amountA * totalShares / reserveA) (amountB * totalShares / reserveB)
    if shares % 2 ^ 64 = 0 then none else some (shares % 2 ^ 64)

def computeRemoveLiquidity (shares reserveA reserveB totalShares : Nat) :
    Option (Nat × Nat) :=
  if totalShares = 0 ∨ shares = 0 ∨ totalShares < shares then none
  else some (shares * reserveA / totalShares % 2 ^ 64, shares * reserveB / totalShares % 2 ^ 64)

/-- The products of two `u64` fit a `u128`. -/
def verifyInvariant (oldReserveA oldReserveB newReserveA newReserveB : Nat) : Bool :=
  oldReserveA * oldReserveB ≤ newReserveA * newReserveB

theorem le_of_computeLpShares {amountA amountB reserveA reserveB totalShares shares : Nat}
    (hshares : computeLpShares amountA amountB reserveA reserveB totalShares = some shares) :
    shares ≤ amountA * totalShares / reserveA ∧ shares ≤ amountB * totalShares / reserveB ∧
      totalShares ≠ 0 := by
  unfold computeLpShares at hshares
  split at hshares
  case isTrue => simp at hshares
  case isFalse hpositive =>
    dsimp only at hshares
    split at hshares
    case isTrue => simp at hshares
    case isFalse =>
      have hle := (Option.some.inj hshares).symm.le.trans (Nat.mod_le _ _)
      exact ⟨hle.trans (min_le_left _ _), hle.trans (min_le_right _ _),
        fun hzero => hpositive (.inr (.inr hzero))⟩

theorem le_of_computeRemoveLiquidity {shares reserveA reserveB totalShares : Nat}
    {amounts : Nat × Nat}
    (hamounts : computeRemoveLiquidity shares reserveA reserveB totalShares = some amounts) :
    amounts.1 ≤ shares * reserveA / totalShares ∧
      amounts.2 ≤ shares * reserveB / totalShares ∧ totalShares ≠ 0 := by
  unfold computeRemoveLiquidity at hamounts
  split at hamounts
  case isTrue => simp at hamounts
  case isFalse hpositive =>
    cases hamounts
    exact ⟨Nat.mod_le _ _, Nat.mod_le _ _, fun hzero => hpositive (.inl hzero)⟩

def PoolMetadata.reserves (pool : PoolMetadata) : Reserves Nat where
  first := pool.reserveA
  second := pool.reserveB
  shares := pool.totalLpShares

/-! ## Derived ids -/

namespace Output

def computeAssetId (prim : Primitives) (genesisTxHash : Hash) (outputIndex : Nat) : Hash :=
  prim.hashWithDomain (ascii "DOLI_ASSET") (genesisTxHash.asBytes ++ leBytes 4 outputIndex)

/-- The assets in the order of their bytes, after the fee. -/
def computePoolId (prim : Primitives) (assetA assetB : Hash) (feeBps : Nat) : Hash :=
  let low := if assetA.word < assetB.word then assetA else assetB
  let high := if assetA.word < assetB.word then assetB else assetA
  prim.hashWithDomain poolIdDomain (leBytes 2 feeBps ++ (low.asBytes ++ high.asBytes))

/-! ## Worth of an output -/

def lpShareMetadata (output : Output) : Option Hash :=
  if output.outputType ≠ .lpShare ∨ output.extraData.isEmpty then none
  else do
    let metadata ← output.metadataOf
    if metadata.length < lpShareMetadataSize then none
    else if Condition.byteAt metadata 0 ≠ lpShareVersion then none
    else some (.fromBytes (slice metadata 1 33))

/-- Native amounts, and the DOLI reserve inside a Pool output. -/
def doliValue (output : Output) : Nat :=
  if output.outputType.isNativeAmount then output.amount
  else if output.outputType = .pool then
    (output.poolMetadata.map PoolMetadata.reserveA).getD 0
  else 0

def assetAmount (asset : Hash) (output : Output) : Nat :=
  match output.fungibleAssetMetadata with
  | some (id, _, _) => if id = asset then output.amount else 0
  | none => 0

def lpAmount (poolId : Hash) (output : Output) : Nat :=
  if output.lpShareMetadata = some poolId then output.amount else 0

/-- The reserve of a Pool output, whatever asset it is held in. -/
def poolReserveB (output : Output) : Nat :=
  (output.poolMetadata.map PoolMetadata.reserveB).getD 0

/-- The encoding of a condition that asks for the signature of the owner. -/
def ownedBy (owner : Hash) : Bytes :=
  1 :: 0 :: owner.asBytes

def lpShare (shareAmount : Nat) (poolId owner : Hash) : Output where
  outputType := .lpShare
  amount := shareAmount
  pubkeyHash := owner
  lockUntil := 0
  extraData := ownedBy owner ++ (UInt8.ofNat lpShareVersion :: poolId.asBytes)

/-- `Output::fungible_asset` under the condition of its owner. -/
def fungibleAsset (amount : Nat) (owner assetId : Hash) (totalSupply : Nat)
    (ticker : String) : Output where
  outputType := .fungibleAsset
  amount := amount
  pubkeyHash := owner
  lockUntil := 0
  extraData := ownedBy owner ++ (UInt8.ofNat fungibleAssetVersion :: (assetId.asBytes ++
    leBytes 8 totalSupply ++ [UInt8.ofNat ticker.utf8ByteSize] ++ ascii ticker))

section

variable {output : Output}

theorem outputType_of_poolMetadata {pool : PoolMetadata}
    (hpool : output.poolMetadata = some pool) : output.outputType = .pool := by
  unfold poolMetadata at hpool
  dsimp only at hpool
  split at hpool
  case isTrue => simp at hpool
  case isFalse hshape => simpa using (not_or.mp hshape).1

@[simp] theorem poolMetadata_of_ne (htype : output.outputType ≠ .pool) :
    output.poolMetadata = none := by
  simp [poolMetadata, htype]

theorem lpAmount_of_ne (htype : output.outputType ≠ .lpShare) (poolId : Hash) :
    output.lpAmount poolId = 0 := by
  simp [lpAmount, lpShareMetadata, htype]

theorem assetAmount_of_ne (htype : output.outputType ≠ .fungibleAsset) (asset : Hash) :
    output.assetAmount asset = 0 := by
  simp [assetAmount, fungibleAssetMetadata, htype]

theorem poolReserveB_of_ne (htype : output.outputType ≠ .pool) : output.poolReserveB = 0 := by
  simp [poolReserveB, htype]

theorem assetAmount_of_metadata {id asset : Hash} {supply : Nat} {ticker : String}
    (hasset : output.fungibleAssetMetadata = some (id, supply, ticker)) :
    output.assetAmount asset = if id = asset then output.amount else 0 := by
  simp [assetAmount, hasset]

theorem doliValue_of_pool {pool : PoolMetadata} (hpool : output.poolMetadata = some pool) :
    output.doliValue = pool.reserveA := by
  have htype := outputType_of_poolMetadata hpool
  simp [doliValue, htype, hpool, OutputType.isNativeAmount]

theorem leNat_slice_lt (bytes : Bytes) (lo width : Nat) :
    leNat (slice bytes lo (lo + width)) < 256 ^ width := by
  refine (leNat_lt _).trans_le (Nat.pow_le_pow_right (by norm_num) ?_)
  simp [slice]

theorem poolMetadata_fits {pool : PoolMetadata} (hpool : output.poolMetadata = some pool) :
    pool.Fits := by
  unfold poolMetadata at hpool
  dsimp only at hpool
  split at hpool
  case isTrue => simp at hpool
  case isFalse =>
    split at hpool
    case isTrue => simp at hpool
    case isFalse =>
      cases hpool
      constructor
      case reserveA => exact leNat_slice_lt output.extraData 65 8
      case reserveB => exact leNat_slice_lt output.extraData 73 8
      case totalLpShares => exact leNat_slice_lt output.extraData 81 8
      case cumulativePrice => exact leNat_slice_lt output.extraData 89 16
      case lastUpdateSlot => exact leNat_slice_lt output.extraData 105 4
      case feeBps => exact leNat_slice_lt output.extraData 109 2
      case creationSlot => exact leNat_slice_lt output.extraData 111 4

end

end Output

/-!
## Shares of a first deposit

The shares that the first deposit of a pool mints are the integer root of the product of
its two amounts.  The arithmetic is that of a `u128`.
-/

section

open WordArith

variable (arith : WordArith)

def divCeil (n divisor : Nat) : Option Nat :=
  (divide n divisor).bind fun quotient =>
    if 0 < n % divisor then arith.add quotient 1 else some quotient

/-- The loop of `isqrt`; `x` falls with every turn. -/
def isqrtLoop (n x y : Nat) : Option Nat :=
  if y < x then
    (divide n y).bind fun quotient =>
      (arith.add y quotient).bind fun sum => isqrtLoop n y (sum / 2)
  else some x
termination_by x

def isqrt (n : Nat) : Option Nat :=
  if n = 0 then some 0
  else (divCeil arith n 2).bind fun y => isqrtLoop arith n n y

/-- The root is cast to a `u64`. -/
def computeInitialLpShares (amountA amountB : Nat) : Option Nat :=
  (arith.mul amountA amountB).bind fun product =>
    (isqrt arith product).map fun root => root % 2 ^ 64

end

section

open WordArith

variable {arith : WordArith} {n x : Nat}

theorem divCeil_two (hsound : arith.Sound (2 ^ 128)) (hpos : 0 < n) (hn : n < 2 ^ 128) :
    divCeil arith n 2 = some (newtonStep n n) := by
  have hself : n / n = 1 := Nat.div_self hpos
  have hdivide : divide n 2 = some (n / 2) := divide_eq_some.mpr ⟨by decide, rfl⟩
  simp only [divCeil, hdivide, Option.bind_some, newtonStep, hself]
  split
  case isTrue hodd =>
    rw [hsound.add_exact (by omega)]
    congr 1
    omega
  case isFalse heven =>
    congr 1
    omega

theorem isqrtLoop_eq_sqrt (hsound : arith.Sound (2 ^ 128)) (hpos : 0 < n) (hn : n < 2 ^ 128)
    (hx : 0 < x) (hbelow : x ≤ n) (habove : n < (x + 1) * (x + 1)) :
    isqrtLoop arith n x (newtonStep n x) = some n.sqrt := by
  induction x using Nat.strong_induction_on with
  | _ x ih =>
      rw [isqrtLoop]
      split
      case isTrue hfalls =>
        have hy : 0 < newtonStep n x := newtonStep_pos hpos hx
        have hnext := lt_succ_sq_newtonStep (n := n) hx
        have hsum := add_div_le (hfalls.trans_le hbelow) hnext
        have hfits : newtonStep n x + n / newtonStep n x < 2 ^ 128 :=
          hsum.trans_lt (max_lt hn (by norm_num))
        rw [divide_eq_some.mpr ⟨hy.ne', rfl⟩, Option.bind_some, hsound.add_exact hfits,
          Option.bind_some]
        exact ih _ hfalls hy (hfalls.le.trans hbelow) hnext
      case isFalse hstays =>
        have hroot := sq_le_of_le_newtonStep (Nat.le_of_not_lt hstays)
        rw [Nat.eq_sqrt.mpr ⟨hroot, habove⟩]

theorem isqrt_eq_sqrt (hsound : arith.Sound (2 ^ 128)) (hn : n < 2 ^ 128) :
    isqrt arith n = some n.sqrt := by
  unfold isqrt
  split
  case isTrue hzero => simp [hzero]
  case isFalse hnonzero =>
    have hpos := Nat.pos_of_ne_zero hnonzero
    rw [divCeil_two hsound hpos hn, Option.bind_some]
    exact isqrtLoop_eq_sqrt hsound hpos hn hpos (Nat.le_refl n) (by nlinarith)

/-- No step of the root of a `u128` overflows, and the result is the root rounded down. -/
theorem isqrt_bracket (hn : n < 2 ^ 128) :
    ∃ root, isqrt (checked (2 ^ 128)) n = some root ∧ root * root ≤ n ∧
      n < (root + 1) * (root + 1) :=
  ⟨n.sqrt, isqrt_eq_sqrt (checked_sound _) hn, Nat.sqrt_le n, Nat.lt_succ_sqrt n⟩

theorem isqrt_bracket_max :
    ∃ root, isqrt (checked (2 ^ 128)) (2 ^ 128 - 1) = some root ∧ root * root ≤ 2 ^ 128 - 1 ∧
      2 ^ 128 - 1 < (root + 1) * (root + 1) :=
  isqrt_bracket (by norm_num)

theorem computeInitialLpShares_eq_sqrt (hsound : arith.Sound (2 ^ 128)) {amountA amountB : Nat}
    (hamountA : amountA < 2 ^ 64) (hamountB : amountB < 2 ^ 64) :
    computeInitialLpShares arith amountA amountB = some (amountA * amountB).sqrt := by
  have hproduct : amountA * amountB < 2 ^ 64 * 2 ^ 64 := Nat.mul_lt_mul'' hamountA hamountB
  have hfits : amountA * amountB < 2 ^ 128 := by omega
  have hroot : (amountA * amountB).sqrt < 2 ^ 64 := Nat.sqrt_lt.mpr hproduct
  rw [computeInitialLpShares, hsound.mul_exact hfits, Option.bind_some,
    isqrt_eq_sqrt hsound hfits, Option.map_some, Nat.mod_eq_of_lt hroot]

end

/-!
## The price of a swap

`compute_swap` takes the fee from the input and pays for the rest at a constant product.
Products and sums are `u128`, amounts are `u64`, and all of them wrap.
-/

def basisPoints : Nat := 10000

/-- `dx_eff` -/
def effectiveInput (dx feeBps : Nat) : Nat :=
  dx * ((2 ^ 128 + basisPoints - feeBps) % 2 ^ 128) % 2 ^ 128 / basisPoints

def computeSwap (reserveA reserveB dx feeBps : Nat) : Option (Nat × Nat × Nat) :=
  if dx = 0 ∨ reserveA = 0 ∨ reserveB = 0 then none
  else
    let dxEff := effectiveInput dx feeBps
    if dxEff = 0 then none
    else
      let numerator := reserveB * dxEff % 2 ^ 128
      let denominator := (reserveA + dxEff) % 2 ^ 128
      let dy := numerator / denominator % 2 ^ 64
      if dy = 0 ∨ reserveB ≤ dy then none
      else
        ((WordArith.checked (2 ^ 64)).add reserveA dx).map fun reserveANew =>
          (dy, reserveANew, reserveB - dy)

theorem effectiveInput_eq {dx feeBps : Nat} (hdx : dx < 2 ^ 64) (hfee : feeBps ≤ basisPoints) :
    effectiveInput dx feeBps = dx * (basisPoints - feeBps) / basisPoints := by
  unfold effectiveInput
  unfold basisPoints at hfee ⊢
  have hkept : (2 ^ 128 + 10000 - feeBps) % 2 ^ 128 = 10000 - feeBps := by omega
  have hsmall : dx * (10000 - feeBps) < 2 ^ 128 :=
    calc dx * (10000 - feeBps) ≤ dx * 10000 := Nat.mul_le_mul_left dx (Nat.sub_le 10000 feeBps)
      _ < 2 ^ 128 := by omega
  rw [hkept, Nat.mod_eq_of_lt hsmall]

theorem effectiveInput_le {dx feeBps : Nat} (hdx : dx < 2 ^ 64) (hfee : feeBps ≤ basisPoints) :
    effectiveInput dx feeBps ≤ dx := by
  rw [effectiveInput_eq hdx hfee]
  apply Nat.div_le_of_le_mul
  rw [Nat.mul_comm basisPoints]
  exact Nat.mul_le_mul_left dx (Nat.sub_le basisPoints feeBps)

theorem effectiveInput_free {dx : Nat} (hdx : dx < 2 ^ 64) : effectiveInput dx 0 = dx := by
  rw [effectiveInput_eq hdx (Nat.zero_le _), Nat.sub_zero]
  exact Nat.mul_div_cancel dx (by decide)

/-- An answered swap, with every value the exact one. -/
structure Priced (reserveA reserveB dx feeBps dy : Nat) : Prop where
  positive : 0 < reserveA
  paid : dy = payout reserveA reserveB (effectiveInput dx feeBps)
  kept : dy < reserveB
  fits : reserveA + dx < 2 ^ 64

theorem computeSwap_eq_some {reserveA reserveB dx feeBps dy reserveANew reserveBNew : Nat}
    (hreserveA : reserveA < 2 ^ 64) (hreserveB : reserveB < 2 ^ 64) (hdx : dx < 2 ^ 64)
    (hfee : feeBps ≤ basisPoints)
    (hswap : computeSwap reserveA reserveB dx feeBps = some (dy, reserveANew, reserveBNew)) :
    Priced reserveA reserveB dx feeBps dy ∧ reserveANew = reserveA + dx ∧
      reserveBNew = reserveB - dy := by
  have heff := effectiveInput_le hdx hfee
  unfold computeSwap at hswap
  dsimp only at hswap
  split at hswap
  case isTrue => contradiction
  case isFalse hpositive =>
    split at hswap
    case isTrue => contradiction
    case isFalse =>
      have hnumerator : reserveB * effectiveInput dx feeBps < 2 ^ 128 :=
        calc reserveB * effectiveInput dx feeBps
            ≤ reserveB * 2 ^ 64 := Nat.mul_le_mul_left reserveB (heff.trans hdx.le)
          _ < 2 ^ 128 := by omega
      have hdenominator : reserveA + effectiveInput dx feeBps < 2 ^ 128 := by omega
      have hpayout := payout_le reserveA reserveB (effectiveInput dx feeBps)
      have hquotient : reserveB * effectiveInput dx feeBps % 2 ^ 128 /
          ((reserveA + effectiveInput dx feeBps) % 2 ^ 128) % 2 ^ 64 =
            payout reserveA reserveB (effectiveInput dx feeBps) := by
        rw [Nat.mod_eq_of_lt hnumerator, Nat.mod_eq_of_lt hdenominator]
        exact Nat.mod_eq_of_lt (hpayout.trans_lt hreserveB)
      rw [hquotient] at hswap
      split at hswap
      case isTrue => contradiction
      case isFalse hpaid =>
        obtain ⟨sum, hsum, hsame⟩ := Option.map_eq_some_iff.mp hswap
        obtain ⟨hfits, rfl⟩ := WordArith.checked_fit.mp hsum
        cases hsame
        exact ⟨⟨by omega, rfl, by omega, hfits⟩, rfl, rfl⟩

theorem Priced.product_le {reserveA reserveB dx feeBps dy : Nat}
    (hpriced : Priced reserveA reserveB dx feeBps dy) (hdx : dx < 2 ^ 64)
    (hfee : feeBps ≤ basisPoints) :
    reserveA * reserveB ≤ (reserveA + dx) * (reserveB - dy) := by
  rw [product_le_iff (Nat.add_pos_left hpriced.positive dx) hpriced.kept.le, hpriced.paid]
  exact payout_mono hpriced.positive (effectiveInput_le hdx hfee)

/-- A swap that answers leaves both reserves exact, in range and with a product that has
not fallen, and its output swapped back pays at most its input. -/
theorem swap_exact {reserveA reserveB dx feeBps dy reserveANew reserveBNew : Nat}
    (hreserveA : reserveA < 2 ^ 64) (hreserveB : reserveB < 2 ^ 64) (hdx : dx < 2 ^ 64)
    (hfee : feeBps ≤ 10000)
    (hswap : computeSwap reserveA reserveB dx feeBps = some (dy, reserveANew, reserveBNew)) :
    dy < reserveB ∧ reserveANew = reserveA + dx ∧ reserveBNew + dy = reserveB ∧
      reserveANew < 2 ^ 64 ∧ reserveBNew < 2 ^ 64 ∧
      verifyInvariant reserveA reserveB reserveANew reserveBNew = true ∧
      ∀ back finalB finalA,
        computeSwap reserveBNew reserveANew dy feeBps = some (back, finalB, finalA) →
          back ≤ dx := by
  obtain ⟨hpriced, rfl, rfl⟩ := computeSwap_eq_some hreserveA hreserveB hdx hfee hswap
  have hkept := hpriced.kept
  have hpaid : dy ≤ payout reserveA reserveB dx :=
    hpriced.paid.trans_le (payout_mono hpriced.positive (effectiveInput_le hdx hfee))
  refine ⟨hkept, rfl, by omega, hpriced.fits, by omega, ?_, ?_⟩
  · exact decide_eq_true (hpriced.product_le hdx hfee)
  · intro back finalB finalA hback
    have hdy : dy < 2 ^ 64 := hkept.trans hreserveB
    obtain ⟨hbacked, -⟩ := computeSwap_eq_some (by omega) hpriced.fits hdy hfee hback
    rw [hbacked.paid]
    exact payout_back hpriced.positive hkept hpaid (effectiveInput_le hdy hfee)

/-- A hundred into a thousand at thirty basis points. -/
theorem swap_exact_sample :
    computeSwap 1000 1000 100 30 = some (90, 1100, 910) ∧
      computeSwap 910 1100 90 30 = some (97, 1000, 1003) ∧ 97 ≤ 100 :=
  ⟨by decide, by decide, (swap_exact (by decide) (by decide) (by decide) (by decide)
    (show computeSwap 1000 1000 100 30 = some (90, 1100, 910) by decide)).2.2.2.2.2.2 97 1000
      1003 (by decide)⟩

end Doli.Core
