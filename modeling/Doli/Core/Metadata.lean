import Doli.Core.Condition

/-!
# Output metadata

Readers of the metadata that NFT, fungible-asset and pool outputs keep in
`extra_data`, the pool writer, and the time-weighted price accumulator.
-/

namespace Doli.Core

open Doli.Lib

def nftMetadataVersion : Nat := 1

def nftMetadataVersionRoyalty : Nat := 2

def nftMetadataHeaderSize : Nat := 33

def nftRoyaltySize : Nat := 34

def fungibleAssetVersion : Nat := 1

def fungibleAssetHeaderSize : Nat := 42

def poolVersion : Nat := 1

def poolMetadataSize : Nat := 116

structure PoolMetadata where
  poolId : Hash
  assetBId : Hash
  reserveA : Nat
  reserveB : Nat
  totalLpShares : Nat
  cumulativePrice : Nat
  lastUpdateSlot : Nat
  feeBps : Nat
  creationSlot : Nat
  status : Nat
  deriving DecidableEq, Repr

/-- Every integer field fits the width it is stored in. -/
structure PoolMetadata.Fits (pool : PoolMetadata) : Prop where
  reserveA : pool.reserveA < 2 ^ 64
  reserveB : pool.reserveB < 2 ^ 64
  totalLpShares : pool.totalLpShares < 2 ^ 64
  cumulativePrice : pool.cumulativePrice < 2 ^ 128
  lastUpdateSlot : pool.lastUpdateSlot < 2 ^ 32
  feeBps : pool.feeBps < 2 ^ 16
  creationSlot : pool.creationSlot < 2 ^ 32

namespace Output

/-- The bytes after the condition prefix. -/
def metadataOf (output : Output) : Option Bytes :=
  match Condition.decodePrefix output.extraData with
  | .ok (_, conditionLen) => some (output.extraData.drop conditionLen)
  | .error _ => none

def nftMetadata (output : Output) : Option (Hash × Bytes) :=
  if output.outputType ≠ .nft ∨ output.extraData.isEmpty then none
  else do
    let metadata ← output.metadataOf
    let version := Condition.byteAt metadata 0
    if metadata.length < nftMetadataHeaderSize then none
    else if version ≠ nftMetadataVersion ∧ version ≠ nftMetadataVersionRoyalty then
      none
    else
      let tokenId := Hash.fromBytes (slice metadata 1 33)
      let rest := metadata.drop 33
      if version = nftMetadataVersionRoyalty ∧ nftRoyaltySize ≤ rest.length then
        some (tokenId, rest.drop nftRoyaltySize)
      else some (tokenId, rest)

def fungibleAssetMetadata (output : Output) : Option (Hash × Nat × String) :=
  if output.outputType ≠ .fungibleAsset ∨ output.extraData.isEmpty then none
  else do
    let metadata ← output.metadataOf
    if metadata.length < fungibleAssetHeaderSize then none
    else if Condition.byteAt metadata 0 ≠ fungibleAssetVersion then none
    else
      let assetId := Hash.fromBytes (slice metadata 1 33)
      let totalSupply := leNat (slice metadata 33 41)
      let tickerLen := Condition.byteAt metadata 41
      if metadata.length < 42 + tickerLen then none
      else do
        let ticker ← String.fromUTF8?
          ⟨(slice metadata 42 (42 + tickerLen)).toArray⟩
        some (assetId, totalSupply, ticker)

def poolMetadata (output : Output) : Option PoolMetadata :=
  let data := output.extraData
  if output.outputType ≠ .pool ∨ data.length < poolMetadataSize then none
  else if Condition.byteAt data 0 ≠ poolVersion then none
  else some
    { poolId := .fromBytes (slice data 1 33)
      assetBId := .fromBytes (slice data 33 65)
      reserveA := leNat (slice data 65 73)
      reserveB := leNat (slice data 73 81)
      totalLpShares := leNat (slice data 81 89)
      cumulativePrice := leNat (slice data 89 105)
      lastUpdateSlot := leNat (slice data 105 109)
      feeBps := leNat (slice data 109 111)
      creationSlot := leNat (slice data 111 115)
      status := Condition.byteAt data 115 }

/-- `Output::pool`: the status byte is always written as 0. -/
def pool (pool : PoolMetadata) : Output where
  outputType := .pool
  amount := 0
  pubkeyHash := pool.poolId
  lockUntil := 0
  extraData :=
    UInt8.ofNat poolVersion :: (pool.poolId.asBytes ++ pool.assetBId.asBytes ++
      leBytes 8 pool.reserveA ++ leBytes 8 pool.reserveB ++
      leBytes 8 pool.totalLpShares ++ leBytes 16 pool.cumulativePrice ++
      leBytes 4 pool.lastUpdateSlot ++ leBytes 2 pool.feeBps ++
      leBytes 4 pool.creationSlot ++ [0])

end Output

/-- `update_twap`: saturating fixed-point accumulation of the price that was
in force since `lastSlot`. -/
def updateTwap (cumulative reserveA reserveB currentSlot lastSlot : Nat) : Nat :=
  if reserveB = 0 ∨ currentSlot ≤ lastSlot then cumulative
  else
    let elapsed := currentSlot - lastSlot
    let price := reserveA * 2 ^ 64 / reserveB
    min (cumulative + min (price * elapsed) (2 ^ 128 - 1)) (2 ^ 128 - 1)

/-! ## Round trip of the pool record -/

namespace Output

@[simp] theorem pool_outputType (metadata : PoolMetadata) :
    (pool metadata).outputType = .pool := rfl

@[simp] theorem pool_pubkeyHash (metadata : PoolMetadata) :
    (pool metadata).pubkeyHash = metadata.poolId := rfl

theorem pool_extraData_length (metadata : PoolMetadata) :
    (pool metadata).extraData.length = poolMetadataSize := by
  simp [pool, poolMetadataSize]

theorem poolMetadata_pool_truncated (metadata : PoolMetadata) :
    poolMetadata (pool metadata) = some
      { metadata with
        reserveA := metadata.reserveA % 2 ^ 64
        reserveB := metadata.reserveB % 2 ^ 64
        totalLpShares := metadata.totalLpShares % 2 ^ 64
        cumulativePrice := metadata.cumulativePrice % 2 ^ 128
        lastUpdateSlot := metadata.lastUpdateSlot % 2 ^ 32
        feeBps := metadata.feeBps % 2 ^ 16
        creationSlot := metadata.creationSlot % 2 ^ 32
        status := 0 } := by
  have hlen := pool_extraData_length metadata
  have hstatus : Condition.byteAt (pool metadata).extraData 115 = 0 := by
    simp [pool, Condition.byteAt]
  have hversion : Condition.byteAt (pool metadata).extraData 0 = poolVersion := by
    simp [pool, Condition.byteAt, poolVersion]
  simp only [poolMetadata, hlen, hversion, hstatus, pool_outputType, ne_eq,
    not_true_eq_false, lt_self_iff_false, or_self, if_false]
  simp (disch := simp) only [pool, List.append_assoc, slice_cons_skip,
    slice_append_skip, slice_append_field, Hash.asBytes_length, leBytes_length,
    Hash.fromBytes_asBytes, Nat.reduceSub, Nat.sub_self]
  simp only [leNat_leBytes]
  rfl

theorem poolMetadata_pool {metadata : PoolMetadata} (hfits : metadata.Fits) :
    poolMetadata (pool metadata) = some { metadata with status := 0 } := by
  rw [poolMetadata_pool_truncated, Nat.mod_eq_of_lt hfits.reserveA,
    Nat.mod_eq_of_lt hfits.reserveB, Nat.mod_eq_of_lt hfits.totalLpShares,
    Nat.mod_eq_of_lt hfits.cumulativePrice, Nat.mod_eq_of_lt hfits.lastUpdateSlot,
    Nat.mod_eq_of_lt hfits.feeBps, Nat.mod_eq_of_lt hfits.creationSlot]

end Output

end Doli.Core
