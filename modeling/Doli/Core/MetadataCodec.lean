import Doli.Core.ConditionCodec
import Doli.Core.Pool

/-!
# Writers of output metadata

Each typed output keeps its metadata behind the encoding of its condition.  The readers
skip the condition and take the fields off one by one; what a writer wrote they give back,
as long as the condition can be read and the address of a bridge has a length of one byte.
-/

namespace Doli.Core

open Doli.Lib

/-- The signed-refund HTLC: hash and height for the receiver, signature and expiry for the
sender. -/
def Condition.htlcSignedRefund (expectedHash : Hash) (lockHeight expiryHeight : Nat)
    (refundPubkeyHash : Hash) : Condition :=
  .or (.and (.hashlock expectedHash) (.timelock lockHeight))
    (.and (.signature refundPubkeyHash) (.timelockExpiry expiryHeight))

namespace Output

def maxRoyaltyBps : Nat := 5000

def maxTickerLen : Nat := 12

def bridgeHtlcVersionV1 : Nat := 1

def bridgeHtlcVersionV2 : Nat := 2

def bridgeHtlcHeaderSize : Nat := 3

def bridgeHtlcCounterHashSize : Nat := 32

/-! ## Readers -/

def nftRoyalty (output : Output) : Option (Hash × Nat) :=
  if output.outputType ≠ .nft ∨ output.extraData.isEmpty then none
  else do
    let metadata ← output.metadataOf
    if metadata.length < nftMetadataHeaderSize + nftRoyaltySize then none
    else if Condition.byteAt metadata 0 ≠ nftMetadataVersionRoyalty then none
    else some (.fromBytes (slice metadata 33 65), leNat (slice metadata 65 67))

/-- Target chain, target address and, from version 2 on, the hash on the other chain. -/
def bridgeHtlcMetadata (output : Output) : Option (Nat × Bytes × Option Hash) :=
  if output.outputType ≠ .bridgeHtlc ∨ output.extraData.isEmpty then none
  else do
    let metadata ← output.metadataOf
    if metadata.length < bridgeHtlcHeaderSize then none
    else
      let version := Condition.byteAt metadata 0
      let targetChain := Condition.byteAt metadata 1
      let addrLen := Condition.byteAt metadata 2
      if metadata.length < 3 + addrLen then none
      else
        let targetAddress := slice metadata 3 (3 + addrLen)
        if version = bridgeHtlcVersionV1 then some (targetChain, targetAddress, none)
        else if version = bridgeHtlcVersionV2 then
          if metadata.length < 3 + addrLen + bridgeHtlcCounterHashSize then none
          else some (targetChain, targetAddress,
            some (.fromBytes (slice metadata (3 + addrLen) (3 + addrLen + 32))))
        else none

/-! ## Writers -/

namespace Writer

def utf8 (text : String) : Bytes := text.toByteArray.data.toList

/-- The condition, then the metadata, within the limit of both. -/
def conditioned (outputType : OutputType) (amount : Nat) (pubkeyHash : Hash)
    (condition : Condition) (metadata : Bytes) : Except ConditionError Output := do
  let conditionBytes ← condition.encode
  if Condition.maxExtraDataSize < conditionBytes.length + metadata.length then
    .error (.encodingTooLarge (Condition.maxExtraDataSize + 1))
  else .ok ⟨outputType, amount, pubkeyHash, 0, conditionBytes ++ metadata⟩

def nft (amount : Nat) (pubkeyHash tokenId : Hash) (contentHash : Bytes)
    (condition : Condition) : Except ConditionError Output :=
  conditioned .nft amount pubkeyHash condition
    (UInt8.ofNat nftMetadataVersion :: (tokenId.asBytes ++ contentHash))

def nftWithRoyalty (amount : Nat) (pubkeyHash tokenId : Hash) (contentHash : Bytes)
    (condition : Condition) (creatorPubkeyHash : Hash) (royaltyBps : Nat) :
    Except ConditionError Output :=
  if maxRoyaltyBps < royaltyBps then
    .error (.encodingTooLarge (Condition.maxExtraDataSize + 1))
  else conditioned .nft amount pubkeyHash condition
    (UInt8.ofNat nftMetadataVersionRoyalty :: (tokenId.asBytes ++ creatorPubkeyHash.asBytes ++
      leBytes 2 royaltyBps ++ contentHash))

def fungibleAsset (amount : Nat) (pubkeyHash assetId : Hash) (totalSupply : Nat)
    (ticker : String) (condition : Condition) : Except ConditionError Output :=
  if maxTickerLen < (utf8 ticker).length ∨ utf8 ticker = [] then
    .error (.encodingTooLarge (Condition.maxExtraDataSize + 1))
  else conditioned .fungibleAsset amount pubkeyHash condition
    (UInt8.ofNat fungibleAssetVersion :: (assetId.asBytes ++ leBytes 8 totalSupply) ++
      (UInt8.ofNat (utf8 ticker).length :: utf8 ticker))

/-- The length of the address is cut to a byte. -/
def bridgeHtlc (amount : Nat) (pubkeyHash expectedHash : Hash)
    (lockHeight expiryHeight targetChain : Nat) (targetAddress : Bytes) (counterHash : Hash) :
    Except ConditionError Output :=
  if expiryHeight ≤ lockHeight then .error (.invalidTimelockRange lockHeight expiryHeight)
  else conditioned .bridgeHtlc amount pubkeyHash
    (.htlcSignedRefund expectedHash lockHeight expiryHeight pubkeyHash)
    (UInt8.ofNat bridgeHtlcVersionV2 :: UInt8.ofNat targetChain ::
      UInt8.ofNat targetAddress.length :: (targetAddress ++ counterHash.asBytes))

def lpShareWithCondition (shareAmount : Nat) (poolId owner : Hash) (condition : Condition) :
    Except ConditionError Output :=
  conditioned .lpShare shareAmount owner condition
    (UInt8.ofNat lpShareVersion :: poolId.asBytes)

end Writer

/-! ## Behind the condition -/

section

variable {outputType : OutputType} {amount : Nat} {pubkeyHash : Hash} {condition : Condition}
  {metadata : Bytes} {output : Output}

/-- What a writer put behind a condition that can be read. -/
structure Carries (output : Output) (outputType : OutputType) (metadata : Bytes) : Prop where
  typed : output.outputType = outputType
  filled : output.extraData.isEmpty = false
  metadataOf : output.metadataOf = some metadata

theorem carries_of_conditioned (hfits : condition.Fits) (hnamed : condition.NamesNoUnbonding)
    (hok : Writer.conditioned outputType amount pubkeyHash condition metadata = .ok output) :
    output.Carries outputType metadata := by
  obtain ⟨encoded, hencoded, hok⟩ := bind_eq_ok.mp hok
  split at hok
  · contradiction
  · cases hok
    have hprefix := Condition.decodePrefix_of_encode hfits hnamed hencoded metadata
    obtain ⟨-, hbytes⟩ := Condition.encode_ok hencoded
    refine ⟨rfl, ?_, ?_⟩
    · rw [hbytes]
      rfl
    · simp only [Output.metadataOf, hprefix]
      rw [List.drop_left]

theorem Carries.open (hcarries : output.Carries outputType metadata) :
    ¬(output.outputType ≠ outputType ∨ output.extraData.isEmpty = true) := by
  rw [hcarries.filled, hcarries.typed]
  simp

end

section

variable {output : Output}

theorem nftMetadata_of_carries {tokenId : Hash} {contentHash : Bytes}
    (hcarries : output.Carries .nft
      (UInt8.ofNat nftMetadataVersion :: (tokenId.asBytes ++ contentHash))) :
    output.nftMetadata = some (tokenId, contentHash) ∧ output.nftRoyalty = none := by
  constructor
  · unfold nftMetadata
    rw [if_neg hcarries.open, hcarries.metadataOf]
    simp [nftMetadataHeaderSize, nftMetadataVersion, nftMetadataVersionRoyalty,
      Condition.byteAt, slice_cons_skip, slice_append_field]
  · unfold nftRoyalty
    rw [if_neg hcarries.open, hcarries.metadataOf]
    simp [nftMetadataHeaderSize, nftMetadataVersion, nftMetadataVersionRoyalty,
      Condition.byteAt]

theorem nftMetadata_of_royalty {tokenId creator : Hash} {royaltyBps : Nat}
    {contentHash : Bytes} (hbps : royaltyBps < 2 ^ 16)
    (hcarries : output.Carries .nft (UInt8.ofNat nftMetadataVersionRoyalty ::
      (tokenId.asBytes ++ creator.asBytes ++ leBytes 2 royaltyBps ++ contentHash))) :
    output.nftMetadata = some (tokenId, contentHash) ∧
      output.nftRoyalty = some (creator, royaltyBps) := by
  have hread : leNat (leBytes 2 royaltyBps) = royaltyBps := leNat_leBytes_of_lt hbps
  constructor
  · have hlong : 34 ≤ 32 + (2 + contentHash.length) := by omega
    have htoken : tokenId.asBytes.drop 66 = [] := List.drop_eq_nil_of_le (by simp)
    have hcreator : creator.asBytes.drop 34 = [] := List.drop_eq_nil_of_le (by simp)
    unfold nftMetadata
    rw [if_neg hcarries.open, hcarries.metadataOf]
    simp [nftMetadataHeaderSize, nftMetadataVersion, nftMetadataVersionRoyalty, nftRoyaltySize,
      Condition.byteAt, slice_cons_skip, slice_append_field, hlong, List.drop_append,
      htoken, hcreator]
  · have hlong : 66 ≤ 32 + (32 + (2 + contentHash.length)) := by omega
    unfold nftRoyalty
    rw [if_neg hcarries.open, hcarries.metadataOf]
    simp [nftMetadataHeaderSize, nftMetadataVersionRoyalty, nftRoyaltySize,
      Condition.byteAt, slice_cons_skip, slice_append_skip, slice_append_field, hread, hlong]

theorem fromUTF8_utf8 (text : String) :
    String.fromUTF8? ⟨(Writer.utf8 text).toArray⟩ = some text := by
  rw [String.fromUTF8?, dif_pos]
  rfl

def assetHeader (assetId : Hash) (totalSupply : Nat) : Bytes :=
  UInt8.ofNat fungibleAssetVersion :: (assetId.asBytes ++ leBytes 8 totalSupply)

section

variable (assetId : Hash) (totalSupply : Nat) (tail : Bytes)

theorem assetHeader_length : (assetHeader assetId totalSupply).length = 41 := by
  simp [assetHeader]

theorem slice_assetHeader :
    slice (assetHeader assetId totalSupply ++ tail) 1 33 = assetId.asBytes ∧
      slice (assetHeader assetId totalSupply ++ tail) 33 41 = leBytes 8 totalSupply := by
  constructor
  · simp [assetHeader, slice_cons_skip, slice_append_field]
  · simp [assetHeader, slice_cons_skip, slice_append_skip, slice_append_field]

end

theorem fungibleAssetMetadata_of_carries {assetId : Hash} {totalSupply : Nat}
    {ticker : String} (hsupply : totalSupply < 2 ^ 64)
    (hshort : (Writer.utf8 ticker).length < 256)
    (hcarries : output.Carries .fungibleAsset (assetHeader assetId totalSupply ++
      (UInt8.ofNat (Writer.utf8 ticker).length :: Writer.utf8 ticker))) :
    output.fungibleAssetMetadata = some (assetId, totalSupply, ticker) := by
  have hread : leNat (leBytes 8 totalSupply) = totalSupply := leNat_leBytes_of_lt hsupply
  have hticker := fromUTF8_utf8 ticker
  generalize Writer.utf8 ticker = bytes at hshort hcarries hticker
  have hheader := assetHeader_length assetId totalSupply
  obtain ⟨hid, hsupplied⟩ :=
    slice_assetHeader assetId totalSupply (UInt8.ofNat bytes.length :: bytes)
  have hbyte : Condition.byteAt
      (assetHeader assetId totalSupply ++ UInt8.ofNat bytes.length :: bytes) 41 =
        bytes.length := by
    rw [Condition.byteAt_append hheader, byte_toNat_ofNat hshort]
  have hfield : slice (assetHeader assetId totalSupply ++ UInt8.ofNat bytes.length :: bytes)
      42 (42 + bytes.length) = bytes := by
    have hend : 42 + bytes.length - 41 - 1 = bytes.length := by omega
    rw [slice_append_skip (by omega), hheader, slice_cons_skip (by omega), hend]
    simp [slice]
  have hlong : (assetHeader assetId totalSupply ++
      UInt8.ofNat bytes.length :: bytes).length = 42 + bytes.length := by
    rw [List.length_append, hheader, List.length_cons]
    omega
  have hversion : Condition.byteAt
      (assetHeader assetId totalSupply ++ UInt8.ofNat bytes.length :: bytes) 0 =
        fungibleAssetVersion := rfl
  unfold fungibleAssetMetadata
  rw [if_neg hcarries.open, hcarries.metadataOf]
  simp [fungibleAssetHeaderSize, hid, hsupplied, hbyte, hfield, hlong, hversion, hread, hticker]

theorem lpShareMetadata_of_carries {poolId : Hash}
    (hcarries : output.Carries .lpShare (UInt8.ofNat lpShareVersion :: poolId.asBytes)) :
    output.lpShareMetadata = some poolId := by
  have hfield : slice (UInt8.ofNat lpShareVersion :: poolId.asBytes) 1 33 = poolId.asBytes :=
    List.take_of_length_le (Nat.le_of_eq poolId.asBytes_length)
  unfold lpShareMetadata
  rw [if_neg hcarries.open, hcarries.metadataOf]
  simp [lpShareMetadataSize, hfield]
  rfl

/-- The reader takes as much of the address as the byte of its length says, and what follows
for the hash. -/
theorem bridgeHtlcMetadata_of_carries {targetChain : Nat} {targetAddress : Bytes}
    {counterHash : Hash} (hchain : targetChain < 256)
    (hcarries : output.Carries .bridgeHtlc (UInt8.ofNat bridgeHtlcVersionV2 ::
      UInt8.ofNat targetChain :: UInt8.ofNat targetAddress.length ::
        (targetAddress ++ counterHash.asBytes))) :
    output.bridgeHtlcMetadata = some (targetChain,
      targetAddress.take (targetAddress.length % 256),
      some (.fromBytes ((targetAddress.drop (targetAddress.length % 256) ++
        counterHash.asBytes).take 32))) := by
  have hcut := Nat.mod_le targetAddress.length 256
  generalize hcount : targetAddress.length % 256 = count at hcut
  generalize hmetadata : UInt8.ofNat bridgeHtlcVersionV2 :: UInt8.ofNat targetChain ::
    UInt8.ofNat targetAddress.length :: (targetAddress ++ counterHash.asBytes) = metadata
    at hcarries
  have hversion : Condition.byteAt metadata 0 = bridgeHtlcVersionV2 := by
    rw [← hmetadata]
    rfl
  have hread : Condition.byteAt metadata 1 = targetChain := by
    rw [← hmetadata]
    exact byte_toNat_ofNat hchain
  have hbyte : Condition.byteAt metadata 2 = count := by
    rw [← hmetadata, ← hcount]
    exact UInt8.toNat_ofNat'
  have hlong : metadata.length = 3 + targetAddress.length + 32 := by
    rw [← hmetadata]
    simp only [List.length_cons, List.length_append, Hash.asBytes_length]
    omega
  have hdrop : ∀ rest, metadata.drop (3 + rest) =
      (targetAddress ++ counterHash.asBytes).drop rest := by
    intro rest
    rw [← hmetadata, Nat.add_comm]
    rfl
  have haddress : slice metadata 3 (3 + count) = targetAddress.take count := by
    rw [slice, Nat.add_sub_cancel_left]
    exact (congrArg _ (hdrop 0)).trans (List.take_append_of_le_length hcut)
  have hhash : slice metadata (3 + count) (3 + count + 32) =
      (targetAddress.drop count ++ counterHash.asBytes).take 32 := by
    rw [slice, hdrop, Nat.add_sub_cancel_left, List.drop_append_of_le_length hcut]
  unfold bridgeHtlcMetadata
  rw [if_neg hcarries.open, hcarries.metadataOf]
  simp only [Option.bind_eq_bind, Option.bind_some, hversion, hread, hbyte, haddress, hhash]
  rw [if_neg (by rw [hlong, bridgeHtlcHeaderSize]; omega), if_neg (by omega),
    if_neg (by decide), if_pos trivial,
    if_neg (by rw [hlong, bridgeHtlcCounterHashSize]; omega)]

theorem bridgeHtlcMetadata_of_short {targetChain : Nat} {targetAddress : Bytes}
    {counterHash : Hash} (hchain : targetChain < 256) (hshort : targetAddress.length < 256)
    (hcarries : output.Carries .bridgeHtlc (UInt8.ofNat bridgeHtlcVersionV2 ::
      UInt8.ofNat targetChain :: UInt8.ofNat targetAddress.length ::
        (targetAddress ++ counterHash.asBytes))) :
    output.bridgeHtlcMetadata = some (targetChain, targetAddress, some counterHash) := by
  have hhash : counterHash.asBytes.take 32 = counterHash.asBytes :=
    List.take_of_length_le (Nat.le_of_eq counterHash.asBytes_length)
  rw [bridgeHtlcMetadata_of_carries hchain hcarries, Nat.mod_eq_of_lt hshort,
    List.take_length, List.drop_length, List.nil_append, hhash, Hash.fromBytes_asBytes]

theorem carries_lpShare (shareAmount : Nat) (poolId owner : Hash) :
    (lpShare shareAmount poolId owner).Carries .lpShare
      (UInt8.ofNat lpShareVersion :: poolId.asBytes) := by
  have hencoded : (Condition.signature owner).encode = .ok (ownedBy owner) := by
    unfold Condition.encode
    split
    case h_1 hrefused => contradiction
    case h_2 =>
      rw [if_neg]
      · rfl
      · simp [Condition.encodeInner, Condition.maxExtraDataSize]
  have hfits : (Condition.signature owner).Fits := by simp [Condition.Fits]
  have hnamed : (Condition.signature owner).NamesNoUnbonding := by
    simp [Condition.NamesNoUnbonding]
  have hprefix := Condition.decodePrefix_of_encode hfits hnamed hencoded
    (UInt8.ofNat lpShareVersion :: poolId.asBytes)
  refine ⟨rfl, rfl, ?_⟩
  simp only [metadataOf, lpShare, hprefix]
  rw [List.drop_left]

end

/-! ## A call of a writer -/

inductive Write where
  | pool (metadata : PoolMetadata)
  | lpShare (shareAmount : Nat) (poolId owner : Hash)
  | lpShareWithCondition (shareAmount : Nat) (poolId owner : Hash) (condition : Condition)
  | fungibleAsset (amount : Nat) (pubkeyHash assetId : Hash) (totalSupply : Nat)
      (ticker : String) (condition : Condition)
  | nft (amount : Nat) (pubkeyHash tokenId : Hash) (contentHash : Bytes)
      (condition : Condition)
  | nftWithRoyalty (amount : Nat) (pubkeyHash tokenId : Hash) (contentHash : Bytes)
      (condition : Condition) (creatorPubkeyHash : Hash) (royaltyBps : Nat)
  | bridgeHtlc (amount : Nat) (pubkeyHash expectedHash : Hash)
      (lockHeight expiryHeight targetChain : Nat) (targetAddress : Bytes) (counterHash : Hash)

namespace Write

def run : Write → Except ConditionError Output
  | .pool metadata => .ok (Output.pool metadata)
  | .lpShare shareAmount poolId owner => .ok (Output.lpShare shareAmount poolId owner)
  | .lpShareWithCondition shareAmount poolId owner condition =>
      Writer.lpShareWithCondition shareAmount poolId owner condition
  | .fungibleAsset amount pubkeyHash assetId totalSupply ticker condition =>
      Writer.fungibleAsset amount pubkeyHash assetId totalSupply ticker condition
  | .nft amount pubkeyHash tokenId contentHash condition =>
      Writer.nft amount pubkeyHash tokenId contentHash condition
  | .nftWithRoyalty amount pubkeyHash tokenId contentHash condition creator royaltyBps =>
      Writer.nftWithRoyalty amount pubkeyHash tokenId contentHash condition creator royaltyBps
  | .bridgeHtlc amount pubkeyHash expectedHash lockHeight expiryHeight targetChain targetAddress
      counterHash =>
      Writer.bridgeHtlc amount pubkeyHash expectedHash lockHeight expiryHeight targetChain
        targetAddress counterHash

/-- The integers are within the types of the parameters. -/
def Fits : Write → Prop
  | .pool metadata => metadata.Fits
  | .lpShare _ _ _ => True
  | .lpShareWithCondition _ _ _ condition => condition.Fits
  | .fungibleAsset _ _ _ totalSupply _ condition => totalSupply < 2 ^ 64 ∧ condition.Fits
  | .nft _ _ _ _ condition => condition.Fits
  | .nftWithRoyalty _ _ _ _ condition _ royaltyBps => royaltyBps < 2 ^ 16 ∧ condition.Fits
  | .bridgeHtlc _ _ _ lockHeight expiryHeight targetChain _ _ =>
      lockHeight < 2 ^ 64 ∧ expiryHeight < 2 ^ 64 ∧ targetChain < 256

/-- The condition is one that the decoder reads, and a length of one byte is the length. -/
def Readable : Write → Prop
  | .pool _ => True
  | .lpShare _ _ _ => True
  | .lpShareWithCondition _ _ _ condition => condition.NamesNoUnbonding
  | .fungibleAsset _ _ _ _ _ condition => condition.NamesNoUnbonding
  | .nft _ _ _ _ condition => condition.NamesNoUnbonding
  | .nftWithRoyalty _ _ _ _ condition _ _ => condition.NamesNoUnbonding
  | .bridgeHtlc _ _ _ _ _ _ targetAddress _ => targetAddress.length < 256

/-- The readers of the type give the fields as they were written. -/
def ReadsBack (output : Output) : Write → Prop
  | .pool metadata => output.poolMetadata = some { metadata with status := 0 }
  | .lpShare _ poolId _ => output.lpShareMetadata = some poolId
  | .lpShareWithCondition _ poolId _ _ => output.lpShareMetadata = some poolId
  | .fungibleAsset _ _ assetId totalSupply ticker _ =>
      output.fungibleAssetMetadata = some (assetId, totalSupply, ticker)
  | .nft _ _ tokenId contentHash _ =>
      output.nftMetadata = some (tokenId, contentHash) ∧ output.nftRoyalty = none
  | .nftWithRoyalty _ _ tokenId contentHash _ creator royaltyBps =>
      output.nftMetadata = some (tokenId, contentHash) ∧
        output.nftRoyalty = some (creator, royaltyBps)
  | .bridgeHtlc _ _ _ _ _ targetChain targetAddress counterHash =>
      output.bridgeHtlcMetadata = some (targetChain, targetAddress, some counterHash)

/-- Whatever the lengths of the fields: what a writer accepts the readers give back. -/
theorem metadata_codecs {write : Write} {output : Output} (hfits : write.Fits)
    (hreadable : write.Readable) (hok : write.run = .ok output) : write.ReadsBack output := by
  cases write with
  | pool metadata =>
      cases hok
      exact poolMetadata_pool hfits
  | lpShare shareAmount poolId owner =>
      cases hok
      exact lpShareMetadata_of_carries (carries_lpShare shareAmount poolId owner)
  | lpShareWithCondition shareAmount poolId owner condition =>
      exact lpShareMetadata_of_carries (carries_of_conditioned hfits hreadable hok)
  | fungibleAsset amount pubkeyHash assetId totalSupply ticker condition =>
      obtain ⟨hsupply, hfits⟩ := hfits
      simp only [run, Writer.fungibleAsset] at hok
      split at hok
      · contradiction
      case isFalse hlengths =>
        have hshort : ¬maxTickerLen < (Writer.utf8 ticker).length :=
          fun hlong => hlengths (.inl hlong)
        rw [maxTickerLen] at hshort
        exact fungibleAssetMetadata_of_carries hsupply (by omega)
          (carries_of_conditioned hfits hreadable hok)
  | nft amount pubkeyHash tokenId contentHash condition =>
      exact nftMetadata_of_carries (carries_of_conditioned hfits hreadable hok)
  | nftWithRoyalty amount pubkeyHash tokenId contentHash condition creator royaltyBps =>
      obtain ⟨hbps, hfits⟩ := hfits
      simp only [run, Writer.nftWithRoyalty] at hok
      split at hok
      · contradiction
      · exact nftMetadata_of_royalty hbps (carries_of_conditioned hfits hreadable hok)
  | bridgeHtlc amount pubkeyHash expectedHash lockHeight expiryHeight targetChain targetAddress
      counterHash =>
      obtain ⟨hlock, hexpiry, hchain⟩ := hfits
      simp only [run, Writer.bridgeHtlc] at hok
      split at hok
      · contradiction
      · have hcondition : (Condition.htlcSignedRefund expectedHash lockHeight expiryHeight
            pubkeyHash).Fits := by
          simp only [Condition.htlcSignedRefund, Condition.Fits]
          exact ⟨⟨trivial, hlock⟩, trivial, hexpiry⟩
        have hnamed : (Condition.htlcSignedRefund expectedHash lockHeight expiryHeight
            pubkeyHash).NamesNoUnbonding := by
          simp [Condition.htlcSignedRefund, Condition.NamesNoUnbonding]
        exact bridgeHtlcMetadata_of_short hchain hreadable
          (carries_of_conditioned hcondition hnamed hok)

/-- A bridge to chain 1 at the address `[1, 2, 3]`. -/
def sampleBridge : Write := .bridgeHtlc 5 ⟨1⟩ ⟨2⟩ 10 20 1 [1, 2, 3] ⟨4⟩

theorem metadata_codecs_sample :
    ∃ output, sampleBridge.run = .ok output ∧ sampleBridge.ReadsBack output := by
  obtain ⟨output, hok, -⟩ := @ok_of_any _ _ sampleBridge.run (fun _ => true) (by decide +kernel)
  exact ⟨output, hok, metadata_codecs (by simp [sampleBridge, Fits]) (by simp [sampleBridge,
    Readable]) hok⟩

/-- A share under a guard on the type Unbonding. -/
def unreadableShare : Write := .lpShareWithCondition 5 ⟨1⟩ ⟨2⟩ (.outputTypeGuard .unbonding 0)

theorem guarded_share_unread :
    ¬∀ (write : Write) (output : Output), write.Fits → write.run = .ok output →
      write.ReadsBack output := by
  intro hall
  obtain ⟨output, hok, hnone⟩ := @ok_of_any _ _ unreadableShare.run
    (fun output => output.lpShareMetadata.isNone) (by decide +kernel)
  have hread : output.lpShareMetadata = some ⟨1⟩ :=
    hall unreadableShare output (by simp [unreadableShare, Fits, Condition.Fits]) hok
  rw [hread] at hnone
  contradiction

end Write

end Output

end Doli.Core
