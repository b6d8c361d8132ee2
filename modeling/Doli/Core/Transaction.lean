import Doli.Lib.Bytes

/-!
# Transactions

Hashes, keys, outputs, inputs and transactions as the node stores them, the
payloads carried in `extra_data`, and the transaction id.  BLAKE3, Ed25519 and
the bincode decoders come from other crates: they are the fields of
`Primitives`, and every result holds for every choice of them.
-/

namespace Doli.Core

open Doli.Lib

structure Hash where
  word : BitVec 256
  deriving DecidableEq, Repr

structure PublicKey where
  word : BitVec 256
  deriving DecidableEq, Repr

structure Signature where
  word : BitVec 512
  deriving DecidableEq, Repr

/-- The first byte is the most significant one, so words compare as the byte
arrays do. -/
def Hash.fromBytes (bytes : Bytes) : Hash :=
  ⟨BitVec.ofNat 256 (leNat bytes.reverse)⟩

def Hash.asBytes (hash : Hash) : Bytes :=
  (leBytes 32 hash.word.toNat).reverse

def PublicKey.fromBytes (bytes : Bytes) : PublicKey :=
  ⟨BitVec.ofNat 256 (leNat bytes.reverse)⟩

def PublicKey.asBytes (key : PublicKey) : Bytes :=
  (leBytes 32 key.word.toNat).reverse

def Signature.fromBytes (bytes : Bytes) : Signature :=
  ⟨BitVec.ofNat 512 (leNat bytes.reverse)⟩

def Signature.asBytes (signature : Signature) : Bytes :=
  (leBytes 64 signature.word.toNat).reverse

theorem word_lt {bits width : Nat} (hbits : bits = 8 * width) (word : BitVec bits) :
    word.toNat < 256 ^ width := by
  subst hbits
  have hlt := word.isLt
  rwa [pow_mul] at hlt

@[simp] theorem Hash.asBytes_length (hash : Hash) : hash.asBytes.length = 32 := by
  simp [Hash.asBytes]

@[simp] theorem PublicKey.asBytes_length (key : PublicKey) :
    key.asBytes.length = 32 := by
  simp [PublicKey.asBytes]

@[simp] theorem Signature.asBytes_length (signature : Signature) :
    signature.asBytes.length = 64 := by
  simp [Signature.asBytes]

@[simp] theorem Hash.fromBytes_asBytes (hash : Hash) :
    Hash.fromBytes hash.asBytes = hash := by
  have hlt : hash.word.toNat < 256 ^ 32 := word_lt (by rfl) hash.word
  simp [Hash.fromBytes, Hash.asBytes, leNat_leBytes_of_lt hlt]

theorem Hash.asBytes_inj {first second : Hash} (hbytes : first.asBytes = second.asBytes) :
    first = second := by
  rw [← Hash.fromBytes_asBytes first, hbytes, Hash.fromBytes_asBytes]

@[simp] theorem PublicKey.fromBytes_asBytes (key : PublicKey) :
    PublicKey.fromBytes key.asBytes = key := by
  have hlt : key.word.toNat < 256 ^ 32 := word_lt (by rfl) key.word
  simp [PublicKey.fromBytes, PublicKey.asBytes, leNat_leBytes_of_lt hlt]

@[simp] theorem Signature.fromBytes_asBytes (signature : Signature) :
    Signature.fromBytes signature.asBytes = signature := by
  have hlt : signature.word.toNat < 256 ^ 64 := word_lt (by rfl) signature.word
  simp [Signature.fromBytes, Signature.asBytes, leNat_leBytes_of_lt hlt]

theorem PublicKey.asBytes_inj {first second : PublicKey}
    (hbytes : first.asBytes = second.asBytes) : first = second := by
  rw [← PublicKey.fromBytes_asBytes first, hbytes, PublicKey.fromBytes_asBytes]

/-! ## Transaction and output types -/

inductive TxType where
  | transfer
  | registration
  | exit
  | claimReward
  | claimBond
  | slashProducer
  | coinbase
  | addBond
  | requestWithdrawal
  | claimWithdrawal
  | epochReward
  | removeMaintainer
  | addMaintainer
  | delegateBond
  | revokeDelegation
  | protocolActivation
  | priceAttestation
  | mintAsset
  | burnAsset
  | createPool
  | addLiquidity
  | removeLiquidity
  | swap
  | zkSettle
  | rotateBlsKey
  deriving DecidableEq, Repr

/-- The wire discriminant; 23 to 30 are tombstones. -/
def TxType.toNat : TxType → Nat
  | .transfer => 0
  | .registration => 1
  | .exit => 2
  | .claimReward => 3
  | .claimBond => 4
  | .slashProducer => 5
  | .coinbase => 6
  | .addBond => 7
  | .requestWithdrawal => 8
  | .claimWithdrawal => 9
  | .epochReward => 10
  | .removeMaintainer => 11
  | .addMaintainer => 12
  | .delegateBond => 13
  | .revokeDelegation => 14
  | .protocolActivation => 15
  | .priceAttestation => 16
  | .mintAsset => 17
  | .burnAsset => 18
  | .createPool => 19
  | .addLiquidity => 20
  | .removeLiquidity => 21
  | .swap => 22
  | .zkSettle => 31
  | .rotateBlsKey => 32

def TxType.allowsEmptyIo : TxType → Bool
  | .registration => true
  | .delegateBond => true
  | .revokeDelegation => true
  | .addMaintainer => true
  | .removeMaintainer => true
  | _ => false

inductive OutputType where
  | normal
  | bond
  | multisig
  | hashlock
  | htlc
  | vesting
  | nft
  | fungibleAsset
  | bridgeHtlc
  | pool
  | lpShare
  | zkRollup
  | encryptedContent
  | oraclePrice
  | unbonding
  deriving DecidableEq, Repr

/-- The wire discriminant; 11 and 12 are tombstones. -/
def OutputType.toNat : OutputType → Nat
  | .normal => 0
  | .bond => 1
  | .multisig => 2
  | .hashlock => 3
  | .htlc => 4
  | .vesting => 5
  | .nft => 6
  | .fungibleAsset => 7
  | .bridgeHtlc => 8
  | .pool => 9
  | .lpShare => 10
  | .zkRollup => 13
  | .encryptedContent => 14
  | .oraclePrice => 15
  | .unbonding => 16

def OutputType.fromU8 (value : Nat) : Option OutputType :=
  match value with
  | 0 => some .normal
  | 1 => some .bond
  | 2 => some .multisig
  | 3 => some .hashlock
  | 4 => some .htlc
  | 5 => some .vesting
  | 6 => some .nft
  | 7 => some .fungibleAsset
  | 8 => some .bridgeHtlc
  | 9 => some .pool
  | 10 => some .lpShare
  | 13 => some .zkRollup
  | 14 => some .encryptedContent
  | 15 => some .oraclePrice
  | 16 => some .unbonding
  | _ => none

theorem OutputType.fromU8_toNat (outputType : OutputType) :
    OutputType.fromU8 outputType.toNat = some outputType := by
  cases outputType <;> rfl

/-- Whether `amount` is denominated in native DOLI. -/
def OutputType.isNativeAmount : OutputType → Bool
  | .normal => true
  | .bond => true
  | .multisig => true
  | .hashlock => true
  | .htlc => true
  | .vesting => true
  | .bridgeHtlc => true
  | .nft => true
  | .encryptedContent => true
  | .unbonding => true
  | _ => false

/-! ## Inputs, outputs, transactions -/

structure Output where
  outputType : OutputType
  amount : Nat
  pubkeyHash : Hash
  lockUntil : Nat
  extraData : Bytes
  deriving DecidableEq, Repr

def Output.isSpendableAt (output : Output) (height : Nat) : Bool :=
  output.lockUntil ≤ height

inductive SighashType where
  | all
  | anyoneCanPay
  deriving DecidableEq, Repr

structure Input where
  prevTxHash : Hash
  outputIndex : Nat
  signature : Signature
  sighashType : SighashType
  committedOutputCount : Nat
  publicKey : Option PublicKey
  deriving DecidableEq, Repr

structure Transaction where
  version : Nat
  txType : TxType
  inputs : List Input
  outputs : List Output
  extraData : Bytes
  deriving DecidableEq, Repr

namespace Transaction

def isCoinbase (tx : Transaction) : Bool :=
  tx.txType = .transfer && tx.inputs.isEmpty && tx.outputs.length = 1

theorem isCoinbase_iff {tx : Transaction} :
    tx.isCoinbase = true ↔
      tx.txType = .transfer ∧ tx.inputs = [] ∧ tx.outputs.length = 1 := by
  simp [isCoinbase, and_assoc]

def isEpochReward (tx : Transaction) : Bool :=
  tx.txType = .epochReward

def isEpochRewardCoinbase (tx : Transaction) : Bool :=
  tx.txType = .epochReward && !tx.outputs.isEmpty

def isRewardMinting (tx : Transaction) : Bool :=
  tx.isCoinbase || tx.isEpochRewardCoinbase

def isZeroFlow (tx : Transaction) : Bool :=
  tx.inputs.isEmpty && tx.outputs.isEmpty && tx.txType.allowsEmptyIo

end Transaction

/-! ## Transaction ids -/

def Output.serialize (output : Output) : Bytes :=
  UInt8.ofNat output.outputType.toNat ::
    (leBytes 8 output.amount ++ output.pubkeyHash.asBytes ++
      leBytes 8 output.lockUntil ++
      (if output.extraData.length > 65535 then
        leBytes 2 0xFFFF ++ leBytes 4 output.extraData.length
      else
        leBytes 2 output.extraData.length) ++
      output.extraData)

/-- The bytes that `Transaction::hash` feeds to BLAKE3. -/
def Transaction.hashPreimage (tx : Transaction) : Bytes :=
  leBytes 4 tx.version ++ leBytes 4 tx.txType.toNat ++
    leBytes 4 tx.inputs.length ++
    tx.inputs.flatMap (fun input =>
      input.prevTxHash.asBytes ++ leBytes 4 input.outputIndex) ++
    leBytes 4 tx.outputs.length ++ tx.outputs.flatMap Output.serialize ++
    leBytes 4 tx.extraData.length ++ tx.extraData

/-- The bytes that `Transaction::signing_message` feeds to BLAKE3. -/
def Transaction.signingPreimage (tx : Transaction) : Bytes :=
  leBytes 4 tx.version ++ leBytes 4 tx.txType.toNat ++
    leBytes 4 tx.inputs.length ++
    tx.inputs.flatMap (fun input =>
      input.prevTxHash.asBytes ++ leBytes 4 input.outputIndex) ++
    leBytes 4 tx.outputs.length ++ tx.outputs.flatMap Output.serialize

end Doli.Core
