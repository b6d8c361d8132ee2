import Doli.Validation.Prepass

/-!
# What a block hash binds

Two accepted blocks with one header hash have one header and one list of transaction
ids, as long as they hold equally many transactions and both or neither of them carry a
fork id.  The Merkle tree does not see a last transaction that is repeated, and a
transaction without inputs may be repeated.
-/

namespace Doli.Validation

open Doli.Core Doli.Lib Doli.Producer

/-! ## The missed producers fit their count -/

theorem length_encodeMany_publicKey (validKey : PublicKey → Bool) (keys : List PublicKey) :
    ((Wire.publicKey validKey).encodeMany keys).length = 40 * keys.length := by
  induction keys with
  | nil => rfl
  | cons key keys ih =>
      rw [Codec.encodeMany] at ih ⊢
      simp only [List.map_cons, List.flatten_cons, List.length_append, List.length_cons, ih]
      simp [Wire.publicKey, Codec.refine, Codec.bytes]
      omega

theorem missed_le_size (validKey : PublicKey → Bool) (block : Block) :
    block.header.missedProducers.length ≤ block.size validKey := by
  have hheader : block.header.missedProducers.length ≤
      ((Wire.blockHeader validKey).encode block.header).length := by
    simp only [Wire.blockHeader, Codec.wrap, Codec.pair, Codec.list, Option.elim_some,
      List.length_append, length_encodeMany_publicKey]
    omega
  unfold Block.size
  omega

theorem maxBlockSize_le (height : Nat) : maxBlockSize height ≤ 32000000 := by
  unfold maxBlockSize
  split
  case isTrue => exact le_refl _
  case isFalse hera =>
    have hpow : 2 ^ (height / blocksPerEra) ≤ 2 ^ 3 :=
      Nat.pow_le_pow_right (by omega) (by omega)
    omega

/-! ## Equal hashes -/

/-- The bytes hashed for the header and on the way to the Merkle root. -/
def hashedIn (crypto : Crypto) (block : Block) : Set Bytes :=
  {bytes | bytes = block.header.hashPreimage ∨
    ∃ pair ∈ Merkle.hashed (nodeHash crypto.blake3)
        (block.transactions.map crypto.primitives.txHash),
      bytes = pair.1.asBytes ++ pair.2.asBytes}

section

variable {rules : OpenRules} {ctx : ValidationContext} {block first second : Block}

theorem checkBody_eq_ok :
    checkBody ctx block = .ok () ↔
      block.size ctx.crypto.validKey ≤ maxBlockSize ctx.currentHeight ∧
        block.header.merkleRoot =
          computeMerkleRoot ctx.crypto.primitives block.transactions := by
  simp only [checkBody, bind_eq_ok, exists_unit, refuseIf_eq_ok, not_lt]
  rw [Bool.not_eq_false, Block.verifyMerkleRoot, decide_eq_true_iff]

theorem validateBlockWithMode_full_eq_ok :
    validateBlockWithMode rules ctx block .full = .ok () ↔
      checkEveryMode ctx block = .ok () ∧ validateHeader ctx block.header = .ok () ∧
        checkBody ctx block = .ok () ∧
          checkEach (validateTransaction rules ctx) block.transactions = .ok () ∧
            checkInternalDoubleSpend block.transactions = .ok () ∧
              checkHeaderWork ctx block = .ok () ∧
                validateProducerEligibility ctx block.header = .ok () := by
  simp only [validateBlockWithMode, seq_eq_ok, validateFull_eq_ok, checkTransactions_eq_ok]

theorem missed_lt_of_checkBody (hbody : checkBody ctx block = .ok ()) :
    block.header.missedProducers.length < 2 ^ 32 := by
  have hsize := (checkBody_eq_ok.mp hbody).1
  have hmissed := missed_le_size ctx.crypto.validKey block
  have hmax := maxBlockSize_le ctx.currentHeight
  omega

theorem nodeHash_injOn {domain : Set Bytes} (crypto : Crypto)
    (hinjective : Set.InjOn crypto.blake3 domain) :
    Set.InjOn (fun pair => nodeHash crypto.blake3 pair.1 pair.2)
      {pair : Hash × Hash | pair.1.asBytes ++ pair.2.asBytes ∈ domain} := by
  intro left hleft right hright hnode
  obtain ⟨hfirst, hsecond⟩ := List.append_inj (hinjective hleft hright hnode) (by simp)
  exact Prod.ext (Hash.asBytes_inj hfirst) (Hash.asBytes_inj hsecond)

theorem txHashes_eq_of_root
    (hinjective : Set.InjOn ctx.crypto.blake3
      (hashedIn ctx.crypto first ∪ hashedIn ctx.crypto second))
    (hcount : first.transactions.length = second.transactions.length)
    (hroot : computeMerkleRoot ctx.crypto.primitives first.transactions =
      computeMerkleRoot ctx.crypto.primitives second.transactions) :
    first.transactions.map ctx.crypto.primitives.txHash =
      second.transactions.map ctx.crypto.primitives.txHash := by
  refine Merkle.root_inj (nodeHash_injOn ctx.crypto hinjective) ?_ ?_ (by simp [hcount]) hroot
  · exact fun pair hpair => .inl (.inr ⟨pair, hpair, rfl⟩)
  · exact fun pair hpair => .inr (.inr ⟨pair, hpair, rfl⟩)

/-! ## A repeated last transaction -/

theorem checkEvery_repeat {init : List Transaction} {last : Transaction}
    {check : Transaction → Verdict}
    (hok : checkEach check (init ++ [last]) = .ok ()) :
    checkEach check (init ++ [last, last]) = .ok () := by
  rw [checkEach_eq_ok] at hok ⊢
  intro tx htx
  exact hok tx (by simpa using htx)

theorem checkSlashCounts_repeat {init : List Transaction} {last : Transaction}
    (htype : last.txType = .transfer) :
    checkSlashCounts ctx (init ++ [last, last]) = checkSlashCounts ctx (init ++ [last]) := by
  have hregistrant : slashRegistrant ctx last = none := by simp [slashRegistrant, htype]
  have hwithdrawal : bondWithdrawalProducer last = none := by
    simp [bondWithdrawalProducer, Transaction.withdrawalRequestData, htype]
  simp [checkSlashCounts, accusedKeys, List.filter_append, List.filterMap_append,
    List.countP_append, htype, hregistrant, hwithdrawal]

theorem checkInternalDoubleSpend_repeat {init : List Transaction} {last : Transaction}
    (hinputs : last.inputs = []) :
    checkInternalDoubleSpend (init ++ [last, last]) =
      checkInternalDoubleSpend (init ++ [last]) := by
  simp [checkInternalDoubleSpend, hinputs]

theorem computeMerkleRoot_repeat (prim : Primitives) {init : List Transaction}
    {last : Transaction} (hinit : init ≠ []) (heven : init.length % 2 = 0) :
    computeMerkleRoot prim (init ++ [last, last]) = computeMerkleRoot prim (init ++ [last]) := by
  simp only [computeMerkleRoot, List.map_append, List.map_cons, List.map_nil]
  exact Merkle.root_repeat_last (by simpa using hinit) (by simpa using heven)

/-- An accepted block of odd length that ends in a Transfer without inputs is accepted
with that transaction repeated, under the same header. -/
theorem accepted_repeat {init : List Transaction} {last : Transaction}
    (hinit : init ≠ []) (heven : init.length % 2 = 0) (htype : last.txType = .transfer)
    (hinputs : last.inputs = [])
    (hsize : Block.size ctx.crypto.validKey { block with transactions := init ++ [last, last] } ≤
      maxBlockSize ctx.currentHeight)
    (hok : validateBlockWithMode rules ctx { block with transactions := init ++ [last] } .full =
      .ok ()) :
    validateBlockWithMode rules ctx { block with transactions := init ++ [last, last] } .full =
      .ok () := by
  rw [validateBlockWithMode_full_eq_ok] at hok ⊢
  obtain ⟨hevery, hheader, hbody, htxs, hspends, hwork, heligible⟩ := hok
  refine ⟨?_, hheader, ?_, checkEvery_repeat htxs, ?_, hwork, heligible⟩
  · simp only [checkEveryMode, validateBlockSlashes, bind_eq_ok, exists_unit] at hevery ⊢
    obtain ⟨hrotations, hsignature, hcounts, htargets⟩ := hevery
    rw [checkSlashCounts_repeat htype]
    exact ⟨checkEvery_repeat hrotations, hsignature, hcounts, checkEvery_repeat htargets⟩
  · rw [checkBody_eq_ok] at hbody ⊢
    exact ⟨hsize, hbody.2.trans
      (computeMerkleRoot_repeat ctx.crypto.primitives hinit heven).symm⟩
  · rw [checkInternalDoubleSpend_repeat hinputs]
    exact hspends

/-- Under one header hash, the headers and the transaction ids are the same exactly when
the blocks hold equally many transactions and both or neither carry a fork id. -/
theorem block_identity_iff
    (hinjective : Set.InjOn ctx.crypto.blake3
      (hashedIn ctx.crypto first ∪ hashedIn ctx.crypto second))
    (hfirst : validateBlockWithMode rules ctx first .full = .ok ())
    (hsecond : validateBlockWithMode rules ctx second .full = .ok ())
    (hhash : first.header.hash ctx.crypto.blake3 = second.header.hash ctx.crypto.blake3) :
    (first.header.sealed = second.header.sealed ∧
      first.transactions.map ctx.crypto.primitives.txHash =
        second.transactions.map ctx.crypto.primitives.txHash) ↔
    (first.transactions.length = second.transactions.length ∧
      (first.header.forkId = ⟨0⟩ ↔ second.header.forkId = ⟨0⟩)) := by
  constructor
  · rintro ⟨hsealed, hids⟩
    have hfork : first.header.forkId = second.header.forkId := by
      simpa using congrArg BlockHeader.forkId hsealed
    exact ⟨by simpa using congrArg List.length hids, by rw [hfork]⟩
  · rintro ⟨hcount, hfork⟩
    obtain ⟨-, -, hbody, -⟩ := validateBlockWithMode_full_eq_ok.mp hfirst
    obtain ⟨-, -, hbody', -⟩ := validateBlockWithMode_full_eq_ok.mp hsecond
    have hpreimage := hinjective (.inl (.inl rfl)) (.inr (.inl rfl)) hhash
    have hsealed := BlockHeader.hashPreimage_inj (missed_lt_of_checkBody hbody)
      (missed_lt_of_checkBody hbody') hfork hpreimage
    have hroot : first.header.merkleRoot = second.header.merkleRoot := by
      simpa using congrArg BlockHeader.merkleRoot hsealed
    rw [(checkBody_eq_ok.mp hbody).2, (checkBody_eq_ok.mp hbody').2] at hroot
    exact ⟨hsealed, txHashes_eq_of_root hinjective hcount hroot⟩

end

/-! ## On given inputs -/

/-- A Transfer with one output and no inputs. -/
def sampleMint : Transaction where
  version := 1
  txType := .transfer
  inputs := []
  outputs := [⟨.normal, 1000, ⟨21⟩, 0, []⟩]
  extraData := []

def sampleLeaf : Hash := sampleCrypto.primitives.txHash sampleMint

def sampleNode : Hash := nodeHash sampleBlake3 sampleLeaf sampleLeaf

def sampleHeader : BlockHeader where
  version := 2
  prevHash := ⟨31⟩
  merkleRoot := nodeHash sampleBlake3 sampleNode sampleNode
  presenceRoot := ⟨0⟩
  genesisHash := ⟨7⟩
  timestamp := 1055
  slot := 5
  producer := ⟨5⟩
  vdfOutput := []
  vdfProof := Signature.asBytes ⟨1⟩
  missedProducers := []
  dataRoot := ⟨0⟩
  forkId := ⟨0⟩

/-- The sample header over `count` mints. -/
def sampleBlock (count : Nat) : Block where
  header := sampleHeader
  transactions := List.replicate count sampleMint
  aggregateBlsSignature := []
  attestationBitfield := []

theorem sampleMints_root :
    computeMerkleRoot sampleCrypto.primitives [sampleMint, sampleMint, sampleMint] =
      nodeHash sampleBlake3 sampleNode sampleNode := by
  simp only [computeMerkleRoot, List.map_cons, List.map_nil, Merkle.root, Merkle.pairUp]
  rfl

theorem sampleBlock_three_accepted :
    validateBlockWithMode sampleOpenRules (sampleContext 5) (sampleBlock 3) .full = .ok () := by
  rw [validateBlockWithMode_full_eq_ok, checkBody_eq_ok]
  exact ⟨by decide +kernel, by decide +kernel, ⟨by decide +kernel, sampleMints_root.symm⟩,
    by decide +kernel, by decide +kernel, by decide +kernel, by decide +kernel⟩

theorem sampleBlock_four_accepted :
    validateBlockWithMode sampleOpenRules (sampleContext 5) (sampleBlock 4) .full = .ok () :=
  @accepted_repeat sampleOpenRules (sampleContext 5) (sampleBlock 3) [sampleMint, sampleMint]
    sampleMint (List.cons_ne_nil _ _) rfl rfl rfl (by decide +kernel)
    sampleBlock_three_accepted

/-- What the two blocks hash. -/
def sampleHashed : List Bytes :=
  [sampleHeader.hashPreimage, sampleLeaf.asBytes ++ sampleLeaf.asBytes,
    sampleNode.asBytes ++ sampleNode.asBytes]

theorem sampleHashed_pairs {count : Nat} (hcount : count = 3 ∨ count = 4) :
    ∀ pair ∈ Merkle.hashed (nodeHash sampleBlake3) (List.replicate count sampleLeaf),
      pair.1.asBytes ++ pair.2.asBytes ∈ sampleHashed := by
  rcases hcount with rfl | rfl
  · simp only [List.replicate, Merkle.hashed, Merkle.pairs, Merkle.pairUp]
    simp [sampleHashed, sampleNode]
  · simp only [List.replicate, Merkle.hashed, Merkle.pairs, Merkle.pairUp]
    simp [sampleHashed, sampleNode]

theorem sampleHashed_injective :
    Set.InjOn sampleBlake3
      (hashedIn sampleCrypto (sampleBlock 3) ∪ hashedIn sampleCrypto (sampleBlock 4)) := by
  have hnodup : (sampleHashed.map sampleBlake3).Nodup := by decide +kernel
  have hdomain : ∀ bytes ∈ hashedIn sampleCrypto (sampleBlock 3) ∪
      hashedIn sampleCrypto (sampleBlock 4), bytes ∈ sampleHashed := by
    rintro bytes ((rfl | ⟨pair, hpair, rfl⟩) | (rfl | ⟨pair, hpair, rfl⟩))
    · exact List.mem_cons_self
    · exact sampleHashed_pairs (.inl rfl) pair hpair
    · exact List.mem_cons_self
    · exact sampleHashed_pairs (.inr rfl) pair hpair
  exact fun left hleft right hright =>
    List.inj_on_of_nodup_map hnodup (hdomain left hleft) (hdomain right hright)

/-- Three mints and four mints, in two accepted blocks under one header. -/
theorem block_identity_fails :
    ¬∀ (rules : OpenRules) (ctx : ValidationContext) (first second : Block),
      Set.InjOn ctx.crypto.blake3
        (hashedIn ctx.crypto first ∪ hashedIn ctx.crypto second) →
      validateBlockWithMode rules ctx first .full = .ok () →
      validateBlockWithMode rules ctx second .full = .ok () →
      first.header.hash ctx.crypto.blake3 = second.header.hash ctx.crypto.blake3 →
      first.header.sealed = second.header.sealed ∧
        first.transactions.map ctx.crypto.primitives.txHash =
          second.transactions.map ctx.crypto.primitives.txHash := by
  intro hclaim
  obtain ⟨-, hids⟩ := hclaim sampleOpenRules (sampleContext 5) (sampleBlock 3) (sampleBlock 4)
    sampleHashed_injective sampleBlock_three_accepted sampleBlock_four_accepted rfl
  simpa [sampleBlock] using congrArg List.length hids

theorem block_identity_iff_mints :
    ((sampleBlock 3).header.sealed = (sampleBlock 4).header.sealed ∧
      (sampleBlock 3).transactions.map sampleCrypto.primitives.txHash =
        (sampleBlock 4).transactions.map sampleCrypto.primitives.txHash) ↔
    ((sampleBlock 3).transactions.length = (sampleBlock 4).transactions.length ∧
      ((sampleBlock 3).header.forkId = ⟨0⟩ ↔ (sampleBlock 4).header.forkId = ⟨0⟩)) :=
  @block_identity_iff sampleOpenRules (sampleContext 5) (sampleBlock 3) (sampleBlock 4)
    sampleHashed_injective sampleBlock_three_accepted sampleBlock_four_accepted rfl

end Doli.Validation
