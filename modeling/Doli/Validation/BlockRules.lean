import Doli.Validation.Context
import Doli.Validation.TransactionRules

/-!
# The rules of a block

Who may produce a slot, then `validate_block_with_mode`: what every mode checks, the full
checks with the parallel pass over the proofs of sequential work, and the light checks of a
synced block.

The epoch list decides after genesis; during genesis, and for a node without a list, the
fallback ranks of the bootstrap producers do, each in its own time window.
-/

namespace Doli.Validation

open Doli.Core Doli.Lib Doli.Storage

def maxFallbackRanks : Nat := 2

def fallbackTimeoutMs : Nat := 2000

def reentryInterval : Nat := 50

/-- The ranks of `count` consecutive positions of a round robin, without repeats. -/
def rankOrder (producers : List PublicKey) (slot count : Nat) (start : List PublicKey) :
    List PublicKey :=
  (List.range count).foldl
    (fun ranked rank =>
      match producers[(slot + rank) % producers.length]? with
      | none => ranked
      | some key => if key ∈ ranked then ranked else ranked ++ [key]) start

def bootstrapFallbackOrder (slot : Nat) (producers : List PublicKey) : List PublicKey :=
  rankOrder producers slot maxFallbackRanks []

/-- The stale producer whose turn it is to come back, if the slot is a re-entry slot. -/
def reentryProducer (slot : Nat) (stale : List PublicKey) (interval : Nat) :
    Option PublicKey :=
  let effective := min stale.length (interval / 5)
  let spacing := interval / effective
  let phase := slot % interval
  if 0 < effective ∧ 0 < interval ∧ 0 < spacing ∧ phase % spacing = 0 ∧
      phase / spacing < effective then
    stale[phase / spacing]?
  else none

def bootstrapScheduleWithLiveness (slot : Nat) (live stale : List PublicKey)
    (interval : Nat) : List PublicKey :=
  match reentryProducer slot stale interval with
  | some key => rankOrder live slot (maxFallbackRanks - 1) [key]
  | none => rankOrder live slot maxFallbackRanks []

def isRankEligibleAtMs (rank offset : Nat) : Bool :=
  offset / fallbackTimeoutMs < maxFallbackRanks && rank = offset / fallbackTimeoutMs

def isProducerEligibleMs (key : PublicKey) (eligible : List PublicKey) (offset : Nat) :
    Bool :=
  match eligible.findIdx? (· = key) with
  | none => false
  | some rank => eligible.length = 1 || isRankEligibleAtMs rank offset

section

variable (ctx : ValidationContext) (header : BlockHeader)

def invalidProducer (reason : String) : ValidationError :=
  .invalidProducer header.producer header.slot.toNat reason

def bootstrapEligible : List PublicKey :=
  if ctx.liveBootstrapProducers ≠ [] then
    bootstrapScheduleWithLiveness header.slot.toNat ctx.liveBootstrapProducers
      ctx.staleBootstrapProducers reentryInterval
  else bootstrapFallbackOrder header.slot.toNat ctx.bootstrapProducers

/-- Without a bootstrap list any producer is accepted. -/
def validateBootstrapProducer : Verdict :=
  if ctx.bootstrapProducers = [] then .ok ()
  else do
    refuseIf (header.producer ∉ ctx.bootstrapProducers)
      (invalidProducer header "not in bootstrap producer set")
    let eligible := bootstrapEligible ctx header
    refuseIf (eligible = [])
      (invalidProducer header "empty eligible list for bootstrap slot")
    let offset :=
      (header.timestamp.toNat - ctx.params.slotToTimestamp header.slot.toNat) * 1000
    refuseIf (isProducerEligibleMs header.producer eligible offset = false ∧
        isProducerEligibleMs header.producer eligible (offset + 999) = false)
      (invalidProducer header "outside time window")

/-- The producer at the slot's position of a round robin. -/
def checkRoundRobin (producers : List PublicKey) : Verdict :=
  refuseIf (producers[header.slot.toNat % producers.length]? ≠ some header.producer)
    (invalidProducer header "not the expected producer of the slot")

def validateProducerEligibility : Verdict :=
  if ctx.network.params.isInGenesis ctx.currentHeight then
    validateBootstrapProducer ctx header
  else if ctx.epochProducerList ≠ [] then checkRoundRobin header ctx.epochProducerList
  else if ctx.activeProducersWeighted ≠ [] then
    checkRoundRobin header ((ctx.activeProducersWeighted.map Prod.fst).insertionSort
      fun left right => left.word.toNat ≤ right.word.toNat)
  else if ctx.params.isBootstrap ctx.currentHeight then
    validateBootstrapProducer ctx header
  else .error (invalidProducer header "no producer list available")

end

/-! ## The checks of the modes -/

section

variable (ctx : ValidationContext) (header : BlockHeader)

/-- Chain identity, then fork identity from its activation height on. -/
def checkIdentity : Verdict := do
  refuseIf (header.genesisHash ≠ ctx.params.genesisHash)
    (.genesisHashMismatch header.genesisHash ctx.params.genesisHash)
  refuseIf (ctx.forkIdActivationHeight ≤ ctx.currentHeight ∧
      header.forkId ≠ ctx.expectedForkId)
    (.forkIdMismatch header.forkId ctx.expectedForkId)
  refuseIf (header.version ≠ 2) (.invalidVersion header.version.toNat)

/-- The slot is the one of the timestamp and lies after the slot before. -/
def checkSlot : Verdict := do
  let expected := ctx.params.timestampToSlot header.timestamp.toNat
  refuseIf (header.slot.toNat ≠ expected) (.invalidSlot header.slot.toNat expected)
  refuseIf (header.slot.toNat ≤ ctx.prevSlot)
    (.slotNotAdvancing header.slot.toNat ctx.prevSlot)

def validateHeader : Verdict := do
  checkIdentity ctx header
  refuseIf (header.timestamp.toNat ≤ ctx.prevTimestamp)
    (.invalidTimestamp header.timestamp.toNat (ctx.prevTimestamp + 1))
  refuseIf (ctx.currentTime + maxDrift < header.timestamp.toNat)
    (.timestampTooFuture header.timestamp.toNat)
  checkSlot ctx header
  let minTime := ctx.params.slotToTimestamp header.slot.toNat - networkMargin
  refuseIf (header.timestamp.toNat < minTime)
    (.invalidTimestamp header.timestamp.toNat minTime)
  let currentSlot := ctx.params.timestampToSlot ctx.currentTime
  refuseIf (currentSlot + maxFutureSlots < header.slot.toNat)
    (.slotTooFuture header.slot.toNat currentSlot maxFutureSlots)

end

/-! ## The parallel pass -/

section

variable (ctx : ValidationContext)

/-- A transaction whose proof of sequential work the parallel pass may verify. -/
def isHeavy (tx : Transaction) : Bool :=
  (tx.txType = .registration || tx.txType = .slashProducer) && tx.extraData ≠ []

def hasHeavyVdfTxs (txs : List Transaction) : Bool :=
  ctx.network.kind ≠ .devnet && txs.any isHeavy

/-- The error of one thread.  What does not decode is left to the sequential pass. -/
def heavyVdf (tx : Transaction) : Verdict :=
  if tx.extraData = [] then .ok ()
  else
    match tx.txType with
    | .registration =>
        match ctx.crypto.decodeRegistration tx.extraData with
        | some data => validateRegistrationVdf ctx data
        | none => .ok ()
    | .slashProducer =>
        match decodeSlashData ctx tx.extraData with
        | .ok { evidence := .doubleProduction first second, .. } => do
            (validateVdf ctx first).mapError fun _ =>
              .invalidSlash "invalid VDF proof in first block header"
            (validateVdf ctx second).mapError fun _ =>
              .invalidSlash "invalid VDF proof in second block header"
        | _ => .ok ()
    | _ => .ok ()

/-- The pass reports an error exactly when some thread has one; which thread is first to
write it is left to the scheduler, and here it is the first in block order. -/
def parallelVdfPass (txs : List Transaction) : Verdict :=
  checkEach (heavyVdf ctx) txs

end

/-! ## Blocks -/

/-- The outpoints of a block in order, each spent once. -/
def checkDoubleSpendFrom (spent : List Outpoint) : List Outpoint → Verdict
  | [] => .ok ()
  | outpoint :: rest => do
      refuseIf (outpoint ∈ spent) (.doubleSpend outpoint.txHash outpoint.index)
      checkDoubleSpendFrom (outpoint :: spent) rest

theorem nodup_of_checkDoubleSpendFrom {spent outpoints : List Outpoint}
    (hok : checkDoubleSpendFrom spent outpoints = .ok ()) :
    outpoints.Nodup ∧ ∀ outpoint ∈ outpoints, outpoint ∉ spent := by
  induction outpoints generalizing spent with
  | nil => simp
  | cons outpoint outpoints ih =>
      simp only [checkDoubleSpendFrom, seq_eq_ok, refuseIf_eq_ok] at hok
      obtain ⟨hnew, hrest⟩ := hok
      obtain ⟨hnodup, hfresh⟩ := ih hrest
      rw [List.nodup_cons, List.forall_mem_cons]
      refine ⟨⟨fun hmem => hfresh outpoint hmem List.mem_cons_self, hnodup⟩, hnew, ?_⟩
      exact fun other hother hspent => hfresh other hother (List.mem_cons_of_mem _ hspent)

def checkInternalDoubleSpend (txs : List Transaction) : Verdict :=
  checkDoubleSpendFrom [] (txs.flatMap fun tx => tx.inputs.map inputOutpoint)

section

variable (rules : OpenRules) (ctx : ValidationContext) (block : Block)

/-- What precedes the choice of the mode. -/
def checkEveryMode : Verdict := do
  checkEach (fun tx => checkWhen (tx.txType = .rotateBlsKey)
    ((rotateStateless ctx tx).map fun _ => ())) block.transactions
  checkWhen ctx.signatureRuleActive (verifyBlockSignature block.header ctx.crypto)
  validateBlockSlashes ctx block.transactions

def checkBody : Verdict := do
  refuseIf (maxBlockSize ctx.currentHeight < block.size ctx.crypto.validKey)
    (.blockTooLarge (block.size ctx.crypto.validKey) (maxBlockSize ctx.currentHeight))
  refuseIf (block.verifyMerkleRoot ctx.crypto.primitives = false)
    (.invalidMerkleRoot block.header.merkleRoot
      (computeMerkleRoot ctx.crypto.primitives block.transactions))

/-- The parallel pass and the sequential checks that rely on it. -/
def checkTransactions : Verdict :=
  if hasHeavyVdfTxs ctx block.transactions then do
    parallelVdfPass ctx block.transactions
    checkEach (validateTransactionSkipRegistrationVdf rules ctx) block.transactions
  else checkEach (validateTransaction rules ctx) block.transactions

def checkHeaderWork : Verdict :=
  checkWhen (!ctx.params.isBootstrap ctx.currentHeight) (validateVdf ctx block.header)

/-- The Full arm around a pass over the transactions. -/
def validateFull (checkTxs : Verdict) : Verdict := do
  validateHeader ctx block.header
  checkBody ctx block
  checkTxs
  checkInternalDoubleSpend block.transactions
  checkHeaderWork ctx block
  validateProducerEligibility ctx block.header

def validateLight : Verdict := do
  checkIdentity ctx block.header
  checkSlot ctx block.header
  checkBody ctx block
  checkEach (validateTransaction rules ctx) block.transactions
  checkInternalDoubleSpend block.transactions

def validateBlockWithMode (mode : ValidationMode) : Verdict := do
  checkEveryMode ctx block
  match mode with
  | .full => validateFull ctx block (checkTransactions rules ctx block)
  | .light => validateLight rules ctx block
  | .replay => validateLight rules ctx block

end

end Doli.Validation
