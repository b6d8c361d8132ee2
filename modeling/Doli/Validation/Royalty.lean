import Doli.Core.MetadataCodec
import Doli.Lib.Weights
import Doli.Validation.ContentBinding
import Doli.Validation.PoolChange

/-!
# Royalties

A Transfer of an NFT or of encrypted content pays the creator a share of its price.  The
price is what Normal outputs pay the seller; the royalty is the amounts of all outputs to the
creator, whatever they are amounts of.
-/

/-! ## Encrypted content -/

namespace Doli.Core.Output

open Doli.Lib
open Doli.Validation (contentEnd)

/-- Ciphertext, wrapped key, nonce and content hash. -/
def parseEncryptedContent (output : Output) : Option (Bytes × Bytes × Bytes × Bytes) :=
  if output.outputType ≠ .encryptedContent ∨ output.extraData.length < 128 then none
  else
    let offset := 4 + leNat (slice output.extraData 0 4)
    if output.extraData.length < offset + 80 + 12 + 32 then none
    else some (slice output.extraData 4 offset, slice output.extraData offset (offset + 80),
      slice output.extraData (offset + 80) (offset + 92),
      slice output.extraData (offset + 92) (offset + 124))

/-- MIME type, creator and royalty, where the extension of version 1 is there. -/
def parseEncryptedContentV1 (output : Output) : Option (Bytes × Hash × Nat) :=
  if output.outputType ≠ .encryptedContent ∨ output.extraData.length < 128 then none
  else
    let v0End := contentEnd output.extraData
    if output.extraData.length ≤ v0End then none
    else if leNat (slice output.extraData v0End (v0End + 1)) ≠ 1 then none
    else if output.extraData.length < v0End + 2 then none
    else
      let mimeLen := leNat (slice output.extraData (v0End + 1) (v0End + 2))
      let extStart := v0End + 2
      if output.extraData.length < extStart + mimeLen + 32 + 2 then none
      else
        let bpsStart := extStart + mimeLen + 32
        some (slice output.extraData extStart (extStart + mimeLen),
          .fromBytes (slice output.extraData (extStart + mimeLen) bpsStart),
          leNat (slice output.extraData bpsStart (bpsStart + 2)))

def encryptedContentRoyalty (output : Output) : Option (Hash × Nat) :=
  output.parseEncryptedContentV1.map Prod.snd

end Doli.Core.Output

namespace Doli.Validation

open Doli.Core Doli.Lib Doli.Storage

/-! ## The rules -/

section

variable (outputs : List Output)

/-- Added as `u64`. -/
def salePrice (seller : Hash) : Nat :=
  total Output.amount (outputs.filter fun output =>
    output.outputType = .normal ∧ output.pubkeyHash = seller) % 2 ^ 64

/-- The product is a `u128`, the quotient is cut to a `u64`. -/
def requiredRoyalty (price royaltyBps : Nat) : Nat := price * royaltyBps / 10000 % 2 ^ 64

def actualRoyalty (creator : Hash) : Nat :=
  total Output.amount (outputs.filter fun output => output.pubkeyHash = creator) % 2 ^ 64

def checkRoyalty (label : String) (index : Nat) (seller : Hash) :
    Option (Hash × Nat) → Verdict
  | none => .ok ()
  | some (creator, royaltyBps) =>
      let price := salePrice outputs seller
      let required := requiredRoyalty price royaltyBps
      let actual := actualRoyalty outputs creator
      checkWhen (decide (0 < royaltyBps ∧ 0 < price ∧ 0 < required))
        (refuseIf (actual < required)
          (.invalidTransaction
            s!"{label} input {index} requires royalty of {required} to creator, got {actual} (sale_price={price}, royalty_bps={royaltyBps})"))

def checkRoyalties (row : Output × Nat) : Verdict := do
  checkRoyalty outputs "[ERRTX037] NFT" row.2 row.1.pubkeyHash row.1.nftRoyalty
  checkRoyalty outputs "[ERRTX-EC009] EncryptedContent" row.2 row.1.pubkeyHash
    row.1.encryptedContentRoyalty

/-- An output with the content of an input keeps its creator and royalty. -/
def checkKeepsCreator (index : Nat) (contentHash : Bytes) (creator : Hash) (royaltyBps : Nat)
    (row : Output × Nat) : Verdict :=
  match row.1.parseEncryptedContent with
  | none => .ok ()
  | some (_, _, _, outputContentHash) =>
      checkWhen (decide (contentHash = outputContentHash))
        (match row.1.parseEncryptedContentV1 with
        | some (_, outputCreator, outputBps) => do
            refuseIf (outputCreator ≠ creator)
              (.invalidTransaction
                s!"[ERRTX-EC010] EncryptedContent output {row.2} has different creator_hash than input {index} — creator_hash is immutable across transfers")
            refuseIf (outputBps ≠ royaltyBps)
              (.invalidTransaction
                s!"[ERRTX-EC011] EncryptedContent output {row.2} has different royalty_bps ({outputBps}) than input {index} ({royaltyBps}) — royalty_bps is immutable across transfers")
        | none =>
            .error (.invalidTransaction
              s!"[ERRTX-EC012] EncryptedContent output {row.2} drops v1 metadata (creator_hash/royalty) from input {index} — metadata is immutable"))

def checkCreatorKept (row : Output × Nat) : Verdict :=
  match row.1.parseEncryptedContent, row.1.parseEncryptedContentV1 with
  | some (_, _, _, contentHash), some (_, creator, royaltyBps) =>
      checkEach (checkKeepsCreator row.2 contentHash creator royaltyBps) outputs.zipIdx
  | _, _ => .ok ()

end

/-- The rules of a Transfer on the content it moves. -/
def checkContentTransfer (securityAuditActivationHeight height : Nat) (tx : Transaction)
    (consumed : List Output) : Verdict := do
  checkEach (checkRoyalties tx.outputs) consumed.zipIdx
  checkWhen (decide (securityAuditActivationHeight ≤ height))
    (checkEach (checkCreatorKept tx.outputs) consumed.zipIdx)

def SpendingContext.withRoyalties (ctx : SpendingContext)
    (securityAuditActivationHeight : Nat) : SpendingContext :=
  { ctx with
    spending :=
      { ctx.spending with contentRules := checkContentTransfer securityAuditActivationHeight } }

/-! ## What is paid to whom -/

def kindOf (output : Output) : OutputType × Hash := (output.outputType, output.pubkeyHash)

def kindRow (output : Output) : (OutputType × Hash) × Nat := (kindOf output, output.amount)

abbrev IsSale (seller : Hash) (kind : OutputType × Hash) : Prop := kind = (.normal, seller)

abbrev Native (kind : OutputType × Hash) : Prop := kind.1.isNativeAmount = true

abbrev PaidTo (owner : Hash) (kind : OutputType × Hash) : Prop := kind.2 = owner

abbrev NativeTo (owner : Hash) (kind : OutputType × Hash) : Prop :=
  Native kind ∧ PaidTo owner kind

def nativePaid (outputs : List Output) (owner : Hash) : Nat :=
  total nativeAmount (outputs.filter fun output => output.pubkeyHash = owner)

/-- The creator gets the share of all that the seller gets, both in native DOLI. -/
def PaysRoyalty (outputs : List Output) (seller creator : Hash) (royaltyBps : Nat) : Prop :=
  nativePaid outputs seller * royaltyBps / 10000 ≤ nativePaid outputs creator

instance (outputs : List Output) (seller creator : Hash) (royaltyBps : Nat) :
    Decidable (PaysRoyalty outputs seller creator royaltyBps) :=
  inferInstanceAs (Decidable
    (nativePaid outputs seller * royaltyBps / 10000 ≤ nativePaid outputs creator))

/-- What the rules on outputs say about amounts. -/
structure Payable (outputs : List Output) : Prop where
  supply : total nativeAmount outputs ≤ totalSupply
  positive : ∀ output ∈ outputs, allowsZeroAmount output.outputType = false → 0 < output.amount

section

variable {outputs : List Output} {seller creator owner : Hash} {royaltyBps : Nat}

theorem weightWhere_kindRow (test : OutputType × Hash → Prop) [DecidablePred test] :
    weightWhere (outputs.map kindRow) test =
      total Output.amount (outputs.filter fun output => test (kindOf output)) := by
  unfold weightWhere totalWeight total
  rw [List.filter_map, List.map_map]
  rfl

theorem salePrice_eq :
    salePrice outputs seller = weightWhere (outputs.map kindRow) (IsSale seller) % 2 ^ 64 := by
  rw [weightWhere_kindRow]
  simp [salePrice, kindOf]

theorem actualRoyalty_eq :
    actualRoyalty outputs creator =
      weightWhere (outputs.map kindRow) (PaidTo creator) % 2 ^ 64 := by
  rw [weightWhere_kindRow]
  rfl

theorem nativePaid_eq :
    nativePaid outputs owner = weightWhere (outputs.map kindRow) (NativeTo owner) := by
  rw [weightWhere_kindRow, nativePaid, total_filter, total_filter]
  apply total_congr
  intro output _
  unfold nativeAmount kindOf
  by_cases hnative : output.outputType.isNativeAmount = true
  · by_cases howner : output.pubkeyHash = owner
    · simp [hnative, howner]
    · simp [howner]
  · simp [hnative]

theorem nativePaid_le : nativePaid outputs owner ≤ total nativeAmount outputs :=
  total_filter_le nativeAmount _ outputs

theorem checkRoyalty_eq_ok {label : String} {index : Nat} :
    checkRoyalty outputs label index seller (some (creator, royaltyBps)) = .ok () ↔
      (0 < royaltyBps → 0 < salePrice outputs seller →
        requiredRoyalty (salePrice outputs seller) royaltyBps ≤
          actualRoyalty outputs creator) := by
  simp only [checkRoyalty, checkWhen_eq_ok, decide_eq_true_eq, refuseIf_eq_ok, not_lt]
  constructor
  · intro hpays hbps hprice
    rcases Nat.eq_zero_or_pos (requiredRoyalty (salePrice outputs seller) royaltyBps) with
      hzero | hpositive
    · omega
    · exact hpays ⟨hbps, hprice, hpositive⟩
  · exact fun hpays hrule => hpays hrule.1 hrule.2.1

/-! ## Where the law is kept -/

/-- What makes the rule keep the law: no Normal output gives a price; the creator sells;
the seller is paid in Normal outputs alone and the creator in native ones; or the rule asks
for a royalty where the creator gets nothing. -/
inductive RoyaltyEnforced (kinds : List (OutputType × Hash)) (seller creator : Hash)
    (royaltyBps : Nat) : Prop
  | unpriced (hnone : (.normal, seller) ∉ kinds)
  | own (hown : creator = seller) (hshare : royaltyBps ≤ 10000)
  | plain (hseller : ∀ kind ∈ kinds, NativeTo seller kind → kind.1 = .normal)
      (hcreator : ∀ kind ∈ kinds, PaidTo creator kind → Native kind)
  | refused (hnone : ∀ kind ∈ kinds, ¬PaidTo creator kind)
      (hprice : 10000 ≤ kinds.countP (fun kind => IsSale seller kind) * royaltyBps)

theorem royalty_le {price : Nat} (hbps : royaltyBps < 2 ^ 16) :
    price * royaltyBps / 10000 ≤ 7 * price := by
  have hproduct : price * royaltyBps ≤ price * 70000 :=
    Nat.mul_le_mul_left price (by omega)
  omega

theorem le_royalty {price least : Nat} (hbps : 0 < royaltyBps) (hprice : 10000 * least ≤ price) :
    least ≤ price * royaltyBps / 10000 := by
  have hproduct : price * 1 ≤ price * royaltyBps := Nat.mul_le_mul_left price hbps
  omega

theorem lt_royalty {price : Nat} (hbps : 10000 < royaltyBps) (hprice : 10000 ≤ price) :
    price < price * royaltyBps / 10000 := by
  have hproduct : price * 10001 ≤ price * royaltyBps := Nat.mul_le_mul_left price hbps
  omega

theorem royalty_le_price {price : Nat} (hbps : royaltyBps ≤ 10000) :
    price * royaltyBps / 10000 ≤ price := by
  have hproduct : price * royaltyBps ≤ price * 10000 := Nat.mul_le_mul_left price hbps
  omega

theorem sale_le_nativePaid :
    weightWhere (outputs.map kindRow) (IsSale seller) ≤ nativePaid outputs seller := by
  rw [nativePaid_eq]
  apply weightWhere_mono
  rintro kind rfl
  exact ⟨rfl, rfl⟩

theorem salePrice_of_fits (hfits : total nativeAmount outputs ≤ totalSupply) :
    salePrice outputs seller = weightWhere (outputs.map kindRow) (IsSale seller) := by
  have hsale : weightWhere (outputs.map kindRow) (IsSale seller) ≤ nativePaid outputs seller :=
    sale_le_nativePaid
  have hpaid : nativePaid outputs seller ≤ total nativeAmount outputs := nativePaid_le
  rw [totalSupply] at hfits
  rw [salePrice_eq, Nat.mod_eq_of_lt (by omega)]

theorem requiredRoyalty_eq {price : Nat} (hbps : royaltyBps < 2 ^ 16)
    (hprice : price ≤ totalSupply) :
    requiredRoyalty price royaltyBps = price * royaltyBps / 10000 := by
  have hle : price * royaltyBps / 10000 ≤ 7 * price := royalty_le hbps
  rw [totalSupply] at hprice
  rw [requiredRoyalty, Nat.mod_eq_of_lt (by omega)]

theorem paysRoyalty_of_enforced {label : String} {index : Nat} (hpositive : 0 < royaltyBps)
    (hbps : royaltyBps < 2 ^ 16) (hpayable : Payable outputs)
    (hrule : checkRoyalty outputs label index seller (some (creator, royaltyBps)) = .ok ())
    (happlies : 0 < salePrice outputs seller)
    (henforced : RoyaltyEnforced (outputs.map kindOf) seller creator royaltyBps) :
    PaysRoyalty outputs seller creator royaltyBps := by
  have hpays := checkRoyalty_eq_ok.mp hrule hpositive happlies
  have hsale : weightWhere (outputs.map kindRow) (IsSale seller) ≤ nativePaid outputs seller :=
    sale_le_nativePaid
  have hpaid : nativePaid outputs seller ≤ total nativeAmount outputs := nativePaid_le
  have hsupply := hpayable.supply
  rw [salePrice_of_fits hsupply] at happlies hpays
  rw [requiredRoyalty_eq hbps (by omega), actualRoyalty_eq] at hpays
  unfold PaysRoyalty
  have hkinds : ∀ row ∈ outputs.map kindRow, row.1 ∈ outputs.map kindOf := by
    intro row hrow
    obtain ⟨output, houtput, rfl⟩ := List.mem_map.mp hrow
    exact List.mem_map_of_mem houtput
  cases henforced with
  | unpriced hnone =>
      have hzero : weightWhere (outputs.map kindRow) (IsSale seller) = 0 :=
        weightWhere_eq_zero fun row hrow hsold => hnone (hsold ▸ hkinds row hrow)
      omega
  | own hown hshare =>
      rw [hown]
      exact royalty_le_price hshare
  | plain hseller hcreator =>
      have hprice : nativePaid outputs seller =
          weightWhere (outputs.map kindRow) (IsSale seller) := by
        rw [nativePaid_eq]
        apply weightWhere_congr
        intro row hrow
        constructor
        · exact fun hpaid => Prod.ext (hseller row.1 (hkinds row hrow) hpaid) hpaid.2
        · exact fun hsold => ⟨congrArg (fun kind => kind.1.isNativeAmount) hsold,
            congrArg Prod.snd hsold⟩
      have hroyalty : nativePaid outputs creator =
          weightWhere (outputs.map kindRow) (PaidTo creator) := by
        rw [nativePaid_eq]
        apply weightWhere_congr
        intro row hrow
        exact ⟨And.right, fun hpaid => ⟨hcreator row.1 (hkinds row hrow) hpaid, hpaid⟩⟩
      rw [hprice, hroyalty]
      exact hpays.trans (Nat.mod_le _ _)
  | refused hnone hprice =>
      have hzero : weightWhere (outputs.map kindRow) (PaidTo creator) = 0 :=
        weightWhere_eq_zero fun row hrow => hnone row.1 (hkinds row hrow)
      have hcount : (outputs.map kindOf).countP (fun kind => IsSale seller kind) ≤
          weightWhere (outputs.map kindRow) (IsSale seller) := by
        have hrows : ∀ row ∈ outputs.map kindRow, IsSale seller row.1 → 0 < row.2 := by
          intro row hrow hsold
          obtain ⟨output, houtput, rfl⟩ := List.mem_map.mp hrow
          apply hpayable.positive output houtput
          rw [show output.outputType = .normal from congrArg Prod.fst hsold]
          rfl
        have hweight := countP_le_weightWhere hrows
        rwa [List.map_map] at hweight
      have hproduct := Nat.mul_le_mul_right royaltyBps hcount
      omega

/-! ## Where it is broken -/

def reprice (outputs : List Output) (amounts : List Nat) : List Output :=
  List.zipWith (fun output amount => { output with amount := amount }) outputs amounts

theorem kindRow_reprice {rows : List ((OutputType × Hash) × Nat)}
    (hrows : rows.map Prod.fst = outputs.map kindOf) :
    (reprice outputs (rows.map Prod.snd)).map kindRow = rows := by
  induction outputs generalizing rows with
  | nil => rw [List.map_eq_nil_iff.mp hrows, reprice, List.zipWith_nil_left, List.map_nil]
  | cons output outputs ih =>
      cases rows with
      | nil => cases hrows
      | cons row rows =>
          rw [List.map_cons, List.map_cons, List.cons.injEq] at hrows
          have hrest := ih hrows.2
          unfold reprice at hrest ⊢
          rw [List.map_cons, List.zipWith_cons_cons, List.map_cons, hrest]
          exact congrArg (· :: rows) (Prod.ext hrows.1.symm rfl)

/-- What the kinds that pass a test weigh, where all outputs weigh one but for the first of two
kinds. -/
def weighed (outputs : List Output) (first second : (OutputType × Hash) × Nat)
    (test : OutputType × Hash → Prop) [DecidablePred test] : Nat :=
  (outputs.map kindOf).countP (fun kind => test kind) + (if test first.1 then first.2 else 0) +
    (if test second.1 then second.2 else 0) - (if test first.1 then 1 else 0) -
      if test second.1 then 1 else 0

theorem countP_kinds_le (test : OutputType × Hash → Prop) [DecidablePred test] :
    (outputs.map kindOf).countP (fun kind => test kind) ≤ outputs.length := by
  rw [← List.length_map kindOf]
  exact List.countP_le_length

theorem weighed_le (first second : (OutputType × Hash) × Nat) (test : OutputType × Hash → Prop)
    [DecidablePred test] :
    weighed outputs first second test ≤ outputs.length + first.2 + second.2 := by
  have hcount := @countP_kinds_le outputs test _
  unfold weighed
  split <;> split <;> omega

theorem exists_repriced {first second : (OutputType × Hash) × Nat}
    (hfirst : first.1 ∈ outputs.map kindOf) (hsecond : second.1 ∈ outputs.map kindOf)
    (hne : first.1 ≠ second.1) (hx : 0 < first.2) (hy : 0 < second.2) :
    ∃ amounts, amounts.length = outputs.length ∧
      (∀ amount ∈ amounts, amount ≤ max first.2 second.2) ∧
        (∀ output ∈ reprice outputs amounts, 0 < output.amount) ∧
          ∀ (test : OutputType × Hash → Prop) [DecidablePred test],
            weightWhere ((reprice outputs amounts).map kindRow) test =
              weighed outputs first second test := by
  obtain ⟨rows, hvalues, hweights, htests⟩ :=
    exists_weights hfirst hsecond hne first.2 second.2
  have hrows := kindRow_reprice hvalues
  refine ⟨rows.map Prod.snd, ?_, ?_, ?_, ?_⟩
  · rw [List.length_map, ← List.length_map Prod.fst, hvalues, List.length_map]
  · intro amount hamount
    obtain ⟨row, hrow, rfl⟩ := List.mem_map.mp hamount
    have hweight := hweights row hrow
    omega
  · intro output houtput
    have hrow : kindRow output ∈ rows := hrows ▸ List.mem_map_of_mem houtput
    have hweight := hweights _ hrow
    change output.amount = 1 ∨ output.amount = first.2 ∨ output.amount = second.2 at hweight
    omega
  · intro test _
    have htest := htests test
    rw [hrows, weighed]
    omega

theorem total_nativeAmount_eq :
    total nativeAmount outputs =
      weightWhere (outputs.map kindRow) Native := by
  rw [weightWhere_kindRow, total_filter]
  apply total_congr
  intro output _
  unfold nativeAmount kindOf
  by_cases hnative : output.outputType.isNativeAmount = true
  · simp [hnative]
  · simp [hnative]

/-- Amounts at which the rule passes and the creator gets too little. -/
structure Breaks (outputs : List Output) (seller creator : Hash) (royaltyBps : Nat)
    (amounts : List Nat) : Prop where
  length : amounts.length = outputs.length
  inRange : ∀ amount ∈ amounts, amount < 2 ^ 64
  payable : Payable (reprice outputs amounts)
  priced : 0 < salePrice (reprice outputs amounts) seller
  passes : requiredRoyalty (salePrice (reprice outputs amounts) seller) royaltyBps ≤
    actualRoyalty (reprice outputs amounts) creator
  unpaid : ¬PaysRoyalty (reprice outputs amounts) seller creator royaltyBps

theorem exists_breaks (hbps : royaltyBps < 2 ^ 16) (first second : (OutputType × Hash) × Nat)
    (hfirst : first.1 ∈ outputs.map kindOf) (hsecond : second.1 ∈ outputs.map kindOf)
    (hne : first.1 ≠ second.1) (hx : 0 < first.2) (hy : 0 < second.2)
    (hsmall : outputs.length + first.2 + second.2 ≤ totalSupply)
    (hpriced : 0 < weighed outputs first second (IsSale seller))
    (hpasses : weighed outputs first second (IsSale seller) * royaltyBps / 10000 ≤
      weighed outputs first second (PaidTo creator))
    (hunpaid : weighed outputs first second (NativeTo creator) <
      weighed outputs first second (NativeTo seller) * royaltyBps / 10000) :
    ∃ amounts, Breaks outputs seller creator royaltyBps amounts := by
  obtain ⟨amounts, hlength, hamounts, hpositive, htests⟩ :=
    exists_repriced hfirst hsecond hne hx hy
  have hnative : total nativeAmount (reprice outputs amounts) ≤ totalSupply := by
    rw [total_nativeAmount_eq, htests]
    exact (weighed_le first second Native).trans hsmall
  have hfits : weighed outputs first second (PaidTo creator) < 2 ^ 64 := by
    apply Nat.lt_of_le_of_lt ((weighed_le first second (PaidTo creator)).trans hsmall)
    rw [totalSupply]
    omega
  have hsale : weightWhere ((reprice outputs amounts).map kindRow) (IsSale seller) ≤
      nativePaid (reprice outputs amounts) seller := sale_le_nativePaid
  have hpaid : nativePaid (reprice outputs amounts) seller ≤
      total nativeAmount (reprice outputs amounts) := nativePaid_le
  refine ⟨amounts, hlength, ?_, ⟨hnative, ?_⟩, ?_, ?_, ?_⟩
  · intro amount hamount
    have hle := hamounts amount hamount
    rw [totalSupply] at hsmall
    omega
  · exact fun output houtput _ => hpositive output houtput
  · rw [salePrice_of_fits hnative, htests]
    exact hpriced
  · rw [salePrice_of_fits hnative, requiredRoyalty_eq hbps (by omega), actualRoyalty_eq,
      htests, htests, Nat.mod_eq_of_lt hfits]
    exact hpasses
  · rw [PaysRoyalty, nativePaid_eq, nativePaid_eq, htests, htests, not_le]
    exact hunpaid

section

variable {first second : (OutputType × Hash) × Nat} (test : OutputType × Hash → Prop)
  [DecidablePred test]

theorem weighed_first (hfirst : test first.1) (hsecond : ¬test second.1) :
    weighed outputs first second test =
      (outputs.map kindOf).countP (fun kind => test kind) + first.2 - 1 := by
  simp [weighed, hfirst, hsecond]

theorem weighed_second (hfirst : ¬test first.1) (hsecond : test second.1) :
    weighed outputs first second test =
      (outputs.map kindOf).countP (fun kind => test kind) + second.2 - 1 := by
  simp [weighed, hfirst, hsecond]

theorem weighed_both (hfirst : test first.1) (hsecond : test second.1) :
    weighed outputs first second test =
      (outputs.map kindOf).countP (fun kind => test kind) + first.2 + second.2 - 2 := by
  simp only [weighed, if_pos hfirst, if_pos hsecond]
  omega

theorem weighed_neither (hfirst : ¬test first.1) (hsecond : ¬test second.1) :
    weighed outputs first second test =
      (outputs.map kindOf).countP fun kind => test kind := by
  simp [weighed, hfirst, hsecond]

theorem countP_kinds_pos {kind : OutputType × Hash} (hkind : kind ∈ outputs.map kindOf)
    (hpasses : test kind) : 0 < (outputs.map kindOf).countP fun kind => test kind :=
  List.countP_pos_iff.mpr ⟨kind, hkind, decide_eq_true hpasses⟩

end

section

variable (hpositive : 0 < royaltyBps) (hbps : royaltyBps < 2 ^ 16)
  (hcount : outputs.length < 2 ^ 32) (hsale : (.normal, seller) ∈ outputs.map kindOf)

include hbps hcount hsale

theorem breaks_of_own {kind : OutputType} (hown : creator = seller)
    (hshare : 10000 < royaltyBps) (hnotNormal : kind ≠ .normal)
    (hnative : kind.isNativeAmount = true) (hkind : (kind, seller) ∈ outputs.map kindOf) :
    ∃ amounts, Breaks outputs seller creator royaltyBps amounts := by
  subst hown
  have hnotSale : ¬IsSale creator (kind, creator) := fun hsame => hnotNormal (Prod.mk.inj hsame).1
  have hsales := countP_kinds_pos (IsSale creator) hsale rfl
  have hsalesLe := @countP_kinds_le outputs (IsSale creator) _
  have hrequired : (outputs.map kindOf).countP (fun kind => IsSale creator kind) * royaltyBps /
      10000 ≤ 7 * (outputs.map kindOf).countP fun kind => IsSale creator kind := royalty_le hbps
  generalize hy : 10000 * (outputs.length + 1) = y
  apply exists_breaks hbps ((.normal, creator), 1) ((kind, creator), y) hsale hkind
    (Ne.symm hnotSale)
  case hx => omega
  case hy => omega
  case hsmall =>
    rw [totalSupply]
    omega
  case hpriced =>
    rw [weighed_first (IsSale creator) rfl hnotSale]
    omega
  case hpasses =>
    rw [weighed_first (IsSale creator) rfl hnotSale, weighed_both (PaidTo creator) rfl rfl,
      Nat.add_sub_cancel]
    omega
  case hunpaid =>
    rw [weighed_both (NativeTo creator) ⟨rfl, rfl⟩ ⟨hnative, rfl⟩]
    exact lt_royalty hshare (by omega)

include hpositive

theorem breaks_of_foreign {kind : OutputType} (hshare : creator = seller → 10000 < royaltyBps)
    (hforeign : kind.isNativeAmount = false) (hkind : (kind, creator) ∈ outputs.map kindOf) :
    ∃ amounts, Breaks outputs seller creator royaltyBps amounts := by
  have hnotNative : ¬kind.isNativeAmount = true := by simp [hforeign]
  have hnotSale : ¬IsSale seller (kind, creator) := by
    intro hsame
    rw [(Prod.mk.inj hsame).1] at hforeign
    contradiction
  have hsales := countP_kinds_pos (IsSale seller) hsale rfl
  have hsellers := countP_kinds_pos (NativeTo seller) hsale ⟨rfl, rfl⟩
  have hcreators := countP_kinds_pos (PaidTo creator) hkind rfl
  have hsalesLe := @countP_kinds_le outputs (IsSale seller) _
  have hcreatorLe := @countP_kinds_le outputs (NativeTo creator) _
  generalize hx : 10000 * (outputs.length + 1) = x
  generalize hy : ((outputs.map kindOf).countP (fun kind => IsSale seller kind) + x - 1) *
    royaltyBps / 10000 = y
  have hyLower : outputs.length + 1 ≤ y := hy ▸ le_royalty hpositive (by omega)
  have hyUpper : y ≤ 7 * ((outputs.map kindOf).countP (fun kind => IsSale seller kind) + x - 1) :=
    hy ▸ royalty_le hbps
  apply exists_breaks hbps ((.normal, seller), x) ((kind, creator), y) hsale hkind
    (Ne.symm hnotSale)
  case hx => omega
  case hy => omega
  case hsmall =>
    rw [totalSupply]
    omega
  case hpriced =>
    rw [weighed_first (IsSale seller) rfl hnotSale]
    omega
  case hpasses =>
    rw [weighed_first (IsSale seller) rfl hnotSale, hy]
    by_cases hown : seller = creator
    · rw [weighed_both (PaidTo creator) hown rfl]
      omega
    · rw [weighed_second (PaidTo creator) hown rfl]
      omega
  case hunpaid =>
    have hseller : weighed outputs ((.normal, seller), x) ((kind, creator), y)
        (NativeTo seller) =
          (outputs.map kindOf).countP (fun kind => NativeTo seller kind) + x - 1 :=
      weighed_first (NativeTo seller) ⟨rfl, rfl⟩ fun hnative => hnotNative hnative.1
    by_cases hown : creator = seller
    · subst hown
      rw [hseller]
      exact lt_royalty (hshare rfl) (by omega)
    · rw [weighed_neither (NativeTo creator) (fun hnative => hown hnative.2.symm)
        fun hnative => hnotNative hnative.1]
      rw [hseller]
      exact Nat.lt_of_le_of_lt hcreatorLe (le_royalty hpositive (by omega))

/-- The seller is paid in part by an output that is not Normal, and the creator by a native
one. -/
theorem breaks_of_hidden {kind other : OutputType} (hother : creator ≠ seller)
    (hnotNormal : kind ≠ .normal) (hnative : kind.isNativeAmount = true)
    (hkind : (kind, seller) ∈ outputs.map kindOf) (hcreatorNative : other.isNativeAmount = true)
    (hcreator : (other, creator) ∈ outputs.map kindOf) :
    ∃ amounts, Breaks outputs seller creator royaltyBps amounts := by
  have hnotSale : ¬IsSale seller (kind, seller) := fun hsame => hnotNormal (Prod.mk.inj hsame).1
  have hnotSold : ¬IsSale seller (other, creator) := fun hsame => hother (Prod.mk.inj hsame).2
  have hsales := countP_kinds_pos (IsSale seller) hsale rfl
  have hsellers := countP_kinds_pos (NativeTo seller) hkind ⟨hnative, rfl⟩
  have hsalesLe := @countP_kinds_le outputs (IsSale seller) _
  have hcreatorLe := @countP_kinds_le outputs (NativeTo creator) _
  generalize hrequired : (outputs.map kindOf).countP (fun kind => IsSale seller kind) *
    royaltyBps / 10000 = required
  have hrequiredLe : required ≤
      7 * (outputs.map kindOf).countP fun kind => IsSale seller kind :=
    hrequired ▸ royalty_le hbps
  generalize hy : 10000 * ((outputs.map kindOf).countP (fun kind => NativeTo creator kind) +
    required + 1) = y
  apply exists_breaks hbps ((other, creator), required + 1) ((kind, seller), y) hcreator hkind
    (fun hsame => hother (Prod.mk.inj hsame).2)
  case hx => omega
  case hy => omega
  case hsmall =>
    rw [totalSupply]
    omega
  case hpriced =>
    rw [weighed_neither (IsSale seller) hnotSold hnotSale]
    exact hsales
  case hpasses =>
    rw [weighed_neither (IsSale seller) hnotSold hnotSale, hrequired,
      weighed_first (PaidTo creator) rfl hother.symm]
    omega
  case hunpaid =>
    rw [weighed_first (NativeTo creator) ⟨hcreatorNative, rfl⟩ fun hpaid => hother hpaid.2.symm,
      weighed_second (NativeTo seller) (fun hpaid => hother hpaid.2) ⟨hnative, rfl⟩]
    have hroyalty := @le_royalty royaltyBps
      ((outputs.map kindOf).countP (fun kind => NativeTo seller kind) + y - 1)
      ((outputs.map kindOf).countP (fun kind => NativeTo creator kind) + required + 1) hpositive
      (by omega)
    dsimp only
    omega

theorem breaks_of_unpaid {kind : OutputType} (hnotNormal : kind ≠ .normal)
    (hnative : kind.isNativeAmount = true) (hkind : (kind, seller) ∈ outputs.map kindOf)
    (hnone : ∀ kind ∈ outputs.map kindOf, ¬PaidTo creator kind)
    (hprice : (outputs.map kindOf).countP (fun kind => IsSale seller kind) * royaltyBps < 10000) :
    ∃ amounts, Breaks outputs seller creator royaltyBps amounts := by
  have hother : creator ≠ seller := by
    rintro rfl
    exact hnone _ hsale rfl
  have hnotSale : ¬IsSale seller (kind, seller) := fun hsame => hnotNormal (Prod.mk.inj hsame).1
  have hsales := countP_kinds_pos (IsSale seller) hsale rfl
  have hsellers := countP_kinds_pos (NativeTo seller) hkind ⟨hnative, rfl⟩
  have hzero : (outputs.map kindOf).countP (fun kind => NativeTo creator kind) = 0 := by
    rw [List.countP_eq_zero]
    intro kind hmem hpaid
    exact hnone kind hmem (of_decide_eq_true hpaid).2
  apply exists_breaks hbps ((.normal, seller), 1) ((kind, seller), 10000) hsale hkind
    (Ne.symm hnotSale)
  case hx => omega
  case hy => omega
  case hsmall =>
    rw [totalSupply]
    omega
  case hpriced =>
    rw [weighed_first (IsSale seller) rfl hnotSale]
    omega
  case hpasses =>
    rw [weighed_first (IsSale seller) rfl hnotSale, Nat.add_sub_cancel, Nat.div_eq_of_lt hprice]
    exact Nat.zero_le _
  case hunpaid =>
    rw [weighed_neither (NativeTo creator) (fun hpaid => hother hpaid.2.symm)
      (fun hpaid => hother hpaid.2.symm), hzero,
      weighed_both (NativeTo seller) ⟨rfl, rfl⟩ ⟨hnative, rfl⟩]
    exact le_royalty hpositive (by omega)

end

/-- Every list of outputs in which nothing makes the rule keep the law breaks it at some
amounts. -/
theorem exists_breaks_of_not_enforced (hpositive : 0 < royaltyBps) (hbps : royaltyBps < 2 ^ 16)
    (hcount : outputs.length < 2 ^ 32)
    (hnot : ¬RoyaltyEnforced (outputs.map kindOf) seller creator royaltyBps) :
    ∃ amounts, Breaks outputs seller creator royaltyBps amounts := by
  have hsale : (.normal, seller) ∈ outputs.map kindOf := by
    by_contra hnone
    exact hnot (.unpriced hnone)
  have hshare : creator = seller → 10000 < royaltyBps := by
    intro hown
    by_contra hle
    exact hnot (.own hown (not_lt.mp hle))
  by_cases hforeign : ∃ kind, (kind, creator) ∈ outputs.map kindOf ∧ kind.isNativeAmount = false
  · obtain ⟨kind, hkind, hforeign⟩ := hforeign
    exact breaks_of_foreign hpositive hbps hcount hsale hshare hforeign hkind
  · have hnative : ∀ kind ∈ outputs.map kindOf, PaidTo creator kind → Native kind := by
      rintro ⟨kind, owner⟩ hkind rfl
      by_contra hother
      exact hforeign ⟨kind, hkind, by simpa using hother⟩
    have hhidden : ∃ kind, (kind, seller) ∈ outputs.map kindOf ∧ kind.isNativeAmount = true ∧
        kind ≠ .normal := by
      by_contra hnone
      refine hnot (.plain ?_ hnative)
      rintro ⟨kind, owner⟩ hkind ⟨hpays, rfl⟩
      by_contra hother
      exact hnone ⟨kind, hkind, hpays, hother⟩
    obtain ⟨kind, hkind, hpays, hnotNormal⟩ := hhidden
    by_cases hown : creator = seller
    · exact breaks_of_own hbps hcount hsale hown (hshare hown) hnotNormal hpays hkind
    · by_cases hpaid : ∃ other, (other, creator) ∈ outputs.map kindOf
      · obtain ⟨other, hother⟩ := hpaid
        exact breaks_of_hidden hpositive hbps hcount hsale hown hnotNormal hpays hkind
          (hnative _ hother rfl) hother
      · have hnone : ∀ kind ∈ outputs.map kindOf, ¬PaidTo creator kind := by
          rintro ⟨other, owner⟩ hother rfl
          exact hpaid ⟨other, hother⟩
        refine breaks_of_unpaid hpositive hbps hcount hsale hnotNormal hpays hkind hnone ?_
        by_contra hprice
        exact hnot (.refused hnone (not_lt.mp hprice))

theorem kinds_reprice {amounts : List Nat} (hlength : amounts.length = outputs.length) :
    (reprice outputs amounts).map kindOf = outputs.map kindOf := by
  induction outputs generalizing amounts with
  | nil => rfl
  | cons output outputs ih =>
      cases amounts with
      | nil => cases hlength
      | cons amount amounts =>
          have hrest := ih (Nat.succ.inj hlength)
          unfold reprice at hrest ⊢
          rw [List.zipWith_cons_cons, List.map_cons, List.map_cons, hrest]
          rfl

end

/-! ## Accepted transfers -/

section

variable {rules : OpenRules} {ctx : ValidationContext} {tx : Transaction}

theorem positive_of_validateOutputsFrom {earlier outputs : List Output} {sum final : Nat}
    (hok : validateOutputsFrom rules ctx earlier outputs sum = .ok final) :
    ∀ output ∈ outputs, allowsZeroAmount output.outputType = false → 0 < output.amount := by
  induction outputs generalizing earlier sum with
  | nil => simp
  | cons output outputs ih =>
      obtain ⟨next, hfirst, hrest⟩ := bind_eq_ok.mp hok
      refine List.forall_mem_cons.mpr ⟨fun hzero => ?_, ih hrest⟩
      simp only [checkOutput, bind_eq_ok, exists_unit, refuseIf_eq_ok] at hfirst
      exact Nat.pos_of_ne_zero fun hamount => hfirst.1 ⟨hamount, hzero⟩

theorem payable_of_structure (htransfer : tx.txType = .transfer)
    (hok : validateTransactionSkipRegistrationVdf rules ctx tx = .ok ()) :
    Payable tx.outputs where
  supply := native_le_of_structure hok
  positive := by
    unfold validateTransactionSkipRegistrationVdf at hok
    split at hok
    case h_1 htype => exact absurd (htype.symm.trans htransfer) (by decide)
    case h_2 htype => exact absurd (htype.symm.trans htransfer) (by decide)
    case h_3 =>
      obtain ⟨-, -, -, -, sum, hsum, -⟩ := validateTransaction_eq_ok.mp hok
      exact positive_of_validateOutputsFrom hsum

end

section

variable {ctx : SpendingContext} {securityAuditActivationHeight : Nat} {tx : Transaction}
  {lookup : Outpoint → Option UtxoEntry}

theorem checkRoyalty_of_accepted
    (hok : (ctx.withRoyalties securityAuditActivationHeight).validateTransactionWithUtxos tx
      lookup = .ok ())
    (htransfer : tx.txType = .transfer) {input : Input} (hinput : input ∈ tx.inputs)
    {entry : UtxoEntry} (hentry : lookup (inputOutpoint input) = some entry)
    {royalty : Hash × Nat}
    (hroyalty : entry.output.nftRoyalty = some royalty ∨
      entry.output.encryptedContentRoyalty = some royalty) :
    ∃ label index,
      checkRoyalty tx.outputs label index entry.output.pubkeyHash (some royalty) = .ok () := by
  have hcoinbase : ¬tx.isCoinbase = true := by
    intro hcoinbase
    rw [(Transaction.isCoinbase_iff.mp hcoinbase).2.1] at hinput
    cases hinput
  have hreward : ¬tx.isEpochReward = true := by simp [Transaction.isEpochReward, htransfer]
  have hspends := ((accepted_cases hok).resolve_left hcoinbase).resolve_left hreward
  have hstate := hspends.typeState
  simp only [checkTypeState, htransfer] at hstate
  have hrules : checkContentTransfer securityAuditActivationHeight
      (ctx.withRoyalties securityAuditActivationHeight).base.currentHeight tx
        (consumedOutputs tx lookup) = .ok () := hstate
  have hspent : entry.output ∈ consumedOutputs tx lookup :=
    List.mem_filterMap.mpr ⟨input, hinput, by rw [hentry, Option.map_some]⟩
  obtain ⟨index, hrow⟩ := checkEach_zipIdx_ok (seq_eq_ok.mp hrules).1 hspent
  obtain ⟨hnft, hcontent⟩ := seq_eq_ok.mp hrow
  rcases hroyalty with hroyalty | hroyalty
  · exact ⟨_, index, hroyalty ▸ hnft⟩
  · exact ⟨_, index, hroyalty ▸ hcontent⟩

end

/-- The rule makes outputs of given types and owners keep the law at all amounts exactly where
it is enforced, and there every accepted transfer keeps it. -/
theorem royalty_law_iff {outputs : List Output} {seller creator : Hash} {royaltyBps : Nat}
    (hpositive : 0 < royaltyBps) (hbps : royaltyBps < 2 ^ 16)
    (hcount : outputs.length < 2 ^ 32) (label : String) (index : Nat) :
    ((∀ amounts, amounts.length = outputs.length → (∀ amount ∈ amounts, amount < 2 ^ 64) →
        Payable (reprice outputs amounts) →
          checkRoyalty (reprice outputs amounts) label index seller (some (creator, royaltyBps)) =
              .ok () →
            0 < salePrice (reprice outputs amounts) seller →
              PaysRoyalty (reprice outputs amounts) seller creator royaltyBps) ↔
      RoyaltyEnforced (outputs.map kindOf) seller creator royaltyBps) ∧
      ∀ (ctx : SpendingContext) (securityAuditActivationHeight : Nat) (tx : Transaction) lookup,
        (ctx.withRoyalties securityAuditActivationHeight).validateTransactionWithUtxos tx lookup =
            .ok () →
          tx.txType = .transfer → ∀ input ∈ tx.inputs, ∀ entry : UtxoEntry,
            lookup (inputOutpoint input) = some entry → entry.output.pubkeyHash = seller →
              (entry.output.nftRoyalty = some (creator, royaltyBps) ∨
                entry.output.encryptedContentRoyalty = some (creator, royaltyBps)) →
                0 < salePrice tx.outputs seller →
                  RoyaltyEnforced (tx.outputs.map kindOf) seller creator royaltyBps →
                    PaysRoyalty tx.outputs seller creator royaltyBps := by
  refine ⟨⟨?_, ?_⟩, ?_⟩
  · intro hkeeps
    by_contra hnot
    obtain ⟨amounts, hbreaks⟩ := exists_breaks_of_not_enforced hpositive hbps hcount hnot
    apply hbreaks.unpaid
    apply hkeeps amounts hbreaks.length hbreaks.inRange hbreaks.payable _ hbreaks.priced
    exact checkRoyalty_eq_ok.mpr fun _ _ => hbreaks.passes
  · intro henforced amounts hlength _ hpayable hrule happlies
    rw [← kinds_reprice hlength] at henforced
    exact paysRoyalty_of_enforced hpositive hbps hpayable hrule happlies henforced
  · rintro ctx securityAuditActivationHeight tx lookup hok htransfer input hinput entry hentry
      rfl hroyalty happlies henforced
    obtain ⟨label, index, hrule⟩ := checkRoyalty_of_accepted hok htransfer hinput hentry hroyalty
    have hpayable := payable_of_structure htransfer (structure_of_accepted hok)
    exact paysRoyalty_of_enforced hpositive hbps hpayable hrule happlies henforced

/-! ## A sale -/

def sampleSaleRules : OpenRules where
  typedOutput ctx earlier index output :=
    match output.outputType with
    | .encryptedContent => checkEncryptedContent 0 0 ctx.currentHeight index output
    | _ => sampleTokenRules.typedOutput ctx earlier index output
  typedPayload := sampleTokenRules.typedPayload

def sampleSaleContext : SpendingContext :=
  { sampleSpendingContext with rules := sampleSaleRules }

/-- No ciphertext, and five percent for the creator. -/
def sampleContent (owner : Hash) : Output where
  outputType := .encryptedContent
  amount := 1
  pubkeyHash := owner
  lockUntil := 0
  extraData := List.replicate 128 0 ++ 1 :: 0 :: ((⟨8⟩ : Hash).asBytes ++ leBytes 2 500)

def sampleSaleLookup (outpoint : Outpoint) : Option UtxoEntry :=
  if outpoint = ⟨⟨11⟩, 0⟩ then some ⟨sampleContent ⟨6⟩, 1, false, false⟩
  else sampleLookup outpoint

/-- The content for 4000, with `royalty` for the creator. -/
def sampleSale (royalty : Output) : Transaction where
  version := 1
  txType := .transfer
  inputs := [sampleSpend 1 ⟨⟨11⟩, 0⟩, sampleSpend 1 ⟨⟨9⟩, 0⟩, sampleSpend 1 ⟨⟨9⟩, 1⟩]
  outputs := [sampleContent ⟨5⟩, { samplePaid 4000 with pubkeyHash := ⟨6⟩ }, royalty,
    samplePaid 700, sampleTokens 9800]
  extraData := []

def samplePaidRoyalty : Output := { samplePaid 200 with pubkeyHash := ⟨8⟩ }

def sampleTokenRoyalty : Output := { sampleTokens 200 with pubkeyHash := ⟨8⟩ }

theorem royalty_law_iff_sample :
    PaysRoyalty (sampleSale samplePaidRoyalty).outputs ⟨6⟩ ⟨8⟩ 500 := by
  have hkinds : RoyaltyEnforced ((sampleSale samplePaidRoyalty).outputs.map kindOf) ⟨6⟩ ⟨8⟩
      500 := .plain (by decide) (by decide)
  exact (@royalty_law_iff [] ⟨6⟩ ⟨8⟩ 500 (by decide) (by decide) (by decide) "" 0).2
    sampleSaleContext 0 (sampleSale samplePaidRoyalty) sampleSaleLookup (by decide +kernel) rfl
    (sampleSpend 1 ⟨⟨11⟩, 0⟩) List.mem_cons_self ⟨sampleContent ⟨6⟩, 1, false, false⟩ rfl rfl
    (.inr (by decide +kernel)) (by decide +kernel) hkinds

/-- Two hundred tokens pass for a royalty of two hundred. -/
theorem royalty_paid_in_tokens :
    ¬∀ (ctx : SpendingContext) (securityAuditActivationHeight : Nat) (tx : Transaction) lookup,
      (ctx.withRoyalties securityAuditActivationHeight).validateTransactionWithUtxos tx lookup =
          .ok () →
        tx.txType = .transfer → ∀ input ∈ tx.inputs, ∀ entry : UtxoEntry,
          lookup (inputOutpoint input) = some entry → ∀ creator royaltyBps, 0 < royaltyBps →
            (entry.output.nftRoyalty = some (creator, royaltyBps) ∨
              entry.output.encryptedContentRoyalty = some (creator, royaltyBps)) →
              0 < requiredRoyalty (salePrice tx.outputs entry.output.pubkeyHash) royaltyBps →
                PaysRoyalty tx.outputs entry.output.pubkeyHash creator royaltyBps := by
  intro hall
  have hpaid := hall sampleSaleContext 0 (sampleSale sampleTokenRoyalty) sampleSaleLookup
    (by decide +kernel) rfl (sampleSpend 1 ⟨⟨11⟩, 0⟩) List.mem_cons_self
    ⟨sampleContent ⟨6⟩, 1, false, false⟩ rfl ⟨8⟩ 500 (by decide) (.inr (by decide +kernel))
    (by decide +kernel)
  revert hpaid
  decide +kernel

end Doli.Validation
