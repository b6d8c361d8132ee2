import Doli.Lib.Weights
import Doli.Producer.Persisted

/-!
# The oracle price

The last attestation of every signer counts, with the bonds of the signer for a weight; the
price is the median of these.
-/

namespace Doli.Core

open Doli.Lib

structure AttestationContribution where
  signerHash : Hash
  priceCents : Nat
  deriving DecidableEq, Repr

/-- In the order of the prices; sorting by it keeps equal prices as they come. -/
def priceLe (left right : Nat × Nat) : Prop := left.1 ≤ right.1

instance : DecidableRel priceLe := fun left right =>
  inferInstanceAs (Decidable (left.1 ≤ right.1))

instance : Std.Total priceLe := ⟨fun left right => Nat.le_total left.1 right.1⟩

instance : IsTrans (Nat × Nat) priceLe := ⟨fun _ _ _ => Nat.le_trans⟩

section

variable (bondSnapshot : Column Hash Nat)

def bondedWeight (contribution : AttestationContribution) : Nat :=
  (bondSnapshot.lookup contribution.signerHash).getD 0

/-- Prices with their weights; signers without bonds are left out. -/
def weightedPrices (attestations : List AttestationContribution) : List (Nat × Nat) :=
  attestations.filterMap fun attestation =>
    let weight := bondedWeight bondSnapshot attestation
    if weight = 0 then none else some (attestation.priceCents, weight)

/-- Median and number of contributors.  No list is long enough for its `u64` weights to fill
the `u128` they are summed in. -/
def bondWeightedMedian (attestations : List AttestationContribution) : Option (Nat × Nat) :=
  let weighted := weightedPrices bondSnapshot attestations
  match weighted.insertionSort priceLe with
  | [] => none
  | first :: rest =>
      let ceilHalf := (totalWeight (first :: rest) + 1) / 2
      some ((crossing ceilHalf (first :: rest) 0).getD first.1, min weighted.length (2 ^ 16 - 1))

end

/-- The map from signers to their last contribution. -/
def latestBySigner (contributions : List AttestationContribution) :
    Column Hash AttestationContribution :=
  contributions.foldl (fun bySigner contribution =>
    bySigner.insert contribution.signerHash contribution) ∅

/-- The values of the map in the order of its keys. -/
def dedupeLatestPerAttester (contributions : List AttestationContribution) :
    List AttestationContribution :=
  let bySigner := latestBySigner contributions
  (listing Hash.bytesLe bySigner.keys).filterMap bySigner.lookup

def epochPrice (bondSnapshot : Column Hash Nat) (contributions : List AttestationContribution) :
    Option (Nat × Nat) :=
  bondWeightedMedian bondSnapshot (dedupeLatestPerAttester contributions)

def contributionsOf (signer : Hash) (contributions : List AttestationContribution) :
    List AttestationContribution :=
  contributions.filter fun contribution => contribution.signerHash = signer

/-! ## The last of every signer -/

section

variable {contributions : List AttestationContribution} {contribution : AttestationContribution}
  {signer : Hash}

theorem lookup_latestBySigner :
    (latestBySigner contributions).lookup signer =
      (contributionsOf signer contributions).getLast? := by
  induction contributions using List.reverseRecOn with
  | nil => exact Finmap.lookup_empty signer
  | append_singleton contributions last ih =>
      unfold latestBySigner contributionsOf at ih ⊢
      rw [List.foldl_append, List.filter_append]
      by_cases hsigner : last.signerHash = signer
      · rw [List.filter_cons_of_pos (by simpa using hsigner), List.filter_nil,
          List.getLast?_append]
        subst hsigner
        exact Finmap.lookup_insert _
      · rw [List.filter_cons_of_neg (by simpa using hsigner), List.filter_nil, List.append_nil,
          ← ih]
        exact Finmap.lookup_insert_of_ne _ fun hsame => hsigner hsame.symm

theorem signerHash_of_lookup
    (hlookup : (latestBySigner contributions).lookup signer = some contribution) :
    contribution.signerHash = signer := by
  rw [lookup_latestBySigner] at hlookup
  have hmem := List.mem_of_getLast? hlookup
  exact of_decide_eq_true (List.mem_filter.mp hmem).2

theorem mem_dedupeLatestPerAttester :
    contribution ∈ dedupeLatestPerAttester contributions ↔
      (contributionsOf contribution.signerHash contributions).getLast? = some contribution := by
  rw [← lookup_latestBySigner]
  unfold dedupeLatestPerAttester
  rw [List.mem_filterMap]
  constructor
  · rintro ⟨signer, -, hlookup⟩
    rw [signerHash_of_lookup hlookup]
    exact hlookup
  · intro hlookup
    refine ⟨contribution.signerHash, (mem_listing Hash.bytesLe).mpr ?_, hlookup⟩
    exact Finmap.mem_keys.mpr (Finmap.mem_of_lookup_eq_some hlookup)

theorem signers_dedupeLatestPerAttester (contributions : List AttestationContribution) :
    (dedupeLatestPerAttester contributions).map AttestationContribution.signerHash =
      listing Hash.bytesLe (latestBySigner contributions).keys := by
  unfold dedupeLatestPerAttester
  rw [List.map_filterMap]
  have hself : ∀ signer ∈ listing Hash.bytesLe (latestBySigner contributions).keys,
      ((latestBySigner contributions).lookup signer).map AttestationContribution.signerHash =
        some (id signer) := by
    intro signer hsigner
    rw [mem_listing, Finmap.mem_keys] at hsigner
    obtain ⟨kept, hkept⟩ := Finmap.mem_iff.mp hsigner
    rw [hkept, Option.map_some, signerHash_of_lookup hkept]
    rfl
  rw [List.filterMap_eq_map_iff_forall_eq_some.mpr hself, List.map_id]

theorem nodup_signers (contributions : List AttestationContribution) :
    ((dedupeLatestPerAttester contributions).map AttestationContribution.signerHash).Nodup := by
  rw [signers_dedupeLatestPerAttester]
  exact nodup_listing Hash.bytesLe _

theorem dedupeLatestPerAttester_congr {others : List AttestationContribution}
    (hsame : ∀ signer, (contributionsOf signer others).getLast? =
      (contributionsOf signer contributions).getLast?) :
    dedupeLatestPerAttester others = dedupeLatestPerAttester contributions := by
  have hmap : latestBySigner others = latestBySigner contributions := by
    apply Finmap.ext_lookup
    intro signer
    rw [lookup_latestBySigner, lookup_latestBySigner, hsame signer]
  unfold dedupeLatestPerAttester
  rw [hmap]

end

/-! ## The median -/

section

variable {bondSnapshot : Column Hash Nat} {attestations : List AttestationContribution}

theorem weightedPrices_cons (attestation : AttestationContribution) :
    weightedPrices bondSnapshot (attestation :: attestations) =
      (if bondedWeight bondSnapshot attestation = 0 then []
        else [(attestation.priceCents, bondedWeight bondSnapshot attestation)]) ++
          weightedPrices bondSnapshot attestations := by
  unfold weightedPrices
  by_cases hzero : bondedWeight bondSnapshot attestation = 0
  · rw [List.filterMap_cons_none (by simp [hzero]), if_pos hzero, List.nil_append]
  · rw [List.filterMap_cons_some (by simp [hzero]; rfl), if_neg hzero]
    rfl

theorem totalWeight_weightedPrices :
    totalWeight (weightedPrices bondSnapshot attestations) =
      (attestations.map (bondedWeight bondSnapshot)).sum := by
  induction attestations with
  | nil => rfl
  | cons attestation attestations ih =>
      rw [weightedPrices_cons, List.map_cons, List.sum_cons, ← ih]
      split
      case isTrue hzero => rw [hzero, List.nil_append, Nat.zero_add]
      case isFalse => rfl

theorem weightWhere_weightedPrices (test : Nat → Prop) [DecidablePred test] :
    weightWhere (weightedPrices bondSnapshot attestations) test =
      ((attestations.filter fun attestation => test attestation.priceCents).map
        (bondedWeight bondSnapshot)).sum := by
  induction attestations with
  | nil => rfl
  | cons attestation attestations ih =>
      rw [weightedPrices_cons]
      by_cases hprice : test attestation.priceCents
      · rw [List.filter_cons_of_pos (by simpa using hprice), List.map_cons, List.sum_cons, ← ih]
        split
        case isTrue hzero => rw [hzero, List.nil_append, Nat.zero_add]
        case isFalse => rw [List.singleton_append, weightWhere_cons, if_pos hprice]
      · rw [List.filter_cons_of_neg (by simpa using hprice), ← ih]
        split
        case isTrue => rw [List.nil_append]
        case isFalse => rw [List.singleton_append, weightWhere_cons, if_neg hprice, Nat.zero_add]

theorem bondWeightedMedian_crosses
    (hweight : 0 < totalWeight (weightedPrices bondSnapshot attestations)) :
    ∃ median, bondWeightedMedian bondSnapshot attestations =
        some (median, min (weightedPrices bondSnapshot attestations).length (2 ^ 16 - 1)) ∧
      Crosses (weightedPrices bondSnapshot attestations)
        ((totalWeight (weightedPrices bondSnapshot attestations) + 1) / 2) median := by
  have hperm := List.perm_insertionSort priceLe (weightedPrices bondSnapshot attestations)
  have hsorted := List.pairwise_insertionSort priceLe (weightedPrices bondSnapshot attestations)
  have htotal := totalWeight_perm hperm
  unfold bondWeightedMedian
  dsimp only
  cases hrows : (weightedPrices bondSnapshot attestations).insertionSort priceLe with
  | nil =>
      rw [hrows] at htotal
      exact absurd htotal.symm (Nat.ne_of_gt hweight)
  | cons first rest =>
      rw [hrows] at hperm hsorted htotal
      rw [← htotal] at hweight ⊢
      have hopen : 0 < (totalWeight (first :: rest) + 1) / 2 := by omega
      obtain ⟨median, hmedian⟩ := exists_crossing hopen
        (by omega : _ ≤ 0 + totalWeight (first :: rest))
      refine ⟨median, ?_, ?_⟩
      · dsimp only
        rw [hmedian, Option.getD_some]
      · exact (crosses_of_crossing hsorted (by omega) hmedian).perm hperm

theorem bondWeightedMedian_between {low high : Nat}
    (hmajority : (attestations.map (bondedWeight bondSnapshot)).sum <
      2 * ((attestations.filter fun attestation =>
        low ≤ attestation.priceCents ∧ attestation.priceCents ≤ high).map
          (bondedWeight bondSnapshot)).sum) :
    ∃ median count, bondWeightedMedian bondSnapshot attestations = some (median, count) ∧
      low ≤ median ∧ median ≤ high := by
  rw [← totalWeight_weightedPrices, ← weightWhere_weightedPrices
    (fun price => low ≤ price ∧ price ≤ high)] at hmajority
  have hpart : weightWhere (weightedPrices bondSnapshot attestations)
      (fun price => low ≤ price ∧ price ≤ high) ≤
        totalWeight (weightedPrices bondSnapshot attestations) := weightWhere_le
  have hweight : 0 < totalWeight (weightedPrices bondSnapshot attestations) := by omega
  obtain ⟨median, hmedian, hcrosses⟩ := bondWeightedMedian_crosses hweight
  exact ⟨median, _, hmedian, hcrosses.between hmajority⟩

end

/-! ## Robustness -/

section

variable {contributions others : List AttestationContribution}

theorem contributionsOf_append (signer : Hash) :
    contributionsOf signer (contributions ++ others) =
      contributionsOf signer contributions ++ contributionsOf signer others :=
  List.filter_append _ _

/-- A copy changes nothing where its signer has a later contribution, or where it is the one
that is kept. -/
theorem dedupe_insert {front back : List AttestationContribution}
    {copy : AttestationContribution}
    (hcopy : (∃ later ∈ back, later.signerHash = copy.signerHash) ∨
      copy ∈ dedupeLatestPerAttester (front ++ back)) :
    dedupeLatestPerAttester (front ++ copy :: back) =
      dedupeLatestPerAttester (front ++ back) := by
  apply dedupeLatestPerAttester_congr
  intro signer
  by_cases hsigner : copy.signerHash = signer
  · subst hsigner
    have hcons : contributionsOf copy.signerHash (copy :: back) =
        copy :: contributionsOf copy.signerHash back :=
      List.filter_cons_of_pos (decide_eq_true rfl)
    rw [contributionsOf_append, contributionsOf_append, hcons]
    by_cases hlater : contributionsOf copy.signerHash back = []
    · rcases hcopy with ⟨later, hmem, hsame⟩ | hkept
      · have hfound : later ∈ contributionsOf copy.signerHash back :=
          List.mem_filter.mpr ⟨hmem, decide_eq_true hsame⟩
        rw [hlater] at hfound
        contradiction
      · rw [mem_dedupeLatestPerAttester, contributionsOf_append, hlater,
          List.append_nil] at hkept
        rw [hlater, List.append_nil, hkept, List.getLast?_append]
        rfl
    · rw [List.getLast?_append_of_ne_nil _ (List.cons_ne_nil _ _),
        List.getLast?_append_of_ne_nil _ hlater, List.getLast?_cons_of_ne_nil hlater]
  · have hcons : contributionsOf signer (copy :: back) = contributionsOf signer back :=
      List.filter_cons_of_neg (by simpa using hsigner)
    rw [contributionsOf_append, contributionsOf_append, hcons]

end

/-- The price of an epoch comes from the last contribution of every signer; a majority of the
bonds keeps it between two bounds, and neither the order among signers nor a copy that is not
the new last of its signer changes it. -/
theorem oracle_median_robust (bondSnapshot : Column Hash Nat)
    (contributions : List AttestationContribution) :
    (((dedupeLatestPerAttester contributions).map AttestationContribution.signerHash).Nodup ∧
        ∀ contribution, contribution ∈ dedupeLatestPerAttester contributions ↔
          (contributionsOf contribution.signerHash contributions).getLast? =
            some contribution) ∧
      (∀ low high,
        ((dedupeLatestPerAttester contributions).map (bondedWeight bondSnapshot)).sum <
            2 * (((dedupeLatestPerAttester contributions).filter fun kept =>
              low ≤ kept.priceCents ∧ kept.priceCents ≤ high).map
                (bondedWeight bondSnapshot)).sum →
          ∃ median count, epochPrice bondSnapshot contributions = some (median, count) ∧
            low ≤ median ∧ median ≤ high) ∧
      (∀ others, (∀ signer, contributionsOf signer others = contributionsOf signer contributions) →
        epochPrice bondSnapshot others = epochPrice bondSnapshot contributions) ∧
      ∀ front back copy, contributions = front ++ back → copy ∈ contributions →
        (∃ later ∈ back, later.signerHash = copy.signerHash) ∨
          copy ∈ dedupeLatestPerAttester contributions →
        epochPrice bondSnapshot (front ++ copy :: back) =
          epochPrice bondSnapshot contributions := by
  refine ⟨⟨nodup_signers contributions, fun _ => mem_dedupeLatestPerAttester⟩, ?_, ?_, ?_⟩
  · exact fun low high hmajority => bondWeightedMedian_between hmajority
  · intro others hsame
    unfold epochPrice
    rw [dedupeLatestPerAttester_congr fun signer => congrArg List.getLast? (hsame signer)]
  · rintro front back copy rfl - hcopy
    unfold epochPrice
    rw [dedupe_insert hcopy]

/-- An old price that is sent again is the latest. -/
theorem repeated_price_counts :
    ¬∀ (bondSnapshot : Column Hash Nat) (front back : List AttestationContribution)
      (copy : AttestationContribution), copy ∈ front ++ back →
        epochPrice bondSnapshot (front ++ copy :: back) =
          epochPrice bondSnapshot (front ++ back) := by
  intro hall
  have hsame := hall ((∅ : Column Hash Nat).insert ⟨1⟩ 1) [⟨⟨1⟩, 100⟩, ⟨⟨1⟩, 200⟩] [] ⟨⟨1⟩, 100⟩
    (by decide)
  revert hsame
  decide +kernel

end Doli.Core
