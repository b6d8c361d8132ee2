import Doli.Core.MultisigKeys
import Doli.Core.Pool

/-!
# Signed refunds

`has_signed_refund` looks for a signature somewhere in the right branch of a condition.  A
branch is met through any one of its alternatives, the sets of leaves that are enough for
it, so a signature helps only where every alternative that can be met has one.
-/

namespace Doli.Core

open Doli.Lib

namespace Condition

/-! ## The scan -/

mutual

def containsSignature : Condition → Bool
  | .signature _ => true
  | .and left right => containsSignature left || containsSignature right
  | .or left right => containsSignature left || containsSignature right
  | .threshold _ conditions => anyContainsSignature conditions
  | _ => false

def anyContainsSignature : List Condition → Bool
  | [] => false
  | condition :: conditions => containsSignature condition || anyContainsSignature conditions

end

def hasSignedRefund : Condition → Bool
  | .or _ right => containsSignature right
  | _ => false

mutual

def containsGuard : Condition → Bool
  | .amountGuard _ _ => true
  | .outputTypeGuard _ _ => true
  | .recipientGuard _ _ => true
  | .maxDeltaGuard _ _ _ => true
  | .reserveRatioGuard _ _ _ => true
  | .and left right => containsGuard left || containsGuard right
  | .or left right => containsGuard left || containsGuard right
  | .threshold _ conditions => anyContainsGuard conditions
  | _ => false

def anyContainsGuard : List Condition → Bool
  | [] => false
  | condition :: conditions => containsGuard condition || anyContainsGuard conditions

end

/-! ## What the decoder returns -/

section

variable {condition : Condition} {consumed : Nat}

theorem byteAt_lt (bytes : Bytes) (index : Nat) : byteAt bytes index < 256 :=
  UInt8.toNat_lt _

theorem fits_of_decodeHashAt {tag : Hash → Condition} {rest : Bytes}
    (htag : ∀ hash, (tag hash).Fits)
    (hok : decodeHashAt tag rest = .ok (condition, consumed)) : condition.Fits := by
  unfold decodeHashAt at hok
  split at hok
  · contradiction
  · cases hok
    exact htag _

theorem fits_of_decodeHeightAt {tag : Nat → Condition} {rest : Bytes}
    (htag : ∀ height < 2 ^ 64, (tag height).Fits)
    (hok : decodeHeightAt tag rest = .ok (condition, consumed)) : condition.Fits := by
  unfold decodeHeightAt at hok
  split at hok
  · contradiction
  · cases hok
    exact htag _ (Output.leNat_slice_lt rest 0 8)

theorem fits_of_decodeMultisig {rest : Bytes}
    (hok : decodeMultisig rest = .ok (condition, consumed)) : condition.Fits := by
  simp only [decodeMultisig] at hok
  repeat (split at hok; contradiction)
  cases hok
  unfold Fits
  exact byteAt_lt rest 0

theorem fits_of_decodeGuard {tag : Nat} {rest : Bytes}
    (hok : decodeGuard tag rest = .ok (condition, consumed)) : condition.Fits := by
  unfold decodeGuard at hok
  split at hok
  case h_1 =>
    split at hok
    · contradiction
    · cases hok
      unfold Fits
      exact ⟨Output.leNat_slice_lt rest 0 8, byteAt_lt rest 8⟩
  case h_2 =>
    split at hok
    · contradiction
    · split at hok
      · contradiction
      · cases hok
        unfold Fits
        exact byteAt_lt rest 1
  case h_3 =>
    split at hok
    · contradiction
    · cases hok
      unfold Fits
      exact byteAt_lt rest 32
  case h_4 =>
    split at hok
    · contradiction
    · cases hok
      unfold Fits
      exact ⟨Output.leNat_slice_lt rest 0 2, Output.leNat_slice_lt rest 2 8, byteAt_lt rest 10⟩
  case h_5 =>
    split at hok
    · contradiction
    · cases hok
      unfold Fits
      exact ⟨Output.leNat_slice_lt rest 0 2, byteAt_lt rest 2, byteAt_lt rest 3⟩
  case h_6 => contradiction

theorem allFit_of_decodeMany {decode : Decoder}
    (hdecode : ∀ {bytes condition consumed}, decode bytes = .ok (condition, consumed) →
      condition.Fits)
    {count : Nat} {bytes : Bytes} {conditions : List Condition}
    (hok : decodeMany decode count bytes = .ok (conditions, consumed)) : AllFit conditions := by
  induction count generalizing bytes conditions consumed with
  | zero =>
      cases hok
      trivial
  | succ count ih =>
      obtain ⟨⟨first, width⟩, hfirst, hok⟩ := bind_eq_ok.mp hok
      obtain ⟨⟨others, size⟩, hothers, hok⟩ := bind_eq_ok.mp hok
      cases hok
      exact ⟨hdecode hfirst, ih hothers⟩

theorem fits_of_decodeThreshold {decode : Decoder}
    (hdecode : ∀ {bytes condition consumed}, decode bytes = .ok (condition, consumed) →
      condition.Fits)
    {rest : Bytes} (hok : decodeThreshold decode rest = .ok (condition, consumed)) :
    condition.Fits := by
  simp only [decodeThreshold] at hok
  repeat (split at hok; contradiction)
  obtain ⟨⟨conditions, size⟩, hmany, hok⟩ := bind_eq_ok.mp hok
  cases hok
  unfold Fits
  exact ⟨byteAt_lt rest 0, allFit_of_decodeMany hdecode hmany⟩

theorem fits_of_decodeBranches {decode : Decoder}
    (hdecode : ∀ {bytes condition consumed}, decode bytes = .ok (condition, consumed) →
      condition.Fits)
    {node : Condition → Condition → Condition}
    (hnode : ∀ left right, left.Fits → right.Fits → (node left right).Fits) {rest : Bytes}
    (hok : decodeBranches decode node rest = .ok (condition, consumed)) :
    condition.Fits := by
  obtain ⟨⟨left, leftWidth⟩, hleft, hok⟩ := bind_eq_ok.mp hok
  obtain ⟨⟨right, rightWidth⟩, hright, hok⟩ := bind_eq_ok.mp hok
  cases hok
  exact hnode left right (hdecode hleft) (hdecode hright)

theorem fits_of_decodeInner {levels : Nat} {bytes : Bytes}
    (hok : decodeInner levels bytes = .ok (condition, consumed)) : condition.Fits := by
  induction levels generalizing bytes condition consumed with
  | zero => simp [decodeInner] at hok
  | succ levels ih =>
      cases bytes with
      | nil => simp [decodeInner] at hok
      | cons tag rest =>
          unfold decodeInner at hok
          split at hok
          case h_1 => exact fits_of_decodeHashAt (fun _ => by simp [Fits]) hok
          case h_2 => exact fits_of_decodeMultisig hok
          case h_3 => exact fits_of_decodeHashAt (fun _ => by simp [Fits]) hok
          case h_4 => exact fits_of_decodeHeightAt (fun _ hlt => by simpa [Fits] using hlt) hok
          case h_5 => exact fits_of_decodeHeightAt (fun _ hlt => by simpa [Fits] using hlt) hok
          case h_6 =>
            exact fits_of_decodeBranches ih
              (fun _ _ hleft hright => by simpa [Fits] using ⟨hleft, hright⟩) hok
          case h_7 =>
            exact fits_of_decodeBranches ih
              (fun _ _ hleft hright => by simpa [Fits] using ⟨hleft, hright⟩) hok
          case h_8 => exact fits_of_decodeThreshold ih hok
          case h_9 => exact fits_of_decodeGuard hok

end

/-! ## Alternatives -/

mutual

/-- The sets of leaves each of which is enough for the condition. -/
def alternatives : Condition → List (List Condition)
  | .and left right =>
      (alternatives left).flatMap fun first => (alternatives right).map fun second =>
        first ++ second
  | .or left right => alternatives left ++ alternatives right
  | .threshold n conditions => selections n conditions
  | leaf => [[leaf]]

/-- The sets of leaves each of which is enough for `n` of the conditions. -/
def selections : Nat → List Condition → List (List Condition)
  | 0, _ => [[]]
  | _ + 1, [] => []
  | n + 1, condition :: conditions =>
      ((alternatives condition).flatMap fun first => (selections n conditions).map fun second =>
        first ++ second) ++ selections (n + 1) conditions

end

def isLeaf : Condition → Bool
  | .and _ _ => false
  | .or _ _ => false
  | .threshold _ _ => false
  | _ => true

def asksSignature : Condition → Bool
  | .signature _ => true
  | .multisig _ _ => true
  | _ => false

@[elab_as_elim]
theorem leafInduction {motive : Condition → Prop}
    (hleaf : ∀ leaf : Condition, leaf.isLeaf = true → motive leaf)
    (hand : ∀ left right, motive left → motive right → motive (.and left right))
    (hor : ∀ left right, motive left → motive right → motive (.or left right))
    (hthreshold : ∀ n conditions, (∀ condition ∈ conditions, motive condition) →
      motive (.threshold n conditions))
    (condition : Condition) : motive condition :=
  treeInduction (fun _ => hleaf _ rfl) (fun _ _ => hleaf _ rfl) (fun _ => hleaf _ rfl)
    (fun _ => hleaf _ rfl) (fun _ => hleaf _ rfl) hand hor hthreshold (fun _ _ => hleaf _ rfl)
    (fun _ _ => hleaf _ rfl) (fun _ _ => hleaf _ rfl) (fun _ _ _ => hleaf _ rfl)
    (fun _ _ _ => hleaf _ rfl) condition

theorem alternatives_of_isLeaf {leaf : Condition} (hleaf : leaf.isLeaf = true) :
    leaf.alternatives = [[leaf]] := by
  cases leaf with
  | and | or | threshold => contradiction
  | _ => rfl

/-- A leaf of a tree that was accepted. -/
structure SoundLeaf (leaf : Condition) : Prop where
  isLeaf : leaf.isLeaf = true
  fits : leaf.Fits
  valid : leaf.validateStructure = .ok ()

theorem mem_join {firsts seconds : List (List Condition)} {joined : List Condition} :
    joined ∈ firsts.flatMap (fun first => seconds.map fun second => first ++ second) ↔
      ∃ first ∈ firsts, ∃ second ∈ seconds, first ++ second = joined := by
  simp only [List.mem_flatMap, List.mem_map]

theorem alternative_of_selections {n : Nat} {conditions alternative : List Condition}
    (hselected : alternative ∈ selections n conditions) {leaf : Condition}
    (hleaf : leaf ∈ alternative) :
    ∃ condition ∈ conditions, ∃ chosen ∈ condition.alternatives, leaf ∈ chosen := by
  induction conditions generalizing n alternative with
  | nil =>
      cases n with
      | zero =>
          rw [selections, List.mem_singleton] at hselected
          rw [hselected] at hleaf
          contradiction
      | succ n => contradiction
  | cons condition conditions ih =>
      cases n with
      | zero =>
          rw [selections, List.mem_singleton] at hselected
          rw [hselected] at hleaf
          contradiction
      | succ n =>
          rw [selections, List.mem_append, mem_join] at hselected
          rcases hselected with ⟨first, hfirst, second, hsecond, rfl⟩ | hselected
          · rcases List.mem_append.mp hleaf with hleaf | hleaf
            · exact ⟨condition, List.mem_cons_self, first, hfirst, hleaf⟩
            · obtain ⟨other, hother, rest⟩ := ih hsecond hleaf
              exact ⟨other, List.mem_cons_of_mem condition hother, rest⟩
          · obtain ⟨other, hother, rest⟩ := ih hselected hleaf
            exact ⟨other, List.mem_cons_of_mem condition hother, rest⟩

theorem soundLeaf_of_alternatives {condition : Condition} (hfits : condition.Fits)
    (hvalid : condition.validateStructure = .ok ()) :
    ∀ alternative ∈ condition.alternatives, ∀ leaf ∈ alternative, leaf.SoundLeaf := by
  induction condition using leafInduction with
  | hleaf leaf hleaf =>
      intro alternative halternative other hother
      rw [alternatives_of_isLeaf hleaf, List.mem_singleton] at halternative
      rw [halternative, List.mem_singleton] at hother
      rw [hother]
      exact ⟨hleaf, hfits, hvalid⟩
  | hand left right ihLeft ihRight =>
      unfold Fits at hfits
      obtain ⟨hleftValid, hrightValid⟩ := seq_eq_ok.mp hvalid
      intro alternative halternative leaf hleaf
      rw [alternatives, mem_join] at halternative
      obtain ⟨first, hfirst, second, hsecond, rfl⟩ := halternative
      rcases List.mem_append.mp hleaf with hleaf | hleaf
      · exact ihLeft hfits.1 hleftValid first hfirst leaf hleaf
      · exact ihRight hfits.2 hrightValid second hsecond leaf hleaf
  | hor left right ihLeft ihRight =>
      unfold Fits at hfits
      obtain ⟨hleftValid, hrightValid⟩ := seq_eq_ok.mp hvalid
      intro alternative halternative
      rw [alternatives, List.mem_append] at halternative
      rcases halternative with halternative | halternative
      · exact ihLeft hfits.1 hleftValid alternative halternative
      · exact ihRight hfits.2 hrightValid alternative halternative
  | hthreshold n conditions ih =>
      unfold Fits at hfits
      have hvalids := validateStructures_iff.mp
        (bounds_of_validateStructure_threshold hvalid).2.2.2
      intro alternative halternative leaf hleaf
      rw [alternatives] at halternative
      obtain ⟨condition, hcondition, chosen, hchosen, hleaf⟩ :=
        alternative_of_selections halternative hleaf
      exact ih condition hcondition (allFit_iff.mp hfits.2 condition hcondition)
        (hvalids condition hcondition) chosen hchosen leaf hleaf

end Condition

namespace EvalEnv

variable {env : EvalEnv}

def MeetsAll (env : EvalEnv) (alternative : List Condition) : Prop :=
  ∀ leaf ∈ alternative, env.Satisfied leaf

theorem exists_join_iff {firsts seconds : List (List Condition)} :
    (∃ joined ∈ firsts.flatMap (fun first => seconds.map fun second => first ++ second),
        env.MeetsAll joined) ↔
      (∃ first ∈ firsts, env.MeetsAll first) ∧ ∃ second ∈ seconds, env.MeetsAll second := by
  constructor
  · rintro ⟨joined, hjoined, hall⟩
    obtain ⟨first, hfirst, second, hsecond, rfl⟩ := Condition.mem_join.mp hjoined
    obtain ⟨hallFirst, hallSecond⟩ := List.forall_mem_append.mp hall
    exact ⟨⟨first, hfirst, hallFirst⟩, second, hsecond, hallSecond⟩
  · rintro ⟨⟨first, hfirst, hallFirst⟩, second, hsecond, hallSecond⟩
    exact ⟨first ++ second, Condition.mem_join.mpr ⟨first, hfirst, second, hsecond, rfl⟩,
      List.forall_mem_append.mpr ⟨hallFirst, hallSecond⟩⟩

theorem exists_selection_iff {conditions : List Condition}
    (hparts : ∀ condition ∈ conditions,
      env.Satisfied condition ↔ ∃ chosen ∈ condition.alternatives, env.MeetsAll chosen)
    {n : Nat} :
    (∃ chosen ∈ Condition.selections n conditions, env.MeetsAll chosen) ↔
      ∃ chosen : List Condition, chosen.Sublist conditions ∧ n ≤ chosen.length ∧
        ∀ condition ∈ chosen, env.Satisfied condition := by
  induction conditions generalizing n with
  | nil =>
      cases n with
      | zero => simp [Condition.selections, MeetsAll]
      | succ n => simp [Condition.selections]
  | cons condition conditions ih =>
      obtain ⟨hfirst, hothers⟩ := List.forall_mem_cons.mp hparts
      cases n with
      | zero =>
          refine ⟨fun _ => ⟨[], List.nil_sublist _, Nat.le_refl 0, by simp⟩, fun _ => ?_⟩
          exact ⟨[], List.mem_singleton_self _, by simp [MeetsAll]⟩
      | succ n =>
          have hsplit : (∃ chosen ∈ Condition.selections (n + 1) (condition :: conditions),
              env.MeetsAll chosen) ↔
              (env.Satisfied condition ∧
                ∃ chosen ∈ Condition.selections n conditions, env.MeetsAll chosen) ∨
              ∃ chosen ∈ Condition.selections (n + 1) conditions, env.MeetsAll chosen := by
            rw [Condition.selections, hfirst, ← exists_join_iff]
            simp only [List.mem_append, or_and_right, exists_or]
          rw [hsplit, ih hothers, ih hothers]
          constructor
          · rintro (⟨hmet, chosen, hlisted, henough, hall⟩ | ⟨chosen, hlisted, henough, hall⟩)
            · exact ⟨condition :: chosen, hlisted.cons_cons condition,
                Nat.succ_le_succ henough, List.forall_mem_cons.mpr ⟨hmet, hall⟩⟩
            · exact ⟨chosen, hlisted.cons condition, henough, hall⟩
          · rintro ⟨chosen, hlisted, henough, hall⟩
            cases hlisted with
            | cons _ hlisted => exact .inr ⟨chosen, hlisted, henough, hall⟩
            | cons_cons _ hlisted =>
                obtain ⟨hmet, hall⟩ := List.forall_mem_cons.mp hall
                exact .inl ⟨hmet, _, hlisted, Nat.le_of_succ_le_succ henough, hall⟩

theorem satisfied_iff_alternatives {condition : Condition} :
    env.Satisfied condition ↔ ∃ chosen ∈ condition.alternatives, env.MeetsAll chosen := by
  induction condition using Condition.leafInduction with
  | hleaf leaf hleaf => simp [Condition.alternatives_of_isLeaf hleaf, MeetsAll]
  | hand left right ihLeft ihRight =>
      rw [Condition.alternatives, exists_join_iff]
      refine Iff.trans ?_ (and_congr ihLeft ihRight)
      constructor
      · intro hmet
        cases hmet with
        | and hleft hright => exact ⟨hleft, hright⟩
      · exact fun hmet => .and hmet.1 hmet.2
  | hor left right ihLeft ihRight =>
      simp only [Condition.alternatives, List.mem_append, or_and_right, exists_or]
      refine Iff.trans ?_ (or_congr ihLeft ihRight)
      constructor
      · intro hmet
        cases hmet with
        | orLeft hleft => exact .inl hleft
        | orRight hright => exact .inr hright
      · rintro (hleft | hright)
        · exact .orLeft hleft
        · exact .orRight hright
  | hthreshold n conditions ih =>
      rw [Condition.alternatives, exists_selection_iff ih]
      constructor
      · intro hmet
        cases hmet with
        | threshold hlisted henough hall => exact ⟨_, hlisted, henough, hall⟩
      · rintro ⟨chosen, hlisted, henough, hall⟩
        exact .threshold hlisted henough hall

/-! ## Without a signature -/

structure Unsigned (env : EvalEnv) : Prop where
  height : env.currentHeight < 2 ^ 64
  preimage : ∀ bytes, env.witness.preimage = some bytes → bytes.length = 32
  amounts : ∀ tx, env.transaction = some tx → ∀ output ∈ tx.outputs, output.amount < 2 ^ 64
  signatures : ∀ signed ∈ env.witness.signatures,
    env.verifyHash env.signingHash signed.signature signed.pubkey = false

/-- Nobody meets the branch without a good signature. -/
def NeedsSignature (prim : Primitives) (verifyHash : Hash → Signature → PublicKey → Bool)
    (branch : Condition) : Prop :=
  ∀ env : EvalEnv, env.prim = prim → env.verifyHash = verifyHash → env.Unsigned →
    ∀ cursor, (env.evaluate branch cursor).1 = false

def showing (prim : Primitives) (tx : Transaction) : EvalEnv where
  prim := prim
  verifyHash _ _ _ := false
  witness := ⟨[], none, []⟩
  currentHeight := 0
  signingHash := ⟨0⟩
  transaction := some tx

/-- One preimage opens every hashlock among the leaves, and one transaction suits every
guard.  Heights are no obstacle: the last one is after every timelock and every expiry. -/
structure Meetable (prim : Primitives) (leaves : List Condition) : Prop where
  hashes : ∃ preimage : Bytes, preimage.length = 32 ∧
    ∀ expected, .hashlock expected ∈ leaves →
      prim.hashWithDomain (ascii "DOLI_HASHLOCK") preimage = expected
  guards : ∃ tx : Transaction, (∀ output ∈ tx.outputs, output.amount < 2 ^ 64) ∧
    ∀ guard ∈ leaves, guard.isLeaf = true → guard.containsGuard = true →
      (showing prim tx).Satisfied guard

theorem satisfied_guard_congr {other : EvalEnv} {guard : Condition}
    (hleaf : guard.isLeaf = true) (hguard : guard.containsGuard = true)
    (hsame : env.transaction = other.transaction)
    (hmet : env.Satisfied guard) : other.Satisfied guard := by
  have houtputs : ∀ index, env.outputAt index = other.outputAt index := by
    intro index
    rw [outputAt, outputAt, hsame]
  cases hmet with
  | amountGuard houtput hamount =>
      rw [houtputs] at houtput
      exact .amountGuard houtput hamount
  | outputTypeGuard houtput htype =>
      rw [houtputs] at houtput
      exact .outputTypeGuard houtput htype
  | recipientGuard houtput howner =>
      rw [houtputs] at houtput
      exact .recipientGuard houtput howner
  | maxDeltaGuard houtput hreference hdelta =>
      rw [houtputs] at houtput
      exact .maxDeltaGuard houtput hreference hdelta
  | reserveRatioGuard hreserve hdebt hpositive hratio =>
      rw [houtputs] at hreserve hdebt
      exact .reserveRatioGuard hreserve hdebt hpositive hratio
  | _ => contradiction

theorem transaction_of_guard {guard : Condition} (hleaf : guard.isLeaf = true)
    (hguard : guard.containsGuard = true) (hmet : env.Satisfied guard) :
    ∃ tx, env.transaction = some tx := by
  have hfound : ∀ {index output}, env.outputAt index = some output →
      ∃ tx, env.transaction = some tx := by
    intro index output houtput
    rw [outputAt, Option.bind_eq_some_iff] at houtput
    obtain ⟨tx, htx, -⟩ := houtput
    exact ⟨tx, htx⟩
  cases hmet with
  | amountGuard houtput _ => exact hfound houtput
  | outputTypeGuard houtput _ => exact hfound houtput
  | recipientGuard houtput _ => exact hfound houtput
  | maxDeltaGuard houtput _ _ => exact hfound houtput
  | reserveRatioGuard hreserve _ _ _ => exact hfound hreserve
  | _ => contradiction

theorem Unsigned.not_signed (hunsigned : env.Unsigned) (expected : Hash) :
    ¬env.Signed expected := by
  rintro ⟨signed, hsigned, hgood⟩
  have hbad := hunsigned.signatures signed hsigned
  rw [(signed_iff.mp hgood).2] at hbad
  contradiction

theorem Unsigned.not_satisfied {leaf : Condition} (hunsigned : env.Unsigned)
    (hsound : leaf.SoundLeaf) (hasks : leaf.asksSignature = true) : ¬env.Satisfied leaf := by
  intro hmet
  cases hmet with
  | signature hsigned => exact hunsigned.not_signed _ hsigned
  | multisig hlisted henough hsigned =>
      have hbounds := Condition.bounds_of_validateStructure_multisig hsound.valid
      obtain ⟨key, hkey⟩ := List.exists_mem_of_length_pos (hbounds.1.trans_le henough)
      exact hunsigned.not_signed key (hsigned key hkey)
  | _ => contradiction

theorem Unsigned.meetable {alternative : List Condition} (hunsigned : env.Unsigned)
    (hall : env.MeetsAll alternative) : Meetable env.prim alternative := by
  constructor
  case hashes =>
    cases hshown : env.witness.preimage with
    | some preimage =>
        refine ⟨preimage, hunsigned.preimage preimage hshown, ?_⟩
        intro expected hmem
        cases hall _ hmem with
        | hashlock hother hhash =>
            rw [hshown, Option.some.injEq] at hother
            rw [hother]
            exact hhash
    | none =>
        refine ⟨List.replicate 32 0, List.length_replicate, ?_⟩
        intro expected hmem
        cases hall _ hmem with
        | hashlock hother hhash =>
            rw [hshown] at hother
            contradiction
  case guards =>
    cases htx : env.transaction with
    | some tx =>
        refine ⟨tx, hunsigned.amounts tx htx, ?_⟩
        intro guard hmem hleaf hguard
        exact satisfied_guard_congr hleaf hguard htx (hall guard hmem)
    | none =>
        refine ⟨⟨1, .transfer, [], [], []⟩, by simp, ?_⟩
        intro guard hmem hleaf hguard
        obtain ⟨tx, hsome⟩ := transaction_of_guard hleaf hguard (hall guard hmem)
        rw [htx] at hsome
        contradiction

/-- A spend at the last height that shows a preimage and a transaction. -/
def unsignedSpend (prim : Primitives) (verifyHash : Hash → Signature → PublicKey → Bool)
    (preimage : Bytes) (tx : Transaction) : EvalEnv where
  prim := prim
  verifyHash := verifyHash
  witness := ⟨[], some preimage, []⟩
  currentHeight := 2 ^ 64 - 1
  signingHash := ⟨0⟩
  transaction := some tx

theorem Meetable.exists_unsigned {prim : Primitives} {alternative : List Condition}
    (hmeetable : Meetable prim alternative)
    (hsound : ∀ leaf ∈ alternative, leaf.SoundLeaf)
    (hnone : ∀ leaf ∈ alternative, leaf.asksSignature = false)
    (verifyHash : Hash → Signature → PublicKey → Bool) :
    ∃ env : EvalEnv, env.prim = prim ∧ env.verifyHash = verifyHash ∧ env.Unsigned ∧
      env.witness.orBranches = [] ∧ env.MeetsAll alternative := by
  obtain ⟨preimage, hpreimage, hhashes⟩ := hmeetable.hashes
  obtain ⟨tx, hamounts, hguards⟩ := hmeetable.guards
  refine ⟨unsignedSpend prim verifyHash preimage tx, rfl, rfl, ?_, rfl, ?_⟩
  · constructor
    case height => exact Nat.sub_lt (by decide) (by decide)
    case preimage =>
      intro bytes hshown
      rw [← Option.some.inj hshown]
      exact hpreimage
    case amounts =>
      intro other hother
      rw [← Option.some.inj hother]
      exact hamounts
    case signatures =>
      intro signed hsigned
      contradiction
  · intro leaf hleaf
    have hleafSound := hsound leaf hleaf
    have hasks := hnone leaf hleaf
    have hfits := hleafSound.fits
    have hsame : (showing prim tx).transaction =
        (unsignedSpend prim verifyHash preimage tx).transaction := rfl
    have hguarded : leaf.containsGuard = true →
        (unsignedSpend prim verifyHash preimage tx).Satisfied leaf :=
      fun hguard => satisfied_guard_congr hleafSound.isLeaf hguard hsame
        (hguards leaf hleaf hleafSound.isLeaf hguard)
    cases leaf with
    | signature _ => contradiction
    | multisig _ _ => contradiction
    | hashlock expected => exact .hashlock rfl (hhashes expected hleaf)
    | timelock height =>
        unfold Condition.Fits at hfits
        exact .timelock (Nat.le_pred_of_lt hfits)
    | timelockExpiry height =>
        unfold Condition.Fits at hfits
        exact .timelockExpiry (Nat.le_pred_of_lt hfits)
    | and _ _ => exact absurd hleafSound.isLeaf Bool.false_ne_true
    | or _ _ => exact absurd hleafSound.isLeaf Bool.false_ne_true
    | threshold _ _ => exact absurd hleafSound.isLeaf Bool.false_ne_true
    | amountGuard _ _ => exact hguarded rfl
    | outputTypeGuard _ _ => exact hguarded rfl
    | recipientGuard _ _ => exact hguarded rfl
    | maxDeltaGuard _ _ _ => exact hguarded rfl
    | reserveRatioGuard _ _ _ => exact hguarded rfl

/-- A branch needs a signature if and only if each of its alternatives that can be met has
one. -/
theorem needsSignature_iff {prim : Primitives}
    {verifyHash : Hash → Signature → PublicKey → Bool} {branch : Condition}
    (hfits : branch.Fits) (hvalid : branch.validateStructure = .ok ()) :
    NeedsSignature prim verifyHash branch ↔
      ∀ alternative ∈ branch.alternatives,
        (∃ leaf ∈ alternative, leaf.asksSignature = true) ∨ ¬Meetable prim alternative := by
  have hsound := Condition.soundLeaf_of_alternatives hfits hvalid
  constructor
  · intro hneeds alternative halternative
    by_contra hopen
    simp only [not_or, not_exists, not_and, Bool.not_eq_true, not_not] at hopen
    obtain ⟨hnone, hmeetable⟩ := hopen
    obtain ⟨env, hprim, hverify, hunsigned, hfree, hall⟩ :=
      hmeetable.exists_unsigned (hsound alternative halternative) hnone verifyHash
    have hmet := satisfied_iff_alternatives.mpr ⟨alternative, halternative, hall⟩
    have htrue := evaluate_of_satisfied hfree hmet hvalid 0
    rw [hneeds env hprim hverify hunsigned 0] at htrue
    contradiction
  · rintro hguarded env rfl rfl hunsigned cursor
    by_contra hmet
    rw [Bool.not_eq_false] at hmet
    obtain ⟨alternative, halternative, hall⟩ :=
      satisfied_iff_alternatives.mp (satisfied_of_evaluate hmet)
    rcases hguarded alternative halternative with ⟨leaf, hleaf, hasks⟩ | hnot
    · exact hunsigned.not_satisfied (hsound alternative halternative leaf hleaf) hasks
        (hall leaf hleaf)
    · exact hnot (hunsigned.meetable hall)

end EvalEnv

end Doli.Core
