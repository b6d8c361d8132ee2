import Mathlib.Algebra.Order.BigOperators.Group.Finset
import Doli.Core.Transaction
import Doli.Lib.Run

/-!
# Branch support

The weight of a branch is the bond of its distinct supporters: the backers of
each block, and the attesters its bits name while its parent is on the branch.
-/

namespace Doli.Network

open Doli.Core Doli.Lib

/-- `[u8; 32]`: the bytes of a producer key or of a block hash. -/
abbrev SupporterId := BitVec 256

/-- `Hash::ZERO`, the parent of a first block. -/
def zeroHash : Hash := ⟨0⟩

/-- Apply's slot rule. -/
def slotAdvances (slot parentSlot : Nat) : Bool := parentSlot < slot

structure BlockSupport where
  parent : Hash
  backers : List (SupporterId × Nat)
  parentAttesters : List (SupporterId × Nat)
  slot : Option Nat
  parentSlot : Option Nat
  deriving DecidableEq, Repr

namespace BlockSupport

def default : BlockSupport := ⟨zeroHash, [], [], none, none⟩

def single (id : SupporterId) (weight : Nat) : BlockSupport :=
  { default with backers := [(id, weight)] }

/-- False only when both slots are known and the rule rejects the block. -/
def advancesSlot (support : BlockSupport) : Bool :=
  match support.slot, support.parentSlot with
  | some slot, some parentSlot => slotAdvances slot parentSlot
  | _, _ => true

/-- The supporters a block brings to a branch. -/
def rows (blocks : List Hash) (support : BlockSupport) : List (SupporterId × Nat) :=
  support.backers ++
    if support.parent ∈ blocks then support.parentAttesters else []

end BlockSupport

/-- The supporters seen so far and their weight. -/
structure UnionState where
  seen : Finset SupporterId
  sum : Nat

namespace UnionState

def empty : UnionState := ⟨∅, 0⟩

/-- A supporter counts once; the sum saturates. -/
def add (state : UnionState) (row : SupporterId × Nat) : UnionState :=
  if row.1 ∈ state.seen then state
  else ⟨insert row.1 state.seen, min (state.sum + row.2) (2 ^ 64 - 1)⟩

end UnionState

section Union

variable (blocks : List Hash) (getSupport : Hash → Option BlockSupport)

def unionFrom : List Hash → UnionState → Option UnionState
  | [], state => some state
  | block :: rest, state =>
      match getSupport block with
      | none => none
      | some support => unionFrom rest ((support.rows blocks).foldl .add state)

def unionWeight : Option Nat :=
  (unionFrom blocks getSupport blocks .empty).map UnionState.sum

/-- An unknown block adds nothing; a block that apply would reject empties the
branch. -/
def candidateUnion : Nat :=
  let support := fun block => (getSupport block).getD .default
  if blocks.any fun block => !(support block).advancesSlot then 0
  else (unionWeight blocks fun block => some (support block)).getD 0

end Union

/-! ## The union as a sum -/

/-- Every block of the branch is known and advances its slot, and an id has the
one weight `weightOf` wherever it appears. -/
structure Weighed (getSupport : Hash → Option BlockSupport)
    (weightOf : SupporterId → Nat) (blocks : List Hash) : Prop where
  known : ∀ block ∈ blocks, (getSupport block).isSome
  advances : ∀ block ∈ blocks, ∀ support, getSupport block = some support →
    support.advancesSlot = true
  weights : ∀ block ∈ blocks, ∀ support, getSupport block = some support →
    ∀ row ∈ support.backers ++ support.parentAttesters, row.2 = weightOf row.1

/-- The ids that support a branch. -/
def supporters (getSupport : Hash → Option BlockSupport) (blocks : List Hash) :
    Finset SupporterId :=
  (blocks.flatMap fun block =>
    ((getSupport block).elim [] (·.rows blocks)).map Prod.fst).toFinset

/-- Their exact weight. -/
def supportWeight (getSupport : Hash → Option BlockSupport)
    (weightOf : SupporterId → Nat) (blocks : List Hash) : Nat :=
  ∑ id ∈ supporters getSupport blocks, weightOf id

section Sum

variable {getSupport : Hash → Option BlockSupport} {weightOf : SupporterId → Nat}

/-- The state of the loop once it has seen the ids of `seen`. -/
def UnionState.of (weightOf : SupporterId → Nat) (seen : Finset SupporterId) :
    UnionState :=
  ⟨seen, min (∑ id ∈ seen, weightOf id) (2 ^ 64 - 1)⟩

theorem UnionState.add_of (seen : Finset SupporterId) {row : SupporterId × Nat}
    (hrow : row.2 = weightOf row.1) :
    (UnionState.of weightOf seen).add row = .of weightOf (insert row.1 seen) := by
  unfold add
  by_cases hseen : row.1 ∈ seen
  · have hseen' : row.1 ∈ (UnionState.of weightOf seen).seen := hseen
    rw [if_pos hseen', Finset.insert_eq_self.mpr hseen]
  · have hseen' : row.1 ∉ (UnionState.of weightOf seen).seen := hseen
    rw [if_neg hseen']
    simp only [UnionState.of, Finset.sum_insert hseen, hrow, UnionState.mk.injEq,
      true_and]
    omega

theorem UnionState.foldl_add {rows : List (SupporterId × Nat)}
    (hrows : ∀ row ∈ rows, row.2 = weightOf row.1) (seen : Finset SupporterId) :
    rows.foldl UnionState.add (.of weightOf seen) =
      .of weightOf (seen ∪ (rows.map Prod.fst).toFinset) := by
  induction rows generalizing seen with
  | nil => simp
  | cons row rows ih =>
      rw [List.foldl_cons, UnionState.add_of seen (hrows row List.mem_cons_self),
        ih fun other hother => hrows other (List.mem_cons_of_mem _ hother)]
      simp [Finset.insert_union]

theorem unionFrom_eq {blocks rest : List Hash}
    (hknown : ∀ block ∈ rest, (getSupport block).isSome)
    (hweights : ∀ block ∈ rest, ∀ support, getSupport block = some support →
      ∀ row ∈ support.rows blocks, row.2 = weightOf row.1)
    (seen : Finset SupporterId) :
    unionFrom blocks getSupport rest (.of weightOf seen) =
      some (.of weightOf (seen ∪ (rest.flatMap fun block =>
        ((getSupport block).elim [] (·.rows blocks)).map Prod.fst).toFinset)) := by
  induction rest generalizing seen with
  | nil => simp [unionFrom]
  | cons block rest ih =>
      obtain ⟨support, hsupport⟩ :=
        Option.isSome_iff_exists.mp (hknown block List.mem_cons_self)
      simp only [unionFrom, hsupport]
      rw [UnionState.foldl_add (hweights block List.mem_cons_self support hsupport),
        ih (fun other hother => hknown other (List.mem_cons_of_mem _ hother))
          fun other hother => hweights other (List.mem_cons_of_mem _ hother)]
      simp [hsupport, Finset.union_assoc]

theorem BlockSupport.mem_rows {blocks : List Hash} {support : BlockSupport}
    {row : SupporterId × Nat} (hrow : row ∈ support.rows blocks) :
    row ∈ support.backers ++ support.parentAttesters := by
  unfold rows at hrow
  split at hrow
  · exact hrow
  · exact List.mem_append_left _ (by simpa using hrow)

theorem Weighed.unionWeight_eq {blocks : List Hash}
    (hweighed : Weighed getSupport weightOf blocks) :
    unionWeight blocks getSupport =
      some (min (supportWeight getSupport weightOf blocks) (2 ^ 64 - 1)) := by
  have hunion := unionFrom_eq hweighed.known
    (fun block hblock support hsupport row (hrow : row ∈ support.rows blocks) =>
      hweighed.weights block hblock support hsupport row (BlockSupport.mem_rows hrow)) ∅
  have hempty : UnionState.of weightOf ∅ = .empty := by
    simp [UnionState.of, UnionState.empty]
  rw [hempty] at hunion
  simp [unionWeight, hunion, UnionState.of, supportWeight, supporters]

theorem unionFrom_congr {blocks rest : List Hash} {other : Hash → Option BlockSupport}
    (hsame : ∀ block ∈ rest, other block = getSupport block) (state : UnionState) :
    unionFrom blocks other rest state = unionFrom blocks getSupport rest state := by
  induction rest generalizing state with
  | nil => rfl
  | cons block rest ih =>
      simp only [unionFrom, hsame block List.mem_cons_self]
      cases getSupport block with
      | none => rfl
      | some support =>
          exact ih (fun member hmember => hsame member (List.mem_cons_of_mem _ hmember)) _

theorem candidateUnion_congr {blocks : List Hash} {other : Hash → Option BlockSupport}
    (hsame : ∀ block ∈ blocks, other block = getSupport block) :
    candidateUnion blocks other = candidateUnion blocks getSupport := by
  have hadvances : (blocks.any fun block => !((other block).getD .default).advancesSlot) =
      blocks.any fun block => !((getSupport block).getD .default).advancesSlot := by
    rw [Bool.eq_iff_iff, List.any_eq_true, List.any_eq_true]
    exact exists_congr fun block => and_congr_right fun hblock => by
      rw [hsame block hblock]
  have hunion : unionWeight blocks (fun block => some ((other block).getD .default)) =
      unionWeight blocks fun block => some ((getSupport block).getD .default) := by
    unfold unionWeight
    rw [unionFrom_congr fun block hblock => by rw [hsame block hblock]]
  simp only [candidateUnion, hadvances, hunion]

theorem Weighed.candidateUnion_eq {blocks : List Hash}
    (hweighed : Weighed getSupport weightOf blocks) :
    candidateUnion blocks getSupport =
      min (supportWeight getSupport weightOf blocks) (2 ^ 64 - 1) := by
  have hadvances : (blocks.any fun block =>
      !((getSupport block).getD .default).advancesSlot) = false := by
    rw [List.any_eq_false]
    intro block hblock
    obtain ⟨support, hsupport⟩ :=
      Option.isSome_iff_exists.mp (hweighed.known block hblock)
    simp [hsupport, hweighed.advances block hblock support hsupport]
  have hunion : unionWeight blocks (fun block =>
      some ((getSupport block).getD .default)) = unionWeight blocks getSupport := by
    unfold unionWeight
    rw [unionFrom_congr fun block hblock => ?_]
    obtain ⟨support, hsupport⟩ :=
      Option.isSome_iff_exists.mp (hweighed.known block hblock)
    simp [hsupport]
  simp only [candidateUnion, hadvances, hunion, hweighed.unionWeight_eq]
  rfl

theorem supportWeight_congr {blocks others : List Hash}
    (hsame : ∀ block, block ∈ others ↔ block ∈ blocks) :
    supportWeight getSupport weightOf others =
      supportWeight getSupport weightOf blocks := by
  have hrows : ∀ support : BlockSupport, support.rows others = support.rows blocks := by
    intro support
    simp only [BlockSupport.rows, hsame]
  have hids : supporters getSupport others = supporters getSupport blocks := by
    ext id
    simp only [supporters, List.mem_toFinset, List.mem_flatMap, hrows, hsame]
  rw [supportWeight, hids, supportWeight]

theorem Weighed.congr {blocks others : List Hash}
    (hweighed : Weighed getSupport weightOf blocks)
    (hsame : ∀ block, block ∈ others ↔ block ∈ blocks) :
    Weighed getSupport weightOf others where
  known block hblock := hweighed.known block ((hsame block).mp hblock)
  advances block hblock := hweighed.advances block ((hsame block).mp hblock)
  weights block hblock := hweighed.weights block ((hsame block).mp hblock)

theorem supportWeight_append_le (blocks more : List Hash) :
    supportWeight getSupport weightOf blocks ≤
      supportWeight getSupport weightOf (blocks ++ more) := by
  apply Finset.sum_le_sum_of_subset
  intro id hid
  simp only [supporters, List.mem_toFinset, List.mem_flatMap, List.mem_map] at hid ⊢
  obtain ⟨block, hblock, row, hrow, hid⟩ := hid
  refine ⟨block, List.mem_append_left _ hblock, row, ?_, hid⟩
  cases hsupport : getSupport block with
  | none => simp [hsupport] at hrow
  | some support =>
      simp only [hsupport, Option.elim_some, BlockSupport.rows, List.mem_append] at hrow ⊢
      refine hrow.imp_right fun hattester => ?_
      split at hattester
      case isTrue hparent => rwa [if_pos (.inl hparent)]
      case isFalse => simp at hattester

theorem weighed_candidate {blocks : List Hash}
    (hadvances : ∀ block ∈ blocks, ((getSupport block).getD .default).advancesSlot = true)
    (hweights : ∀ block ∈ blocks, ∀ support, getSupport block = some support →
      ∀ row ∈ support.backers ++ support.parentAttesters, row.2 = weightOf row.1) :
    Weighed (fun block => some ((getSupport block).getD .default)) weightOf blocks where
  known _ _ := rfl
  advances block hblock support hsupport := by
    rw [← Option.some.inj hsupport]
    exact hadvances block hblock
  weights block hblock support hsupport row hrow := by
    rw [← Option.some.inj hsupport] at hrow
    cases hfound : getSupport block with
    | none => simp [hfound, BlockSupport.default] at hrow
    | some found =>
        rw [hfound] at hrow
        exact hweights block hblock found hfound row hrow

theorem candidateUnion_append_le {blocks more : List Hash}
    (hadvances : ∀ block ∈ more, ((getSupport block).getD .default).advancesSlot = true)
    (hweights : ∀ block ∈ blocks ++ more, ∀ support, getSupport block = some support →
      ∀ row ∈ support.backers ++ support.parentAttesters, row.2 = weightOf row.1) :
    candidateUnion blocks getSupport ≤ candidateUnion (blocks ++ more) getSupport := by
  by_cases hstuck : ∀ block ∈ blocks,
      ((getSupport block).getD .default).advancesSlot = true
  · have hblocks := weighed_candidate hstuck fun block hblock =>
      hweights block (List.mem_append_left _ hblock)
    have hall : Weighed (fun block => some ((getSupport block).getD .default)) weightOf
        (blocks ++ more) := by
      refine weighed_candidate (fun block hblock => ?_) hweights
      exact (List.mem_append.mp hblock).elim (hstuck block) (hadvances block)
    have hfirst := hblocks.candidateUnion_eq
    have hsecond := hall.candidateUnion_eq
    change candidateUnion blocks getSupport = _ at hfirst
    change candidateUnion (blocks ++ more) getSupport = _ at hsecond
    rw [hfirst, hsecond]
    exact min_le_min_right _ (supportWeight_append_le blocks more)
  · have hzero : candidateUnion blocks getSupport = 0 := by
      unfold candidateUnion
      rw [if_pos]
      push Not at hstuck
      obtain ⟨block, hblock, hstuck⟩ := hstuck
      exact List.any_eq_true.mpr ⟨block, hblock, by simp [hstuck]⟩
    omega

end Sum

end Doli.Network
