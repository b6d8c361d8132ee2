import Doli.Lib.Freshest
import Doli.Lib.Ancestry
import Doli.Network.Support
import Mathlib.Data.List.Lex
import Mathlib.Data.Prod.Lex
import Mathlib.Logic.Relation

/-!
# Branch rank

Every path from a root of the cache to a tip is weighed whole under each of its blocks, and
a block keeps its best path.  A chain that ends before a tip weighs no more than its
extension by a child that advances, so the tips alone give the maximum.
-/

namespace Doli.Node

open Doli.Core Doli.Lib
open Doli.Network (BlockSupport SupporterId Weighed candidateUnion supportWeight supporters
  zeroHash)

/-- What the ranking reads of a cached block. -/
structure CachedBlock where
  prevHash : Hash
  slot : Nat
  deriving DecidableEq, Repr

abbrev BlockCache := Column Hash CachedBlock

/-- An entry of `best`: the weight and the tip of a path, and its blocks above the key. -/
structure RankedPath where
  weight : Nat
  tip : Hash
  rest : List Hash
  deriving DecidableEq, Repr

namespace BlockCache

section Definitions

variable (cache : BlockCache) (support : Hash → Hash → Option BlockSupport)

def advances (block : CachedBlock) : Bool :=
  { BlockSupport.default with
    slot := some block.slot
    parentSlot := (cache.lookup block.prevHash).map CachedBlock.slot }.advancesSlot

/-- The parents of the blocks that advance, from the values in any order. -/
def parents (order : List Hash) : List Hash :=
  ((order.filterMap cache.lookup).filter cache.advances).map CachedBlock.prevHash

/-- The hash that `block` names, for a cached one. -/
def prevOf (block : Hash) : Hash :=
  ((cache.lookup block).map CachedBlock.prevHash).getD zeroHash

/-- The path of a tip, from the tip back while the parent is cached. -/
def pathBack : Nat → Hash → List Hash
  | 0, block => [block]
  | fuel + 1, block =>
      if cache.prevOf block ∈ cache then block :: pathBack fuel (cache.prevOf block)
      else [block]

/-- `path[i..]` for every `i`, weighed under its first block. -/
def weighings (root tip : Hash) (path : List Hash) : List (Hash × RankedPath) :=
  path.tails.filterMap fun suffix =>
    match suffix with
    | [] => none
    | block :: rest => some (block, ⟨candidateUnion suffix (support root), tip, rest⟩)

def offersOf (tip : Hash) : List (Hash × RankedPath) :=
  let path := (cache.pathBack cache.keys.card tip).reverse
  weighings support (cache.prevOf (path.headD tip)) tip path

def sortKey (block : Hash) : ℕ ×ₗ ℕ :=
  toLex (((cache.lookup block).map CachedBlock.slot).getD 0, block.word.toNat)

/-- The heavier path, and of equal ones the lower one child by child. -/
def wins (offered kept : RankedPath) : Bool :=
  decide (kept.weight < offered.weight) ||
    decide (offered.weight = kept.weight) &&
      decide (offered.rest.map cache.sortKey < kept.rest.map cache.sortKey)

/-- `order` is the order in which the keys of the cache come. -/
def bondBranches (order : List Hash) (block : Hash) : Option (Nat × Hash) :=
  let tips := order.filter fun hash => hash ∉ cache.parents order
  let best := putOffers cache.wins (tips.flatMap (cache.offersOf support))
  (best.lookup block).map fun ranked => (ranked.weight, ranked.tip)

end Definitions

/-! ## What the ranking is to find -/

section Chains

variable (cache : BlockCache)

/-- A cached parent of a cached block. -/
def Links (parent child : Hash) : Prop :=
  parent ∈ cache ∧ ∃ block, cache.lookup child = some block ∧ block.prevHash = parent

def Acyclic : Prop := ∀ hash, ¬Relation.TransGen cache.Links hash hash

/-- A chain of cached blocks from `block` up through `rest`. -/
structure CachedChain (block : Hash) (rest : List Hash) : Prop where
  start : block ∈ cache
  cached : ∀ hash ∈ rest, hash ∈ cache
  linked : LinkedFrom id cache.prevOf block rest

/-- The blocks from `block` back to the first one, and the parent of that one, which is not
cached. -/
inductive Back : Hash → List Hash → Hash → Prop
  | root {block : Hash} : block ∈ cache → cache.prevOf block ∉ cache →
      Back block [block] (cache.prevOf block)
  | step {block root : Hash} {path : List Hash} : block ∈ cache →
      Back (cache.prevOf block) path root → Back block (block :: path) root

/-- No child of the block advances its slot. -/
def IsTip (block : Hash) : Prop :=
  block ∈ cache ∧ ∀ hash child, cache.lookup hash = some child → child.prevHash = block →
    cache.advances child = false

/-- The answers carry the slots of the cached headers, and for every root a supporter has
one weight. -/
structure Carries (support : Hash → Hash → Option BlockSupport)
    (weightOf : Hash → SupporterId → Nat) : Prop where
  slot : ∀ root hash answer block, support root hash = some answer →
    cache.lookup hash = some block → answer.slot = some block.slot
  parentSlot : ∀ root hash answer block parent, support root hash = some answer →
    cache.lookup hash = some block → cache.lookup block.prevHash = some parent →
    answer.parentSlot = some parent.slot
  weights : ∀ root hash answer, support root hash = some answer →
    ∀ row ∈ answer.backers ++ answer.parentAttesters, row.2 = weightOf root row.1

/-- The tip ends a heaviest of the chains from the block; all are weighed with the support of
the root that the block goes back to. -/
structure BestChain (support : Hash → Hash → Option BlockSupport) (block root : Hash)
    (weight : Nat) (tip : Hash) : Prop where
  rooted : ∃ path, cache.Back block path root
  attained : ∃ rest, cache.CachedChain block rest ∧ lastKey id block rest = tip ∧
    candidateUnion (block :: rest) (support root) = weight
  greatest : ∀ rest, cache.CachedChain block rest →
    candidateUnion (block :: rest) (support root) ≤ weight

/-- An order in which the keys of a map can come. -/
structure Lists (order : List Hash) : Prop where
  nodup : order.Nodup
  mem_iff : ∀ hash, hash ∈ order ↔ hash ∈ cache

end Chains

section Paths

variable {cache : BlockCache} {block root tip : Hash} {path rest : List Hash}

theorem prevOf_eq {found : CachedBlock} (hlookup : cache.lookup block = some found) :
    cache.prevOf block = found.prevHash := by
  simp [prevOf, hlookup]

theorem links_prevOf (hblock : block ∈ cache) (hparent : cache.prevOf block ∈ cache) :
    cache.Links (cache.prevOf block) block := by
  obtain ⟨found, hfound⟩ := Finmap.mem_iff.mp hblock
  exact ⟨hparent, found, hfound, (prevOf_eq hfound).symm⟩

theorem Acyclic.exists_rank (hacyclic : cache.Acyclic) :
    ∃ rank : Hash → Nat, (∀ block, rank block ≤ cache.keys.card) ∧
      ∀ parent child, cache.Links parent child → rank parent < rank child := by
  classical
  refine ⟨fun block => (cache.keys.filter fun ancestor =>
    Relation.TransGen cache.Links ancestor block).card, fun block =>
      Finset.card_filter_le _ _, ?_⟩
  intro parent child hlink
  apply Finset.card_lt_card
  rw [Finset.ssubset_iff_of_subset]
  · refine ⟨parent, ?_, ?_⟩
    · rw [Finset.mem_filter, Finmap.mem_keys]
      exact ⟨hlink.1, .single hlink⟩
    · rw [Finset.mem_filter]
      exact fun hself => hacyclic parent hself.2
  · intro ancestor hancestor
    rw [Finset.mem_filter] at hancestor ⊢
    exact ⟨hancestor.1, hancestor.2.tail hlink⟩

theorem Back.mem_cache (hback : cache.Back block path root) : block ∈ cache := by
  cases hback with
  | root hblock _ => exact hblock
  | step hblock _ => exact hblock

theorem Back.unique {other : Hash} {others : List Hash} (hback : cache.Back block path root)
    (hother : cache.Back block others other) : others = path ∧ other = root := by
  induction hback generalizing others with
  | root _ hroot =>
      cases hother with
      | root _ _ => exact ⟨rfl, rfl⟩
      | step _ hback => exact absurd hback.mem_cache hroot
  | step _ hback ih =>
      cases hother with
      | root _ hroot => exact absurd hback.mem_cache hroot
      | step _ hback' =>
          obtain ⟨rfl, rfl⟩ := ih hback'
          exact ⟨rfl, rfl⟩

theorem back_pathBack {rank : Hash → Nat}
    (hrank : ∀ parent child, cache.Links parent child → rank parent < rank child)
    {fuel : Nat} (hblock : block ∈ cache) (hfuel : rank block ≤ fuel) :
    ∃ root, cache.Back block (cache.pathBack fuel block) root := by
  induction fuel generalizing block with
  | zero =>
      refine ⟨_, .root hblock ?_⟩
      intro hparent
      have hlt := hrank _ _ (links_prevOf hblock hparent)
      omega
  | succ fuel ih =>
      unfold pathBack
      split
      case isTrue hparent =>
        have hlt := hrank _ _ (links_prevOf hblock hparent)
        obtain ⟨root, hback⟩ := ih hparent (by omega)
        exact ⟨root, .step hblock hback⟩
      case isFalse hroot => exact ⟨_, .root hblock hroot⟩

theorem Acyclic.back (hacyclic : cache.Acyclic) (hblock : block ∈ cache) :
    ∃ root, cache.Back block (cache.pathBack cache.keys.card block) root := by
  obtain ⟨rank, hle, hrank⟩ := hacyclic.exists_rank
  exact back_pathBack hrank hblock (hle block)

theorem Back.prevOf_head (hback : cache.Back block path root) :
    cache.prevOf (path.reverse.headD block) = root := by
  have hlast : ∀ start, cache.prevOf (path.getLast?.getD start) = root := by
    induction hback with
    | root _ _ => simp
    | step _ hback ih =>
        intro start
        rw [List.getLast?_cons]
        exact ih _
  rw [List.headD_eq_head?_getD, List.head?_reverse]
  exact hlast block

theorem CachedChain.snoc (hchain : cache.CachedChain block rest) (htip : tip ∈ cache)
    (hlink : cache.prevOf tip = lastKey id block rest) :
    cache.CachedChain block (rest ++ [tip]) where
  start := hchain.start
  cached hash hmem := by
    rcases List.mem_append.mp hmem with hmem | hmem
    · exact hchain.cached hash hmem
    · rwa [List.mem_singleton.mp hmem]
  linked := linkedFrom_snoc.mpr ⟨hchain.linked, hlink⟩

theorem CachedChain.last_mem (hchain : cache.CachedChain block rest) :
    lastKey id block rest ∈ cache := by
  induction rest using List.reverseRecOn with
  | nil => exact hchain.start
  | append_singleton rest last _ =>
      rw [lastKey_append]
      exact hchain.cached last (by simp)

theorem CachedChain.of_snoc {last : Hash} (hchain : cache.CachedChain block (rest ++ [last])) :
    cache.CachedChain block rest ∧ cache.prevOf last = lastKey id block rest := by
  obtain ⟨hlinked, hlink⟩ := linkedFrom_snoc.mp hchain.linked
  exact ⟨⟨hchain.start, fun hash hmem => hchain.cached hash (List.mem_append_left _ hmem),
    hlinked⟩, hlink⟩

theorem Back.chain_of_split (hback : cache.Back tip path root) {down up : List Hash}
    (hpath : path = down ++ block :: up) :
    cache.CachedChain block down.reverse ∧ lastKey id block down.reverse = tip ∧
      cache.Back block (block :: up) root := by
  induction hback generalizing down with
  | @root tip htip hroot =>
      cases down with
      | nil =>
          obtain ⟨rfl, rfl⟩ := List.cons.inj hpath
          exact ⟨⟨htip, by simp, trivial⟩, rfl, .root htip hroot⟩
      | cons other down => simp at hpath
  | @step tip root path htip hback ih =>
      cases down with
      | nil =>
          obtain ⟨rfl, rfl⟩ := List.cons.inj hpath
          exact ⟨⟨htip, by simp, trivial⟩, rfl, .step htip hback⟩
      | cons other down =>
          obtain ⟨rfl, hrest⟩ := List.cons.inj hpath
          obtain ⟨hchain, hlast, hblock⟩ := ih hrest
          rw [List.reverse_cons]
          refine ⟨hchain.snoc htip hlast.symm, ?_, hblock⟩
          simp [lastKey_append]

theorem CachedChain.back (hchain : cache.CachedChain block rest)
    (hback : cache.Back block path root) :
    cache.Back (lastKey id block rest) (rest.reverse ++ path) root := by
  induction rest using List.reverseRecOn with
  | nil => exact hback
  | append_singleton rest last ih =>
      obtain ⟨hbefore, hlink⟩ := hchain.of_snoc
      rw [lastKey_append, List.reverse_append]
      exact .step (hchain.cached last (by simp)) (hlink ▸ ih hbefore)

theorem CachedChain.length_lt (hacyclic : cache.Acyclic)
    (hchain : cache.CachedChain block rest) : rest.length < cache.keys.card := by
  obtain ⟨rank, -, hrank⟩ := hacyclic.exists_rank
  have hgrows : ∀ item ∈ rest, rank (cache.prevOf item) < rank (id item) := by
    intro item hitem
    obtain ⟨front, more, rfl⟩ := List.append_of_mem hitem
    have hprefix : cache.CachedChain block (front ++ [item]) := by
      refine ⟨hchain.start, fun hash hmem => hchain.cached hash (by simp at hmem ⊢; tauto), ?_⟩
      have hlinked := hchain.linked
      rw [← List.singleton_append, ← List.append_assoc, linkedFrom_append] at hlinked
      exact hlinked.1
    obtain ⟨hbefore, hlink⟩ := hprefix.of_snoc
    exact hrank _ _ (links_prevOf (hchain.cached item hitem) (hlink ▸ hbefore.last_mem))
  have hnodup : (block :: rest).Nodup := by
    rw [List.nodup_cons]
    constructor
    · intro hmem
      have hlt := hchain.linked.rank_lt hgrows hmem
      exact Nat.lt_irrefl _ hlt
    · simpa using hchain.linked.nodup hgrows
  have hsub : (block :: rest).toFinset ⊆ cache.keys := by
    intro hash hmem
    rw [List.mem_toFinset] at hmem
    rw [Finmap.mem_keys]
    rcases List.mem_cons.mp hmem with rfl | hmem
    · exact hchain.start
    · exact hchain.cached hash hmem
  have hcard := Finset.card_le_card hsub
  rw [List.toFinset_card_of_nodup hnodup, List.length_cons] at hcard
  omega

end Paths

section Offers

variable {cache : BlockCache} {support : Hash → Hash → Option BlockSupport}
  {weightOf : Hash → SupporterId → Nat} {order : List Hash} {block root tip : Hash}
  {rest : List Hash} {ranked : RankedPath}

theorem mem_weighings {path : List Hash} :
    (block, ranked) ∈ weighings support root tip path ↔
      ∃ front, path = front ++ block :: ranked.rest ∧ ranked.tip = tip ∧
        ranked.weight = candidateUnion (block :: ranked.rest) (support root) := by
  unfold weighings
  rw [List.mem_filterMap]
  constructor
  · rintro ⟨suffix, hsuffix, hranked⟩
    obtain ⟨front, rfl⟩ := (List.mem_tails _ _).mp hsuffix
    cases suffix with
    | nil => cases hranked
    | cons first rest =>
        cases hranked
        exact ⟨front, rfl, rfl, rfl⟩
  · obtain ⟨weight, other, rest⟩ := ranked
    rintro ⟨front, rfl, htip, hweight⟩
    refine ⟨block :: rest, (List.mem_tails _ _).mpr ⟨front, rfl⟩, ?_⟩
    simp only at htip hweight
    rw [htip, hweight]

theorem mem_offersOf (hacyclic : cache.Acyclic) (htip : tip ∈ cache) :
    (block, ranked) ∈ cache.offersOf support tip ↔
      cache.CachedChain block ranked.rest ∧ lastKey id block ranked.rest = tip ∧
        ranked.tip = tip ∧ ∃ root path, cache.Back block path root ∧
          ranked.weight = candidateUnion (block :: ranked.rest) (support root) := by
  obtain ⟨root, hback⟩ := hacyclic.back htip
  unfold offersOf
  dsimp only
  rw [hback.prevOf_head, mem_weighings]
  constructor
  · rintro ⟨front, hpath, hsame, hweight⟩
    rw [List.reverse_eq_iff, List.reverse_append, List.reverse_cons, List.append_assoc,
      List.singleton_append] at hpath
    obtain ⟨hchain, hlast, hblock⟩ := hback.chain_of_split hpath
    rw [List.reverse_reverse] at hchain hlast
    exact ⟨hchain, hlast, hsame, root, _, hblock, hweight⟩
  · rintro ⟨hchain, hlast, hsame, other, path, hblock, hweight⟩
    obtain ⟨hpath, rfl⟩ := (hlast ▸ hchain.back hblock).unique hback
    obtain ⟨more, rfl⟩ : ∃ more, path = block :: more := by
      cases hblock with
      | root _ _ => exact ⟨[], rfl⟩
      | step _ _ => exact ⟨_, rfl⟩
    refine ⟨more.reverse, ?_, hsame, hweight⟩
    rw [hpath, List.reverse_append, List.reverse_cons, List.reverse_reverse,
      List.append_assoc, List.singleton_append]

theorem notMem_parents_iff (horder : cache.Lists order) (hblock : block ∈ cache) :
    block ∉ cache.parents order ↔ cache.IsTip block := by
  simp only [parents, List.mem_map, List.mem_filter, List.mem_filterMap, horder.mem_iff,
    not_exists, not_and]
  constructor
  · intro hnone
    refine ⟨hblock, fun hash child hchild hprev => ?_⟩
    by_contra hadvances
    rw [Bool.not_eq_false] at hadvances
    exact hnone child ⟨⟨hash, Finmap.mem_of_lookup_eq_some hchild, hchild⟩, hadvances⟩ hprev
  · rintro ⟨-, htip⟩ child ⟨⟨hash, -, hchild⟩, hadvances⟩ hprev
    rw [htip hash child hchild hprev] at hadvances
    cases hadvances

theorem mem_tips (horder : cache.Lists order) :
    (tip ∈ order.filter fun hash => hash ∉ cache.parents order) ↔ cache.IsTip tip := by
  rw [List.mem_filter, horder.mem_iff, decide_eq_true_eq]
  constructor
  · rintro ⟨hmem, hnone⟩
    exact (notMem_parents_iff horder hmem).mp hnone
  · intro htip
    exact ⟨htip.1, (notMem_parents_iff horder htip.1).mpr htip⟩

theorem mem_offers (hacyclic : cache.Acyclic) (horder : cache.Lists order) :
    ((block, ranked) ∈ (order.filter fun hash => hash ∉ cache.parents order).flatMap
        (cache.offersOf support)) ↔
      cache.CachedChain block ranked.rest ∧ cache.IsTip ranked.tip ∧
        lastKey id block ranked.rest = ranked.tip ∧ ∃ root path, cache.Back block path root ∧
          ranked.weight = candidateUnion (block :: ranked.rest) (support root) := by
  rw [List.mem_flatMap]
  constructor
  · rintro ⟨tip, htip, hoffer⟩
    rw [mem_tips horder] at htip
    obtain ⟨hchain, hlast, rfl, hweight⟩ := (mem_offersOf hacyclic htip.1).mp hoffer
    exact ⟨hchain, htip, hlast, hweight⟩
  · rintro ⟨hchain, htip, hlast, hweight⟩
    exact ⟨ranked.tip, (mem_tips horder).mpr htip,
      (mem_offersOf hacyclic htip.1).mpr ⟨hchain, hlast, rfl, hweight⟩⟩

/-! ## The order of the paths -/

def pathRank (cache : BlockCache) (ranked : RankedPath) : ℕ ×ₗ (List (ℕ ×ₗ ℕ))ᵒᵈ :=
  toLex (ranked.weight, OrderDual.toDual (ranked.rest.map cache.sortKey))

theorem wins_iff (cache : BlockCache) (offered kept : RankedPath) :
    cache.wins offered kept = true ↔ cache.pathRank kept < cache.pathRank offered := by
  simp only [wins, pathRank, Bool.or_eq_true, Bool.and_eq_true, decide_eq_true_eq,
    Prod.Lex.toLex_lt_toLex, OrderDual.toDual_lt_toDual]
  exact or_congr_right (and_congr_left fun _ => eq_comm)

theorem sortKey_injective (cache : BlockCache) : Function.Injective cache.sortKey := by
  intro first second hsame
  have hword := congrArg Prod.snd (toLex_inj.mp hsame)
  cases first
  cases second
  exact congrArg Hash.mk (BitVec.eq_of_toNat_eq hword)

theorem untying_offers (hacyclic : cache.Acyclic) (horder : cache.Lists order) :
    Untying cache.pathRank ((order.filter fun hash => hash ∉ cache.parents order).flatMap
      (cache.offersOf support)) := by
  intro key first second hfirst hsecond hrank
  obtain ⟨-, -, hlast, -⟩ := (mem_offers hacyclic horder).mp hfirst
  obtain ⟨-, -, hlast', -⟩ := (mem_offers hacyclic horder).mp hsecond
  obtain ⟨hweight, hkeys⟩ := Prod.mk.inj (toLex_inj.mp hrank)
  have hrest : first.rest = second.rest :=
    (List.map_injective_iff.mpr cache.sortKey_injective) (OrderDual.toDual_inj.mp hkeys)
  have htip : first.tip = second.tip := by rw [← hlast, ← hlast', hrest]
  cases first
  cases second
  simp only at hweight hrest htip
  rw [hweight, hrest, htip]

end Offers

/-! ## The maximum -/

section Maximum

variable {cache : BlockCache} {support : Hash → Hash → Option BlockSupport}
  {weightOf : Hash → SupporterId → Nat} {order : List Hash} {block root : Hash}
  {rest : List Hash}

theorem Carries.advancesSlot (hcarries : cache.Carries support weightOf) {hash : Hash}
    {child : CachedBlock} (hchild : cache.lookup hash = some child)
    (hparent : child.prevHash ∈ cache) (hadvances : cache.advances child = true) :
    ((support root hash).getD .default).advancesSlot = true := by
  cases hanswer : support root hash with
  | none => rfl
  | some answer =>
      obtain ⟨parent, hfound⟩ := Finmap.mem_iff.mp hparent
      have hslot := hcarries.slot root hash answer child hanswer hchild
      have hparentSlot := hcarries.parentSlot root hash answer child parent hanswer hchild hfound
      unfold advances BlockSupport.advancesSlot at hadvances
      rw [Option.getD_some, BlockSupport.advancesSlot, hslot, hparentSlot]
      simpa [hfound] using hadvances

theorem exists_child_of_not_tip (hblock : block ∈ cache) (hnot : ¬cache.IsTip block) :
    ∃ hash child, cache.lookup hash = some child ∧ child.prevHash = block ∧
      cache.advances child = true := by
  by_contra hnone
  apply hnot
  refine ⟨hblock, fun hash child hchild hprev => ?_⟩
  by_contra hadvances
  exact hnone ⟨hash, child, hchild, hprev, by simpa using hadvances⟩

theorem exists_tip_above (hacyclic : cache.Acyclic) (hcarries : cache.Carries support weightOf)
    (root : Hash) {room : Nat} (hchain : cache.CachedChain block rest)
    (hroom : cache.keys.card ≤ rest.length + room) :
    ∃ more, cache.CachedChain block more ∧ cache.IsTip (lastKey id block more) ∧
      candidateUnion (block :: rest) (support root) ≤
        candidateUnion (block :: more) (support root) := by
  induction room generalizing rest with
  | zero =>
      have hlt := hchain.length_lt hacyclic
      omega
  | succ room ih =>
      by_cases htip : cache.IsTip (lastKey id block rest)
      · exact ⟨rest, hchain, htip, le_refl _⟩
      · obtain ⟨hash, child, hchild, hprev, hadvances⟩ :=
          exists_child_of_not_tip hchain.last_mem htip
        have hlonger := hchain.snoc (Finmap.mem_of_lookup_eq_some hchild)
          ((prevOf_eq hchild).trans hprev)
        have hle : candidateUnion (block :: rest) (support root) ≤
            candidateUnion (block :: rest ++ [hash]) (support root) := by
          refine Network.candidateUnion_append_le ?_ fun other _ answer hanswer =>
            hcarries.weights root other answer hanswer
          intro other hother
          rw [List.mem_singleton.mp hother]
          exact hcarries.advancesSlot hchild (hprev ▸ hchain.last_mem) hadvances
        obtain ⟨more, hmore, hend, hweight⟩ := ih hlonger (by
          rw [List.length_append, List.length_singleton]
          omega)
        exact ⟨more, hmore, hend, hle.trans hweight⟩

/-- A block gets the greatest weight of a chain from it and the tip of such a chain, in
whatever order the cache is gone through. -/
theorem bondBranches_max (hacyclic : cache.Acyclic)
    (hcarries : cache.Carries support weightOf) (horder : cache.Lists order)
    (hblock : block ∈ cache) :
    ∃ weight tip root, cache.bondBranches support order block = some (weight, tip) ∧
      cache.BestChain support block root weight tip ∧
      ∀ others, cache.Lists others →
        cache.bondBranches support others = cache.bondBranches support order := by
  obtain ⟨root, hback⟩ := hacyclic.back hblock
  have hoffered : ∀ rest, cache.CachedChain block rest →
      cache.IsTip (lastKey id block rest) →
      (block, RankedPath.mk (candidateUnion (block :: rest) (support root))
        (lastKey id block rest) rest) ∈
        (order.filter fun hash => hash ∉ cache.parents order).flatMap
          (cache.offersOf support) := by
    intro rest hchain htip
    exact (mem_offers hacyclic horder).mpr ⟨hchain, htip, rfl, root, _, hback, rfl⟩
  have hspec := putOffers_spec (wins_iff cache)
    ((order.filter fun hash => hash ∉ cache.parents order).flatMap (cache.offersOf support))
    block
  cases hbest : (putOffers cache.wins ((order.filter fun hash =>
      hash ∉ cache.parents order).flatMap (cache.offersOf support))).lookup block with
  | none =>
      rw [hbest] at hspec
      have hself : cache.CachedChain block [] := ⟨hblock, by simp, trivial⟩
      obtain ⟨more, hmore, htip, -⟩ :=
        exists_tip_above hacyclic hcarries root hself (Nat.le_add_left _ _)
      exact absurd (hoffered more hmore htip) (hspec _)
  | some best =>
      rw [hbest] at hspec
      obtain ⟨hmem, hmax⟩ := hspec
      obtain ⟨hchain, htip, hlast, other, path, hother, hweight⟩ :=
        (mem_offers hacyclic horder).mp hmem
      obtain ⟨-, rfl⟩ := hother.unique hback
      refine ⟨best.weight, best.tip, root, ?_, ⟨⟨_, hback⟩,
        ⟨best.rest, hchain, hlast, hweight.symm⟩, ?_⟩, ?_⟩
      · simp only [bondBranches, hbest, Option.map_some]
      · intro rest hrest
        obtain ⟨more, hmore, hend, hle⟩ :=
          exists_tip_above hacyclic hcarries root hrest (Nat.le_add_left _ _)
        have hrank := hmax _ (hoffered more hmore hend)
        have hweights := (Prod.Lex.toLex_le_toLex.mp hrank).elim le_of_lt
          fun hsame => hsame.1.le
        exact hle.trans hweights
      · intro others hothers
        have hsame : putOffers cache.wins ((others.filter fun hash =>
            hash ∉ cache.parents others).flatMap (cache.offersOf support)) =
            putOffers cache.wins ((order.filter fun hash =>
              hash ∉ cache.parents order).flatMap (cache.offersOf support)) := by
          apply putOffers_congr (wins_iff cache) (untying_offers hacyclic horder)
          rintro ⟨key, ranked⟩
          rw [mem_offers hacyclic hothers, mem_offers hacyclic horder]
        funext key
        simp only [bondBranches, hsame]

end Maximum

theorem acyclic_of_rank {cache : BlockCache} (rank : Hash → Nat)
    (hrank : ∀ parent child, cache.Links parent child → rank parent < rank child) :
    cache.Acyclic := by
  have hgrows : ∀ first last, Relation.TransGen cache.Links first last →
      rank first < rank last := by
    intro first last hpath
    induction hpath with
    | single hlink => exact hrank _ _ hlink
    | tail _ hlink ih => exact ih.trans (hrank _ _ hlink)
  exact fun hash hcycle => Nat.lt_irrefl _ (hgrows hash hash hcycle)

def sampleCache : BlockCache :=
  (Finmap.singleton ⟨1⟩ ⟨⟨9⟩, 1⟩ : BlockCache).insert ⟨2⟩ ⟨⟨1⟩, 2⟩

/-- Every block supports itself with the weight 1. -/
def sampleSupport (_ hash : Hash) : Option BlockSupport :=
  (sampleCache.lookup hash).map fun block =>
    { BlockSupport.single hash.word 1 with
      slot := some block.slot
      parentSlot := (sampleCache.lookup block.prevHash).map CachedBlock.slot }

theorem bondBranches_max_sample : ∃ root, sampleCache.BestChain sampleSupport ⟨1⟩ root 2 ⟨2⟩ := by
  have hrow : ∀ hash block, sampleCache.lookup hash = some block →
      hash = ⟨2⟩ ∧ block = ⟨⟨1⟩, 2⟩ ∨ hash = ⟨1⟩ ∧ block = ⟨⟨9⟩, 1⟩ := by
    intro hash block hlookup
    by_cases htip : hash = ⟨2⟩
    · subst htip
      rw [sampleCache, Finmap.lookup_insert] at hlookup
      exact .inl ⟨rfl, (Option.some.inj hlookup).symm⟩
    · rw [sampleCache, Finmap.lookup_insert_of_ne _ htip] at hlookup
      exact .inr (lookup_singleton_eq_some.mp hlookup)
  have hacyclic : sampleCache.Acyclic := by
    apply acyclic_of_rank fun hash => hash.word.toNat
    rintro parent child ⟨hcached, block, hblock, rfl⟩
    rcases hrow child block hblock with ⟨rfl, rfl⟩ | ⟨rfl, rfl⟩
    · decide
    · exact absurd hcached (by decide +kernel)
  have hcarries : sampleCache.Carries sampleSupport fun _ _ => 1 := by
    constructor
    case slot =>
      intro root hash answer block hanswer hblock
      simp only [sampleSupport, hblock, Option.map_some, Option.some.injEq] at hanswer
      rw [← hanswer]
    case parentSlot =>
      intro root hash answer block parent hanswer hblock hparent
      simp only [sampleSupport, hblock, Option.map_some, Option.some.injEq, hparent] at hanswer
      rw [← hanswer]
    case weights =>
      intro root hash answer hanswer row hmem
      obtain ⟨block, -, rfl⟩ := Option.map_eq_some_iff.mp hanswer
      simp only [BlockSupport.single, BlockSupport.default, List.append_nil,
        List.mem_singleton] at hmem
      rw [hmem]
  have horder : sampleCache.Lists [⟨2⟩, ⟨1⟩] := by
    constructor
    · decide
    · intro hash
      simp only [sampleCache, Finmap.mem_insert, Finmap.mem_singleton, List.mem_cons,
        List.not_mem_nil, or_false]
  obtain ⟨weight, tip, root, hbest, hmax, -⟩ :=
    bondBranches_max hacyclic hcarries horder (by decide +kernel : (⟨1⟩ : Hash) ∈ sampleCache)
  have hvalue : sampleCache.bondBranches sampleSupport [⟨2⟩, ⟨1⟩] ⟨1⟩ = some (2, ⟨2⟩) := by
    decide +kernel
  rw [hvalue] at hbest
  cases hbest
  exact ⟨root, hmax⟩

end BlockCache

end Doli.Node
