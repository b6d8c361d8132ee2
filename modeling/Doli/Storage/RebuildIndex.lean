import Doli.Lib.Listing
import Doli.Producer.Persisted
import Doli.Storage.IndexRun

/-!
# The index rebuilt from the headers

A scan picks the header of the highest slot, a walk collects its chain, and both
indexes are written anew with heights counted from the first block of that chain.
-/

namespace Doli.Storage

open Doli.Core Doli.Lib

inductive ReindexError where
  | headerMissing (hash : Hash)
  /-- As many headers as are stored were walked and one more is stored: a cycle. -/
  | endless
  deriving DecidableEq, Repr

namespace BlockStore

section Definitions

variable (store : BlockStore)

/-- The best slot so far and the key it was found under. -/
def scanHeader (best : Nat × Hash) (row : Hash × Block) : Nat × Hash :=
  if row.2.slot > best.1 then (row.2.slot, row.1) else best

def scanTip : Nat × Hash :=
  (sortedRows Hash.bytesLe store.blocks).foldl scanHeader (0, ⟨0⟩)

/-- The chain from `current` down.  A parent that is not stored is the genesis hash and
is its last entry. -/
def reindexWalk : Nat → Hash → Except ReindexError (List Hash)
  | 0, _ => .error .endless
  | fuel + 1, current =>
      match store.blocks.lookup current with
      | none => .error (.headerMissing current)
      | some header =>
          if header.prevHash = ⟨0⟩ then .ok [current]
          else if !store.hasBlock header.prevHash then .ok [current, header.prevHash]
          else
            match reindexWalk fuel header.prevHash with
            | .error failed => .error failed
            | .ok chain => .ok (current :: chain)

/-- Both indexes are cleared before the rows of the chain are put. -/
def writeChain (chain : List Hash) : BlockStore :=
  { store with
    heightIndex := commit (chain.zipIdx.map fun row => .put row.2 row.1) ∅
    hashToHeight := commit (chain.zipIdx.map fun row => .put row.1 row.2) ∅ }

def rebuildCanonicalIndex : Except ReindexError ((Hash × Nat) × BlockStore) :=
  if store.scanTip.2 = ⟨0⟩ then .ok ((⟨0⟩, 0), store)
  else
    match store.reindexWalk store.blocks.keys.card store.scanTip.2 with
    | .error failed => .error failed
    | .ok chain =>
        .ok ((store.scanTip.2, chain.reverse.length - 1), store.writeChain chain.reverse)

/-- The rebuild ends and both indexes are what they were. -/
def RebuildKeepsIndex : Prop :=
  ∃ reported next, store.rebuildCanonicalIndex = .ok (reported, next) ∧
    next.heightIndex = store.heightIndex ∧ next.hashToHeight = store.hashToHeight

/-- The header of the highest slot, under the lowest key that has it. -/
def BestHeader (tip : Hash) : Prop :=
  ∃ header, store.blocks.lookup tip = some header ∧ 0 < header.slot ∧
    ∀ hash block, store.blocks.lookup hash = some block →
      block.slot ≤ header.slot ∧ (block.slot = header.slot → Hash.bytesLe tip hash)

/-- No header is after slot 0. -/
def Unscanned : Prop := ∀ hash block, store.blocks.lookup hash = some block → block.slot = 0

/-- How many parents a header has, down to the block without one or to the hash that
nothing is stored under. -/
inductive TrueHeight : Nat → Hash → Prop
  | first {hash : Hash} {block : Block} : store.blocks.lookup hash = some block →
      block.prevHash = ⟨0⟩ → TrueHeight 0 hash
  | genesis {hash : Hash} {block : Block} : store.blocks.lookup hash = some block →
      block.prevHash ≠ ⟨0⟩ → store.blocks.lookup block.prevHash = none → TrueHeight 1 hash
  | child {height : Nat} {hash : Hash} {block : Block} :
      store.blocks.lookup hash = some block → block.prevHash ≠ ⟨0⟩ →
      TrueHeight height block.prevHash → TrueHeight (height + 1) hash

/-- The index is the chain of `tip` from height 0 on and holds nothing else. -/
structure WholeChain (tip : Hash) (height : Nat) : Prop where
  counted : store.TrueHeight height tip
  names : ∀ level, level ≤ height →
    store.getHashByHeight level = store.ancestor (height - level) tip
  nothingAbove : ∀ level, height < level → store.getHashByHeight level = none
  inverse : ∀ hash level, store.getHeightByHash hash = some level ↔
    store.getHashByHeight level = some hash

end Definitions

/-! ## The scan -/

section Scan

/-- What the scan of the first rows has found. -/
def Scanned (rows : List (Hash × Block)) (best : Nat × Hash) : Prop :=
  (∀ row ∈ rows, row.2.slot ≤ best.1) ∧
    (best = (0, ⟨0⟩) ∨ 0 < best.1 ∧ (∃ header, (best.2, header) ∈ rows ∧ header.slot = best.1) ∧
      ∀ row ∈ rows, row.2.slot = best.1 → Hash.bytesLe best.2 row.1)

theorem Scanned.snoc {rows : List (Hash × Block)} {best : Nat × Hash} {row : Hash × Block}
    (hscanned : Scanned rows best)
    (hsorted : ∀ before ∈ rows, Hash.bytesLe before.1 row.1) :
    Scanned (rows ++ [row]) (scanHeader best row) := by
  obtain ⟨hle, hbest⟩ := hscanned
  unfold scanHeader
  split
  case isTrue hgt =>
    refine ⟨?_, .inr ⟨by omega, ⟨row.2, by simp, rfl⟩, ?_⟩⟩
    · intro other hother
      rcases List.mem_append.mp hother with hother | hother
      · have hslot := hle other hother
        omega
      · rw [List.mem_singleton.mp hother]
    · intro other hother hslot
      rcases List.mem_append.mp hother with hother | hother
      · have hlower := hle other hother
        omega
      · rw [List.mem_singleton.mp hother]
        exact Nat.le_refl _
  case isFalse hgt =>
    constructor
    · intro other hother
      rcases List.mem_append.mp hother with hother | hother
      · exact hle other hother
      · rw [List.mem_singleton.mp hother]
        omega
    · refine hbest.imp_right ?_
      rintro ⟨hpos, ⟨header, hheader, hslot⟩, hfirst⟩
      refine ⟨hpos, ⟨header, List.mem_append_left _ hheader, hslot⟩, ?_⟩
      intro other hother htie
      rcases List.mem_append.mp hother with hother | hother
      · exact hfirst other hother htie
      · rw [List.mem_singleton.mp hother]
        exact hsorted _ hheader

theorem scanned_foldl {rows : List (Hash × Block)}
    (hsorted : (rows.map Prod.fst).Pairwise Hash.bytesLe) :
    Scanned rows (rows.foldl scanHeader (0, ⟨0⟩)) := by
  induction rows using List.reverseRecOn with
  | nil => exact ⟨by simp, .inl rfl⟩
  | append_singleton rows row ih =>
      rw [List.map_append, List.pairwise_append] at hsorted
      obtain ⟨hrows, -, hlast⟩ := hsorted
      rw [List.foldl_append]
      apply (ih hrows).snoc
      intro before hbefore
      exact hlast before.1 (List.mem_map_of_mem hbefore) row.1 (by simp)

variable {store : BlockStore}

theorem scanned_scanTip (store : BlockStore) :
    Scanned (sortedRows Hash.bytesLe store.blocks) store.scanTip := by
  apply scanned_foldl
  rw [sortedRows_keys]
  exact pairwise_listing Hash.bytesLe _

theorem BestHeader.unique {first second : Hash} (hfirst : store.BestHeader first)
    (hsecond : store.BestHeader second) : first = second := by
  obtain ⟨header, hheader, -, hbest⟩ := hfirst
  obtain ⟨other, hother, -, hbest'⟩ := hsecond
  obtain ⟨hle, htie⟩ := hbest second other hother
  obtain ⟨hge, htie'⟩ := hbest' first header hheader
  have hslots := Nat.le_antisymm hle hge
  exact antisymm (r := Hash.bytesLe) (htie hslots) (htie' hslots.symm)

theorem scanTip_cases (store : BlockStore) :
    (store.Unscanned ∧ store.scanTip.2 = ⟨0⟩) ∨ store.BestHeader store.scanTip.2 := by
  obtain ⟨hle, hbest⟩ := scanned_scanTip store
  rcases hbest with hnone | ⟨hpos, ⟨header, hheader, hslot⟩, hfirst⟩
  · rw [hnone] at hle
    refine .inl ⟨?_, by rw [hnone]⟩
    intro hash block hblock
    have hzero := hle (hash, block) ((mem_sortedRows Hash.bytesLe).mpr hblock)
    exact Nat.le_zero.mp hzero
  · refine .inr ⟨header, (mem_sortedRows Hash.bytesLe).mp hheader, hslot ▸ hpos, ?_⟩
    intro hash block hblock
    have hrow : (hash, block) ∈ sortedRows Hash.bytesLe store.blocks :=
      (mem_sortedRows Hash.bytesLe).mpr hblock
    rw [hslot]
    exact ⟨hle _ hrow, hfirst _ hrow⟩

theorem not_unscanned_of_best {tip : Hash} (hbest : store.BestHeader tip) :
    ¬store.Unscanned := by
  intro hnone
  obtain ⟨header, hheader, hpos, -⟩ := hbest
  have hzero := hnone tip header hheader
  omega

end Scan

/-! ## The walk -/

section Walk

variable {prevOf : Hash → Hash} {rank : Hash → Nat} {store : BlockStore}

theorem TrueHeight.unique {first second : Nat} {hash : Hash}
    (hfirst : store.TrueHeight first hash) (hsecond : store.TrueHeight second hash) :
    first = second := by
  induction hfirst generalizing second with
  | first hblock hroot =>
      cases hsecond with
      | first _ _ => rfl
      | genesis hother hne _ =>
          obtain rfl := Option.some.inj (hblock.symm.trans hother)
          exact absurd hroot hne
      | child hother hne _ =>
          obtain rfl := Option.some.inj (hblock.symm.trans hother)
          exact absurd hroot hne
  | genesis hblock hne hnone =>
      cases hsecond with
      | first hother hroot =>
          obtain rfl := Option.some.inj (hblock.symm.trans hother)
          exact absurd hroot hne
      | genesis _ _ _ => rfl
      | child hother _ hparent =>
          obtain rfl := Option.some.inj (hblock.symm.trans hother)
          cases hparent <;> simp_all
  | child hblock hne hparent ih =>
      cases hsecond with
      | first hother hroot =>
          obtain rfl := Option.some.inj (hblock.symm.trans hother)
          exact absurd hroot hne
      | genesis hother _ hnone =>
          obtain rfl := Option.some.inj (hblock.symm.trans hother)
          cases hparent <;> simp_all
      | child hother _ hparent' =>
          obtain rfl := Option.some.inj (hblock.symm.trans hother)
          rw [ih hparent']

theorem TrueHeight.ancestor_isSome {height : Nat} {hash : Hash}
    (hcounted : store.TrueHeight height hash) :
    ∃ root, store.ancestor height hash = some root := by
  induction hcounted with
  | first _ _ => exact ⟨_, rfl⟩
  | genesis hblock _ _ => exact ⟨_, by simp [ancestor, hblock]; rfl⟩
  | child hblock _ _ ih =>
      obtain ⟨root, hroot⟩ := ih
      exact ⟨root, by simp [ancestor, hblock, hroot]⟩

theorem counted_of_reindexWalk {fuel : Nat} {tip : Hash} {chain : List Hash}
    (hwalk : store.reindexWalk fuel tip = .ok chain) :
    ∃ height, chain.length = height + 1 ∧ store.TrueHeight height tip ∧
      ∀ distance, distance ≤ height → chain[distance]? = store.ancestor distance tip := by
  induction fuel generalizing tip chain with
  | zero => cases hwalk
  | succ fuel ih =>
      unfold reindexWalk at hwalk
      cases hblock : store.blocks.lookup tip with
      | none =>
          rw [hblock] at hwalk
          cases hwalk
      | some block =>
          rw [hblock] at hwalk
          dsimp only at hwalk
          split at hwalk
          case isTrue hroot =>
            cases hwalk
            refine ⟨0, rfl, .first hblock hroot, ?_⟩
            intro distance hdistance
            obtain rfl : distance = 0 := by omega
            rfl
          case isFalse hne =>
            split at hwalk
            case isTrue hmissing =>
              cases hwalk
              refine ⟨1, rfl, .genesis hblock hne ?_, ?_⟩
              · simpa [hasBlock] using hmissing
              · intro distance hdistance
                rcases Nat.le_one_iff_eq_zero_or_eq_one.mp hdistance with rfl | rfl
                · rfl
                · simp [ancestor, hblock]
            case isFalse hstored =>
              split at hwalk
              case h_1 failed hfailed => cases hwalk
              case h_2 rest hrest =>
                cases hwalk
                obtain ⟨height, hlength, htrue, hnames⟩ := ih hrest
                refine ⟨height + 1, by simp [hlength], .child hblock hne htrue, ?_⟩
                intro distance hdistance
                cases distance with
                | zero => rfl
                | succ distance =>
                    rw [List.getElem?_cons_succ, hnames distance (by omega)]
                    simp [ancestor, hblock]

theorem reindexWalk_ends (hheaders : HeadersHashed prevOf rank store) {fuel : Nat} {tip : Hash}
    (hstored : (store.blocks.lookup tip).isSome)
    (hfuel : (store.blocks.keys.filter (rank · ≤ rank tip)).card ≤ fuel) :
    ∃ chain, store.reindexWalk fuel tip = .ok chain := by
  induction fuel generalizing tip with
  | zero =>
      have hmem : tip ∈ store.blocks.keys.filter (rank · ≤ rank tip) := by
        obtain ⟨block, hblock⟩ := Option.isSome_iff_exists.mp hstored
        rw [Finset.mem_filter, Finmap.mem_keys]
        exact ⟨Finmap.mem_of_lookup_eq_some hblock, le_refl _⟩
      have hpos := Finset.card_pos.mpr ⟨tip, hmem⟩
      omega
  | succ fuel ih =>
      obtain ⟨block, hblock⟩ := Option.isSome_iff_exists.mp hstored
      obtain ⟨hparent, hrank⟩ := hheaders tip block hblock
      unfold reindexWalk
      rw [hblock]
      dsimp only
      split
      case isTrue hroot => exact ⟨_, rfl⟩
      case isFalse hne =>
        split
        case isTrue hmissing => exact ⟨_, rfl⟩
        case isFalse hfound =>
          have hparentStored : (store.blocks.lookup block.prevHash).isSome := by
            simpa [hasBlock, Option.isSome_iff_ne_none] using hfound
          have hfewer : (store.blocks.keys.filter (rank · ≤ rank block.prevHash)).card <
              (store.blocks.keys.filter (rank · ≤ rank tip)).card := by
            apply Finset.card_lt_card
            rw [Finset.ssubset_iff_of_subset]
            · refine ⟨tip, ?_, ?_⟩
              · rw [Finset.mem_filter, Finmap.mem_keys]
                exact ⟨Finmap.mem_of_lookup_eq_some hblock, le_refl _⟩
              · rw [Finset.mem_filter, hparent]
                omega
            · intro hash hhash
              rw [Finset.mem_filter, hparent] at hhash
              rw [Finset.mem_filter]
              exact ⟨hhash.1, by omega⟩
          obtain ⟨chain, hchain⟩ := ih hparentStored (by omega)
          exact ⟨tip :: chain, by rw [hchain]⟩

end Walk

/-! ## The rebuilt index -/

section Rebuilt

variable {prevOf : Hash → Hash} {rank : Hash → Nat} {store : BlockStore}

theorem getHashByHeight_writeChain (chain : List Hash) (level : Nat) :
    (store.writeChain chain).getHashByHeight level = chain[level]? := by
  have hcommit : (chain.zipIdx.map fun row => WriteOp.put row.2 row.1) =
      (chain.zipIdx.map Prod.swap).map fun row => .put row.1 row.2 := by
    rw [List.map_map]
    rfl
  have hmem : ∀ hash, (level, hash) ∈ chain.zipIdx.map Prod.swap ↔ chain[level]? = some hash := by
    intro hash
    rw [List.mem_map_swap hash level, List.mem_zipIdx_iff_getElem?]
  change (commit _ ∅).lookup level = _
  rw [hcommit]
  cases hlevel : chain[level]? with
  | none =>
      rw [lookup_commit_rows_of_notMem, Finmap.lookup_empty]
      rintro ⟨other, hash⟩ hrow rfl
      have hsome := (hmem hash).mp hrow
      rw [hlevel] at hsome
      cases hsome
  | some hash =>
      apply lookup_commit_rows_of_mem ((hmem hash).mpr hlevel)
      intro other hother
      have hsome := (hmem other).mp hother
      rw [hlevel] at hsome
      exact (Option.some.inj hsome).symm

theorem getHeightByHash_writeChain {chain : List Hash} (hnodup : chain.Nodup) (hash : Hash)
    (level : Nat) :
    (store.writeChain chain).getHeightByHash hash = some level ↔ chain[level]? = some hash := by
  change (commit _ ∅).lookup hash = some level ↔ _
  constructor
  · intro hlookup
    by_contra hother
    by_cases hmem : ∃ found : Nat, chain[found]? = some hash
    · obtain ⟨found, hfound⟩ := hmem
      rw [lookup_commit_rows_of_mem (List.mk_mem_zipIdx_iff_getElem?.mpr hfound)] at hlookup
      · exact hother (Option.some.inj hlookup ▸ hfound)
      · intro other hrow
        have hsame := List.mk_mem_zipIdx_iff_getElem?.mp hrow
        exact (List.getElem?_inj (List.getElem?_eq_some_iff.mp hsame).1 hnodup).mp
          (hsame.trans hfound.symm)
    · rw [lookup_commit_rows_of_notMem, Finmap.lookup_empty] at hlookup
      · cases hlookup
      · rintro ⟨other, found⟩ hrow rfl
        exact hmem ⟨found, List.mk_mem_zipIdx_iff_getElem?.mp hrow⟩
  · intro hlevel
    apply lookup_commit_rows_of_mem (List.mk_mem_zipIdx_iff_getElem?.mpr hlevel)
    intro other hrow
    have hsame := List.mk_mem_zipIdx_iff_getElem?.mp hrow
    exact (List.getElem?_inj (List.getElem?_eq_some_iff.mp hsame).1 hnodup).mp
      (hsame.trans hlevel.symm)

theorem getElem?_reverse_walked {tip : Hash} {chain : List Hash} {height : Nat}
    (hlength : chain.length = height + 1)
    (hnames : ∀ distance, distance ≤ height → chain[distance]? = store.ancestor distance tip)
    (level : Nat) :
    chain.reverse[level]? = if level ≤ height then store.ancestor (height - level) tip
      else none := by
  split
  case isTrue hlevel =>
    have hindex : chain.length - 1 - level = height - level := by omega
    rw [List.getElem?_reverse (by omega), hindex, hnames _ (by omega)]
  case isFalse hlevel =>
    rw [List.getElem?_eq_none_iff, List.length_reverse]
    omega

theorem nodup_of_walked (hheaders : HeadersHashed prevOf rank store) {tip : Hash}
    {chain : List Hash} {height : Nat} (hlength : chain.length = height + 1)
    (hnames : ∀ distance, distance ≤ height →
      chain[distance]? = store.ancestor distance tip) : chain.Nodup := by
  rw [List.nodup_iff_injective_getElem]
  intro first second hsame
  have hfound : ∀ index : Fin chain.length,
      store.ancestor index tip = some chain[index] := by
    intro index
    rw [← hnames index (by omega)]
    exact List.getElem?_eq_getElem index.isLt
  have hsecond := hfound second
  change chain[first] = chain[second] at hsame
  rw [← hsame] at hsecond
  exact Fin.ext (hheaders.ancestor_unique (hfound first) hsecond)

theorem writeChain_eq_iff (hheaders : HeadersHashed prevOf rank store) {tip : Hash}
    {chain : List Hash} {height : Nat} (hlength : chain.length = height + 1)
    (hcounted : store.TrueHeight height tip)
    (hnames : ∀ distance, distance ≤ height →
      chain[distance]? = store.ancestor distance tip) :
    ((store.writeChain chain.reverse).heightIndex = store.heightIndex ∧
        (store.writeChain chain.reverse).hashToHeight = store.hashToHeight) ↔
      store.WholeChain tip height := by
  have hrows : ∀ level, (store.writeChain chain.reverse).getHashByHeight level =
      if level ≤ height then store.ancestor (height - level) tip else none := by
    intro level
    rw [getHashByHeight_writeChain]
    exact getElem?_reverse_walked hlength hnames level
  have hnodup := List.nodup_reverse.mpr (nodup_of_walked hheaders hlength hnames)
  have hinverse : ∀ hash level,
      (store.writeChain chain.reverse).getHeightByHash hash = some level ↔
        (store.writeChain chain.reverse).getHashByHeight level = some hash := by
    intro hash level
    rw [getHeightByHash_writeChain hnodup, getHashByHeight_writeChain]
  constructor
  · rintro ⟨hheights, hhashes⟩
    have hlive : ∀ level, (store.writeChain chain.reverse).getHashByHeight level =
        store.getHashByHeight level := fun level => by rw [getHashByHeight, hheights]; rfl
    constructor
    case counted => exact hcounted
    case names =>
      intro level hlevel
      rw [← hlive, hrows, if_pos hlevel]
    case nothingAbove =>
      intro level hlevel
      rw [← hlive, hrows, if_neg (by omega)]
    case inverse =>
      intro hash level
      rw [← hlive, ← hinverse, getHeightByHash, getHeightByHash, hhashes]
  · intro hwhole
    have hlive : ∀ level, (store.writeChain chain.reverse).getHashByHeight level =
        store.getHashByHeight level := by
      intro level
      rw [hrows]
      split
      case isTrue hlevel => exact (hwhole.names level hlevel).symm
      case isFalse hlevel => exact (hwhole.nothingAbove level (by omega)).symm
    constructor
    · exact Finmap.ext_lookup hlive
    · refine Finmap.ext_lookup fun hash => Option.ext fun level => ?_
      change (store.writeChain chain.reverse).getHeightByHash hash = some level ↔
        store.getHeightByHash hash = some level
      rw [hinverse, hlive, hwhole.inverse]

/-- A right index is a whole chain if it starts at height 0 and its tip has its true
height; above a snap horizon it never is. -/
theorem wholeChain_iff_of_canonicalTo (hindexed : Indexed prevOf rank store) {tip : Hash}
    {height : Nat} (hcanonical : CanonicalTo store tip height) :
    store.WholeChain tip height ↔ store.floor = 0 ∧ store.TrueHeight height tip := by
  constructor
  · intro hwhole
    refine ⟨?_, hwhole.counted⟩
    by_contra hfloor
    rcases Nat.lt_or_ge height store.floor with hlow | hhigh
    · have htop := hwhole.names height (le_refl _)
      rw [Nat.sub_self, ancestor] at htop
      have habove := hindexed.above height tip htop
      omega
    · obtain ⟨hash, hancestor, hrow⟩ := hcanonical.names store.floor (le_refl _) hhigh
      have hbelow := hwhole.names 0 (Nat.zero_le _)
      obtain ⟨root, hroot⟩ := hwhole.counted.ancestor_isSome
      rw [Nat.sub_zero, hroot] at hbelow
      have habove := hindexed.above 0 root hbelow
      omega
  · rintro ⟨hfloor, hcounted⟩
    refine ⟨hcounted, ?_, hcanonical.nothingAbove, hcanonical.inverse⟩
    intro level hlevel
    obtain ⟨hash, hancestor, hrow⟩ := hcanonical.names level (by omega) hlevel
    rw [hrow, hancestor]

theorem rebuildKeepsIndex_iff (hheaders : HeadersHashed prevOf rank store) :
    store.RebuildKeepsIndex ↔ store.Unscanned ∨ store.BestHeader ⟨0⟩ ∨
      ∃ tip height, store.BestHeader tip ∧ store.WholeChain tip height := by
  rcases scanTip_cases store with ⟨hnone, hzero⟩ | hbest
  · have hkept : store.RebuildKeepsIndex :=
      ⟨(⟨0⟩, 0), store, if_pos hzero, rfl, rfl⟩
    exact ⟨fun _ => .inl hnone, fun _ => hkept⟩
  by_cases hzero : store.scanTip.2 = ⟨0⟩
  · have hkept : store.RebuildKeepsIndex :=
      ⟨(⟨0⟩, 0), store, if_pos hzero, rfl, rfl⟩
    exact ⟨fun _ => .inr (.inl (hzero ▸ hbest)), fun _ => hkept⟩
  obtain ⟨header, hheader, -⟩ := id hbest
  obtain ⟨chain, hwalk⟩ : ∃ chain,
      store.reindexWalk store.blocks.keys.card store.scanTip.2 = .ok chain :=
    reindexWalk_ends hheaders (by rw [hheader]; rfl) (Finset.card_filter_le _ _)
  obtain ⟨height, hlength, hcounted, hnames⟩ := counted_of_reindexWalk hwalk
  have hrebuild : store.rebuildCanonicalIndex = .ok ((store.scanTip.2,
      chain.reverse.length - 1), store.writeChain chain.reverse) := by
    unfold rebuildCanonicalIndex
    rw [if_neg hzero, hwalk]
  have hwritten := writeChain_eq_iff hheaders hlength hcounted hnames
  constructor
  · rintro ⟨reported, next, hnext, hkept⟩
    rw [hrebuild] at hnext
    cases hnext
    exact .inr (.inr ⟨store.scanTip.2, height, hbest, hwritten.mp hkept⟩)
  · rintro (hnone | hother | ⟨tip, level, htip, hwhole⟩)
    · exact absurd hnone (not_unscanned_of_best hbest)
    · exact absurd (hbest.unique hother) hzero
    · obtain rfl := hbest.unique htip
      obtain rfl := hcounted.unique hwhole.counted
      exact ⟨_, _, hrebuild, hwritten.mpr hwhole⟩

end Rebuilt

/-! ## Runs -/

section Runs

variable {prevOf : Hash → Hash} {rank : Hash → Nat} {start : BlockStore}

theorem headersHashed_applyIndexOp {store : BlockStore} {op : IndexOp}
    (hheaders : HeadersHashed prevOf rank store)
    (hhashed : ∀ block, op = .putBlock block → Hashed prevOf rank block) :
    HeadersHashed prevOf rank (applyIndexOp store op) := by
  cases op with
  | putBlock block => exact hheaders.putBlock (hhashed block rfl)
  | setCanonicalChain tip height =>
      cases hset : store.setCanonicalChain tip height with
      | error missing =>
          rw [applyIndexOp_error hset]
          exact hheaders
      | ok next =>
          rw [applyIndexOp_ok hset]
          obtain ⟨rows, hrows, hrecast⟩ := recast_of_setCanonicalChain hset
          rw [HeadersHashed, hrecast.blocks]
          exact hheaders
  | removeCanonicalEntry height expectedHash =>
      change HeadersHashed prevOf rank (store.removeCanonicalEntry height expectedHash)
      unfold removeCanonicalEntry
      split
      · exact hheaders
      · exact hheaders

theorem headersHashed_replayIndex (hstart : Fresh start) {ops : List IndexOp}
    (hhashed : ∀ block, .putBlock block ∈ ops → Hashed prevOf rank block) :
    HeadersHashed prevOf rank (replayIndex start ops) := by
  induction ops using List.reverseRecOn with
  | nil => exact hstart.indexed.headers
  | append_singleton ops op ih =>
      have hbefore := ih fun block hmem => hhashed block (List.mem_append_left _ hmem)
      rw [replayIndex, List.foldl_append]
      apply headersHashed_applyIndexOp hbefore
      rintro block rfl
      exact hhashed block (by simp)

/-- After any run a rebuild changes nothing if and only if the index is the chain of the
best header from height 0 on. -/
theorem rebuild_agrees_iff (hstart : Fresh start) (ops : List IndexOp)
    (hhashed : ∀ block, .putBlock block ∈ ops → Hashed prevOf rank block) :
    (replayIndex start ops).RebuildKeepsIndex ↔
      (replayIndex start ops).Unscanned ∨ (replayIndex start ops).BestHeader ⟨0⟩ ∨
        ∃ tip height, (replayIndex start ops).BestHeader tip ∧
          (replayIndex start ops).WholeChain tip height :=
  rebuildKeepsIndex_iff (headersHashed_replayIndex hstart hhashed)

end Runs

def sampleScanned (hash : Hash) (slot : Nat) : Block :=
  { sampleIndexed hash ⟨10⟩ with slot := slot }

def sampleGenesisRun : List IndexOp :=
  [.putBlock (sampleScanned ⟨11⟩ 1), .setCanonicalChain ⟨11⟩ 1]

theorem rebuild_agrees_iff_genesis :
    (replayIndex empty sampleGenesisRun).RebuildKeepsIndex := by
  have hstore : replayIndex empty sampleGenesisRun =
      ⟨Finmap.singleton ⟨11⟩ (sampleScanned ⟨11⟩ 1), (Finmap.singleton 1 ⟨11⟩).insert 0 ⟨10⟩,
        (Finmap.singleton ⟨11⟩ 1).insert ⟨10⟩ 0, none⟩ := rfl
  have hrow : ∀ level hash, ((Finmap.singleton 1 ⟨11⟩).insert 0 ⟨10⟩ : Column Nat Hash).lookup
      level = some hash ↔ level = 0 ∧ hash = ⟨10⟩ ∨ level = 1 ∧ hash = ⟨11⟩ := by
    intro level hash
    by_cases hzero : level = 0
    · subst hzero
      rw [Finmap.lookup_insert]
      simp [eq_comm]
    · rw [Finmap.lookup_insert_of_ne _ hzero, lookup_singleton_eq_some]
      simp [hzero]
  have hlookup : (Finmap.singleton ⟨11⟩ (sampleScanned ⟨11⟩ 1) : Column Hash Block).lookup
      ⟨11⟩ = some (sampleScanned ⟨11⟩ 1) := Finmap.lookup_singleton_eq
  have hhashed : ∀ block, .putBlock block ∈ sampleGenesisRun →
      Hashed samplePrev (fun hash => hash.word.toNat) block := by
    intro block hmem
    simp only [sampleGenesisRun, List.mem_cons, IndexOp.putBlock.injEq, reduceCtorEq,
      List.not_mem_nil, or_false] at hmem
    subst hmem
    constructor <;> decide
  refine (rebuild_agrees_iff .genesis sampleGenesisRun hhashed).mpr
    (.inr (.inr ⟨⟨11⟩, 1, ?_, ?_⟩))
  · rw [hstore]
    refine ⟨sampleScanned ⟨11⟩ 1, hlookup, by decide, ?_⟩
    intro hash block hblock
    obtain ⟨rfl, rfl⟩ := lookup_singleton_eq_some.mp hblock
    exact ⟨le_refl _, fun _ => Nat.le_refl _⟩
  · rw [hstore]
    constructor
    case counted =>
      exact .genesis hlookup (by decide) (by decide +kernel)
    case names =>
      intro level hlevel
      rcases Nat.le_one_iff_eq_zero_or_eq_one.mp hlevel with rfl | rfl
      · decide +kernel
      · decide +kernel
    case nothingAbove =>
      intro level hlevel
      cases hlookup : getHashByHeight _ level with
      | none => rfl
      | some hash =>
          have hlow := (hrow level hash).mp hlookup
          omega
    case inverse =>
      intro hash level
      change ((Finmap.singleton ⟨11⟩ 1).insert ⟨10⟩ 0 : Column Hash Nat).lookup hash =
        some level ↔ _
      refine Iff.trans ?_ (hrow level hash).symm
      by_cases hroot : hash = ⟨10⟩
      · subst hroot
        rw [Finmap.lookup_insert]
        simp [eq_comm]
      · rw [Finmap.lookup_insert_of_ne _ hroot, lookup_singleton_eq_some, and_comm]
        constructor
        · exact .inr
        · exact fun hfound => hfound.resolve_left fun hzero => hroot hzero.2

/-- A fork block of a later slot takes the place of the tip, and above a snap horizon the
heights start again at 0. -/
theorem rebuild_moves_index :
    ¬(replayIndex empty
        (sampleGenesisRun ++ [.putBlock (sampleScanned ⟨12⟩ 2)])).RebuildKeepsIndex ∧
      ¬(replayIndex (empty.seedCanonicalIndex ⟨10⟩ 5)
        [.putBlock (sampleScanned ⟨11⟩ 1), .setCanonicalChain ⟨11⟩ 6]).RebuildKeepsIndex := by
  have hmoved : ∀ (store : BlockStore) (level : Nat) (found : Option Hash),
      store.rebuildCanonicalIndex.toOption.map (fun result => result.2.getHashByHeight level) =
        some found → store.getHashByHeight level ≠ found → ¬store.RebuildKeepsIndex := by
    rintro store level found hrebuilt hlive ⟨reported, next, hnext, hheights, -⟩
    rw [hnext] at hrebuilt
    have hfound : next.getHashByHeight level = found := Option.some.inj hrebuilt
    apply hlive
    rw [← hfound, getHashByHeight, getHashByHeight, hheights]
  constructor
  · exact hmoved _ 1 (some ⟨12⟩) (by decide +kernel) (by decide +kernel)
  · exact hmoved _ 1 (some ⟨11⟩) (by decide +kernel) (by decide +kernel)

end BlockStore

end Doli.Storage
