import Mathlib.Order.Interval.Finset.Nat
import Doli.Storage.BlockStore

/-!
# One call of the canonical index

A call names the chain of its tip and keeps the reverse index its inverse
exactly when it leaves no row behind: a fossil above a gap, a hole under the
row where the walk stops, or a replaced block.
-/

namespace Doli.Storage

open Doli.Core Doli.Lib

namespace BlockStore

/-! ## Ancestors -/

section Ancestors

variable (store : BlockStore)

/-- The lowest height the walk reaches. -/
def floor : Nat := store.snapHorizon.getD 0

/-- The block `distance` headers below `hash`. -/
def ancestor : Nat → Hash → Option Hash
  | 0, hash => some hash
  | distance + 1, hash =>
      (store.blocks.lookup hash).bind fun block => ancestor distance block.prevHash

variable {store}

theorem ancestor_add (first second : Nat) (hash : Hash) :
    store.ancestor (first + second) hash =
      (store.ancestor first hash).bind (store.ancestor second) := by
  induction first generalizing hash with
  | zero => simp [ancestor]
  | succ first ih =>
      rw [Nat.succ_add]
      simp only [ancestor]
      cases store.blocks.lookup hash with
      | none => rfl
      | some block => exact ih block.prevHash

theorem ancestor_below {top middle low : Nat} {tip hash : Hash}
    (hmiddle : store.ancestor (top - middle) tip = some hash) (htop : middle ≤ top)
    (hlow : low ≤ middle) :
    store.ancestor (top - low) tip = store.ancestor (middle - low) hash := by
  have hsum : top - low = (top - middle) + (middle - low) := by omega
  rw [hsum, ancestor_add, hmiddle]
  rfl

theorem atSnapHorizon_iff (height : Nat) :
    store.atSnapHorizon (height + 1) = true ↔ height + 1 ≤ store.floor := by
  unfold atSnapHorizon floor
  cases store.snapHorizon <;> simp

end Ancestors

/-- A header hash commits to its parent and lies on no cycle. -/
structure Hashed (prevOf : Hash → Hash) (rank : Hash → Nat) (block : Block) : Prop where
  parent : block.prevHash = prevOf block.hash
  acyclic : rank block.prevHash < rank block.hash

/-- What the index looks like between two calls: some chain with holes. -/
structure Indexed (prevOf : Hash → Hash) (rank : Hash → Nat) (store : BlockStore) :
    Prop where
  headers : ∀ hash block, store.blocks.lookup hash = some block →
    block.prevHash = prevOf hash ∧ rank (prevOf hash) < rank hash
  inverse : ∀ hash height, store.getHeightByHash hash = some height ↔
    store.getHashByHeight height = some hash
  above : ∀ height hash, store.getHashByHeight height = some hash → store.floor ≤ height
  linked : ∀ height hash, store.getHashByHeight (height + 1) = some hash →
    store.floor ≤ height → (store.blocks.lookup hash).isSome ∧
      ∀ below, store.getHashByHeight height = some below → below = prevOf hash

/-- The index is the chain of `tip` at `height`. -/
structure CanonicalTo (store : BlockStore) (tip : Hash) (height : Nat) : Prop where
  names : ∀ level, store.floor ≤ level → level ≤ height →
    ∃ hash, store.ancestor (height - level) tip = some hash ∧
      store.getHashByHeight level = some hash
  nothingAbove : ∀ level, height < level → store.getHashByHeight level = none
  inverse : ∀ hash level, store.getHeightByHash hash = some level ↔
    store.getHashByHeight level = some hash

/-- What a call at `height` must find. -/
structure Ready (store : BlockStore) (tip : Hash) (height : Nat) : Prop where
  gapless : ∀ level, height < level → (store.getHashByHeight level).isSome →
    ∀ between, height < between → between < level →
      (store.getHashByHeight between).isSome
  unbroken : ∀ matching, store.floor ≤ matching → matching ≤ height →
    (store.getHashByHeight matching).isSome →
    store.getHashByHeight matching = store.ancestor (height - matching) tip →
    ∀ level, store.floor ≤ level → level < matching →
      (store.getHashByHeight level).isSome
  kept : ∀ level, store.floor ≤ level → level ≤ height → ∀ old,
    store.getHashByHeight level = some old →
    ∃ other, store.floor ≤ other ∧ other ≤ height ∧
      store.ancestor (height - other) tip = some old

/-- Every stored header commits to its parent and lies on no cycle. -/
def HeadersHashed (prevOf : Hash → Hash) (rank : Hash → Nat) (store : BlockStore) : Prop :=
  ∀ hash block, store.blocks.lookup hash = some block →
    block.prevHash = prevOf hash ∧ rank (prevOf hash) < rank hash

namespace HeadersHashed

variable {prevOf : Hash → Hash} {rank : Hash → Nat} {store : BlockStore}

theorem rank_ancestor (hheaders : HeadersHashed prevOf rank store) {distance : Nat}
    {hash found : Hash} (hancestor : store.ancestor distance hash = some found) :
    rank found + distance ≤ rank hash := by
  induction distance generalizing hash with
  | zero =>
      obtain rfl := Option.some.inj hancestor
      omega
  | succ distance ih =>
      obtain ⟨block, hblock, hrest⟩ := Option.bind_eq_some_iff.mp hancestor
      obtain ⟨hparent, hrank⟩ := hheaders hash block hblock
      have hrest := ih hrest
      rw [hparent] at hrest
      omega

theorem ancestor_unique (hheaders : HeadersHashed prevOf rank store) {first second : Nat}
    {tip hash : Hash} (hfirst : store.ancestor first tip = some hash)
    (hsecond : store.ancestor second tip = some hash) : first = second := by
  rcases Nat.le_total first second with hle | hle
  · obtain ⟨rest, rfl⟩ := Nat.exists_eq_add_of_le hle
    rw [ancestor_add, hfirst] at hsecond
    have hrank := hheaders.rank_ancestor hsecond
    omega
  · obtain ⟨rest, rfl⟩ := Nat.exists_eq_add_of_le hle
    rw [ancestor_add, hsecond] at hfirst
    have hrank := hheaders.rank_ancestor hfirst
    omega

end HeadersHashed

namespace Indexed

variable {prevOf : Hash → Hash} {rank : Hash → Nat} {store : BlockStore}

theorem ancestor_unique (hindexed : Indexed prevOf rank store) {first second : Nat}
    {tip hash : Hash} (hfirst : store.ancestor first tip = some hash)
    (hsecond : store.ancestor second tip = some hash) : first = second :=
  HeadersHashed.ancestor_unique hindexed.headers hfirst hsecond

theorem row_below (hindexed : Indexed prevOf rank store) {top level : Nat} {hash : Hash}
    (htop : store.getHashByHeight top = some hash) (hfloor : store.floor ≤ level)
    (hlevel : level ≤ top)
    (hsome : ∀ between, level ≤ between → between < top →
      (store.getHashByHeight between).isSome) :
    ∃ found, store.ancestor (top - level) hash = some found ∧
      store.getHashByHeight level = some found := by
  induction top generalizing hash with
  | zero =>
      obtain rfl : level = 0 := by omega
      exact ⟨hash, by simp [ancestor], htop⟩
  | succ top ih =>
      rcases Nat.lt_or_eq_of_le hlevel with hlower | rfl
      · obtain ⟨below, hbelow⟩ :=
          Option.isSome_iff_exists.mp (hsome top (by omega) (by omega))
        obtain ⟨hstored, hlink⟩ := hindexed.linked top hash htop (by omega)
        obtain ⟨block, hblock⟩ := Option.isSome_iff_exists.mp hstored
        obtain ⟨found, hancestor, hrow⟩ := ih hbelow (by omega)
          fun between hlow hhigh => hsome between hlow (by omega)
        refine ⟨found, ?_, hrow⟩
        rw [hlink below hbelow, ← (hindexed.headers hash block hblock).1] at hancestor
        rw [Nat.succ_sub (by omega)]
        simp only [ancestor, hblock]
        exact hancestor
      · exact ⟨hash, by simp [ancestor], htop⟩

end Indexed

/-! ## The rows of one call -/

section Rows

variable {store : BlockStore}

theorem mem_rowsAbove {fuel start level : Nat} {hash : Hash} :
    (level, hash) ∈ store.rowsAbove fuel start ↔
      start ≤ level ∧ level < start + fuel ∧ store.getHashByHeight level = some hash ∧
        ∀ between, start ≤ between → between < level →
          (store.getHashByHeight between).isSome := by
  induction fuel generalizing start with
  | zero =>
      simp only [rowsAbove, List.not_mem_nil, false_iff]
      omega
  | succ fuel ih =>
      unfold rowsAbove
      cases hstart : store.getHashByHeight start with
      | none =>
          simp only [List.not_mem_nil, false_iff]
          rintro ⟨hle, hlt, hlevel, hbetween⟩
          rcases Nat.lt_or_eq_of_le hle with hlower | rfl
          · have hsome := hbetween start (le_refl _) hlower
            simp [hstart] at hsome
          · simp [hstart] at hlevel
      | some first =>
          rw [List.mem_cons, ih]
          constructor
          · rintro (hfirst | ⟨hle, hlt, hlevel, hbetween⟩)
            · obtain ⟨rfl, rfl⟩ := Prod.mk.inj hfirst
              refine ⟨le_refl _, by omega, hstart, ?_⟩
              intro between hlow hhigh
              omega
            · refine ⟨by omega, by omega, hlevel, ?_⟩
              intro between hlow hhigh
              rcases Nat.lt_or_eq_of_le hlow with hlower | rfl
              · exact hbetween between hlower hhigh
              · simp [hstart]
          · rintro ⟨hle, hlt, hlevel, hbetween⟩
            rcases Nat.lt_or_eq_of_le hle with hlower | rfl
            · refine .inr ⟨hlower, by omega, hlevel, ?_⟩
              intro between hlow hhigh
              exact hbetween between (by omega) hhigh
            · rw [hstart] at hlevel
              exact .inl (Prod.ext rfl (Option.some.inj hlevel).symm)

theorem mem_stale {height level : Nat} {hash : Hash} :
    (level, hash) ∈ store.rowsAbove store.heightIndex.keys.card (height + 1) ↔
      height < level ∧ store.getHashByHeight level = some hash ∧
        ∀ between, height < between → between < level →
          (store.getHashByHeight between).isSome := by
  rw [mem_rowsAbove]
  constructor
  · rintro ⟨hle, -, hlevel, hbetween⟩
    exact ⟨hle, hlevel, hbetween⟩
  · rintro ⟨hle, hlevel, hbetween⟩
    refine ⟨hle, ?_, hlevel, hbetween⟩
    have hkeys : Finset.Ioc height level ⊆ store.heightIndex.keys := by
      intro other hother
      rw [Finset.mem_Ioc] at hother
      have hsome : (store.getHashByHeight other).isSome := by
        rcases Nat.lt_or_eq_of_le hother.2 with hlower | rfl
        · exact hbetween other hother.1 hlower
        · simp [hlevel]
      obtain ⟨found, hfound⟩ := Option.isSome_iff_exists.mp hsome
      exact Finmap.mem_keys.mpr (Finmap.mem_of_lookup_eq_some hfound)
    have hcard := Finset.card_le_card hkeys
    rw [Nat.card_Ioc] at hcard
    omega

/-- The walk writes the ancestors from `low` on and stops at the floor or at a
row that names the ancestor already. -/
structure Walked (store : BlockStore) (tip : Hash) (height : Nat)
    (rows : List (Nat × Hash)) (low : Nat) : Prop where
  le_floor : store.floor ≤ low
  le_top : low ≤ height + 1
  mem_iff : ∀ level hash, (level, hash) ∈ rows ↔ low ≤ level ∧ level ≤ height ∧
    store.ancestor (height - level) tip = some hash
  written : ∀ level, low ≤ level → level ≤ height →
    ∃ hash, store.ancestor (height - level) tip = some hash ∧
      store.getHashByHeight level ≠ some hash
  stopped : low = store.floor ∨ ∃ below hash, low = below + 1 ∧ store.floor ≤ below ∧
    store.ancestor (height - below) tip = some hash ∧
    store.getHashByHeight below = some hash

theorem Walked.nil {tip : Hash} {height : Nat} (hfloor : store.floor ≤ height)
    (hmatch : store.getHashByHeight height = some tip) :
    Walked store tip height [] (height + 1) where
  le_floor := by omega
  le_top := le_refl _
  mem_iff level hash := by
    simp only [List.not_mem_nil, false_iff]
    omega
  written level hlow hhigh := by omega
  stopped := .inr ⟨height, tip, rfl, hfloor, by simp [ancestor], hmatch⟩

theorem Walked.singleton {tip : Hash} {height : Nat} (hfloor : store.floor = height)
    (hmatch : store.getHashByHeight height ≠ some tip) :
    Walked store tip height [(height, tip)] height where
  le_floor := hfloor.le
  le_top := by omega
  mem_iff level hash := by
    simp only [List.mem_singleton, Prod.mk.injEq]
    constructor
    · rintro ⟨rfl, rfl⟩
      simp [ancestor]
    · rintro ⟨hlow, hhigh, hancestor⟩
      obtain rfl : level = height := by omega
      rw [Nat.sub_self, ancestor] at hancestor
      exact ⟨rfl, (Option.some.inj hancestor).symm⟩
  written level hlow hhigh := by
    obtain rfl : level = height := by omega
    exact ⟨tip, by simp [ancestor], hmatch⟩
  stopped := .inl hfloor.symm

theorem ancestor_succ_sub {block : Block} {tip : Hash} {height level : Nat}
    (hblock : store.blocks.lookup tip = some block) (hlevel : level ≤ height) :
    store.ancestor (height + 1 - level) tip =
      store.ancestor (height - level) block.prevHash := by
  rw [Nat.succ_sub hlevel]
  simp [ancestor, hblock]

theorem Walked.cons {tip : Hash} {height low : Nat} {block : Block}
    {rows : List (Nat × Hash)} (hblock : store.blocks.lookup tip = some block)
    (hmatch : store.getHashByHeight (height + 1) ≠ some tip)
    (hrows : Walked store block.prevHash height rows low) :
    Walked store tip (height + 1) ((height + 1, tip) :: rows) low where
  le_floor := hrows.le_floor
  le_top := hrows.le_top.trans (by omega)
  mem_iff level hash := by
    have htop := hrows.le_top
    rw [List.mem_cons, hrows.mem_iff, Prod.mk.injEq]
    constructor
    · rintro (⟨rfl, rfl⟩ | ⟨hlow, hhigh, hancestor⟩)
      · refine ⟨htop, le_refl _, ?_⟩
        simp [ancestor]
      · refine ⟨hlow, by omega, ?_⟩
        rw [ancestor_succ_sub hblock hhigh]
        exact hancestor
    · rintro ⟨hlow, hhigh, hancestor⟩
      rcases Nat.lt_or_eq_of_le hhigh with hlower | rfl
      · have hhigh : level ≤ height := by omega
        rw [ancestor_succ_sub hblock hhigh] at hancestor
        exact .inr ⟨hlow, hhigh, hancestor⟩
      · rw [Nat.sub_self, ancestor] at hancestor
        exact .inl ⟨rfl, (Option.some.inj hancestor).symm⟩
  written level hlow hhigh := by
    rcases Nat.lt_or_eq_of_le hhigh with hlower | rfl
    · have hhigh : level ≤ height := by omega
      rw [ancestor_succ_sub hblock hhigh]
      exact hrows.written level hlow hhigh
    · exact ⟨tip, by simp [ancestor], hmatch⟩
  stopped := by
    rcases hrows.stopped with hfloor | ⟨below, hash, hlow, hfloor, hancestor, hrow⟩
    · exact .inl hfloor
    · have htop := hrows.le_top
      refine .inr ⟨below, hash, hlow, hfloor, ?_, hrow⟩
      rw [ancestor_succ_sub hblock (by omega)]
      exact hancestor

theorem walked_rowsBelow {tip : Hash} {height : Nat} {rows : List (Nat × Hash)}
    (hfloor : store.floor ≤ height) (hrows : store.rowsBelow height tip = .ok rows) :
    ∃ low, Walked store tip height rows low := by
  induction height generalizing tip rows with
  | zero =>
      unfold rowsBelow at hrows
      split at hrows
      case isTrue hmatch =>
        cases hrows
        exact ⟨1, .nil hfloor hmatch⟩
      case isFalse hmatch =>
        cases hrows
        exact ⟨0, .singleton (by omega) hmatch⟩
  | succ height ih =>
      unfold rowsBelow at hrows
      split at hrows
      case isTrue hmatch =>
        cases hrows
        exact ⟨height + 2, .nil hfloor hmatch⟩
      case isFalse hmatch =>
        dsimp only at hrows
        split at hrows
        case isTrue hhorizon =>
          cases hrows
          rw [atSnapHorizon_iff] at hhorizon
          exact ⟨height + 1, .singleton (by omega) hmatch⟩
        case isFalse hhorizon =>
          rw [atSnapHorizon_iff] at hhorizon
          split at hrows
          case h_1 hmissing => cases hrows
          case h_2 block hblock =>
            split at hrows
            case h_1 missing hdeeper => cases hrows
            case h_2 deeper hdeeper =>
              cases hrows
              obtain ⟨low, hwalked⟩ := ih (by omega) hdeeper
              exact ⟨low, hwalked.cons hblock hmatch⟩

end Rows

/-! ## One call -/

section Call

variable {prevOf : Hash → Hash} {rank : Hash → Nat} {store next : BlockStore}
  {tip : Hash} {height : Nat}

/-- What a call does to the two indexes. -/
structure Recast (store next : BlockStore) (rows stale : List (Nat × Hash)) : Prop where
  blocks : next.blocks = store.blocks
  horizon : next.snapHorizon = store.snapHorizon
  heights : next.heightIndex = commit (rows.map fun row => .put row.1 row.2)
    (commit (deletes (stale.map Prod.fst)) store.heightIndex)
  hashes : next.hashToHeight = commit ((rows.map Prod.swap).map fun row => .put row.1 row.2)
    (commit (deletes (stale.map Prod.snd)) store.hashToHeight)

theorem recast_of_setCanonicalChain
    (hset : store.setCanonicalChain tip height = .ok next) :
    ∃ rows, store.rowsBelow height tip = .ok rows ∧ Recast store next rows
      (store.rowsAbove store.heightIndex.keys.card (height + 1)) := by
  unfold setCanonicalChain at hset
  dsimp only at hset
  split at hset
  case h_1 missing hrows => cases hset
  case h_2 rows hrows =>
    cases hset
    refine ⟨rows, hrows, rfl, rfl, ?_, ?_⟩
    · rw [← commit_append, deletes, List.map_map]
      rfl
    · rw [← commit_append, deletes, List.map_map, List.map_map]
      rfl

theorem ancestor_congr (hblocks : next.blocks = store.blocks) (distance : Nat)
    (hash : Hash) : next.ancestor distance hash = store.ancestor distance hash := by
  induction distance generalizing hash with
  | zero => rfl
  | succ distance ih =>
      simp only [ancestor, hblocks]
      cases store.blocks.lookup hash with
      | none => rfl
      | some block => exact ih block.prevHash

section Walk

variable {rows : List (Nat × Hash)} {low : Nat}
  (hrecast : Recast store next rows
    (store.rowsAbove store.heightIndex.keys.card (height + 1)))
  (hwalked : Walked store tip height rows low)

include hrecast hwalked

theorem lookup_written {level : Nat} {hash : Hash} (hrow : (level, hash) ∈ rows) :
    next.getHashByHeight level = some hash := by
  unfold getHashByHeight
  rw [hrecast.heights]
  apply lookup_commit_rows_of_mem hrow
  intro other hother
  have hfirst := ((hwalked.mem_iff level hash).mp hrow).2.2
  have hsecond := ((hwalked.mem_iff level other).mp hother).2.2
  rw [hfirst] at hsecond
  exact (Option.some.inj hsecond).symm

theorem lookup_below {level : Nat} (hlevel : level < low) :
    next.getHashByHeight level = store.getHashByHeight level := by
  unfold getHashByHeight
  rw [hrecast.heights, lookup_commit_rows_of_notMem, lookup_commit_deletes, if_neg]
  · rw [List.mem_map]
    rintro ⟨row, hrow, rfl⟩
    have habove := (mem_stale.mp hrow).1
    have htop := hwalked.le_top
    omega
  · rintro row hrow rfl
    have habove := ((hwalked.mem_iff row.1 row.2).mp hrow).1
    omega

theorem lookup_above {level : Nat} (hlevel : height < level) :
    next.getHashByHeight level =
      if level ∈ (store.rowsAbove store.heightIndex.keys.card (height + 1)).map Prod.fst
      then none else store.getHashByHeight level := by
  unfold getHashByHeight
  rw [hrecast.heights, lookup_commit_rows_of_notMem, lookup_commit_deletes]
  rintro row hrow rfl
  have htop := ((hwalked.mem_iff row.1 row.2).mp hrow).2.1
  omega

end Walk

theorem lookup_hash_written (hindexed : Indexed prevOf rank store)
    {rows : List (Nat × Hash)} {low level : Nat} {hash : Hash}
    (hrecast : Recast store next rows
      (store.rowsAbove store.heightIndex.keys.card (height + 1)))
    (hwalked : Walked store tip height rows low) (hrow : (level, hash) ∈ rows) :
    next.getHeightByHash hash = some level := by
  unfold getHeightByHash
  rw [hrecast.hashes]
  have hswap : (hash, level) ∈ rows.map Prod.swap :=
    List.mem_map.mpr ⟨(level, hash), hrow, rfl⟩
  apply lookup_commit_rows_of_mem hswap
  intro other hother
  obtain ⟨⟨height', hash'⟩, hmem, heq⟩ := List.mem_map.mp hother
  obtain ⟨rfl, rfl⟩ := Prod.mk.inj heq
  obtain ⟨hlow, hhigh, hfirst⟩ := (hwalked.mem_iff _ _).mp hrow
  obtain ⟨hlow', hhigh', hsecond⟩ := (hwalked.mem_iff _ _).mp hmem
  have hdistance := hindexed.ancestor_unique hfirst hsecond
  omega

theorem lookup_hash_kept {rows : List (Nat × Hash)} {hash : Hash}
    (hrecast : Recast store next rows
      (store.rowsAbove store.heightIndex.keys.card (height + 1)))
    (hrow : ∀ level, (level, hash) ∉ rows) :
    next.getHeightByHash hash =
      if hash ∈ (store.rowsAbove store.heightIndex.keys.card (height + 1)).map Prod.snd
      then none else store.getHeightByHash hash := by
  unfold getHeightByHash
  rw [hrecast.hashes, lookup_commit_rows_of_notMem, lookup_commit_deletes]
  rintro row hmem rfl
  obtain ⟨other, hother, rfl⟩ := List.mem_map.mp hmem
  exact hrow other.1 hother

theorem Walked.names_below (hindexed : Indexed prevOf rank store)
    {rows : List (Nat × Hash)} {low : Nat} (hwalked : Walked store tip height rows low)
    (hready : Ready store tip height) {level : Nat} (hfloor : store.floor ≤ level)
    (hlevel : level < low) :
    ∃ hash, store.ancestor (height - level) tip = some hash ∧
      store.getHashByHeight level = some hash := by
  rcases hwalked.stopped with hlow | ⟨below, hash, rfl, hbelow, hancestor, hrow⟩
  · omega
  · have htop := hwalked.le_top
    have hsome := hready.unbroken below hbelow (by omega) (by simp [hrow])
      (hrow.trans hancestor.symm)
    rw [ancestor_below hancestor (by omega) (by omega)]
    exact hindexed.row_below hrow hfloor (by omega)
      fun between hlow hhigh => hsome between (by omega) hhigh

section Ready

variable {rows : List (Nat × Hash)} {low : Nat}
  (hindexed : Indexed prevOf rank store) (hready : Ready store tip height)
  (hrecast : Recast store next rows
    (store.rowsAbove store.heightIndex.keys.card (height + 1)))
  (hwalked : Walked store tip height rows low)

include hindexed hready hrecast hwalked

theorem names_of_ready {level : Nat} (hfloor : store.floor ≤ level)
    (hlevel : level ≤ height) :
    ∃ hash, store.ancestor (height - level) tip = some hash ∧
      next.getHashByHeight level = some hash := by
  rcases Nat.lt_or_ge level low with hbelow | habove
  · rw [lookup_below hrecast hwalked hbelow]
    exact hwalked.names_below hindexed hready hfloor hbelow
  · obtain ⟨hash, hancestor, -⟩ := hwalked.written level habove hlevel
    exact ⟨hash, hancestor, lookup_written hrecast hwalked
      ((hwalked.mem_iff level hash).mpr ⟨habove, hlevel, hancestor⟩)⟩

omit hindexed in
theorem nothingAbove_of_ready {level : Nat} (hlevel : height < level) :
    next.getHashByHeight level = none := by
  rw [lookup_above hrecast hwalked hlevel]
  split
  case isTrue hstale => rfl
  case isFalse hstale =>
    cases hrow : store.getHashByHeight level with
    | none => rfl
    | some hash =>
        refine absurd (List.mem_map.mpr ⟨(level, hash), ?_, rfl⟩) hstale
        exact mem_stale.mpr ⟨hlevel, hrow, hready.gapless level hlevel (by simp [hrow])⟩

omit hindexed in
theorem le_of_named {level : Nat} {hash : Hash}
    (hnamed : next.getHashByHeight level = some hash) : level ≤ height := by
  by_contra hgt
  rw [nothingAbove_of_ready hready hrecast hwalked (by omega)] at hnamed
  cases hnamed

theorem inverse_of_written {written level : Nat} {hash : Hash}
    (hrow : (written, hash) ∈ rows) :
    next.getHeightByHash hash = some level ↔ next.getHashByHeight level = some hash := by
  obtain ⟨hlow, hhigh, hancestor⟩ := (hwalked.mem_iff _ _).mp hrow
  rw [lookup_hash_written hindexed hrecast hwalked hrow, Option.some.injEq]
  constructor
  · rintro rfl
    exact lookup_written hrecast hwalked hrow
  · intro hlevel
    have hle := le_of_named hready hrecast hwalked hlevel
    have hge : store.floor ≤ level := by
      by_contra hlt
      have hwalkLow := hwalked.le_floor
      rw [lookup_below hrecast hwalked (by omega)] at hlevel
      exact hlt (hindexed.above level hash hlevel)
    obtain ⟨found, hfound, hnamed⟩ :=
      names_of_ready hindexed hready hrecast hwalked hge hle
    obtain rfl := Option.some.inj (hlevel.symm.trans hnamed)
    have hdistance := hindexed.ancestor_unique hancestor hfound
    omega

theorem named_of_height {level : Nat} {hash : Hash} (hrow : ∀ written, (written, hash) ∉ rows)
    (hheight : next.getHeightByHash hash = some level) :
    next.getHashByHeight level = some hash := by
  rw [lookup_hash_kept hrecast hrow] at hheight
  split at hheight
  case isTrue hstale => cases hheight
  case isFalse hstale =>
    have hold := (hindexed.inverse hash level).mp hheight
    have hge := hindexed.above level hash hold
    have hle : level ≤ height := by
      by_contra hgt
      apply hstale
      refine List.mem_map.mpr ⟨(level, hash), mem_stale.mpr ⟨by omega, hold, ?_⟩, rfl⟩
      exact hready.gapless level (by omega) (by simp [hold])
    rcases Nat.lt_or_ge level low with hbelow | habove
    · rw [lookup_below hrecast hwalked hbelow]
      exact hold
    · -- a replaced block is an ancestor, so the walk would have written it
      obtain ⟨other, hlow, hhigh, hancestor⟩ := hready.kept level hge hle hash hold
      have hother : other < low := by
        by_contra hge'
        exact hrow other ((hwalked.mem_iff _ _).mpr ⟨by omega, hhigh, hancestor⟩)
      obtain ⟨found, hfound, hnamed⟩ := hwalked.names_below hindexed hready hlow hother
      obtain rfl := Option.some.inj (hancestor.symm.trans hfound)
      have hsame := ((hindexed.inverse hash other).mpr hnamed).symm.trans
        ((hindexed.inverse hash level).mpr hold)
      have heq := Option.some.inj hsame
      omega

theorem height_of_named {level : Nat} {hash : Hash} (hrow : ∀ written, (written, hash) ∉ rows)
    (hnamed : next.getHashByHeight level = some hash) :
    next.getHeightByHash hash = some level := by
  have hle := le_of_named hready hrecast hwalked hnamed
  have hbelow : level < low := by
    by_contra hge
    obtain ⟨found, hfound, -⟩ := hwalked.written level (by omega) hle
    have hmem := (hwalked.mem_iff _ _).mpr ⟨Nat.le_of_not_lt hge, hle, hfound⟩
    rw [lookup_written hrecast hwalked hmem] at hnamed
    obtain rfl := Option.some.inj hnamed
    exact hrow level hmem
  rw [lookup_below hrecast hwalked hbelow] at hnamed
  have hheight := (hindexed.inverse hash level).mpr hnamed
  rw [lookup_hash_kept hrecast hrow, if_neg]
  · exact hheight
  · rw [List.mem_map]
    rintro ⟨⟨other, hash'⟩, hmem, rfl⟩
    obtain ⟨habove, hother, -⟩ := mem_stale.mp hmem
    have heq := Option.some.inj (((hindexed.inverse _ _).mpr hother).symm.trans hheight)
    omega

end Ready

theorem canonicalTo_of_ready (hindexed : Indexed prevOf rank store)
    (hfloor : store.floor ≤ height) (hready : Ready store tip height)
    (hset : store.setCanonicalChain tip height = .ok next) :
    CanonicalTo next tip height := by
  obtain ⟨rows, hrows, hrecast⟩ := recast_of_setCanonicalChain hset
  obtain ⟨low, hwalked⟩ := walked_rowsBelow hfloor hrows
  have hhorizon : next.floor = store.floor := congrArg (Option.getD · 0) hrecast.horizon
  constructor
  case names =>
    intro level hlow hhigh
    rw [hhorizon] at hlow
    rw [ancestor_congr hrecast.blocks]
    exact names_of_ready hindexed hready hrecast hwalked hlow hhigh
  case nothingAbove =>
    intro level hlevel
    exact nothingAbove_of_ready hready hrecast hwalked hlevel
  case inverse =>
    intro hash level
    by_cases hrow : ∃ written, (written, hash) ∈ rows
    · obtain ⟨written, hrow⟩ := hrow
      exact inverse_of_written hindexed hready hrecast hwalked hrow
    · have hrow : ∀ written, (written, hash) ∉ rows := fun written hmem =>
        hrow ⟨written, hmem⟩
      constructor
      · exact named_of_height hindexed hready hrecast hwalked hrow
      · exact height_of_named hindexed hready hrecast hwalked hrow

theorem ready_of_canonicalTo (hindexed : Indexed prevOf rank store)
    (hfloor : store.floor ≤ height)
    (hset : store.setCanonicalChain tip height = .ok next)
    (hcanonical : CanonicalTo next tip height) : Ready store tip height := by
  obtain ⟨rows, hrows, hrecast⟩ := recast_of_setCanonicalChain hset
  obtain ⟨low, hwalked⟩ := walked_rowsBelow hfloor hrows
  have hhorizon : next.floor = store.floor := congrArg (Option.getD · 0) hrecast.horizon
  have hnames := hcanonical.names
  rw [hhorizon] at hnames
  simp only [ancestor_congr hrecast.blocks] at hnames
  constructor
  case gapless =>
    intro level hlevel hsome between hlow hhigh
    obtain ⟨hash, hrow⟩ := Option.isSome_iff_exists.mp hsome
    by_contra hgap
    -- the scan stops at the gap, so the row above it survives
    have hkept := hcanonical.nothingAbove level hlevel
    rw [lookup_above hrecast hwalked hlevel, if_neg, hrow] at hkept
    · cases hkept
    · rw [List.mem_map]
      rintro ⟨row, hmem, rfl⟩
      exact hgap ((mem_stale.mp hmem).2.2 between hlow hhigh)
  case unbroken =>
    intro matching hmatchLow hmatchHigh hsome hmatch level hlow hhigh
    have hbelow : matching < low := by
      by_contra hge
      obtain ⟨hash, hancestor, hne⟩ := hwalked.written matching (by omega) hmatchHigh
      exact hne (hmatch.trans hancestor)
    obtain ⟨hash, -, hnamed⟩ := hnames level hlow (by omega)
    rw [lookup_below hrecast hwalked (by omega)] at hnamed
    simp [hnamed]
  case kept =>
    intro level hlow hhigh old hold
    by_contra hforeign
    have hrow : ∀ written, (written, old) ∉ rows := by
      intro written hmem
      obtain ⟨hge, hle, hancestor⟩ := (hwalked.mem_iff _ _).mp hmem
      exact hforeign ⟨written, hwalked.le_floor.trans hge, hle, hancestor⟩
    -- nothing touches the height of the replaced block
    have hheight : next.getHeightByHash old = some level := by
      rw [lookup_hash_kept hrecast hrow, if_neg]
      · exact (hindexed.inverse old level).mpr hold
      · rw [List.mem_map]
        rintro ⟨⟨other, hash⟩, hmem, rfl⟩
        obtain ⟨habove, hother, -⟩ := mem_stale.mp hmem
        have hsame := ((hindexed.inverse _ _).mpr hother).symm.trans
          ((hindexed.inverse _ _).mpr hold)
        have heq := Option.some.inj hsame
        omega
    have hnamed := (hcanonical.inverse old level).mp hheight
    obtain ⟨hash, hancestor, hnew⟩ := hnames level hlow hhigh
    obtain rfl := Option.some.inj (hnamed.symm.trans hnew)
    exact hforeign ⟨level, hlow, hhigh, hancestor⟩

end Call

end BlockStore

end Doli.Storage
