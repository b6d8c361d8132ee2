import Doli.Storage.CanonicalIndex

/-!
# Runs of the canonical index

Blocks are stored, canonical chains set and entries removed in any order.  The
index is right after every call if and only if every call found it ready.
-/

namespace Doli.Storage

open Doli.Core Doli.Lib

namespace BlockStore

def empty : BlockStore := ⟨∅, ∅, ∅, none⟩

/-- The anchor of a snap sync is the floor of every later walk. -/
def seedCanonicalIndex (store : BlockStore) (hash : Hash) (height : Nat) : BlockStore :=
  { store with
    heightIndex := store.heightIndex.insert height hash
    hashToHeight := store.hashToHeight.insert hash height
    snapHorizon := some height }

/-- A store before its first block. -/
inductive Fresh : BlockStore → Prop
  | genesis : Fresh empty
  | snapSynced (anchor : Hash) (height : Nat) :
      Fresh (empty.seedCanonicalIndex anchor height)

inductive IndexOp where
  | putBlock (block : Block)
  | setCanonicalChain (tip : Hash) (height : Nat)
  | removeCanonicalEntry (height : Nat) (expectedHash : Hash)
  deriving DecidableEq, Repr

/-- A call that fails writes nothing. -/
def applyIndexOp (store : BlockStore) : IndexOp → BlockStore
  | .putBlock block => store.putBlock block
  | .setCanonicalChain tip height =>
      match store.setCanonicalChain tip height with
      | .ok next => next
      | .error _ => store
  | .removeCanonicalEntry height expectedHash =>
      store.removeCanonicalEntry height expectedHash

theorem applyIndexOp_ok {store next : BlockStore} {tip : Hash} {height : Nat}
    (hset : store.setCanonicalChain tip height = .ok next) :
    applyIndexOp store (.setCanonicalChain tip height) = next := by
  simp [applyIndexOp, hset]

theorem applyIndexOp_error {store : BlockStore} {tip missing : Hash} {height : Nat}
    (hset : store.setCanonicalChain tip height = .error missing) :
    applyIndexOp store (.setCanonicalChain tip height) = store := by
  simp [applyIndexOp, hset]

def replayIndex (start : BlockStore) (ops : List IndexOp) : BlockStore :=
  ops.foldl applyIndexOp start

section Steps

variable {prevOf : Hash → Hash} {rank : Hash → Nat} {store : BlockStore}

theorem Fresh.indexed {start : BlockStore} (hstart : Fresh start) :
    Indexed prevOf rank start := by
  cases hstart with
  | genesis =>
      constructor <;> simp [empty, getHashByHeight, getHeightByHash]
  | snapSynced anchor height =>
      have hrow : ∀ level hash,
          (empty.seedCanonicalIndex anchor height).getHashByHeight level = some hash ↔
            level = height ∧ hash = anchor := by
        intro level hash
        exact lookup_singleton_eq_some
      constructor
      case headers => simp [seedCanonicalIndex, empty]
      case inverse =>
        intro hash level
        rw [hrow]
        change (Finmap.singleton anchor height : Column Hash Nat).lookup hash = some level ↔ _
        rw [lookup_singleton_eq_some, and_comm]
      case above =>
        intro level hash hlevel
        obtain ⟨rfl, rfl⟩ := (hrow level hash).mp hlevel
        exact le_refl _
      case linked =>
        intro level hash hlevel hfloor
        obtain ⟨rfl, rfl⟩ := (hrow _ hash).mp hlevel
        exact absurd hfloor (Nat.not_succ_le_self level)

theorem HeadersHashed.putBlock (hheaders : HeadersHashed prevOf rank store) {block : Block}
    (hhashed : Hashed prevOf rank block) :
    HeadersHashed prevOf rank (store.putBlock block) := by
  intro hash found hlookup
  change (store.blocks.insert block.hash block).lookup hash = some found at hlookup
  by_cases hhash : hash = block.hash
  · subst hhash
    rw [Finmap.lookup_insert] at hlookup
    obtain rfl := Option.some.inj hlookup
    exact ⟨hhashed.parent, hhashed.parent ▸ hhashed.acyclic⟩
  · rw [Finmap.lookup_insert_of_ne _ hhash] at hlookup
    exact hheaders hash found hlookup

theorem Indexed.putBlock (hindexed : Indexed prevOf rank store) {block : Block}
    (hhashed : Hashed prevOf rank block) : Indexed prevOf rank (store.putBlock block) := by
  constructor
  case headers => exact HeadersHashed.putBlock hindexed.headers hhashed
  case inverse => exact hindexed.inverse
  case above => exact hindexed.above
  case linked =>
    intro height hash hrow hfloor
    obtain ⟨hstored, hlink⟩ := hindexed.linked height hash hrow hfloor
    refine ⟨?_, hlink⟩
    change ((store.blocks.insert block.hash block).lookup hash).isSome
    by_cases hhash : hash = block.hash
    · rw [hhash, Finmap.lookup_insert]
      rfl
    · rw [Finmap.lookup_insert_of_ne _ hhash]
      exact hstored

theorem Indexed.removeCanonicalEntry (hindexed : Indexed prevOf rank store) (height : Nat)
    (expectedHash : Hash) :
    Indexed prevOf rank (store.removeCanonicalEntry height expectedHash) := by
  unfold BlockStore.removeCanonicalEntry
  split
  case isFalse hother => exact hindexed
  case isTrue hexpected =>
    have hlookup : ∀ level hash,
        (store.heightIndex.erase height).lookup level = some hash →
          level ≠ height ∧ store.getHashByHeight level = some hash := by
      intro level hash hrow
      have hne : level ≠ height := by
        rintro rfl
        simp at hrow
      rw [Finmap.lookup_erase_ne hne] at hrow
      exact ⟨hne, hrow⟩
    constructor
    case headers => exact hindexed.headers
    case inverse =>
      intro hash level
      change (store.hashToHeight.erase expectedHash).lookup hash = some level ↔
        (store.heightIndex.erase height).lookup level = some hash
      constructor
      · intro hheight
        have hne : hash ≠ expectedHash := by
          rintro rfl
          simp at hheight
        rw [Finmap.lookup_erase_ne hne] at hheight
        have hrow := (hindexed.inverse hash level).mp hheight
        rw [Finmap.lookup_erase_ne]
        · exact hrow
        · rintro rfl
          exact hne (Option.some.inj (hrow.symm.trans hexpected))
      · intro hrow
        obtain ⟨hne, hrow⟩ := hlookup level hash hrow
        have hheight := (hindexed.inverse hash level).mpr hrow
        rw [Finmap.lookup_erase_ne]
        · exact hheight
        · rintro rfl
          have hsame := hheight.symm.trans ((hindexed.inverse hash height).mpr hexpected)
          exact hne (Option.some.inj hsame)
    case above =>
      intro level hash hrow
      exact hindexed.above level hash (hlookup level hash hrow).2
    case linked =>
      intro level hash hrow hfloor
      obtain ⟨hstored, hlink⟩ :=
        hindexed.linked level hash (hlookup (level + 1) hash hrow).2 hfloor
      exact ⟨hstored, fun below hbelow => hlink below (hlookup level below hbelow).2⟩

theorem Indexed.of_canonicalTo {next : BlockStore} {tip : Hash} {height : Nat}
    (hindexed : Indexed prevOf rank store)
    (hset : store.setCanonicalChain tip height = .ok next) (hfloor : store.floor ≤ height)
    (hcanonical : CanonicalTo next tip height) : Indexed prevOf rank next := by
  obtain ⟨rows, hrows, hrecast⟩ := recast_of_setCanonicalChain hset
  obtain ⟨low, hwalked⟩ := walked_rowsBelow hfloor hrows
  have hhorizon : next.floor = store.floor := congrArg (Option.getD · 0) hrecast.horizon
  have hle : ∀ level hash, next.getHashByHeight level = some hash → level ≤ height := by
    intro level hash hnamed
    by_contra hgt
    rw [hcanonical.nothingAbove level (by omega)] at hnamed
    cases hnamed
  constructor
  case headers =>
    rw [hrecast.blocks]
    exact hindexed.headers
  case inverse => exact hcanonical.inverse
  case above =>
    intro level hash hnamed
    rw [hhorizon]
    by_contra hlt
    have hlow := hwalked.le_floor
    rw [lookup_below hrecast hwalked (by omega)] at hnamed
    exact hlt (hindexed.above level hash hnamed)
  case linked =>
    intro level hash hnamed hlevel
    have htop := hle (level + 1) hash hnamed
    obtain ⟨found, hfound, hrow⟩ := hcanonical.names (level + 1) (by omega) htop
    obtain rfl := Option.some.inj (hnamed.symm.trans hrow)
    obtain ⟨parent, hparent, hbelow⟩ := hcanonical.names level hlevel (by omega)
    have hone : level + 1 - level = 1 := by omega
    rw [ancestor_below hfound htop (by omega), hone] at hparent
    obtain ⟨block, hblock, hprev⟩ := Option.bind_eq_some_iff.mp hparent
    rw [hrecast.blocks] at hblock
    refine ⟨by simp [hrecast.blocks, hblock], ?_⟩
    intro below hnamedBelow
    obtain rfl := Option.some.inj (hnamedBelow.symm.trans hbelow)
    obtain rfl := Option.some.inj hprev
    exact (hindexed.headers hash block hblock).1

end Steps

theorem floor_applyIndexOp (store : BlockStore) (op : IndexOp) :
    (applyIndexOp store op).floor = store.floor := by
  cases op with
  | putBlock block => rfl
  | setCanonicalChain tip height =>
      cases hset : store.setCanonicalChain tip height with
      | error missing => rw [applyIndexOp_error hset]
      | ok next =>
          rw [applyIndexOp_ok hset]
          obtain ⟨rows, hrows, hrecast⟩ := recast_of_setCanonicalChain hset
          exact congrArg (Option.getD · 0) hrecast.horizon
  | removeCanonicalEntry height expectedHash =>
      change (store.removeCanonicalEntry height expectedHash).floor = store.floor
      unfold removeCanonicalEntry
      split
      · rfl
      · rfl

theorem floor_replayIndex (start : BlockStore) (ops : List IndexOp) :
    (replayIndex start ops).floor = start.floor := by
  unfold replayIndex
  induction ops generalizing start with
  | nil => rfl
  | cons op ops ih =>
      rw [List.foldl_cons, ih]
      exact floor_applyIndexOp start op

/-- Every successful call of the run, with the stores before and after it. -/
def AtEachCall (start : BlockStore) (ops : List IndexOp)
    (holds : BlockStore → BlockStore → Hash → Nat → Prop) : Prop :=
  ∀ before tip height rest next, ops = before ++ .setCanonicalChain tip height :: rest →
    (replayIndex start before).setCanonicalChain tip height = .ok next →
    holds (replayIndex start before) next tip height

theorem AtEachCall.of_append {start : BlockStore} {first second : List IndexOp}
    {holds : BlockStore → BlockStore → Hash → Nat → Prop}
    (hcalls : AtEachCall start (first ++ second) holds) : AtEachCall start first holds := by
  intro before tip height rest next hops hset
  refine hcalls before tip height (rest ++ second) next ?_ hset
  rw [hops, List.append_assoc, List.cons_append]

/-- The operations of a run: hashed blocks, and calls above the floor. -/
structure RunsAbove (prevOf : Hash → Hash) (rank : Hash → Nat) (start : BlockStore)
    (ops : List IndexOp) : Prop where
  hashed : ∀ block, .putBlock block ∈ ops → Hashed prevOf rank block
  floor : ∀ tip height, .setCanonicalChain tip height ∈ ops → start.floor ≤ height

section Run

variable {prevOf : Hash → Hash} {rank : Hash → Nat} {start : BlockStore}

theorem indexed_replayIndex (hstart : Fresh start) {ops : List IndexOp}
    (hops : RunsAbove prevOf rank start ops)
    (hcalls : AtEachCall start ops fun _ next tip height => CanonicalTo next tip height) :
    Indexed prevOf rank (replayIndex start ops) := by
  induction ops using List.reverseRecOn with
  | nil => exact hstart.indexed
  | append_singleton ops op ih =>
      have hbefore : Indexed prevOf rank (replayIndex start ops) := by
        apply ih
        · exact ⟨fun block hmem => hops.hashed block (List.mem_append_left _ hmem),
            fun tip height hmem => hops.floor tip height (List.mem_append_left _ hmem)⟩
        · exact hcalls.of_append
      have hlast : op ∈ ops ++ [op] := List.mem_append_right _ (List.mem_singleton_self op)
      rw [replayIndex, List.foldl_append]
      change Indexed prevOf rank (applyIndexOp (replayIndex start ops) op)
      cases op with
      | putBlock block => exact hbefore.putBlock (hops.hashed block hlast)
      | setCanonicalChain tip height =>
          cases hset : (replayIndex start ops).setCanonicalChain tip height with
          | error missing =>
              rw [applyIndexOp_error hset]
              exact hbefore
          | ok next =>
              rw [applyIndexOp_ok hset]
              have hcanonical := hcalls ops tip height [] next rfl hset
              apply hbefore.of_canonicalTo hset _ hcanonical
              rw [floor_replayIndex]
              exact hops.floor tip height hlast
      | removeCanonicalEntry height expectedHash =>
          exact hbefore.removeCanonicalEntry height expectedHash

theorem canonicalTo_of_all_ready (hstart : Fresh start) {ops : List IndexOp}
    (hops : RunsAbove prevOf rank start ops)
    (hcalls : AtEachCall start ops fun store _ tip height => Ready store tip height) :
    AtEachCall start ops fun _ next tip height => CanonicalTo next tip height := by
  induction ops using List.reverseRecOn with
  | nil =>
      intro before tip height rest next hops hset
      simp at hops
  | append_singleton ops op ih =>
      have hopsBefore : RunsAbove prevOf rank start ops :=
        ⟨fun block hmem => hops.hashed block (List.mem_append_left _ hmem),
          fun tip height hmem => hops.floor tip height (List.mem_append_left _ hmem)⟩
      have hbefore := ih hopsBefore hcalls.of_append
      intro before tip height rest next hsplit hset
      rcases List.eq_nil_or_concat rest with rfl | ⟨front, last, rfl⟩
      · -- the last operation is the call
        obtain ⟨rfl, hop⟩ := List.append_inj' hsplit rfl
        have hindexed := indexed_replayIndex hstart hopsBefore hbefore
        refine canonicalTo_of_ready hindexed ?_
          (hcalls ops tip height [] next hsplit hset) hset
        rw [floor_replayIndex]
        apply hops.floor tip height
        rw [hsplit]
        simp
      · have hprevious : ops = before ++ .setCanonicalChain tip height :: front := by
          rw [List.concat_eq_append, ← List.cons_append, ← List.append_assoc] at hsplit
          exact (List.append_inj' hsplit rfl).1
        exact hbefore before tip height front next hprevious hset

theorem canonical_index_iff (hstart : Fresh start) (ops : List IndexOp)
    (hops : RunsAbove prevOf rank start ops) :
    (AtEachCall start ops fun _ next tip height => CanonicalTo next tip height) ↔
      AtEachCall start ops fun store _ tip height => Ready store tip height := by
  constructor
  · intro hcalls before tip height rest next hsplit hset
    have hbefore : RunsAbove prevOf rank start before := by
      constructor
      · intro block hmem
        exact hops.hashed block (hsplit ▸ List.mem_append_left _ hmem)
      · intro tip height hmem
        exact hops.floor tip height (hsplit ▸ List.mem_append_left _ hmem)
    have hindexed := indexed_replayIndex hstart hbefore (hsplit ▸ hcalls).of_append
    refine ready_of_canonicalTo hindexed ?_ hset
      (hcalls before tip height rest next hsplit hset)
    rw [floor_replayIndex]
    apply hops.floor tip height
    rw [hsplit]
    simp
  · exact canonicalTo_of_all_ready hstart hops

end Run

def sampleIndexed (hash prevHash : Hash) : Block :=
  ⟨hash, prevHash, ⟨0⟩, 0, 0, ⟨0⟩, [], []⟩

/-- The parents of the sample blocks: 10 under 11 and 12. -/
def samplePrev (hash : Hash) : Hash := if hash = ⟨10⟩ then ⟨0⟩ else ⟨10⟩

def sampleGrowth : List IndexOp :=
  [.putBlock (sampleIndexed ⟨11⟩ ⟨10⟩), .setCanonicalChain ⟨11⟩ 6]

theorem canonical_index_iff_anchor :
    AtEachCall (empty.seedCanonicalIndex ⟨10⟩ 5) sampleGrowth
      fun _ next tip height => CanonicalTo next tip height := by
  have hops : RunsAbove samplePrev (fun hash => hash.word.toNat)
      (empty.seedCanonicalIndex ⟨10⟩ 5) sampleGrowth := by
    constructor
    · intro block hmem
      simp only [sampleGrowth, List.mem_cons, IndexOp.putBlock.injEq, reduceCtorEq,
        List.not_mem_nil, or_false] at hmem
      subst hmem
      constructor <;> decide
    · intro tip height hmem
      simp only [sampleGrowth, List.mem_cons, IndexOp.setCanonicalChain.injEq, reduceCtorEq,
        List.not_mem_nil, or_false, false_or] at hmem
      obtain ⟨rfl, rfl⟩ := hmem
      decide
  refine (canonical_index_iff (.snapSynced ⟨10⟩ 5) sampleGrowth hops).mpr ?_
  intro before tip height rest next hsplit hset
  match before, hsplit with
  | _ :: _ :: more, hsplit => simp [sampleGrowth] at hsplit
  | [put], hsplit =>
      cases hsplit
      have hrow : ∀ level hash, (replayIndex (empty.seedCanonicalIndex ⟨10⟩ 5)
          [.putBlock (sampleIndexed ⟨11⟩ ⟨10⟩)]).getHashByHeight level = some hash ↔
            level = 5 ∧ hash = ⟨10⟩ := by
        intro level hash
        exact lookup_singleton_eq_some
      constructor
      · intro level hlevel hsome
        obtain ⟨hash, hhash⟩ := Option.isSome_iff_exists.mp hsome
        obtain ⟨rfl, rfl⟩ := (hrow level hash).mp hhash
        omega
      · intro matching hlow hhigh hsome hmatch level hfloor hlevel
        obtain ⟨hash, hhash⟩ := Option.isSome_iff_exists.mp hsome
        obtain ⟨rfl, rfl⟩ := (hrow matching hash).mp hhash
        exact absurd hfloor (Nat.not_le_of_lt hlevel)
      · intro level hlow hhigh old hold
        obtain ⟨rfl, rfl⟩ := (hrow level old).mp hold
        exact ⟨5, hlow, hhigh, by decide +kernel⟩

/-- Two blocks at height 1, made canonical one after the other. -/
def sampleReplacement : List IndexOp :=
  [.putBlock (sampleIndexed ⟨10⟩ ⟨0⟩), .putBlock (sampleIndexed ⟨11⟩ ⟨10⟩),
    .putBlock (sampleIndexed ⟨12⟩ ⟨10⟩), .setCanonicalChain ⟨11⟩ 1,
    .setCanonicalChain ⟨12⟩ 1]

/-- The replaced block keeps its height. -/
theorem replaced_block_keeps_height :
    RunsAbove samplePrev (fun hash => hash.word.toNat) empty sampleReplacement ∧
      ¬ AtEachCall empty sampleReplacement
        fun _ next tip height => CanonicalTo next tip height := by
  constructor
  · constructor
    · intro block hmem
      simp only [sampleReplacement, List.mem_cons, IndexOp.putBlock.injEq, reduceCtorEq,
        List.not_mem_nil, or_false] at hmem
      rcases hmem with rfl | rfl | rfl
      · constructor <;> decide
      · constructor <;> decide
      · constructor <;> decide
    · intro tip height hmem
      exact Nat.zero_le height
  · intro hcalls
    have hrun : ((replayIndex empty (sampleReplacement.take 4)).setCanonicalChain ⟨12⟩
        1).toOption.map (fun next => (next.getHeightByHash ⟨11⟩, next.getHashByHeight 1)) =
          some (some 1, some ⟨12⟩) := by
      decide +kernel
    obtain ⟨next, hnext, hrows⟩ := Option.map_eq_some_iff.mp hrun
    obtain ⟨hheight, hnamed⟩ := Prod.mk.inj hrows
    cases hset : (replayIndex empty (sampleReplacement.take 4)).setCanonicalChain ⟨12⟩ 1 with
    | error missing =>
        rw [hset] at hnext
        cases hnext
    | ok final =>
        rw [hset] at hnext
        obtain rfl := Option.some.inj hnext
        have hcanonical := hcalls (sampleReplacement.take 4) ⟨12⟩ 1 [] final rfl hset
        rw [(hcanonical.inverse ⟨11⟩ 1).mp hheight] at hnamed
        exact absurd hnamed (by decide)

end BlockStore

end Doli.Storage
