import Mathlib.Data.List.Basic
import Mathlib.Data.List.Nodup

/-!
# Parent links

Paths along a partial parent function, the bounded walk back from a tip, and
the search from a second tip for the first block that the walk has seen.  The
root stands for the parent of a first block: both loops stop in front of it.
In a chain each item of a list names the one before it; where keys grow along the
links no item comes twice.
-/

namespace Doli.Lib

variable {β : Type}

/-- The blocks from the first one down to the last one, which is left out. -/
inductive Path (parentOf : β → Option β) : β → β → List β → Prop where
  | refl (block : β) : Path parentOf block block []
  | step {block parent ancestor : β} {rest : List β} :
      parentOf block = some parent → Path parentOf parent ancestor rest →
        Path parentOf block ancestor (block :: rest)

namespace Path

variable {parentOf other : β → Option β} {block ancestor : β} {blocks : List β}

theorem of_parents (hpath : Path parentOf block ancestor blocks)
    (hsame : ∀ member ∈ blocks, other member = parentOf member) :
    Path other block ancestor blocks := by
  induction hpath with
  | refl block => exact .refl block
  | step hparent _ ih =>
      refine .step ((hsame _ List.mem_cons_self).trans hparent) (ih fun member hmember => ?_)
      exact hsame member (List.mem_cons_of_mem _ hmember)

theorem parent_isSome (hpath : Path parentOf block ancestor blocks) :
    ∀ member ∈ blocks, (parentOf member).isSome := by
  induction hpath with
  | refl block => simp
  | step hparent _ ih =>
      intro member hmember
      rcases List.mem_cons.mp hmember with rfl | hmember
      · simp [hparent]
      · exact ih member hmember

theorem start_mem (hpath : Path parentOf block ancestor blocks) (hsome : blocks ≠ []) :
    block ∈ blocks := by
  cases hpath with
  | refl => contradiction
  | step _ _ => exact List.mem_cons_self

theorem of_mem (hpath : Path parentOf block ancestor blocks) {member : β}
    (hmember : member ∈ blocks) :
    ∃ rest, rest ≠ [] ∧ Path parentOf member ancestor rest := by
  induction hpath with
  | refl block => simp at hmember
  | @step first parent _ rest hparent hrest ih =>
      rcases List.mem_cons.mp hmember with rfl | hmember
      · exact ⟨member :: rest, by simp, .step hparent hrest⟩
      · exact ih hmember

theorem to_mem (hpath : Path parentOf block ancestor blocks) {member : β}
    (hmember : member ∈ blocks) : ∃ rest, Path parentOf block member rest := by
  induction hpath with
  | refl block => simp at hmember
  | @step first parent _ rest hparent _ ih =>
      rcases List.mem_cons.mp hmember with rfl | hmember
      · exact ⟨[], .refl member⟩
      · obtain ⟨front, hfront⟩ := ih hmember
        exact ⟨first :: front, .step hparent hfront⟩

theorem trans {last : β} {more : List β} (hpath : Path parentOf block ancestor blocks)
    (hmore : Path parentOf ancestor last more) :
    Path parentOf block last (blocks ++ more) := by
  induction hpath with
  | refl block => exact hmore
  | step hparent _ ih => exact .step hparent (ih hmore)

theorem mem_of_closed (hpath : Path parentOf block ancestor blocks) {members : List β}
    (hclosed : ∀ member ∈ members, ∀ parent ∈ parentOf member, parent ∈ members)
    (hblock : block ∈ members) : ancestor ∈ members := by
  induction hpath with
  | refl block => exact hblock
  | step hparent _ ih => exact ih (hclosed _ hblock _ hparent)

section Heights

variable {height : β → Nat}

theorem height_eq (hpath : Path parentOf block ancestor blocks)
    (hheight : ∀ member ∈ blocks, ∀ parent, parentOf member = some parent →
      height member = height parent + 1) :
    height block = height ancestor + blocks.length := by
  induction hpath with
  | refl block => simp
  | step hparent _ ih =>
      have hfirst := hheight _ List.mem_cons_self _ hparent
      have hrest := ih fun member hmember =>
        hheight member (List.mem_cons_of_mem _ hmember)
      simp only [List.length_cons]
      omega

theorem height_lt (hpath : Path parentOf block ancestor blocks)
    (hheight : ∀ member parent, parentOf member = some parent →
      height member = height parent + 1) {member : β} (hmember : member ∈ blocks) :
    height ancestor < height member := by
  obtain ⟨rest, hsome, hrest⟩ := hpath.of_mem hmember
  have heq := hrest.height_eq fun member _ => hheight member
  have hpos := List.length_pos_iff.mpr hsome
  omega

theorem mem_of_height_lt (hpath : Path parentOf block ancestor blocks)
    (hheight : ∀ member parent, parentOf member = some parent →
      height member = height parent + 1) {member : β} {front : List β}
    (hmember : Path parentOf block member front)
    (habove : height ancestor < height member) : member ∈ blocks := by
  induction hmember generalizing blocks with
  | refl block =>
      cases hpath with
      | refl => omega
      | step _ _ => exact List.mem_cons_self
  | step hparent hfront ih =>
      cases hpath with
      | refl =>
          have hfirst := hheight _ _ hparent
          have hrest := hfront.height_eq fun member _ => hheight member
          omega
      | step hparent' hrest =>
          obtain rfl := Option.some.inj (hparent.symm.trans hparent')
          exact List.mem_cons_of_mem _ (ih hrest habove)

end Heights

theorem unique (hpath : Path parentOf block ancestor blocks) (hfirst : ancestor ∉ blocks)
    {others : List β} (hothers : Path parentOf block ancestor others)
    (hfirst' : ancestor ∉ others) : others = blocks := by
  induction hpath generalizing others with
  | refl block =>
      cases hothers with
      | refl => rfl
      | step _ _ => simp at hfirst'
  | step hparent _ ih =>
      cases hothers with
      | refl => simp at hfirst
      | step hparent' hrest' =>
          obtain rfl := Option.some.inj (hparent.symm.trans hparent')
          rw [List.mem_cons, not_or] at hfirst hfirst'
          rw [ih hfirst.2 hrest' hfirst'.2]

end Path

/-! ## The two loops -/

section Walk

variable [DecidableEq β] (parentOf : β → Option β) (root : β)

/-- At most `fuel` blocks from a tip back; the flag tells whether the walk ended
in front of the root. -/
def walk : Nat → β → List β × Bool
  | 0, _ => ([], false)
  | fuel + 1, block =>
      match parentOf block with
      | none => ([block], false)
      | some parent =>
          if parent = root then ([block], true)
          else (block :: (walk fuel parent).1, (walk fuel parent).2)

/-- What a walk has seen. -/
def seenBy (seen : List β × Bool) (block : β) : Bool :=
  decide (block ∈ seen.1) || seen.2 && decide (block = root)

/-- The blocks from a second tip back to the first one that was seen. -/
def meet (seen : β → Bool) : Nat → β → List β × Option β
  | 0, _ => ([], none)
  | fuel + 1, block =>
      if seen block then ([], some block)
      else
        match parentOf block with
        | none => ([block], none)
        | some parent =>
            if parent = root then ([block], if seen parent then some parent else none)
            else (block :: (meet seen fuel parent).1, (meet seen fuel parent).2)

variable {parentOf root} {fuel : Nat} {start block ancestor : β}

theorem seenBy_iff {seen : List β × Bool} :
    seenBy root seen block = true ↔ block ∈ seen.1 ∨ seen.2 = true ∧ block = root := by
  simp [seenBy]

theorem walk_none (hparent : parentOf start = none) :
    walk parentOf root (fuel + 1) start = ([start], false) := by
  simp [walk, hparent]

theorem walk_root (hparent : parentOf start = some root) :
    walk parentOf root (fuel + 1) start = ([start], true) := by
  simp [walk, hparent]

theorem walk_step {parent : β} (hparent : parentOf start = some parent)
    (hroot : parent ≠ root) :
    walk parentOf root (fuel + 1) start =
      (start :: (walk parentOf root fuel parent).1,
        (walk parentOf root fuel parent).2) := by
  simp [walk, hparent, hroot]

theorem start_mem_walk (parentOf : β → Option β) (root : β) (fuel : Nat) (start : β) :
    ∃ rest, (walk parentOf root (fuel + 1) start).1 = start :: rest := by
  simp only [walk]
  split
  · exact ⟨[], rfl⟩
  · split
    · exact ⟨[], rfl⟩
    · exact ⟨_, rfl⟩

theorem path_takeWhile_walk (hseen : seenBy root (walk parentOf root fuel start) block) :
    Path parentOf start block
      ((walk parentOf root fuel start).1.takeWhile (· ≠ block)) := by
  induction fuel generalizing start with
  | zero => simp [walk, seenBy] at hseen
  | succ fuel ih =>
      by_cases hstart : start = block
      · obtain ⟨rest, hrest⟩ := start_mem_walk parentOf root fuel start
        rw [hrest, hstart]
        simpa using Path.refl block
      · have hne : block ≠ start := fun heq => hstart heq.symm
        cases hparent : parentOf start with
        | none =>
            rw [walk_none hparent, seenBy_iff] at hseen
            simp [hne] at hseen
        | some parent =>
            by_cases hroot : parent = root
            · subst hroot
              rw [walk_root hparent, seenBy_iff] at hseen
              obtain rfl : block = parent := by simpa [hne] using hseen
              rw [walk_root hparent]
              simpa [hstart] using Path.step hparent (.refl block)
            · rw [walk_step hparent hroot, seenBy_iff] at hseen
              have hrest : seenBy root (walk parentOf root fuel parent) block := by
                rw [seenBy_iff]
                simpa [hne] using hseen
              rw [walk_step hparent hroot]
              simpa [hstart] using Path.step hparent (ih hrest)

theorem seenBy_walk {blocks : List β} (hpath : Path parentOf start ancestor blocks)
    (hroot : root ∉ blocks) (hfuel : blocks.length < fuel) :
    seenBy root (walk parentOf root fuel start) ancestor := by
  induction hpath generalizing fuel with
  | refl block =>
      obtain ⟨fuel, rfl⟩ : ∃ rest, fuel = rest + 1 := ⟨fuel - 1, by simp at hfuel; omega⟩
      obtain ⟨rest, hrest⟩ := start_mem_walk parentOf root fuel block
      rw [seenBy_iff, hrest]
      exact .inl List.mem_cons_self
  | @step block parent ancestor rest hparent hrest ih =>
      obtain ⟨fuel, rfl⟩ : ∃ rest, fuel = rest + 1 := ⟨fuel - 1, by simp at hfuel; omega⟩
      rw [List.mem_cons, not_or] at hroot
      by_cases hnext : parent = root
      · -- The root is on the path only as its end.
        have hend : ancestor = parent := by
          cases hrest with
          | refl => rfl
          | step _ _ => simp [hnext] at hroot
        rw [walk_root (hnext ▸ hparent), seenBy_iff]
        exact .inr ⟨rfl, hend.trans hnext⟩
      · have hseen := ih hroot.2 (by simpa using hfuel)
        rw [seenBy_iff] at hseen
        rw [walk_step hparent hnext, seenBy_iff]
        exact hseen.imp_left (List.mem_cons_of_mem _)

theorem path_of_seenBy (hseen : seenBy root (walk parentOf root fuel start) block) :
    ∃ blocks, Path parentOf start block blocks :=
  ⟨_, path_takeWhile_walk hseen⟩

theorem meet_path {seen : β → Bool} {blocks : List β}
    (hmeet : meet parentOf root seen fuel start = (blocks, some ancestor)) :
    Path parentOf start ancestor blocks ∧ seen ancestor = true ∧
      ∀ member ∈ blocks, seen member = false := by
  induction fuel generalizing start blocks with
  | zero => simp [meet] at hmeet
  | succ fuel ih =>
      simp only [meet] at hmeet
      split at hmeet
      case isTrue hstart =>
        obtain ⟨rfl, hend⟩ := Prod.mk.inj hmeet
        obtain rfl := Option.some.inj hend
        exact ⟨.refl start, hstart, by simp⟩
      case isFalse hstart =>
        split at hmeet
        · simp at hmeet
        case h_2 parent hparent =>
          split at hmeet
          · obtain ⟨rfl, hend⟩ := Prod.mk.inj hmeet
            split at hend
            case isTrue hseen =>
              obtain rfl := Option.some.inj hend
              exact ⟨.step hparent (.refl parent), hseen, by simpa using hstart⟩
            case isFalse => contradiction
          · obtain ⟨rfl, hend⟩ := Prod.mk.inj hmeet
            obtain ⟨hpath, hseen, hunseen⟩ := ih (Prod.ext rfl hend)
            refine ⟨.step hparent hpath, hseen, fun member hmember => ?_⟩
            rcases List.mem_cons.mp hmember with rfl | hmember
            · simpa using hstart
            · exact hunseen member hmember

theorem meet_of_path {seen : β → Bool} {blocks : List β}
    (hpath : Path parentOf start ancestor blocks) (hroot : root ∉ blocks)
    (hunseen : ∀ member ∈ blocks, seen member = false) (hseen : seen ancestor = true)
    (hfuel : blocks.length < fuel) :
    meet parentOf root seen fuel start = (blocks, some ancestor) := by
  induction hpath generalizing fuel with
  | refl block =>
      obtain ⟨fuel, rfl⟩ : ∃ rest, fuel = rest + 1 := ⟨fuel - 1, by simp at hfuel; omega⟩
      simp [meet, hseen]
  | @step block parent ancestor rest hparent hrest ih =>
      obtain ⟨fuel, rfl⟩ : ∃ rest, fuel = rest + 1 := ⟨fuel - 1, by simp at hfuel; omega⟩
      rw [List.mem_cons, not_or] at hroot
      have hfirst := hunseen block List.mem_cons_self
      by_cases hnext : parent = root
      · cases hrest with
        | refl => simp [meet, hfirst, hparent, hnext, hnext ▸ hseen]
        | step _ _ => simp [hnext] at hroot
      · have hfound := ih hroot.2
          (fun member hmember => hunseen member (List.mem_cons_of_mem _ hmember)) hseen
          (by simpa using hfuel)
        simp [meet, hfirst, hparent, hnext, hfound]

end Walk

/-! ## Chains of linked items -/

section

variable {α κ : Type} (key parent : α → κ)

/-- The first item names `start`, every later one the item before it. -/
def LinkedFrom : κ → List α → Prop
  | _, [] => True
  | start, item :: rest => parent item = start ∧ LinkedFrom (key item) rest

/-- The key that the next item has to name. -/
def lastKey (start : κ) (items : List α) : κ := items.foldl (fun _ item => key item) start

variable {key parent} {start : κ} {items first second : List α} {item : α}

@[simp] theorem lastKey_nil : lastKey key start [] = start := rfl

@[simp] theorem lastKey_cons :
    lastKey key start (item :: items) = lastKey key (key item) items := rfl

@[simp] theorem lastKey_append :
    lastKey key start (first ++ second) = lastKey key (lastKey key start first) second :=
  List.foldl_append

theorem linkedFrom_append :
    LinkedFrom key parent start (first ++ second) ↔ LinkedFrom key parent start first ∧
      LinkedFrom key parent (lastKey key start first) second := by
  induction first generalizing start with
  | nil => simp [LinkedFrom]
  | cons item first ih => simp only [List.cons_append, LinkedFrom, ih, lastKey_cons, and_assoc]

theorem linkedFrom_snoc :
    LinkedFrom key parent start (items ++ [item]) ↔
      LinkedFrom key parent start items ∧ parent item = lastKey key start items := by
  simp [linkedFrom_append, LinkedFrom]

section Rank

variable {rank : κ → Nat}

theorem LinkedFrom.rank_lt (hlinked : LinkedFrom key parent start items)
    (hrank : ∀ item ∈ items, rank (parent item) < rank (key item)) (hmem : item ∈ items) :
    rank start < rank (key item) := by
  induction items generalizing start with
  | nil => simp at hmem
  | cons other items ih =>
      obtain ⟨hstart, hrest⟩ := hlinked
      have hother := hrank other List.mem_cons_self
      rw [hstart] at hother
      rcases List.mem_cons.mp hmem with rfl | hmem
      · exact hother
      · have hlater := ih hrest (fun item hitem => hrank item (List.mem_cons_of_mem _ hitem)) hmem
        omega

theorem LinkedFrom.rank_start_le (hlinked : LinkedFrom key parent start items)
    (hrank : ∀ item ∈ items, rank (parent item) < rank (key item)) :
    rank start ≤ rank (lastKey key start items) := by
  induction items generalizing start with
  | nil => exact Nat.le_refl _
  | cons item items ih =>
      obtain ⟨hstart, hrest⟩ := hlinked
      have hlt := hrank item List.mem_cons_self
      have hle := ih hrest fun other hother => hrank other (List.mem_cons_of_mem _ hother)
      rw [hstart] at hlt
      rw [lastKey_cons]
      omega

theorem LinkedFrom.rank_le_last (hlinked : LinkedFrom key parent start items)
    (hrank : ∀ item ∈ items, rank (parent item) < rank (key item)) (hmem : item ∈ items) :
    rank (key item) ≤ rank (lastKey key start items) := by
  induction items generalizing start with
  | nil => simp at hmem
  | cons other items ih =>
      obtain ⟨-, hrest⟩ := hlinked
      have hlater := fun item hitem => hrank item (List.mem_cons_of_mem other hitem)
      rw [lastKey_cons]
      rcases List.mem_cons.mp hmem with rfl | hmem
      · exact hrest.rank_start_le hlater
      · exact ih hrest hlater hmem

theorem LinkedFrom.nodup (hlinked : LinkedFrom key parent start items)
    (hrank : ∀ item ∈ items, rank (parent item) < rank (key item)) :
    (items.map key).Nodup := by
  induction items generalizing start with
  | nil => exact List.nodup_nil
  | cons item items ih =>
      obtain ⟨-, hrest⟩ := hlinked
      have hlater := fun other hother => hrank other (List.mem_cons_of_mem item hother)
      rw [List.map_cons, List.nodup_cons]
      refine ⟨?_, ih hrest hlater⟩
      intro hmem
      obtain ⟨other, hother, hsame⟩ := List.mem_map.mp hmem
      have hlt := hrest.rank_lt hlater hother
      rw [hsame] at hlt
      exact Nat.lt_irrefl _ hlt

end Rank

end

end Doli.Lib
