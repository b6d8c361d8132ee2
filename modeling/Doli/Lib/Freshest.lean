import Doli.Lib.Column

/-!
# The freshest item of each key

Registers keep one item a key together with its version.  An item is absorbed when its
version is newer than the one kept, and a reader of a batch gives up after too many refused
items in a row.  Where offers come one after the other and a key keeps the best of its own,
the order in which they come is of no account as long as no two different offers for one key
are equally good.
-/

namespace Doli.Lib

structure Registers (κ α : Type) where
  versions : Column κ Nat
  items : Column κ α

section

variable {κ α : Type} [DecidableEq κ] (key : α → κ) (rank : α → Nat)

/-- The item has a newer version than the one kept, if any is. -/
def Newer (registers : Registers κ α) (item : α) : Prop :=
  ∀ version ∈ registers.versions.lookup (key item), version < rank item

instance (registers : Registers κ α) (item : α) : Decidable (Newer key rank registers item) :=
  inferInstanceAs (Decidable (∀ version ∈ registers.versions.lookup (key item), version < rank item))

def absorb (registers : Registers κ α) (item : α) : Registers κ α :=
  if Newer key rank registers item then
    { versions := registers.versions.insert (key item) (rank item)
      items := registers.items.insert (key item) item }
  else registers

def absorbAll (registers : Registers κ α) (items : List α) : Registers κ α :=
  items.foldl (absorb key rank) registers

/-- The freshest of the items with the key, and newer than what is kept. -/
structure Freshest (registers : Registers κ α) (items : List α) (place : κ) (item : α) :
    Prop where
  mem : item ∈ items
  key_eq : key item = place
  newer : Newer key rank registers item
  newest : ∀ other ∈ items, key other = place → rank other ≤ rank item

/-- No two different items are the freshest of one key. -/
def Untied (registers : Registers κ α) (items : List α) : Prop :=
  ∀ place first second, Freshest key rank registers items place first →
    Freshest key rank registers items place second → first = second

structure KeepsAt (registers : Registers κ α) (place : κ) (item : α) : Prop where
  version : registers.versions.lookup place = some (rank item)
  item : registers.items.lookup place = some item

structure SameAt (first second : Registers κ α) (place : κ) : Prop where
  version : first.versions.lookup place = second.versions.lookup place
  item : first.items.lookup place = second.items.lookup place

end

section

variable {κ α : Type} [DecidableEq κ] {key : α → κ} {rank : α → Nat}
  {registers : Registers κ α} {item : α} {items others : List α} {place : κ}

theorem Registers.ext_sameAt {first second : Registers κ α}
    (hsame : ∀ place, SameAt first second place) : first = second := by
  cases first
  cases second
  congr
  · exact Finmap.ext_lookup fun place => (hsame place).version
  · exact Finmap.ext_lookup fun place => (hsame place).item

theorem absorb_keeps (hnewer : Newer key rank registers item) :
    KeepsAt rank (absorb key rank registers item) (key item) item := by
  unfold absorb
  rw [if_pos hnewer]
  exact ⟨Finmap.lookup_insert _, Finmap.lookup_insert _⟩

theorem absorb_sameAt (hold : key item = place → ¬ Newer key rank registers item) :
    SameAt (absorb key rank registers item) registers place := by
  unfold absorb
  split
  case isTrue hnewer =>
    have hne : place ≠ key item := fun heq => hold heq.symm hnewer
    exact ⟨Finmap.lookup_insert_of_ne _ hne, Finmap.lookup_insert_of_ne _ hne⟩
  case isFalse => exact ⟨rfl, rfl⟩

theorem absorbAll_concat :
    absorbAll key rank registers (items ++ [item]) =
      absorb key rank (absorbAll key rank registers items) item := by
  simp [absorbAll]

theorem Newer.congr {other : Registers κ α} (hsame : SameAt other registers (key item)) :
    Newer key rank other item ↔ Newer key rank registers item := by
  unfold Newer
  rw [hsame.version]

theorem rank_le_of_newer {other : α} (hkey : key other = key item)
    (hnewer : Newer key rank registers item) (hold : ¬ Newer key rank registers other) :
    rank other ≤ rank item := by
  unfold Newer at hnewer hold
  rw [hkey] at hold
  push Not at hold
  obtain ⟨version, hversion, hle⟩ := hold
  exact hle.trans (hnewer version hversion).le

theorem Freshest.concat_other (hfresh : Freshest key rank registers items place item) {last : α}
    (hlast : key last = place → rank last ≤ rank item) :
    Freshest key rank registers (items ++ [last]) place item where
  mem := List.mem_append_left _ hfresh.mem
  key_eq := hfresh.key_eq
  newer := hfresh.newer
  newest other hother hkey := by
    rcases List.mem_append.mp hother with hother | hother
    · exact hfresh.newest other hother hkey
    · rw [List.mem_singleton.mp hother] at hkey ⊢
      exact hlast hkey

variable (key rank) in
theorem absorbAll_spec (registers : Registers κ α) (items : List α) (place : κ) :
    (∃ item, Freshest key rank registers items place item ∧
        KeepsAt rank (absorbAll key rank registers items) place item) ∨
      ((∀ item ∈ items, key item = place → ¬ Newer key rank registers item) ∧
        SameAt (absorbAll key rank registers items) registers place) := by
  induction items using List.reverseRecOn with
  | nil => exact .inr ⟨by simp, ⟨rfl, rfl⟩⟩
  | append_singleton items last ih =>
      rw [absorbAll_concat]
      rcases ih with ⟨item, hfresh, hkeeps⟩ | ⟨hnone, hsame⟩
      · by_cases hlast : key last = place ∧ rank item < rank last
        · obtain ⟨rfl, hlt⟩ := hlast
          have hnewer : Newer key rank (absorbAll key rank registers items) last := by
            intro version hversion
            rw [hkeeps.version, Option.mem_some_iff] at hversion
            omega
          refine .inl ⟨last, ⟨by simp, rfl, ?_, ?_⟩, absorb_keeps hnewer⟩
          · intro version hversion
            have hbelow := hfresh.newer version (hfresh.key_eq ▸ hversion)
            omega
          · intro other hother hkey
            rcases List.mem_append.mp hother with hother | hother
            · exact (hfresh.newest other hother hkey).trans hlt.le
            · rw [List.mem_singleton.mp hother]
        · have hold : key last = place →
              ¬ Newer key rank (absorbAll key rank registers items) last := by
            rintro rfl hnewer
            exact hlast ⟨rfl, hnewer _ (by rw [hkeeps.version]; rfl)⟩
          have hkept := absorb_sameAt hold
          refine .inl ⟨item, hfresh.concat_other fun hkey => ?_, ?_, ?_⟩
          · exact Nat.le_of_not_lt fun hlt => hlast ⟨hkey, hlt⟩
          · rw [hkept.version, hkeeps.version]
          · rw [hkept.item, hkeeps.item]
      · by_cases hlast : key last = place ∧ Newer key rank registers last
        · obtain ⟨rfl, hnewer⟩ := hlast
          refine .inl ⟨last, ⟨by simp, rfl, hnewer, ?_⟩,
            absorb_keeps ((Newer.congr hsame).mpr hnewer)⟩
          intro other hother hkey
          rcases List.mem_append.mp hother with hother | hother
          · exact rank_le_of_newer hkey hnewer (hnone other hother hkey)
          · rw [List.mem_singleton.mp hother]
        · have hold : key last = place →
              ¬ Newer key rank (absorbAll key rank registers items) last := by
            rintro rfl hnewer
            exact hlast ⟨rfl, (Newer.congr hsame).mp hnewer⟩
          have hkept := absorb_sameAt hold
          refine .inr ⟨?_, hkept.version.trans hsame.version, hkept.item.trans hsame.item⟩
          intro other hother hkey
          rcases List.mem_append.mp hother with hother | hother
          · exact hnone other hother hkey
          · rw [List.mem_singleton.mp hother] at hkey ⊢
            exact fun hnewer => hlast ⟨hkey, hnewer⟩

theorem Freshest.of_same (hfresh : Freshest key rank registers items place item)
    (hsame : ∀ other, other ∈ items ↔ other ∈ others) :
    Freshest key rank registers others place item where
  mem := (hsame item).mp hfresh.mem
  key_eq := hfresh.key_eq
  newer := hfresh.newer
  newest other hother := hfresh.newest other ((hsame other).mpr hother)

theorem absorbAll_eq (huntied : Untied key rank registers items)
    (hsame : ∀ other, other ∈ items ↔ other ∈ others) :
    absorbAll key rank registers items = absorbAll key rank registers others := by
  apply Registers.ext_sameAt
  intro place
  rcases absorbAll_spec key rank registers items place with ⟨item, hfresh, hkeeps⟩ | ⟨hnone, hkept⟩
  · rcases absorbAll_spec key rank registers others place with ⟨other, hother, hothers⟩ | ⟨hnone, -⟩
    · have hone : item = other :=
        huntied place item other hfresh (hother.of_same fun each => (hsame each).symm)
      subst hone
      exact ⟨hkeeps.version.trans hothers.version.symm, hkeeps.item.trans hothers.item.symm⟩
    · exact absurd hfresh.newer (hnone item ((hsame item).mp hfresh.mem) hfresh.key_eq)
  · rcases absorbAll_spec key rank registers others place with ⟨other, hother, -⟩ | ⟨-, hothers⟩
    · exact absurd hother.newer (hnone other ((hsame other).mpr hother.mem) hother.key_eq)
    · exact ⟨hkept.version.trans hothers.version.symm, hkept.item.trans hothers.item.symm⟩

theorem Freshest.kept_first (hfresh : Freshest key rank registers items place item)
    {rest : List α} (hrest : ∀ other ∈ rest, other ∈ items) :
    (absorbAll key rank registers (item :: rest)).items.lookup place = some item := by
  have hkeeps := absorb_keeps hfresh.newer
  rw [hfresh.key_eq] at hkeeps
  change (absorbAll key rank (absorb key rank registers item) rest).items.lookup place = _
  rcases absorbAll_spec key rank (absorb key rank registers item) rest place with
    ⟨other, hother, -⟩ | ⟨-, hkept⟩
  · have hlt := hother.newer (rank item) (by rw [hother.key_eq, hkeeps.version]; rfl)
    have hle := hfresh.newest other (hrest other hother.mem) hother.key_eq
    omega
  · rw [hkept.item, hkeeps.item]

theorem absorbAll_eq_self (hnone : ∀ item ∈ items, ¬ Newer key rank registers item) :
    absorbAll key rank registers items = registers := by
  apply Registers.ext_sameAt
  intro place
  rcases absorbAll_spec key rank registers items place with ⟨item, hfresh, -⟩ | ⟨-, hkept⟩
  · exact absurd hfresh.newer (hnone item hfresh.mem)
  · exact hkept

theorem absorbAll_ne_self (hitem : item ∈ items) (hnewer : Newer key rank registers item) :
    absorbAll key rank registers items ≠ registers := by
  intro hsame
  rcases absorbAll_spec key rank registers items (key item) with ⟨other, hfresh, hkeeps⟩ | ⟨hnone, -⟩
  · rw [hsame] at hkeeps
    have hlt := hfresh.newer (rank other) (by rw [hfresh.key_eq, hkeeps.version]; rfl)
    omega
  · exact hnone item hitem rfl hnewer

end

/-! ## A reader that gives up -/

section

variable {α : Type} (accepts : α → Bool) (limit : Nat)

/-- The accepted items of a batch up to `limit` refusals in a row, `refused` of which have
been met. -/
def heard (refused : Nat) : List α → List α
  | [] => []
  | item :: items =>
      if accepts item then item :: heard 0 items
      else if limit ≤ refused + 1 then []
      else heard (refused + 1) items

variable {accepts limit} {items : List α} {refused : Nat}

theorem heard_subset : heard accepts limit refused items ⊆ items.filter accepts := by
  induction items generalizing refused with
  | nil => exact List.Subset.refl _
  | cons item items ih =>
      unfold heard
      by_cases haccepted : accepts item = true
      · rw [if_pos haccepted, List.filter_cons_of_pos haccepted]
        exact List.cons_subset_cons item ih
      · rw [if_neg haccepted, List.filter_cons_of_neg haccepted]
        split
        · exact List.nil_subset _
        · exact ih

theorem heard_eq_filter
    (hfew : refused + items.countP (fun item => !accepts item) < limit) :
    heard accepts limit refused items = items.filter accepts := by
  induction items generalizing refused with
  | nil => rfl
  | cons item items ih =>
      unfold heard
      rw [List.countP_cons] at hfew
      by_cases haccepted : accepts item = true
      · rw [if_pos haccepted, List.filter_cons_of_pos haccepted, ih (by omega)]
      · simp only [haccepted, Bool.not_false, if_true] at hfew
        rw [if_neg haccepted, List.filter_cons_of_neg haccepted, if_neg (by omega),
          ih (by omega)]

theorem heard_eq_nil {front : List α} (hrefused : ∀ item ∈ front, accepts item = false)
    (hmany : limit ≤ refused + front.length) (hpositive : front ≠ []) :
    heard accepts limit refused (front ++ items) = [] := by
  induction front generalizing refused with
  | nil => contradiction
  | cons item front ih =>
      obtain ⟨hfirst, hothers⟩ := List.forall_mem_cons.mp hrefused
      rw [List.length_cons] at hmany
      rw [List.cons_append, heard, hfirst, if_neg Bool.false_ne_true]
      split
      case isTrue => rfl
      case isFalse hroom =>
        refine ih hothers (by omega) ?_
        rintro rfl
        simp only [List.length_nil] at hmany
        omega

end

/-! ## The best offer for each key -/

section

variable {κ ε : Type} [DecidableEq κ] (beats : ε → ε → Bool)

def putOffer (best : Column κ ε) (row : κ × ε) : Column κ ε :=
  match best.lookup row.1 with
  | none => best.insert row.1 row.2
  | some kept => if beats row.2 kept then best.insert row.1 row.2 else best

def putOffers (rows : List (κ × ε)) : Column κ ε := rows.foldl (putOffer beats) ∅

variable {beats} in
theorem lookup_putOffer_of_ne {best : Column κ ε} {row : κ × ε} {key : κ} (hkey : key ≠ row.1) :
    (putOffer beats best row).lookup key = best.lookup key := by
  unfold putOffer
  split
  · exact Finmap.lookup_insert_of_ne _ hkey
  · split
    · exact Finmap.lookup_insert_of_ne _ hkey
    · rfl

end

section

variable {κ ε β : Type} [LinearOrder β]

/-- An offer for the key that no other one is better than. -/
def BestOf (rank : ε → β) (rows : List (κ × ε)) (key : κ) (value : ε) : Prop :=
  (key, value) ∈ rows ∧ ∀ other, (key, other) ∈ rows → rank other ≤ rank value

/-- Different offers for a key are not equally good. -/
def Untying (rank : ε → β) (rows : List (κ × ε)) : Prop :=
  ∀ key first second, (key, first) ∈ rows → (key, second) ∈ rows →
    rank first = rank second → first = second

variable {rank : ε → β} {rows : List (κ × ε)} {key : κ} {value : ε}

theorem BestOf.snoc_ne (hbest : BestOf rank rows key value) {row : κ × ε}
    (hkey : key ≠ row.1) : BestOf rank (rows ++ [row]) key value := by
  refine ⟨List.mem_append_left _ hbest.1, ?_⟩
  intro other hother
  rcases List.mem_append.mp hother with hother | hother
  · exact hbest.2 other hother
  · rw [← List.mem_singleton.mp hother] at hkey
    exact absurd rfl hkey

theorem BestOf.snoc_le (hbest : BestOf rank rows key value) {last : ε}
    (hle : rank last ≤ rank value) : BestOf rank (rows ++ [(key, last)]) key value := by
  refine ⟨List.mem_append_left _ hbest.1, ?_⟩
  intro other hother
  rcases List.mem_append.mp hother with hother | hother
  · exact hbest.2 other hother
  · obtain ⟨-, rfl⟩ := Prod.mk.inj (List.mem_singleton.mp hother)
    exact hle

theorem bestOf_last {last : ε} (hle : ∀ other, (key, other) ∈ rows → rank other ≤ rank last) :
    BestOf rank (rows ++ [(key, last)]) key last := by
  refine ⟨by simp, ?_⟩
  intro other hother
  rcases List.mem_append.mp hother with hother | hother
  · exact hle other hother
  · obtain ⟨-, rfl⟩ := Prod.mk.inj (List.mem_singleton.mp hother)
    exact le_refl _

end

section

variable {κ ε β : Type} [DecidableEq κ] [LinearOrder β] {beats : ε → ε → Bool} {rank : ε → β}
  {rows others : List (κ × ε)} {key : κ} {value : ε}

theorem putOffers_spec (hbeats : ∀ first second, beats first second = true ↔
    rank second < rank first) (rows : List (κ × ε)) (key : κ) :
    match (putOffers beats rows).lookup key with
    | none => ∀ value, (key, value) ∉ rows
    | some value => BestOf rank rows key value := by
  induction rows using List.reverseRecOn with
  | nil => simp [putOffers]
  | append_singleton rows row ih =>
      have hlast : putOffers beats (rows ++ [row]) = putOffer beats (putOffers beats rows) row := by
        simp [putOffers]
      rw [hlast]
      by_cases hkey : key = row.1
      · subst hkey
        unfold putOffer
        cases hkept : (putOffers beats rows).lookup row.1 with
        | none =>
            rw [hkept] at ih
            simp only [Finmap.lookup_insert]
            exact bestOf_last fun other hother => absurd hother (ih other)
        | some kept =>
            rw [hkept] at ih
            by_cases hwins : beats row.2 kept = true
            · simp only [hwins, if_true, Finmap.lookup_insert]
              apply bestOf_last
              intro other hother
              exact (ih.2 other hother).trans ((hbeats _ _).mp hwins).le
            · simp only [hwins, Bool.false_eq_true, if_false, hkept]
              apply ih.snoc_le
              rw [hbeats, not_lt] at hwins
              exact hwins
      · rw [lookup_putOffer_of_ne hkey]
        cases hkept : (putOffers beats rows).lookup key with
        | none =>
            rw [hkept] at ih
            intro value hvalue
            rcases List.mem_append.mp hvalue with hvalue | hvalue
            · exact ih value hvalue
            · rw [← List.mem_singleton.mp hvalue] at hkey
              exact hkey rfl
        | some kept =>
            rw [hkept] at ih
            exact ih.snoc_ne hkey

theorem lookup_putOffers_iff (hbeats : ∀ first second, beats first second = true ↔
    rank second < rank first) (huntying : Untying rank rows) :
    (putOffers beats rows).lookup key = some value ↔ BestOf rank rows key value := by
  have hspec := putOffers_spec hbeats rows key
  constructor
  · intro hlookup
    rwa [hlookup] at hspec
  · intro hbest
    cases hlookup : (putOffers beats rows).lookup key with
    | none =>
        rw [hlookup] at hspec
        exact absurd hbest.1 (hspec value)
    | some kept =>
        rw [hlookup] at hspec
        have hrank := le_antisymm (hbest.2 kept hspec.1) (hspec.2 value hbest.1)
        rw [huntying key kept value hspec.1 hbest.1 hrank]

theorem putOffers_congr (hbeats : ∀ first second, beats first second = true ↔
    rank second < rank first) (huntying : Untying rank rows)
    (hsame : ∀ row, row ∈ others ↔ row ∈ rows) :
    putOffers beats others = putOffers beats rows := by
  have huntying' : Untying rank others := fun key first second hfirst hsecond =>
    huntying key first second ((hsame _).mp hfirst) ((hsame _).mp hsecond)
  refine Finmap.ext_lookup fun key => Option.ext fun value => ?_
  rw [lookup_putOffers_iff hbeats huntying, lookup_putOffers_iff hbeats huntying']
  simp only [BestOf, hsame]

end

end Doli.Lib
