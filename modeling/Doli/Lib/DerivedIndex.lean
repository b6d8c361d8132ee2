import Doli.Lib.Column

/-!
# Indexes derived from a column

Some values of a column carry a mark, and an index lists the marks that are carried.  Rows
may share a mark, so whether an index is still exact after a write depends on what the rows
beside the written ones carry.  An index that lists the keys under their marks may hold rows
that are out of date, and an answer may be remembered until a write drops it.
-/

namespace Doli.Lib

section

variable {κ ν ι : Type} [DecidableEq κ] (mark : ν → Option ι)

def Carries (column : Column κ ν) (id : ι) : Prop :=
  ∃ key value, column.lookup key = some value ∧ mark value = some id

def CarriedAmong (keys : List κ) (column : Column κ ν) (id : ι) : Prop :=
  ∃ key ∈ keys, ∃ value, column.lookup key = some value ∧ mark value = some id

def CarriedBeside (keys : List κ) (column : Column κ ν) (id : ι) : Prop :=
  ∃ key, key ∉ keys ∧ ∃ value, column.lookup key = some value ∧ mark value = some id

/-- The rows carry the mark once they are written, the last one of each key. -/
def CarriedByRows (rows : List (κ × ν)) (id : ι) : Prop :=
  Carries mark (Journal.insertAll rows ∅) id

def ExactIndex (column : Column κ ν) (ids : Finset ι) : Prop :=
  ∀ id, id ∈ ids ↔ Carries mark column id

end

section

variable {κ ν ι : Type} [DecidableEq κ] {mark : ν → Option ι} {column : Column κ ν}
  {ids listed : Finset ι} {keys : List κ} {rows : List (κ × ν)} {id : ι}

theorem carries_iff_split (keys : List κ) :
    Carries mark column id ↔
      CarriedAmong mark keys column id ∨ CarriedBeside mark keys column id := by
  constructor
  · rintro ⟨key, value, hlookup, hmark⟩
    by_cases hkey : key ∈ keys
    · exact .inl ⟨key, hkey, value, hlookup, hmark⟩
    · exact .inr ⟨key, hkey, value, hlookup, hmark⟩
  · rintro (⟨key, -, value, hlookup, hmark⟩ | ⟨key, -, value, hlookup, hmark⟩)
    · exact ⟨key, value, hlookup, hmark⟩
    · exact ⟨key, value, hlookup, hmark⟩

theorem not_carries_empty : ¬Carries mark (∅ : Column κ ν) id := by
  rintro ⟨key, value, hlookup, -⟩
  rw [Finmap.lookup_empty] at hlookup
  cases hlookup

theorem carries_eraseAll :
    Carries mark (Journal.eraseAll keys column) id ↔ CarriedBeside mark keys column id := by
  simp only [Carries, CarriedBeside, Journal.lookup_eraseAll]
  constructor
  · rintro ⟨key, value, hlookup, hmark⟩
    split at hlookup
    · cases hlookup
    case isFalse hkey => exact ⟨key, hkey, value, hlookup, hmark⟩
  · rintro ⟨key, hkey, value, hlookup, hmark⟩
    exact ⟨key, value, by rw [if_neg hkey, hlookup], hmark⟩

theorem carriedAmong_cons {key : κ} {value : ν} (hlookup : column.lookup key = some value) :
    CarriedAmong mark (key :: keys) column id ↔
      mark value = some id ∨ CarriedAmong mark keys (column.erase key) id := by
  constructor
  · rintro ⟨other, hother, found, hfound, hmark⟩
    by_cases hsame : other = key
    · subst hsame
      rw [hlookup] at hfound
      cases hfound
      exact .inl hmark
    · have hmem : other ∈ keys := (List.mem_cons.mp hother).resolve_left hsame
      exact .inr ⟨other, hmem, found, by rw [Finmap.lookup_erase_ne hsame, hfound], hmark⟩
  · rintro (hmark | ⟨other, hother, found, hfound, hmark⟩)
    · exact ⟨key, List.mem_cons_self, value, hlookup, hmark⟩
    · by_cases hsame : other = key
      · subst hsame
        rw [Finmap.lookup_erase] at hfound
        cases hfound
      · rw [Finmap.lookup_erase_ne hsame] at hfound
        exact ⟨other, List.mem_cons_of_mem _ hother, found, hfound, hmark⟩

theorem lookup_insertAll_congr {key : κ} (hkey : key ∈ rows.map Prod.fst)
    (other : Column κ ν) :
    (Journal.insertAll rows column).lookup key = (Journal.insertAll rows other).lookup key := by
  induction rows generalizing column other with
  | nil => cases hkey
  | cons row rows ih =>
      change (Journal.insertAll rows (column.insert row.1 row.2)).lookup key =
        (Journal.insertAll rows (other.insert row.1 row.2)).lookup key
      by_cases hlater : key ∈ rows.map Prod.fst
      · exact ih hlater _
      · have hhead : key = row.1 := by simpa [hlater] using hkey
        rw [Journal.lookup_insertAll_of_notMem hlater, Journal.lookup_insertAll_of_notMem hlater,
          hhead, Finmap.lookup_insert, Finmap.lookup_insert]

theorem carries_insertAll :
    Carries mark (Journal.insertAll rows column) id ↔
      CarriedBeside mark (rows.map Prod.fst) column id ∨ CarriedByRows mark rows id := by
  constructor
  · rintro ⟨key, value, hlookup, hmark⟩
    by_cases hkey : key ∈ rows.map Prod.fst
    · rw [lookup_insertAll_congr hkey ∅] at hlookup
      exact .inr ⟨key, value, hlookup, hmark⟩
    · rw [Journal.lookup_insertAll_of_notMem hkey] at hlookup
      exact .inl ⟨key, hkey, value, hlookup, hmark⟩
  · rintro (⟨key, hkey, value, hlookup, hmark⟩ | ⟨key, value, hlookup, hmark⟩)
    · rw [← Journal.lookup_insertAll_of_notMem hkey column] at hlookup
      exact ⟨key, value, hlookup, hmark⟩
    · have hkey : key ∈ rows.map Prod.fst := by
        by_contra hnone
        rw [Journal.lookup_insertAll_of_notMem hnone, Finmap.lookup_empty] at hlookup
        cases hlookup
      rw [lookup_insertAll_congr hkey column] at hlookup
      exact ⟨key, value, hlookup, hmark⟩

theorem carriedByRows_singleton {key : κ} {value : ν} :
    CarriedByRows mark [(key, value)] id ↔ mark value = some id := by
  constructor
  · rintro ⟨other, found, hlookup, hmark⟩
    obtain ⟨-, rfl⟩ := lookup_singleton_eq_some.mp hlookup
    exact hmark
  · exact fun hmark => ⟨key, value, Finmap.lookup_insert _, hmark⟩

theorem exists_row_of_carriedByRows (hcarried : CarriedByRows mark rows id) :
    ∃ row ∈ rows, mark row.2 = some id := by
  obtain ⟨key, value, hlookup, hmark⟩ := hcarried
  by_cases hkey : key ∈ rows.map Prod.fst
  · obtain ⟨last, hlast, hvalue⟩ := Journal.lookup_insertAll_of_mem hkey ∅
    rw [hvalue] at hlookup
    cases hlookup
    exact ⟨(key, value), hlast, hmark⟩
  · rw [Journal.lookup_insertAll_of_notMem hkey, Finmap.lookup_empty] at hlookup
    cases hlookup

/-! ## Writes -/

theorem ExactIndex.empty_iff (hexact : ExactIndex mark column ids) :
    ExactIndex mark (∅ : Column κ ν) ids ↔ ∀ id, ¬Carries mark column id := by
  simp only [ExactIndex, not_carries_empty, iff_false]
  exact forall_congr' fun id => not_congr (hexact id)

theorem ExactIndex.insertAll_iff (hexact : ExactIndex mark column ids) :
    ExactIndex mark (Journal.insertAll rows column) ids ↔
      (∀ id, CarriedByRows mark rows id → Carries mark column id) ∧
        ∀ id, CarriedAmong mark (rows.map Prod.fst) column id →
          CarriedBeside mark (rows.map Prod.fst) column id ∨ CarriedByRows mark rows id := by
  unfold ExactIndex at hexact ⊢
  simp only [hexact, carries_insertAll]
  constructor
  · intro hsame
    constructor
    · exact fun id hrows => (hsame id).mpr (.inr hrows)
    · exact fun id hamong => (hsame id).mp ((carries_iff_split _).mpr (.inl hamong))
  · rintro ⟨hknown, hkept⟩ id
    constructor
    · intro hcarried
      rcases (carries_iff_split (rows.map Prod.fst)).mp hcarried with hamong | hbeside
      · exact hkept id hamong
      · exact .inl hbeside
    · rintro (hbeside | hrows)
      · exact (carries_iff_split _).mpr (.inr hbeside)
      · exact hknown id hrows

theorem ExactIndex.insertAll_listed_iff (hexact : ExactIndex mark column ids)
    (hlisted : ∀ id, id ∈ listed ↔ id ∈ ids ∨ ∃ row ∈ rows, mark row.2 = some id) :
    ExactIndex mark (Journal.insertAll rows column) listed ↔
      ∀ id, CarriedAmong mark (rows.map Prod.fst) column id ∨
          (∃ row ∈ rows, mark row.2 = some id) →
        CarriedBeside mark (rows.map Prod.fst) column id ∨ CarriedByRows mark rows id := by
  unfold ExactIndex at hexact ⊢
  simp only [hlisted, hexact, carries_insertAll]
  constructor
  · rintro hsame id (hamong | hrow)
    · exact (hsame id).mp (.inl ((carries_iff_split _).mpr (.inl hamong)))
    · exact (hsame id).mp (.inr hrow)
  · intro hkept id
    constructor
    · rintro (hcarried | hrow)
      · rcases (carries_iff_split (rows.map Prod.fst)).mp hcarried with hamong | hbeside
        · exact hkept id (.inl hamong)
        · exact .inl hbeside
      · exact hkept id (.inr hrow)
    · rintro (hbeside | hrows)
      · exact .inl ((carries_iff_split _).mpr (.inr hbeside))
      · exact .inr (exists_row_of_carriedByRows hrows)

theorem ExactIndex.eraseAll_iff (hexact : ExactIndex mark column ids) :
    ExactIndex mark (Journal.eraseAll keys column) ids ↔
      ∀ id, CarriedAmong mark keys column id → CarriedBeside mark keys column id := by
  unfold ExactIndex at hexact ⊢
  simp only [hexact, carries_eraseAll]
  refine forall_congr' fun id => ?_
  rw [carries_iff_split keys]
  exact or_iff_right_iff_imp

theorem ExactIndex.eraseAll_unlisted_iff (hexact : ExactIndex mark column ids)
    (hlisted : ∀ id, id ∈ listed ↔ id ∈ ids ∧ ¬CarriedAmong mark keys column id) :
    ExactIndex mark (Journal.eraseAll keys column) listed ↔
      ∀ id, CarriedAmong mark keys column id → ¬CarriedBeside mark keys column id := by
  unfold ExactIndex at hexact ⊢
  simp only [hlisted, hexact, carries_eraseAll]
  refine forall_congr' fun id => ?_
  rw [carries_iff_split keys]
  constructor
  · exact fun hsame hamong hbeside => (hsame.mpr hbeside).2 hamong
  · intro hapart
    constructor
    · rintro ⟨hamong | hbeside, hnot⟩
      · exact absurd hamong hnot
      · exact hbeside
    · exact fun hbeside => ⟨.inr hbeside, fun hamong => hapart hamong hbeside⟩

end

/-! ## Rows by mark -/

section

variable {κ ι : Type}

/-- Every key that carries a mark has its row, among rows that may be out of date. -/
def Indexed (marked : κ → Option ι) (rows : List (ι × κ)) : Prop :=
  ∀ key id, marked key = some id → (id, key) ∈ rows

variable {marked next : κ → Option ι} {rows rest : List (ι × κ)}

theorem Indexed.step (hindexed : Indexed marked rows) (hkept : ∀ row ∈ rows, row ∈ rest)
    (hmarked : ∀ key id, next key = some id → marked key = some id ∨ (id, key) ∈ rest) :
    Indexed next rest := by
  intro key id hnext
  rcases hmarked key id hnext with hbefore | hrow
  · exact hkept _ (hindexed key id hbefore)
  · exact hrow

theorem Indexed.prune (hindexed : Indexed marked rows)
    (hmarked : ∀ key id, next key = some id → marked key = some id)
    (hkept : ∀ row ∈ rows, next row.2 = some row.1 → row ∈ rest) : Indexed next rest :=
  fun key id hnext => hkept (id, key) (hindexed key id (hmarked key id hnext)) hnext

theorem Indexed.exists_row (hindexed : Indexed marked rows) (due : ι → Bool) {key : κ} {id : ι}
    (hmark : marked key = some id) (hdue : due id = true) :
    key ∈ (rows.filter fun row => due row.1).map Prod.snd :=
  List.mem_map.mpr ⟨(id, key), List.mem_filter.mpr ⟨hindexed key id hmark, hdue⟩, rfl⟩

end

/-! ## Remembered answers -/

/-- The last question with its answer, unless it was dropped. -/
abbrev Memo (κ β : Type) : Type :=
  Option (κ × β)

namespace Memo

section

variable {κ β : Type}

def read [DecidableEq κ] (memo : Memo κ β) (compute : κ → β) (question : κ) : β :=
  match memo with
  | some (asked, answer) => if asked = question then answer else compute question
  | none => compute question

/-- The remembered answer is the one that would be computed now. -/
def Faithful (memo : Memo κ β) (compute : κ → β) : Prop :=
  ∀ asked answer, memo = some (asked, answer) → answer = compute asked

theorem faithful_none (compute : κ → β) : Faithful (none : Memo κ β) compute := by
  intro asked answer hnone
  cases hnone

theorem faithful_some (compute : κ → β) (question : κ) :
    Faithful (some (question, compute question) : Memo κ β) compute := by
  intro asked answer hsome
  cases hsome
  rfl

theorem Faithful.read_eq [DecidableEq κ] {memo : Memo κ β} {compute : κ → β}
    (hfaithful : memo.Faithful compute) (question : κ) :
    memo.read compute question = compute question := by
  unfold read
  split
  case h_1 asked answer =>
    split
    case isTrue hasked => rw [hfaithful asked answer rfl, hasked]
    case isFalse => rfl
  case h_2 => rfl

end

end Memo

end Doli.Lib
