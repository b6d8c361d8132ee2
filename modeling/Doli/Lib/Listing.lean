import Doli.Lib.Column
import Mathlib.Data.Finset.Insert
import Mathlib.Data.List.Sort

/-!
# Ordered lists of distinct members

The members of a finite set in a given order, the new members of a list, and
which members a list of positions picks out of an ordered list.  A search over a
range of numbers answers at the lowest of them that has an answer.  The rows of a
column stand in the order of its keys.
-/

namespace Doli.Lib

section

variable {κ : Type} (le : κ → κ → Prop) [DecidableRel le] [IsTrans κ le]
  [Std.Antisymm le] [Std.Total le]

def listing (keys : Finset κ) : List κ :=
  Quotient.liftOn keys.val (fun keys => keys.insertionSort le)
    fun first second hperm =>
      List.Perm.eq_of_pairwise (fun _ _ _ _ => antisymm)
        (List.pairwise_insertionSort le first) (List.pairwise_insertionSort le second)
        (((List.perm_insertionSort le first).trans hperm).trans
          (List.perm_insertionSort le second).symm)

theorem coe_listing (keys : Finset κ) :
    (listing le keys : Multiset κ) = keys.val := by
  obtain ⟨rows, hnodup⟩ := keys
  induction rows using Quotient.inductionOn with
  | h rows => exact Multiset.coe_eq_coe.mpr (List.perm_insertionSort le rows)

@[simp] theorem mem_listing {keys : Finset κ} {key : κ} :
    key ∈ listing le keys ↔ key ∈ keys := by
  rw [← Multiset.mem_coe, coe_listing, Finset.mem_val]

theorem pairwise_listing (keys : Finset κ) : (listing le keys).Pairwise le := by
  obtain ⟨rows, hnodup⟩ := keys
  induction rows using Quotient.inductionOn with
  | h rows => exact List.pairwise_insertionSort le rows

theorem nodup_listing (keys : Finset κ) : (listing le keys).Nodup := by
  rw [← Multiset.coe_nodup, coe_listing]
  exact keys.nodup

end

/-! ## New members -/

section

variable {κ : Type} [DecidableEq κ]

/-- The first occurrences of what is not in `seen`. -/
def newKeys : Finset κ → List κ → List κ
  | _, [] => []
  | seen, key :: keys =>
      if key ∈ seen then newKeys seen keys else key :: newKeys (insert key seen) keys

@[simp] theorem mem_newKeys {seen : Finset κ} {keys : List κ} {key : κ} :
    key ∈ newKeys seen keys ↔ key ∈ keys ∧ key ∉ seen := by
  induction keys generalizing seen with
  | nil => simp [newKeys]
  | cons first keys ih =>
      unfold newKeys
      split
      case isTrue hfirst =>
        rw [ih, List.mem_cons]
        constructor
        · exact fun hkey => ⟨.inr hkey.1, hkey.2⟩
        · rintro ⟨rfl | hkey, hseen⟩
          · contradiction
          · exact ⟨hkey, hseen⟩
      case isFalse hfirst =>
        rw [List.mem_cons, ih, List.mem_cons, Finset.mem_insert]
        constructor
        · rintro (rfl | ⟨hkey, hseen⟩)
          · exact ⟨.inl rfl, hfirst⟩
          · exact ⟨.inr hkey, fun hmem => hseen (.inr hmem)⟩
        · rintro ⟨heq | hkey, hseen⟩
          · exact .inl heq
          · by_cases heq : key = first
            · exact .inl heq
            · exact .inr ⟨hkey, fun hmem => hmem.elim heq hseen⟩

theorem nodup_newKeys (seen : Finset κ) (keys : List κ) :
    (newKeys seen keys).Nodup := by
  induction keys generalizing seen with
  | nil => simp [newKeys]
  | cons first keys ih =>
      unfold newKeys
      split
      · exact ih seen
      · refine List.nodup_cons.mpr ⟨?_, ih _⟩
        simp

theorem newKeys_of_nodup {seen : Finset κ} {keys : List κ} (hnodup : keys.Nodup)
    (hseen : ∀ key ∈ keys, key ∉ seen) : newKeys seen keys = keys := by
  induction keys generalizing seen with
  | nil => rfl
  | cons first keys ih =>
      obtain ⟨hfirst, hnodup⟩ := List.nodup_cons.mp hnodup
      rw [newKeys, if_neg (hseen first List.mem_cons_self), ih hnodup]
      intro key hkey hmem
      rcases Finset.mem_insert.mp hmem with rfl | hmem
      · exact hfirst hkey
      · exact hseen key (List.mem_cons_of_mem _ hkey) hmem

end

/-! ## Positions in an ordered list -/

section

variable {κ : Type} (below : κ → κ → Bool)

/-- Every member is below the ones that follow it. -/
def Ascending (keys : List κ) : Prop :=
  keys.Pairwise fun first second => below first second = true ∧
    below second first = false

variable {below} {keys others : List κ}

theorem Ascending.getElem?_eq_some (hkeys : Ascending below keys)
    (hirrefl : ∀ key, below key key = false) {position : Nat} {key : κ} :
    keys[position]? = some key ↔
      key ∈ keys ∧ keys.countP (below · key) = position := by
  induction keys generalizing position with
  | nil => simp
  | cons first keys ih =>
      obtain ⟨hfirst, hrest⟩ := List.pairwise_cons.mp hkeys
      have hzero : keys.countP (below · first) = 0 := by
        rw [List.countP_eq_zero]
        intro other hother
        simp [(hfirst other hother).2]
      cases position with
      | zero =>
          rw [List.getElem?_cons_zero, Option.some.injEq, List.mem_cons]
          constructor
          · rintro rfl
            exact ⟨.inl rfl, by simp [hirrefl, hzero]⟩
          · rintro ⟨rfl | hkey, hcount⟩
            · rfl
            · simp [(hfirst key hkey).1] at hcount
      | succ position =>
          rw [List.getElem?_cons_succ, ih hrest, List.mem_cons, List.countP_cons]
          constructor
          · rintro ⟨hkey, rfl⟩
            exact ⟨.inr hkey, by simp [(hfirst key hkey).1]⟩
          · rintro ⟨rfl | hkey, hcount⟩
            · simp [hirrefl, hzero] at hcount
            · simp only [(hfirst key hkey).1, if_true, Nat.add_right_cancel_iff] at hcount
              exact ⟨hkey, hcount⟩

/-- The members at the given positions. -/
def picks (positions : List Nat) (keys : List κ) : List κ :=
  positions.filterMap fun position => keys[position]?

theorem Ascending.picks {positions : List Nat} (hkeys : Ascending below keys)
    (hpositions : positions.Pairwise (· < ·)) :
    Ascending below (picks positions keys) := by
  refine List.pairwise_filterMap.mpr (hpositions.imp ?_)
  intro first second hlt left hleft right hright
  obtain ⟨hfirst, rfl⟩ := List.getElem?_eq_some_iff.mp hleft
  obtain ⟨hsecond, rfl⟩ := List.getElem?_eq_some_iff.mp hright
  exact List.pairwise_iff_getElem.mp hkeys first second hfirst hsecond hlt

theorem Ascending.eq_of_mem_iff (hkeys : Ascending below keys)
    (hothers : Ascending below others) (hmem : ∀ key, key ∈ keys ↔ key ∈ others) :
    keys = others := by
  have hnodup : ∀ {keys : List κ}, Ascending below keys → keys.Nodup := by
    intro keys hkeys
    refine hkeys.imp ?_
    rintro first _ hbelow rfl
    simp [hbelow.1] at hbelow
  have hperm : keys.Perm others :=
    (List.perm_ext_iff_of_nodup (hnodup hkeys) (hnodup hothers)).mpr hmem
  refine hperm.eq_of_pairwise ?_ hkeys hothers
  intro first second _ _ hbelow hafter
  simp [hbelow.1] at hafter

/-- The same positions pick the same members of two ascending lists only if
each position holds the same member in both. -/
theorem picks_same_iff {positions : List Nat} (hkeys : Ascending below keys)
    (hothers : Ascending below others) (hpositions : positions.Pairwise (· < ·))
    (hbound : ∀ position ∈ positions, position < keys.length) :
    (∀ key, key ∈ picks positions others ↔ key ∈ picks positions keys) ↔
      ∀ position ∈ positions, others[position]? = keys[position]? := by
  constructor
  · intro hmem
    have heq : picks positions others = picks positions keys :=
      (hothers.picks hpositions).eq_of_mem_iff (hkeys.picks hpositions) hmem
    clear hmem hpositions
    induction positions with
    | nil => simp
    | cons position positions ih =>
        have hlt := hbound position List.mem_cons_self
        have hrest : ∀ other ∈ positions, other < keys.length := fun other hother =>
          hbound other (List.mem_cons_of_mem _ hother)
        have hlength : (picks positions keys).length = positions.length := by
          have hmap : picks positions keys =
              positions.filterMap fun other => keys[other]? := rfl
          rw [hmap, List.length_filterMap_eq_countP, List.countP_eq_length]
          intro other hother
          simp [hrest other hother]
        cases hget : others[position]? with
        | none =>
            have hshort : (picks positions others).length ≤ positions.length :=
              List.length_filterMap_le _ _
            have hsame := congrArg List.length heq
            simp only [picks, List.filterMap_cons, hget,
              List.getElem?_eq_getElem hlt, List.length_cons] at hsame hshort hlength
            omega
        | some key =>
            simp only [picks, List.filterMap_cons, hget,
              List.getElem?_eq_getElem hlt, List.cons.injEq] at heq
            intro other hother
            rcases List.mem_cons.mp hother with rfl | hother
            · rw [hget, List.getElem?_eq_getElem hlt, heq.1]
            · exact ih hrest heq.2 other hother
  · intro hsame key
    have heq : picks positions others = picks positions keys :=
      List.filterMap_congr hsame
    rw [heq]

end

/-! ## The first answer over a range -/

theorem findSome?_range'_eq_some {β : Type} {judge : Nat → Option β} {lo count : Nat}
    {answer : β} :
    (List.range' lo count).findSome? judge = some answer ↔
      ∃ height, (lo ≤ height ∧ height < lo + count) ∧ judge height = some answer ∧
        ∀ other, lo ≤ other → other < height → judge other = none := by
  induction count generalizing lo with
  | zero =>
      simp only [List.range'_zero, List.findSome?_nil, reduceCtorEq, false_iff]
      rintro ⟨height, hrange, -⟩
      omega
  | succ count ih =>
      rw [List.range'_succ, List.findSome?_cons]
      cases hfirst : judge lo with
      | some first =>
          constructor
          · intro hanswer
            refine ⟨lo, by omega, hfirst.trans hanswer, ?_⟩
            omega
          · rintro ⟨height, hrange, hanswer, hbelow⟩
            by_cases hlo : lo < height
            · rw [hbelow lo le_rfl hlo] at hfirst
              contradiction
            · obtain rfl : lo = height := by omega
              exact hfirst.symm.trans hanswer
      | none =>
          rw [ih]
          constructor
          · rintro ⟨height, hrange, hanswer, hbelow⟩
            refine ⟨height, by omega, hanswer, ?_⟩
            intro other hother hlt
            by_cases hlo : lo = other
            · exact hlo ▸ hfirst
            · exact hbelow other (by omega) hlt
          · rintro ⟨height, hrange, hanswer, hbelow⟩
            have hne : lo ≠ height := by
              rintro rfl
              simp [hfirst] at hanswer
            exact ⟨height, by omega, hanswer, fun other hother =>
              hbelow other (by omega)⟩

/-! ## The rows of a column in the order of its keys -/

section

variable {κ ν : Type} [DecidableEq κ] (le : κ → κ → Prop) [DecidableRel le] [IsTrans κ le]
  [Std.Antisymm le] [Std.Total le]

def sortedRows (column : Column κ ν) : List (κ × ν) :=
  (listing le column.keys).filterMap fun key =>
    (column.lookup key).map fun value => (key, value)

theorem mem_sortedRows {column : Column κ ν} {row : κ × ν} :
    row ∈ sortedRows le column ↔ column.lookup row.1 = some row.2 := by
  obtain ⟨key, value⟩ := row
  unfold sortedRows
  rw [List.mem_filterMap]
  constructor
  · rintro ⟨other, -, hrow⟩
    rw [Option.map_eq_some_iff] at hrow
    obtain ⟨found, hlookup, hpair⟩ := hrow
    cases hpair
    exact hlookup
  · intro hlookup
    refine ⟨key, ?_, by simp [hlookup]⟩
    rw [mem_listing, Finmap.mem_keys]
    exact Finmap.mem_of_lookup_eq_some hlookup

theorem sortedRows_keys (column : Column κ ν) :
    (sortedRows le column).map Prod.fst = listing le column.keys := by
  have hkeys : ∀ keys : List κ, (∀ key ∈ keys, key ∈ column.keys) →
      (keys.filterMap fun key =>
        (column.lookup key).map fun value => (key, value)).map Prod.fst = keys := by
    intro keys hmem
    induction keys with
    | nil => rfl
    | cons key keys ih =>
        have hkey := hmem key List.mem_cons_self
        rw [Finmap.mem_keys, Finmap.mem_iff] at hkey
        obtain ⟨value, hlookup⟩ := hkey
        rw [List.filterMap_cons, hlookup, Option.map_some, List.map_cons,
          ih fun other hother => hmem other (List.mem_cons_of_mem _ hother)]
  exact hkeys _ fun key hkey => (mem_listing le).mp hkey

theorem sortedRows_length (column : Column κ ν) :
    (sortedRows le column).length = column.keys.card := by
  rw [← List.length_map (f := Prod.fst), sortedRows_keys, ← Multiset.coe_card, coe_listing,
    Finset.card_def]

theorem insertAll_sortedRows (column : Column κ ν) :
    Journal.insertAll (sortedRows le column) ∅ = column := by
  refine Finmap.ext_lookup fun key => ?_
  by_cases hkey : key ∈ (sortedRows le column).map Prod.fst
  · obtain ⟨value, hrow, hlookup⟩ := Journal.lookup_insertAll_of_mem hkey ∅
    rw [hlookup, (mem_sortedRows le).mp hrow]
  · rw [Journal.lookup_insertAll_of_notMem hkey, Finmap.lookup_empty]
    rw [sortedRows_keys, mem_listing, Finmap.mem_keys] at hkey
    exact (Finmap.lookup_eq_none.mpr hkey).symm

theorem sortedRows_injective : Function.Injective (sortedRows le : Column κ ν → _) := by
  intro first second hrows
  rw [← insertAll_sortedRows le first, hrows, insertAll_sortedRows]

theorem mem_of_lookup_insertAll {rows : List (κ × ν)} {key : κ} {value : ν}
    (hlookup : (Journal.insertAll rows (∅ : Column κ ν)).lookup key = some value) :
    (key, value) ∈ rows := by
  by_cases hkey : key ∈ rows.map Prod.fst
  · obtain ⟨found, hrow, hfound⟩ := Journal.lookup_insertAll_of_mem hkey ∅
    rw [hlookup] at hfound
    rwa [Option.some.inj hfound]
  · rw [Journal.lookup_insertAll_of_notMem hkey, Finmap.lookup_empty] at hlookup
    simp at hlookup

theorem card_insertAll_le (rows : List (κ × ν)) :
    (Journal.insertAll rows (∅ : Column κ ν)).keys.card ≤ rows.length := by
  classical
  have hsub : (Journal.insertAll rows (∅ : Column κ ν)).keys ⊆ (rows.map Prod.fst).toFinset := by
    intro key hkey
    rw [Finmap.mem_keys, Finmap.mem_iff] at hkey
    obtain ⟨value, hlookup⟩ := hkey
    rw [List.mem_toFinset]
    exact List.mem_map.mpr ⟨_, mem_of_lookup_insertAll hlookup, rfl⟩
  calc _ ≤ (rows.map Prod.fst).toFinset.card := Finset.card_le_card hsub
    _ ≤ (rows.map Prod.fst).length := List.toFinset_card_le _
    _ = rows.length := List.length_map _

end

end Doli.Lib
