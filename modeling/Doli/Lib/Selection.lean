import Doli.Lib.Worth
import Mathlib.Data.Finset.Basic
import Mathlib.Data.List.Sort

/-!
# Greedy selection

One pass over a list of candidates, each with a size and with needs, takes what fits a budget
and finds its needs taken.  What it skips it never comes back to, so it takes everything that
fits exactly where every candidate comes after its needs.
-/

namespace Doli.Lib

/-! ## What comes first -/

section

variable {α : Type} {first second item : α} {items others : List α}

def Precedes (first second : α) (items : List α) : Prop := [first, second].Sublist items

theorem precedes_cons :
    Precedes first second (item :: items) ↔
      (first = item ∧ second ∈ items) ∨ Precedes first second items := by
  unfold Precedes
  rw [List.sublist_cons_iff]
  constructor
  · rintro (htail | ⟨rest, hrest, hsublist⟩)
    · exact .inr htail
    · cases hrest
      exact .inl ⟨rfl, List.singleton_sublist.mp hsublist⟩
  · rintro (⟨rfl, hmem⟩ | htail)
    · exact .inr ⟨[second], rfl, List.singleton_sublist.mpr hmem⟩
    · exact .inl htail

theorem Precedes.of_sublist (hprecedes : Precedes first second items)
    (hsublist : items.Sublist others) : Precedes first second others :=
  List.Sublist.trans hprecedes hsublist

theorem Precedes.mem (hprecedes : Precedes first second items) :
    first ∈ items ∧ second ∈ items :=
  ⟨hprecedes.subset (by simp), hprecedes.subset (by simp)⟩

theorem precedes_append_last (hmem : first ∈ items) (last : α) :
    Precedes first last (items ++ [last]) :=
  List.Sublist.append (List.singleton_sublist.mpr hmem) (.refl [last])

theorem precedes_or_precedes (hfirst : first ∈ items) (hsecond : second ∈ items)
    (hne : first ≠ second) : Precedes first second items ∨ Precedes second first items := by
  induction items with
  | nil => cases hfirst
  | cons item items ih =>
      rw [precedes_cons, precedes_cons]
      rcases List.mem_cons.mp hfirst with rfl | hfirstTail
      · exact .inl (.inl ⟨rfl, (List.mem_cons.mp hsecond).resolve_left hne.symm⟩)
      · rcases List.mem_cons.mp hsecond with rfl | hsecondTail
        · exact .inr (.inl ⟨rfl, hfirstTail⟩)
        · exact (ih hfirstTail hsecondTail).imp .inr .inr

theorem Precedes.asymm (hnodup : items.Nodup) (hprecedes : Precedes first second items) :
    ¬Precedes second first items := by
  induction items with
  | nil => cases hprecedes
  | cons item items ih =>
      obtain ⟨hnew, hnodup⟩ := List.nodup_cons.mp hnodup
      rw [precedes_cons] at hprecedes ⊢
      rintro (⟨rfl, hmem⟩ | hback)
      · rcases hprecedes with ⟨rfl, hself⟩ | hforth
        · exact hnew hself
        · exact hnew hforth.mem.2
      · rcases hprecedes with ⟨rfl, -⟩ | hforth
        · exact hnew hback.mem.2
        · exact ih hnodup hforth hback

theorem Precedes.ne (hnodup : items.Nodup) (hprecedes : Precedes first second items) :
    first ≠ second := by
  rintro rfl
  exact hprecedes.asymm hnodup hprecedes

theorem precedes_map {β : Type} {f : α → β} (hnodup : (items.map f).Nodup)
    (hfirst : first ∈ items) (hsecond : second ∈ items) :
    Precedes (f first) (f second) (items.map f) ↔ Precedes first second items := by
  have hmap : ∀ {left right}, Precedes left right items →
      Precedes (f left) (f right) (items.map f) := fun hprecedes => List.Sublist.map f hprecedes
  constructor
  · intro hprecedes
    have hne : first ≠ second := fun hsame => hprecedes.ne hnodup (congrArg f hsame)
    refine (precedes_or_precedes hfirst hsecond hne).resolve_right fun hbehind => ?_
    exact hprecedes.asymm hnodup (hmap hbehind)
  · exact hmap

theorem mem_of_precedes_append (hnodup : (items ++ second :: others).Nodup)
    (hprecedes : Precedes first second (items ++ second :: others)) : first ∈ items := by
  induction items with
  | nil =>
      rw [List.nil_append] at hnodup hprecedes
      obtain ⟨hnew, -⟩ := List.nodup_cons.mp hnodup
      rcases precedes_cons.mp hprecedes with ⟨-, hself⟩ | hforth
      · exact absurd hself hnew
      · exact absurd hforth.mem.2 hnew
  | cons item items ih =>
      rw [List.cons_append] at hnodup hprecedes
      rcases precedes_cons.mp hprecedes with ⟨rfl, -⟩ | hforth
      · exact List.mem_cons_self
      · exact List.mem_cons_of_mem item (ih (List.nodup_cons.mp hnodup).2 hforth)

theorem precedes_insertionSort (r : α → α → Prop) [DecidableRel r] [Std.Total r] [IsTrans α r]
    (hnodup : items.Nodup) (hfirst : first ∈ items) (hsecond : second ∈ items)
    (hne : first ≠ second) :
    Precedes first second (items.insertionSort r) ↔
      r first second ∧ (r second first → Precedes first second items) := by
  have hperm := List.perm_insertionSort r items
  have hsorted : (items.insertionSort r).Nodup := hperm.nodup_iff.mpr hnodup
  have hahead : ∀ {left right}, Precedes left right (items.insertionSort r) → r left right :=
    fun hprecedes => List.pairwise_pair.mp
      ((List.pairwise_insertionSort r items).sublist hprecedes)
  constructor
  · intro hprecedes
    refine ⟨hahead hprecedes, fun hback => ?_⟩
    refine (precedes_or_precedes hfirst hsecond hne).resolve_right fun hbehind => ?_
    exact hprecedes.asymm hsorted (List.pair_sublist_insertionSort hback hbehind)
  · rintro ⟨hforth, hties⟩
    by_cases hback : r second first
    · exact List.pair_sublist_insertionSort hforth (hties hback)
    · refine (precedes_or_precedes (hperm.mem_iff.mpr hfirst) (hperm.mem_iff.mpr hsecond)
        hne).resolve_right fun hbehind => ?_
      exact hback (hahead hbehind)

end

/-! ## Feasible choices -/

section

variable {α κ : Type} (key : α → κ) (size : α → Nat) (needs : α → Finset κ)
  (budget : Nat)

def Ready (items : List α) : Prop :=
  ∀ item ∈ items, ∀ need ∈ needs item, ∃ other, key other = need ∧ Precedes other item items

structure Feasible (chosen : List α) : Prop where
  nodup : (chosen.map key).Nodup
  fits : total size chosen ≤ budget
  ready : Ready key needs chosen

variable {key size needs budget} {chosen items : List α} {item : α}

theorem feasible_nil : Feasible key size needs budget [] where
  nodup := List.nodup_nil
  fits := Nat.zero_le budget
  ready := by simp [Ready]

theorem Feasible.append_last (hfeasible : Feasible key size needs budget chosen)
    (hnew : key item ∉ chosen.map key) (hroom : total size chosen + size item ≤ budget)
    (hneeds : ∀ need ∈ needs item, need ∈ chosen.map key) :
    Feasible key size needs budget (chosen ++ [item]) where
  nodup := by
    rw [List.map_append, List.nodup_append]
    refine ⟨hfeasible.nodup, List.nodup_singleton _, ?_⟩
    rintro _ hmem _ hlast rfl
    rw [List.map_singleton, List.mem_singleton] at hlast
    exact hnew (hlast ▸ hmem)
  fits := by simpa using hroom
  ready := by
    intro other hother need hneed
    rcases List.mem_append.mp hother with hold | hlast
    · obtain ⟨earlier, hearlier, hprecedes⟩ := hfeasible.ready other hold need hneed
      exact ⟨earlier, hearlier, hprecedes.of_sublist (List.sublist_append_left chosen [item])⟩
    · rw [List.mem_singleton.mp hlast] at hneed ⊢
      obtain ⟨earlier, hearlier, hkey⟩ := List.mem_map.mp (hneeds need hneed)
      exact ⟨earlier, hkey, precedes_append_last hearlier item⟩

end

/-! ## The pass -/

section

variable {α κ : Type} [DecidableEq κ] (key : α → κ) (size : α → Nat) (needs : α → Finset κ)
  (budget : Nat)

/-- Full, the pass ends. -/
def greedy : List α → List α → List α
  | chosen, [] => chosen
  | chosen, item :: items =>
      if key item ∈ chosen.map key then greedy chosen items
      else if budget < total size chosen + size item then greedy chosen items
      else if ¬∀ need ∈ needs item, need ∈ chosen.map key then greedy chosen items
      else if budget ≤ total size (chosen ++ [item]) then chosen ++ [item]
      else greedy (chosen ++ [item]) items

variable {key size needs budget} {chosen items : List α}

theorem Feasible.greedy (hfeasible : Feasible key size needs budget chosen) :
    Feasible key size needs budget (greedy key size needs budget chosen items) := by
  induction items generalizing chosen with
  | nil => exact hfeasible
  | cons item items ih =>
      unfold Lib.greedy
      split_ifs with hseen hover hneeds hfull
      · exact ih hfeasible
      · exact ih hfeasible
      · exact hfeasible.append_last hseen (Nat.not_lt.mp hover) hneeds
      · exact ih (hfeasible.append_last hseen (Nat.not_lt.mp hover) hneeds)
      · exact ih hfeasible

theorem greedy_sublist : (greedy key size needs budget chosen items).Sublist (chosen ++ items) := by
  induction items generalizing chosen with
  | nil => rw [greedy, List.append_nil]
  | cons item items ih =>
      have hskip : (greedy key size needs budget chosen items).Sublist
          (chosen ++ item :: items) :=
        ih.trans (List.Sublist.append (.refl chosen) (List.sublist_cons_self item items))
      have hsplit : chosen ++ item :: items = (chosen ++ [item]) ++ items := by simp
      unfold greedy
      split_ifs with hseen hover hneeds hfull
      · exact hskip
      · exact hskip
      · rw [hsplit]
        exact List.sublist_append_left _ _
      · rw [hsplit]
        exact ih
      · exact hskip

theorem greedy_eq_append (hnodup : ((chosen ++ items).map key).Nodup)
    (hfits : total size (chosen ++ items) ≤ budget) (hsize : ∀ item ∈ items, 0 < size item)
    (hready : Ready key needs (chosen ++ items)) :
    greedy key size needs budget chosen items = chosen ++ items := by
  induction items generalizing chosen with
  | nil => rw [greedy, List.append_nil]
  | cons item items ih =>
      have hsplit : chosen ++ item :: items = (chosen ++ [item]) ++ items := by simp
      have hnew : key item ∉ chosen.map key := by
        intro hmem
        rw [List.map_append, List.nodup_append] at hnodup
        exact hnodup.2.2 _ hmem _ List.mem_cons_self rfl
      have hneeds : ∀ need ∈ needs item, need ∈ chosen.map key := by
        intro need hneed
        obtain ⟨other, rfl, hprecedes⟩ := hready item (by simp) need hneed
        exact List.mem_map_of_mem (mem_of_precedes_append (List.Nodup.of_map key hnodup) hprecedes)
      have htotal := hfits
      rw [total_append, total_cons] at htotal
      rw [greedy, if_neg hnew, if_neg (by omega), if_neg (not_not.mpr hneeds)]
      rw [hsplit] at hnodup hfits hready ⊢
      split
      case isTrue hfull =>
        cases items with
        | nil => rw [List.append_nil]
        | cons next items =>
            have hnext := hsize next (by simp)
            rw [total_append, total_cons] at hfits
            omega
      case isFalse =>
        exact ih hnodup hfits (fun other hother => hsize other (List.mem_cons_of_mem item hother))
          hready

theorem greedy_complete_iff (hnodup : (items.map key).Nodup) (hfits : total size items ≤ budget)
    (hsize : ∀ item ∈ items, 0 < size item) :
    (∀ item ∈ items, item ∈ greedy key size needs budget [] items) ↔
      Ready key needs items := by
  constructor
  · intro hall
    have hsublist : (greedy key size needs budget [] items).Sublist items := greedy_sublist
    have hsubperm := List.subperm_of_subset (List.Nodup.of_map key hnodup) hall
    have hsame := hsublist.eq_of_length_le hsubperm.length_le
    have hfeasible : Feasible key size needs budget (greedy key size needs budget [] items) :=
      feasible_nil.greedy
    rw [← hsame]
    exact hfeasible.ready
  · intro hready item hitem
    rwa [greedy_eq_append hnodup hfits hsize hready]

end

end Doli.Lib
