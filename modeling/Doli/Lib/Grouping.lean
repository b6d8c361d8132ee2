import Mathlib.Data.List.Perm.Basic
import Mathlib.Data.List.Dedup
import Mathlib.Data.List.MinMax

/-!
# Items grouped by a key

The groups of a list stand in the order in which their keys first come up.  Their sizes are
those of any other order of the items, and a group of more than half of them is the only
largest one.
-/

namespace Doli.Lib

variable {α κ : Type} [DecidableEq κ] (key : α → κ)

def pushGroup (item : α) : List (κ × List α) → List (κ × List α)
  | [] => [(key item, [item])]
  | group :: groups =>
      if group.1 = key item then (group.1, group.2 ++ [item]) :: groups
      else group :: pushGroup item groups

def groupItems (items : List α) : List (κ × List α) :=
  items.foldl (fun groups item => pushGroup key item groups) []

def groupOf (items : List α) (label : κ) : List α := items.filter (key · = label)

/-- How many of the items have the key. -/
def share (items : List α) (label : κ) : Nat := (groupOf key items label).length

variable {key} {items : List α} {label other : κ}

theorem mem_groupOf {item : α} :
    item ∈ groupOf key items label ↔ item ∈ items ∧ key item = label := by
  rw [groupOf, List.mem_filter, decide_eq_true_eq]

theorem groupOf_append_singleton (items : List α) (item : α) (label : κ) :
    groupOf key (items ++ [item]) label =
      groupOf key items label ++ if key item = label then [item] else [] := by
  simp [groupOf, List.filter_append, List.filter_singleton]

theorem groupOf_eq_nil (hnone : label ∉ items.map key) : groupOf key items label = [] := by
  rw [groupOf, List.filter_eq_nil_iff]
  intro item hitem
  rw [decide_eq_true_eq]
  exact fun hkey => hnone (List.mem_map.mpr ⟨item, hitem, hkey⟩)

/-! ## The groups -/

theorem groups_snoc_of_notMem {keys : List κ} {item : α} (hnew : key item ∉ keys) :
    (keys.map fun label => (label, groupOf key (items ++ [item]) label)) =
      keys.map fun label => (label, groupOf key items label) := by
  apply List.map_congr_left
  intro label hlabel
  have hne : key item ≠ label := fun heq => hnew (heq ▸ hlabel)
  rw [groupOf_append_singleton, if_neg hne, List.append_nil]

theorem pushGroup_of_mem {keys : List κ} (hnodup : keys.Nodup) {item : α}
    (hmem : key item ∈ keys) :
    pushGroup key item (keys.map fun label => (label, groupOf key items label)) =
      keys.map fun label => (label, groupOf key (items ++ [item]) label) := by
  induction keys with
  | nil => contradiction
  | cons label keys ih =>
      obtain ⟨hnew, hrest⟩ := List.nodup_cons.mp hnodup
      rw [List.map_cons, List.map_cons, pushGroup]
      by_cases hlabel : label = key item
      · subst hlabel
        rw [if_pos rfl, groupOf_append_singleton, if_pos rfl, groups_snoc_of_notMem hnew]
      · rw [if_neg hlabel, groupOf_append_singleton, if_neg (Ne.symm hlabel), List.append_nil,
          ih hrest (List.mem_of_ne_of_mem (Ne.symm hlabel) hmem)]

theorem pushGroup_of_notMem (groups : List (κ × List α)) {item : α}
    (hnew : key item ∉ groups.map Prod.fst) :
    pushGroup key item groups = groups ++ [(key item, [item])] := by
  induction groups with
  | nil => rfl
  | cons group groups ih =>
      rw [List.map_cons, List.mem_cons, not_or] at hnew
      rw [pushGroup, if_neg (Ne.symm hnew.1), ih hnew.2, List.cons_append]

theorem groupItems_eq (items : List α) :
    ∃ keys : List κ, keys.Nodup ∧ (∀ label, label ∈ keys ↔ label ∈ items.map key) ∧
      groupItems key items = keys.map fun label => (label, groupOf key items label) := by
  induction items using List.reverseRecOn with
  | nil => exact ⟨[], List.nodup_nil, fun _ => Iff.rfl, rfl⟩
  | append_singleton items item ih =>
      obtain ⟨keys, hnodup, hkeys, hgroups⟩ := ih
      have hpush : groupItems key (items ++ [item]) =
          pushGroup key item (keys.map fun label => (label, groupOf key items label)) := by
        rw [← hgroups, groupItems, List.foldl_append]
        rfl
      by_cases hmem : key item ∈ keys
      · refine ⟨keys, hnodup, fun label => ?_, hpush.trans (pushGroup_of_mem hnodup hmem)⟩
        rw [List.map_append, List.mem_append, List.map_singleton, List.mem_singleton, hkeys]
        refine (or_iff_left_of_imp ?_).symm
        rintro rfl
        exact (hkeys _).mp hmem
      · refine ⟨keys ++ [key item], ?_, fun label => ?_, ?_⟩
        · exact List.nodup_append.mpr ⟨hnodup, List.nodup_singleton _, fun label hlabel other
            hother heq => hmem (List.mem_singleton.mp hother ▸ heq ▸ hlabel)⟩
        · rw [List.map_append, List.mem_append, List.mem_append, List.map_singleton, hkeys]
        · have hfirst : key item ∉ items.map key := fun hold => hmem ((hkeys _).mpr hold)
          have hfst : (keys.map fun label => (label, groupOf key items label)).map Prod.fst =
              keys := by
            rw [List.map_map]
            exact List.map_id keys
          rw [hpush, pushGroup_of_notMem _ (hfst.symm ▸ hmem), List.map_append,
            List.map_singleton, groupOf_append_singleton, groupOf_eq_nil hfirst, if_pos rfl,
            groups_snoc_of_notMem hmem, List.nil_append]

theorem mem_groupItems {group : κ × List α} :
    group ∈ groupItems key items ↔
      group.1 ∈ items.map key ∧ group.2 = groupOf key items group.1 := by
  obtain ⟨keys, -, hkeys, hgroups⟩ := @groupItems_eq _ _ _ key items
  rw [hgroups, List.mem_map]
  constructor
  · rintro ⟨label, hlabel, rfl⟩
    exact ⟨(hkeys label).mp hlabel, rfl⟩
  · rintro ⟨hlabel, hgroup⟩
    exact ⟨group.1, (hkeys group.1).mpr hlabel, Prod.ext rfl hgroup.symm⟩

/-! ## Their sizes -/

def groupSizes (groups : List (κ × List α)) : List Nat := groups.map fun group => group.2.length

theorem share_perm {first second : List α} (hperm : first.Perm second) (label : κ) :
    share key first label = share key second label :=
  (hperm.filter _).length_eq

theorem groupSizes_perm {first second : List α} (hperm : first.Perm second) :
    (groupSizes (groupItems key first)).Perm (groupSizes (groupItems key second)) := by
  obtain ⟨keys, hnodup, hkeys, hgroups⟩ := @groupItems_eq _ _ _ key first
  obtain ⟨others, hothers, hmem, hsecond⟩ := @groupItems_eq _ _ _ key second
  have hsame : keys.Perm others := by
    rw [List.perm_ext_iff_of_nodup hnodup hothers]
    intro label
    rw [hkeys, hmem, (hperm.map key).mem_iff]
  have hfirst : groupSizes (groupItems key first) = keys.map (share key first) := by
    rw [hgroups, groupSizes, List.map_map]
    rfl
  have hsizes : groupSizes (groupItems key second) = others.map (share key first) := by
    rw [hsecond, groupSizes, List.map_map]
    apply List.map_congr_left
    exact fun label _ => (share_perm hperm label).symm
  rw [hfirst, hsizes]
  exact hsame.map _

theorem share_add_le (hne : label ≠ other) :
    share key items label + share key items other ≤ items.length := by
  have hrest : groupOf key items other =
      (items.filter fun item => !decide (key item = label)).filter (key · = other) := by
    rw [groupOf, List.filter_filter]
    apply List.filter_congr
    intro item _
    by_cases hother : key item = other
    · simp [hother, Ne.symm hne]
    · simp [hother]
  have hsplit := @List.length_eq_length_filter_add _ items fun item => decide (key item = label)
  unfold share
  rw [hrest, groupOf]
  have hle := List.length_filter_le (fun item => decide (key item = other))
    (items.filter fun item => !decide (key item = label))
  omega

theorem share_lt_of_majority (hmajority : items.length < 2 * share key items label)
    (hne : other ≠ label) : share key items other < share key items label := by
  have hsum : share key items other + share key items label ≤ items.length := share_add_le hne
  omega

/-! ## The group of more than half -/

section Majority

variable (hmajority : items.length < 2 * share key items label)

include hmajority

theorem mem_of_majority : label ∈ items.map key := by
  by_contra hnone
  rw [share, groupOf_eq_nil hnone] at hmajority
  exact Nat.not_lt_zero _ hmajority

theorem max?_groupSizes_of_majority :
    (groupSizes (groupItems key items)).max? = some (share key items label) := by
  rw [List.max?_eq_some_iff]
  constructor
  · exact List.mem_map.mpr ⟨(label, groupOf key items label),
      mem_groupItems.mpr ⟨mem_of_majority hmajority, rfl⟩, rfl⟩
  · intro size hsize
    obtain ⟨group, hgroup, rfl⟩ := List.mem_map.mp hsize
    obtain ⟨-, hitems⟩ := mem_groupItems.mp hgroup
    by_cases hsame : group.1 = label
    · rw [hitems, hsame, share]
    · rw [hitems]
      exact (share_lt_of_majority hmajority hsame).le

theorem count_groupSizes_of_majority :
    (groupSizes (groupItems key items)).count (share key items label) = 1 := by
  obtain ⟨keys, hnodup, hkeys, hgroups⟩ := @groupItems_eq _ _ _ key items
  have hsizes : groupSizes (groupItems key items) = keys.map (share key items) := by
    rw [hgroups, groupSizes, List.map_map]
    rfl
  have honly : (keys.map (share key items)).count (share key items label) =
      keys.count label := by
    rw [List.count, List.countP_map, List.count]
    apply List.countP_congr
    intro other _
    simp only [Function.comp_apply, beq_iff_eq]
    refine ⟨fun hsame => ?_, fun hsame => hsame ▸ rfl⟩
    by_contra hne
    exact (share_lt_of_majority hmajority hne).ne hsame
  rw [hsizes, honly, hnodup.count, if_pos ((hkeys label).mpr (mem_of_majority hmajority))]

theorem find?_group_of_majority :
    (groupItems key items).find? (fun group => group.2.length = share key items label) =
      some (label, groupOf key items label) := by
  have hmem : (label, groupOf key items label) ∈ groupItems key items :=
    mem_groupItems.mpr ⟨mem_of_majority hmajority, rfl⟩
  cases hfound : (groupItems key items).find?
      (fun group => group.2.length = share key items label) with
  | none =>
      have hnone := List.find?_eq_none.mp hfound _ hmem
      simp [share] at hnone
  | some group =>
      have hsize : group.2.length = share key items label := by
        simpa using List.find?_some hfound
      obtain ⟨-, hitems⟩ := mem_groupItems.mp (List.mem_of_find?_eq_some hfound)
      have hsame : group.1 = label := by
        by_contra hne
        rw [hitems] at hsize
        exact (share_lt_of_majority hmajority hne).ne hsize
      rw [← hsame, ← hitems]

end Majority

/-! ## Bounds of a list in any order -/

theorem max?_perm {first second : List Nat} (hperm : first.Perm second) :
    first.max? = second.max? := by
  ext bound
  simp only [List.max?_eq_some_iff, hperm.mem_iff]

theorem min?_perm {first second : List Nat} (hperm : first.Perm second) :
    first.min? = second.min? := by
  ext bound
  simp only [List.min?_eq_some_iff, hperm.mem_iff]

end Doli.Lib
