import Doli.Lib.Column

/-!
# Groups

A column of sets keeps a group of items at each key.  A group that loses its last item is
dropped with its key, so an exact column of groups is determined by the relation it lists.
-/

namespace Doli.Lib

abbrev Groups (κ ι : Type) := Column κ (Finset ι)

variable {κ ι ν : Type} [DecidableEq κ]

namespace Groups

def members (groups : Groups κ ι) (key : κ) : Finset ι :=
  (groups.lookup key).getD ∅

def NoneEmpty (groups : Groups κ ι) : Prop :=
  ∀ key, groups.lookup key ≠ some ∅

/-- The groups list the relation, and nothing else. -/
structure Lists (groups : Groups κ ι) (rel : κ → ι → Prop) : Prop where
  members : ∀ key item, item ∈ groups.members key ↔ rel key item
  noneEmpty : groups.NoneEmpty

variable {groups : Groups κ ι} {rel next : κ → ι → Prop} {key other : κ} {item found : ι}
  {keys : List κ}

theorem members_of_lookup {group : Finset ι} (hlookup : groups.lookup key = some group) :
    groups.members key = group := by
  simp [members, hlookup]

theorem members_of_none (hlookup : groups.lookup key = none) : groups.members key = ∅ := by
  simp [members, hlookup]

@[simp] theorem members_empty : (∅ : Groups κ ι).members key = ∅ :=
  members_of_none (Finmap.lookup_empty key)

theorem noneEmpty_empty : (∅ : Groups κ ι).NoneEmpty := by
  intro key
  simp [Finmap.lookup_empty]

theorem lists_empty (hnone : ∀ key item, ¬rel key item) : (∅ : Groups κ ι).Lists rel :=
  ⟨fun key item => by simp [hnone key item], noneEmpty_empty⟩

variable [DecidableEq ι]

def add (item : ι) (groups : Groups κ ι) (key : κ) : Groups κ ι :=
  groups.insert key (insert item (groups.members key))

def drop (item : ι) (groups : Groups κ ι) (key : κ) : Groups κ ι :=
  match groups.lookup key with
  | none => groups
  | some group =>
      if group.erase item = ∅ then groups.erase key
      else groups.insert key (group.erase item)

def addAll (item : ι) (keys : List κ) (groups : Groups κ ι) : Groups κ ι :=
  keys.foldl (add item) groups

def dropAll (item : ι) (keys : List κ) (groups : Groups κ ι) : Groups κ ι :=
  keys.foldl (drop item) groups

/-! ## One key -/

theorem mem_add :
    found ∈ (groups.add item key).members other ↔
      (other = key ∧ found = item) ∨ found ∈ groups.members other := by
  by_cases hkey : other = key
  · rw [hkey, add, members_of_lookup (Finmap.lookup_insert groups), Finset.mem_insert]
    simp
  · rw [members, add, Finmap.lookup_insert_of_ne _ hkey]
    simp [hkey, members]

theorem noneEmpty_add (hgroups : groups.NoneEmpty) : (groups.add item key).NoneEmpty := by
  intro other hempty
  by_cases hkey : other = key
  · rw [hkey, add, Finmap.lookup_insert, Option.some.injEq] at hempty
    exact Finset.insert_ne_empty _ _ hempty
  · rw [add, Finmap.lookup_insert_of_ne _ hkey] at hempty
    exact hgroups other hempty

theorem members_drop :
    (groups.drop item key).members other =
      if other = key then (groups.members other).erase item else groups.members other := by
  unfold drop
  split
  case h_1 hnone =>
    split
    case isTrue hkey => rw [hkey, members_of_none hnone, Finset.erase_empty]
    case isFalse => rfl
  case h_2 group hgroup =>
    by_cases hkey : other = key
    · rw [if_pos hkey, hkey, members_of_lookup hgroup]
      split
      case isTrue hlast => rw [hlast, members_of_none (Finmap.lookup_erase key groups)]
      case isFalse => rw [members_of_lookup (Finmap.lookup_insert groups)]
    · rw [if_neg hkey]
      split
      · rw [members, Finmap.lookup_erase_ne hkey, ← members]
      · rw [members, Finmap.lookup_insert_of_ne _ hkey, ← members]

theorem mem_drop :
    found ∈ (groups.drop item key).members other ↔
      found ∈ groups.members other ∧ ¬(other = key ∧ found = item) := by
  rw [members_drop]
  split
  case isTrue hkey => simp [hkey, and_comm]
  case isFalse hkey => simp [hkey]

theorem noneEmpty_drop (hgroups : groups.NoneEmpty) : (groups.drop item key).NoneEmpty := by
  intro other hempty
  unfold drop at hempty
  split at hempty
  · exact hgroups other hempty
  · by_cases hkey : other = key
    · split at hempty
      · rw [hkey, Finmap.lookup_erase] at hempty
        cases hempty
      case isFalse hsome =>
        rw [hkey, Finmap.lookup_insert, Option.some.injEq] at hempty
        exact hsome hempty
    · split at hempty
      · rw [Finmap.lookup_erase_ne hkey] at hempty
        exact hgroups other hempty
      · rw [Finmap.lookup_insert_of_ne _ hkey] at hempty
        exact hgroups other hempty

/-! ## Many keys -/

theorem mem_addAll :
    found ∈ (addAll item keys groups).members other ↔
      (other ∈ keys ∧ found = item) ∨ found ∈ groups.members other := by
  induction keys generalizing groups with
  | nil => simp [addAll]
  | cons key keys ih =>
      change found ∈ (addAll item keys (groups.add item key)).members other ↔ _
      rw [ih, mem_add, List.mem_cons]
      tauto

theorem noneEmpty_addAll (hgroups : groups.NoneEmpty) : (addAll item keys groups).NoneEmpty := by
  induction keys generalizing groups with
  | nil => exact hgroups
  | cons key keys ih => exact ih (noneEmpty_add hgroups)

theorem mem_dropAll :
    found ∈ (dropAll item keys groups).members other ↔
      found ∈ groups.members other ∧ ¬(other ∈ keys ∧ found = item) := by
  induction keys generalizing groups with
  | nil => simp [dropAll]
  | cons key keys ih =>
      change found ∈ (dropAll item keys (groups.drop item key)).members other ↔ _
      rw [ih, mem_drop, List.mem_cons]
      tauto

theorem noneEmpty_dropAll (hgroups : groups.NoneEmpty) :
    (dropAll item keys groups).NoneEmpty := by
  induction keys generalizing groups with
  | nil => exact hgroups
  | cons key keys ih => exact ih (noneEmpty_drop hgroups)

theorem Lists.addAll (hlists : groups.Lists rel)
    (hnext : ∀ key found, next key found ↔ (key ∈ keys ∧ found = item) ∨ rel key found) :
    (addAll item keys groups).Lists next where
  members key found := by rw [mem_addAll, hlists.members, hnext]
  noneEmpty := noneEmpty_addAll hlists.noneEmpty

theorem Lists.dropAll (hlists : groups.Lists rel)
    (hnext : ∀ key found, next key found ↔ rel key found ∧ ¬(key ∈ keys ∧ found = item)) :
    (dropAll item keys groups).Lists next where
  members key found := by rw [mem_dropAll, hlists.members, hnext]
  noneEmpty := noneEmpty_dropAll hlists.noneEmpty

end Groups

/-! ## One value at many keys -/

theorem lookup_insertAll_map (keys : List κ) (value : ν) (column : Column κ ν) (key : κ) :
    (Journal.insertAll (keys.map fun key => (key, value)) column).lookup key =
      if key ∈ keys then some value else column.lookup key := by
  have hkeys : (keys.map fun key => (key, value)).map Prod.fst = keys := by
    rw [List.map_map]
    exact List.map_id keys
  split
  case isTrue hkey =>
    obtain ⟨found, hfound, hlookup⟩ :=
      Journal.lookup_insertAll_of_mem (hkeys.symm ▸ hkey) column
    obtain ⟨other, -, hrow⟩ := List.mem_map.mp hfound
    rw [hlookup, ← (Prod.mk.inj hrow).2]
  case isFalse hkey =>
    exact Journal.lookup_insertAll_of_notMem (hkeys.symm ▸ hkey) column

/-! ## Rows changed in place -/

/-- A key without a row stays without one. -/
def alter (change : ν → ν) (column : Column κ ν) (key : κ) : Column κ ν :=
  match column.lookup key with
  | none => column
  | some value => column.insert key (change value)

def alterAll (change : ν → ν) (keys : List κ) (column : Column κ ν) : Column κ ν :=
  keys.foldl (alter change) column

section

variable {change : ν → ν} {column : Column κ ν} {keys : List κ}

theorem lookup_alter (column : Column κ ν) (key other : κ) :
    (alter change column key).lookup other =
      if other = key then (column.lookup other).map change else column.lookup other := by
  unfold alter
  split
  case h_1 hnone =>
    split
    case isTrue hkey => rw [hkey, hnone, Option.map_none]
    case isFalse => rfl
  case h_2 value hvalue =>
    split
    case isTrue hkey => rw [hkey, hvalue, Finmap.lookup_insert, Option.map_some]
    case isFalse hkey => rw [Finmap.lookup_insert_of_ne _ hkey]

theorem lookup_alterAll (hkeys : keys.Nodup) (column : Column κ ν) (other : κ) :
    (alterAll change keys column).lookup other =
      if other ∈ keys then (column.lookup other).map change else column.lookup other := by
  induction keys generalizing column with
  | nil => simp [alterAll]
  | cons key keys ih =>
      obtain ⟨hkey, hrest⟩ := List.nodup_cons.mp hkeys
      change (alterAll change keys (alter change column key)).lookup other = _
      rw [ih hrest, lookup_alter]
      by_cases hsame : other = key
      · subst hsame
        simp [hkey]
      · simp [hsame]

end

end Doli.Lib
