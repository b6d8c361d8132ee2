import Doli.Lib.Holdings

/-!
# Backed claims

Some rows of a column issue claims and count them, other rows hold claims.  The claims
are backed while each issuer counts at least what is held of it and a floor that nobody
holds.  A change consumes rows and creates others, and with them at most one issuer is
moved or founded.
-/

namespace Doli.Lib

/-- What a row issues, with the count, and what it holds of an issuer. -/
structure Issuance (ι ν : Type) where
  issuer : ν → Option (ι × Nat)
  claim : ι → ν → Nat
  floor : Nat

variable {ι κ ν : Type} [DecidableEq κ]

namespace Issuance

variable (issuance : Issuance ι ν) (column : Column κ ν)

def issuerAt (key : κ) : Option (ι × Nat) :=
  (column.lookup key).bind issuance.issuer

/-- Each issuer stands once and its claims are backed; what no row issues nobody holds. -/
structure Backed : Prop where
  unique : ∀ key other id count found, issuance.issuerAt column key = some (id, count) →
    issuance.issuerAt column other = some (id, found) → key = other
  backed : ∀ key id count, issuance.issuerAt column key = some (id, count) →
    holdings (issuance.claim id) column + issuance.floor ≤ count
  unbacked : ∀ id, (∀ key count, issuance.issuerAt column key ≠ some (id, count)) →
    holdings (issuance.claim id) column = 0

/-- A change that turns the issuer `old` into `new`, or founds `new`. -/
structure Change (consumed created : List ν) (old new : Option (ι × Nat)) : Prop where
  spent : consumed.filterMap issuance.issuer = old.toList
  stored : created.filterMap issuance.issuer = new.toList
  covered : ∀ id, (∀ count, new ≠ some (id, count)) →
    total (issuance.claim id) created ≤ total (issuance.claim id) consumed
  moved : ∀ id count, old = some (id, count) → ∃ next, new = some (id, next) ∧
    next + total (issuance.claim id) consumed = count + total (issuance.claim id) created
  founded : old = none → ∀ id count, new = some (id, count) →
    total (issuance.claim id) created + issuance.floor ≤ count

variable {issuance} {column}

/-! ## The rows that carry the issuing part -/

section Comap

variable {μ : Type} (part : μ → ν)

def comap (issuance : Issuance ι ν) : Issuance ι μ where
  issuer row := issuance.issuer (part row)
  claim id row := issuance.claim id (part row)
  floor := issuance.floor

theorem Change.comap {consumed created : List μ} {old new : Option (ι × Nat)}
    (hchange : issuance.Change (consumed.map part) (created.map part) old new) :
    (issuance.comap part).Change consumed created old new := by
  have htotal : ∀ id (rows : List μ), total ((issuance.comap part).claim id) rows =
      total (issuance.claim id) (rows.map part) := by
    intro id rows
    rw [total, total, List.map_map]
    rfl
  constructor
  case spent =>
    rw [← hchange.spent, List.filterMap_map]
    rfl
  case stored =>
    rw [← hchange.stored, List.filterMap_map]
    rfl
  case covered =>
    intro id hother
    rw [htotal, htotal]
    exact hchange.covered id hother
  case moved =>
    intro id count hold
    rw [htotal, htotal]
    exact hchange.moved id count hold
  case founded =>
    intro hold id count hnew
    rw [htotal]
    exact hchange.founded hold id count hnew

end Comap

/-! ## The issuers of a column -/

theorem issuerAt_eq_some {key : κ} {row : ι × Nat} :
    issuance.issuerAt column key = some row ↔
      ∃ value, column.lookup key = some value ∧ issuance.issuer value = some row := by
  simp [issuerAt, Option.bind_eq_some_iff]

theorem backed_empty : issuance.Backed (∅ : Column κ ν) where
  unique key other id count found hissuer := by simp [issuerAt] at hissuer
  backed key id count hissuer := by simp [issuerAt] at hissuer
  unbacked _ _ := holdings_empty

/-! ## Erasing rows that issue nothing -/

theorem issuerAt_eraseAll (keys : List κ) (key : κ) :
    issuance.issuerAt (Journal.eraseAll keys column) key =
      if key ∈ keys then none else issuance.issuerAt column key := by
  unfold issuerAt
  rw [Journal.lookup_eraseAll]
  split
  · rfl
  · rfl

theorem Backed.eraseAll {keys : List κ} (hbacked : issuance.Backed column)
    (hnone : ∀ key ∈ keys, issuance.issuerAt column key = none) :
    issuance.Backed (Journal.eraseAll keys column) := by
  have hsame : ∀ key, issuance.issuerAt (Journal.eraseAll keys column) key =
      issuance.issuerAt column key := by
    intro key
    rw [issuerAt_eraseAll]
    split
    case isTrue hkey => exact (hnone key hkey).symm
    case isFalse => rfl
  constructor
  case unique =>
    intro key other id count found hkey hother
    rw [hsame] at hkey hother
    exact hbacked.unique key other id count found hkey hother
  case backed =>
    intro key id count hkey
    rw [hsame] at hkey
    have hless := holdings_eraseAll_le (issuance.claim id) keys column
    have hbefore := hbacked.backed key id count hkey
    omega
  case unbacked =>
    intro id habsent
    have hless := holdings_eraseAll_le (issuance.claim id) keys column
    have hbefore := hbacked.unbacked id fun key count => hsame key ▸ habsent key count
    omega

/-! ## A change -/

omit [DecidableEq κ] in
theorem eq_of_filterMap_toList {rows : List (κ × ν)} {new : Option (ι × Nat)}
    (hrows : (rows.filterMap fun row => issuance.issuer row.2) = new.toList)
    {first second : κ × ν} (hfirst : first ∈ rows) (hsecond : second ∈ rows)
    (hfirstIssues : (issuance.issuer first.2).isSome)
    (hsecondIssues : (issuance.issuer second.2).isSome) : first = second := by
  have hlength : (rows.filter fun row => (issuance.issuer row.2).isSome).length ≤ 1 := by
    rw [← List.countP_eq_length_filter, ← List.length_filterMap_eq_countP, hrows]
    cases new <;> simp
  have hfirstMem : first ∈ rows.filter fun row => (issuance.issuer row.2).isSome :=
    List.mem_filter.mpr ⟨hfirst, hfirstIssues⟩
  have hsecondMem : second ∈ rows.filter fun row => (issuance.issuer row.2).isSome :=
    List.mem_filter.mpr ⟨hsecond, hsecondIssues⟩
  obtain ⟨i, hi, hfirstAt⟩ := List.mem_iff_getElem.mp hfirstMem
  obtain ⟨j, hj, hsecondAt⟩ := List.mem_iff_getElem.mp hsecondMem
  have hsame : i = j := by omega
  subst hsame
  exact hfirstAt.symm.trans hsecondAt

/-- How a change sits in a column: which keys it consumes and where it puts its rows.  A
row that replaces an issuer issues the same. -/
structure Applies (issuance : Issuance ι ν) (column : Column κ ν) (keys : List κ)
    (rows : List (κ × ν)) (consumed created : List ν) (old new : Option (ι × Nat)) :
    Prop where
  change : issuance.Change consumed created old new
  distinct : keys.Nodup
  consumed : keys.map column.lookup = consumed.map some
  created : rows.map Prod.snd = created
  places : (rows.map Prod.fst).Nodup
  replaced : ∀ row ∈ rows, ∀ issued, issuance.issuerAt column row.1 = some issued →
    row.1 ∈ keys ∨ issuance.issuer row.2 = some issued
  founds : old = none → ∀ id count, new = some (id, count) →
    ∀ key found, issuance.issuerAt column key ≠ some (id, found)

section Applies

variable {keys : List κ} {rows : List (κ × ν)} {consumed created : List ν}
  {old new : Option (ι × Nat)}
  (happlies : Applies issuance column keys rows consumed created old new)

include happlies

theorem Applies.filterMap_rows :
    (rows.filterMap fun row => issuance.issuer row.2) = new.toList := by
  rw [← happlies.change.stored, ← happlies.created, List.filterMap_map]
  rfl

theorem Applies.mem_consumed {key : κ} {value : ν} (hkey : key ∈ keys)
    (hlookup : column.lookup key = some value) : value ∈ consumed := by
  have hmem : some value ∈ keys.map column.lookup :=
    List.mem_map.mpr ⟨key, hkey, hlookup⟩
  rw [happlies.consumed] at hmem
  simpa using hmem

theorem Applies.old_at {id : ι} {count : Nat} (hold : old = some (id, count)) :
    ∃ key ∈ keys, issuance.issuerAt column key = some (id, count) := by
  have hmem : (id, count) ∈ consumed.filterMap issuance.issuer := by
    simp [happlies.change.spent, hold]
  obtain ⟨value, hvalue, hissues⟩ := List.mem_filterMap.mp hmem
  have hlookup : some value ∈ keys.map column.lookup := by
    rw [happlies.consumed]
    exact List.mem_map_of_mem hvalue
  obtain ⟨key, hkey, hat⟩ := List.mem_map.mp hlookup
  exact ⟨key, hkey, issuerAt_eq_some.mpr ⟨value, hat, hissues⟩⟩

theorem Applies.old_of_consumed {key : κ} {row : ι × Nat} (hkey : key ∈ keys)
    (hissuer : issuance.issuerAt column key = some row) : old = some row := by
  obtain ⟨value, hlookup, hissues⟩ := issuerAt_eq_some.mp hissuer
  have hmem : row ∈ consumed.filterMap issuance.issuer :=
    List.mem_filterMap.mpr ⟨value, happlies.mem_consumed hkey hlookup, hissues⟩
  rw [happlies.change.spent, Option.mem_toList] at hmem
  exact hmem

theorem Applies.new_of_row {row : κ × ν} {issued : ι × Nat} (hrow : row ∈ rows)
    (hissues : issuance.issuer row.2 = some issued) : new = some issued := by
  have hmem : issued ∈ rows.filterMap fun row => issuance.issuer row.2 :=
    List.mem_filterMap.mpr ⟨row, hrow, hissues⟩
  rw [happlies.filterMap_rows, Option.mem_toList] at hmem
  exact hmem

theorem Applies.ne_new (hbacked : issuance.Backed column) {key : κ} {id : ι} {count : Nat}
    (hkey : key ∉ keys) (hissuer : issuance.issuerAt column key = some (id, count)) (next : Nat) :
    new ≠ some (id, next) := by
  intro hnew
  cases hold : old with
  | none => exact happlies.founds hold id next hnew key count hissuer
  | some row =>
      obtain ⟨moved, before⟩ := row
      obtain ⟨after, hmoved, -⟩ := happlies.change.moved moved before hold
      rw [hnew] at hmoved
      cases hmoved
      obtain ⟨other, hother, hat⟩ := happlies.old_at hold
      have hsame := hbacked.unique key other id count before hissuer hat
      exact hkey (hsame ▸ hother)

theorem Applies.issuerAt_after (hbacked : issuance.Backed column) {key : κ} {row : ι × Nat} :
    issuance.issuerAt (Journal.insertAll rows (Journal.eraseAll keys column)) key = some row ↔
      (∃ value, (key, value) ∈ rows ∧ issuance.issuer value = some row ∧ new = some row) ∨
        (key ∉ keys ∧ issuance.issuerAt column key = some row) := by
  constructor
  · intro hafter
    obtain ⟨value, hlookup, hissues⟩ := issuerAt_eq_some.mp hafter
    by_cases hplaced : key ∈ rows.map Prod.fst
    · obtain ⟨found, hrow, hfound⟩ := Journal.lookup_insertAll_of_mem hplaced
        (Journal.eraseAll keys column)
      rw [hlookup] at hfound
      cases hfound
      left
      exact ⟨value, hrow, hissues, happlies.new_of_row hrow hissues⟩
    · right
      rw [Journal.lookup_insertAll_of_notMem hplaced, Journal.lookup_eraseAll] at hlookup
      split at hlookup
      case isTrue => contradiction
      case isFalse hkey => exact ⟨hkey, issuerAt_eq_some.mpr ⟨value, hlookup, hissues⟩⟩
  · rintro (⟨value, hrow, hissues, -⟩ | ⟨hkey, hbefore⟩)
    · obtain ⟨found, hfoundRow, hfound⟩ := Journal.lookup_insertAll_of_mem
        (List.mem_map_of_mem hrow) (Journal.eraseAll keys column)
      have hsame := List.inj_on_of_nodup_map happlies.places hrow hfoundRow rfl
      cases hsame
      exact issuerAt_eq_some.mpr ⟨value, hfound, hissues⟩
    · have hplaced : key ∉ rows.map Prod.fst := by
        intro hplaced
        obtain ⟨placed, hrow, rfl⟩ := List.mem_map.mp hplaced
        have hissues := (happlies.replaced placed hrow row hbefore).resolve_left hkey
        exact happlies.ne_new hbacked hkey hbefore row.2
          (happlies.new_of_row hrow hissues)
      obtain ⟨value, hlookup, hissues⟩ := issuerAt_eq_some.mp hbefore
      refine issuerAt_eq_some.mpr ⟨value, ?_, hissues⟩
      rw [Journal.lookup_insertAll_of_notMem hplaced, Journal.lookup_eraseAll, if_neg hkey,
        hlookup]

theorem Applies.holdings_le (id : ι) :
    holdings (issuance.claim id) (Journal.insertAll rows (Journal.eraseAll keys column)) +
        total (issuance.claim id) consumed ≤
      holdings (issuance.claim id) column + total (issuance.claim id) created := by
  have hspent : total (worthAt (issuance.claim id) column) keys =
      total (issuance.claim id) consumed := by
    have hworth := congrArg (List.map fun found => found.elim 0 (issuance.claim id))
      happlies.consumed
    rw [List.map_map, List.map_map] at hworth
    exact congrArg List.sum hworth
  have hstored : total (fun row : κ × ν => issuance.claim id row.2) rows =
      total (issuance.claim id) created := by
    rw [← happlies.created, total, total, List.map_map]
    rfl
  have herase := holdings_eraseAll (issuance.claim id) happlies.distinct column
  have hinsert := holdings_insertAll_le (issuance.claim id) rows
    (Journal.eraseAll keys column)
  omega

theorem Backed.change (hbacked : issuance.Backed column) :
    issuance.Backed (Journal.insertAll rows (Journal.eraseAll keys column)) := by
  constructor
  case unique =>
    intro key other id count found hkey hother
    rcases (happlies.issuerAt_after hbacked).mp hkey with ⟨value, hrow, hissues, hnew⟩ | ⟨hkept, hbefore⟩
    · rcases (happlies.issuerAt_after hbacked).mp hother with
        ⟨value', hrow', hissues', -⟩ | ⟨hkept, hbefore⟩
      · have hsame := eq_of_filterMap_toList happlies.filterMap_rows hrow hrow' (by simp [hissues])
          (by simp [hissues'])
        exact congrArg Prod.fst hsame
      · exact absurd hnew (happlies.ne_new hbacked hkept hbefore count)
    · rcases (happlies.issuerAt_after hbacked).mp hother with ⟨value, hrow, hissues, hnew⟩ | ⟨-, hbefore'⟩
      · exact absurd hnew (happlies.ne_new hbacked hkept hbefore found)
      · exact hbacked.unique key other id count found hbefore hbefore'
  case backed =>
    intro key id count hkey
    have hholds := happlies.holdings_le id
    rcases (happlies.issuerAt_after hbacked).mp hkey with ⟨-, -, -, hnew⟩ | ⟨hkept, hbefore⟩
    · cases hold : old with
      | none =>
          have hzero := hbacked.unbacked id (happlies.founds hold id count hnew)
          have hfounded := happlies.change.founded hold id count hnew
          omega
      | some row =>
          obtain ⟨moved, before⟩ := row
          obtain ⟨next, hmoved, hcount⟩ := happlies.change.moved moved before hold
          rw [hnew] at hmoved
          cases hmoved
          obtain ⟨other, -, hat⟩ := happlies.old_at hold
          have hbefore := hbacked.backed other id before hat
          omega
    · have hcovered := happlies.change.covered id (happlies.ne_new hbacked hkept hbefore)
      have hfirst := hbacked.backed key id count hbefore
      omega
  case unbacked =>
    intro id habsent
    have hnotNew : ∀ count, new ≠ some (id, count) := by
      intro count hnew
      have hmem : (id, count) ∈ rows.filterMap fun row => issuance.issuer row.2 := by
        simp [happlies.filterMap_rows, hnew]
      obtain ⟨⟨key, value⟩, hrow, hissues⟩ := List.mem_filterMap.mp hmem
      exact habsent key count ((happlies.issuerAt_after hbacked).mpr (.inl ⟨value, hrow, hissues, hnew⟩))
    have hbefore : ∀ key count, issuance.issuerAt column key ≠ some (id, count) := by
      intro key count hissuer
      by_cases hkey : key ∈ keys
      · obtain ⟨next, hnew, -⟩ :=
          happlies.change.moved id count (happlies.old_of_consumed hkey hissuer)
        exact hnotNew next hnew
      · exact habsent key count ((happlies.issuerAt_after hbacked).mpr (.inr ⟨hkey, hissuer⟩))
    have hzero := hbacked.unbacked id hbefore
    have hcovered := happlies.change.covered id hnotNew
    have hholds := happlies.holdings_le id
    omega

end Applies

end Issuance

end Doli.Lib
