import Mathlib.Data.Finmap

/-!
# Columns, write batches and undo journals

A column is a finite map.  A write batch is a list of puts and deletes that a
commit applies in order.  An undo journal lists the keys a batch created and
the rows it removed; restoring erases the former and puts the latter back.
-/

namespace Doli.Lib

abbrev Column (κ ν : Type) := Finmap fun _ : κ => ν

inductive WriteOp (κ ν : Type) where
  | put (key : κ) (value : ν)
  | delete (key : κ)
  deriving DecidableEq, Repr

namespace WriteOp

variable {κ ν : Type}

def key : WriteOp κ ν → κ
  | .put key _ => key
  | .delete key => key

def apply [DecidableEq κ] (column : Column κ ν) : WriteOp κ ν → Column κ ν
  | .put key value => column.insert key value
  | .delete key => column.erase key

/-- The same operation on a set of keys; the value is ignored. -/
def applySet [DecidableEq κ] (keys : Finset κ) : WriteOp κ ν → Finset κ
  | .put key _ => insert key keys
  | .delete key => keys.erase key

/-- The same operation on an enumeration of keys without repeats. -/
def applyRows [DecidableEq κ] (rows : List κ) : WriteOp κ ν → List κ
  | .put key _ => if key ∈ rows then rows else rows ++ [key]
  | .delete key => rows.filter (· ≠ key)

end WriteOp

theorem foldl_or {α : Type} (test : α → Bool) (rows : List α) (found : Bool) :
    rows.foldl (fun found row => found || test row) found = (found || rows.any test) := by
  induction rows generalizing found with
  | nil => simp
  | cons row rows ih => rw [List.foldl_cons, ih, List.any_cons, Bool.or_assoc]

variable {κ ν : Type} [DecidableEq κ]

theorem keys_insert (column : Column κ ν) (key : κ) (value : ν) :
    (column.insert key value).keys = insert key column.keys := by
  ext other
  rw [Finmap.mem_keys, Finmap.mem_insert, Finset.mem_insert, Finmap.mem_keys]

def commit (ops : List (WriteOp κ ν)) (column : Column κ ν) : Column κ ν :=
  ops.foldl WriteOp.apply column

def commitSet (ops : List (WriteOp κ ν)) (keys : Finset κ) : Finset κ :=
  ops.foldl WriteOp.applySet keys

def commitRows (ops : List (WriteOp κ ν)) (rows : List κ) : List κ :=
  ops.foldl WriteOp.applyRows rows

@[simp] theorem commit_nil (column : Column κ ν) : commit [] column = column :=
  rfl

theorem commit_append (first second : List (WriteOp κ ν))
    (column : Column κ ν) :
    commit (first ++ second) column = commit second (commit first column) := by
  simp [commit]

@[simp] theorem commit_put (ops : List (WriteOp κ ν)) (key : κ) (value : ν)
    (column : Column κ ν) :
    commit (ops ++ [.put key value]) column =
      (commit ops column).insert key value := by
  simp [commit, WriteOp.apply]

@[simp] theorem commit_delete (ops : List (WriteOp κ ν)) (key : κ)
    (column : Column κ ν) :
    commit (ops ++ [.delete key]) column = (commit ops column).erase key := by
  simp [commit, WriteOp.apply]

@[simp] theorem commitSet_put (ops : List (WriteOp κ ν)) (key : κ) (value : ν)
    (keys : Finset κ) :
    commitSet (ops ++ [.put key value]) keys =
      insert key (commitSet ops keys) := by
  simp [commitSet, WriteOp.applySet]

@[simp] theorem commitSet_delete (ops : List (WriteOp κ ν)) (key : κ)
    (keys : Finset κ) :
    commitSet (ops ++ [.delete key]) keys = (commitSet ops keys).erase key := by
  simp [commitSet, WriteOp.applySet]

theorem mem_commitSet_of_notMem {ops : List (WriteOp κ ν)} {key : κ}
    (hkey : key ∉ ops.map WriteOp.key) (keys : Finset κ) :
    key ∈ commitSet ops keys ↔ key ∈ keys := by
  induction ops generalizing keys with
  | nil => rfl
  | cons op ops ih =>
      simp only [List.map_cons, List.mem_cons, not_or] at hkey
      change key ∈ commitSet ops (op.applySet keys) ↔ _
      rw [ih hkey.2]
      cases op with
      | put other value =>
          have hother : key ≠ other := hkey.1
          simp [WriteOp.applySet, hother]
      | delete other =>
          have hother : key ≠ other := hkey.1
          simp [WriteOp.applySet, hother]

theorem mem_commitSet_congr {ops : List (WriteOp κ ν)} {key : κ}
    (hkey : key ∈ ops.map WriteOp.key) (keys others : Finset κ) :
    key ∈ commitSet ops keys ↔ key ∈ commitSet ops others := by
  induction ops generalizing keys others with
  | nil => simp at hkey
  | cons op ops ih =>
      change key ∈ commitSet ops (op.applySet keys) ↔
        key ∈ commitSet ops (op.applySet others)
      by_cases htail : key ∈ ops.map WriteOp.key
      · exact ih htail _ _
      · have hhead : key = op.key := by
          simpa [htail] using hkey
        rw [mem_commitSet_of_notMem htail, mem_commitSet_of_notMem htail, hhead]
        cases op <;> simp [WriteOp.applySet, WriteOp.key]

theorem commitSet_idem (ops : List (WriteOp κ ν)) (keys : Finset κ) :
    commitSet ops (commitSet ops keys) = commitSet ops keys := by
  ext key
  by_cases hkey : key ∈ ops.map WriteOp.key
  · exact mem_commitSet_congr hkey _ _
  · exact mem_commitSet_of_notMem hkey _

theorem WriteOp.mem_applyRows_put {rows : List κ} {key other : κ} {value : ν} :
    other ∈ (WriteOp.put key value).applyRows rows ↔
      other ∈ rows ∨ other = key := by
  change other ∈ (if key ∈ rows then rows else rows ++ [key]) ↔ _
  split
  case isTrue hkey =>
    constructor
    · exact Or.inl
    · rintro (hother | rfl)
      · exact hother
      · exact hkey
  · simp

theorem WriteOp.nodup_applyRows_put {rows : List κ} (hnodup : rows.Nodup)
    (key : κ) (value : ν) : ((WriteOp.put key value).applyRows rows).Nodup := by
  change (if key ∈ rows then rows else rows ++ [key]).Nodup
  split
  · exact hnodup
  case isFalse hkey =>
    refine List.Nodup.append hnodup (List.nodup_singleton _) ?_
    simpa using hkey

/-! ## Copying rows -/

theorem lookup_singleton_eq_some {key other : κ} {value found : ν} :
    (Finmap.singleton key value : Column κ ν).lookup other = some found ↔
      other = key ∧ found = value := by
  constructor
  · intro hlookup
    have hmem := Finmap.mem_of_lookup_eq_some hlookup
    obtain rfl := (Finmap.mem_singleton other key value).mp hmem
    rw [Finmap.lookup_singleton_eq] at hlookup
    exact ⟨rfl, (Option.some.inj hlookup).symm⟩
  · rintro ⟨rfl, rfl⟩
    exact Finmap.lookup_singleton_eq

theorem any_eq_true {column : Column κ ν} {test : κ → ν → Bool} :
    column.any test = true ↔
      ∃ key value, column.lookup key = some value ∧ test key value = true := by
  induction column using Finmap.induction_on with
  | H rows =>
      have hany : rows.toFinmap.any test =
          rows.entries.any fun row => test row.1 row.2 :=
        foldl_or (fun row : Σ _ : κ, ν => test row.1 row.2) rows.entries false
      rw [hany, List.any_eq_true]
      constructor
      · rintro ⟨⟨key, value⟩, hmem, htest⟩
        refine ⟨key, value, ?_, htest⟩
        rw [Finmap.lookup_toFinmap]
        exact AList.mem_lookup_iff.mpr hmem
      · rintro ⟨key, value, hlookup, htest⟩
        rw [Finmap.lookup_toFinmap] at hlookup
        exact ⟨⟨key, value⟩, AList.mem_lookup_iff.mp hlookup, htest⟩

theorem insert_eq_self_iff {column : Column κ ν} {key : κ} {value : ν} :
    column.insert key value = column ↔ column.lookup key = some value := by
  constructor
  · intro hinsert
    rw [← hinsert, Finmap.lookup_insert]
  · intro hlookup
    refine Finmap.ext_lookup fun other => ?_
    by_cases hother : other = key
    · rw [hother, Finmap.lookup_insert, hlookup]
    · rw [Finmap.lookup_insert_of_ne _ hother]

theorem lookup_commit_of_put {ops : List (WriteOp κ ν)} {key : κ} {value : ν}
    (hops : ∀ op ∈ ops, op.key = key → op = .put key value) (column : Column κ ν) :
    (commit ops column).lookup key = some value ∨
      (commit ops column).lookup key = column.lookup key := by
  induction ops generalizing column with
  | nil => exact .inr rfl
  | cons op ops ih =>
      have hrest := ih (fun other hother => hops other (List.mem_cons_of_mem _ hother))
        (op.apply column)
      by_cases hkey : op.key = key
      · have hput := hops op List.mem_cons_self hkey
        subst hput
        left
        rcases hrest with hvalue | hkept
        · exact hvalue
        · exact hkept.trans (Finmap.lookup_insert column)
      · refine hrest.imp id fun hkept => hkept.trans ?_
        cases op with
        | put other value => exact Finmap.lookup_insert_of_ne _ (Ne.symm hkey)
        | delete other => exact Finmap.lookup_erase_ne (Ne.symm hkey)

theorem lookup_commit_rows_of_notMem {rows : List (κ × ν)} {key : κ}
    (hkey : ∀ row ∈ rows, row.1 ≠ key) (column : Column κ ν) :
    (commit (rows.map fun row => .put row.1 row.2) column).lookup key =
      column.lookup key := by
  induction rows generalizing column with
  | nil => rfl
  | cons row rows ih =>
      change (commit (rows.map fun row => .put row.1 row.2)
        (column.insert row.1 row.2)).lookup key = _
      rw [ih fun other hother => hkey other (List.mem_cons_of_mem _ hother)]
      exact Finmap.lookup_insert_of_ne _ (hkey row List.mem_cons_self).symm

theorem lookup_commit_rows_of_mem {rows : List (κ × ν)} {key : κ} {value : ν}
    (hmem : (key, value) ∈ rows)
    (hunique : ∀ other, (key, other) ∈ rows → other = value) (column : Column κ ν) :
    (commit (rows.map fun row => .put row.1 row.2) column).lookup key = some value := by
  induction rows generalizing column with
  | nil => simp at hmem
  | cons row rows ih =>
      change (commit (rows.map fun row => .put row.1 row.2)
        (column.insert row.1 row.2)).lookup key = _
      by_cases hrest : (key, value) ∈ rows
      · exact ih hrest (fun other hother => hunique other (List.mem_cons_of_mem _ hother)) _
      · obtain rfl : (key, value) = row :=
          (List.mem_cons.mp hmem).resolve_right hrest
        rw [lookup_commit_rows_of_notMem, Finmap.lookup_insert]
        rintro ⟨other, found⟩ hother rfl
        exact hrest (hunique found (List.mem_cons_of_mem _ hother) ▸ hother)

/-- The puts that copy the rows of `source` at `keys`. -/
def puts (keys : List κ) (source : Column κ ν) : List (WriteOp κ ν) :=
  keys.filterMap fun key => (source.lookup key).map (.put key)

def deletes (keys : List κ) : List (WriteOp κ ν) := keys.map .delete

theorem lookup_commit_puts (keys : List κ) (source column : Column κ ν) (key : κ) :
    (commit (puts keys source) column).lookup key =
      if key ∈ keys then (source.lookup key).or (column.lookup key)
      else column.lookup key := by
  induction keys using List.reverseRecOn with
  | nil => simp [puts]
  | append_singleton keys last ih =>
      have hsplit : puts (keys ++ [last]) source =
          puts keys source ++ puts [last] source := by
        simp [puts]
      rw [hsplit, commit_append]
      cases hlast : source.lookup last with
      | none =>
          have hnone : puts [last] source = [] := by simp [puts, hlast]
          rw [hnone, commit_nil, ih]
          by_cases hkey : key = last
          · subst hkey
            simp [hlast]
          · simp [hkey]
      | some value =>
          have hput : puts [last] source = [.put last value] := by
            simp [puts, hlast]
          rw [hput]
          change ((commit (puts keys source) column).insert last value).lookup key = _
          by_cases hkey : key = last
          · subst hkey
            simp [hlast]
          · rw [Finmap.lookup_insert_of_ne _ hkey, ih]
            simp [hkey]

theorem lookup_commit_deletes (keys : List κ) (column : Column κ ν) (key : κ) :
    (commit (deletes keys) column).lookup key =
      if key ∈ keys then none else column.lookup key := by
  induction keys generalizing column with
  | nil => simp [deletes]
  | cons first keys ih =>
      change (commit (deletes keys) (column.erase first)).lookup key = _
      rw [ih]
      by_cases hfirst : key = first
      · subst hfirst
        simp
      · rw [Finmap.lookup_erase_ne hfirst]
        simp [hfirst]

theorem commit_replace {stale keys : List κ} {source column : Column κ ν}
    (hstale : ∀ key, (column.lookup key).isSome → key ∈ stale)
    (hkeys : ∀ key, (source.lookup key).isSome → key ∈ keys) :
    commit (deletes stale ++ puts keys source) column = source := by
  refine Finmap.ext_lookup fun key => ?_
  rw [commit_append, lookup_commit_puts, lookup_commit_deletes]
  have hstale := hstale key
  have hkeys := hkeys key
  cases hsource : source.lookup key with
  | some value =>
      have hkey : key ∈ keys := hkeys (by simp [hsource])
      simp [hkey]
  | none =>
      cases hcolumn : column.lookup key with
      | none => simp
      | some value =>
          have hkey : key ∈ stale := hstale (by simp [hcolumn])
          simp [hkey]

/-! ## Undo journals -/

structure Journal (κ ν : Type) where
  created : List κ
  spent : List (κ × ν)
  deriving Repr

namespace Journal

def spentKeys (journal : Journal κ ν) : List κ :=
  journal.spent.map Prod.fst

def eraseAll (keys : List κ) (column : Column κ ν) : Column κ ν :=
  keys.foldl (fun column key => column.erase key) column

def insertAll (rows : List (κ × ν)) (column : Column κ ν) : Column κ ν :=
  rows.foldl (fun column row => column.insert row.1 row.2) column

def restore (journal : Journal κ ν) (column : Column κ ν) : Column κ ν :=
  insertAll journal.spent (eraseAll journal.created column)

theorem lookup_eraseAll (keys : List κ) (column : Column κ ν) (key : κ) :
    (eraseAll keys column).lookup key =
      if key ∈ keys then none else column.lookup key := by
  induction keys generalizing column with
  | nil => simp [eraseAll]
  | cons head tail ih =>
      change (eraseAll tail (column.erase head)).lookup key = _
      rw [ih]
      by_cases htail : key ∈ tail
      · simp [htail]
      · by_cases hhead : key = head
        · subst hhead
          simp
        · simp [htail, hhead, Finmap.lookup_erase_ne hhead]

theorem mem_eraseAll {keys : List κ} {column : Column κ ν} {key : κ} :
    key ∈ eraseAll keys column ↔ key ∈ column ∧ key ∉ keys := by
  rw [← Finmap.lookup_isSome, lookup_eraseAll]
  split
  case isTrue hkey => simp [hkey]
  case isFalse hkey => simp [hkey, Finmap.lookup_isSome]

theorem lookup_insertAll_of_notMem {rows : List (κ × ν)} {key : κ}
    (hkey : key ∉ rows.map Prod.fst) (column : Column κ ν) :
    (insertAll rows column).lookup key = column.lookup key := by
  induction rows generalizing column with
  | nil => rfl
  | cons row rows ih =>
      simp only [List.map_cons, List.mem_cons, not_or] at hkey
      change (insertAll rows (column.insert row.1 row.2)).lookup key = _
      rw [ih hkey.2, Finmap.lookup_insert_of_ne _ hkey.1]

theorem lookup_insertAll_of_mem {rows : List (κ × ν)} {key : κ}
    (hkey : key ∈ rows.map Prod.fst) (column : Column κ ν) :
    ∃ value, (key, value) ∈ rows ∧
      (insertAll rows column).lookup key = some value := by
  induction rows generalizing column with
  | nil => simp at hkey
  | cons row rows ih =>
      change ∃ value, _ ∧
        (insertAll rows (column.insert row.1 row.2)).lookup key = some value
      by_cases htail : key ∈ rows.map Prod.fst
      · obtain ⟨value, hmem, hlookup⟩ := ih htail (column.insert row.1 row.2)
        exact ⟨value, List.mem_cons_of_mem _ hmem, hlookup⟩
      · have hhead : key = row.1 := by
          simpa [htail] using hkey
        subst hhead
        refine ⟨row.2, List.mem_cons_self, ?_⟩
        rw [lookup_insertAll_of_notMem htail, Finmap.lookup_insert]

theorem eraseAll_congr {keys others : List κ} {column : Column κ ν}
    (hkeys : ∀ key value, column.lookup key = some value →
      (key ∈ keys ↔ key ∈ others)) :
    eraseAll keys column = eraseAll others column := by
  refine Finmap.ext_lookup fun key => ?_
  rw [lookup_eraseAll, lookup_eraseAll]
  cases hlookup : column.lookup key with
  | none => simp
  | some value => simp only [hkeys key value hlookup]

theorem eraseAll_insertAll {keys : List κ} {rows : List (κ × ν)}
    (hdisjoint : ∀ key ∈ keys, key ∉ rows.map Prod.fst) (column : Column κ ν) :
    eraseAll keys (insertAll rows column) =
      insertAll rows (eraseAll keys column) := by
  induction rows generalizing column with
  | nil => rfl
  | cons row rows ih =>
      have hrest : ∀ key ∈ keys, key ∉ rows.map Prod.fst := fun key hkey hmem =>
        hdisjoint key hkey (List.mem_cons_of_mem _ hmem)
      have hinsert : eraseAll keys (column.insert row.1 row.2) =
          (eraseAll keys column).insert row.1 row.2 := by
        refine Finmap.ext_lookup fun key => ?_
        rw [lookup_eraseAll]
        by_cases hhead : key = row.1
        · subst hhead
          have hout : row.1 ∉ keys := fun hkey =>
            hdisjoint row.1 hkey List.mem_cons_self
          rw [if_neg hout, Finmap.lookup_insert, Finmap.lookup_insert]
        · rw [Finmap.lookup_insert_of_ne _ hhead, Finmap.lookup_insert_of_ne _ hhead,
            lookup_eraseAll]
      calc eraseAll keys (insertAll (row :: rows) column)
          = eraseAll keys (insertAll rows (column.insert row.1 row.2)) := rfl
        _ = insertAll rows (eraseAll keys (column.insert row.1 row.2)) := ih hrest _
        _ = insertAll (row :: rows) (eraseAll keys column) := by rw [hinsert]; rfl

theorem eraseAll_append (first second : List κ) (column : Column κ ν) :
    eraseAll (first ++ second) column = eraseAll second (eraseAll first column) :=
  List.foldl_append

/-- Rows outside the journal are the same in both columns. -/
def Covers (journal : Journal κ ν) (before after : Column κ ν) : Prop :=
  ∀ key, key ∉ journal.created → key ∉ journal.spentKeys →
    after.lookup key = before.lookup key

theorem lookup_restore_of_mem {journal : Journal κ ν} {key : κ}
    (hkey : key ∈ journal.spentKeys) (after : Column κ ν) :
    ∃ value, (key, value) ∈ journal.spent ∧
      (journal.restore after).lookup key = some value :=
  lookup_insertAll_of_mem hkey _

theorem lookup_restore_of_notMem {journal : Journal κ ν}
    {before after : Column κ ν} (hcovers : journal.Covers before after)
    (hcreated : ∀ key ∈ journal.created, key ∉ journal.spentKeys →
      before.lookup key = none) {key : κ} (hkey : key ∉ journal.spentKeys) :
    (journal.restore after).lookup key = before.lookup key := by
  rw [restore, lookup_insertAll_of_notMem hkey, lookup_eraseAll]
  by_cases hnew : key ∈ journal.created
  · rw [if_pos hnew, hcreated key hnew hkey]
  · rw [if_neg hnew, hcovers key hnew hkey]

/-- Restoring gives back the column before when every recorded row stood in
it and no other created key did. -/
theorem restore_eq {journal : Journal κ ν} {before after : Column κ ν}
    (hcovers : journal.Covers before after)
    (hspent : ∀ row ∈ journal.spent, before.lookup row.1 = some row.2)
    (hcreated : ∀ key ∈ journal.created, key ∉ journal.spentKeys →
      before.lookup key = none) :
    journal.restore after = before := by
  refine Finmap.ext_lookup fun key => ?_
  by_cases hkey : key ∈ journal.spentKeys
  · obtain ⟨value, hmem, hlookup⟩ := lookup_restore_of_mem hkey after
    rw [hlookup, hspent _ hmem]
  · exact lookup_restore_of_notMem hcovers hcreated hkey

theorem restore_ne {journal : Journal κ ν} {before after : Column κ ν}
    {key : κ} (hkey : key ∈ journal.spentKeys)
    (hbefore : before.lookup key = none) :
    journal.restore after ≠ before := by
  intro hrestore
  obtain ⟨value, -, hlookup⟩ := lookup_restore_of_mem hkey after
  rw [← hrestore, hlookup] at hbefore
  contradiction

end Journal

end Doli.Lib

/-!
## Where the rows of a column come from

Events that each write at most one row of a column, which otherwise only loses rows.  A
row that a run leaves there was written by the last event of the run that wrote its key,
and it says what that event met.
-/

namespace Doli.Lib

variable {σ ε κ ν : Type}

/-- A state with a column in it, and the row that an event writes to it. -/
structure Recorder (σ ε κ ν : Type) where
  step : σ → ε → σ
  column : σ → Column κ ν
  wrote : σ → ε → Option (κ × ν)

namespace Recorder

variable (recorder : Recorder σ ε κ ν)

def reach (start : σ) (events : List ε) : σ := events.foldl recorder.step start

def Writes (state : σ) (event : ε) (key : κ) : Prop :=
  ∃ value, recorder.wrote state event = some (key, value)

/-- The last event of a run that wrote `key`, after the events `done`. -/
structure LastWrite (start : σ) (events : List ε) (key : κ) (value : ν)
    (done : List ε) (event : ε) (rest : List ε) : Prop where
  split : events = done ++ event :: rest
  wrote : recorder.wrote (recorder.reach start done) event = some (key, value)
  last : ∀ between later tail, rest = between ++ later :: tail →
    ¬recorder.Writes (recorder.reach start (done ++ event :: between)) later key

/-- After an event the column holds its row and rows that it held before. -/
def OnlyLoses [DecidableEq κ] : Prop :=
  ∀ state event key value,
    (recorder.column (recorder.step state event)).lookup key = some value →
      recorder.wrote state event = some (key, value) ∨
        (recorder.column state).lookup key = some value ∧
          ¬recorder.Writes state event key

variable {recorder} {start : σ} {events : List ε} {key : κ} {value : ν}

theorem LastWrite.extend {done rest : List ε} {event next : ε}
    (hlast : recorder.LastWrite start events key value done event rest)
    (hnext : ¬recorder.Writes (recorder.reach start events) next key) :
    recorder.LastWrite start (events ++ [next]) key value done event (rest ++ [next]) where
  split := by simp [hlast.split]
  wrote := hlast.wrote
  last between later tail hrest := by
    rcases List.eq_nil_or_concat tail with rfl | ⟨front, final, rfl⟩
    · obtain ⟨rfl, hlater⟩ := List.append_inj' hrest rfl
      obtain rfl : next = later := by simpa using hlater
      rw [← hlast.split]
      exact hnext
    · rw [List.concat_eq_append, ← List.cons_append, ← List.append_assoc] at hrest
      exact hlast.last between later front (List.append_inj' hrest rfl).1

theorem lastWrite_of_lookup [DecidableEq κ] (honly : recorder.OnlyLoses)
    (hstart : recorder.column start = ∅)
    (hlookup : (recorder.column (recorder.reach start events)).lookup key = some value) :
    ∃ done event rest, recorder.LastWrite start events key value done event rest := by
  induction events using List.reverseRecOn with
  | nil =>
      change (recorder.column start).lookup key = some value at hlookup
      simp [hstart] at hlookup
  | append_singleton events next ih =>
      rw [reach, List.foldl_append] at hlookup
      rcases honly _ next key value hlookup with hwrote | ⟨hkept, hnext⟩
      · exact ⟨events, next, [], rfl, hwrote, by simp⟩
      · obtain ⟨done, event, rest, hlast⟩ := ih hkept
        exact ⟨done, event, rest ++ [next], hlast.extend hnext⟩

end Recorder

end Doli.Lib
