import Mathlib.Data.List.Lex
import Mathlib.Order.Lattice
import Doli.Lib.Bytes

/-!
# Reading ordered rows in chunks

Rows with byte images, in strictly ascending order of their keys, are read in
chunks of a byte budget.  A chunk ends before the first row that would exceed
the budget, the first row of a chunk excepted, and hands out the key of the next
row.  Whoever follows these keys from the start reads every row exactly once.
-/

namespace Doli.Lib

/-! ## Byte strings in lexicographic order -/

structure ByteKey where
  bytes : Bytes
  deriving DecidableEq, Repr

def ByteKey.digits (key : ByteKey) : List Nat := key.bytes.map UInt8.toNat

theorem ByteKey.digits_injective : Function.Injective ByteKey.digits := by
  rintro ⟨first⟩ ⟨second⟩ hdigits
  have hbytes : first = second :=
    List.map_injective_iff.mpr (fun _ _ => UInt8.toNat.inj) hdigits
  rw [hbytes]

instance : LinearOrder ByteKey := LinearOrder.lift' ByteKey.digits ByteKey.digits_injective

/-! ## The reader -/

variable {κ : Type}

def rowsFrom [LinearOrder κ] (rows : List (κ × Bytes)) (start : Option κ) : List (κ × Bytes) :=
  rows.filter fun row => start.all fun cursor => decide (cursor ≤ row.1)

def readRows (maxBytes : Nat) : List (κ × Bytes) → Bytes → Bytes × Option κ
  | [], body => (body, none)
  | row :: rows, body =>
      if body ≠ [] ∧ maxBytes < body.length + row.2.length then (body, some row.1)
      else readRows maxBytes rows (body ++ row.2)

def readRange [LinearOrder κ] (rows : List (κ × Bytes)) (start : Option κ) (maxBytes : Nat) :
    Bytes × Option κ :=
  readRows maxBytes (rowsFrom rows start) []

/-- The image of all rows. -/
def rowsImage (rows : List (κ × Bytes)) : Bytes := (rows.map Prod.snd).flatten

/-- The chunks that a reader with these budgets gets, until no key is left. -/
inductive Follows (read : Option κ → Nat → Bytes × Option κ) :
    Option κ → List Nat → List Bytes → Prop
  | last {start : Option κ} {budget : Nat} {chunk : Bytes}
      (hread : read start budget = (chunk, none)) :
      Follows read start [budget] [chunk]
  | next {start : Option κ} {budget : Nat} {chunk : Bytes} {cursor : κ}
      {budgets : List Nat} {chunks : List Bytes}
      (hread : read start budget = (chunk, some cursor))
      (hrest : Follows read (some cursor) budgets chunks) :
      Follows read start (budget :: budgets) (chunk :: chunks)

theorem rowsFrom_none [LinearOrder κ] (rows : List (κ × Bytes)) : rowsFrom rows none = rows :=
  List.filter_eq_self.mpr fun _ _ => rfl

/-! ## One chunk -/

theorem readRows_eq (maxBytes : Nat) (rows : List (κ × Bytes)) (body : Bytes) :
    ∃ done rest, rows = done ++ rest ∧
      readRows maxBytes rows body = (body ++ rowsImage done, rest.head?.map Prod.fst) ∧
      (body = [] → rows ≠ [] → done ≠ []) := by
  induction rows generalizing body with
  | nil => exact ⟨[], [], rfl, by simp [readRows, rowsImage], by simp⟩
  | cons row rows ih =>
      unfold readRows
      split
      case isTrue hstop =>
        refine ⟨[], row :: rows, rfl, by simp [rowsImage], fun hempty => ?_⟩
        exact absurd hempty hstop.1
      case isFalse =>
        obtain ⟨done, rest, hrows, hread, -⟩ := ih (body ++ row.2)
        refine ⟨row :: done, rest, by simp [hrows], ?_, by simp⟩
        rw [hread]
        simp [rowsImage, List.append_assoc]

section Sorted

variable [LinearOrder κ] {rows : List (κ × Bytes)} (hsorted : rows.Pairwise fun left right =>
  left.1 < right.1)
include hsorted

theorem rowsFrom_cursor {start : Option κ} {done rest : List (κ × Bytes)}
    {row : κ × Bytes} (hrows : rowsFrom rows start = done ++ row :: rest) :
    rowsFrom rows (some row.1) = row :: rest := by
  have hfrom : (rowsFrom rows start).Pairwise fun left right => left.1 < right.1 :=
    hsorted.filter _
  rw [hrows, List.pairwise_append, List.pairwise_cons] at hfrom
  obtain ⟨-, ⟨hafter, -⟩, hbefore⟩ := hfrom
  have hstart : ∀ other ∈ rows, row.1 ≤ other.1 →
      start.all (fun cursor => decide (cursor ≤ other.1)) = true := by
    intro other _ hle
    have hrow : row ∈ rowsFrom rows start := by simp [hrows]
    have hreached := (List.mem_filter.mp hrow).2
    cases start with
    | none => rfl
    | some cursor =>
        simp only [Option.all_some, decide_eq_true_eq] at hreached ⊢
        exact hreached.trans hle
  have hsame : rowsFrom rows (some row.1) =
      (rowsFrom rows start).filter fun other => decide (row.1 ≤ other.1) := by
    unfold rowsFrom
    rw [List.filter_filter]
    refine List.filter_congr fun other hother => ?_
    rw [Bool.eq_iff_iff]
    simp only [Option.all_some, Bool.and_eq_true, decide_eq_true_eq]
    exact ⟨fun hle => ⟨hle, hstart other hother hle⟩, fun hboth => hboth.1⟩
  rw [hsame, hrows, List.filter_append, List.filter_cons_of_pos (by simp)]
  have hdone : (done.filter fun other => decide (row.1 ≤ other.1)) = [] := by
    refine List.filter_eq_nil_iff.mpr fun other hother hle => ?_
    exact absurd (of_decide_eq_true hle)
      (not_le.mpr (hbefore other hother row List.mem_cons_self))
  have hrest : (rest.filter fun other => decide (row.1 ≤ other.1)) = rest :=
    List.filter_eq_self.mpr fun other hother =>
      decide_eq_true (hafter other hother).le
  rw [hdone, hrest, List.nil_append]

theorem readRange_eq (start : Option κ) (maxBytes : Nat) :
    ∃ done, (rowsFrom rows start ≠ [] → done ≠ []) ∧
      (readRange rows start maxBytes = (rowsImage done, none) ∧
          rowsFrom rows start = done ∨
        ∃ cursor, readRange rows start maxBytes = (rowsImage done, some cursor) ∧
          rowsFrom rows start = done ++ rowsFrom rows (some cursor) ∧
          rowsFrom rows (some cursor) ≠ []) := by
  obtain ⟨done, rest, hrows, hread, hsome⟩ :=
    readRows_eq maxBytes (rowsFrom rows start) []
  refine ⟨done, hsome rfl, ?_⟩
  cases rest with
  | nil => exact .inl ⟨hread, by simpa using hrows⟩
  | cons row rest =>
      have hcursor := rowsFrom_cursor hsorted hrows
      refine .inr ⟨row.1, hread, ?_, ?_⟩
      · rw [hcursor, hrows]
      · simp [hcursor]

/-! ## All chunks -/

theorem Follows.flatten {start : Option κ} {budgets : List Nat} {chunks : List Bytes}
    (hfollows : Follows (readRange rows) start budgets chunks) :
    chunks.flatten = rowsImage (rowsFrom rows start) := by
  induction hfollows with
  | last hread =>
      rename_i start budget chunk
      obtain ⟨done, -, ⟨hchunk, hrows⟩ | ⟨cursor, hchunk, -⟩⟩ :=
        readRange_eq hsorted start budget
      · rw [hread] at hchunk
        simp [(Prod.mk.inj hchunk).1, hrows]
      · rw [hread] at hchunk
        simp at hchunk
  | next hread hrest ih =>
      rename_i start budget chunk cursor budgets chunks
      obtain ⟨done, -, ⟨hchunk, -⟩ | ⟨other, hchunk, hrows, -⟩⟩ :=
        readRange_eq hsorted start budget
      · rw [hread] at hchunk
        simp at hchunk
      · rw [hread] at hchunk
        obtain ⟨rfl, hcursor⟩ := Prod.mk.inj hchunk
        obtain rfl := Option.some.inj hcursor
        rw [List.flatten_cons, ih, hrows]
        simp [rowsImage]

theorem Follows.progress (hbytes : ∀ row ∈ rows, row.2 ≠ []) {start : Option κ}
    {budgets : List Nat} {chunks : List Bytes}
    (hfollows : Follows (readRange rows) start budgets chunks) (hsome : rowsFrom rows start ≠ []) :
    ∀ chunk ∈ chunks, chunk ≠ [] := by
  have himage : ∀ (start : Option κ) (done rest : List (κ × Bytes)),
      rowsFrom rows start = done ++ rest → done ≠ [] → rowsImage done ≠ [] := by
    intro start done rest hrows hdone
    cases done with
    | nil => exact absurd rfl hdone
    | cons row done =>
        have hrow : row ∈ rows := by
          have hmem : row ∈ rowsFrom rows start := by simp [hrows]
          exact (List.mem_filter.mp hmem).1
        simp [rowsImage, hbytes row hrow]
  induction hfollows with
  | last hread =>
      rename_i start budget chunk
      obtain ⟨done, hdone, ⟨hchunk, hrows⟩ | ⟨cursor, hchunk, -⟩⟩ :=
        readRange_eq hsorted start budget
      · rw [hread] at hchunk
        obtain rfl := (Prod.mk.inj hchunk).1
        simpa using himage start done [] (by simpa using hrows) (hdone hsome)
      · rw [hread] at hchunk
        simp at hchunk
  | next hread hrest ih =>
      rename_i start budget chunk cursor budgets chunks
      obtain ⟨done, hdone, ⟨hchunk, -⟩ | ⟨other, hchunk, hrows, hleft⟩⟩ :=
        readRange_eq hsorted start budget
      · rw [hread] at hchunk
        simp at hchunk
      · rw [hread] at hchunk
        obtain ⟨rfl, hcursor⟩ := Prod.mk.inj hchunk
        obtain rfl := Option.some.inj hcursor
        intro other hother
        rcases List.mem_cons.mp hother with rfl | hother
        · exact himage _ _ _ hrows (hdone hsome)
        · exact ih hleft other hother

/-- Whatever the budgets, the reader comes to the end: a chunk takes at least a
row. -/
theorem exists_follows (budget : Nat → Nat) (start : Option κ) :
    ∃ count chunks, count ≤ (rowsFrom rows start).length + 1 ∧
      Follows (readRange rows) start ((List.range count).map budget) chunks := by
  suffices hgen : ∀ size start (budget : Nat → Nat), (rowsFrom rows start).length = size →
      ∃ count chunks, count ≤ size + 1 ∧
        Follows (readRange rows) start ((List.range count).map budget) chunks from
    hgen _ start budget rfl
  intro size
  induction size using Nat.strong_induction_on with
  | h size ih =>
      intro start budget hsize
      obtain ⟨done, hdone, ⟨hchunk, -⟩ | ⟨cursor, hchunk, hrows, hleft⟩⟩ :=
        readRange_eq hsorted start (budget 0)
      · exact ⟨1, [_], by omega, .last hchunk⟩
      · have hshorter : (rowsFrom rows (some cursor)).length < size := by
          have hlength := congrArg List.length hrows
          have hsome : rowsFrom rows start ≠ [] := by simp [hrows, hleft]
          have hpos := List.length_pos_iff.mpr (hdone hsome)
          rw [List.length_append] at hlength
          omega
        obtain ⟨count, chunks, hcount, hfollows⟩ :=
          ih _ hshorter (some cursor) (fun index => budget (index + 1)) rfl
        refine ⟨count + 1, rowsImage done :: chunks, by omega, ?_⟩
        rw [List.range_succ_eq_map, List.map_cons, List.map_map]
        exact .next hchunk hfollows

end Sorted

end Doli.Lib
