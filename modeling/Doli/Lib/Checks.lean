import Mathlib.Data.List.Basic

/-!
# Checks in sequence

A validator is a sequence of checks that stops at the first one refused.  It
accepts exactly when every check does, in whatever order they stand.
-/

namespace Doli.Lib

variable {α β ε : Type}

theorem bind_eq_ok {first : Except ε α} {next : α → Except ε β} {result : β} :
    (first >>= next) = .ok result ↔ ∃ value, first = .ok value ∧ next value = .ok result := by
  cases first with
  | error error => simp [Bind.bind, Except.bind]
  | ok value => simp [Bind.bind, Except.bind]

theorem exists_unit {p : Unit → Prop} : (∃ value, p value) ↔ p () :=
  ⟨fun ⟨_, hvalue⟩ => hvalue, fun hvalue => ⟨(), hvalue⟩⟩

theorem exists_eq_ok {result : Except ε α} (hok : result.isOk = true) :
    ∃ value, result = .ok value := by
  cases result with
  | error error => contradiction
  | ok value => exact ⟨value, rfl⟩

theorem seq_eq_ok {first : Except ε Unit} {next : Except ε β} {result : β} :
    (first >>= fun _ => next) = .ok result ↔ first = .ok () ∧ next = .ok result := by
  rw [bind_eq_ok, exists_unit]

theorem mapError_eq_ok {ε' : Type} {lift : ε → ε'} {verdict : Except ε Unit} :
    verdict.mapError lift = .ok () ↔ verdict = .ok () := by
  cases verdict with
  | error error => simp [Except.mapError]
  | ok value => simp [Except.mapError]

theorem map_eq_ok {verdict : Except ε Unit} {value result : α} :
    (verdict.map fun _ => value) = .ok result ↔ verdict = .ok () ∧ value = result := by
  cases verdict with
  | error error => simp [Except.map]
  | ok _ => simp [Except.map]

theorem pick_eq_ok {p : Prop} [Decidable p] {first second : Except ε α}
    {next : α → Except ε β} {result : β} :
    (if p then first >>= next else second >>= next) = .ok result ↔
      ∃ value, (if p then first else second) = .ok value ∧ next value = .ok result := by
  split
  case isTrue => exact bind_eq_ok
  case isFalse => exact bind_eq_ok

/-- Refuses with `error` when `bad` holds. -/
def refuseIf (bad : Prop) [Decidable bad] (error : ε) : Except ε Unit :=
  if bad then .error error else .ok ()

@[simp] theorem refuseIf_eq_ok {bad : Prop} [Decidable bad] {error : ε} :
    refuseIf bad error = .ok () ↔ ¬bad := by
  unfold refuseIf
  split
  case isTrue hbad => simp [hbad]
  case isFalse hgood => simp [hgood]

/-- The value, or the error that stands for its absence. -/
def orRefuse (value : Option α) (error : ε) : Except ε α :=
  value.elim (.error error) .ok

@[simp] theorem orRefuse_eq_ok {value : Option α} {error : ε} {result : α} :
    orRefuse value error = .ok result ↔ value = some result := by
  cases value with
  | none => simp [orRefuse]
  | some value => simp [orRefuse]

/-- The check, where `condition` asks for it. -/
def checkWhen (condition : Bool) (check : Except ε Unit) : Except ε Unit :=
  if condition then check else .ok ()

@[simp] theorem checkWhen_eq_ok {condition : Bool} {check : Except ε Unit} :
    checkWhen condition check = .ok () ↔ (condition = true → check = .ok ()) := by
  cases condition with
  | false => simp [checkWhen]
  | true => simp [checkWhen]

def checkEach (check : α → Except ε Unit) : List α → Except ε Unit
  | [] => .ok ()
  | item :: items => check item >>= fun _ => checkEach check items

theorem checkEach_eq_ok {check : α → Except ε Unit} {items : List α} :
    checkEach check items = .ok () ↔ ∀ item ∈ items, check item = .ok () := by
  induction items with
  | nil => simp [checkEach]
  | cons item items ih => rw [checkEach, seq_eq_ok, ih, List.forall_mem_cons]

theorem checkEach_zipIdx_ok {check : α × Nat → Except ε Unit} {items : List α} {start : Nat}
    (hok : checkEach check (items.zipIdx start) = .ok ()) {item : α} (hitem : item ∈ items) :
    ∃ position, check (item, position) = .ok () := by
  rw [← List.zipIdx_map_fst start items] at hitem
  obtain ⟨⟨item, position⟩, hrow, rfl⟩ := List.mem_map.mp hitem
  exact ⟨position, checkEach_eq_ok.mp hok _ hrow⟩

/-! ## Items with what they resolve to -/

section

variable {pick : α → Option β}

theorem mem_rows_of_zip {items : List α} (hall : ∀ item ∈ items, (pick item).isSome)
    {start : Nat} {row : (α × β) × Nat}
    (hrow : row ∈ (items.zip (items.filterMap pick)).zipIdx start) :
    (row.1.1, row.2) ∈ items.zipIdx start ∧ pick row.1.1 = some row.1.2 := by
  induction items generalizing start with
  | nil => simp at hrow
  | cons item items ih =>
      obtain ⟨value, hvalue⟩ := Option.isSome_iff_exists.mp (hall item List.mem_cons_self)
      rw [List.filterMap_cons, hvalue, List.zip_cons_cons, List.zipIdx_cons,
        List.mem_cons] at hrow
      rw [List.zipIdx_cons, List.mem_cons]
      rcases hrow with rfl | hrow
      · exact ⟨.inl rfl, hvalue⟩
      · obtain ⟨hmem, hpick⟩ := ih (fun other hother => hall other (List.mem_cons_of_mem _ hother))
          hrow
        exact ⟨.inr hmem, hpick⟩

theorem exists_row_of_mem {items : List α} (hall : ∀ item ∈ items, (pick item).isSome)
    {value : β} (hvalue : value ∈ items.filterMap pick) (start : Nat) :
    ∃ row ∈ (items.zip (items.filterMap pick)).zipIdx start, row.1.2 = value := by
  have hlength : (items.filterMap pick).length = items.length := by
    rw [List.length_filterMap_eq_countP, List.countP_eq_length]
    exact hall
  obtain ⟨index, hindex, rfl⟩ := List.mem_iff_getElem.mp hvalue
  refine ⟨((items[index], (items.filterMap pick)[index]), start + index), ?_, rfl⟩
  rw [List.mk_mem_zipIdx_iff_le_and_getElem?_sub]
  refine ⟨Nat.le_add_right _ _, ?_⟩
  rw [Nat.add_sub_cancel_left, List.getElem?_eq_some_iff]
  exact ⟨by simp [hlength]; omega, List.getElem_zip⟩

end

end Doli.Lib
