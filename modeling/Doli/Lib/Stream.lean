import Doli.Lib.Run

/-!
# Records that arrive in pieces

A reader takes the record at the head of a list, finds that the list ends inside it, or
refuses it.  What it takes or refuses does not depend on what follows.  A scan then gives the
same records and the same rest whether the list comes whole or in pieces.
-/

namespace Doli.Lib

variable {α ρ ε : Type}

inductive Head (ρ ε : Type) where
  | record (item : ρ) (size : Nat)
  | short
  | bad (error : ε)
  deriving DecidableEq, Repr

/-- A reader whose answer stands once it has one. -/
structure StreamReader (α ρ ε : Type) where
  head : List α → Head ρ ε
  record_size : ∀ {stream item size}, head stream = .record item size →
    0 < size ∧ size ≤ stream.length
  record_append : ∀ {stream item size} (rest : List α), head stream = .record item size →
    head (stream ++ rest) = .record item size
  bad_append : ∀ {stream error} (rest : List α), head stream = .bad error →
    head (stream ++ rest) = .bad error

namespace StreamReader

variable (reader : StreamReader α ρ ε)

/-- The records of the stream, and the tail that is not yet one. -/
def scan (stream : List α) : Except ε (List ρ × List α) :=
  match _hhead : reader.head stream with
  | .bad error => .error error
  | .short => .ok ([], stream)
  | .record item size =>
      match scan (stream.drop size) with
      | .error error => .error error
      | .ok (items, rest) => .ok (item :: items, rest)
termination_by stream.length
decreasing_by
  have hsize := reader.record_size _hhead
  rw [List.length_drop]
  omega

/-- One more piece behind what is left of the ones before. -/
def feed (state : List ρ × List α) (piece : List α) : Except ε (List ρ × List α) :=
  match reader.scan (state.2 ++ piece) with
  | .error error => .error error
  | .ok (items, rest) => .ok (state.1 ++ items, rest)

variable {reader} {stream rest : List α} {items : List ρ}

theorem scan_bad {error : ε} (hhead : reader.head stream = .bad error) :
    reader.scan stream = .error error := by
  rw [scan]
  split <;> simp_all

theorem scan_short (hhead : reader.head stream = .short) :
    reader.scan stream = .ok ([], stream) := by
  rw [scan]
  split <;> simp_all

theorem scan_record {item : ρ} {size : Nat} (hhead : reader.head stream = .record item size) :
    reader.scan stream =
      match reader.scan (stream.drop size) with
      | .error error => .error error
      | .ok (items, rest) => .ok (item :: items, rest) := by
  rw [scan]
  split <;> simp_all

theorem scan_induction {motive : List α → Prop}
    (hbad : ∀ stream error, reader.head stream = .bad error → motive stream)
    (hshort : ∀ stream, reader.head stream = .short → motive stream)
    (hrecord : ∀ stream item size, reader.head stream = .record item size →
      motive (stream.drop size) → motive stream) (stream : List α) : motive stream := by
  induction hlength : stream.length using Nat.strongRecOn generalizing stream with
  | ind length ih =>
      cases hhead : reader.head stream with
      | bad error => exact hbad stream error hhead
      | short => exact hshort stream hhead
      | record item size =>
          have hsize := reader.record_size hhead
          refine hrecord stream item size hhead (ih _ ?_ _ rfl)
          rw [List.length_drop]
          omega

theorem scan_rest : reader.scan stream = .ok (items, rest) → reader.head rest = .short := by
  induction stream using reader.scan_induction generalizing items with
  | hbad stream error hhead =>
      intro hscan
      simp [scan_bad hhead] at hscan
  | hshort stream hhead =>
      intro hscan
      rw [scan_short hhead] at hscan
      obtain ⟨-, rfl⟩ := Prod.mk.inj (Except.ok.inj hscan)
      exact hhead
  | hrecord stream item size hhead ih =>
      intro hscan
      rw [scan_record hhead] at hscan
      cases hdrop : reader.scan (stream.drop size) with
      | error error => simp [hdrop] at hscan
      | ok result =>
          rw [hdrop] at hscan
          obtain ⟨-, rfl⟩ := Prod.mk.inj (Except.ok.inj hscan)
          exact ih hdrop

theorem scan_suffix : reader.scan stream = .ok (items, rest) → rest <:+ stream := by
  induction stream using reader.scan_induction generalizing items with
  | hbad stream error hhead =>
      intro hscan
      simp [scan_bad hhead] at hscan
  | hshort stream hhead =>
      intro hscan
      rw [scan_short hhead] at hscan
      obtain ⟨-, rfl⟩ := Prod.mk.inj (Except.ok.inj hscan)
      exact List.suffix_refl _
  | hrecord stream item size hhead ih =>
      intro hscan
      rw [scan_record hhead] at hscan
      cases hdrop : reader.scan (stream.drop size) with
      | error error => simp [hdrop] at hscan
      | ok result =>
          rw [hdrop] at hscan
          obtain ⟨-, rfl⟩ := Prod.mk.inj (Except.ok.inj hscan)
          exact (ih hdrop).trans (List.drop_suffix _ _)

theorem scan_append (reader : StreamReader α ρ ε) (stream more : List α) :
    reader.scan (stream ++ more) =
      match reader.scan stream with
      | .error error => .error error
      | .ok (items, rest) =>
          match reader.scan (rest ++ more) with
          | .error error => .error error
          | .ok (later, left) => .ok (items ++ later, left) := by
  induction stream using reader.scan_induction with
  | hbad stream error hhead =>
      rw [scan_bad hhead, scan_bad (reader.bad_append more hhead)]
  | hshort stream hhead =>
      rw [scan_short hhead]
      dsimp only
      cases reader.scan (stream ++ more) <;> rfl
  | hrecord stream item size hhead ih =>
      have hsize := (reader.record_size hhead).2
      rw [scan_record hhead, scan_record (reader.record_append more hhead),
        List.drop_append_of_le_length hsize, ih]
      cases reader.scan (stream.drop size) with
      | error error => rfl
      | ok result =>
          dsimp only
          cases reader.scan (result.2 ++ more) <;> rfl

theorem run_feed (pieces : List (List α)) (items : List ρ) (left : List α)
    (hleft : reader.head left = .short) :
    run reader.feed pieces (items, left) = reader.feed (items, left) pieces.flatten := by
  induction pieces generalizing items left with
  | nil => simp [run, feed, scan_short hleft]
  | cons piece pieces ih =>
      have hwhole := reader.scan_append (left ++ piece) pieces.flatten
      rw [List.append_assoc, ← List.flatten_cons] at hwhole
      rw [run, feed, feed, hwhole]
      cases hscan : reader.scan (left ++ piece) with
      | error error => rfl
      | ok result =>
          have hrest := scan_rest hscan
          dsimp only
          rw [ih _ _ hrest, feed]
          cases reader.scan (result.2 ++ pieces.flatten) with
          | error error => rfl
          | ok later => simp [List.append_assoc]

end StreamReader

end Doli.Lib
