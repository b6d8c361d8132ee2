import Mathlib.Data.List.Basic
import Mathlib.Data.List.Induction

/-!
# Runs of fallible steps

A run folds a fallible step over a list.  What one step preserves, the whole
run preserves; the invariant may mention the part of the list already done.
-/

namespace Doli.Lib

variable {σ α ε : Type}

def run (step : σ → α → Except ε σ) : List α → σ → Except ε σ
  | [], state => .ok state
  | item :: items, state =>
      match step state item with
      | .error error => .error error
      | .ok next => run step items next

theorem run_cons_ok {step : σ → α → Except ε σ} {item : α} {items : List α}
    {state final : σ} :
    run step (item :: items) state = .ok final ↔
      ∃ next, step state item = .ok next ∧ run step items next = .ok final := by
  cases hstep : step state item with
  | error error => simp [run, hstep]
  | ok next => simp [run, hstep]

theorem run_append_ok {step : σ → α → Except ε σ} {first second : List α}
    {state final : σ} :
    run step (first ++ second) state = .ok final ↔
      ∃ middle, run step first state = .ok middle ∧
        run step second middle = .ok final := by
  induction first generalizing state with
  | nil => simp [run]
  | cons item items ih =>
      simp only [List.cons_append, run_cons_ok, ih]
      constructor
      · rintro ⟨next, hstep, middle, hfirst, hsecond⟩
        exact ⟨middle, ⟨next, hstep, hfirst⟩, hsecond⟩
      · rintro ⟨middle, ⟨next, hstep, hfirst⟩, hsecond⟩
        exact ⟨next, hstep, middle, hfirst, hsecond⟩

theorem run_invariant {step : σ → α → Except ε σ} {items : List α}
    {state final : σ} (inv : List α → σ → Prop) (hinit : inv [] state)
    (hstep : ∀ done item rest current next, items = done ++ item :: rest →
      inv done current → step current item = .ok next →
      inv (done ++ [item]) next)
    (hrun : run step items state = .ok final) : inv items final := by
  suffices hgen : ∀ done rest current, items = done ++ rest →
      inv done current → run step rest current = .ok final →
      inv items final from hgen [] items state rfl hinit hrun
  intro done rest
  induction rest generalizing done with
  | nil =>
      intro current hitems hinv hrest
      obtain rfl := Except.ok.inj hrest
      simpa [hitems] using hinv
  | cons item rest ih =>
      intro current hitems hinv hrest
      obtain ⟨next, hnext, hrest⟩ := run_cons_ok.mp hrest
      exact ih (done ++ [item]) next (by simp [hitems])
        (hstep done item rest current next hitems hinv hnext) hrest

/-- The simulation rule: a second run follows the first step by step while
`rel done` relates the two states after the items `done`. -/
theorem run_simulates {τ : Type} {step : σ → α → Except ε σ}
    {other : τ → α → Except ε τ} {items : List α} {state final : σ} {start : τ}
    (rel : List α → σ → τ → Prop) (hinit : rel [] state start)
    (hstep : ∀ done item rest current next shadow,
      items = done ++ item :: rest → rel done current shadow →
        step current item = .ok next →
          ∃ moved, other shadow item = .ok moved ∧ rel (done ++ [item]) next moved)
    (hrun : run step items state = .ok final) :
    ∃ finish, run other items start = .ok finish ∧ rel items final finish := by
  suffices hgen : ∀ rest done current shadow, items = done ++ rest →
      rel done current shadow → run step rest current = .ok final →
      ∃ finish, run other rest shadow = .ok finish ∧ rel items final finish from
    hgen items [] state start rfl hinit hrun
  intro rest
  induction rest with
  | nil =>
      intro done current shadow hitems hrel hrest
      obtain rfl := Except.ok.inj hrest
      exact ⟨shadow, rfl, by simpa [hitems] using hrel⟩
  | cons item rest ih =>
      intro done current shadow hitems hrel hrest
      obtain ⟨next, hnext, hrest⟩ := run_cons_ok.mp hrest
      obtain ⟨moved, hmoved, hrel⟩ :=
        hstep done item rest current next shadow hitems hrel hnext
      obtain ⟨finish, hfinish, hfinal⟩ :=
        ih (done ++ [item]) next moved (by simp [hitems]) hrel hrest
      exact ⟨finish, run_cons_ok.mpr ⟨moved, hmoved, hfinish⟩, hfinal⟩

/-- A run that also returns the state it stopped in. -/
def runKeeping (step : σ → α → Except ε σ) : List α → σ → σ × Option ε
  | [], state => (state, none)
  | item :: items, state =>
      match step state item with
      | .error error => (state, some error)
      | .ok next => runKeeping step items next

theorem runKeeping_invariant {step : σ → α → Except ε σ} {items : List α}
    {state : σ} (inv : σ → Prop) (hinit : inv state)
    (hstep : ∀ item ∈ items, ∀ current next, inv current →
      step current item = .ok next → inv next) :
    inv (runKeeping step items state).1 := by
  induction items generalizing state with
  | nil => exact hinit
  | cons item items ih =>
      unfold runKeeping
      split
      · exact hinit
      case h_2 next hnext =>
        refine ih (hstep item List.mem_cons_self state next hinit hnext) ?_
        exact fun other hother => hstep other (List.mem_cons_of_mem _ hother)

theorem foldl_invariant {step : σ → α → σ} {items : List α} {state : σ}
    (inv : List α → σ → Prop) (hinit : inv [] state)
    (hstep : ∀ done item rest current, items = done ++ item :: rest →
      inv done current → inv (done ++ [item]) (step current item)) :
    inv items (items.foldl step state) := by
  suffices hgen : ∀ rest done current, items = done ++ rest →
      inv done current → inv items (rest.foldl step current) from
    hgen items [] state rfl hinit
  intro rest
  induction rest with
  | nil =>
      intro done current hitems hinv
      simpa [hitems] using hinv
  | cons item rest ih =>
      intro done current hitems hinv
      exact ih (done ++ [item]) (step current item) (by simp [hitems])
        (hstep done item rest current hitems hinv)

theorem foldlM_invariant {step : σ → α → Option σ} {items : List α} {state final : σ}
    (inv : List α → σ → Prop) (hinit : inv [] state)
    (hstep : ∀ done item rest current next, items = done ++ item :: rest →
      inv done current → step current item = some next → inv (done ++ [item]) next)
    (hrun : items.foldlM step state = some final) : inv items final := by
  suffices hgen : ∀ rest done current, items = done ++ rest → inv done current →
      rest.foldlM step current = some final → inv items final from
    hgen items [] state rfl hinit hrun
  intro rest
  induction rest with
  | nil =>
      intro done current hitems hinv hrest
      obtain rfl := Option.some.inj hrest
      simpa [hitems] using hinv
  | cons item rest ih =>
      intro done current hitems hinv hrest
      rw [List.foldlM_cons] at hrest
      obtain ⟨next, hnext, hrest⟩ := Option.bind_eq_some_iff.mp hrest
      exact ih (done ++ [item]) next (by simp [hitems])
        (hstep done item rest current next hitems hinv hnext) hrest

theorem foldlM_transfer {step other : σ → α → Option σ} {items : List α} {state final : σ}
    (inv : List α → σ → Prop) (hinit : inv [] state)
    (hstep : ∀ done item rest current next, items = done ++ item :: rest →
      inv done current → step current item = some next →
        other current item = some next ∧ inv (done ++ [item]) next)
    (hrun : items.foldlM step state = some final) : items.foldlM other state = some final := by
  suffices hgen : ∀ rest done current, items = done ++ rest → inv done current →
      rest.foldlM step current = some final → rest.foldlM other current = some final from
    hgen items [] state rfl hinit hrun
  intro rest
  induction rest with
  | nil => exact fun _ _ _ _ hrest => hrest
  | cons item rest ih =>
      intro done current hitems hinv hrest
      rw [List.foldlM_cons] at hrest ⊢
      obtain ⟨next, hnext, hrest⟩ := Option.bind_eq_some_iff.mp hrest
      obtain ⟨hother, hinvNext⟩ := hstep done item rest current next hitems hinv hnext
      rw [hother]
      exact ih (done ++ [item]) next (by simp [hitems]) hinvNext hrest

/-! ## What holds all along a run -/

section Every

variable {step : σ → α → σ} {start : σ} {items : List α}

/-- `good` holds in every state that the run goes through, the first and the last included. -/
def EveryState (step : σ → α → σ) (start : σ) (items : List α) (good : σ → Prop) : Prop :=
  ∀ done rest, items = done ++ rest → good (done.foldl step start)

/-- Each step of the run is one that its state allows. -/
def EveryStep (step : σ → α → σ) (start : σ) (items : List α) (may : σ → α → Prop) : Prop :=
  ∀ done item rest, items = done ++ item :: rest → may (done.foldl step start) item

theorem everyState_of_keeps {good : σ → Prop} (hinit : good start)
    (hstep : ∀ state item, good state → good (step state item)) :
    EveryState step start items good := by
  intro done rest _
  exact foldl_invariant (fun _ state => good state) hinit fun _ item _ current _ hcurrent =>
    hstep current item hcurrent

theorem everyStep_nil {may : σ → α → Prop} : EveryStep step start [] may := by
  intro done item rest hitems
  simp at hitems

theorem everyStep_cons {may : σ → α → Prop} {item : α} :
    EveryStep step start (item :: items) may ↔
      may start item ∧ EveryStep step (step start item) items may := by
  constructor
  · intro hevery
    refine ⟨hevery [] item items rfl, fun done next rest hitems => ?_⟩
    exact hevery (item :: done) next rest (by rw [hitems, List.cons_append])
  · rintro ⟨hfirst, hevery⟩ done next rest hitems
    cases done with
    | nil =>
        obtain ⟨rfl, rfl⟩ := List.cons.inj hitems
        exact hfirst
    | cons first done =>
        obtain ⟨rfl, hrest⟩ := List.cons.inj hitems
        exact hevery done next rest hrest

/-- Where one step keeps `good` exactly if its state allows it, a run keeps it
exactly if every state allows the step it takes. -/
theorem everyState_iff {inv good : σ → Prop} {may : σ → α → Prop} (hinv : inv start)
    (hkeep : ∀ state item, inv state → inv (step state item))
    (hstep : ∀ state item, inv state → good state →
      (good (step state item) ↔ may state item)) :
    EveryState step start items good ↔ good start ∧ EveryStep step start items may := by
  have hreached : EveryState step start items inv := everyState_of_keeps hinv hkeep
  constructor
  · intro hgood
    refine ⟨hgood [] items rfl, fun done item rest hitems => ?_⟩
    have hafter := hgood (done ++ [item]) rest (by rw [hitems, List.append_assoc]; rfl)
    rw [List.foldl_append] at hafter
    exact (hstep _ item (hreached done _ hitems) (hgood done _ hitems)).mp hafter
  · rintro ⟨hinit, hmay⟩ done
    induction done using List.reverseRecOn with
    | nil => exact fun _ _ => hinit
    | append_singleton done item ih =>
        intro rest hitems
        rw [List.append_assoc] at hitems
        rw [List.foldl_append]
        exact (hstep _ item (hreached done _ hitems) (ih _ hitems)).mpr
          (hmay done item rest hitems)

end Every

/-! ## Runs on given inputs -/

/-- Whether `check` passes on every state of the run and the item it meets. -/
def runChecks (step : σ → α → Except ε σ) (check : σ → α → Bool) : List α → σ → Bool
  | [], _ => true
  | item :: items, state =>
      check state item &&
        match step state item with
        | .error _ => true
        | .ok next => runChecks step check items next

theorem of_runChecks {step : σ → α → Except ε σ} {check : σ → α → Bool}
    {items : List α} {state : σ} (hchecks : runChecks step check items state = true) :
    ∀ done item rest reached, items = done ++ item :: rest →
      run step done state = .ok reached → check reached item = true := by
  intro done
  induction done generalizing items state with
  | nil =>
      intro item rest reached hitems hrun
      obtain rfl := Except.ok.inj hrun
      rw [hitems, List.nil_append, runChecks, Bool.and_eq_true] at hchecks
      exact hchecks.1
  | cons first done ih =>
      intro item rest reached hitems hrun
      obtain ⟨next, hnext, hrest⟩ := run_cons_ok.mp hrun
      rw [hitems, List.cons_append, runChecks, Bool.and_eq_true, hnext] at hchecks
      exact ih hchecks.2 item rest reached rfl hrest

theorem ok_of_any {result : Except ε σ} {check : σ → Bool}
    (hany : result.toOption.any check = true) :
    ∃ final, result = .ok final ∧ check final = true := by
  cases result with
  | error error => simp [Except.toOption] at hany
  | ok final => exact ⟨final, rfl, hany⟩

end Doli.Lib

/-!
## First in, first out

A list used as a queue: items enter behind and leave in front.  What left, followed by
what is still there, is what entered, in the order in which it did.
-/

namespace Doli.Lib

variable {α β σ : Type}

inductive FifoMove (β : Type) where
  | enter (items : List β)
  | leave (count : Nat)
  deriving Repr

namespace FifoMove

/-- A queue shorter than what should leave is left empty. -/
def apply (queue : List β) : FifoMove β → List β
  | .enter items => queue ++ items
  | .leave count => queue.drop count

def entered : List (FifoMove β) → List β
  | [] => []
  | .enter items :: moves => items ++ entered moves
  | .leave _ :: moves => entered moves

def departed (queue : List β) : List (FifoMove β) → List β
  | [] => []
  | .enter items :: moves => departed (queue ++ items) moves
  | .leave count :: moves => queue.take count ++ departed (queue.drop count) moves

variable {queue : List β} {moves : List (FifoMove β)}

theorem departed_append_run (queue : List β) (moves : List (FifoMove β)) :
    departed queue moves ++ moves.foldl apply queue = queue ++ entered moves := by
  induction moves generalizing queue with
  | nil => simp [departed, entered]
  | cons move moves ih =>
      cases move with
      | enter items =>
          rw [departed, List.foldl_cons, apply, ih, entered, List.append_assoc]
      | leave count =>
          rw [departed, List.foldl_cons, apply, entered, List.append_assoc, ih,
            ← List.append_assoc, List.take_append_drop]

theorem pairwise_run {before : β → β → Prop}
    (horder : (queue ++ entered moves).Pairwise before) :
    (moves.foldl apply queue).Pairwise before := by
  rw [← departed_append_run queue moves] at horder
  exact (List.pairwise_append.mp horder).2.1

theorem pairwise_leave {before : β → β → Prop} (horder : queue.Pairwise before) (count : Nat) :
    ∀ first ∈ queue.take count, ∀ later ∈ queue.drop count, before first later := by
  rw [← List.take_append_drop count queue] at horder
  exact (List.pairwise_append.mp horder).2.2

/-! ## A queue inside a state -/

/-- The moves that the steps of a run make on the queue. -/
def along (step : σ → α → σ) (move : σ → α → FifoMove β) : σ → List α → List (FifoMove β)
  | _, [] => []
  | state, item :: items => move state item :: along step move (step state item) items

theorem entered_append (first second : List (FifoMove β)) :
    entered (first ++ second) = entered first ++ entered second := by
  induction first with
  | nil => rfl
  | cons move first ih =>
      cases move with
      | enter items => rw [List.cons_append, entered, ih, entered, List.append_assoc]
      | leave count => rw [List.cons_append, entered, ih, entered]

theorem along_append {step : σ → α → σ} {move : σ → α → FifoMove β} (start : σ)
    (first second : List α) :
    along step move start (first ++ second) =
      along step move start first ++ along step move (first.foldl step start) second := by
  induction first generalizing start with
  | nil => rfl
  | cons item first ih => rw [List.cons_append, along, ih, along, List.foldl_cons, List.cons_append]

theorem foldl_queue {step : σ → α → σ} {move : σ → α → FifoMove β} {queueOf : σ → List β}
    {inv : σ → Prop} (hkeep : ∀ state item, inv state → inv (step state item))
    (hmove : ∀ state item, inv state →
      queueOf (step state item) = (move state item).apply (queueOf state))
    {start : σ} (hinv : inv start) (items : List α) :
    queueOf (items.foldl step start) =
      (along step move start items).foldl apply (queueOf start) := by
  induction items generalizing start with
  | nil => rfl
  | cons item items ih =>
      rw [List.foldl_cons, ih (hkeep start item hinv), hmove start item hinv, along,
        List.foldl_cons]

end FifoMove

end Doli.Lib
