import Mathlib.Data.Finset.Basic
import Mathlib.Data.Set.Function

/-!
# Merkle trees that repeat the last node

A level of odd length repeats its last node before it is paired.  Two lists of
one length have one root only when they are equal, as long as no two of the
pairs hashed collide; lists of different lengths can share a root.
-/

namespace Doli.Lib

namespace Merkle

variable {α : Type} (node : α → α → α)

/-- The level above, with the last node of an odd level paired with itself. -/
def pairUp : List α → List α
  | [] => []
  | [last] => [node last last]
  | left :: right :: rest => node left right :: pairUp rest

theorem pairUp_length (level : List α) :
    (pairUp node level).length = (level.length + 1) / 2 := by
  induction level using pairUp.induct with
  | case1 => simp [pairUp]
  | case2 last => simp [pairUp]
  | case3 left right rest ih =>
      simp only [pairUp, List.length_cons, ih]
      omega

def root (node : α → α → α) (empty : α) : List α → α
  | [] => empty
  | [only] => only
  | left :: right :: rest => root node empty (pairUp node (left :: right :: rest))
termination_by level => level.length
decreasing_by
  rw [pairUp_length]
  simp only [List.length_cons]
  omega

/-- The pairs one level hashes. -/
def pairs : List α → List (α × α)
  | [] => []
  | [last] => [(last, last)]
  | left :: right :: rest => (left, right) :: pairs rest

/-- The pairs hashed on the way to the root. -/
def hashed (node : α → α → α) : List α → List (α × α)
  | [] => []
  | [_] => []
  | left :: right :: rest =>
      pairs (left :: right :: rest) ++ hashed node (pairUp node (left :: right :: rest))
termination_by level => level.length
decreasing_by
  rw [pairUp_length]
  simp only [List.length_cons]
  omega

variable {node}

theorem pairUp_inj {first second : List α} {domain : Set (α × α)}
    (hinj : Set.InjOn (fun pair => node pair.1 pair.2) domain)
    (hfirst : ∀ pair ∈ pairs first, pair ∈ domain)
    (hsecond : ∀ pair ∈ pairs second, pair ∈ domain)
    (hlength : first.length = second.length)
    (hlevel : pairUp node first = pairUp node second) : first = second := by
  induction first using pairUp.induct generalizing second with
  | case1 => exact (List.eq_nil_of_length_eq_zero hlength.symm).symm
  | case2 last =>
      obtain ⟨other, rfl⟩ := List.length_eq_one_iff.mp hlength.symm
      have hsame := @hinj (last, last) (hfirst _ (by simp [pairs]))
        (other, other) (hsecond _ (by simp [pairs])) (List.cons.inj hlevel).1
      rw [(Prod.mk.inj hsame).1]
  | case3 left right rest ih =>
      obtain _ | ⟨left', _ | ⟨right', rest'⟩⟩ := second
      · simp at hlength
      · simp at hlength
      · obtain ⟨hhead, htail⟩ := List.cons.inj hlevel
        have hsame := @hinj (left, right) (hfirst _ (by simp [pairs]))
          (left', right') (hsecond _ (by simp [pairs])) hhead
        obtain ⟨rfl, rfl⟩ := Prod.mk.inj hsame
        rw [ih (fun pair hpair => hfirst pair (List.mem_cons_of_mem _ hpair))
          (fun pair hpair => hsecond pair (List.mem_cons_of_mem _ hpair))
          (by simpa using hlength) htail]

theorem root_inj {first second : List α} {empty : α} {domain : Set (α × α)}
    (hinj : Set.InjOn (fun pair => node pair.1 pair.2) domain)
    (hfirst : ∀ pair ∈ hashed node first, pair ∈ domain)
    (hsecond : ∀ pair ∈ hashed node second, pair ∈ domain)
    (hlength : first.length = second.length)
    (hroot : root node empty first = root node empty second) : first = second := by
  induction first using hashed.induct node generalizing second with
  | case1 => exact (List.eq_nil_of_length_eq_zero hlength.symm).symm
  | case2 only =>
      obtain ⟨other, rfl⟩ := List.length_eq_one_iff.mp hlength.symm
      simp only [root] at hroot
      rw [hroot]
  | case3 left right rest ih =>
      obtain _ | ⟨left', _ | ⟨right', rest'⟩⟩ := second
      · simp at hlength
      · simp at hlength
      · rw [root, root] at hroot
        rw [hashed] at hfirst hsecond
        rw [List.forall_mem_append] at hfirst hsecond
        refine pairUp_inj hinj hfirst.1 hsecond.1 hlength ?_
        exact ih hfirst.2 hsecond.2 (by rw [pairUp_length, pairUp_length, hlength]) hroot

theorem root_repeat_last {init : List α} {last : α} {empty : α}
    (hinit : init ≠ []) (heven : init.length % 2 = 0) :
    root node empty (init ++ [last, last]) = root node empty (init ++ [last]) := by
  have hlevel : pairUp node (init ++ [last, last]) = pairUp node (init ++ [last]) := by
    clear hinit
    induction init using pairUp.induct with
    | case1 => rfl
    | case2 only => simp at heven
    | case3 left right rest ih =>
        simp only [List.cons_append, pairUp]
        simp only [List.length_cons] at heven
        rw [ih (by omega)]
  obtain ⟨left, rest, rfl⟩ := List.exists_cons_of_ne_nil hinit
  obtain _ | ⟨right, rest⟩ := rest
  · simp at heven
  · simp only [List.cons_append] at hlevel ⊢
    rw [root, root, hlevel]

end Merkle

end Doli.Lib
