import Mathlib.Algebra.BigOperators.Group.Finset.Basic
import Mathlib.Algebra.GroupWithZero.Nat
import Mathlib.Algebra.Order.BigOperators.Group.Finset
import Mathlib.Data.List.MinMax
import Mathlib.Data.List.Nodup
import Mathlib.Data.Prod.Lex

/-!
# The cheapest walk

A search from one node that settles the nearest open node first, with an early exit, a heap
that keeps stale entries, and a number that stands for "not reached".  Costs are not negative;
edges may be parallel, cost nothing or lead back.
-/

namespace Doli.Lib

/-! ## Graphs and searches -/

/-- `extend` is the cost after an edge as the search computes it. -/
structure Routing (V E : Type) where
  out : V → List E
  target : E → V
  usable : E → Bool
  weight : E → Nat
  extend : Nat → E → Nat
  unreached : Nat

/-- Any priority queue: among entries of the least cost it may take any. -/
structure LeastHeap (V : Type) where
  pop : List (Nat × V) → Option ((Nat × V) × List (Nat × V))
  pop_isSome : ∀ entries, entries ≠ [] → (pop entries).isSome
  perm_of_pop : ∀ {entries least rest}, pop entries = some (least, rest) →
    entries.Perm (least :: rest)
  least_of_pop : ∀ {entries least rest}, pop entries = some (least, rest) →
    ∀ entry ∈ entries, least.1 ≤ entry.1

/-- Among the entries of the least cost the node of the least rank is taken. -/
def LeastHeap.preferring {V : Type} [DecidableEq V] (rank : V → Nat) : LeastHeap V where
  pop entries := (entries.argmin fun entry => toLex (entry.1, rank entry.2)).map fun least =>
    (least, entries.erase least)
  pop_isSome entries hentries := by
    rw [Option.isSome_map, Option.isSome_iff_ne_none]
    exact fun hnone => hentries (List.argmin_eq_none.mp hnone)
  perm_of_pop hpop := by
    obtain ⟨least, hleast, hsame⟩ := Option.map_eq_some_iff.mp hpop
    obtain ⟨rfl, rfl⟩ := Prod.mk.inj hsame
    exact List.perm_cons_erase (List.argmin_mem hleast)
  least_of_pop hpop entry hentry := by
    obtain ⟨least, hleast, hsame⟩ := Option.map_eq_some_iff.mp hpop
    obtain ⟨rfl, rfl⟩ := Prod.mk.inj hsame
    rcases Prod.Lex.le_iff.mp (List.le_of_mem_argmin hentry hleast) with hless | ⟨hsame, -⟩
    · exact hless.le
    · exact hsame.le

theorem LeastHeap.rank_le_of_pop {V : Type} [DecidableEq V] {rank : V → Nat}
    {entries rest : List (Nat × V)} {least : Nat × V}
    (hpop : (LeastHeap.preferring rank).pop entries = some (least, rest)) {entry : Nat × V}
    (hentry : entry ∈ entries) (hcost : entry.1 = least.1) : rank least.2 ≤ rank entry.2 := by
  obtain ⟨first, hfirst, hsame⟩ := Option.map_eq_some_iff.mp hpop
  obtain ⟨rfl, rfl⟩ := Prod.mk.inj hsame
  rcases Prod.Lex.le_iff.mp (List.le_of_mem_argmin hentry hfirst) with hless | ⟨-, hrank⟩
  · exact absurd hcost hless.ne'
  · exact hrank

structure SearchState (V E : Type) where
  dist : V → Option Nat
  prev : V → Option (V × E)
  heap : List (Nat × V)

namespace Routing

variable {V E : Type} (graph : Routing V E)

/-! ## Walks -/

inductive Walk (source : V) : List E → V → Prop
  | nil : Walk source [] source
  | snoc {path : List E} {node : V} {edge : E} (hwalk : Walk source path node)
      (hedge : edge ∈ graph.out node) (husable : graph.usable edge = true) :
      Walk source (path ++ [edge]) (graph.target edge)

def toll (path : List E) : Nat := (path.map graph.weight).sum

def visits (source : V) (path : List E) : List V := source :: path.map graph.target

def Simple (source : V) (path : List E) : Prop := (graph.visits source path).Nodup

/-- The costs computed over the edges out of `node` are the exact sums. -/
def ExactAt (cost : Nat) (node : V) : Prop :=
  ∀ edge ∈ graph.out node, graph.usable edge = true →
    graph.extend cost edge = cost + graph.weight edge

/-- The walk that following `prev` back to the source finds. -/
inductive Branch (prev : V → Option (V × E)) (source : V) : List E → V → Prop
  | source : Branch prev source [] source
  | step {before : V} {edge : E} {path : List E} (hnode : graph.target edge ≠ source)
      (hprev : prev (graph.target edge) = some (before, edge)) (hedge : edge ∈ graph.out before)
      (husable : graph.usable edge = true) (hbranch : Branch prev source path before) :
      Branch prev source (path ++ [edge]) (graph.target edge)

variable {graph} {source : V} {path : List E} {node : V}

@[simp] theorem toll_nil : graph.toll [] = 0 := rfl

@[simp] theorem toll_snoc (path : List E) (edge : E) :
    graph.toll (path ++ [edge]) = graph.toll path + graph.weight edge := by
  simp [toll]

@[simp] theorem visits_snoc (path : List E) (edge : E) :
    graph.visits source (path ++ [edge]) = graph.visits source path ++ [graph.target edge] := by
  simp [visits]

theorem Branch.walk {prev : V → Option (V × E)} (hbranch : graph.Branch prev source path node) :
    graph.Walk source path node := by
  induction hbranch with
  | source => exact .nil
  | step hnode hprev hedge husable hbranch ih => exact .snoc ih hedge husable

theorem Branch.congr {prev next : V → Option (V × E)}
    (hbranch : graph.Branch prev source path node)
    (hsame : ∀ passed ∈ graph.visits source path, next passed = prev passed) :
    graph.Branch next source path node := by
  induction hbranch with
  | source => exact .source
  | step hnode hprev hedge husable hbranch ih =>
      rw [visits_snoc, List.forall_mem_append] at hsame
      refine .step hnode ?_ hedge husable (ih hsame.1)
      rw [hsame.2 _ (List.mem_singleton_self _), hprev]

theorem Branch.update [DecidableEq V] {prev : V → Option (V × E)}
    (hbranch : graph.Branch prev source path node) {other : V} {step : Option (V × E)}
    (hother : other ∉ graph.visits source path) :
    graph.Branch (Function.update prev other step) source path node :=
  hbranch.congr fun passed hpassed =>
    Function.update_of_ne (fun hsame : passed = other => hother (hsame ▸ hpassed)) _ _

/-! ## Searches -/

section Search

variable [DecidableEq V] (graph)

def relaxEdge (cost : Nat) (node : V) (state : SearchState V E) (edge : E) :
    SearchState V E :=
  if graph.usable edge = false then state
  else
    let newCost := graph.extend cost edge
    if newCost < (state.dist (graph.target edge)).getD graph.unreached then
      { dist := Function.update state.dist (graph.target edge) (some newCost)
        prev := Function.update state.prev (graph.target edge) (some (node, edge))
        heap := (newCost, graph.target edge) :: state.heap }
    else state

def scan (cost : Nat) (node : V) (state : SearchState V E) : SearchState V E :=
  (graph.out node).foldl (graph.relaxEdge cost node) state

def start (source : V) : SearchState V E where
  dist := Function.update (fun _ => none) source (some 0)
  prev := fun _ => none
  heap := [(0, source)]

/-- `none` where the fuel runs out. -/
def search (heap : LeastHeap V) (destination : V) : Nat → SearchState V E →
    Option (SearchState V E)
  | 0, _ => none
  | fuel + 1, state =>
      match heap.pop state.heap with
      | none => some state
      | some ((cost, node), rest) =>
          if node = destination then some { state with heap := rest }
          else if (state.dist node).getD graph.unreached < cost then
            search heap destination fuel { state with heap := rest }
          else search heap destination fuel (graph.scan cost node { state with heap := rest })

/-- The search from a state comes to look at the edges out of a node, at a cost. -/
inductive Scans (heap : LeastHeap V) (destination : V) : SearchState V E → Nat → V → Prop
  | here {state : SearchState V E} {cost : Nat} {node : V} {rest : List (Nat × V)}
      (hpop : heap.pop state.heap = some ((cost, node), rest)) (hnode : node ≠ destination)
      (hfresh : ¬ (state.dist node).getD graph.unreached < cost) :
      Scans heap destination state cost node
  | stale {state : SearchState V E} {cost paid : Nat} {node scanned : V} {rest : List (Nat × V)}
      (hpop : heap.pop state.heap = some ((cost, node), rest)) (hnode : node ≠ destination)
      (hstale : (state.dist node).getD graph.unreached < cost)
      (hlater : Scans heap destination { state with heap := rest } paid scanned) :
      Scans heap destination state paid scanned
  | later {state : SearchState V E} {cost paid : Nat} {node scanned : V} {rest : List (Nat × V)}
      (hpop : heap.pop state.heap = some ((cost, node), rest)) (hnode : node ≠ destination)
      (hfresh : ¬ (state.dist node).getD graph.unreached < cost)
      (hlater : Scans heap destination (graph.scan cost node { state with heap := rest })
        paid scanned) :
      Scans heap destination state paid scanned

end Search

/-! ## What a search keeps -/

/-- `settled` are the nodes taken from the heap so far; `waived` are the edges out of them that
are still to be looked at. -/
structure Progress (graph : Routing V E) (source : V) (settled : List V)
    (waived : V → E → Prop) (state : SearchState V E) : Prop where
  root : state.dist source = some 0
  bounded : ∀ node cost, state.dist node = some cost → cost < graph.unreached
  linked : ∀ node, state.dist node = none → state.prev node = none
  branch : ∀ node cost, state.dist node = some cost → ∃ path,
    graph.Branch state.prev source path node ∧ graph.toll path = cost ∧
      graph.Simple source path ∧ ∀ passed ∈ graph.visits source path,
        passed = node ∨ passed ∈ settled
  reached : ∀ node ∈ settled, ∃ cost, state.dist node = some cost
  entries : ∀ entry ∈ state.heap, ∃ cost, state.dist entry.2 = some cost ∧ cost ≤ entry.1 ∧
    (entry.2 ∈ settled → cost < entry.1)
  distinct : state.heap.Nodup
  opened : ∀ node cost, state.dist node = some cost → node ∉ settled →
    (cost, node) ∈ state.heap
  floor : ∀ node ∈ settled, ∀ cost, state.dist node = some cost → ∀ entry ∈ state.heap,
    cost ≤ entry.1
  relaxed : ∀ node ∈ settled, ∀ cost, state.dist node = some cost → ∀ edge ∈ graph.out node,
    graph.usable edge = true → ¬ waived node edge → cost + graph.weight edge < graph.unreached →
      ∃ next, state.dist (graph.target edge) = some next ∧ next ≤ cost + graph.weight edge

namespace Progress

variable {settled : List V} {waived : V → E → Prop} {state : SearchState V E}
  {heap : LeastHeap V} {cost : Nat} {rest : List (Nat × V)}

section Start

variable [DecidableEq V]

theorem dist_start {cost : Nat} :
    (Routing.start source : SearchState V E).dist node = some cost ↔ node = source ∧ cost = 0 := by
  simp only [Routing.start, Function.update_apply]
  split
  case isTrue hnode => simp [hnode, eq_comm]
  case isFalse hnode => simp [hnode]

theorem start (hpositive : 0 < graph.unreached) :
    graph.Progress source [] (fun _ _ => False) (Routing.start source) where
  root := dist_start.mpr ⟨rfl, rfl⟩
  bounded node cost hdist := (dist_start.mp hdist).2 ▸ hpositive
  linked _ _ := rfl
  branch node cost hdist := by
    obtain ⟨rfl, rfl⟩ := dist_start.mp hdist
    refine ⟨[], .source, rfl, List.nodup_singleton _, ?_⟩
    exact fun passed hpassed => .inl (List.mem_singleton.mp hpassed)
  reached node hnode := absurd hnode List.not_mem_nil
  entries entry hentry := by
    obtain rfl := List.mem_singleton.mp hentry
    exact ⟨0, dist_start.mpr ⟨rfl, rfl⟩, Nat.le_refl 0, fun hold => absurd hold List.not_mem_nil⟩
  distinct := List.nodup_singleton _
  opened node cost hdist _ := by
    obtain ⟨rfl, rfl⟩ := dist_start.mp hdist
    exact List.mem_singleton_self _
  floor node hnode := absurd hnode List.not_mem_nil
  relaxed node hnode := absurd hnode List.not_mem_nil

end Start

/-! ## Taking an entry -/

section Pop

variable (hpop : heap.pop state.heap = some ((cost, node), rest))

include hpop

theorem rest_subset : ∀ entry ∈ rest, entry ∈ state.heap := fun _ hentry =>
  (heap.perm_of_pop hpop).mem_iff.mpr (List.mem_cons_of_mem _ hentry)

theorem mem_rest {entry : Nat × V} (hentry : entry ∈ state.heap) (hother : entry ≠ (cost, node)) :
    entry ∈ rest :=
  List.mem_of_ne_of_mem hother ((heap.perm_of_pop hpop).mem_iff.mp hentry)

theorem popped_mem : (cost, node) ∈ state.heap :=
  (heap.perm_of_pop hpop).mem_iff.mpr List.mem_cons_self

theorem stale (hprogress : graph.Progress source settled waived state)
    (hstale : (state.dist node).getD graph.unreached < cost) :
    graph.Progress source settled waived { state with heap := rest } where
  root := hprogress.root
  bounded := hprogress.bounded
  linked := hprogress.linked
  branch := hprogress.branch
  reached := hprogress.reached
  entries entry hentry := hprogress.entries entry (rest_subset hpop entry hentry)
  distinct := (List.nodup_cons.mp
    ((heap.perm_of_pop hpop).nodup_iff.mp hprogress.distinct)).2
  opened other otherCost hdist hopen := by
    refine mem_rest hpop (hprogress.opened other otherCost hdist hopen) ?_
    rintro hsame
    obtain ⟨rfl, rfl⟩ := Prod.mk.inj hsame
    rw [hdist, Option.getD_some] at hstale
    exact Nat.lt_irrefl _ hstale
  floor other hother otherCost hdist entry hentry :=
    hprogress.floor other hother otherCost hdist entry (rest_subset hpop entry hentry)
  relaxed := hprogress.relaxed

theorem fresh (hprogress : graph.Progress source settled waived state)
    (hfresh : ¬ (state.dist node).getD graph.unreached < cost) :
    state.dist node = some cost ∧ node ∉ settled := by
  obtain ⟨known, hdist, hle, hlater⟩ := hprogress.entries _ (popped_mem hpop)
  rw [hdist, Option.getD_some] at hfresh
  have hsame : known = cost := Nat.le_antisymm hle (Nat.le_of_not_lt hfresh)
  exact ⟨hsame ▸ hdist, fun hsettled => hfresh (hlater hsettled)⟩

theorem settle (hprogress : graph.Progress source settled (fun _ _ => False) state)
    (hfresh : ¬ (state.dist node).getD graph.unreached < cost) :
    graph.Progress source (node :: settled)
      (fun waivedNode edge => waivedNode = node ∧ edge ∈ graph.out node)
      { state with heap := rest } := by
  obtain ⟨hdist, hopen⟩ := fresh hpop hprogress hfresh
  have hnodup := (heap.perm_of_pop hpop).nodup_iff.mp hprogress.distinct
  obtain ⟨hgone, hrest⟩ := List.nodup_cons.mp hnodup
  have hleast := heap.least_of_pop hpop
  constructor
  case root => exact hprogress.root
  case bounded => exact hprogress.bounded
  case linked => exact hprogress.linked
  case branch =>
    intro other otherCost hother
    obtain ⟨path, hbranch, htoll, hsimple, hpassed⟩ := hprogress.branch other otherCost hother
    refine ⟨path, hbranch, htoll, hsimple, fun passed hmem => ?_⟩
    exact (hpassed passed hmem).imp id (List.mem_cons_of_mem _)
  case reached =>
    intro other hother
    rcases List.mem_cons.mp hother with rfl | hother
    · exact ⟨cost, hdist⟩
    · exact hprogress.reached other hother
  case entries =>
    intro entry hentry
    obtain ⟨known, hknown, hle, hlater⟩ := hprogress.entries entry (rest_subset hpop entry hentry)
    refine ⟨known, hknown, hle, fun hmem => ?_⟩
    rcases List.mem_cons.mp hmem with hnode | hmem
    · rw [hnode, hdist] at hknown
      obtain rfl := Option.some.inj hknown
      refine lt_of_le_of_ne hle fun heq => hgone ?_
      have hsame : entry = (cost, node) := Prod.ext heq.symm hnode
      exact hsame ▸ hentry
    · exact hlater hmem
  case distinct => exact hrest
  case opened =>
    intro other otherCost hother hnot
    rw [List.mem_cons, not_or] at hnot
    refine mem_rest hpop (hprogress.opened other otherCost hother hnot.2) ?_
    exact fun hsame => hnot.1 (Prod.mk.inj hsame).2
  case floor =>
    intro other hmem otherCost hother entry hentry
    have hentry := rest_subset hpop entry hentry
    rcases List.mem_cons.mp hmem with rfl | hmem
    · rw [hdist] at hother
      exact Option.some.inj hother ▸ hleast entry hentry
    · exact hprogress.floor other hmem otherCost hother entry hentry
  case relaxed =>
    intro other hmem otherCost hother edge hedge husable hwaived hsum
    rcases List.mem_cons.mp hmem with rfl | hmem
    · exact absurd ⟨rfl, hedge⟩ hwaived
    · exact hprogress.relaxed other hmem otherCost hother edge hedge husable id hsum

theorem settled_le (hprogress : graph.Progress source settled waived state) :
    ∀ other ∈ settled, ∀ otherCost, state.dist other = some otherCost → otherCost ≤ cost :=
  fun other hother otherCost hdist =>
    hprogress.floor other hother otherCost hdist _ (popped_mem hpop)

end Pop

/-! ## Looking at an edge -/

section Relax

variable {edge : E} {edges : List E}

theorem not_waived {other : V} {otherEdge : E} (hsame : ¬ (other = node ∧ otherEdge = edge))
    (hwaived : ¬ (other = node ∧ otherEdge ∈ edges)) :
    ¬ (other = node ∧ otherEdge ∈ edge :: edges) := by
  rintro ⟨rfl, hin⟩
  rcases List.mem_cons.mp hin with rfl | hin
  · exact hsame ⟨rfl, rfl⟩
  · exact hwaived ⟨rfl, hin⟩

variable [DecidableEq V]

theorem passed (hprogress : graph.Progress source settled
      (fun waivedNode other => waivedNode = node ∧ other ∈ edge :: edges) state)
    (hdist : state.dist node = some cost)
    (hknown : graph.usable edge = true → cost + graph.weight edge < graph.unreached →
      ∃ next, state.dist (graph.target edge) = some next ∧ next ≤ cost + graph.weight edge) :
    graph.Progress source settled (fun waivedNode other => waivedNode = node ∧ other ∈ edges)
      state := by
  refine { hprogress with relaxed := ?_ }
  intro other hmem otherCost hother otherEdge hedge husable hwaived hsum
  by_cases hsame : other = node ∧ otherEdge = edge
  · obtain ⟨rfl, rfl⟩ := hsame
    rw [hdist] at hother
    obtain rfl := Option.some.inj hother
    exact hknown husable hsum
  · exact hprogress.relaxed other hmem otherCost hother otherEdge hedge husable
      (not_waived hsame hwaived) hsum

/-- The branches once the edge leads to its target: the new one, and the others, which do not
pass the target. -/
theorem improved_branch (hprogress : graph.Progress source settled waived state)
    (hnode : node ∈ settled) (hdist : state.dist node = some cost)
    (hedge : edge ∈ graph.out node) (husable : graph.usable edge = true)
    (hopen : graph.target edge ∉ settled) (hsource : graph.target edge ≠ source)
    {other : V} {otherCost : Nat}
    (hother : Function.update state.dist (graph.target edge) (some (cost + graph.weight edge))
      other = some otherCost) :
    ∃ path, graph.Branch (Function.update state.prev (graph.target edge) (some (node, edge)))
        source path other ∧
      graph.toll path = otherCost ∧ graph.Simple source path ∧
      ∀ passed ∈ graph.visits source path, passed = other ∨ passed ∈ settled := by
  rw [Function.update_apply] at hother
  split at hother
  case isTrue htarget =>
    subst htarget
    obtain ⟨path, hbranch, htoll, hsimple, hpassed⟩ := hprogress.branch node cost hdist
    have hinside : ∀ passed ∈ graph.visits source path, passed ∈ settled := by
      intro passed hmem
      exact (hpassed passed hmem).elim (fun heq => heq ▸ hnode) id
    refine ⟨path ++ [edge], .step hsource (Function.update_self _ _ _) hedge husable
      (hbranch.update fun hmem => hopen (hinside _ hmem)), ?_, ?_, ?_⟩
    · rw [toll_snoc, htoll]
      exact Option.some.inj hother
    · rw [Simple, visits_snoc, List.nodup_append]
      refine ⟨hsimple, List.nodup_singleton _, fun passed hmem new hnew heq => ?_⟩
      exact hopen (List.mem_singleton.mp hnew ▸ heq ▸ hinside passed hmem)
    · rw [visits_snoc, List.forall_mem_append]
      exact ⟨fun passed hmem => .inr (hinside passed hmem),
        fun passed hmem => .inl (List.mem_singleton.mp hmem)⟩
  case isFalse htarget =>
    obtain ⟨path, hbranch, htoll, hsimple, hpassed⟩ := hprogress.branch other otherCost hother
    refine ⟨path, hbranch.update fun hmem => ?_, htoll, hsimple, hpassed⟩
    rcases hpassed _ hmem with hsame | hsettled
    · exact htarget hsame.symm
    · exact hopen hsettled

theorem improved_relaxed (hprogress : graph.Progress source settled
      (fun waivedNode other => waivedNode = node ∧ other ∈ edge :: edges) state)
    (hdist : state.dist node = some cost)
    (hbelow : ∀ known, state.dist (graph.target edge) = some known →
      cost + graph.weight edge < known)
    {other : V} (hmem : other ∈ settled) {otherCost : Nat}
    (hcost : state.dist other = some otherCost) {otherEdge : E}
    (hotherEdge : otherEdge ∈ graph.out other) (husable : graph.usable otherEdge = true)
    (hwaived : ¬ (other = node ∧ otherEdge ∈ edges))
    (hsum : otherCost + graph.weight otherEdge < graph.unreached) :
    ∃ next, Function.update state.dist (graph.target edge) (some (cost + graph.weight edge))
        (graph.target otherEdge) = some next ∧ next ≤ otherCost + graph.weight otherEdge := by
  by_cases hsame : other = node ∧ otherEdge = edge
  case pos =>
    obtain ⟨rfl, rfl⟩ := hsame
    rw [hdist] at hcost
    exact ⟨_, Function.update_self _ _ _, Option.some.inj hcost ▸ Nat.le_refl _⟩
  case neg =>
    obtain ⟨known, hknown, hle⟩ := hprogress.relaxed other hmem otherCost hcost otherEdge
      hotherEdge husable (not_waived hsame hwaived) hsum
    rw [Function.update_apply]
    split
    case isTrue htarget => exact ⟨_, rfl, ((hbelow known (htarget ▸ hknown)).le).trans hle⟩
    case isFalse => exact ⟨known, hknown, hle⟩

theorem improved (hprogress : graph.Progress source settled
      (fun waivedNode other => waivedNode = node ∧ other ∈ edge :: edges) state)
    (hnode : node ∈ settled) (hdist : state.dist node = some cost)
    (htop : ∀ other ∈ settled, ∀ otherCost, state.dist other = some otherCost → otherCost ≤ cost)
    (hedge : edge ∈ graph.out node) (husable : graph.usable edge = true)
    (hopen : graph.target edge ∉ settled) (hsource : graph.target edge ≠ source)
    (hless : cost + graph.weight edge <
      (state.dist (graph.target edge)).getD graph.unreached) :
    graph.Progress source settled (fun waivedNode other => waivedNode = node ∧ other ∈ edges)
      { dist := Function.update state.dist (graph.target edge) (some (cost + graph.weight edge))
        prev := Function.update state.prev (graph.target edge) (some (node, edge))
        heap := (cost + graph.weight edge, graph.target edge) :: state.heap } := by
  have hbelow : ∀ known, state.dist (graph.target edge) = some known →
      cost + graph.weight edge < known := by
    intro known hknown
    rwa [hknown, Option.getD_some] at hless
  have hfits : cost + graph.weight edge < graph.unreached := by
    cases htarget : state.dist (graph.target edge) with
    | none => rwa [htarget, Option.getD_none] at hless
    | some known => exact (hbelow known htarget).trans (hprogress.bounded _ _ htarget)
  have helsewhere : ∀ other ∈ settled, other ≠ graph.target edge :=
    fun other hother heq => hopen (heq ▸ hother)
  constructor
  case root => simpa [Function.update_of_ne (Ne.symm hsource)] using hprogress.root
  case bounded =>
    intro other otherCost hother
    simp only [Function.update_apply] at hother
    split at hother
    · exact Option.some.inj hother ▸ hfits
    · exact hprogress.bounded other otherCost hother
  case linked =>
    intro other hnone
    simp only [Function.update_apply] at hnone ⊢
    split at hnone
    · contradiction
    case isFalse htarget =>
      rw [if_neg htarget]
      exact hprogress.linked other hnone
  case branch =>
    intro other otherCost hother
    exact hprogress.improved_branch hnode hdist hedge husable hopen hsource hother
  case reached =>
    intro other hother
    simpa [Function.update_of_ne (helsewhere other hother)] using hprogress.reached other hother
  case entries =>
    rw [List.forall_mem_cons]
    refine ⟨⟨_, Function.update_self _ _ _, Nat.le_refl _, fun hmem => absurd hmem hopen⟩, ?_⟩
    intro entry hentry
    obtain ⟨known, hknown, hle, hlater⟩ := hprogress.entries entry hentry
    by_cases htarget : entry.2 = graph.target edge
    · refine ⟨cost + graph.weight edge, ?_, ?_, fun hmem => absurd (htarget ▸ hmem) hopen⟩
      · simp [htarget]
      · exact ((hbelow known (htarget ▸ hknown)).trans_le hle).le
    · refine ⟨known, ?_, hle, hlater⟩
      simpa [Function.update_of_ne htarget] using hknown
  case distinct =>
    rw [List.nodup_cons]
    refine ⟨fun hmem => ?_, hprogress.distinct⟩
    obtain ⟨known, hknown, hle, -⟩ := hprogress.entries _ hmem
    exact absurd (hbelow known hknown) (Nat.not_lt.mpr hle)
  case opened =>
    intro other otherCost hother hnot
    simp only [Function.update_apply] at hother
    split at hother
    case isTrue htarget =>
      rw [htarget, ← Option.some.inj hother]
      exact List.mem_cons_self
    case isFalse htarget =>
      exact List.mem_cons_of_mem _ (hprogress.opened other otherCost hother hnot)
  case floor =>
    intro other hother otherCost hcost
    simp only [Function.update_of_ne (helsewhere other hother)] at hcost
    rw [List.forall_mem_cons]
    refine ⟨?_, hprogress.floor other hother otherCost hcost⟩
    exact (htop other hother otherCost hcost).trans (Nat.le_add_right _ _)
  case relaxed =>
    intro other hmem otherCost hcost otherEdge hotherEdge hotherUsable hwaived hsum
    simp only [Function.update_of_ne (helsewhere other hmem)] at hcost
    exact hprogress.improved_relaxed hdist hbelow hmem hcost hotherEdge hotherUsable hwaived hsum

theorem relaxEdge (hexact : graph.ExactAt cost node)
    (hprogress : graph.Progress source settled
      (fun waivedNode other => waivedNode = node ∧ other ∈ edge :: edges) state)
    (hnode : node ∈ settled) (hdist : state.dist node = some cost)
    (htop : ∀ other ∈ settled, ∀ otherCost, state.dist other = some otherCost → otherCost ≤ cost)
    (hedge : edge ∈ graph.out node) :
    graph.Progress source settled (fun waivedNode other => waivedNode = node ∧ other ∈ edges)
        (graph.relaxEdge cost node state edge) ∧
      ∀ other ∈ settled, (graph.relaxEdge cost node state edge).dist other =
        state.dist other := by
  unfold Routing.relaxEdge
  cases husable : graph.usable edge with
  | false =>
      rw [if_pos rfl]
      refine ⟨hprogress.passed hdist fun husable' => ?_, fun _ _ => rfl⟩
      rw [husable] at husable'
      contradiction
  | true =>
      simp only [hexact edge hedge husable, Bool.true_eq_false, if_false]
      split
      case isTrue hless =>
        have hopen : graph.target edge ∉ settled := by
          intro hmem
          obtain ⟨known, hknown⟩ := hprogress.reached _ hmem
          have hle := htop _ hmem known hknown
          rw [hknown, Option.getD_some] at hless
          omega
        have hsource : graph.target edge ≠ source := by
          intro heq
          rw [heq, hprogress.root, Option.getD_some] at hless
          exact Nat.not_lt_zero _ hless
        refine ⟨hprogress.improved hnode hdist htop hedge husable hopen hsource hless, ?_⟩
        intro other hother
        have hne : other ≠ graph.target edge := fun heq => hopen (heq ▸ hother)
        exact Function.update_of_ne hne _ _
      case isFalse hnot =>
        refine ⟨hprogress.passed hdist fun _ hsum => ?_, fun _ _ => rfl⟩
        cases htarget : state.dist (graph.target edge) with
        | none =>
            rw [htarget, Option.getD_none] at hnot
            exact absurd hsum hnot
        | some known =>
            rw [htarget, Option.getD_some] at hnot
            exact ⟨known, rfl, Nat.le_of_not_lt hnot⟩

theorem scan (hexact : graph.ExactAt cost node)
    (hprogress : graph.Progress source settled
      (fun waivedNode other => waivedNode = node ∧ other ∈ graph.out node) state)
    (hnode : node ∈ settled) (hdist : state.dist node = some cost)
    (htop : ∀ other ∈ settled, ∀ otherCost, state.dist other = some otherCost →
      otherCost ≤ cost) :
    graph.Progress source settled (fun _ _ => False) (graph.scan cost node state) := by
  have hedges : ∀ (edges : List E) (current : SearchState V E),
      (∀ edge ∈ edges, edge ∈ graph.out node) →
      graph.Progress source settled (fun waivedNode other => waivedNode = node ∧ other ∈ edges)
        current →
      current.dist node = some cost →
      (∀ other ∈ settled, ∀ otherCost, current.dist other = some otherCost → otherCost ≤ cost) →
        graph.Progress source settled (fun _ _ => False)
          (edges.foldl (graph.relaxEdge cost node) current) := by
    intro edges
    induction edges with
    | nil =>
        intro current _ hcurrent _ _
        refine { hcurrent with relaxed := ?_ }
        intro other hmem otherCost hcost edge hedge husable _ hsum
        exact hcurrent.relaxed other hmem otherCost hcost edge hedge husable
          (fun hwaived => List.not_mem_nil hwaived.2) hsum
    | cons edge edges ih =>
        intro current hsubset hcurrent hknown hbelow
        obtain ⟨hnext, hsame⟩ := hcurrent.relaxEdge hexact hnode hknown hbelow
          (hsubset edge List.mem_cons_self)
        refine ih _ (fun other hother => hsubset other (List.mem_cons_of_mem _ hother)) hnext ?_ ?_
        · rw [hsame node hnode, hknown]
        · intro other hother otherCost hcost
          rw [hsame other hother] at hcost
          exact hbelow other hother otherCost hcost
  exact hedges _ state (fun _ hedge => hedge) hprogress hdist htop

end Relax

theorem cut (hprogress : graph.Progress source settled (fun _ _ => False) state)
    (hwalk : graph.Walk source path node) (hbelow : graph.toll path < graph.unreached) :
    (node ∈ settled ∧ ∃ cost, state.dist node = some cost ∧ cost ≤ graph.toll path) ∨
      ∃ entry ∈ state.heap, entry.1 ≤ graph.toll path ∧ entry.2 ∈ graph.visits source path := by
  induction hwalk with
  | nil =>
      by_cases hsettled : source ∈ settled
      · exact .inl ⟨hsettled, 0, hprogress.root, Nat.le_refl 0⟩
      · exact .inr ⟨(0, source), hprogress.opened source 0 hprogress.root hsettled, Nat.le_refl 0,
          List.mem_cons_self⟩
  | @snoc path node edge hwalk hedge husable ih =>
      rw [toll_snoc] at hbelow ⊢
      rw [visits_snoc]
      rcases ih (by omega) with ⟨hsettled, cost, hdist, hle⟩ | ⟨entry, hentry, hle, hpassed⟩
      · obtain ⟨next, hnext, hnextLe⟩ := hprogress.relaxed node hsettled cost hdist edge hedge
          husable id (by omega)
        by_cases htarget : graph.target edge ∈ settled
        · exact .inl ⟨htarget, next, hnext, by omega⟩
        · exact .inr ⟨_, hprogress.opened _ next hnext htarget, by simp only; omega,
            List.mem_append_right _ (List.mem_singleton_self _)⟩
      · exact .inr ⟨entry, hentry, by omega, List.mem_append_left _ hpassed⟩

end Progress

end Routing

end Doli.Lib
