import Doli.Lib.CheapestWalk

/-!
# The end of a search

A search with enough fuel stops, at a cheapest walk or where every walk costs as much as the
number for "not reached".  Nothing is asked of the costs but that those it computes are exact.
-/

namespace Doli.Lib.Routing

variable {V E : Type} {graph : Routing V E} {source destination : V} {path : List E} {node : V}
  {heap : LeastHeap V}

/-! ## What is taken is cheapest -/

namespace Progress

variable {settled : List V} {state : SearchState V E} {cost : Nat} {rest : List (Nat × V)}

theorem exists_entry (hprogress : graph.Progress source settled (fun _ _ => False) state)
    (hopen : node ∉ settled) (hwalk : graph.Walk source path node)
    (hbelow : graph.toll path < graph.unreached) :
    ∃ entry ∈ state.heap, entry.1 ≤ graph.toll path ∧ entry.2 ∈ graph.visits source path :=
  (hprogress.cut hwalk hbelow).resolve_left fun hsettled => hopen hsettled.1

theorem dist_of_popped (hprogress : graph.Progress source settled (fun _ _ => False) state)
    (hpop : heap.pop state.heap = some ((cost, node), rest)) (hopen : node ∉ settled) :
    state.dist node = some cost := by
  obtain ⟨known, hdist, hle, -⟩ := hprogress.entries _ (popped_mem hpop)
  have hleast : cost ≤ known :=
    heap.least_of_pop hpop _ (hprogress.opened node known hdist hopen)
  have hsame : known = cost := Nat.le_antisymm hle hleast
  exact hsame ▸ hdist

theorem le_toll_of_open (hprogress : graph.Progress source settled (fun _ _ => False) state)
    (hpop : heap.pop state.heap = some ((cost, node), rest)) (hcost : cost < graph.unreached)
    {other : V} (hopen : other ∉ settled) (hwalk : graph.Walk source path other) :
    cost ≤ graph.toll path := by
  by_contra hless
  obtain ⟨entry, hentry, hle, -⟩ := hprogress.exists_entry hopen hwalk (by omega)
  have hleast : cost ≤ entry.1 := heap.least_of_pop hpop entry hentry
  omega

theorem le_toll_of_settled (hprogress : graph.Progress source settled (fun _ _ => False) state)
    (hsettled : node ∈ settled) (hdist : state.dist node = some cost)
    (hwalk : graph.Walk source path node) : cost ≤ graph.toll path := by
  by_contra hless
  have hcost := hprogress.bounded node cost hdist
  rcases hprogress.cut hwalk (by omega) with ⟨-, known, hknown, hle⟩ | ⟨entry, hentry, hle, -⟩
  · rw [hdist] at hknown
    have hsame : cost = known := Option.some.inj hknown
    omega
  · have hfloor := hprogress.floor node hsettled cost hdist entry hentry
    omega

theorem scanned [DecidableEq V]
    (hprogress : graph.Progress source settled (fun _ _ => False) state)
    (hpop : heap.pop state.heap = some ((cost, node), rest))
    (hfresh : ¬ (state.dist node).getD graph.unreached < cost)
    (hexact : graph.ExactAt cost node) :
    graph.Progress source (node :: settled) (fun _ _ => False)
      (graph.scan cost node { state with heap := rest }) := by
  obtain ⟨hdist, -⟩ := fresh hpop hprogress hfresh
  refine (hprogress.settle hpop hfresh).scan hexact List.mem_cons_self hdist ?_
  intro other hmem otherCost hother
  rcases List.mem_cons.mp hmem with rfl | hmem
  · have hsame : some otherCost = some cost := hother.symm.trans hdist
    exact (Option.some.inj hsame).le
  · exact settled_le hpop hprogress other hmem otherCost hother

end Progress

/-! ## The end of a search -/

/-- Where a search stops: the heap is empty, or the destination was taken from it. -/
inductive Stopped (heap : LeastHeap V) (destination : V) (last : SearchState V E) :
    SearchState V E → Prop
  | exhausted (hempty : last.heap = []) : Stopped heap destination last last
  | arrived {cost : Nat} {rest : List (Nat × V)}
      (hpop : heap.pop last.heap = some ((cost, destination), rest)) :
      Stopped heap destination last { last with heap := rest }

/-- What a search leaves behind `prev`: a cheapest walk, or nothing where every walk costs as
much as the number for "not reached". -/
inductive Answered (graph : Routing V E) (source destination : V) (final : SearchState V E) : Prop
  | found {path : List E} (hbranch : graph.Branch final.prev source path destination)
      (hsimple : graph.Simple source path) (hbelow : graph.toll path < graph.unreached)
      (hleast : ∀ other, graph.Walk source other destination →
        graph.toll path ≤ graph.toll other) : Answered graph source destination final
  | lost (hnone : final.prev destination = none)
      (hleast : ∀ other, graph.Walk source other destination →
        graph.unreached ≤ graph.toll other) : Answered graph source destination final

theorem answered_of_stopped {settled : List V} {last final : SearchState V E}
    (hprogress : graph.Progress source settled (fun _ _ => False) last)
    (hdestination : destination ∉ settled) (hstopped : Stopped heap destination last final) :
    graph.Answered source destination final := by
  cases hstopped with
  | exhausted hempty =>
      have hnone : last.dist destination = none := by
        cases hdist : last.dist destination with
        | none => rfl
        | some cost =>
            have hopen := hprogress.opened destination cost hdist hdestination
            rw [hempty] at hopen
            exact absurd hopen List.not_mem_nil
      refine .lost (hprogress.linked _ hnone) fun other hwalk => ?_
      by_contra hbelow
      obtain ⟨entry, hentry, -⟩ :=
        hprogress.exists_entry hdestination hwalk (Nat.lt_of_not_le hbelow)
      rw [hempty] at hentry
      exact List.not_mem_nil hentry
  | @arrived cost rest hpop =>
      have hdist := hprogress.dist_of_popped hpop hdestination
      obtain ⟨path, hbranch, htoll, hsimple, -⟩ := hprogress.branch destination cost hdist
      have hbelow := hprogress.bounded destination cost hdist
      refine .found hbranch hsimple (htoll ▸ hbelow) fun other hwalk => ?_
      rw [htoll]
      exact hprogress.le_toll_of_open hpop hbelow hdestination hwalk

section Ends

variable [DecidableEq V]

/-- Edges out of the nodes that are not settled. -/
def debt (graph : Routing V E) (nodes : Finset V) (settled : List V) : Nat :=
  ∑ node ∈ nodes with node ∉ settled, (graph.out node).length

theorem debt_cons {nodes : Finset V} (hnodes : ∀ node ∉ nodes, graph.out node = [])
    {settled : List V} (hopen : node ∉ settled) :
    graph.debt nodes (node :: settled) + (graph.out node).length ≤
      graph.debt nodes settled := by
  unfold debt
  have hsplit : (nodes.filter fun other => other ∉ node :: settled) =
      (nodes.filter fun other => other ∉ settled).erase node := by
    ext other
    simp only [Finset.mem_filter, List.mem_cons, not_or, Finset.mem_erase]
    tauto
  rw [hsplit]
  by_cases hmem : node ∈ nodes
  · rw [Finset.sum_erase_add _ _ (Finset.mem_filter.mpr ⟨hmem, hopen⟩)]
  · rw [hnodes node hmem, List.length_nil, Nat.add_zero]
    exact Finset.sum_le_sum_of_subset (Finset.erase_subset _ _)

theorem scan_cases (cost : Nat) (node : V) (state : SearchState V E) (other : V) :
    ((graph.scan cost node state).dist other = state.dist other ∧
        (graph.scan cost node state).prev other = state.prev other) ∨
      ∃ edge ∈ graph.out node, graph.usable edge = true ∧ graph.target edge = other ∧
        (graph.scan cost node state).dist other = some (graph.extend cost edge) ∧
        (graph.scan cost node state).prev other = some (node, edge) ∧
        graph.extend cost edge < (state.dist other).getD graph.unreached := by
  unfold scan
  generalize graph.out node = edges
  induction edges generalizing state with
  | nil => exact .inl ⟨rfl, rfl⟩
  | cons edge edges ih =>
      have hone : ((graph.relaxEdge cost node state edge).dist other = state.dist other ∧
            (graph.relaxEdge cost node state edge).prev other = state.prev other) ∨
          graph.usable edge = true ∧ graph.target edge = other ∧
            (graph.relaxEdge cost node state edge).dist other = some (graph.extend cost edge) ∧
            (graph.relaxEdge cost node state edge).prev other = some (node, edge) ∧
            graph.extend cost edge < (state.dist other).getD graph.unreached := by
        unfold relaxEdge
        split
        · exact .inl ⟨rfl, rfl⟩
        case isFalse husable =>
          simp only
          split
          case isTrue hless =>
            by_cases hother : other = graph.target edge
            · subst hother
              exact .inr ⟨by simpa using husable, rfl, Function.update_self ..,
                Function.update_self .., hless⟩
            · exact .inl ⟨Function.update_of_ne hother .., Function.update_of_ne hother ..⟩
          case isFalse => exact .inl ⟨rfl, rfl⟩
      rw [List.foldl_cons]
      rcases ih (graph.relaxEdge cost node state edge) with
        ⟨hdist, hprev⟩ | ⟨last, hlast, husable, htarget, hdist, hprev, hless⟩
      · rw [hdist, hprev]
        rcases hone with hsame | ⟨husable, htarget, hnew⟩
        · exact .inl hsame
        · exact .inr ⟨edge, List.mem_cons_self, husable, htarget, hnew⟩
      · refine .inr ⟨last, List.mem_cons_of_mem _ hlast, husable, htarget, hdist, hprev, ?_⟩
        rcases hone with ⟨hsame, -⟩ | ⟨-, -, hnew, -, hbelow⟩
        · rwa [hsame] at hless
        · rw [hnew, Option.getD_some] at hless
          exact hless.trans hbelow

theorem Progress.dist_scan {settled : List V} {state : SearchState V E} {cost : Nat}
    {rest : List (Nat × V)}
    (hprogress : graph.Progress source settled (fun _ _ => False) state)
    (hpop : heap.pop state.heap = some ((cost, node), rest))
    (hdist : state.dist node = some cost) (hexact : graph.ExactAt cost node)
    {other : V} (hother : other ∈ node :: settled) :
    (graph.scan cost node { state with heap := rest }).dist other = state.dist other := by
  rcases graph.scan_cases cost node { state with heap := rest } other with
    ⟨hsame, -⟩ | ⟨edge, hedge, husable, -, -, -, hless⟩
  · exact hsame
  · rw [hexact edge hedge husable] at hless
    rcases List.mem_cons.mp hother with rfl | hother
    · rw [hdist, Option.getD_some] at hless
      omega
    · obtain ⟨known, hknown⟩ := hprogress.reached other hother
      have hle := Progress.settled_le hpop hprogress other hother known hknown
      rw [hknown, Option.getD_some] at hless
      omega

theorem mem_heap_scan {cost : Nat} {state : SearchState V E} {entry : Nat × V}
    (hentry : entry ∈ (graph.scan cost node state).heap) :
    entry ∈ state.heap ∨ ∃ edge ∈ graph.out node, graph.usable edge = true ∧
      entry = (graph.extend cost edge, graph.target edge) := by
  unfold scan at hentry
  generalize graph.out node = edges at hentry ⊢
  induction edges generalizing state with
  | nil => exact .inl hentry
  | cons edge edges ih =>
      rcases ih hentry with hentry | ⟨other, hother, hnew⟩
      · unfold relaxEdge at hentry
        split at hentry
        · exact .inl hentry
        case isFalse husable =>
          simp only at hentry
          split at hentry
          · rcases List.mem_cons.mp hentry with hnew | hentry
            · exact .inr ⟨edge, List.mem_cons_self, by simpa using husable, hnew⟩
            · exact .inl hentry
          · exact .inl hentry
      · exact .inr ⟨other, List.mem_cons_of_mem _ hother, hnew⟩

theorem Scans.entry_rule {keeps : Nat → V → Prop}
    (hedge : ∀ cost node, keeps cost node → node ≠ destination → ∀ edge ∈ graph.out node,
      graph.usable edge = true → keeps (graph.extend cost edge) (graph.target edge))
    {state : SearchState V E} {cost : Nat} (hscans : graph.Scans heap destination state cost node)
    (hheap : ∀ entry ∈ state.heap, keeps entry.1 entry.2) :
    keeps cost node ∧ node ≠ destination := by
  induction hscans with
  | here hpop hnode hfresh => exact ⟨hheap _ (Progress.popped_mem hpop), hnode⟩
  | stale hpop hnode hstale hlater ih =>
      exact ih fun entry hentry => hheap entry (Progress.rest_subset hpop entry hentry)
  | later hpop hnode hfresh hlater ih =>
      refine ih fun entry hentry => ?_
      rcases mem_heap_scan hentry with hentry | ⟨edge, hmem, husable, rfl⟩
      · exact hheap entry (Progress.rest_subset hpop entry hentry)
      · exact hedge _ _ (hheap _ (Progress.popped_mem hpop)) hnode edge hmem husable

theorem length_heap_scan (cost : Nat) (node : V) (state : SearchState V E) :
    (graph.scan cost node state).heap.length ≤ state.heap.length + (graph.out node).length := by
  unfold scan
  induction graph.out node generalizing state with
  | nil => exact Nat.le_refl _
  | cons edge edges ih =>
      have hone : (graph.relaxEdge cost node state edge).heap.length ≤ state.heap.length + 1 := by
        unfold relaxEdge
        split
        · exact Nat.le_succ _
        · simp only
          split
          · exact Nat.le_refl _
          · exact Nat.le_succ _
      have hrest := ih (graph.relaxEdge cost node state edge)
      rw [List.foldl_cons, List.length_cons]
      omega

/-- The rule of a search: what every step keeps holds where it stops, and it stops before the
fuel runs out. -/
theorem search_rule {nodes : Finset V} (hnodes : ∀ node ∉ nodes, graph.out node = [])
    {scanned : Nat → V → Prop} (hexact : ∀ cost node, scanned cost node → graph.ExactAt cost node)
    {keeps : List V → SearchState V E → Prop}
    (hstale : ∀ settled state rest, graph.Progress source settled (fun _ _ => False) state →
      keeps settled state → keeps settled { state with heap := rest })
    (hscan : ∀ settled state cost node rest,
      graph.Progress source settled (fun _ _ => False) state → destination ∉ settled →
      keeps settled state → heap.pop state.heap = some ((cost, node), rest) →
      node ≠ destination → node ∉ settled → state.dist node = some cost → scanned cost node →
        keeps (node :: settled) (graph.scan cost node { state with heap := rest }))
    (fuel : Nat) (settled : List V) (state : SearchState V E)
    (hscans : ∀ cost node, graph.Scans heap destination state cost node → scanned cost node)
    (hprogress : graph.Progress source settled (fun _ _ => False) state)
    (hdestination : destination ∉ settled) (hkeeps : keeps settled state)
    (hfuel : state.heap.length + graph.debt nodes settled < fuel) :
    ∃ settledLast last final, graph.search heap destination fuel state = some final ∧
      graph.Progress source settledLast (fun _ _ => False) last ∧
      destination ∉ settledLast ∧ keeps settledLast last ∧
      Stopped heap destination last final := by
  induction fuel generalizing settled state with
  | zero => contradiction
  | succ fuel ih =>
      rw [search]
      cases hpop : heap.pop state.heap with
      | none =>
          refine ⟨settled, state, state, rfl, hprogress, hdestination, hkeeps, .exhausted ?_⟩
          by_contra hsome
          have hisSome := heap.pop_isSome state.heap hsome
          rw [hpop] at hisSome
          contradiction
      | some popped =>
          obtain ⟨⟨cost, node⟩, rest⟩ := popped
          have hlength := (heap.perm_of_pop hpop).length_eq
          rw [List.length_cons] at hlength
          simp only
          split
          case isTrue hnode =>
            subst hnode
            exact ⟨settled, state, _, rfl, hprogress, hdestination, hkeeps, .arrived hpop⟩
          case isFalse hnode =>
            split
            case isTrue hold =>
              refine ih settled { state with heap := rest } ?_ (hprogress.stale hpop hold)
                hdestination (hstale settled state rest hprogress hkeeps) (by simp only; omega)
              exact fun paid other hlater => hscans paid other (.stale hpop hnode hold hlater)
            case isFalse hfresh =>
              obtain ⟨hdist, hopen⟩ := Progress.fresh hpop hprogress hfresh
              have hnow := hscans cost node (.here hpop hnode hfresh)
              have hdebt := @debt_cons _ _ graph node _ _ hnodes _ hopen
              have hheap := @length_heap_scan _ _ graph _ cost node { state with heap := rest }
              refine ih (node :: settled) _ ?_
                (hprogress.scanned hpop hfresh (hexact cost node hnow)) ?_
                (hscan settled state cost node rest hprogress hdestination hkeeps hpop hnode hopen
                  hdist hnow)
                (by simp only at hheap; omega)
              · exact fun paid other hlater => hscans paid other (.later hpop hnode hfresh hlater)
              · rw [List.mem_cons, not_or]
                exact ⟨Ne.symm hnode, hdestination⟩

theorem search_answered {nodes : Finset V} (hnodes : ∀ node ∉ nodes, graph.out node = [])
    (hexact : ∀ cost node, graph.Scans heap destination (start source) cost node →
      graph.ExactAt cost node)
    (hpositive : 0 < graph.unreached) {fuel : Nat} (hfuel : 1 + graph.debt nodes [] < fuel) :
    ∃ final, graph.search heap destination fuel (start source) = some final ∧
      graph.Answered source destination final := by
  obtain ⟨settled, last, final, hsearch, hprogress, hdestination, -, hstopped⟩ :=
    @search_rule _ _ graph source destination heap _ nodes hnodes _ hexact (fun _ _ => True)
      (fun _ _ _ _ _ => trivial) (fun _ _ _ _ _ _ _ _ _ _ _ _ _ => trivial) fuel []
      (start source) (fun _ _ => id) (.start hpositive) List.not_mem_nil trivial hfuel
  exact ⟨final, hsearch, answered_of_stopped hprogress hdestination hstopped⟩

theorem search_mono {fuel more : Nat} (hle : fuel ≤ more)
    {state final : SearchState V E}
    (hsearch : graph.search heap destination fuel state = some final) :
    graph.search heap destination more state = some final := by
  induction fuel generalizing state more with
  | zero => contradiction
  | succ fuel ih =>
      obtain ⟨more, rfl⟩ : ∃ fewer, more = fewer + 1 := ⟨more - 1, by omega⟩
      rw [search] at hsearch ⊢
      split at hsearch
      · exact hsearch
      · split at hsearch
        case isTrue hnode => rw [if_pos hnode]; exact hsearch
        case isFalse hnode =>
          rw [if_neg hnode]
          split at hsearch
          case isTrue hold => rw [if_pos hold]; exact ih (by omega) hsearch
          case isFalse hfresh => rw [if_neg hfresh]; exact ih (by omega) hsearch

end Ends

end Doli.Lib.Routing
