import Doli.Lib.CheapestSearch
import Mathlib.Data.Finset.Max

/-!
# Which of the cheapest walks

Where several cheapest walks join two nodes, the one that a search answers depends on how the
heap breaks ties.  The nodes that some heap has scanned are those a cheapest walk around the
destination reaches; the walks that some heap answers take each hop from a node as cheap to
reach as any other that leads there.
-/

namespace Doli.Lib.Routing

variable {V E : Type}

/-! ## What is scanned under some heap -/

/-- A cheapest walk that does not pass the destination, and costs no more than it. -/
structure Scannable (graph : Routing V E) (source destination : V) (path : List E) (node : V) :
    Prop where
  walk : graph.Walk source path node
  below : graph.toll path < graph.unreached
  least : ∀ other, graph.Walk source other node → graph.toll path ≤ graph.toll other
  within : ∀ other, graph.Walk source other destination → graph.toll path ≤ graph.toll other
  passes : destination ∉ graph.visits source path

variable {graph : Routing V E} {source destination : V} {path : List E} {node : V}
  {heap : LeastHeap V}

theorem Progress.scannable {settled : List V} {state : SearchState V E} {cost : Nat}
    {rest : List (Nat × V)}
    (hprogress : graph.Progress source settled (fun _ _ => False) state)
    (hdestination : destination ∉ settled)
    (hpop : heap.pop state.heap = some ((cost, node), rest)) (hnode : node ≠ destination)
    (hfresh : ¬ (state.dist node).getD graph.unreached < cost) :
    ∃ path, graph.Scannable source destination path node ∧ graph.toll path = cost := by
  obtain ⟨hdist, hopen⟩ := Progress.fresh hpop hprogress hfresh
  have hcost := hprogress.bounded node cost hdist
  obtain ⟨path, hbranch, htoll, -, hpassed⟩ := hprogress.branch node cost hdist
  refine ⟨path, ⟨hbranch.walk, htoll ▸ hcost, ?_, ?_, ?_⟩, htoll⟩
  · exact fun other hother => htoll ▸ hprogress.le_toll_of_open hpop hcost hopen hother
  · exact fun other hother => htoll ▸ hprogress.le_toll_of_open hpop hcost hdestination hother
  · intro hmem
    rcases hpassed destination hmem with hsame | hsettled
    · exact hnode hsame.symm
    · exact hdestination hsettled

section Exact

variable [DecidableEq V] {holds : Nat → V → Prop}

theorem scannable_of_scans (hexact : ∀ cost node, holds cost node → graph.ExactAt cost node)
    (hholds : ∀ path node, graph.Scannable source destination path node →
      holds (graph.toll path) node)
    {state : SearchState V E} {cost : Nat} (hscans : graph.Scans heap destination state cost node)
    {settled : List V} (hprogress : graph.Progress source settled (fun _ _ => False) state)
    (hdestination : destination ∉ settled) : holds cost node := by
  induction hscans generalizing settled with
  | here hpop hnode hfresh =>
      obtain ⟨path, hpath, rfl⟩ := hprogress.scannable hdestination hpop hnode hfresh
      exact hholds path _ hpath
  | stale hpop hnode hstale hlater ih => exact ih (hprogress.stale hpop hstale) hdestination
  | later hpop hnode hfresh hlater ih =>
      obtain ⟨path, hpath, rfl⟩ := hprogress.scannable hdestination hpop hnode hfresh
      refine ih (hprogress.scanned hpop hfresh (hexact _ _ (hholds path _ hpath))) ?_
      rw [List.mem_cons, not_or]
      exact ⟨Ne.symm hnode, hdestination⟩

theorem scans_of_scannable {nodes : Finset V} (hnodes : ∀ node ∉ nodes, graph.out node = [])
    (hpath : graph.Scannable source destination path node)
    (hheap : heap = .preferring fun other => if other ∈ graph.visits source path then 0 else 1)
    (hexact : ∀ cost node, graph.Scans heap destination (start source) cost node →
      graph.ExactAt cost node) :
    graph.Scans heap destination (start source) (graph.toll path) node := by
  obtain ⟨settled, last, final, -, hprogress, hdestination, hkeeps, hstopped⟩ :=
    @search_rule _ _ graph source destination heap _ nodes hnodes _ hexact
      (fun settled state => ∀ other ∈ settled, ∀ cost, state.dist other = some cost →
        graph.Scans heap destination (start source) cost other)
      (fun _ _ _ _ hkeeps => hkeeps)
      (by
        intro settled state cost node rest hprogress _ hkeeps hpop _ _ hdist hscans other hother
          known hknown
        rw [hprogress.dist_scan hpop hdist (hexact cost node hscans) hother] at hknown
        rcases List.mem_cons.mp hother with rfl | hother
        · rw [hdist] at hknown
          exact Option.some.inj hknown ▸ hscans
        · exact hkeeps other hother known hknown)
      _ [] (start source) (fun _ _ => id) (.start (Nat.zero_lt_of_lt hpath.below))
      List.not_mem_nil (fun other hother => absurd hother List.not_mem_nil) (Nat.lt_succ_self _)
  rcases hprogress.cut hpath.walk hpath.below with
    ⟨hsettled, cost, hdist, hle⟩ | ⟨entry, hentry, hle, hpassed⟩
  · obtain ⟨other, hbranch, htoll, -⟩ := hprogress.branch node cost hdist
    have hleast := hpath.least other hbranch.walk
    have hsame : cost = graph.toll path := by omega
    exact hsame ▸ hkeeps node hsettled cost hdist
  · exfalso
    cases hstopped with
    | exhausted hempty =>
        rw [hempty] at hentry
        exact List.not_mem_nil hentry
    | @arrived cost rest hpop =>
        have hdist := hprogress.dist_of_popped hpop hdestination
        obtain ⟨other, hbranch, htoll, -⟩ := hprogress.branch destination cost hdist
        have hwithin := hpath.within other hbranch.walk
        have hleast : cost ≤ entry.1 := heap.least_of_pop hpop entry hentry
        subst hheap
        have hrank := LeastHeap.rank_le_of_pop hpop hentry (by simp only; omega)
        rw [if_neg hpath.passes, if_pos hpassed] at hrank
        exact absurd hrank (by decide)

theorem forall_scans_iff {nodes : Finset V} (hnodes : ∀ node ∉ nodes, graph.out node = [])
    (hpositive : 0 < graph.unreached)
    (hexact : ∀ cost node, holds cost node → graph.ExactAt cost node) :
    (∀ (heap : LeastHeap V) cost node, graph.Scans heap destination (start source) cost node →
        holds cost node) ↔
      ∀ path node, graph.Scannable source destination path node →
        holds (graph.toll path) node := by
  constructor
  · intro hholds path node hpath
    exact hholds _ _ _ (scans_of_scannable hnodes hpath rfl fun cost node hscans =>
      hexact cost node (hholds _ cost node hscans))
  · intro hholds heap cost node hscans
    exact scannable_of_scans hexact hholds hscans (.start hpositive) List.not_mem_nil

end Exact

/-! ## What is answered under every heap -/

/-- Each hop of the walk comes from a node as cheap as any that a cheapest walk can come from,
and from the source where that is one. -/
inductive Early (graph : Routing V E) (source : V) : List E → V → Prop
  | nil : Early graph source [] source
  | snoc {path : List E} {node : V} {edge : E} (hearly : Early graph source path node)
      (hedge : edge ∈ graph.out node) (husable : graph.usable edge = true)
      (hleast : ∀ other, graph.Walk source other (graph.target edge) →
        graph.toll path + graph.weight edge ≤ graph.toll other)
      (hfirst : ∀ other before last, graph.Walk source other before →
        last ∈ graph.out before → graph.usable last = true →
        graph.target last = graph.target edge →
        graph.toll other + graph.weight last = graph.toll path + graph.weight edge →
          graph.toll path ≤ graph.toll other ∧ (before = source → node = source)) :
      Early graph source (path ++ [edge]) (graph.target edge)

theorem Early.walk (hearly : graph.Early source path node) : graph.Walk source path node := by
  induction hearly with
  | nil => exact .nil
  | snoc hearly hedge husable hleast hfirst ih => exact .snoc ih hedge husable

theorem Early.least (hearly : graph.Early source path node) {other : List E}
    (hwalk : graph.Walk source other node) : graph.toll path ≤ graph.toll other := by
  cases hearly with
  | nil => exact Nat.zero_le _
  | snoc hearly hedge husable hleast hfirst =>
      rw [toll_snoc]
      exact hleast other hwalk

/-- What a search keeps of `prev`: it names a node as cheap as any settled one that leads as
cheaply, and the source before any other. -/
structure PrevEarly (graph : Routing V E) (source : V) (settled : List V)
    (state : SearchState V E) : Prop where
  rooted : ∀ node ∈ settled, source ∈ settled
  named : ∀ node before edge, state.prev node = some (before, edge) →
    before ∈ settled ∧ ∃ paid, state.dist before = some paid ∧
      state.dist node = some (paid + graph.weight edge) ∧
      ∀ other ∈ settled, ∀ otherPaid, state.dist other = some otherPaid →
        ∀ last ∈ graph.out other, graph.usable last = true → graph.target last = node →
        otherPaid + graph.weight last = paid + graph.weight edge →
          paid ≤ otherPaid ∧ (other = source → before = source)

section Prev

variable [DecidableEq V]

theorem PrevEarly.start :
    graph.PrevEarly source [] (Routing.start source : SearchState V E) where
  rooted _ hnode := absurd hnode List.not_mem_nil
  named _ _ _ hprev := by contradiction

theorem PrevEarly.scan {settled : List V} {state : SearchState V E} {cost : Nat}
    {rest : List (Nat × V)} (hearly : graph.PrevEarly source settled state)
    (hprogress : graph.Progress source settled (fun _ _ => False) state)
    (hpop : heap.pop state.heap = some ((cost, node), rest)) (hopen : node ∉ settled)
    (hdist : state.dist node = some cost) (hexact : graph.ExactAt cost node) :
    graph.PrevEarly source (node :: settled)
      (graph.scan cost node { state with heap := rest }) := by
  have hkept : ∀ other ∈ node :: settled,
      (graph.scan cost node { state with heap := rest }).dist other = state.dist other :=
    fun other hother => hprogress.dist_scan hpop hdist hexact hother
  have hnow := (hkept node List.mem_cons_self).trans hdist
  constructor
  case rooted =>
    intro _ _
    by_cases hsource : source ∈ settled
    · exact List.mem_cons_of_mem _ hsource
    · -- the branch of the first node taken passes nothing else
      obtain ⟨path, -, -, -, hpassed⟩ := hprogress.branch node cost hdist
      rcases hpassed source List.mem_cons_self with hsame | hsettled
      · exact List.mem_cons.mpr (.inl hsame)
      · exact absurd hsettled hsource
  case named =>
    intro other before edge hprev
    rcases graph.scan_cases cost node { state with heap := rest } other with
      ⟨hdistSame, hprevSame⟩ | ⟨last, hlast, husable, htarget, hdistNew, hprevNew, hless⟩
    · rw [hprevSame] at hprev
      obtain ⟨hbefore, paid, hpaid, hcost, hfirst⟩ := hearly.named other before edge hprev
      refine ⟨List.mem_cons_of_mem _ hbefore, paid, ?_, hdistSame.trans hcost, ?_⟩
      · exact (hkept before (List.mem_cons_of_mem _ hbefore)).trans hpaid
      · intro rival hrival rivalPaid hrivalPaid last hlast husable htarget hsum
        rw [hkept rival hrival] at hrivalPaid
        rcases List.mem_cons.mp hrival with rfl | hrival
        · rw [hdist] at hrivalPaid
          obtain rfl := Option.some.inj hrivalPaid
          refine ⟨Progress.settled_le hpop hprogress before hbefore paid hpaid, ?_⟩
          rintro rfl
          exact absurd (hearly.rooted before hbefore) hopen
        · exact hfirst rival hrival rivalPaid hrivalPaid last hlast husable htarget hsum
    · rw [hprevNew] at hprev
      obtain ⟨rfl, rfl⟩ := Prod.mk.inj (Option.some.inj hprev)
      rw [hexact last hlast husable] at hdistNew hless
      refine ⟨List.mem_cons_self, cost, hnow, hdistNew, ?_⟩
      intro rival hrival rivalPaid hrivalPaid other' hother' husable' htarget' hsum
      rw [hkept rival hrival] at hrivalPaid
      rcases List.mem_cons.mp hrival with rfl | hrival
      · rw [hdist] at hrivalPaid
        exact ⟨(Option.some.inj hrivalPaid).le, id⟩
      · -- what a settled node leads to cannot be improved to the same cost
        have hbelow : cost + graph.weight last < graph.unreached := by
          cases hknown : state.dist other with
          | none => rwa [hknown, Option.getD_none] at hless
          | some known =>
              rw [hknown, Option.getD_some] at hless
              exact hless.trans (hprogress.bounded other known hknown)
        obtain ⟨next, hnext, hle⟩ := hprogress.relaxed rival hrival rivalPaid hrivalPaid other'
          hother' husable' id (hsum ▸ hbelow)
        rw [htarget'] at hnext
        rw [hnext, Option.getD_some] at hless
        omega

theorem PrevEarly.early {settled : List V} {state : SearchState V E}
    (hearly : graph.PrevEarly source settled state)
    (hprogress : graph.Progress source settled (fun _ _ => False) state)
    (hbranch : graph.Branch state.prev source path node)
    (hcheap : ∀ cost, state.dist node = some cost → ∀ other, graph.Walk source other node →
      cost ≤ graph.toll other) :
    graph.Early source path node ∧ state.dist node = some (graph.toll path) := by
  induction hbranch with
  | source => exact ⟨.nil, hprogress.root⟩
  | @step before edge path hnode hprev hedge husable hbranch ih =>
      obtain ⟨hbefore, paid, hpaid, hcost, hfirst⟩ := hearly.named _ before edge hprev
      obtain ⟨hpath, hdist⟩ := ih fun cost hdist other hwalk =>
        hprogress.le_toll_of_settled hbefore hdist hwalk
      have hsame : paid = graph.toll path := Option.some.inj (hpaid.symm.trans hdist)
      subst hsame
      refine ⟨.snoc hpath hedge husable (hcheap _ hcost) ?_, by rw [toll_snoc]; exact hcost⟩
      intro other rival last hwalk hlast hlastUsable htarget hsum
      by_cases hrival : rival ∈ settled
      · obtain ⟨rivalPaid, hrivalPaid⟩ := hprogress.reached rival hrival
        have hle := hprogress.le_toll_of_settled hrival hrivalPaid hwalk
        obtain ⟨cheapest, hcheapest, htoll, -⟩ := hprogress.branch rival rivalPaid hrivalPaid
        have hleast := hcheap _ hcost (cheapest ++ [last])
          (htarget ▸ .snoc hcheapest.walk hlast hlastUsable)
        rw [toll_snoc] at hleast
        have hequal : rivalPaid = graph.toll other := by omega
        subst hequal
        exact hfirst rival hrival _ hrivalPaid last hlast hlastUsable htarget hsum
      · have hbelow := hprogress.bounded _ _ hcost
        refine ⟨?_, ?_⟩
        · obtain ⟨entry, hentry, hle, -⟩ := hprogress.exists_entry hrival hwalk (by omega)
          exact (hprogress.floor before hbefore _ hpaid entry hentry).trans hle
        · rintro rfl
          exact absurd (hearly.rooted before hbefore) hrival

theorem search_early {nodes : Finset V} (hnodes : ∀ node ∉ nodes, graph.out node = [])
    (hexact : ∀ cost node, graph.Scans heap destination (Routing.start source) cost node →
      graph.ExactAt cost node)
    (hpositive : 0 < graph.unreached) {fuel : Nat} (hfuel : 1 + graph.debt nodes [] < fuel) :
    ∃ final, graph.search heap destination fuel (Routing.start source) = some final ∧
      graph.Answered source destination final ∧
      ∀ path, graph.Branch final.prev source path destination →
        graph.Early source path destination := by
  obtain ⟨settled, last, final, hsearch, hprogress, hdestination, hearly, hstopped⟩ :=
    @search_rule _ _ graph source destination heap _ nodes hnodes _ hexact
      (graph.PrevEarly source)
      (fun _ _ _ _ hearly => ⟨hearly.rooted, hearly.named⟩)
      (fun _ _ cost node _ hprogress _ hearly hpop _ hopen hdist hscans =>
        hearly.scan hprogress hpop hopen hdist (hexact cost node hscans))
      fuel [] (Routing.start source) (fun _ _ => id) (.start hpositive) List.not_mem_nil .start
      hfuel
  refine ⟨final, hsearch, answered_of_stopped hprogress hdestination hstopped, ?_⟩
  intro path hbranch
  have hlast : graph.Branch last.prev source path destination := by
    cases hstopped <;> exact hbranch
  refine (hearly.early hprogress hlast fun cost hdist other hwalk => ?_).1
  cases hstopped with
  | exhausted hempty =>
      have hentry := hprogress.opened destination cost hdist hdestination
      rw [hempty] at hentry
      exact absurd hentry List.not_mem_nil
  | @arrived paid rest hpop =>
      have hpaid := hprogress.dist_of_popped hpop hdestination
      have hsame : cost = paid := Option.some.inj (hdist.symm.trans hpaid)
      rw [hsame]
      exact hprogress.le_toll_of_open hpop (hprogress.bounded _ _ hpaid) hdestination hwalk

end Prev

/-! ## What is answered under some heap -/

/-- Nodes of one cost, each led to by a cheaper node or by an earlier one of them, and by no
cheaper walk from the source alone. -/
structure Detour (graph : Routing V E) (source : V) (level : Nat) [BEq V] (late : List V) :
    Prop where
  below : level < graph.unreached
  positive : 0 < level
  least : ∀ node ∈ late, ∀ other, graph.Walk source other node → level ≤ graph.toll other
  entered : ∀ node ∈ late, ∃ path before edge, graph.Walk source path before ∧
    edge ∈ graph.out before ∧ graph.usable edge = true ∧ graph.target edge = node ∧
    graph.toll path + graph.weight edge = level ∧
    (graph.toll path < level ∨ before ∈ late ∧ late.idxOf before < late.idxOf node)
  avoided : ∀ node ∈ late, ∀ other before edge, graph.Walk source other before →
    edge ∈ graph.out before → graph.usable edge = true → graph.target edge = node →
    graph.toll other + graph.weight edge = level → graph.toll other < level → before ≠ source

theorem Walk.mem_targets (hwalk : graph.Walk source path node) (hpath : path ≠ []) :
    node ∈ path.map graph.target := by
  cases hwalk with
  | nil => exact absurd rfl hpath
  | snoc hwalk hedge husable => simp

theorem Branch.ne_nil {prev : V → Option (V × E)} (hbranch : graph.Branch prev source path node)
    (hnode : node ≠ source) : path ≠ [] := by
  cases hbranch with
  | source => exact absurd rfl hnode
  | step _ _ _ _ _ => simp

section Late

variable [DecidableEq V] {late : List V} {level : Nat}

theorem Early.detour (hearly : graph.Early source path node)
    (hsimple : graph.Simple source path) (hbelow : graph.toll path < graph.unreached)
    (hpays : ∃ edge ∈ path.tail, 0 < graph.weight edge) :
    ∃ late, graph.Detour source (graph.toll path) late ∧ node ∈ late := by
  induction hearly with
  | nil =>
      obtain ⟨edge, hedge, -⟩ := hpays
      exact absurd hedge List.not_mem_nil
  | @snoc path node edge hearly hedge husable hleast hfirst ih =>
      have hpath : path ≠ [] := by
        rintro rfl
        obtain ⟨other, hother, -⟩ := hpays
        exact absurd hother List.not_mem_nil
      rw [Simple, visits_snoc, List.nodup_append] at hsimple
      rw [toll_snoc] at hbelow ⊢
      by_cases hweight : 0 < graph.weight edge
      case pos =>
        have hsource : node ≠ source := by
          rintro rfl
          exact (List.nodup_cons.mp hsimple.1).1 (hearly.walk.mem_targets hpath)
        refine ⟨[graph.target edge], ⟨hbelow, by omega, ?_, ?_, ?_⟩, List.mem_singleton_self _⟩
        · intro other hother
          rw [List.mem_singleton.mp hother]
          exact hleast
        · intro other hother
          exact ⟨path, node, edge, hearly.walk, hedge, husable, (List.mem_singleton.mp hother).symm,
            rfl, .inl (by omega)⟩
        · intro other hother walk before last hwalk hlast hlastUsable htarget hsum _ hbefore
          rw [List.mem_singleton.mp hother] at htarget
          exact hsource ((hfirst walk before last hwalk hlast hlastUsable htarget hsum).2 hbefore)
      case neg =>
        have hfree : graph.weight edge = 0 := by omega
        rw [hfree, Nat.add_zero] at hbelow hleast hfirst ⊢
        obtain ⟨paid, hpaid, hpositive⟩ := hpays
        have hearlier : ∃ paid ∈ path.tail, 0 < graph.weight paid := by
          rw [List.tail_append_of_ne_nil hpath, List.mem_append, List.mem_singleton] at hpaid
          rcases hpaid with hpaid | rfl
          · exact ⟨paid, hpaid, hpositive⟩
          · exact absurd hpositive hweight
        obtain ⟨late, hdetour, hnode⟩ := ih hsimple.1 hbelow hearlier
        by_cases hold : graph.target edge ∈ late
        case pos => exact ⟨late, hdetour, hold⟩
        case neg =>
          refine ⟨late ++ [graph.target edge], ⟨hbelow, hdetour.positive, ?_, ?_, ?_⟩, by simp⟩
          · intro other hother
            rcases List.mem_append.mp hother with hother | hother
            · exact hdetour.least other hother
            · rw [List.mem_singleton.mp hother]
              exact hleast
          · intro other hother
            rcases List.mem_append.mp hother with hother | hother
            · obtain ⟨walk, before, last, hwalk, hlast, hlastUsable, htarget, hsum, hcheap⟩ :=
                hdetour.entered other hother
              refine ⟨walk, before, last, hwalk, hlast, hlastUsable, htarget, hsum,
                hcheap.imp id ?_⟩
              rintro ⟨hbefore, hindex⟩
              rw [List.idxOf_append_of_mem hbefore, List.idxOf_append_of_mem hother]
              exact ⟨List.mem_append_left _ hbefore, hindex⟩
            · rw [List.mem_singleton.mp hother]
              refine ⟨path, node, edge, hearly.walk, hedge, husable, rfl, by omega, .inr ?_⟩
              rw [List.idxOf_append_of_mem hnode, List.idxOf_append_of_notMem hold]
              exact ⟨List.mem_append_left _ hnode,
                Nat.lt_of_lt_of_le (List.idxOf_lt_length_of_mem hnode) (Nat.le_add_right _ _)⟩
          · intro other hother walk before last hwalk hlast hlastUsable htarget hsum hcheap
            rcases List.mem_append.mp hother with hother | hother
            · exact hdetour.avoided other hother walk before last hwalk hlast hlastUsable htarget
                hsum hcheap
            · rw [List.mem_singleton.mp hother] at htarget
              have hle := (hfirst walk before last hwalk hlast hlastUsable htarget hsum).1
              omega

/-- What a search that prefers the nodes of a detour keeps of `prev` on them. -/
def PrevLate (graph : Routing V E) (source : V) (level : Nat) (late settled : List V)
    (state : SearchState V E) : Prop :=
  ∀ node ∈ late, state.dist node = some level → ∃ before edge,
    state.prev node = some (before, edge) ∧
    (before ≠ source ∧ 0 < graph.weight edge ∨
      before ∈ settled ∧ before ∈ late ∧ state.dist before = some level)

theorem Detour.mem_of_popped (hdetour : graph.Detour source level late) {settled : List V}
    {state : SearchState V E} {rest : List (Nat × V)}
    (hprogress : graph.Progress source settled (fun _ _ => False) state)
    (hdestination : destination ∉ settled) (hlate : destination ∈ late)
    (hpop : (LeastHeap.preferring late.idxOf).pop state.heap = some ((level, node), rest)) :
    node ∈ late := by
  obtain ⟨first, hfirst, hmin⟩ := (late.toFinset.filter (· ∉ settled)).exists_min_image late.idxOf
    ⟨destination, by simp [hlate, hdestination]⟩
  rw [Finset.mem_filter, List.mem_toFinset] at hfirst
  obtain ⟨path, before, edge, hwalk, hedge, husable, htarget, hsum, hcheap⟩ :=
    hdetour.entered first hfirst.1
  have hbefore : before ∈ settled := by
    rcases hcheap with hcheap | ⟨hbefore, hindex⟩
    · by_contra hopen
      have hle := hprogress.le_toll_of_open hpop hdetour.below hopen hwalk
      omega
    · by_contra hopen
      have hle := hmin before (by simp [hbefore, hopen])
      omega
  obtain ⟨paid, hpaid⟩ := hprogress.reached before hbefore
  have hle := hprogress.le_toll_of_settled hbefore hpaid hwalk
  have hbelow := hdetour.below
  obtain ⟨next, hnext, hnextLe⟩ := hprogress.relaxed before hbefore paid hpaid edge hedge husable
    id (by omega)
  rw [htarget] at hnext
  have hentry := hprogress.opened first next hnext hfirst.2
  have hleast : level ≤ next := LeastHeap.least_of_pop _ hpop _ hentry
  have hrank := LeastHeap.rank_le_of_pop hpop hentry (by simp only; omega)
  rw [← List.idxOf_lt_length_iff]
  exact lt_of_le_of_lt hrank (List.idxOf_lt_length_of_mem hfirst.1)

theorem Detour.start (hdetour : graph.Detour source level late) :
    graph.PrevLate source level late [] (Routing.start source) := by
  intro node _ hdist
  obtain ⟨-, rfl⟩ := Progress.dist_start.mp hdist
  exact absurd hdetour.positive (Nat.lt_irrefl 0)

theorem Detour.scan (hdetour : graph.Detour source level late) {settled : List V}
    {state : SearchState V E} {cost : Nat} {rest : List (Nat × V)}
    (hkeeps : graph.PrevLate source level late settled state)
    (hprogress : graph.Progress source settled (fun _ _ => False) state)
    (hdestination : destination ∉ settled) (hlate : destination ∈ late)
    (hpop : (LeastHeap.preferring late.idxOf).pop state.heap = some ((cost, node), rest))
    (hdist : state.dist node = some cost) (hexact : graph.ExactAt cost node) :
    graph.PrevLate source level late (node :: settled)
      (graph.scan cost node { state with heap := rest }) := by
  have hkept : ∀ other ∈ node :: settled,
      (graph.scan cost node { state with heap := rest }).dist other = state.dist other :=
    fun other hother => hprogress.dist_scan hpop hdist hexact hother
  intro other hother hcost
  rcases graph.scan_cases cost node { state with heap := rest } other with
    ⟨hdistSame, hprevSame⟩ | ⟨edge, hedge, husable, htarget, hdistNew, hprevNew, -⟩
  · rw [hdistSame] at hcost
    obtain ⟨before, edge, hprev, hcases⟩ := hkeeps other hother hcost
    refine ⟨before, edge, hprevSame.trans hprev, hcases.imp id ?_⟩
    rintro ⟨hbefore, hbeforeLate, hlevel⟩
    have hmem := List.mem_cons_of_mem node hbefore
    exact ⟨hmem, hbeforeLate, (hkept before hmem).trans hlevel⟩
  · rw [hdistNew, hexact edge hedge husable] at hcost
    have hsum : cost + graph.weight edge = level := Option.some.inj hcost
    refine ⟨node, edge, hprevNew, ?_⟩
    by_cases hcheap : cost < level
    · left
      obtain ⟨path, hbranch, htoll, -⟩ := hprogress.branch node cost hdist
      refine ⟨?_, by omega⟩
      exact hdetour.avoided other hother path node edge hbranch.walk hedge husable htarget
        (by omega) (by omega)
    · right
      have hlevel : cost = level := by omega
      subst hlevel
      exact ⟨List.mem_cons_self, hdetour.mem_of_popped hprogress hdestination hlate hpop,
        (hkept node List.mem_cons_self).trans hdist⟩

theorem Detour.pays (hdetour : graph.Detour source level late) {settled : List V}
    {state : SearchState V E} (hkeeps : graph.PrevLate source level late settled state)
    (hroot : state.dist source = some 0)
    (hbranch : graph.Branch state.prev source path node) (hlate : node ∈ late)
    (hdist : state.dist node = some level) : ∃ edge ∈ path.tail, 0 < graph.weight edge := by
  induction hbranch with
  | source =>
      have hzero : 0 = level := Option.some.inj (hroot.symm.trans hdist)
      exact absurd hdetour.positive (by omega)
  | @step before edge path hnode hprev hedge husable hbranch ih =>
      obtain ⟨named, last, hnamed, hcases⟩ := hkeeps _ hlate hdist
      obtain ⟨rfl, rfl⟩ := Prod.mk.inj (Option.some.inj (hprev.symm.trans hnamed))
      rcases hcases with ⟨hsource, hweight⟩ | ⟨-, hbefore, hlevel⟩
      · rw [List.tail_append_of_ne_nil (hbranch.ne_nil hsource)]
        exact ⟨edge, by simp, hweight⟩
      · obtain ⟨paid, hpaid, hweight⟩ := ih hbefore hlevel
        have hpath : path ≠ [] := by
          rintro rfl
          exact List.not_mem_nil hpaid
        rw [List.tail_append_of_ne_nil hpath]
        exact ⟨paid, List.mem_append_left _ hpaid, hweight⟩

theorem search_detour {nodes : Finset V} (hnodes : ∀ node ∉ nodes, graph.out node = [])
    (hdetour : graph.Detour source level late) (hlate : destination ∈ late)
    (hwalk : graph.Walk source path destination) (htoll : graph.toll path = level)
    (hexact : ∀ cost node, graph.Scans (.preferring late.idxOf) destination
      (Routing.start source) cost node → graph.ExactAt cost node)
    {fuel : Nat} (hfuel : 1 + graph.debt nodes [] < fuel) :
    ∃ final branch, graph.search (.preferring late.idxOf) destination fuel
        (Routing.start source) = some final ∧
      graph.Branch final.prev source branch destination ∧
      graph.toll branch = level ∧ ∃ edge ∈ branch.tail, 0 < graph.weight edge := by
  obtain ⟨settled, last, final, hsearch, hprogress, hdestination, hkeeps, hstopped⟩ :=
    @search_rule _ _ graph source destination (.preferring late.idxOf) _ nodes hnodes _ hexact
      (graph.PrevLate source level late)
      (fun _ _ _ _ hkeeps => hkeeps)
      (fun _ _ cost node _ hprogress hdestination hkeeps hpop _ _ hdist hscans =>
        hdetour.scan hkeeps hprogress hdestination hlate hpop hdist (hexact cost node hscans))
      fuel [] (Routing.start source) (fun _ _ => id)
      (.start (Nat.zero_lt_of_lt hdetour.below)) List.not_mem_nil hdetour.start hfuel
  cases hstopped with
  | exhausted hempty =>
      exfalso
      obtain ⟨entry, hentry, -⟩ :=
        hprogress.exists_entry hdestination hwalk (htoll ▸ hdetour.below)
      rw [hempty] at hentry
      exact List.not_mem_nil hentry
  | @arrived paid rest hpop =>
      have hdist := hprogress.dist_of_popped hpop hdestination
      obtain ⟨branch, hbranch, hbranchToll, -⟩ := hprogress.branch destination paid hdist
      have hbelow := hprogress.bounded destination paid hdist
      have hcheap := hprogress.le_toll_of_open hpop hbelow hdestination hwalk
      have hleast := hdetour.least destination hlate branch hbranch.walk
      have hlevel : paid = level := by omega
      subst hlevel
      exact ⟨_, branch, hsearch, hbranch, hbranchToll,
        hdetour.pays hkeeps hprogress.root hbranch hlate hdist⟩

end Late

end Doli.Lib.Routing
