import Doli.Channels.Router
import Doli.Lib.CheapestTie

/-!
# What the hops of a route forward

A payment reaches its destination in full where each hop forwards the amount and the fees of
the hops after it.  `find_route` lets every hop forward the amount alone, so its routes can be
paid where they charge nothing after their first hop.
-/

namespace Doli.Channels

open Doli.Core Doli.Lib

/-! ## Payable routes -/

section Payable

variable (channels : List ChannelEdge) (source destination : Hash) (amount : Nat)

/-- From the source on: each hop forwards what is due behind it, over an edge that has the
capacity, and adds its fee to what is due. -/
inductive Forwards : List ChannelEdge → List RouteHop → Nat → Prop
  | nil : Forwards [] [] amount
  | cons {edge : ChannelEdge} {edges : List ChannelEdge} {hop : RouteHop} {hops : List RouteHop}
      {due : Nat} (hrest : Forwards edges hops due) (hchannel : hop.channelId = edge.channelId)
      (hnode : hop.nodeId = edge.target) (hforward : hop.amountToForward = due)
      (hfee : hop.fee = edge.feeForAmount due) (hcapacity : due ≤ edge.capacity) :
      Forwards (edge :: edges) (hop :: hops) (due + hop.fee)

/-- `totalAmount` is what the source must send. -/
structure Payable (route : Route) : Prop where
  forwards : ∃ edges, EligiblePath channels amount source edges destination ∧
    Forwards amount edges route.hops route.totalAmount
  totalFee : route.totalFee = (route.hops.map RouteHop.fee).sum

/-- Neither `fee_for_amount` nor the cost behind the edge wraps. -/
structure FeeFits (edge : ChannelEdge) (cost : Nat) : Prop where
  product : amount * edge.feeRatePpm < 2 ^ 64
  fee : edge.baseFee + amount * edge.feeRatePpm / 1000000 < 2 ^ 64
  cost : cost + edge.feeForAmount amount < 2 ^ 64

/-- No fee that `find_route` computes wraps, and every route that it returns is payable. -/
structure RoutesPayable (heap : LeastHeap Hash) : Prop where
  fits : ∀ cost node,
    (routingOf channels amount).Scans heap destination (Routing.start source) cost node →
    ∀ edge ∈ (ChannelGraph.ofChannels channels).outgoing node, amount ≤ edge.capacity →
      FeeFits amount edge cost
  payable : ∀ fuel route, (ChannelGraph.ofChannels channels).findRoute heap fuel source
      destination amount = some (some route) → Payable channels source destination amount route

/-- The fees fit on the edges behind every cheapest path that does not pass the destination and
costs no more than it. -/
def FeesFit : Prop :=
  ∀ path node, (routingOf channels amount).Scannable source destination path node →
    ∀ edge ∈ (ChannelGraph.ofChannels channels).outgoing node, amount ≤ edge.capacity →
      FeeFits amount edge (feeSum amount path)

/-- No path that a search may answer charges anything after its first hop, and the amount with
its fees fits. -/
def ChargesFirstOnly : Prop :=
  ∀ path, (routingOf channels amount).Early source path destination →
    (routingOf channels amount).Simple source path → feeSum amount path < 2 ^ 64 - 1 →
      amount + feeSum amount path < 2 ^ 64 ∧
        ∀ edge ∈ path.tail, edge.feeForAmount amount = 0

end Payable

section Forwarding

variable {amount : Nat} {path edges : List ChannelEdge} {hops : List RouteHop} {due : Nat}

theorem Forwards.due_eq (hforwards : Forwards amount edges hops due) :
    due = amount + (hops.map RouteHop.fee).sum := by
  induction hforwards with
  | nil => rfl
  | cons hrest hchannel hnode hforward hfee hcapacity ih =>
      rw [List.map_cons, List.sum_cons, ih]
      omega

theorem sum_fee_hopOf (path : List ChannelEdge) :
    ((path.map (hopOf amount)).map RouteHop.fee).sum = feeSum amount path := by
  simp [feeSum, hopOf, Function.comp_def]

theorem free_of_forwards (hforwards : Forwards amount edges (path.map (hopOf amount)) due) :
    ∀ edge ∈ path.tail, edge.feeForAmount amount = 0 := by
  cases path with
  | nil => exact fun edge hedge => absurd hedge List.not_mem_nil
  | cons first path =>
      rw [List.map_cons] at hforwards
      cases hforwards with
      | @cons _ _ _ _ due hrest _ _ hforward _ _ =>
          have hdue := hrest.due_eq
          rw [sum_fee_hopOf] at hdue
          have hamount : amount = due := hforward
          have hzero : (path.map (·.feeForAmount amount)).sum = 0 := by
            have hsum : feeSum amount path = 0 := by omega
            exact hsum
          intro edge hedge
          exact List.sum_eq_zero_iff.mp hzero _ (List.mem_map_of_mem hedge)

theorem forwards_of_free (hcapacity : ∀ edge ∈ path, amount ≤ edge.capacity)
    (hfree : ∀ edge ∈ path.tail, edge.feeForAmount amount = 0) :
    Forwards amount path (path.map (hopOf amount)) (amount + feeSum amount path) := by
  have hrest : ∀ rest : List ChannelEdge, (∀ edge ∈ rest, amount ≤ edge.capacity) →
      (∀ edge ∈ rest, edge.feeForAmount amount = 0) →
        Forwards amount rest (rest.map (hopOf amount)) amount := by
    intro rest hcapacity hfree
    induction rest with
    | nil => exact .nil
    | cons edge rest ih =>
        rw [List.forall_mem_cons] at hcapacity hfree
        have hnext := @Forwards.cons amount edge rest (hopOf amount edge) _ _
          (ih hcapacity.2 hfree.2) rfl rfl rfl rfl hcapacity.1
        have hfee : (hopOf amount edge).fee = 0 := hfree.1
        rwa [hfee, Nat.add_zero] at hnext
  cases path with
  | nil => exact .nil
  | cons edge path =>
      rw [List.forall_mem_cons] at hcapacity
      have hsum : feeSum amount (edge :: path) = (hopOf amount edge).fee := by
        have hzero : feeSum amount path = 0 := by
          refine List.sum_eq_zero_iff.mpr fun fee hfee => ?_
          obtain ⟨other, hother, rfl⟩ := List.mem_map.mp hfee
          exact hfree other hother
        show edge.feeForAmount amount + feeSum amount path = edge.feeForAmount amount
        rw [hzero, Nat.add_zero]
      rw [hsum]
      exact .cons (hrest path hcapacity.2 hfree) rfl rfl rfl rfl hcapacity.1

theorem EligiblePath.capacity {channels : List ChannelEdge} {source node : Hash}
    (hpath : EligiblePath channels amount source path node) :
    ∀ edge ∈ path, amount ≤ edge.capacity := by
  induction hpath with
  | nil => exact fun edge hedge => absurd hedge List.not_mem_nil
  | snoc hpath hchannel hcapacity ih =>
      rw [List.forall_mem_append]
      exact ⟨ih, fun edge hedge => List.mem_singleton.mp hedge ▸ hcapacity⟩

end Forwarding

/-! ## More fuel -/

section Fuel

variable {amount fuel more : Nat} {source destination : Hash} {heap : LeastHeap Hash}

theorem reconstruct_mono {prev : Hash → Option (Hash × ChannelEdge)} (hle : fuel ≤ more)
    {current : Hash} {hops : List RouteHop} {totalFee : Nat}
    {answer : Option (List RouteHop × Nat)}
    (hanswer : reconstruct prev source amount fuel current hops totalFee = some answer) :
    reconstruct prev source amount more current hops totalFee = some answer := by
  induction fuel generalizing more current hops totalFee with
  | zero => contradiction
  | succ fuel ih =>
      obtain ⟨more, rfl⟩ : ∃ fewer, more = fewer + 1 := ⟨more - 1, by omega⟩
      rw [reconstruct] at hanswer ⊢
      split at hanswer
      case isTrue hcurrent => rw [if_pos hcurrent]; exact hanswer
      case isFalse hcurrent =>
        rw [if_neg hcurrent]
        split at hanswer
        · exact hanswer
        · exact ih (by omega) hanswer

theorem findRoute_mono {graph : ChannelGraph} (hle : fuel ≤ more) {answer : Option Route}
    (hanswer : graph.findRoute heap fuel source destination amount = some answer) :
    graph.findRoute heap more source destination amount = some answer := by
  by_cases hother : source = destination
  case pos =>
    rw [ChannelGraph.findRoute, if_pos hother] at hanswer ⊢
    exact hanswer
  case neg =>
    cases hsearch : (graph.routing amount).search heap destination fuel (Routing.start source) with
    | none =>
        rw [ChannelGraph.findRoute, if_neg hother, hsearch] at hanswer
        contradiction
    | some final =>
        rw [findRoute_of_search hother hsearch] at hanswer
        rw [findRoute_of_search hother (Routing.search_mono hle hsearch)]
        split at hanswer
        case isTrue hnone => rw [if_pos hnone]; exact hanswer
        case isFalse hsome =>
          rw [if_neg hsome]
          obtain ⟨found, hfound, rfl⟩ := Option.map_eq_some_iff.mp hanswer
          rw [reconstruct_mono hle hfound, Option.map_some]

end Fuel

/-! ## When the routes are payable -/

section Routes

variable {channels : List ChannelEdge} {source destination : Hash} {amount : Nat}
  {heap : LeastHeap Hash}

theorem exactAt_of_fits {cost : Nat} {node : Hash}
    (hfits : ∀ edge ∈ (ChannelGraph.ofChannels channels).outgoing node, amount ≤ edge.capacity →
      FeeFits amount edge cost) :
    (routingOf channels amount).ExactAt cost node :=
  fun edge hedge husable =>
    Nat.mod_eq_of_lt (hfits edge hedge (of_decide_eq_true husable)).cost

theorem fits_iff_feesFit :
    (∀ (heap : LeastHeap Hash) cost node,
        (routingOf channels amount).Scans heap destination (Routing.start source) cost node →
        ∀ edge ∈ (ChannelGraph.ofChannels channels).outgoing node, amount ≤ edge.capacity →
          FeeFits amount edge cost) ↔
      FeesFit channels source destination amount :=
  Routing.forall_scans_iff (fun _ hnode => outgoing_of_notMem hnode) (by decide : 0 < 2 ^ 64 - 1)
    fun _ _ hfits => exactAt_of_fits hfits

theorem early_of_findRoute (hother : source ≠ destination)
    (hexact : ∀ cost node,
      (routingOf channels amount).Scans heap destination (Routing.start source) cost node →
        (routingOf channels amount).ExactAt cost node)
    {fuel : Nat} {route : Route}
    (hroute : (ChannelGraph.ofChannels channels).findRoute heap fuel source destination amount =
      some (some route)) :
    ∃ path, (routingOf channels amount).Early source path destination ∧
      (routingOf channels amount).Simple source path ∧
      feeSum amount path < 2 ^ 64 - 1 ∧
      route = ⟨path.map (hopOf amount), feeSum amount path,
        (amount + feeSum amount path) % 2 ^ 64⟩ := by
  obtain ⟨final, hsearch, hanswered, hearly⟩ := Routing.search_early
    (fun _ hnode => outgoing_of_notMem hnode) hexact (by decide : 0 < 2 ^ 64 - 1)
    (Nat.lt_succ_self _)
  generalize Nat.succ _ = known at hsearch
  cases hanswered with
  | @found path hbranch hsimple hbelow hleast =>
      have hbelow : feeSum amount path < 2 ^ 64 - 1 := hbelow
      refine ⟨path, hearly path hbranch, hsimple, hbelow, ?_⟩
      have hmore := findRoute_mono (le_max_left fuel (max known (path.length + 1))) hroute
      rw [findRoute_of_branch hother (Routing.search_mono (by omega) hsearch) hbranch
        (by omega) (by omega)] at hmore
      exact (Option.some.inj (Option.some.inj hmore)).symm
  | lost hnone _ =>
      have hmore := findRoute_mono (le_max_left fuel known) hroute
      rw [findRoute_of_lost hother (Routing.search_mono (by omega) hsearch) hnone] at hmore
      exact absurd (Option.some.inj hmore) (by simp)

theorem early_self {path : List ChannelEdge} {graph : ChannelGraph}
    (hwalk : (graph.routing amount).Walk source path source)
    (hsimple : (graph.routing amount).Simple source path) : path = [] := by
  by_contra hpath
  exact (List.nodup_cons.mp hsimple).1 (hwalk.mem_targets hpath)

theorem free_of_payable {path : List ChannelEdge}
    (hpayable : Payable channels source destination amount
      ⟨path.map (hopOf amount), feeSum amount path, (amount + feeSum amount path) % 2 ^ 64⟩) :
    amount + feeSum amount path < 2 ^ 64 ∧ ∀ edge ∈ path.tail, edge.feeForAmount amount = 0 := by
  obtain ⟨edges, -, hforwards⟩ := hpayable.forwards
  refine ⟨?_, free_of_forwards hforwards⟩
  have hdue := hforwards.due_eq
  simp only [sum_fee_hopOf] at hdue
  rw [← hdue]
  exact Nat.mod_lt _ (by decide)

theorem payable_of_free {path : List ChannelEdge}
    (hpath : EligiblePath channels amount source path destination)
    (hfits : amount + feeSum amount path < 2 ^ 64)
    (hfree : ∀ edge ∈ path.tail, edge.feeForAmount amount = 0) :
    Payable channels source destination amount
      ⟨path.map (hopOf amount), feeSum amount path, (amount + feeSum amount path) % 2 ^ 64⟩ := by
  refine ⟨⟨path, hpath, ?_⟩, (sum_fee_hopOf path).symm⟩
  rw [Nat.mod_eq_of_lt hfits]
  exact forwards_of_free hpath.capacity hfree

/-- An early path that pays after its first hop: some heap makes `find_route` return such a
route. -/
theorem exists_unpayable (hother : source ≠ destination)
    (hexact : ∀ (heap : LeastHeap Hash) cost node,
      (routingOf channels amount).Scans heap destination (Routing.start source) cost node →
        (routingOf channels amount).ExactAt cost node)
    {path : List ChannelEdge}
    (hearly : (routingOf channels amount).Early source path destination)
    (hsimple : (routingOf channels amount).Simple source path)
    (hbelow : feeSum amount path < 2 ^ 64 - 1)
    (hpays : ∃ edge ∈ path.tail, 0 < edge.feeForAmount amount) :
    ∃ heap fuel route, (ChannelGraph.ofChannels channels).findRoute heap fuel source destination
        amount = some (some route) ∧
      ¬ Payable channels source destination amount route := by
  obtain ⟨late, hdetour, hlate⟩ := hearly.detour hsimple hbelow hpays
  obtain ⟨final, branch, hsearch, hbranch, htoll, edge, hedge, hcharge⟩ :=
    Routing.search_detour (fun _ hnode => outgoing_of_notMem hnode) hdetour hlate hearly.walk rfl
      (hexact _) (Nat.lt_succ_self _)
  generalize Nat.succ _ = known at hsearch
  have hsame : feeSum amount branch = feeSum amount path := htoll
  refine ⟨.preferring late.idxOf, max known (branch.length + 1), _,
    findRoute_of_branch hother (Routing.search_mono (by omega) hsearch) hbranch (by omega)
      (by omega), fun hpayable => ?_⟩
  have hfree := (free_of_payable hpayable).2 edge hedge
  exact absurd hfree (Nat.ne_of_gt hcharge)

/-- The routes are payable, whatever the heap does with equal costs, exactly where no fee wraps
and nothing is charged after the first hop of a path that may be answered. -/
theorem routes_payable_iff (hamount : amount < 2 ^ 64) :
    (∀ heap, RoutesPayable channels source destination amount heap) ↔
      FeesFit channels source destination amount ∧
        ChargesFirstOnly channels source destination amount := by
  constructor
  · intro hpayable
    have hfits := fun heap => (hpayable heap).fits
    have hexact : ∀ (heap : LeastHeap Hash) cost node,
        (routingOf channels amount).Scans heap destination (Routing.start source) cost node →
          (routingOf channels amount).ExactAt cost node :=
      fun heap cost node hscans => exactAt_of_fits (hfits heap cost node hscans)
    refine ⟨fits_iff_feesFit.mp hfits, fun path hearly hsimple hbelow => ?_⟩
    by_cases hother : source = destination
    case pos =>
      subst hother
      obtain rfl := early_self hearly.walk hsimple
      exact ⟨hamount, fun edge hedge => absurd hedge List.not_mem_nil⟩
    case neg =>
      have hfree : ∀ edge ∈ path.tail, edge.feeForAmount amount = 0 := by
        intro edge hedge
        by_contra hcharge
        obtain ⟨heap, fuel, route, hroute, hnot⟩ := exists_unpayable hother hexact hearly hsimple
          hbelow ⟨edge, hedge, Nat.pos_of_ne_zero hcharge⟩
        exact hnot ((hpayable heap).payable fuel route hroute)
      refine ⟨?_, hfree⟩
      obtain ⟨known, final, hsearch, hanswered⟩ :=
        search_stops (hexact (.preferring fun _ => 0))
      cases hanswered with
      | lost _ hleast =>
          have hcost : 2 ^ 64 - 1 ≤ feeSum amount path := hleast path hearly.walk
          omega
      | @found branch hbranch _ _ hleast =>
          have hsame : feeSum amount branch = feeSum amount path :=
            Nat.le_antisymm (hleast path hearly.walk) (hearly.least hbranch.walk)
          have hroute := findRoute_of_branch hother
            (Routing.search_mono (le_max_left known (branch.length + 1)) hsearch) hbranch
            (by omega) (by omega)
          rw [← hsame]
          exact (free_of_payable ((hpayable _).payable _ _ hroute)).1
  · rintro ⟨hfits, hfree⟩ heap
    have hscans := fits_iff_feesFit.mpr hfits heap
    refine ⟨hscans, fun fuel route hroute => ?_⟩
    by_cases hother : source = destination
    case pos =>
      subst hother
      rw [findRoute_self] at hroute
      obtain rfl := Option.some.inj (Option.some.inj hroute)
      exact ⟨⟨[], .nil, .nil⟩, rfl⟩
    case neg =>
      obtain ⟨path, hearly, hsimple, hbelow, rfl⟩ := early_of_findRoute hother
        (fun cost node hscan => exactAt_of_fits (hscans cost node hscan)) hroute
      obtain ⟨hsum, hafter⟩ := hfree path hearly hsimple hbelow
      exact payable_of_free (walk_iff_eligiblePath.mp hearly.walk) hsum hafter

end Routes

/-! ## One and two channels -/

theorem path_direct {fee amount : Nat} {path : List ChannelEdge} {node : Hash}
    (hwalk : (routingOf [directChannel fee] amount).Walk ⟨1⟩ path node)
    (hsimple : (routingOf [directChannel fee] amount).Simple ⟨1⟩ path) :
    path = [] ∧ node = ⟨1⟩ ∨ path = [directChannel fee] ∧ node = ⟨2⟩ := by
  induction hwalk with
  | nil => exact .inl ⟨rfl, rfl⟩
  | @snoc path node edge hwalk hedge husable ih =>
      rw [Routing.Simple, Routing.visits_snoc, List.nodup_append] at hsimple
      obtain ⟨hsource, hchannel⟩ := mem_outgoing_ofChannels.mp hedge
      rcases ih hsimple.1 with ⟨rfl, rfl⟩ | ⟨rfl, rfl⟩
      · obtain rfl := eq_of_mem_outgoing_direct hedge
        exact .inr ⟨rfl, rfl⟩
      · rcases hchannel with hsame | hsame
        · rw [List.mem_singleton.mp hsame] at hsource
          exact absurd hsource (by decide : (⟨1⟩ : Hash) ≠ ⟨2⟩)
        · have hback : edge.target = ⟨1⟩ :=
            congrArg ChannelEdge.source (List.mem_singleton.mp hsame)
          exact absurd hback.symm (hsimple.2.2 _ List.mem_cons_self _ (List.mem_singleton_self _))

theorem path_before_direct {fee amount : Nat} {path : List ChannelEdge} {node : Hash}
    (hwalk : (routingOf [directChannel fee] amount).Walk ⟨1⟩ path node)
    (hpasses : ⟨2⟩ ∉ (routingOf [directChannel fee] amount).visits ⟨1⟩ path) :
    path = [] ∧ node = ⟨1⟩ := by
  induction hwalk with
  | nil => exact ⟨rfl, rfl⟩
  | snoc hwalk hedge husable ih =>
      rw [Routing.visits_snoc, List.mem_append, not_or] at hpasses
      obtain ⟨rfl, rfl⟩ := ih hpasses.1
      obtain rfl := eq_of_mem_outgoing_direct hedge
      exact absurd (List.mem_singleton_self _) hpasses.2

theorem routes_payable_direct :
    RoutesPayable [directChannel 10] ⟨1⟩ ⟨2⟩ 1000 (.preferring fun _ => 0) := by
  refine (routes_payable_iff (by decide)).mpr ⟨?_, ?_⟩ _
  · intro path node hpath edge hedge _
    obtain ⟨rfl, rfl⟩ := path_before_direct hpath.walk hpath.passes
    obtain rfl := eq_of_mem_outgoing_direct hedge
    exact ⟨by decide, by decide, by decide⟩
  · intro path hearly hsimple _
    rcases path_direct hearly.walk hsimple with ⟨rfl, -⟩ | ⟨rfl, -⟩
    · exact ⟨by decide, fun edge hedge => absurd hedge List.not_mem_nil⟩
    · exact ⟨by decide, fun edge hedge => absurd hedge List.not_mem_nil⟩

/-- Between nodes 1 and 2, and between 2 and 3, each with room for the amount alone. -/
def tightChannels : List ChannelEdge :=
  [directChannel 10, { directChannel 10 with channelId := ⟨1⟩, source := ⟨2⟩, target := ⟨3⟩ }]

/-- The first hop must forward 1010 and has room for 1000. -/
theorem two_hops_unpayable :
    (ChannelGraph.ofChannels tightChannels).findRoute (.preferring fun _ => 0) 10 ⟨1⟩ ⟨3⟩ 1000 =
        some (some ⟨[⟨⟨0⟩, ⟨2⟩, 1000, 10, 40⟩, ⟨⟨1⟩, ⟨3⟩, 1000, 10, 40⟩], 20, 1020⟩) ∧
      ¬ RoutesPayable tightChannels ⟨1⟩ ⟨3⟩ 1000 (.preferring fun _ => 0) := by
  have hroute : (ChannelGraph.ofChannels tightChannels).findRoute (.preferring fun _ => 0) 10 ⟨1⟩
      ⟨3⟩ 1000 =
        some (some ⟨[⟨⟨0⟩, ⟨2⟩, 1000, 10, 40⟩, ⟨⟨1⟩, ⟨3⟩, 1000, 10, 40⟩], 20, 1020⟩) := rfl
  refine ⟨hroute, fun hpayable => ?_⟩
  obtain ⟨edges, -, hforwards⟩ := (hpayable.payable _ _ hroute).forwards
  cases hforwards with
  | cons hrest _ _ hforward _ _ =>
      have hdue := hrest.due_eq
      simp only [List.map_cons, List.map_nil, List.sum_cons, List.sum_nil] at hdue
      simp only at hforward
      omega

end Doli.Channels
