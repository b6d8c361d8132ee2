import Doli.Core.Transaction
import Doli.Lib.CheapestSearch
import Doli.Lib.Column

/-!
# Routes of payments

`find_route` is a search for the cheapest walk over the channels that can carry the amount.
The number that stands for "not reached" is itself a fee sum that fits a `u64`: a route that
costs it is not found.
-/

namespace Doli.Channels

open Doli.Core Doli.Lib

structure ChannelEdge where
  channelId : Hash
  source : Hash
  target : Hash
  capacity : Nat
  feeRatePpm : Nat
  baseFee : Nat
  deriving DecidableEq, Repr

namespace ChannelEdge

variable (edge : ChannelEdge)

/-- In `u64` arithmetic that wraps. -/
def feeForAmount (amount : Nat) : Nat :=
  (edge.baseFee + amount * edge.feeRatePpm % 2 ^ 64 / 1000000) % 2 ^ 64

def reverse : ChannelEdge := { edge with source := edge.target, target := edge.source }

@[simp] theorem reverse_reverse : edge.reverse.reverse = edge := rfl

end ChannelEdge

structure RouteHop where
  channelId : Hash
  nodeId : Hash
  amountToForward : Nat
  fee : Nat
  expiryDelta : Nat
  deriving DecidableEq, Repr

structure Route where
  hops : List RouteHop
  totalFee : Nat
  totalAmount : Nat
  deriving DecidableEq, Repr

structure ChannelGraph where
  edges : Column Hash (List ChannelEdge)

namespace ChannelGraph

def new : ChannelGraph := ⟨∅⟩

section

variable (graph : ChannelGraph)

def outgoing (node : Hash) : List ChannelEdge := (graph.edges.lookup node).getD []

/-- `entry(edge.source).or_default().push(edge)` -/
def pushEdge (edge : ChannelEdge) : ChannelGraph :=
  ⟨graph.edges.insert edge.source (graph.outgoing edge.source ++ [edge])⟩

def addChannel (edge : ChannelEdge) : ChannelGraph :=
  (graph.pushEdge edge).pushEdge edge.reverse

/-- The search of `find_route`: an edge is skipped below the amount, and `u64::MAX` stands for
a node without an entry in `dist`. -/
def routing (amount : Nat) : Routing Hash ChannelEdge where
  out := graph.outgoing
  target := ChannelEdge.target
  usable edge := decide (amount ≤ edge.capacity)
  weight edge := edge.feeForAmount amount
  extend cost edge := (cost + edge.feeForAmount amount) % 2 ^ 64
  unreached := 2 ^ 64 - 1

end

end ChannelGraph

def hopOf (amount : Nat) (edge : ChannelEdge) : RouteHop where
  channelId := edge.channelId
  nodeId := edge.target
  amountToForward := amount
  fee := edge.feeForAmount amount
  expiryDelta := 40

/-- From the destination back to the source; `none` where the fuel runs out, `some none` where
`prev` has no entry. -/
def reconstruct (prev : Hash → Option (Hash × ChannelEdge)) (source : Hash) (amount : Nat) :
    Nat → Hash → List RouteHop → Nat → Option (Option (List RouteHop × Nat))
  | 0, _, _, _ => none
  | fuel + 1, current, hops, totalFee =>
      if current = source then some (some (hops, totalFee))
      else
        match prev current with
        | none => some none
        | some (prevNode, edge) =>
            reconstruct prev source amount fuel prevNode (hopOf amount edge :: hops)
              ((totalFee + edge.feeForAmount amount) % 2 ^ 64)

/-- `find_route`; the outer `none` says that `fuel` was not enough. -/
def ChannelGraph.findRoute (heap : LeastHeap Hash) (fuel : Nat) (graph : ChannelGraph)
    (source destination : Hash) (amount : Nat) : Option (Option Route) :=
  if source = destination then some (some ⟨[], 0, amount⟩)
  else
    match (graph.routing amount).search heap destination fuel (Routing.start source) with
    | none => none
    | some final =>
        if (final.prev destination).isNone then some none
        else
          (reconstruct final.prev source amount fuel destination [] 0).map fun found =>
            found.map fun (hops, totalFee) =>
              ⟨hops, totalFee, (amount + totalFee) % 2 ^ 64⟩

/-! ## The graph of a list of channels -/

/-- The graph after `add_channel` for each of them. -/
def ChannelGraph.ofChannels (channels : List ChannelEdge) : ChannelGraph :=
  channels.foldl ChannelGraph.addChannel .new

abbrev routingOf (channels : List ChannelEdge) (amount : Nat) : Routing Hash ChannelEdge :=
  (ChannelGraph.ofChannels channels).routing amount

section Graph

variable {graph : ChannelGraph} {edge other : ChannelEdge} {channels : List ChannelEdge}
  {node : Hash}

theorem mem_outgoing_pushEdge :
    other ∈ (graph.pushEdge edge).outgoing node ↔
      other ∈ graph.outgoing node ∨ edge.source = node ∧ other = edge := by
  by_cases hnode : node = edge.source
  · subst hnode
    simp [ChannelGraph.pushEdge, ChannelGraph.outgoing, Finmap.lookup_insert]
  · simp [ChannelGraph.pushEdge, ChannelGraph.outgoing, Finmap.lookup_insert_of_ne _ hnode,
      Ne.symm hnode]

theorem mem_outgoing_ofChannels :
    edge ∈ (ChannelGraph.ofChannels channels).outgoing node ↔
      edge.source = node ∧ (edge ∈ channels ∨ edge.reverse ∈ channels) := by
  induction channels using List.reverseRecOn with
  | nil => simp [ChannelGraph.ofChannels, ChannelGraph.new, ChannelGraph.outgoing]
  | append_singleton channels channel ih =>
      have hsnoc : ChannelGraph.ofChannels (channels ++ [channel]) =
          (ChannelGraph.ofChannels channels).addChannel channel := by
        simp [ChannelGraph.ofChannels]
      have hreverse : edge.reverse = channel ↔ edge = channel.reverse := by
        constructor
        · rintro rfl
          rfl
        · rintro rfl
          rfl
      rw [hsnoc, ChannelGraph.addChannel, mem_outgoing_pushEdge, mem_outgoing_pushEdge, ih]
      simp only [List.mem_append, List.mem_singleton, hreverse]
      constructor
      · rintro ((⟨hsource, hmem⟩ | ⟨hsource, rfl⟩) | ⟨hsource, rfl⟩)
        · exact ⟨hsource, hmem.imp .inl .inl⟩
        · exact ⟨hsource, .inl (.inr rfl)⟩
        · exact ⟨hsource, .inr (.inr rfl)⟩
      · rintro ⟨hsource, (hmem | rfl) | (hmem | rfl)⟩
        · exact .inl (.inl ⟨hsource, .inl hmem⟩)
        · exact .inl (.inr ⟨hsource, rfl⟩)
        · exact .inl (.inl ⟨hsource, .inr hmem⟩)
        · exact .inr ⟨hsource, rfl⟩

end Graph

/-! ## Eligible paths -/

section Paths

variable (channels : List ChannelEdge) (amount : Nat) (source : Hash)

/-- A path of edges, either direction of a channel, each with capacity at least the amount. -/
inductive EligiblePath : List ChannelEdge → Hash → Prop
  | nil : EligiblePath [] source
  | snoc {path : List ChannelEdge} {edge : ChannelEdge} (hpath : EligiblePath path edge.source)
      (hchannel : edge ∈ channels ∨ edge.reverse ∈ channels) (hcapacity : amount ≤ edge.capacity) :
      EligiblePath (path ++ [edge]) edge.target

def feeSum (path : List ChannelEdge) : Nat := (path.map (·.feeForAmount amount)).sum

variable {channels amount source} {path : List ChannelEdge} {node : Hash}

theorem walk_iff_eligiblePath :
    (routingOf channels amount).Walk source path node ↔
      EligiblePath channels amount source path node := by
  constructor
  · intro hwalk
    induction hwalk with
    | nil => exact .nil
    | snoc hwalk hedge husable ih =>
        obtain ⟨rfl, hchannel⟩ := mem_outgoing_ofChannels.mp hedge
        exact .snoc ih hchannel (of_decide_eq_true husable)
  · intro hpath
    induction hpath with
    | nil => exact .nil
    | snoc hpath hchannel hcapacity ih =>
        exact .snoc ih (mem_outgoing_ofChannels.mpr ⟨rfl, hchannel⟩) (decide_eq_true hcapacity)

theorem outgoing_of_notMem {graph : ChannelGraph} (hnode : node ∉ graph.edges.keys) :
    graph.outgoing node = [] := by
  rw [Finmap.mem_keys] at hnode
  rw [ChannelGraph.outgoing, Finmap.lookup_eq_none.mpr hnode, Option.getD_none]

theorem reconstruct_branch {graph : ChannelGraph} {prev : Hash → Option (Hash × ChannelEdge)}
    (hbranch : (graph.routing amount).Branch prev source path node) {fuel : Nat}
    {hops : List RouteHop} {totalFee : Nat} (hfuel : path.length < fuel)
    (hfits : totalFee + feeSum amount path < 2 ^ 64) :
    reconstruct prev source amount fuel node hops totalFee =
      some (some (path.map (hopOf amount) ++ hops, totalFee + feeSum amount path)) := by
  induction hbranch generalizing fuel hops totalFee with
  | source =>
      obtain ⟨fuel, rfl⟩ := Nat.exists_eq_succ_of_ne_zero (Nat.ne_zero_of_lt hfuel)
      simp [reconstruct, feeSum]
  | @step before edge path hnode hprev hedge husable hbranch ih =>
      obtain ⟨fuel, rfl⟩ := Nat.exists_eq_succ_of_ne_zero (Nat.ne_zero_of_lt hfuel)
      rw [List.length_append, List.length_singleton] at hfuel
      have hsum : feeSum amount (path ++ [edge]) =
          feeSum amount path + edge.feeForAmount amount := by
        simp [feeSum]
      rw [hsum] at hfits ⊢
      rw [reconstruct, if_neg hnode, hprev]
      simp only
      rw [Nat.mod_eq_of_lt (by omega), ih (by omega) (by omega), List.map_append,
        List.append_assoc, List.map_singleton, List.singleton_append]
      simp only [Option.some.injEq, Prod.mk.injEq, true_and]
      omega

end Paths

/-! ## Optimal routes -/

section Optimal

variable (heap : LeastHeap Hash) (channels : List ChannelEdge) (source destination : Hash)
  (amount : Nat)

/-- No fee sum that `find_route` forms reaches `2 ^ 64`. -/
def FeeSumsFit : Prop :=
  ∀ cost node, (routingOf channels amount).Scans heap destination (Routing.start source) cost node →
    ∀ edge ∈ (ChannelGraph.ofChannels channels).outgoing node, amount ≤ edge.capacity →
      cost + edge.feeForAmount amount < 2 ^ 64

structure OptimalRoute (route : Route) : Prop where
  path : ∃ path, EligiblePath channels amount source path destination ∧
    (source :: path.map ChannelEdge.target).Nodup ∧ route.hops = path.map (hopOf amount)
  totalFee : route.totalFee = (route.hops.map RouteHop.fee).sum
  least : ∀ other, EligiblePath channels amount source other destination →
    route.totalFee ≤ feeSum amount other

/-- `find_route` terminates, finds a route where there is one, and an optimal one. -/
def RoutesOptimally : Prop :=
  ∃ enough result,
    (∀ fuel, enough ≤ fuel → (ChannelGraph.ofChannels channels).findRoute heap fuel source
      destination amount = some result) ∧
    (result.isSome ↔ ∃ path, EligiblePath channels amount source path destination) ∧
    ∀ route, result = some route → OptimalRoute channels source destination amount route

variable {heap channels source destination amount}

theorem FeeSumsFit.exactAt (hfits : FeeSumsFit heap channels source destination amount)
    (cost : Nat) (node : Hash)
    (hscans : (routingOf channels amount).Scans heap destination (Routing.start source) cost node) :
    (routingOf channels amount).ExactAt cost node := by
  intro edge hedge husable
  exact Nat.mod_eq_of_lt (hfits cost node hscans edge hedge (of_decide_eq_true husable))

theorem search_stops {graph : ChannelGraph}
    (hexact : ∀ cost node, (graph.routing amount).Scans heap destination (Routing.start source)
      cost node → (graph.routing amount).ExactAt cost node) :
    ∃ known final, (graph.routing amount).search heap destination known (Routing.start source) =
        some final ∧
      (graph.routing amount).Answered source destination final :=
  ⟨_, Routing.search_answered (fun node hnode => outgoing_of_notMem hnode) hexact
    (by decide : 0 < 2 ^ 64 - 1) (Nat.lt_succ_self _)⟩

theorem findRoute_of_search {graph : ChannelGraph} (hother : source ≠ destination) {fuel : Nat}
    {final : SearchState Hash ChannelEdge}
    (hsearch : (graph.routing amount).search heap destination fuel (Routing.start source) =
      some final) :
    graph.findRoute heap fuel source destination amount =
      if (final.prev destination).isNone then some none
      else (reconstruct final.prev source amount fuel destination [] 0).map fun found =>
        found.map fun (hops, totalFee) => ⟨hops, totalFee, (amount + totalFee) % 2 ^ 64⟩ := by
  rw [ChannelGraph.findRoute, if_neg hother, hsearch]

theorem findRoute_of_branch {graph : ChannelGraph} (hother : source ≠ destination) {fuel : Nat}
    {final : SearchState Hash ChannelEdge}
    (hsearch : (graph.routing amount).search heap destination fuel (Routing.start source) =
      some final)
    {path : List ChannelEdge}
    (hbranch : (graph.routing amount).Branch final.prev source path destination)
    (hfuel : path.length < fuel) (hfits : feeSum amount path < 2 ^ 64) :
    graph.findRoute heap fuel source destination amount = some (some
      ⟨path.map (hopOf amount), feeSum amount path, (amount + feeSum amount path) % 2 ^ 64⟩) := by
  have hprev : (final.prev destination).isNone = false := by
    cases hbranch with
    | source => exact absurd rfl hother
    | step hnode hprev hedge husable hbranch => rw [hprev, Option.isNone_some]
  rw [findRoute_of_search hother hsearch, hprev, if_neg Bool.false_ne_true,
    reconstruct_branch hbranch hfuel (by omega), List.append_nil, Nat.zero_add, Option.map_some,
    Option.map_some]

theorem findRoute_of_lost {graph : ChannelGraph} (hother : source ≠ destination) {fuel : Nat}
    {final : SearchState Hash ChannelEdge}
    (hsearch : (graph.routing amount).search heap destination fuel (Routing.start source) =
      some final)
    (hnone : final.prev destination = none) :
    graph.findRoute heap fuel source destination amount = some none := by
  rw [findRoute_of_search hother hsearch, hnone, Option.isNone_none, if_pos rfl]

theorem findRoute_self (heap : LeastHeap Hash) (graph : ChannelGraph) (fuel : Nat)
    (source : Hash) (amount : Nat) :
    graph.findRoute heap fuel source source amount = some (some ⟨[], 0, amount⟩) :=
  if_pos rfl

theorem routesOptimally_self : RoutesOptimally heap channels source source amount := by
  refine ⟨0, some ⟨[], 0, amount⟩, fun fuel _ => findRoute_self .., ?_, ?_⟩
  · simp only [Option.isSome_some, true_iff]
    exact ⟨[], .nil⟩
  · intro route hroute
    obtain rfl := Option.some.inj hroute
    exact ⟨⟨[], .nil, List.nodup_singleton _, rfl⟩, rfl, fun other _ => Nat.zero_le _⟩

/-- The number that stands for "not reached" is the only fee sum for which there is no route. -/
theorem findRoute_optimal_iff (hfits : FeeSumsFit heap channels source destination amount) :
    RoutesOptimally heap channels source destination amount ↔
      ∀ path, EligiblePath channels amount source path destination →
        ∃ cheaper, EligiblePath channels amount source cheaper destination ∧
          feeSum amount cheaper < 2 ^ 64 - 1 := by
  by_cases hother : source = destination
  · subst hother
    exact ⟨fun _ _ _ => ⟨[], .nil, (by decide : 0 < 2 ^ 64 - 1)⟩, fun _ => routesOptimally_self⟩
  obtain ⟨known, final, hsearch, hanswered⟩ := search_stops hfits.exactAt
  cases hanswered with
  | @found path hbranch hsimple hbelow hleast =>
      have hpath := walk_iff_eligiblePath.mp hbranch.walk
      have hbelow : feeSum amount path < 2 ^ 64 - 1 := hbelow
      constructor
      · exact fun _ _ _ => ⟨path, hpath, hbelow⟩
      · intro _
        refine ⟨max known (path.length + 1), some _, fun fuel hfuel => findRoute_of_branch hother
          (Routing.search_mono (le_trans (le_max_left _ _) hfuel) hsearch) hbranch
          (lt_of_lt_of_le (Nat.lt_succ_self _) (le_trans (le_max_right _ _) hfuel))
          (by omega), ?_, ?_⟩
        · simp only [Option.isSome_some, true_iff]
          exact ⟨path, hpath⟩
        · intro route hroute
          obtain rfl := Option.some.inj hroute
          refine ⟨⟨path, hpath, hsimple, rfl⟩, ?_, fun other hwalk => ?_⟩
          · simp [feeSum, hopOf, Function.comp_def]
          · exact hleast other (walk_iff_eligiblePath.mpr hwalk)
  | lost hnone hleast =>
      have hlost : ∀ other, EligiblePath channels amount source other destination →
          2 ^ 64 - 1 ≤ feeSum amount other :=
        fun other hpath => hleast other (walk_iff_eligiblePath.mpr hpath)
      constructor
      · rintro ⟨enough, result, hresult, hfound, -⟩ path hpath
        have hnow := hresult _ (le_max_left enough known)
        rw [findRoute_of_lost hother (Routing.search_mono (le_max_right enough known) hsearch)
          hnone] at hnow
        obtain rfl := Option.some.inj hnow
        exact absurd (hfound.mpr ⟨path, hpath⟩) (by simp)
      · intro hcheaper
        refine ⟨known, none, fun fuel hfuel => findRoute_of_lost hother
          (Routing.search_mono hfuel hsearch) hnone, ?_, fun route hroute => by contradiction⟩
        simp only [Option.isSome_none, Bool.false_eq_true, false_iff]
        rintro ⟨path, hpath⟩
        obtain ⟨cheaper, hcheap, hbelow⟩ := hcheaper path hpath
        exact absurd (hlost cheaper hcheap) (by omega)

end Optimal

/-! ## One channel -/

/-- A channel between two nodes with a fee that the amount does not change. -/
def directChannel (fee : Nat) : ChannelEdge where
  channelId := ⟨0⟩
  source := ⟨1⟩
  target := ⟨2⟩
  capacity := 1000
  feeRatePpm := 0
  baseFee := fee

theorem eq_of_mem_outgoing_direct {fee : Nat} {edge : ChannelEdge}
    (hedge : edge ∈ (ChannelGraph.ofChannels [directChannel fee]).outgoing ⟨1⟩) :
    edge = directChannel fee := by
  obtain ⟨hsource, hchannel⟩ := mem_outgoing_ofChannels.mp hedge
  rcases hchannel with hsame | hsame
  · exact List.mem_singleton.mp hsame
  · have hreverse : edge = (directChannel fee).reverse := by
      rw [← List.mem_singleton.mp hsame, ChannelEdge.reverse_reverse]
    rw [hreverse] at hsource
    exact absurd hsource (by decide : (⟨2⟩ : Hash) ≠ ⟨1⟩)

theorem feeSumsFit_direct (heap : LeastHeap Hash) (fee amount : Nat) :
    FeeSumsFit heap [directChannel fee] ⟨1⟩ ⟨2⟩ amount := by
  intro cost node hscans edge hedge _
  have hstart : (node = ⟨1⟩ ∧ cost = 0 ∨ node = ⟨2⟩) ∧ node ≠ ⟨2⟩ := by
    refine @Routing.Scans.entry_rule _ _ _ _ _ heap _
      (fun cost node => node = ⟨1⟩ ∧ cost = 0 ∨ node = ⟨2⟩) ?_ _ _ hscans ?_
    · rintro cost node (⟨rfl, rfl⟩ | rfl) hnode edge hedge -
      · exact .inr (congrArg ChannelEdge.target (eq_of_mem_outgoing_direct hedge))
      · exact absurd rfl hnode
    · intro entry hentry
      obtain rfl := List.mem_singleton.mp hentry
      exact .inl ⟨rfl, rfl⟩
  obtain ⟨⟨-, rfl⟩ | rfl, hnode⟩ := hstart
  · rw [Nat.zero_add]
    exact Nat.mod_lt _ (by decide)
  · exact absurd rfl hnode

theorem findRoute_optimal_direct :
    RoutesOptimally (.preferring fun _ => 0) [directChannel 10] ⟨1⟩ ⟨2⟩ 1000 :=
  (findRoute_optimal_iff (feeSumsFit_direct _ 10 1000)).mpr fun _ _ =>
    ⟨[] ++ [directChannel 10], .snoc .nil (.inl List.mem_cons_self) (by decide), by decide⟩

/-- The only path costs `u64::MAX`. -/
theorem max_fee_unrouted :
    FeeSumsFit (.preferring fun _ => 0) [directChannel (2 ^ 64 - 1)] ⟨1⟩ ⟨2⟩ 1000 ∧
      EligiblePath [directChannel (2 ^ 64 - 1)] 1000 ⟨1⟩ [directChannel (2 ^ 64 - 1)] ⟨2⟩ ∧
      ¬ RoutesOptimally (.preferring fun _ => 0) [directChannel (2 ^ 64 - 1)] ⟨1⟩ ⟨2⟩ 1000 := by
  have hpath : EligiblePath [directChannel (2 ^ 64 - 1)] 1000 ⟨1⟩
      ([] ++ [directChannel (2 ^ 64 - 1)]) ⟨2⟩ :=
    .snoc .nil (.inl List.mem_cons_self) (by decide)
  refine ⟨feeSumsFit_direct _ _ _, hpath, ?_⟩
  rintro ⟨enough, result, hresult, hfound, -⟩
  obtain ⟨final, hsearch, hnone⟩ : ∃ final, (routingOf [directChannel (2 ^ 64 - 1)] 1000).search
      (.preferring fun _ => 0) ⟨2⟩ 3 (Routing.start ⟨1⟩) = some final ∧
        final.prev ⟨2⟩ = none := ⟨_, rfl, rfl⟩
  have hnow := hresult _ (le_max_left enough 3)
  rw [findRoute_of_lost (by decide) (Routing.search_mono (le_max_right enough 3) hsearch)
    hnone] at hnow
  obtain rfl := Option.some.inj hnow
  exact absurd (hfound.mpr ⟨_, hpath⟩) (by simp)

end Doli.Channels
