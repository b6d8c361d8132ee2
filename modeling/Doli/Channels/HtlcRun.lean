import Doli.Channels.HtlcManager

/-!
# Payments settle once

What a run of the manager keeps: the listed ids are among those added and in their order, and
the pending payments are those added that have not settled.
-/

namespace Doli.Channels

open Doli.Core Doli.Lib

/-! ## One settlement more in a history -/

section Histories

variable {history : HtlcHistory} {entry : HtlcOp × HtlcAnswer}

@[simp] theorem added_snoc :
    HtlcHistory.added (history ++ [entry]) = history.added ++ (addedBy entry).toList := by
  cases hadded : addedBy entry with
  | none => simp [HtlcHistory.added, hadded]
  | some htlc => simp [HtlcHistory.added, hadded]

@[simp] theorem addedIds_snoc :
    HtlcHistory.addedIds (history ++ [entry]) =
      history.addedIds ++ ((addedBy entry).map AddedHtlc.htlcId).toList := by
  rw [HtlcHistory.addedIds, added_snoc, List.map_append]
  cases addedBy entry <;> rfl

@[simp] theorem settledIds_snoc :
    HtlcHistory.settledIds (history ++ [entry]) =
      history.settledIds ++ (settledBy entry).toList := by
  cases hsettled : settledBy entry with
  | none => simp [HtlcHistory.settledIds, hsettled]
  | some htlcId => simp [HtlcHistory.settledIds, hsettled]

end Histories

def ListedHtlc.entry (htlc : ListedHtlc) : AddedHtlc := ⟨htlc.htlcId, htlc.direction, htlc.amount⟩

/-! ## What a settlement changes -/

section Settlements

variable {prim : Primitives} {manager : HtlcManager} {htlcId : Nat}

/-- The first pending entry of the id leaves its state, or the operation is refused. -/
inductive Settles (manager : HtlcManager) (htlcId : Nat) :
    Except HtlcError (HtlcManager × Nat) → Prop
  | refused (error : HtlcError) : Settles manager htlcId (.error error)
  | settled {htlc : ListedHtlc} {change : ListedHtlc → ListedHtlc}
      (hfind : manager.htlcs.find? (HtlcManager.isPending htlcId) = some htlc)
      (hkeeps : ∀ found, (change found).htlcId = found.htlcId)
      (hleaves : ∀ found, (change found).state ≠ .pending) :
      Settles manager htlcId (.ok (⟨manager.nextId,
        changeFirst (HtlcManager.isPending htlcId) change manager.htlcs⟩, htlc.amount))

theorem settles_fulfill (preimage : Bytes) :
    Settles manager htlcId (manager.fulfill prim htlcId preimage) := by
  unfold HtlcManager.fulfill
  split
  case h_1 => exact .refused _
  case h_2 htlc hfind =>
    split
    · exact .refused _
    · exact .settled hfind (fun _ => rfl) fun _ => HtlcState.noConfusion

theorem settles_expire (currentHeight : Nat) :
    Settles manager htlcId (manager.expire htlcId currentHeight) := by
  unfold HtlcManager.expire
  split
  case h_1 => exact .refused _
  case h_2 htlc hfind =>
    split
    · exact .refused _
    · exact .settled hfind (fun _ => rfl) fun _ => HtlcState.noConfusion

/-- The first entry of the id, which is not pending, is marked, or the operation is refused. -/
inductive Resolves (manager : HtlcManager) (htlcId : Nat) :
    Except HtlcError HtlcManager → Prop
  | refused (error : HtlcError) : Resolves manager htlcId (.error error)
  | resolved {htlc : ListedHtlc} {change : ListedHtlc → ListedHtlc}
      (hfind : manager.htlcs.find? (HtlcManager.isNamed htlcId) = some htlc)
      (hbefore : htlc.state ≠ .pending) (hkeeps : ∀ found, (change found).htlcId = found.htlcId)
      (hleaves : ∀ found, (change found).state ≠ .pending) :
      Resolves manager htlcId (.ok ⟨manager.nextId,
        changeFirst (HtlcManager.isNamed htlcId) change manager.htlcs⟩)

theorem resolves_resolve : Resolves manager htlcId (manager.resolve htlcId) := by
  unfold HtlcManager.resolve
  split
  case h_1 => exact .refused _
  case h_2 htlc hfind =>
    split
    case isTrue => exact .refused _
    case isFalse hsettled =>
      refine .resolved hfind (fun hpending => ?_) (fun _ => rfl) fun _ => HtlcState.noConfusion
      simp [hpending] at hsettled

theorem named_of_isPending (htlc : ListedHtlc)
    (hfound : HtlcManager.isPending htlcId htlc = true) : htlc.htlcId = htlcId := by
  simp only [HtlcManager.isPending, Bool.and_eq_true, decide_eq_true_eq] at hfound
  exact hfound.1

end Settlements

/-! ## The invariant -/

structure HtlcInvariant (history : HtlcHistory) (manager : HtlcManager) : Prop where
  added : history.addedIds.Nodup
  below : ∀ htlcId ∈ history.addedIds, htlcId < manager.nextId
  listed : (manager.htlcs.map ListedHtlc.htlcId).Sublist history.addedIds
  settled : history.settledIds.Nodup
  known : ∀ htlcId ∈ history.settledIds, htlcId ∈ history.addedIds
  pending : manager.pending.map ListedHtlc.entry = history.outstanding
  fits : ∀ direction, (manager.pendingAmounts direction).sum < 2 ^ 64

namespace HtlcInvariant

variable {arith : WordArith} {prim : Primitives} {history : HtlcHistory}
  {manager next : HtlcManager} {op : HtlcOp} {answer : HtlcAnswer}

theorem new : HtlcInvariant [] .new where
  added := List.nodup_nil
  below := by simp [HtlcHistory.addedIds, HtlcHistory.added]
  listed := List.Sublist.refl _
  settled := List.nodup_nil
  known := by simp [HtlcHistory.settledIds]
  pending := rfl
  fits _ := by simp [HtlcManager.pendingAmounts, HtlcManager.new]

theorem ids_nodup (hinv : HtlcInvariant history manager) :
    (manager.htlcs.map ListedHtlc.htlcId).Nodup :=
  hinv.added.sublist hinv.listed

theorem pendingAmounts_eq (hinv : HtlcInvariant history manager) (direction : PaymentDirection) :
    (manager.pendingAmounts direction).sum = history.outstandingTotal direction := by
  rw [HtlcHistory.outstandingTotal, ← hinv.pending, HtlcManager.pending, List.filter_map,
    List.filter_filter, List.map_map]
  congr 1
  apply congrArg (List.map _)
  apply List.filter_congr
  intro htlc _
  rw [Bool.and_comm]
  rfl

theorem idle (hinv : HtlcInvariant history manager) (hadded : addedBy (op, answer) = none)
    (hsettled : settledBy (op, answer) = none) (hnext : next.nextId = manager.nextId)
    (hlisted : (next.htlcs.map ListedHtlc.htlcId).Sublist
      (manager.htlcs.map ListedHtlc.htlcId))
    (hpending : next.pending = manager.pending) :
    HtlcInvariant (history ++ [(op, answer)]) next := by
  have hamounts : ∀ direction,
      next.pendingAmounts direction = manager.pendingAmounts direction := by
    intro direction
    have hfilter : ∀ current : HtlcManager, current.pendingAmounts direction =
        (current.pending.filter fun htlc => htlc.direction = direction).map
          fun htlc => htlc.amount := by
      intro current
      rw [HtlcManager.pendingAmounts, HtlcManager.pending, List.filter_filter]
      simp only [Bool.and_comm]
    rw [hfilter, hfilter, hpending]
  constructor
  case added => simpa [hadded] using hinv.added
  case below => simpa [hadded, hnext] using hinv.below
  case listed => simpa [hadded] using hlisted.trans hinv.listed
  case settled => simpa [hsettled] using hinv.settled
  case known => simpa [hadded, hsettled] using hinv.known
  case pending => simpa [HtlcHistory.outstanding, hadded, hsettled, hpending] using hinv.pending
  case fits =>
    intro direction
    rw [hamounts]
    exact hinv.fits direction

theorem add (hinv : HtlcInvariant history manager) {htlc : ListedHtlc}
    (hadded : addedBy (op, answer) = some htlc.entry)
    (hsettled : settledBy (op, answer) = none) (hstate : htlc.state = .pending)
    (hfresh : htlc.htlcId ∉ history.addedIds) (hle : manager.nextId ≤ next.nextId)
    (hlt : htlc.htlcId < next.nextId) (hnext : next.htlcs = manager.htlcs ++ [htlc])
    (hfits : (manager.pendingAmounts htlc.direction).sum + htlc.amount < 2 ^ 64) :
    HtlcInvariant (history ++ [(op, answer)]) next := by
  have hids : HtlcHistory.addedIds (history ++ [(op, answer)]) =
      history.addedIds ++ [htlc.htlcId] := by
    rw [addedIds_snoc, hadded]
    rfl
  have hsettles : HtlcHistory.settledIds (history ++ [(op, answer)]) = history.settledIds := by
    simp [hsettled]
  constructor
  case added =>
    rw [hids]
    exact List.nodup_append.mpr ⟨hinv.added, List.nodup_singleton _,
      fun held hheld other hother heq => hfresh (List.mem_singleton.mp hother ▸ heq ▸ hheld)⟩
  case below =>
    intro htlcId hmem
    rw [hids, List.mem_append, List.mem_singleton] at hmem
    rcases hmem with hmem | rfl
    · exact (hinv.below htlcId hmem).trans_le hle
    · exact hlt
  case listed =>
    rw [hids, hnext, List.map_append]
    exact hinv.listed.append (List.Sublist.refl _)
  case settled => rw [hsettles]; exact hinv.settled
  case known =>
    intro htlcId hmem
    rw [hsettles] at hmem
    rw [hids]
    exact List.mem_append_left _ (hinv.known htlcId hmem)
  case pending =>
    have hopen : htlc.htlcId ∉ history.settledIds := fun hmem => hfresh (hinv.known _ hmem)
    have hlast : htlc.entry.htlcId ∉ history.settledIds := hopen
    rw [HtlcHistory.outstanding, hsettles, added_snoc, hadded, List.filter_append,
      ← HtlcHistory.outstanding, ← hinv.pending, HtlcManager.pending, hnext, List.filter_append,
      List.map_append]
    simp [HtlcManager.pending, hstate, hlast]
  case fits =>
    intro direction
    have hbefore := hinv.fits direction
    by_cases hdirection : htlc.direction = direction
    · subst hdirection
      simpa [HtlcManager.pendingAmounts, hnext, hstate] using hfits
    · simpa [HtlcManager.pendingAmounts, hnext, hstate, hdirection] using hbefore

theorem settle (hinv : HtlcInvariant history manager) {htlcId : Nat} {htlc : ListedHtlc}
    {change : ListedHtlc → ListedHtlc}
    (hfind : manager.htlcs.find? (HtlcManager.isPending htlcId) = some htlc)
    (hkeeps : ∀ found, (change found).htlcId = found.htlcId)
    (hstate : ∀ found, (change found).state ≠ .pending)
    (hadded : addedBy (op, answer) = none) (hsettled : settledBy (op, answer) = some htlcId)
    (hnext : next = ⟨manager.nextId,
      changeFirst (HtlcManager.isPending htlcId) change manager.htlcs⟩) :
    HtlcInvariant (history ++ [(op, answer)]) next := by
  subst hnext
  have hnamed : ∀ found, HtlcManager.isPending htlcId found = true → found.htlcId = htlcId :=
    named_of_isPending
  have hids : (changeFirst (HtlcManager.isPending htlcId) change manager.htlcs).map
      ListedHtlc.htlcId = manager.htlcs.map ListedHtlc.htlcId := map_changeFirst hkeeps _
  have hdrop : ∀ keep : ListedHtlc → Bool, (∀ found, keep (change found) = false) →
      (changeFirst (HtlcManager.isPending htlcId) change manager.htlcs).filter keep =
        (manager.htlcs.filter keep).filter fun found => decide (found.htlcId ≠ htlcId) :=
    fun keep hafter => filter_changeFirst_of_drop hinv.ids_nodup hfind hnamed hafter
  -- what settles was pending, so it had not settled before
  have hopen : htlcId ∉ history.settledIds := by
    have hmem : htlc.entry ∈ history.outstanding := by
      rw [← hinv.pending]
      refine List.mem_map_of_mem (List.mem_filter.mpr ⟨List.mem_of_find?_eq_some hfind, ?_⟩)
      have hfound := List.find?_some hfind
      simp only [HtlcManager.isPending, Bool.and_eq_true] at hfound
      exact hfound.2
    have hsettles := of_decide_eq_true (List.mem_filter.mp hmem).2
    rwa [ListedHtlc.entry, hnamed htlc (List.find?_some hfind)] at hsettles
  have hadds : HtlcHistory.added (history ++ [(op, answer)]) = history.added := by
    simp [hadded]
  have haddedIds : HtlcHistory.addedIds (history ++ [(op, answer)]) = history.addedIds := by
    simp [hadded]
  have hsettles : HtlcHistory.settledIds (history ++ [(op, answer)]) =
      history.settledIds ++ [htlcId] := by
    rw [settledIds_snoc, hsettled]
    rfl
  constructor
  case added => rw [haddedIds]; exact hinv.added
  case below => rw [haddedIds]; exact hinv.below
  case listed => rw [haddedIds, hids]; exact hinv.listed
  case settled =>
    rw [hsettles]
    exact List.nodup_append.mpr ⟨hinv.settled, List.nodup_singleton _,
      fun held hheld other hother heq => hopen (List.mem_singleton.mp hother ▸ heq ▸ hheld)⟩
  case known =>
    intro settledId hmem
    rw [hsettles, List.mem_append, List.mem_singleton] at hmem
    rw [haddedIds]
    rcases hmem with hmem | rfl
    · exact hinv.known settledId hmem
    · have hfound := List.mem_of_find?_eq_some hfind
      have hlisted := hinv.listed.subset (List.mem_map_of_mem hfound)
      rwa [hnamed htlc (List.find?_some hfind)] at hlisted
  case pending =>
    have hrest : HtlcHistory.outstanding (history ++ [(op, answer)]) =
        history.outstanding.filter fun added => decide (added.htlcId ≠ htlcId) := by
      rw [HtlcHistory.outstanding, hadds, hsettles, HtlcHistory.outstanding, List.filter_filter]
      apply List.filter_congr
      intro added _
      simp [not_or, and_comm]
    rw [hrest, ← hinv.pending, HtlcManager.pending, hdrop _ fun found => by simp [hstate found],
      List.filter_map]
    rfl
  case fits =>
    intro direction
    refine lt_of_le_of_lt ?_ (hinv.fits direction)
    rw [HtlcManager.pendingAmounts, hdrop _ fun found => by simp [hstate found]]
    exact (List.filter_sublist.map _).sum_le_sum (fun _ _ => Nat.zero_le _)

theorem settling (hinv : HtlcInvariant history manager) {htlcId : Nat}
    {result : Except HtlcError (HtlcManager × Nat)} (hresult : Settles manager htlcId result)
    (hadded : ∀ answer, addedBy (op, answer) = none)
    (hsettled : ∀ amount, settledBy (op, .settled amount) = some htlcId)
    (hrefused : ∀ error, settledBy (op, .refused error) = none) :
    HtlcInvariant (history ++ [(op, (manager.settling result).2)])
      (manager.settling result).1 := by
  cases hresult with
  | refused error => exact hinv.idle (hadded _) (hrefused error) rfl (List.Sublist.refl _) rfl
  | settled hfind hkeeps hleaves =>
      exact hinv.settle hfind hkeeps hleaves (hadded _) (hsettled _) rfl

theorem resolving (hinv : HtlcInvariant history manager) {htlcId : Nat}
    {result : Except HtlcError HtlcManager} (hresult : Resolves manager htlcId result) :
    HtlcInvariant (history ++ [(.resolve htlcId, (manager.resolving result).2)])
      (manager.resolving result).1 := by
  cases hresult with
  | refused error => exact hinv.idle rfl rfl rfl (List.Sublist.refl _) rfl
  | resolved hfind hbefore hkeeps hleaves =>
      refine hinv.idle rfl rfl rfl ?_ ?_
      · rw [HtlcManager.resolving, map_changeFirst hkeeps]
      · exact filter_changeFirst_of_find? hfind (by simpa using hbefore)
          (by simpa using hleaves _)

theorem step (hinv : HtlcInvariant history manager) (hsound : arith.Sound (2 ^ 64))
    (hmeets : Collisionless history manager op)
    (hstep : manager.step arith prim op = some (next, answer)) :
    HtlcInvariant (history ++ [(op, answer)]) next := by
  cases op with
  | addOutgoing paymentHash amount expiryHeight =>
      obtain ⟨hnextId, htotal⟩ := hmeets
      simp only [HtlcManager.step, HtlcManager.addOutgoing, hsound.add_exact hnextId,
        Option.map_some, Option.some.injEq, Prod.mk.injEq] at hstep
      obtain ⟨rfl, rfl⟩ := hstep
      exact hinv.add rfl rfl rfl (fun hold => Nat.lt_irrefl _ (hinv.below _ hold))
        (Nat.le_succ _) (Nat.lt_succ_self _) rfl htotal
  | addIncoming htlcId paymentHash amount expiryHeight =>
      obtain ⟨hfresh, hnextId, htotal⟩ := hmeets
      simp only [HtlcManager.step, HtlcManager.addIncoming] at hstep
      split at hstep
      case isTrue hahead =>
        simp only [hsound.add_exact hnextId, Option.map_some, Option.some.injEq,
          Prod.mk.injEq] at hstep
        obtain ⟨rfl, rfl⟩ := hstep
        exact hinv.add rfl rfl rfl hfresh (Nat.le_succ_of_le hahead) (Nat.lt_succ_self _) rfl
          htotal
      case isFalse hbehind =>
        simp only [Option.map_some, Option.some.injEq, Prod.mk.injEq] at hstep
        obtain ⟨rfl, rfl⟩ := hstep
        exact hinv.add rfl rfl rfl hfresh (Nat.le_refl _) (Nat.lt_of_not_le hbehind) rfl htotal
  | fulfill htlcId preimage =>
      obtain ⟨rfl, rfl⟩ := Prod.mk.inj (Option.some.inj hstep)
      exact hinv.settling (settles_fulfill preimage) (fun _ => rfl) (fun _ => rfl) fun _ => rfl
  | expire htlcId currentHeight =>
      obtain ⟨rfl, rfl⟩ := Prod.mk.inj (Option.some.inj hstep)
      exact hinv.settling (settles_expire currentHeight) (fun _ => rfl) (fun _ => rfl) fun _ => rfl
  | resolve htlcId =>
      obtain ⟨rfl, rfl⟩ := Prod.mk.inj (Option.some.inj hstep)
      exact hinv.resolving resolves_resolve
  | gcResolved =>
      obtain ⟨rfl, rfl⟩ := Prod.mk.inj (Option.some.inj hstep)
      refine hinv.idle rfl rfl rfl (List.filter_sublist.map _) ?_
      rw [HtlcManager.pending, HtlcManager.pending, HtlcManager.gcResolved, List.filter_filter]
      apply List.filter_congr
      intro htlc _
      cases htlc.state <;> rfl

theorem run (hsound : arith.Sound (2 ^ 64))
    (hrun : HtlcRun arith prim Collisionless history manager) :
    HtlcInvariant history manager := by
  induction hrun with
  | new => exact .new
  | step hrun hmeets hstep ih => exact ih.step hsound hmeets hstep

end HtlcInvariant

/-! ## What an operation changes -/

section Frame

variable {arith : WordArith} {prim : Primitives} {manager next : HtlcManager} {op : HtlcOp}
  {answer : HtlcAnswer}

theorem OnlyNamed.refl (htlcId : Nat) (manager : HtlcManager) :
    OnlyNamed htlcId manager manager :=
  List.forall₂_same.mpr fun _ _ => ⟨rfl, fun _ => rfl⟩

theorem OnlyNamed.changeFirst {htlcId nextId : Nat} {found : ListedHtlc → Bool}
    {change : ListedHtlc → ListedHtlc}
    (hnamed : ∀ htlc, found htlc = true → htlc.htlcId = htlcId)
    (hkeeps : ∀ htlc, (change htlc).htlcId = htlc.htlcId) :
    OnlyNamed htlcId manager ⟨nextId, Lib.changeFirst found change manager.htlcs⟩ :=
  forall₂_changeFirst (fun _ => ⟨rfl, fun _ => rfl⟩)
    (fun htlc hfound => ⟨hkeeps htlc, fun hother => absurd (hnamed htlc hfound) hother⟩) _

theorem OnlyNamed.settling {htlcId : Nat} {result : Except HtlcError (HtlcManager × Nat)}
    (hresult : Settles manager htlcId result) :
    OnlyNamed htlcId manager (manager.settling result).1 := by
  cases hresult with
  | refused => exact .refl htlcId manager
  | settled hfind hkeeps hleaves => exact .changeFirst named_of_isPending hkeeps

theorem OnlyNamed.resolving {htlcId : Nat} {result : Except HtlcError HtlcManager}
    (hresult : Resolves manager htlcId result) :
    OnlyNamed htlcId manager (manager.resolving result).1 := by
  cases hresult with
  | refused => exact .refl htlcId manager
  | resolved hfind hbefore hkeeps hleaves =>
      exact .changeFirst (fun _ hfound => of_decide_eq_true hfound) hkeeps

theorem changesOnly_of_step (hstep : manager.step arith prim op = some (next, answer)) :
    ChangesOnly manager next op := by
  cases op with
  | addOutgoing paymentHash amount expiryHeight =>
      simp only [HtlcManager.step, HtlcManager.addOutgoing, Option.map_eq_some_iff] at hstep
      obtain ⟨_, ⟨nextId, -, rfl⟩, hpair⟩ := hstep
      obtain ⟨rfl, -⟩ := Prod.mk.inj hpair
      exact ⟨_, rfl, rfl⟩
  | addIncoming htlcId paymentHash amount expiryHeight =>
      simp only [HtlcManager.step, HtlcManager.addIncoming] at hstep
      split at hstep
      · simp only [Option.map_eq_some_iff] at hstep
        obtain ⟨_, ⟨nextId, -, rfl⟩, hpair⟩ := hstep
        obtain ⟨rfl, -⟩ := Prod.mk.inj hpair
        exact ⟨_, rfl, rfl⟩
      · simp only [Option.map_some, Option.some.injEq, Prod.mk.injEq] at hstep
        obtain ⟨rfl, -⟩ := hstep
        exact ⟨_, rfl, rfl⟩
  | fulfill htlcId preimage =>
      obtain ⟨rfl, -⟩ := Prod.mk.inj (Option.some.inj hstep)
      exact .settling (settles_fulfill preimage)
  | expire htlcId currentHeight =>
      obtain ⟨rfl, -⟩ := Prod.mk.inj (Option.some.inj hstep)
      exact .settling (settles_expire currentHeight)
  | resolve htlcId =>
      obtain ⟨rfl, -⟩ := Prod.mk.inj (Option.some.inj hstep)
      exact .resolving resolves_resolve
  | gcResolved =>
      obtain ⟨rfl, -⟩ := Prod.mk.inj (Option.some.inj hstep)
      rfl

end Frame

/-! ## Runs without collisions -/

/-- In every run without collisions no two payments have one id, none settles twice, the totals
are those of what was added and has not settled, and an operation changes the entry that it
names. -/
theorem htlcs_settle_once {arith : WordArith} (hsound : arith.Sound (2 ^ 64)) {prim : Primitives}
    {history : HtlcHistory} {manager : HtlcManager}
    (hrun : HtlcRun arith prim Collisionless history manager) :
    history.addedIds.Nodup ∧ (manager.htlcs.map ListedHtlc.htlcId).Nodup ∧
      history.settledIds.Nodup ∧
      (∀ htlcId ∈ history.settledIds, htlcId ∈ history.addedIds) ∧
      manager.totalOutgoingPending arith = some (history.outstandingTotal .outgoing) ∧
      manager.totalIncomingPending arith = some (history.outstandingTotal .incoming) ∧
      ∀ op next answer, manager.step arith prim op = some (next, answer) →
        ChangesOnly manager next op := by
  have hinv := HtlcInvariant.run hsound hrun
  have htotal : ∀ direction, arith.sum (manager.pendingAmounts direction) 0 =
      some (history.outstandingTotal direction) := by
    intro direction
    have hfits := hinv.fits direction
    rw [hsound.sum_exact (by rwa [Nat.zero_add]), Nat.zero_add, hinv.pendingAmounts_eq]
  exact ⟨hinv.added, hinv.ids_nodup, hinv.settled, hinv.known, htotal .outgoing,
    htotal .incoming, fun op next answer hstep => changesOnly_of_step hstep⟩

/-! ## An id of either side -/

/-- The hash of a preimage of one byte. -/
def samplePaymentHash (byte : UInt8) : Hash :=
  samplePrimitives.hashWithDomain hashlockDomain [byte]

def sampleOutgoing (htlcId : Nat) (state : HtlcState) (preimage : Option Bytes) : ListedHtlc :=
  ⟨⟨samplePaymentHash 1, 100, 50, .outgoing⟩, htlcId, state, preimage⟩

def sampleIncoming (htlcId : Nat) (state : HtlcState) : ListedHtlc :=
  ⟨⟨samplePaymentHash 2, 300, 40, .incoming⟩, htlcId, state, none⟩

theorem htlcs_settle_once_sample :
    (⟨11, [sampleOutgoing 0 .fulfilled (some [1]), sampleIncoming 10 .pending]⟩ :
      HtlcManager).totalIncomingPending (.wrapping (2 ^ 64)) = some 300 := by
  have houtgoing := @HtlcRun.step (.wrapping (2 ^ 64)) samplePrimitives Collisionless _ _
    ⟨1, [sampleOutgoing 0 .pending none]⟩ (.addOutgoing (samplePaymentHash 1) 100 50) _ .new
    (by decide +kernel) rfl
  have hincoming := @HtlcRun.step _ _ _ _ _
    ⟨11, [sampleOutgoing 0 .pending none, sampleIncoming 10 .pending]⟩
    (.addIncoming 10 (samplePaymentHash 2) 300 40) _ houtgoing (by decide +kernel) rfl
  have hfulfilled := @HtlcRun.step _ _ _ _ _
    ⟨11, [sampleOutgoing 0 .fulfilled (some [1]), sampleIncoming 10 .pending]⟩
    (.fulfill 0 [1]) (.settled 100) hincoming trivial (by decide +kernel)
  exact (htlcs_settle_once (WordArith.wrapping_sound _) hfulfilled).2.2.2.2.2.1

/-- The peer numbers its payment like ours: the expiry that is meant for it ends ours, and the
preimage that pays it is refused. -/
theorem peer_id_collides :
    ∃ history : HtlcHistory,
      HtlcRun (.wrapping (2 ^ 64)) samplePrimitives (fun _ _ _ => True) history
        ⟨1, [sampleOutgoing 0 .pending none, sampleIncoming 0 .pending]⟩ ∧
      ¬ history.addedIds.Nodup ∧
      HtlcManager.step (.wrapping (2 ^ 64)) samplePrimitives
          ⟨1, [sampleOutgoing 0 .pending none, sampleIncoming 0 .pending]⟩ (.expire 0 50) =
        some (⟨1, [sampleOutgoing 0 .expired none, sampleIncoming 0 .pending]⟩, .settled 100) ∧
      HtlcManager.step (.wrapping (2 ^ 64)) samplePrimitives
          ⟨1, [sampleOutgoing 0 .pending none, sampleIncoming 0 .pending]⟩ (.fulfill 0 [2]) =
        some (⟨1, [sampleOutgoing 0 .pending none, sampleIncoming 0 .pending]⟩,
          .refused .invalidRevocation) := by
  have houtgoing := @HtlcRun.step (.wrapping (2 ^ 64)) samplePrimitives (fun _ _ _ => True) _ _
    ⟨1, [sampleOutgoing 0 .pending none]⟩ (.addOutgoing (samplePaymentHash 1) 100 50) _ .new
    trivial rfl
  have hincoming := @HtlcRun.step _ _ _ _ _
    ⟨1, [sampleOutgoing 0 .pending none, sampleIncoming 0 .pending]⟩
    (.addIncoming 0 (samplePaymentHash 2) 300 40) _ houtgoing trivial rfl
  refine ⟨_, hincoming, ?_, ?_, ?_⟩ <;> decide +kernel

end Doli.Channels
