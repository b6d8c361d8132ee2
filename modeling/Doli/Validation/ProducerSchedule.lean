import Doli.Lib.Rotation
import Doli.Validation.BlockRules

/-!
# Whose slot it is

During bootstrap a slot has two ranks with a window of two seconds each, and a stale producer
comes back in the first window of its own slots.  After genesis the producers of the epoch
take the slots in turn.
-/

namespace Doli.Validation

open Doli.Core Doli.Lib

/-! ## Ranks -/

section

variable {producers start : List PublicKey} {slot : Nat}

theorem rankOrder_succ (count : Nat) :
    rankOrder producers slot (count + 1) start =
      match turn producers (slot + count) with
      | none => rankOrder producers slot count start
      | some key =>
          if key ∈ rankOrder producers slot count start then
            rankOrder producers slot count start
          else rankOrder producers slot count start ++ [key] := by
  rw [rankOrder, List.range_succ, List.foldl_append]
  rfl

theorem rankOrder_nodup (hstart : start.Nodup) (count : Nat) :
    (rankOrder producers slot count start).Nodup := by
  induction count with
  | zero => exact hstart
  | succ count ih =>
      rw [rankOrder_succ]
      split
      · exact ih
      split
      · exact ih
      · rename_i key _ hnew
        rw [List.nodup_append_comm, List.singleton_append, List.nodup_cons]
        exact ⟨hnew, ih⟩

theorem prefix_rankOrder (producers start : List PublicKey) (slot count : Nat) :
    start <+: rankOrder producers slot count start := by
  induction count with
  | zero => exact List.prefix_refl start
  | succ count ih =>
      rw [rankOrder_succ]
      split
      · exact ih
      split
      · exact ih
      · exact ih.trans (List.prefix_append _ _)

theorem mem_of_mem_rankOrder {key : PublicKey} (count : Nat)
    (hkey : key ∈ rankOrder producers slot count start) : key ∈ start ∨ key ∈ producers := by
  induction count with
  | zero => exact .inl hkey
  | succ count ih =>
      rw [rankOrder_succ] at hkey
      split at hkey
      · exact ih hkey
      split at hkey
      · exact ih hkey
      · rename_i next hturn _
        rcases List.mem_append.mp hkey with hkey | hkey
        · exact ih hkey
        · rw [List.mem_singleton.mp hkey]
          exact .inr (turn_mem hturn)

end

/-- The cap leaves the spacing positive. -/
theorem reentryProducer_eq (slot : Nat) (stale : List PublicKey) (interval : Nat) :
    reentryProducer slot stale interval =
      spacedTurn stale interval (min stale.length (interval / 5)) slot := by
  have hcap : min stale.length (interval / 5) ≤ interval :=
    (min_le_right _ _).trans (Nat.div_le_self interval 5)
  unfold reentryProducer spacedTurn
  dsimp only
  by_cases hnone : min stale.length (interval / 5) = 0
  · simp [hnone]
  · have hcount : 0 < min stale.length (interval / 5) := Nat.pos_of_ne_zero hnone
    have hspacing := Nat.div_pos hcap hcount
    simp [hcount, hcount.trans_le hcap, hspacing]

/-! ## Windows -/

section

variable {eligible : List PublicKey} {key other : PublicKey}

theorem findIdx?_eq_some_iff_getElem? (hnodup : eligible.Nodup) (rank : Nat) :
    eligible.findIdx? (· = key) = some rank ↔ eligible[rank]? = some key := by
  rw [List.findIdx?_eq_some_iff_getElem, List.getElem?_eq_some_iff]
  constructor
  · rintro ⟨hrank, hkey, -⟩
    exact ⟨hrank, by simpa using hkey⟩
  · rintro ⟨hrank, hkey⟩
    refine ⟨hrank, by simpa using hkey, ?_⟩
    intro earlier hearlier
    have hne : eligible[earlier] ≠ eligible[rank] := by
      rw [Ne, hnodup.getElem_inj_iff]
      omega
    simpa [← hkey] using hne

/-- The producer holds the window of the second.  A list of one has no windows. -/
def HoldsWindow (eligible : List PublicKey) (key : PublicKey) (seconds : Nat) : Prop :=
  eligible = [key] ∨ seconds < 4 ∧ eligible[seconds / 2]? = some key

theorem isProducerEligibleMs_iff (hnodup : eligible.Nodup) (key : PublicKey)
    (seconds : Nat) {millis : Nat} (hmillis : millis < 1000) :
    isProducerEligibleMs key eligible (seconds * 1000 + millis) = true ↔
      HoldsWindow eligible key seconds := by
  have hwindow : (seconds * 1000 + millis) / fallbackTimeoutMs = seconds / 2 := by
    unfold fallbackTimeoutMs
    omega
  unfold isProducerEligibleMs HoldsWindow
  split
  case h_1 hnone =>
    have habsent : key ∉ eligible := fun hkey => by
      simpa using List.findIdx?_eq_none_iff.mp hnone key hkey
    have hother : eligible[seconds / 2]? ≠ some key := fun hkey =>
      habsent (List.mem_of_getElem? hkey)
    have hsole : eligible ≠ [key] := by
      rintro rfl
      exact habsent List.mem_cons_self
    simp [hother, hsole]
  case h_2 rank hrank =>
    rw [findIdx?_eq_some_iff_getElem? hnodup] at hrank
    have hsole : eligible.length = 1 ↔ eligible = [key] := by
      rw [List.length_eq_one_iff]
      constructor
      · rintro ⟨only, rfl⟩
        rw [List.mem_singleton.mp (List.mem_of_getElem? hrank)]
      · exact fun heq => ⟨key, heq⟩
    have hsame : rank = seconds / 2 ↔ eligible[seconds / 2]? = some key := by
      constructor
      · rintro rfl
        exact hrank
      · intro hkey
        obtain ⟨hrank, hvalue⟩ := List.getElem?_eq_some_iff.mp hrank
        obtain ⟨hseconds, hkey⟩ := List.getElem?_eq_some_iff.mp hkey
        exact hnodup.getElem_inj_iff.mp (hvalue.trans hkey.symm)
    rw [Bool.or_eq_true, decide_eq_true_iff, hsole, isRankEligibleAtMs, hwindow,
      Bool.and_eq_true, decide_eq_true_iff, decide_eq_true_iff, hsame]
    have hlast : seconds / 2 < maxFallbackRanks ↔ seconds < 4 := by
      unfold maxFallbackRanks
      omega
    rw [hlast]

theorem HoldsWindow.mem {seconds : Nat} (hholds : HoldsWindow eligible key seconds) :
    key ∈ eligible := by
  rcases hholds with rfl | ⟨-, hkey⟩
  · exact List.mem_cons_self
  · exact List.mem_of_getElem? hkey

/-- One window, one producer. -/
theorem HoldsWindow.unique {seconds later : Nat} (hkey : HoldsWindow eligible key seconds)
    (hother : HoldsWindow eligible other later) (hwindow : seconds / 2 = later / 2) :
    key = other := by
  rcases hkey with rfl | ⟨-, hkey⟩
  · exact (List.mem_singleton.mp hother.mem).symm
  rcases hother with rfl | ⟨-, hother⟩
  · exact List.mem_singleton.mp (List.mem_of_getElem? hkey)
  · rw [hwindow, hother] at hkey
    exact (Option.some.inj hkey).symm

end

/-! ## The verdicts -/

section

variable (ctx : ValidationContext) (header : BlockHeader)

def slotOffset : Nat :=
  header.timestamp.toNat - ctx.params.slotToTimestamp header.slot.toNat

theorem bootstrapEligible_nodup : (bootstrapEligible ctx header).Nodup := by
  unfold bootstrapEligible bootstrapScheduleWithLiveness bootstrapFallbackOrder
  split
  · split
    · exact rankOrder_nodup (List.nodup_singleton _) _
    · exact rankOrder_nodup List.nodup_nil _
  · exact rankOrder_nodup List.nodup_nil _

theorem validateBootstrapProducer_eq_ok (hlist : ctx.bootstrapProducers ≠ []) :
    validateBootstrapProducer ctx header = .ok () ↔
      header.producer ∈ ctx.bootstrapProducers ∧
        HoldsWindow (bootstrapEligible ctx header) header.producer (slotOffset ctx header) := by
  have hnodup := bootstrapEligible_nodup ctx header
  have hlow := isProducerEligibleMs_iff hnodup header.producer (slotOffset ctx header)
    (show 0 < 1000 by decide)
  have hhigh := isProducerEligibleMs_iff hnodup header.producer (slotOffset ctx header)
    (show 999 < 1000 by decide)
  rw [Nat.add_zero] at hlow
  unfold validateBootstrapProducer
  rw [if_neg hlist]
  simp only [seq_eq_ok, refuseIf_eq_ok, not_not, not_and_or, Bool.not_eq_false]
  change _ ∧ _ ∧ (isProducerEligibleMs _ _ (slotOffset ctx header * 1000) = true ∨
    isProducerEligibleMs _ _ (slotOffset ctx header * 1000 + 999) = true) ↔ _
  rw [hlow, hhigh, or_self]
  constructor
  · rintro ⟨hmem, -, hholds⟩
    exact ⟨hmem, hholds⟩
  · rintro ⟨hmem, hholds⟩
    exact ⟨hmem, List.ne_nil_of_mem hholds.mem, hholds⟩

theorem checkRoundRobin_eq_ok (producers : List PublicKey) :
    checkRoundRobin header producers = .ok () ↔
      turn producers header.slot.toNat = some header.producer := by
  rw [checkRoundRobin, refuseIf_eq_ok, not_not]
  rfl

/-- The rule of the windows decides, not a rotation. -/
def ValidationContext.usesWindows : Bool :=
  ctx.network.params.isInGenesis ctx.currentHeight ||
    (ctx.epochProducerList = [] && ctx.activeProducersWeighted = [])

/-- The list that takes the slots in turn. -/
def ValidationContext.rotation : List PublicKey :=
  if ctx.epochProducerList ≠ [] then ctx.epochProducerList
  else (ctx.activeProducersWeighted.map Prod.fst).insertionSort
    fun left right => left.word.toNat ≤ right.word.toNat

variable {ctx}

theorem validateProducerEligibility_of_windows (huses : ctx.usesWindows = true)
    (hok : validateProducerEligibility ctx header = .ok ()) :
    validateBootstrapProducer ctx header = .ok () := by
  unfold validateProducerEligibility at hok
  split at hok
  · exact hok
  rename_i hgenesis
  simp only [ValidationContext.usesWindows, hgenesis, Bool.false_or, Bool.and_eq_true,
    decide_eq_true_eq] at huses
  rw [if_neg (not_not.mpr huses.1), if_neg (not_not.mpr huses.2)] at hok
  split at hok
  · exact hok
  · simp at hok

theorem validateProducerEligibility_of_rotation (huses : ctx.usesWindows = false) :
    validateProducerEligibility ctx header = .ok () ↔
      turn ctx.rotation header.slot.toNat = some header.producer := by
  simp only [ValidationContext.usesWindows, Bool.or_eq_false_iff, Bool.and_eq_false_iff,
    decide_eq_false_iff_not] at huses
  obtain ⟨hgenesis, hlists⟩ := huses
  unfold validateProducerEligibility ValidationContext.rotation
  rw [if_neg (by simp [hgenesis])]
  by_cases hepoch : ctx.epochProducerList = []
  · have hweighted := hlists.resolve_left (not_not.mpr hepoch)
    rw [if_neg (not_not.mpr hepoch), if_neg (not_not.mpr hepoch), if_pos hweighted,
      checkRoundRobin_eq_ok]
  · rw [if_pos hepoch, if_pos hepoch, checkRoundRobin_eq_ok]

end

/-! ## One producer at a time -/

section

variable {ctx : ValidationContext}

def slotHeader (slot : UInt32) (timestamp : UInt64) (producer : PublicKey) : BlockHeader where
  version := 2
  prevHash := ⟨0⟩
  merkleRoot := ⟨0⟩
  presenceRoot := ⟨0⟩
  genesisHash := ⟨7⟩
  timestamp := timestamp
  slot := slot
  producer := producer
  vdfOutput := []
  vdfProof := []
  missedProducers := []
  dataRoot := ⟨0⟩
  forkId := ⟨0⟩

/-- Two live producers and a stale one before the end of genesis. -/
def bootstrapOfThree : ValidationContext :=
  { sampleContext 10 with
    bootstrapProducers := [⟨1⟩, ⟨2⟩, ⟨3⟩]
    liveBootstrapProducers := [⟨1⟩, ⟨3⟩]
    staleBootstrapProducers := [⟨2⟩] }

/-- As many slots as the epoch has producers hold one slot of each. -/
theorem epoch_turn_once {key : PublicKey}
    (hgenesis : ctx.network.params.isInGenesis ctx.currentHeight = false)
    (hnodup : ctx.epochProducerList.Nodup) (hkey : key ∈ ctx.epochProducerList) (start : Nat) :
    ∃ slot, (start ≤ slot ∧ slot < start + ctx.epochProducerList.length) ∧
      ∀ header, header.producer = key → start ≤ header.slot.toNat →
        header.slot.toNat < start + ctx.epochProducerList.length →
          (validateProducerEligibility ctx header = .ok () ↔ header.slot.toNat = slot) := by
  have hlist : ctx.epochProducerList ≠ [] := List.ne_nil_of_mem hkey
  have huses : ctx.usesWindows = false := by
    simp [ValidationContext.usesWindows, hgenesis, hlist]
  obtain ⟨slot, ⟨hslot, hturn⟩, honly⟩ := turn_once hnodup hkey start
  refine ⟨slot, hslot, ?_⟩
  intro header hproducer hstart hend
  rw [validateProducerEligibility_of_rotation _ huses, ValidationContext.rotation, if_pos hlist,
    hproducer]
  constructor
  · exact fun hother => honly _ ⟨⟨hstart, hend⟩, hother⟩
  · exact fun hsame => hsame ▸ hturn

def epochOfThree : ValidationContext :=
  { sampleContext 400 with epochProducerList := [⟨1⟩, ⟨2⟩, ⟨3⟩] }

theorem second_of_three_turn :
    ∃ slot, (100 ≤ slot ∧ slot < 103) ∧ ∀ header : BlockHeader, header.producer = ⟨2⟩ →
      100 ≤ header.slot.toNat → header.slot.toNat < 103 →
        (validateProducerEligibility epochOfThree header = .ok () ↔ header.slot.toNat = slot) :=
  epoch_turn_once (show epochOfThree.network.params.isInGenesis 400 = false by decide)
    (by decide) (show ⟨2⟩ ∈ epochOfThree.epochProducerList by decide) 100

end

/-! ## The way back -/

/-- A split of the bootstrap producers into live and stale ones. -/
structure SplitsProducers (ctx : ValidationContext) : Prop where
  live_ne_nil : ctx.liveBootstrapProducers ≠ []
  stale_nodup : ctx.staleBootstrapProducers.Nodup
  stale_not_live : ∀ key ∈ ctx.staleBootstrapProducers, key ∉ ctx.liveBootstrapProducers
  stale_known : ∀ key ∈ ctx.staleBootstrapProducers, key ∈ ctx.bootstrapProducers

section

variable {ctx : ValidationContext} {header : BlockHeader}

theorem bootstrapEligible_of_live (hlive : ctx.liveBootstrapProducers ≠ []) :
    bootstrapEligible ctx header =
      bootstrapScheduleWithLiveness header.slot.toNat ctx.liveBootstrapProducers
        ctx.staleBootstrapProducers reentryInterval := by
  rw [bootstrapEligible, if_pos hlive]

theorem mem_bootstrapScheduleWithLiveness {slot interval : Nat} {live stale : List PublicKey}
    {key : PublicKey} (hkey : key ∈ bootstrapScheduleWithLiveness slot live stale interval) :
    key ∈ live ∨ key ∈ stale := by
  unfold bootstrapScheduleWithLiveness at hkey
  split at hkey
  · rename_i returning hreentry
    rw [reentryProducer_eq] at hreentry
    rcases mem_of_mem_rankOrder _ hkey with hstale | hlive
    · rw [List.mem_singleton.mp hstale]
      exact .inr (List.mem_of_mem_take (spacedTurn_mem_take hreentry))
    · exact .inl hlive
  · rcases mem_of_mem_rankOrder _ hkey with hnone | hlive
    · simp at hnone
    · exact .inl hlive

/-- Outside its own slots a stale producer is not eligible at all. -/
theorem reentry_of_stale (hsplits : SplitsProducers ctx)
    (hstale : header.producer ∈ ctx.staleBootstrapProducers)
    (hok : validateBootstrapProducer ctx header = .ok ()) :
    reentryProducer header.slot.toNat ctx.staleBootstrapProducers reentryInterval =
      some header.producer := by
  have hlist := List.ne_nil_of_mem (hsplits.stale_known _ hstale)
  have hmem := ((validateBootstrapProducer_eq_ok ctx header hlist).mp hok).2.mem
  have hnot := hsplits.stale_not_live _ hstale
  rw [bootstrapEligible_of_live hsplits.live_ne_nil, bootstrapScheduleWithLiveness] at hmem
  split at hmem
  · rename_i key hreentry
    rcases mem_of_mem_rankOrder _ hmem with hkey | hlive
    · rw [hreentry, List.mem_singleton.mp hkey]
    · exact absurd hlive hnot
  · rcases mem_of_mem_rankOrder _ hmem with hkey | hlive
    · simp at hkey
    · exact absurd hlive hnot

theorem accepted_of_reentry (hsplits : SplitsProducers ctx)
    (hstale : header.producer ∈ ctx.staleBootstrapProducers)
    (hreentry : reentryProducer header.slot.toNat ctx.staleBootstrapProducers reentryInterval =
      some header.producer)
    (hoffset : slotOffset ctx header < 2) : validateBootstrapProducer ctx header = .ok () := by
  have hknown := hsplits.stale_known _ hstale
  refine (validateBootstrapProducer_eq_ok ctx header (List.ne_nil_of_mem hknown)).mpr
    ⟨hknown, .inr ⟨by omega, ?_⟩⟩
  obtain ⟨rest, hrest⟩ := prefix_rankOrder ctx.liveBootstrapProducers [header.producer]
    header.slot.toNat (maxFallbackRanks - 1)
  have hfirst : slotOffset ctx header / 2 = 0 := by omega
  rw [bootstrapEligible_of_live hsplits.live_ne_nil, bootstrapScheduleWithLiveness, hreentry,
    hfirst]
  change (rankOrder _ _ _ _)[0]? = _
  rw [← hrest, List.singleton_append, List.getElem?_cons_zero]

/-- In every window of `reentryInterval` slots each of the first ten stale producers has one
slot, and there it may produce in the first two seconds. -/
theorem stale_returns_once (hsplits : SplitsProducers ctx) {index : Nat}
    (hindex : index < ctx.staleBootstrapProducers.length) (hcap : index < 10) (start : Nat) :
    ∃ slot, (start ≤ slot ∧ slot < start + reentryInterval) ∧
      (∀ header, header.producer = ctx.staleBootstrapProducers[index] →
        header.slot.toNat = slot → slotOffset ctx header < 2 →
          validateBootstrapProducer ctx header = .ok ()) ∧
      ∀ header, header.producer = ctx.staleBootstrapProducers[index] →
        start ≤ header.slot.toNat → header.slot.toNat < start + reentryInterval →
          validateBootstrapProducer ctx header = .ok () → header.slot.toNat = slot := by
  have hmem := List.getElem_mem hindex
  have hcount : index < min ctx.staleBootstrapProducers.length (reentryInterval / 5) :=
    lt_min hindex hcap
  obtain ⟨slot, ⟨hslot, hturn⟩, honly⟩ := spacedTurn_once hsplits.stale_nodup
    ((min_le_right _ _).trans (Nat.div_le_self reentryInterval 5)) hindex hcount start
  refine ⟨slot, hslot, ?_, ?_⟩
  · intro header hproducer hsame hoffset
    refine accepted_of_reentry hsplits (hproducer ▸ hmem) ?_ hoffset
    rw [reentryProducer_eq, hsame, hproducer, hturn]
  · intro header hproducer hstart hend hok
    have hreentry := reentry_of_stale hsplits (hproducer ▸ hmem) hok
    rw [reentryProducer_eq, hproducer] at hreentry
    exact honly _ ⟨⟨hstart, hend⟩, hreentry⟩

theorem bootstrapOfThree_splits : SplitsProducers bootstrapOfThree where
  live_ne_nil := by decide
  stale_nodup := by decide
  stale_not_live := by decide
  stale_known := by decide

theorem stale_third_returns :
    ∃ slot, (100 ≤ slot ∧ slot < 150) ∧
      (∀ header : BlockHeader, header.producer = ⟨2⟩ → header.slot.toNat = slot →
        slotOffset bootstrapOfThree header < 2 →
          validateBootstrapProducer bootstrapOfThree header = .ok ()) ∧
      ∀ header : BlockHeader, header.producer = ⟨2⟩ → 100 ≤ header.slot.toNat →
        header.slot.toNat < 150 →
          validateBootstrapProducer bootstrapOfThree header = .ok () → header.slot.toNat = slot :=
  stale_returns_once bootstrapOfThree_splits
    (show 0 < bootstrapOfThree.staleBootstrapProducers.length by decide) (by decide) 100

/-- Behind the first ten nobody comes back. -/
theorem stale_waits (hsplits : SplitsProducers ctx) {index : Nat}
    (hindex : index < ctx.staleBootstrapProducers.length) (hcap : 10 ≤ index)
    (hproducer : header.producer = ctx.staleBootstrapProducers[index]) :
    validateBootstrapProducer ctx header ≠ .ok () := by
  intro hok
  have hmem := List.getElem_mem hindex
  have hreentry := reentry_of_stale hsplits (hproducer ▸ hmem) hok
  rw [reentryProducer_eq, hproducer] at hreentry
  obtain ⟨earlier, hearlier, hkey⟩ := List.mem_take_iff_getElem.mp (spacedTurn_mem_take hreentry)
  have hsame := hsplits.stale_nodup.getElem_inj_iff.mp hkey
  have hten : reentryInterval / 5 = 10 := rfl
  omega

end

end Doli.Validation
