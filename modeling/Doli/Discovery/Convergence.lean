import Doli.Discovery.GSet

/-!
# Convergence of the discovery gossip

A merge absorbs what it has heard of a batch.  Sets that have heard the same announcements
are the same unless a producer signed two announcements with one sequence, or a batch was
given up.
-/

namespace Doli.Discovery

open Doli.Core Doli.Lib

namespace ProducerGSet

variable {env : GossipEnv} {gset : ProducerGSet} {announcement : ProducerAnnouncement}
  {announcements : List ProducerAnnouncement}

/-- A newer announcement than the stored one. -/
abbrev News (gset : ProducerGSet) (announcement : ProducerAnnouncement) : Prop :=
  Newer ProducerAnnouncement.pubkey ProducerAnnouncement.sequence gset.registers announcement

theorem accepts_iff :
    gset.accepts env announcement = true ↔ gset.checkAnnouncement env announcement = .ok () := by
  unfold accepts
  cases gset.checkAnnouncement env announcement with
  | error error => simp [Except.toBool]
  | ok value => simp [Except.toBool]

theorem mergeOne_refused (hrefused : gset.accepts env announcement = false) :
    ∃ error, gset.mergeOne env announcement = (gset, .error error) := by
  unfold accepts at hrefused
  unfold mergeOne
  cases hcheck : gset.checkAnnouncement env announcement with
  | error error => exact ⟨error, rfl⟩
  | ok value =>
      rw [hcheck] at hrefused
      contradiction

theorem absorbed_of_news (hnews : gset.News announcement) :
    gset.absorbed [announcement] = gset.record announcement := by
  have hafter : gset.registersAfter [announcement] = (gset.record announcement).registers :=
    if_pos hnews
  rw [absorbed, hafter]
  rfl

theorem absorbed_of_old (hold : ¬ gset.News announcement) :
    gset.absorbed [announcement] = gset := by
  have hafter : gset.registersAfter [announcement] = gset.registers := if_neg hold
  rw [absorbed, hafter]
  rfl

theorem mergeOne_accepted (haccepted : gset.accepts env announcement = true) :
    ∃ outcome, gset.mergeOne env announcement = (gset.absorbed [announcement], .ok outcome) := by
  unfold mergeOne
  rw [accepts_iff.mp haccepted]
  dsimp only
  cases hstored : gset.sequences.lookup announcement.pubkey with
  | none =>
      have hnews : gset.News announcement := by
        intro version hversion
        simp [registers, hstored] at hversion
      exact ⟨.newProducer, by rw [absorbed_of_news hnews]⟩
  | some currentSequence =>
      have hiff : gset.News announcement ↔ currentSequence < announcement.sequence := by
        simp [News, Newer, registers, hstored]
      dsimp only
      split
      case isTrue hle =>
        have hold : ¬ gset.News announcement := by
          rw [hiff]
          exact Nat.not_lt.mpr hle
        exact ⟨.duplicate, by rw [absorbed_of_old hold]⟩
      case isFalse hlt =>
        have hnews : gset.News announcement := hiff.mpr (Nat.lt_of_not_le hlt)
        exact ⟨.sequenceUpdate, by rw [absorbed_of_news hnews]⟩

theorem absorbed_append (first second : List ProducerAnnouncement) :
    (gset.absorbed first).absorbed second = gset.absorbed (first ++ second) := by
  have hafter : gset.registersAfter (first ++ second) =
      (gset.absorbed first).registersAfter second :=
    List.foldl_append
  change (gset.absorbed first).withRegisters ((gset.absorbed first).registersAfter second) = _
  rw [← hafter]
  rfl

theorem accepts_absorbed : (gset.absorbed announcements).accepts env = gset.accepts env := rfl

theorem mergeFrom_fst (totalCount : Nat) (result : MergeResult) (refused : Nat) :
    (mergeFrom env totalCount announcements gset result refused).1 =
      gset.absorbed (heard (gset.accepts env) maxRejections refused announcements) := by
  induction announcements generalizing gset result refused with
  | nil => rfl
  | cons announcement announcements ih =>
      unfold mergeFrom heard
      by_cases haccepted : gset.accepts env announcement = true
      · obtain ⟨outcome, hmerged⟩ := mergeOne_accepted haccepted
        have hrest : ∀ next, (mergeFrom env totalCount announcements
            (gset.absorbed [announcement]) next 0).1 = gset.absorbed
              (announcement :: heard (gset.accepts env) maxRejections 0 announcements) := by
          intro next
          rw [ih, absorbed_append, accepts_absorbed]
          rfl
        rw [hmerged, if_pos haccepted]
        cases outcome with
        | newProducer => exact hrest _
        | sequenceUpdate => exact hrest _
        | duplicate => exact hrest _
      · obtain ⟨error, hmerged⟩ := mergeOne_refused (Bool.eq_false_iff.mpr haccepted)
        rw [hmerged, if_neg haccepted]
        dsimp only
        split
        · rfl
        · exact ih _ _

theorem mergeBatches_eq (batches : List (List ProducerAnnouncement)) :
    gset.mergeBatches env batches = gset.absorbed (batches.flatMap (gset.heardOf env)) := by
  induction batches generalizing gset with
  | nil => rfl
  | cons batch batches ih =>
      have hbatch : (gset.merge env batch).1 = gset.absorbed (gset.heardOf env batch) :=
        mergeFrom_fst _ _ _
      change mergeBatches env (gset.merge env batch).1 batches = _
      rw [hbatch, ih, absorbed_append]
      rfl

/-! ## Convergence -/

/-- No producer signed two acceptable announcements with one sequence that is the highest
and newer than the stored one. -/
def Unequivocal (env : GossipEnv) (gset : ProducerGSet)
    (announcements : List ProducerAnnouncement) : Prop :=
  Untied ProducerAnnouncement.pubkey ProducerAnnouncement.sequence gset.registers
    (announcements.filter (gset.accepts env))

/-- A batch of these announcements cannot be given up, or there is no news in them. -/
def Undisturbed (env : GossipEnv) (gset : ProducerGSet)
    (announcements : List ProducerAnnouncement) : Prop :=
  announcements.countP (fun announcement => !gset.accepts env announcement) < maxRejections ∨
    ∀ announcement ∈ announcements, gset.accepts env announcement = true →
      ¬ gset.News announcement

theorem heardOf_subset (batches : List (List ProducerAnnouncement)) :
    batches.flatMap (gset.heardOf env) ⊆ batches.flatten.filter (gset.accepts env) := by
  intro announcement hheard
  obtain ⟨batch, hbatch, hmem⟩ := List.mem_flatMap.mp hheard
  obtain ⟨hread, haccepted⟩ := List.mem_filter.mp (heard_subset hmem)
  exact List.mem_filter.mpr ⟨List.mem_flatten.mpr ⟨batch, hbatch, hread⟩, haccepted⟩

theorem heardOf_all {batches : List (List ProducerAnnouncement)}
    (hfew : batches.flatten.countP (fun announcement => !gset.accepts env announcement) <
      maxRejections) :
    batches.flatMap (gset.heardOf env) = batches.flatten.filter (gset.accepts env) := by
  induction batches with
  | nil => rfl
  | cons batch batches ih =>
      rw [List.flatten_cons, List.countP_append] at hfew
      have hbatch : gset.heardOf env batch = batch.filter (gset.accepts env) :=
        heard_eq_filter (by omega)
      rw [List.flatMap_cons, List.flatten_cons, List.filter_append, hbatch, ih (by omega)]

theorem absorbed_inj {first second : List ProducerAnnouncement} :
    gset.absorbed first = gset.absorbed second ↔
      gset.registersAfter first = gset.registersAfter second := by
  constructor
  · exact fun hsame => congrArg registers hsame
  · exact fun hsame => congrArg gset.withRegisters hsame

theorem mergeBatches_converge {batches : List (List ProducerAnnouncement)}
    (hsame : batches.flatten.Perm announcements)
    (hunequivocal : Unequivocal env gset announcements)
    (hundisturbed : Undisturbed env gset announcements) :
    gset.mergeBatches env batches = gset.absorbed (announcements.filter (gset.accepts env)) := by
  rw [mergeBatches_eq, absorbed_inj]
  rcases hundisturbed with hfew | hnone
  · rw [heardOf_all (by rwa [hsame.countP_eq])]
    have hperm := hsame.filter (gset.accepts env)
    exact (absorbAll_eq hunequivocal fun announcement => hperm.mem_iff.symm).symm
  · have hold : ∀ announcement ∈ announcements.filter (gset.accepts env),
        ¬ gset.News announcement := by
      intro announcement hmem
      obtain ⟨hread, haccepted⟩ := List.mem_filter.mp hmem
      exact hnone announcement hread haccepted
    have hheard : ∀ announcement ∈ batches.flatMap (gset.heardOf env),
        ¬ gset.News announcement := by
      intro announcement hmem
      exact hold announcement
        ((hsame.filter (gset.accepts env)).mem_iff.mp (heardOf_subset batches hmem))
    exact (absorbAll_eq_self hheard).trans (absorbAll_eq_self hold).symm

theorem singletons_flatten (announcements : List ProducerAnnouncement) :
    (announcements.map fun announcement => [announcement]).flatten = announcements := by
  rw [← List.flatMap_def, List.flatMap_singleton']

theorem mergeBatches_singletons :
    gset.mergeBatches env (announcements.map fun announcement => [announcement]) =
      gset.absorbed (announcements.filter (gset.accepts env)) := by
  rw [mergeBatches_eq]
  congr 1
  induction announcements with
  | nil => rfl
  | cons announcement announcements ih =>
      rw [List.map_cons, List.flatMap_cons, ih]
      by_cases haccepted : gset.accepts env announcement = true
      · simp [heardOf, heard, haccepted]
      · simp [heardOf, heard, haccepted]

/-- Every two deliveries of the announcements agree if and only if the announcements are
unequivocal and undisturbed. -/
theorem gossip_converges_iff (env : GossipEnv) (gset : ProducerGSet)
    (announcements : List ProducerAnnouncement) :
    (∀ first second : List (List ProducerAnnouncement),
        first.flatten.Perm announcements → second.flatten.Perm announcements →
          gset.mergeBatches env first = gset.mergeBatches env second) ↔
      Unequivocal env gset announcements ∧ Undisturbed env gset announcements := by
  constructor
  · intro hconverge
    constructor
    · intro place first second hfirst hsecond
      -- each of the two comes first once, one announcement at a time
      have hkept : ∀ announcement, Freshest ProducerAnnouncement.pubkey
          ProducerAnnouncement.sequence gset.registers
            (announcements.filter (gset.accepts env)) place announcement →
          ∃ batches, batches.flatten.Perm announcements ∧
            (gset.mergeBatches env batches).producers.lookup place = some announcement := by
        intro announcement hfresh
        obtain ⟨hread, haccepted⟩ := List.mem_filter.mp hfresh.mem
        refine ⟨(announcement :: announcements.erase announcement).map fun each => [each], ?_, ?_⟩
        · rw [singletons_flatten]
          exact (List.perm_cons_erase hread).symm
        · rw [mergeBatches_singletons, List.filter_cons_of_pos haccepted]
          refine hfresh.kept_first fun other hother => ?_
          obtain ⟨hother, hmet⟩ := List.mem_filter.mp hother
          exact List.mem_filter.mpr ⟨List.mem_of_mem_erase hother, hmet⟩
      obtain ⟨batches, hbatches, hfound⟩ := hkept first hfirst
      obtain ⟨others, hothers, hother⟩ := hkept second hsecond
      rw [hconverge batches others hbatches hothers, hother] at hfound
      exact (Option.some.inj hfound).symm
    · by_contra hdisturbed
      unfold Undisturbed at hdisturbed
      push Not at hdisturbed
      obtain ⟨hmany, announcement, hread, haccepted, hnews⟩ := hdisturbed
      -- the refused ones in front of the others in one batch, or one at a time
      have hperm : (announcements.filter (fun each => !gset.accepts env each) ++
          announcements.filter (gset.accepts env)).Perm announcements :=
        List.perm_append_comm.trans (List.filter_append_perm (gset.accepts env) announcements)
      have hsame := hconverge [announcements.filter (fun each => !gset.accepts env each) ++
        announcements.filter (gset.accepts env)] (announcements.map fun each => [each])
          (by simpa using hperm) (by rw [singletons_flatten])
      rw [List.countP_eq_length_filter] at hmany
      have hsilent : gset.heardOf env (announcements.filter (fun each => !gset.accepts env each) ++
          announcements.filter (gset.accepts env)) = [] := by
        apply heard_eq_nil
        · intro each hmem
          simpa using (List.mem_filter.mp hmem).2
        · omega
        · intro hnone
          rw [hnone] at hmany
          simp [maxRejections] at hmany
      rw [mergeBatches_singletons, mergeBatches_eq, List.flatMap_singleton, hsilent,
        absorbed_inj] at hsame
      exact absorbAll_ne_self (List.mem_filter.mpr ⟨hread, haccepted⟩) hnews hsame.symm
  · rintro ⟨hunequivocal, hundisturbed⟩ first second hfirst hsecond
    rw [mergeBatches_converge hfirst hunequivocal hundisturbed,
      mergeBatches_converge hsecond hunequivocal hundisturbed]

/-! ## Two announcements of one sequence -/

/-- Every signature but the zero one verifies. -/
def sampleEnv : GossipEnv where
  verifyWithDomain _ _ signature _ := signature.word ≠ 0
  now := 10000

def sampleAnnouncement (timestamp signature : Nat) : ProducerAnnouncement where
  pubkey := ⟨5⟩
  networkId := 1
  genesisHash := ⟨7⟩
  sequence := 3
  timestamp := timestamp
  signature := ⟨BitVec.ofNat 512 signature⟩

/-- Both are validly signed, and whichever comes first is kept. -/
theorem equal_sequences_diverge :
    (sampleAnnouncement 9000 1).verify sampleEnv = true ∧
      (sampleAnnouncement 9500 2).verify sampleEnv = true ∧
      [sampleAnnouncement 9000 1, sampleAnnouncement 9500 2].Perm
        [sampleAnnouncement 9500 2, sampleAnnouncement 9000 1] ∧
      (((new 1 ⟨7⟩).mergeBatches sampleEnv
          [[sampleAnnouncement 9000 1, sampleAnnouncement 9500 2]]).producers.lookup ⟨5⟩ =
        some (sampleAnnouncement 9000 1)) ∧
      (((new 1 ⟨7⟩).mergeBatches sampleEnv
          [[sampleAnnouncement 9500 2, sampleAnnouncement 9000 1]]).producers.lookup ⟨5⟩ =
        some (sampleAnnouncement 9500 2)) ∧
      sampleAnnouncement 9000 1 ≠ sampleAnnouncement 9500 2 :=
  ⟨by decide +kernel, by decide +kernel, List.Perm.swap _ _ _, by decide +kernel,
    by decide +kernel, by decide +kernel⟩

end ProducerGSet

end Doli.Discovery
