import Doli.Producer.Set
import Doli.Validation.Prepass
import Doli.Validation.SlashBudget

/-!
# The state of the accused

`slash_targets` reads the state of the accused for a list of transactions: the builder asks
for its whole mempool, the validator for the block.  At most eight accused get their owner
looked up, so the builder may know less than the validator; what it then knows about an
accused is refused by the window of the evidence.
-/

namespace Doli.Node

open Doli.Core Doli.Lib Doli.Producer Doli.Storage
open Doli.Validation (ValidationContext SlashTargetState isSlash slashRegistrant
  decodeSlashData accusedKeys bondOwner validateSlash validateSlashTarget validateSlashWindow)

/-! ## The state of the accused -/

/-- Stamped when the Bond enters the set. -/
def bondCreationSlot (output : Output) : Option Nat :=
  if output.outputType = .bond ∧ output.extraData.length = 4 then some (leNat output.extraData)
  else none

def targetState (prim : Primitives) (producers : ProducerSet) (key : PublicKey) :
    Option SlashTargetState :=
  (producers.getByPubkey prim key).map fun info =>
    { active := info.isActive
      slashed := info.isSlashed
      slashQueued := producers.pendingUpdates.any fun update =>
        match update with
        | .slash pubkey _ => pubkey = key
        | _ => false
      lockedCollateral := false
      registeredAt := info.registeredAt
      oldestBondSlot := none }

/-- One row of the owner of the accused's Bonds. -/
def addCollateral (height : Nat) (state : SlashTargetState) (row : Outpoint × UtxoEntry) :
    SlashTargetState :=
  let output := row.2.output
  { state with
    lockedCollateral := state.lockedCollateral ||
      (output.outputType = .unbonding && isSlashBurnable output height)
    oldestBondSlot :=
      match bondCreationSlot output with
      | some slot => some (state.oldestBondSlot.elim slot fun oldest => min oldest slot)
      | none => state.oldestBondSlot }

section

variable (ctx : ValidationContext) (producers : ProducerSet) (db : StateDb)

def withCollateral (key : PublicKey) (state : SlashTargetState) : SlashTargetState :=
  (db.getUtxosByPubkey (bondOwner ctx key)).foldl (addCollateral ctx.currentHeight) state

/-- `slash_data`, without a bound on the length. -/
def slashAccused (tx : Transaction) : Option PublicKey :=
  if tx.txType = .slashProducer then
    (ctx.crypto.decodeSlash tx.extraData).map Validation.SlashData.producerPubkey
  else none

/-- The states of the registered accused, with the lookups made so far. -/
def accusedTargets : Nat → List PublicKey → List (PublicKey × SlashTargetState)
  | _, [] => []
  | lookups, key :: keys =>
      match targetState ctx.crypto.primitives producers key with
      | none => accusedTargets lookups keys
      | some state =>
          if lookups < Core.maxSlashTxsPerBlock then
            (key, withCollateral ctx db key state) :: accusedTargets (lookups + 1) keys
          else (key, state) :: accusedTargets lookups keys

/-- The keys of the registrants that are not named yet; no row is read for them. -/
def registrantTargets : List PublicKey → List PublicKey → List (PublicKey × SlashTargetState)
  | _, [] => []
  | named, key :: keys =>
      if key ∈ named then registrantTargets named keys
      else
        ((targetState ctx.crypto.primitives producers key).map fun state =>
          (key, state)).toList ++ registrantTargets (key :: named) keys

def slashTargets (txs : List Transaction) : List (PublicKey × SlashTargetState) :=
  let accused := accusedTargets ctx producers db 0 (txs.filterMap (slashAccused ctx))
  accused ++ registrantTargets ctx producers (accused.map Prod.fst)
    (txs.filterMap (slashRegistrant ctx))

def slashFacts (txs : List Transaction) : List (PublicKey × SlashTargetState) :=
  if ctx.currentHeight < ctx.incI255SlashingActivationHeight then []
  else slashTargets ctx producers db txs

/-- The map collected from the rows keeps the last row of a key. -/
def lastTarget (rows : List (PublicKey × SlashTargetState)) (key : PublicKey) :
    Option SlashTargetState :=
  (rows.reverse.find? fun row => row.1 = key).map Prod.snd

/-- The context that judges `txs`. -/
def judging (txs : List Transaction) : ValidationContext :=
  { ctx with slashTargets := lastTarget (slashFacts ctx producers db txs) }

end

/-! ## What the rows say -/

section

variable {ctx : ValidationContext} {producers : ProducerSet} {db : StateDb}

theorem lastTarget_of_forall {rows : List (PublicKey × SlashTargetState)} {key : PublicKey}
    {state : SlashTargetState} (hmem : ∃ found, (key, found) ∈ rows)
    (hall : ∀ found, (key, found) ∈ rows → found = state) :
    lastTarget rows key = some state := by
  obtain ⟨found, hfound⟩ := hmem
  unfold lastTarget
  cases hfind : rows.reverse.find? fun row => decide (row.1 = key) with
  | none =>
      have hnone := List.find?_eq_none.mp hfind (key, found) (List.mem_reverse.mpr hfound)
      simp at hnone
  | some row =>
      have hrow : row ∈ rows := List.mem_reverse.mp (List.mem_of_find?_eq_some hfind)
      have hkey : row.1 = key := by simpa using List.find?_some hfind
      rw [Option.map_some, hall row.2 (hkey ▸ hrow)]

theorem mem_of_lastTarget {rows : List (PublicKey × SlashTargetState)} {key : PublicKey}
    {state : SlashTargetState} (hlast : lastTarget rows key = some state) :
    (key, state) ∈ rows := by
  obtain ⟨row, hfind, hstate⟩ := Option.map_eq_some_iff.mp hlast
  have hrow : row ∈ rows := List.mem_reverse.mp (List.mem_of_find?_eq_some hfind)
  have hkey : row.1 = key := by simpa using List.find?_some hfind
  rwa [← hkey, ← hstate]

theorem mem_accusedTargets {lookups : Nat} {keys : List PublicKey} {key : PublicKey}
    {state : SlashTargetState}
    (hmem : (key, state) ∈ accusedTargets ctx producers db lookups keys) :
    ∃ bare, targetState ctx.crypto.primitives producers key = some bare ∧
      (state = bare ∨ state = withCollateral ctx db key bare) := by
  induction keys generalizing lookups with
  | nil => simp [accusedTargets] at hmem
  | cons first keys ih =>
      unfold accusedTargets at hmem
      cases htarget : targetState ctx.crypto.primitives producers first with
      | none =>
          rw [htarget] at hmem
          exact ih hmem
      | some bare =>
          rw [htarget] at hmem
          dsimp only at hmem
          split at hmem
          · rcases List.mem_cons.mp hmem with heq | hrest
            · obtain ⟨rfl, rfl⟩ := Prod.mk.inj heq
              exact ⟨bare, htarget, .inr rfl⟩
            · exact ih hrest
          · rcases List.mem_cons.mp hmem with heq | hrest
            · obtain ⟨rfl, rfl⟩ := Prod.mk.inj heq
              exact ⟨_, htarget, .inl rfl⟩
            · exact ih hrest

theorem accusedTargets_looked {lookups : Nat} {keys : List PublicKey}
    (hroom : lookups + keys.length ≤ Core.maxSlashTxsPerBlock) {key : PublicKey}
    {state : SlashTargetState} :
    (key, state) ∈ accusedTargets ctx producers db lookups keys ↔
      key ∈ keys ∧ ∃ bare, targetState ctx.crypto.primitives producers key = some bare ∧
        state = withCollateral ctx db key bare := by
  induction keys generalizing lookups with
  | nil => simp [accusedTargets]
  | cons first keys ih =>
      rw [List.length_cons] at hroom
      unfold accusedTargets
      cases htarget : targetState ctx.crypto.primitives producers first with
      | none =>
          dsimp only
          rw [ih (by omega), List.mem_cons]
          constructor
          · rintro ⟨hmem, hknown⟩
            exact ⟨.inr hmem, hknown⟩
          · rintro ⟨heq | hmem, bare, hbare, hstate⟩
            · rw [heq, htarget] at hbare
              cases hbare
            · exact ⟨hmem, bare, hbare, hstate⟩
      | some bare =>
          dsimp only
          rw [if_pos (by omega), List.mem_cons, ih (by omega), List.mem_cons, Prod.mk.injEq]
          constructor
          · rintro (⟨rfl, rfl⟩ | ⟨hmem, hknown⟩)
            · exact ⟨.inl rfl, bare, htarget, rfl⟩
            · exact ⟨.inr hmem, hknown⟩
          · rintro ⟨heq | hmem, other, hother, hstate⟩
            · subst heq
              rw [htarget] at hother
              obtain rfl := Option.some.inj hother
              exact .inl ⟨rfl, hstate⟩
            · exact .inr ⟨hmem, other, hother, hstate⟩

theorem mem_registrantTargets {named keys : List PublicKey} {key : PublicKey}
    {state : SlashTargetState}
    (hmem : (key, state) ∈ registrantTargets ctx producers named keys) :
    key ∉ named ∧ targetState ctx.crypto.primitives producers key = some state := by
  induction keys generalizing named with
  | nil => simp [registrantTargets] at hmem
  | cons first keys ih =>
      unfold registrantTargets at hmem
      split at hmem
      case isTrue => exact ih hmem
      case isFalse hnew =>
          rcases List.mem_append.mp hmem with hhead | hrest
          · obtain ⟨found, hfound, heq⟩ :=
              Option.map_eq_some_iff.mp (Option.mem_toList.mp hhead)
            obtain ⟨rfl, rfl⟩ := Prod.mk.inj heq
            exact ⟨hnew, hfound⟩
          · obtain ⟨hnamed, htarget⟩ := ih hrest
            exact ⟨fun hold => hnamed (List.mem_cons_of_mem _ hold), htarget⟩

theorem judging_slashTargets (txs : List Transaction)
    (hactive : ctx.slashRuleActive = true) :
    (judging ctx producers db txs).slashTargets =
      lastTarget (slashTargets ctx producers db txs) := by
  have hgate : ctx.incI255SlashingActivationHeight ≤ ctx.currentHeight := by
    unfold ValidationContext.slashRuleActive at hactive
    rw [Bool.and_eq_true] at hactive
    exact of_decide_eq_true hactive.2
  unfold judging slashFacts
  rw [if_neg (by omega)]

theorem judging_known {txs : List Transaction} {key : PublicKey} {state : SlashTargetState}
    (hactive : ctx.slashRuleActive = true)
    (hstate : (judging ctx producers db txs).slashTargets key = some state) :
    ∃ bare, targetState ctx.crypto.primitives producers key = some bare ∧
      (state = bare ∨ state = withCollateral ctx db key bare) := by
  rw [judging_slashTargets txs hactive] at hstate
  rcases List.mem_append.mp (mem_of_lastTarget hstate) with haccused | hregistrant
  · exact mem_accusedTargets haccused
  · exact ⟨state, (mem_registrantTargets hregistrant).2, .inl rfl⟩

theorem judging_looked {txs : List Transaction} {key : PublicKey} {bare : SlashTargetState}
    (hactive : ctx.slashRuleActive = true)
    (hroom : (txs.filterMap (slashAccused ctx)).length ≤ Core.maxSlashTxsPerBlock)
    (hkey : key ∈ txs.filterMap (slashAccused ctx))
    (htarget : targetState ctx.crypto.primitives producers key = some bare) :
    (judging ctx producers db txs).slashTargets key = some (withCollateral ctx db key bare) := by
  have hlooked : ∀ state, (key, state) ∈ accusedTargets ctx producers db 0
      (txs.filterMap (slashAccused ctx)) ↔ state = withCollateral ctx db key bare := by
    intro state
    rw [accusedTargets_looked (by omega), htarget]
    simp only [hkey, Option.some.injEq, exists_eq_left', true_and]
  rw [judging_slashTargets txs hactive]
  have hmem := (hlooked _).mpr rfl
  apply lastTarget_of_forall ⟨_, List.mem_append_left _ hmem⟩
  intro state hstate
  rcases List.mem_append.mp hstate with haccused | hregistrant
  · exact (hlooked state).mp haccused
  · have hnamed := (mem_registrantTargets hregistrant).1
    exact absurd (List.mem_map_of_mem hmem) hnamed

end

/-! ## The builder and the validator judge alike -/

/-- Two contexts of one node for one block, in what the slash rules read. -/
structure SameSlashRules (first second : ValidationContext) : Prop where
  crypto : first.crypto = second.crypto
  genesisHash : first.params.genesisHash = second.params.genesisHash
  height : first.currentHeight = second.currentHeight
  prevSlot : first.prevSlot = second.prevSlot
  signatureGate : first.incI236BlockSignatureActivationHeight =
    second.incI236BlockSignatureActivationHeight
  slashingGate : first.incI255SlashingActivationHeight =
    second.incI255SlashingActivationHeight
  oracleGate : first.oracleActivationHeight = second.oracleActivationHeight
  unbondingPeriod : first.unbondingPeriod = second.unbondingPeriod

section

variable {first second : ValidationContext}

theorem SameSlashRules.refl (ctx : ValidationContext) : SameSlashRules ctx ctx :=
  ⟨rfl, rfl, rfl, rfl, rfl, rfl, rfl, rfl⟩

theorem SameSlashRules.judging (hsame : SameSlashRules first second) {producers : ProducerSet}
    {db : StateDb} {txs others : List Transaction} :
    SameSlashRules (judging first producers db txs) (judging second producers db others) :=
  ⟨hsame.crypto, hsame.genesisHash, hsame.height, hsame.prevSlot, hsame.signatureGate,
    hsame.slashingGate, hsame.oracleGate, hsame.unbondingPeriod⟩

theorem SameSlashRules.signatureRuleActive (hsame : SameSlashRules first second) :
    first.signatureRuleActive = second.signatureRuleActive := by
  unfold ValidationContext.signatureRuleActive
  rw [hsame.height, hsame.signatureGate]

theorem SameSlashRules.slashRuleActive (hsame : SameSlashRules first second) :
    first.slashRuleActive = second.slashRuleActive := by
  unfold ValidationContext.slashRuleActive
  rw [hsame.signatureRuleActive, hsame.height, hsame.slashingGate]

theorem SameSlashRules.decodeSlashData (hsame : SameSlashRules first second) (bytes : Bytes) :
    decodeSlashData first bytes = decodeSlashData second bytes := by
  unfold Validation.decodeSlashData
  rw [hsame.signatureRuleActive, hsame.crypto]

theorem SameSlashRules.accusedKeys (hsame : SameSlashRules first second)
    (txs : List Transaction) : accusedKeys first txs = accusedKeys second txs := by
  unfold Validation.accusedKeys
  simp only [hsame.decodeSlashData]

theorem SameSlashRules.slashAccused (hsame : SameSlashRules first second) (tx : Transaction) :
    slashAccused first tx = slashAccused second tx := by
  unfold Node.slashAccused
  rw [hsame.crypto]

theorem SameSlashRules.slashRegistrant (hsame : SameSlashRules first second)
    (tx : Transaction) : slashRegistrant first tx = slashRegistrant second tx := by
  unfold Validation.slashRegistrant
  rw [hsame.crypto]

theorem SameSlashRules.checkEvidence (hsame : SameSlashRules first second)
    (data : Validation.SlashData) :
    Validation.checkEvidence first data false = Validation.checkEvidence second data false := by
  unfold Validation.checkEvidence
  cases data.evidence with
  | doubleProduction header other =>
      simp only [Validation.validateDoubleProduction, Validation.checkDoubleProduction,
        Validation.checkHeaderOrigin, hsame.slashRuleActive, hsame.signatureRuleActive,
        hsame.crypto, hsame.genesisHash, checkWhen, Bool.false_eq_true, if_false]
  | priceAttestationEquivocation header other =>
      simp only [Validation.validatePriceEquivocation, hsame.crypto, hsame.height,
        hsame.oracleGate]

theorem SameSlashRules.validateSlash (hsame : SameSlashRules first second)
    (tx : Transaction) : validateSlash first tx false = validateSlash second tx false := by
  unfold Validation.validateSlash Validation.checkCanonical
  simp only [hsame.decodeSlashData, hsame.slashRuleActive, hsame.checkEvidence, hsame.crypto]

theorem SameSlashRules.withCollateral (hsame : SameSlashRules first second) (db : StateDb)
    (key : PublicKey) (state : SlashTargetState) :
    withCollateral first db key state = withCollateral second db key state := by
  unfold Node.withCollateral Validation.bondOwner
  rw [hsame.crypto, hsame.height]

theorem SameSlashRules.validateSlashWindow (hsame : SameSlashRules first second)
    (evidence : Validation.SlashingEvidence) (state : SlashTargetState) :
    validateSlashWindow first evidence state = validateSlashWindow second evidence state := by
  unfold Validation.validateSlashWindow
  simp only [hsame.prevSlot, hsame.unbondingPeriod, hsame.slashingGate, hsame.height]

end

section

variable {ctx : ValidationContext} {tx : Transaction}

theorem validateSlashTarget_inactive (hinactive : ctx.slashRuleActive = false) :
    validateSlashTarget ctx tx = .ok () := by
  unfold Validation.validateSlashTarget
  rw [if_pos (.inr hinactive)]

theorem validateSlashTarget_other (htype : isSlash tx = false) :
    validateSlashTarget ctx tx = .ok () := by
  unfold Validation.validateSlashTarget
  rw [if_pos (.inl (of_decide_eq_false htype))]

/-- A judged slash: its evidence, and the state of its accused. -/
structure Judged (ctx : ValidationContext) (tx : Transaction) (data : Validation.SlashData)
    (state : SlashTargetState) : Prop where
  evidence : validateSlash ctx tx false = .ok data
  registered : ctx.slashTargets data.producerPubkey = some state
  notSlashed : state.slashed = false
  notQueued : state.slashQueued = false
  bonded : ¬(state.active = false ∧ state.lockedCollateral = false)
  window : validateSlashWindow ctx data.evidence state = .ok ()

theorem validateSlashTarget_eq_ok (hactive : ctx.slashRuleActive = true)
    (htype : isSlash tx = true) :
    validateSlashTarget ctx tx = .ok () ↔ ∃ data state, Judged ctx tx data state := by
  have htype : tx.txType = .slashProducer := of_decide_eq_true htype
  unfold Validation.validateSlashTarget
  rw [if_neg (by simp [htype, hactive])]
  simp only [bind_eq_ok, exists_unit, refuseIf_eq_ok, orRefuse_eq_ok, Bool.not_eq_true]
  constructor
  · rintro ⟨data, hevidence, state, hstate, hslashed, hqueued, hbonded, hwindow⟩
    exact ⟨data, state, hevidence, hstate, hslashed, hqueued, hbonded, hwindow⟩
  · rintro ⟨data, state, hjudged⟩
    exact ⟨data, hjudged.evidence, state, hjudged.registered, hjudged.notSlashed,
      hjudged.notQueued, hjudged.bonded, hjudged.window⟩

/-- Under the rule the evidence is a double production, whose window refuses an accused
without collateral. -/
theorem Judged.collateral {data : Validation.SlashData} {state : SlashTargetState}
    (hactive : ctx.slashRuleActive = true) (hjudged : Judged ctx tx data state) :
    state.lockedCollateral = true ∨ state.oldestBondSlot.isSome := by
  have hslash := (Validation.validateSlash_eq_ok.mp hjudged.evidence).2.2.2.2.1
  rw [checkWhen_eq_ok] at hslash
  have hkind := hslash hactive
  simp only [Validation.checkCanonical, seq_eq_ok, refuseIf_eq_ok, Bool.not_eq_false] at hkind
  have hwindow := hjudged.window
  cases hevidence : data.evidence with
  | priceAttestationEquivocation first second =>
      simp [hevidence, Validation.SlashingEvidence.isDoubleProduction] at hkind
  | doubleProduction first second =>
      rw [hevidence] at hwindow
      simp only [Validation.validateSlashWindow, seq_eq_ok, refuseIf_eq_ok] at hwindow
      cases hlocked : state.lockedCollateral with
      | true => exact .inl rfl
      | false =>
          cases holdest : state.oldestBondSlot with
          | some slot => exact .inr rfl
          | none => simp [hlocked, holdest] at hwindow

end

end Doli.Node
