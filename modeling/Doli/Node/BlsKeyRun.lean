import Doli.Node.NodeState
import Doli.Producer.BlsKeys
import Doli.Validation.TransactionRules

/-!
# BLS keys over a run

Registrations and rotations bring keys in, each admitted by its own rules; a flush
hands them to the producers.  A rotation looks at every key held or queued.  A
registration looks at none: the keys stay unique exactly when every registered key has
no other holder.
-/

namespace Doli.Node

open Doli.Core Doli.Lib Doli.Producer Doli.Producer.ProducerSet
open Doli.Validation (Crypto ValidationContext)

/-- Whether the VDF is verified is left to the mode of the block. -/
inductive KeyMove where
  | registration (ctx : ValidationContext) (slot : Nat) (mode : ValidationMode)
      (skipVdf : Bool) (tx : Transaction)
  | rotation (ctx : ValidationContext) (slot : Nat) (mode : ValidationMode)
      (tx : Transaction)
  | flush (cap : Nat)

/-- The block an admitted transaction stands in. -/
def effectContext (ctx : ValidationContext) (slot : Nat) (mode : ValidationMode) :
    BlockContext :=
  { utxo := ctx.utxo, height := ctx.currentHeight, slot := slot, mode := mode }

/-- A refused transaction ends the run; what the context shows of the set is free. -/
def keyStep (crypto : Crypto) (set : ProducerSet) :
    KeyMove → Except Validation.ValidationError ProducerSet
  | .registration ctx slot mode skipVdf tx =>
      let ctx := { ctx with crypto := crypto }
      match Validation.validateRegistrationDataInner ctx tx skipVdf with
      | .error error => .error error
      | .ok () =>
          .ok (registrationEffect (effectContext ctx slot mode) tx (.initial set)).producers
  | .rotation ctx slot mode tx =>
      let ctx := { ctx with crypto := crypto }
      match Validation.rotateStateless ctx tx with
      | .error error => .error error
      | .ok _ => .ok (rotateEffect (effectContext ctx slot mode) tx (.initial set)).producers
  | .flush cap => .ok (set.applyPendingUpdatesWithCap crypto.primitives cap)

/-- The lists that a context takes from the producer set. -/
def NodeConfig.showing (config : NodeConfig) (set : ProducerSet)
    (ctx : ValidationContext) : ValidationContext :=
  { ctx with
    activeProducers := config.activeKeys set ctx.currentHeight
    pendingProducerKeys := set.pendingRegistrationKeys }

/-- Outside genesis, the key of a registration has no other holder. -/
def KeyMove.Fresh (crypto : Crypto) (set : ProducerSet) : KeyMove → Prop
  | .registration ctx _ _ _ tx =>
      ctx.network.params.isInGenesis ctx.currentHeight = false →
        ∀ data, tx.registrationData crypto.primitives = some data →
          ∀ owner, HoldsKey crypto.primitives set owner data.blsPubkey →
            owner = crypto.primitives.cryptoHash data.publicKey
  | _ => True

/-! ## One step -/

section Step

variable {crypto : Crypto} {set next : ProducerSet} {ctx : ValidationContext}
  {slot : Nat} {mode : ValidationMode} {tx : Transaction} {move : KeyMove}

theorem bondOutputs_ne_nil
    (hbonds : (tx.outputs.filter fun output => output.outputType = .bond) ≠ []) :
    bondOutputs tx ≠ [] := by
  obtain ⟨output, houtput⟩ := List.exists_mem_of_ne_nil _ hbonds
  obtain ⟨hmem, hbond⟩ := List.mem_filter.mp houtput
  obtain ⟨index, hindex, rfl⟩ := List.getElem_of_mem hmem
  refine List.ne_nil_of_mem (a := (tx.outputs[index], index)) ?_
  refine List.mem_filter.mpr ⟨?_, hbond⟩
  exact List.mem_zipIdx_iff_getElem?.mpr (List.getElem?_eq_getElem hindex)

/-- With a Bond output there is a producer to register, under the key and BLS key of
the payload. -/
theorem registeredInfo_of_bond {utxo : UtxoContext} {height : Nat}
    (data : RegistrationData) (hbond : bondOutputs tx ≠ []) :
    ∃ info, registeredInfo utxo height tx data = some info ∧
      info.publicKey = data.publicKey ∧ info.blsPubkey = data.blsPubkey := by
  unfold registeredInfo
  split
  case h_1 hnone => exact absurd hnone hbond
  case h_2 => exact ⟨_, rfl, rfl, rfl⟩

theorem admitted_registration {skipVdf : Bool} {data : RegistrationData}
    (hadmitted : Validation.validateRegistrationDataInner ctx tx skipVdf = .ok ())
    (hgenesis : ctx.network.params.isInGenesis ctx.currentHeight = false)
    (hdata : tx.registrationData ctx.crypto.primitives = some data) :
    bondOutputs tx ≠ [] ∧ data.blsPubkey ≠ [] := by
  obtain ⟨read, hread, ⟨hkey, hrest⟩, -⟩ :=
    Validation.validateRegistrationDataInner_eq_ok.mp hadmitted
  obtain ⟨hbonds, -⟩ := hrest hgenesis
  obtain ⟨-, hdecode⟩ := Validation.readRegistration_eq_ok.mp hread
  have hsame : read = data := by
    unfold Transaction.registrationData at hdata
    split at hdata
    · exact Option.some.inj (hdecode.symm.trans hdata)
    · contradiction
  simp only [Validation.checkBlsKey, seq_eq_ok, refuseIf_eq_ok] at hkey
  simp only [Validation.checkRegistrationBonds, bind_eq_ok, exists_unit, refuseIf_eq_ok]
    at hbonds
  exact ⟨bondOutputs_ne_nil hbonds.2.1, hsame ▸ hkey.1⟩

/-- An admitted registration does nothing during genesis; later it queues the key it
carries, which is not empty. -/
theorem registrationEffect_admitted {skipVdf : Bool}
    (hadmitted : Validation.validateRegistrationDataInner ctx tx skipVdf = .ok ())
    (hnext : (registrationEffect (effectContext ctx slot mode) tx (.initial set)).producers =
      next) :
    ((ctx.network.params.isInGenesis ctx.currentHeight = true ∨
        tx.registrationData ctx.crypto.primitives = none) ∧ next = set) ∨
      ∃ data info, ctx.network.params.isInGenesis ctx.currentHeight = false ∧
        tx.registrationData ctx.crypto.primitives = some data ∧ data.blsPubkey ≠ [] ∧
        info.publicKey = data.publicKey ∧ info.blsPubkey = data.blsPubkey ∧
        next = set.queueUpdate (.register info ctx.currentHeight) := by
  have hblock : (effectContext ctx slot mode).utxo.params.isInGenesis
      (effectContext ctx slot mode).height =
        ctx.network.params.isInGenesis ctx.currentHeight := rfl
  have hprim : (effectContext ctx slot mode).utxo.prim = ctx.crypto.primitives := rfl
  rw [registrationEffect, hblock, hprim] at hnext
  cases hgenesis : ctx.network.params.isInGenesis ctx.currentHeight with
  | true =>
      rw [hgenesis, if_pos rfl] at hnext
      exact .inl ⟨.inl rfl, hnext.symm⟩
  | false =>
      rw [hgenesis, if_neg Bool.false_ne_true] at hnext
      cases hdata : tx.registrationData ctx.crypto.primitives with
      | none =>
          rw [hdata] at hnext
          exact .inl ⟨.inr rfl, hnext.symm⟩
      | some data =>
          right
          obtain ⟨hbond, hbls⟩ := admitted_registration hadmitted hgenesis hdata
          obtain ⟨info, hinfo, hpubkey, hkey⟩ :=
            @registeredInfo_of_bond tx (effectContext ctx slot mode).utxo
              (effectContext ctx slot mode).height data hbond
          simp only [hdata, hinfo] at hnext
          exact ⟨data, info, rfl, rfl, hbls, hpubkey, hkey, hnext.symm⟩

theorem keyStep_registration {skipVdf : Bool}
    (hstep : keyStep crypto set (.registration ctx slot mode skipVdf tx) = .ok next) :
    ((ctx.network.params.isInGenesis ctx.currentHeight = true ∨
        tx.registrationData crypto.primitives = none) ∧ next = set) ∨
      ∃ data info, ctx.network.params.isInGenesis ctx.currentHeight = false ∧
        tx.registrationData crypto.primitives = some data ∧ data.blsPubkey ≠ [] ∧
        info.publicKey = data.publicKey ∧ info.blsPubkey = data.blsPubkey ∧
        next = set.queueUpdate (.register info ctx.currentHeight) := by
  simp only [keyStep] at hstep
  split at hstep
  · contradiction
  case h_2 hadmitted => exact registrationEffect_admitted hadmitted (Except.ok.inj hstep)

theorem keyStep_rotation (hkeyed : Keyed crypto.primitives set)
    (hstep : keyStep crypto set (.rotation ctx slot mode tx) = .ok next) :
    next = set ∨ ∃ data : RotateBlsData,
      next = set.queueUpdate
        (.rotateBlsKey data.producer data.newBlsPubkey ctx.currentHeight) ∧
      ∀ owner, HoldsKey crypto.primitives set owner data.newBlsPubkey →
        owner = crypto.primitives.cryptoHash data.producer := by
  simp only [keyStep] at hstep
  split at hstep
  · contradiction
  case h_2 data hadmitted =>
    obtain rfl := Except.ok.inj hstep
    unfold rotateEffect
    split
    case isFalse => exact .inl rfl
    split
    · exact .inl rfl
    case h_2 data hdata =>
      split
      case h_2 => exact .inl rfl
      case h_1 producers hrotation =>
        obtain ⟨hnext, hfree⟩ := applyRotation_ok hkeyed hrotation
        exact .inr ⟨data, hnext, hfree⟩

theorem keyStep_keyed (hkeyed : Keyed crypto.primitives set)
    (hstep : keyStep crypto set move = .ok next) : Keyed crypto.primitives next := by
  cases move with
  | registration ctx slot mode skipVdf tx =>
      rcases keyStep_registration hstep with ⟨-, rfl⟩ | ⟨_, _, -, -, -, -, -, rfl⟩
      · exact hkeyed
      · exact hkeyed
  | rotation ctx slot mode tx =>
      rcases keyStep_rotation hkeyed hstep with rfl | ⟨_, rfl, -⟩
      · exact hkeyed
      · exact hkeyed
  | flush cap =>
      obtain rfl := Except.ok.inj hstep
      exact hkeyed.flush cap

theorem keyStep_unique_iff (hkeyed : Keyed crypto.primitives set)
    (hunique : BlsKeysUnique crypto.primitives set)
    (hstep : keyStep crypto set move = .ok next) :
    BlsKeysUnique crypto.primitives next ↔ move.Fresh crypto set := by
  cases move with
  | registration ctx slot mode skipVdf tx =>
      rcases keyStep_registration hstep with ⟨hnothing, rfl⟩ |
        ⟨data, info, hgenesis, hdata, hbls, hpubkey, hkey, rfl⟩
      · refine ⟨fun _ hgenesis data hdata => ?_, fun _ => hunique⟩
        rcases hnothing with hphase | hnone
        · rw [hphase] at hgenesis
          contradiction
        · rw [hnone] at hdata
          contradiction
      · have hintroduced : PendingProducerUpdate.introducedKey
            (.register info ctx.currentHeight) = some (data.publicKey, data.blsPubkey) := by
          rw [PendingProducerUpdate.introducedKey, hpubkey, hkey]
        rw [hunique.queueUpdate_iff hintroduced, forall_prop_of_true hbls]
        constructor
        · intro hfree _ other hother
          rw [hdata, Option.some.injEq] at hother
          exact hother ▸ hfree
        · exact fun hfresh => hfresh hgenesis data hdata
  | rotation ctx slot mode tx =>
      refine iff_of_true ?_ trivial
      rcases keyStep_rotation hkeyed hstep with rfl | ⟨data, rfl, hfree⟩
      · exact hunique
      · exact (hunique.queueUpdate_iff rfl).mpr fun _ => hfree
  | flush cap =>
      obtain rfl := Except.ok.inj hstep
      exact iff_of_true (hunique.flush cap) trivial

end Step

/-! ## A run -/

section Run

variable {crypto : Crypto} {start final : ProducerSet} {moves : List KeyMove}

theorem run_keyed (hkeyed : Keyed crypto.primitives start)
    (hrun : run (keyStep crypto) moves start = .ok final) : Keyed crypto.primitives final :=
  run_invariant (fun _ set => Keyed crypto.primitives set) hkeyed
    (fun _ _ _ _ _ _ hset hstep => keyStep_keyed hset hstep) hrun

/-- In a run from unique keys they stay unique in every set reached exactly when each
registration brings a key that no other producer holds or has queued. -/
theorem bls_keys_unique_iff (hkeyed : Keyed crypto.primitives start)
    (hunique : BlsKeysUnique crypto.primitives start)
    (hrun : run (keyStep crypto) moves start = .ok final) :
    (∀ done rest reached, moves = done ++ rest →
        run (keyStep crypto) done start = .ok reached →
          BlsKeysUnique crypto.primitives reached) ↔
      ∀ done move rest reached, moves = done ++ move :: rest →
        run (keyStep crypto) done start = .ok reached → move.Fresh crypto reached := by
  constructor
  · intro hall done move rest reached hmoves hreached
    obtain ⟨middle, hdone, hrest⟩ := run_append_ok.mp (hmoves ▸ hrun)
    obtain rfl := Except.ok.inj (hreached.symm.trans hdone)
    obtain ⟨next, hstep, -⟩ := run_cons_ok.mp hrest
    have hafter : run (keyStep crypto) (done ++ [move]) start = .ok next :=
      run_append_ok.mpr ⟨reached, hdone, run_cons_ok.mpr ⟨next, hstep, rfl⟩⟩
    have hnext := hall (done ++ [move]) rest next (by simp [hmoves]) hafter
    exact (keyStep_unique_iff (run_keyed hkeyed hdone) (hall done _ reached hmoves hdone)
      hstep).mp hnext
  · intro hfresh done rest reached hmoves hreached
    refine (run_invariant (fun before set => run (keyStep crypto) before start = .ok set ∧
      BlsKeysUnique crypto.primitives set) ⟨rfl, hunique⟩ ?_ hreached).2
    intro before move after current next hdone hcurrent hstep
    obtain ⟨hbefore, hcurrent⟩ := hcurrent
    refine ⟨run_append_ok.mpr ⟨current, hbefore, run_cons_ok.mpr ⟨next, hstep, rfl⟩⟩, ?_⟩
    have hmove : move.Fresh crypto current :=
      hfresh before move (after ++ rest) current (by simp [hmoves, hdone]) hbefore
    exact (keyStep_unique_iff (run_keyed hkeyed hbefore) hcurrent hstep).mpr hmove

end Run

/-! ## A copied key -/

open Doli.Validation (RegistrationChainState sampleContext sampleCrypto sampleOpenRules)

/-- The BLS key and the proof that comes with it are the same for every producer. -/
def sharedKeyData (key : PublicKey) (chain : RegistrationChainState) :
    RegistrationData where
  publicKey := key
  vdfOutput := (Validation.hashChainVdf sampleBlake3
    (Validation.registrationInput sampleBlake3 key 0) 2).asBytes
  prevRegistrationHash := chain.expectedPrevHash
  sequenceNumber := chain.expectedSequence
  bondCount := 1
  blsPubkey := List.replicate 48 7
  blsPop := List.replicate 96 7

def sharedKeyRegistration (key : PublicKey) (chain : RegistrationChainState) :
    Transaction where
  version := 1
  txType := .registration
  inputs := [⟨⟨3⟩, 0, ⟨1⟩, .all, 0, some key⟩]
  outputs :=
    [⟨.bond, 1000000000, sampleCrypto.primitives.addressOf key, 2 ^ 40, leBytes 4 0⟩]
  extraData := (Wire.registrationData sampleCrypto.validKey).encode
    (sharedKeyData key chain) ++ Signature.asBytes ⟨1⟩

/-- A context at `height` that shows the set. -/
def keyContext (set : ProducerSet) (height : Nat) (chain : RegistrationChainState) :
    ValidationContext :=
  sampleConfig.showing set { sampleContext height with registrationChain := chain }

def registrationMove (set : ProducerSet) (height : Nat) (chain : RegistrationChainState)
    (key : PublicKey) : KeyMove :=
  .registration (keyContext set height chain) 0 .full false (sharedKeyRegistration key chain)

def firstMoves : List KeyMove := [registrationMove .new 1000 ⟨⟨0⟩, 0⟩ ⟨5⟩, .flush 0]

/-- The producer `⟨5⟩` has registered and holds its key. -/
def holderSet : ProducerSet :=
  (run (keyStep sampleCrypto) firstMoves .new).toOption.getD .new

/-- The producer `⟨6⟩` registers with the same key and the same proof. -/
def copyMoves : List KeyMove :=
  firstMoves ++ [registrationMove holderSet 2000 ⟨⟨77⟩, 0⟩ ⟨6⟩, .flush 0]

def keyOf (set : ProducerSet) (key : PublicKey) : Option Bytes :=
  (set.getByPubkey sampleCrypto.primitives key).map ProducerInfo.blsPubkey

theorem holdsKey_of_keyOf {set : ProducerSet} {key : PublicKey} {bls : Bytes}
    (hkey : keyOf set key = some bls) :
    HoldsKey sampleCrypto.primitives set (sampleCrypto.primitives.cryptoHash key) bls := by
  unfold keyOf at hkey
  rw [Option.map_eq_some_iff] at hkey
  obtain ⟨info, hinfo, rfl⟩ := hkey
  exact .registered hinfo

/-- The first registration is of a key that nobody holds. -/
theorem bls_keys_unique_iff_first :
    ∃ final, run (keyStep sampleCrypto) firstMoves .new = .ok final ∧
      keyOf final ⟨5⟩ = some (List.replicate 48 7) ∧
      BlsKeysUnique sampleCrypto.primitives final := by
  obtain ⟨final, hrun, hkey⟩ := ok_of_any (show (run (keyStep sampleCrypto) firstMoves
    .new).toOption.any (fun final => decide (keyOf final ⟨5⟩ =
      some (List.replicate 48 7))) = true by decide +kernel)
  refine ⟨final, hrun, of_decide_eq_true hkey, (bls_keys_unique_iff (keyed_new _)
    (blsKeysUnique_new _) hrun).mpr ?_ firstMoves [] final rfl hrun⟩
  intro done move rest reached hmoves hreached
  cases done with
  | nil =>
      obtain rfl := Except.ok.inj hreached
      obtain ⟨rfl, -⟩ := List.cons.inj hmoves
      exact fun _ _ _ _ hholds => absurd hholds not_holdsKey_new
  | cons first done =>
      obtain ⟨-, hmoves⟩ := List.cons.inj hmoves
      cases done with
      | nil =>
          obtain ⟨rfl, -⟩ := List.cons.inj hmoves
          trivial
      | cons second done => simp at hmoves

/-- Every rule accepts the second registration, in a context that shows the holder, and
after the flush two producers hold one key. -/
theorem bls_key_copied :
    ∃ final, run (keyStep sampleCrypto) copyMoves .new = .ok final ∧
      Validation.validateTransaction sampleOpenRules (keyContext holderSet 2000 ⟨⟨77⟩, 0⟩)
        (sharedKeyRegistration ⟨6⟩ ⟨⟨77⟩, 0⟩) = .ok () ∧
      keyOf holderSet ⟨5⟩ = some (List.replicate 48 7) ∧
      Keyed sampleCrypto.primitives .new ∧ BlsKeysUnique sampleCrypto.primitives .new ∧
      ¬BlsKeysUnique sampleCrypto.primitives final := by
  obtain ⟨final, hrun, hkeys⟩ := ok_of_any (show (run (keyStep sampleCrypto) copyMoves
    .new).toOption.any (fun final => decide (keyOf final ⟨5⟩ = some (List.replicate 48 7) ∧
      keyOf final ⟨6⟩ = some (List.replicate 48 7))) = true by decide +kernel)
  obtain ⟨hfirst, hsecond⟩ := of_decide_eq_true hkeys
  refine ⟨final, hrun, by decide +kernel, by decide +kernel, keyed_new _,
    blsKeysUnique_new _, fun hunique => ?_⟩
  have hsame := hunique (List.replicate 48 7) (by decide) _ _ (holdsKey_of_keyOf hfirst)
    (holdsKey_of_keyOf hsecond)
  exact absurd hsame (by decide)

end Doli.Node
