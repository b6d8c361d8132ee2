import Doli.Core.MultisigKeys

/-!
# The subscription template

The window of a subscription is a timelock and an expiry.  An expiry is met from its height
on, so the two together ask for a height after the window and not in it.
-/

namespace Doli.Core

open Doli.Lib

/-- Pay the recipient at an output of the spending transaction, in an interval of heights. -/
def Condition.subscription (recipientHash : Hash)
    (requiredAmount outputIndex intervalStart intervalEnd : Nat) : Condition :=
  .and (.and (.recipientGuard recipientHash outputIndex) (.amountGuard requiredAmount outputIndex))
    (.and (.timelock intervalStart) (.timelockExpiry intervalEnd))

namespace EvalEnv

/-- A transaction and a witness that the payee signed meet the condition at the height;
`message` is what is signed of a transaction. -/
def PayableAt (prim : Primitives) (verifyHash : Hash → Signature → PublicKey → Bool)
    (message : Transaction → Hash) (payee : Hash) (condition : Condition) (height : Nat) :
    Prop :=
  ∃ tx witness cursor,
    (⟨prim, verifyHash, witness, height, message tx, some tx⟩ : EvalEnv).Signed payee ∧
      ((⟨prim, verifyHash, witness, height, message tx, some tx⟩ : EvalEnv).evaluate
        condition cursor).1 = true

section

variable {prim : Primitives} {verifyHash : Hash → Signature → PublicKey → Bool}
  {message : Transaction → Hash} {payee recipientHash : Hash}
  {requiredAmount outputIndex intervalStart intervalEnd height : Nat}

theorem heights_of_subscription {env : EvalEnv}
    (hmet : env.Satisfied (.subscription recipientHash requiredAmount outputIndex intervalStart
      intervalEnd)) :
    intervalStart ≤ env.currentHeight ∧ intervalEnd ≤ env.currentHeight := by
  cases hmet with
  | and hguards hwindow =>
      cases hwindow with
      | and hstart hend =>
          cases hstart with
          | timelock hreached =>
              cases hend with
              | timelockExpiry hpassed => exact ⟨hreached, hpassed⟩

def payment (recipientHash : Hash) (requiredAmount outputIndex : Nat) : Transaction where
  version := 1
  txType := .transfer
  inputs := []
  outputs := List.replicate (outputIndex + 1) ⟨.normal, requiredAmount, recipientHash, 0, []⟩
  extraData := []

theorem satisfied_of_payment {env : EvalEnv}
    (hpaid : env.transaction = some (payment recipientHash requiredAmount outputIndex))
    (hstart : intervalStart ≤ env.currentHeight) (hend : intervalEnd ≤ env.currentHeight) :
    env.Satisfied (.subscription recipientHash requiredAmount outputIndex intervalStart
      intervalEnd) := by
  have houtput : env.outputAt outputIndex =
      some ⟨.normal, requiredAmount, recipientHash, 0, []⟩ := by
    rw [outputAt, hpaid, Option.bind_some, payment, List.getElem?_replicate,
      if_pos (Nat.lt_succ_self outputIndex)]
  refine .and (.and ?_ ?_) (.and ?_ ?_)
  · exact .recipientGuard houtput rfl
  · exact .amountGuard houtput (Nat.le_refl requiredAmount)
  · exact .timelock hstart
  · exact .timelockExpiry hend

theorem payableAt_iff
    (hpayee : ∀ tx, HasHolder prim verifyHash (message tx) payee) :
    PayableAt prim verifyHash message payee (.subscription recipientHash requiredAmount
        outputIndex intervalStart intervalEnd) height ↔
      intervalStart ≤ height ∧ intervalEnd ≤ height := by
  constructor
  · rintro ⟨tx, witness, cursor, -, htrue⟩
    exact heights_of_subscription (satisfied_of_evaluate htrue)
  · rintro ⟨hstart, hend⟩
    obtain ⟨signed, haddress, hverified⟩ :=
      hpayee (payment recipientHash requiredAmount outputIndex)
    refine ⟨payment recipientHash requiredAmount outputIndex, ⟨[signed], none, []⟩, 0, ?_, ?_⟩
    · exact ⟨signed, List.mem_singleton_self signed, signed_iff.mpr ⟨haddress, hverified⟩⟩
    · exact evaluate_of_satisfied rfl (satisfied_of_payment rfl hstart hend) rfl 0

end

/-- A subscription is payable as its window says before the window and at its last height
only. -/
theorem subscription_window_iff (prim : Primitives)
    (verifyHash : Hash → Signature → PublicKey → Bool) (message : Transaction → Hash)
    {payee : Hash} (hpayee : ∀ tx, HasHolder prim verifyHash (message tx) payee)
    (recipientHash : Hash) (requiredAmount outputIndex intervalStart intervalEnd : Nat) :
    (∀ height,
      ((PayableAt prim verifyHash message payee (.subscription recipientHash requiredAmount
            outputIndex intervalStart intervalEnd) height ↔
          intervalStart ≤ height ∧ height ≤ intervalEnd) ↔
        height < intervalStart ∨ height = intervalEnd)) ∧
      (intervalStart < 2 ^ 64 → intervalEnd < 2 ^ 64 →
        ((∀ height < 2 ^ 64,
            (PayableAt prim verifyHash message payee (.subscription recipientHash
                requiredAmount outputIndex intervalStart intervalEnd) height ↔
              intervalStart ≤ height ∧ height ≤ intervalEnd)) ↔
          intervalStart = 2 ^ 64 - 1 ∧ intervalEnd = 2 ^ 64 - 1)) := by
  have hheight : ∀ height,
      ((PayableAt prim verifyHash message payee (.subscription recipientHash requiredAmount
            outputIndex intervalStart intervalEnd) height ↔
          intervalStart ≤ height ∧ height ≤ intervalEnd) ↔
        height < intervalStart ∨ height = intervalEnd) := by
    intro height
    rw [payableAt_iff hpayee]
    omega
  refine ⟨hheight, fun hstart hend => ?_⟩
  constructor
  · intro hall
    have hlast := (hheight (2 ^ 64 - 1)).mp (hall (2 ^ 64 - 1) (by omega))
    have hbefore := (hheight (2 ^ 64 - 2)).mp (hall (2 ^ 64 - 2) (by omega))
    omega
  · rintro ⟨hfirst, hlast⟩ height hbound
    apply (hheight height).mpr
    omega

theorem subscription_window_iff_sample :
    (PayableAt samplePrimitives (fun _ _ _ => true) (fun _ => ⟨0⟩) sampleAddress
        (.subscription sampleAddress 1 0 5 7) 7 ↔ 5 ≤ 7 ∧ 7 ≤ 7) ↔ 7 < 5 ∨ 7 = 7 :=
  (subscription_window_iff samplePrimitives (fun _ _ _ => true) (fun _ => ⟨0⟩)
    (fun _ => ⟨⟨⟨7⟩, ⟨1⟩⟩, rfl, rfl⟩) sampleAddress 1 0 5 7).1 7

theorem subscription_refused_in_window :
    ¬∀ (prim : Primitives) (verifyHash : Hash → Signature → PublicKey → Bool)
      (message : Transaction → Hash) (payee recipientHash : Hash)
      (requiredAmount outputIndex intervalStart intervalEnd height : Nat),
      (∀ tx, HasHolder prim verifyHash (message tx) payee) →
        (PayableAt prim verifyHash message payee (.subscription recipientHash requiredAmount
            outputIndex intervalStart intervalEnd) height ↔
          intervalStart ≤ height ∧ height ≤ intervalEnd) := by
  intro hall
  have hholder : ∀ tx : Transaction,
      HasHolder samplePrimitives (fun _ _ _ => true) ((fun _ => ⟨0⟩ : Transaction → Hash) tx)
        sampleAddress :=
    fun _ => ⟨⟨⟨7⟩, ⟨1⟩⟩, rfl, rfl⟩
  have hopen := (hall _ _ _ _ sampleAddress 1 0 5 7 6 hholder).mpr (by omega)
  have hreached := (payableAt_iff hholder).mp hopen
  omega

end EvalEnv

end Doli.Core
