import Doli.Core.TransactionPreimage

/-!
# The signing message of an input

`Transaction::signing_message_for_input`.  The mode of the signature and the number of
outputs it commits to choose what is signed, but are no part of it: a signature of all
outputs is also one of the first outputs of a longer list.
-/

namespace Doli.Core

open Doli.Lib

def Input.outpoint (input : Input) : Hash × Nat := (input.prevTxHash, input.outputIndex)

namespace Transaction

/-- The outputs that an AnyoneCanPay signature commits to. -/
def outputCount (tx : Transaction) (input : Input) : Nat :=
  if 0 < input.committedOutputCount then min input.committedOutputCount tx.outputs.length
  else tx.outputs.length

/-- The bytes that `signing_message_for_input` feeds to BLAKE3 for an input of the
transaction. -/
def signingPreimageForInput (tx : Transaction) (input : Input) : Bytes :=
  match input.sighashType with
  | .all =>
      leBytes 4 tx.version ++ leBytes 4 tx.txType.toNat ++
        leBytes 4 tx.inputs.length ++
        tx.inputs.flatMap (fun other =>
          other.prevTxHash.asBytes ++ leBytes 4 other.outputIndex) ++
        leBytes 4 tx.outputs.length ++ tx.outputs.flatMap Output.serialize ++
        input.prevTxHash.asBytes ++ leBytes 4 input.outputIndex
  | .anyoneCanPay =>
      leBytes 4 tx.version ++ leBytes 4 tx.txType.toNat ++
        leBytes 4 1 ++ input.prevTxHash.asBytes ++ leBytes 4 input.outputIndex ++
        leBytes 4 (tx.outputCount input) ++
        (tx.outputs.take (tx.outputCount input)).flatMap Output.serialize

/-- What an AnyoneCanPay signer sees of the transaction. -/
def seenBy (tx : Transaction) (input : Input) : Transaction :=
  { tx with inputs := [input], outputs := tx.outputs.take (tx.outputCount input) }

variable {tx first second : Transaction} {input signed rewritten : Input}

theorem outputCount_le (tx : Transaction) (input : Input) :
    tx.outputCount input ≤ tx.outputs.length := by
  unfold outputCount
  split <;> omega

theorem signingPreimageForInput_all (hmode : input.sighashType = .all) :
    tx.signingPreimageForInput input = tx.signingPreimage ++ outpointBytes input.outpoint := by
  unfold signingPreimageForInput
  rw [hmode]
  simp [signingPreimage, outpointBytes, Input.outpoint, List.append_assoc]

theorem signingPreimageForInput_anyoneCanPay (hmode : input.sighashType = .anyoneCanPay) :
    tx.signingPreimageForInput input = (tx.seenBy input).signingPreimage := by
  have hcount : min (tx.outputCount input) tx.outputs.length = tx.outputCount input :=
    Nat.min_eq_left (outputCount_le tx input)
  unfold signingPreimageForInput
  rw [hmode]
  simp [signingPreimage, seenBy, hcount, List.append_assoc]

theorem seenBy_outputs_of_zero (hcount : input.committedOutputCount = 0) :
    (tx.seenBy input).outputs = tx.outputs := by
  simp [seenBy, outputCount, hcount]

theorem seenBy_inRange (hrange : tx.InRange) (hinput : input ∈ tx.inputs) :
    (tx.seenBy input).InRange := by
  refine ⟨hrange.version, ?_, ?_⟩
  · intro other hother
    rw [List.mem_singleton.mp hother]
    exact hrange.outputIndex input hinput
  · exact fun output houtput => hrange.outputs output (List.mem_of_mem_take houtput)

theorem outputsOverlap_of_take {first second : List Output} {count : Nat}
    (hoverlap : OutputsOverlap first (second.take count)) : OutputsOverlap first second := by
  induction first generalizing second count with
  | nil => exact hoverlap
  | cons a as ih =>
      cases second with
      | nil => simpa using hoverlap
      | cons b bs =>
          cases count with
          | zero => exact False.elim hoverlap
          | succ count =>
              rw [List.take_succ_cons] at hoverlap
              unfold OutputsOverlap at hoverlap ⊢
              split
              case isTrue heq =>
                rw [if_pos heq] at hoverlap
                exact ih hoverlap
              case isFalse hne =>
                rw [if_neg hne] at hoverlap
                exact hoverlap

/-- Every list is short enough for the four bytes of its count. -/
structure ShortLists (tx : Transaction) : Prop where
  inputs : tx.inputs.length < 2 ^ 32
  outputs : tx.outputs.length < 2 ^ 32

theorem ShortLists.countsTold (hfirst : first.ShortLists) (hsecond : second.ShortLists) :
    first.CountsTold second := by
  have hinputs := hfirst.inputs
  have hinputs' := hsecond.inputs
  have houtputs := hfirst.outputs
  have houtputs' := hsecond.outputs
  constructor <;> omega

theorem ShortLists.seenBy (hlists : tx.ShortLists) (input : Input) :
    (tx.seenBy input).ShortLists := by
  have houtputs := hlists.outputs
  constructor
  · simp [Transaction.seenBy]
  · simp only [Transaction.seenBy, List.length_take]
    omega

/-- The second transaction appends outputs to the first and its input declares how many
there were. -/
structure Extends (first second : Transaction) (rewritten : Input) : Prop where
  version : second.version = first.version
  txType : second.txType = first.txType
  sighashType : rewritten.sighashType = .anyoneCanPay
  positive : 0 < rewritten.committedOutputCount
  committedOutputCount : rewritten.committedOutputCount = first.outputs.length
  outputs : first.outputs <+: second.outputs

theorem extends_of_seen (hdiffer : second.outputs ≠ first.outputs)
    (hmode : rewritten.sighashType = .anyoneCanPay)
    (hversion : second.version = first.version) (htype : second.txType = first.txType)
    (hseen : second.outputs.take (second.outputCount rewritten) = first.outputs) :
    first.Extends second rewritten := by
  have hlength := congrArg List.length hseen
  rw [List.length_take, Nat.min_eq_left (outputCount_le second rewritten)] at hlength
  unfold outputCount at hseen hlength
  split at hlength
  case isFalse hzero =>
    rw [if_neg hzero, List.take_length] at hseen
    exact absurd hseen hdiffer
  case isTrue hpositive =>
    rw [if_pos hpositive] at hseen
    have hshorter : rewritten.committedOutputCount < second.outputs.length := by
      by_contra hlong
      rw [Nat.min_eq_right (Nat.not_lt.mp hlong), List.take_length] at hseen
      exact hdiffer hseen
    refine ⟨hversion, htype, hmode, hpositive, by omega, ?_⟩
    rw [← hseen]
    exact List.take_prefix _ _

theorem seen_of_extends (hextends : first.Extends second rewritten) :
    second.outputs.take (second.outputCount rewritten) = first.outputs := by
  have hprefix := hextends.outputs
  have hcount : second.outputCount rewritten = first.outputs.length := by
    unfold outputCount
    rw [if_pos hextends.positive, hextends.committedOutputCount,
      Nat.min_eq_left hprefix.length_le]
  rw [hcount]
  exact (List.prefix_iff_eq_take.mp hprefix).symm

/-- The message of a signer of all outputs is met again with other outputs just where
outputs were appended. -/
theorem signingPreimageForInput_eq_iff (hfirst : first.InRange) (hsecond : second.InRange)
    (hlists : first.ShortLists) (hlists' : second.ShortLists)
    (hnone : ¬ OutputsOverlap first.outputs second.outputs)
    (hsigned : signed ∈ first.inputs) (hrewritten : rewritten ∈ second.inputs)
    (hmode : signed.sighashType = .anyoneCanPay) (hall : signed.committedOutputCount = 0)
    (houtpoint : rewritten.outpoint = signed.outpoint)
    (hdiffer : second.outputs ≠ first.outputs) :
    first.signingPreimageForInput signed = second.signingPreimageForInput rewritten ↔
      first.Extends second rewritten := by
  have hrange := seenBy_inRange hfirst hsigned
  have hshort := hlists.seenBy signed
  have houtputs : (first.seenBy signed).outputs = first.outputs := seenBy_outputs_of_zero hall
  rw [signingPreimageForInput_anyoneCanPay hmode]
  cases hother : rewritten.sighashType with
  | all =>
      rw [signingPreimageForInput_all hother]
      constructor
      · intro h
        have hend : (first.seenBy signed).signingPreimage ++ [] =
            second.signingPreimage ++ outpointBytes rewritten.outpoint := by
          rw [List.append_nil, h]
        have hread := signingPreimage_append_inj hrange hsecond (hshort.countsTold hlists')
          (by rwa [houtputs]) hend
        have hlength := congrArg List.length hread.2
        simp [outpointBytes] at hlength
      · intro hextends
        have hmode' := hextends.sighashType
        rw [hother] at hmode'
        cases hmode'
  | anyoneCanPay =>
      have hrange' := seenBy_inRange hsecond hrewritten
      have hnone' : ¬ OutputsOverlap (first.seenBy signed).outputs
          (second.seenBy rewritten).outputs := by
        rw [houtputs]
        exact fun hoverlap => hnone (outputsOverlap_of_take hoverlap)
      rw [signingPreimageForInput_anyoneCanPay hother,
        signingPreimage_eq_iff hrange hrange' (hshort.countsTold (hlists'.seenBy rewritten))
          hnone']
      constructor
      · intro hsame
        exact extends_of_seen hdiffer hother hsame.version.symm hsame.txType.symm
          (hsame.outputs.symm.trans houtputs)
      · intro hextends
        have hseen := seen_of_extends hextends
        refine ⟨hextends.version.symm, hextends.txType.symm, ?_, houtputs.trans hseen.symm⟩
        exact congrArg (fun outpoint => [outpoint]) houtpoint.symm

end Transaction

end Doli.Core
