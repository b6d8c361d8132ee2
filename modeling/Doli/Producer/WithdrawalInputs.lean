import Mathlib.Data.List.Sort
import Doli.Core.Validation
import Doli.Producer.Info

/-!
# What the UTXO set says about a withdrawal

One pass over the inputs of a withdrawal, and the Bonds an address owns.
-/

namespace Doli.Producer

open Doli.Core Doli.Lib Doli.Storage

structure WithdrawalInputs where
  ownedBonds : Nat
  allBonds : Nat
  spentBonds : List (Nat × Option Nat)
  nonBondTotal : Nat
  malformedBondInputs : List (Nat × Nat)
  deriving DecidableEq, Repr

/-- The slot stamped on a Bond; `none` unless there are exactly four bytes. -/
def stampedSlot (output : Output) : Option Nat :=
  if output.extraData.length = 4 then some (leNat output.extraData) else none

namespace WithdrawalInputs

def empty : WithdrawalInputs := ⟨0, 0, [], 0, []⟩

def resolveInput (lookup : Outpoint → Option UtxoEntry) (owner : Hash)
    (resolved : WithdrawalInputs) (row : Input × Nat) : WithdrawalInputs :=
  match lookup (inputOutpoint row.1) with
  | none => resolved
  | some entry =>
      if entry.output.outputType ≠ .bond then
        { resolved with
          nonBondTotal := satAddAmount resolved.nonBondTotal entry.output.amount }
      else
        { resolved with
          allBonds := satAdd resolved.allBonds 1
          ownedBonds :=
            if entry.output.pubkeyHash = owner then satAdd resolved.ownedBonds 1
            else resolved.ownedBonds
          malformedBondInputs :=
            if (stampedSlot entry.output).isNone then
              resolved.malformedBondInputs ++
                [(row.2, entry.output.extraData.length)]
            else resolved.malformedBondInputs
          spentBonds := resolved.spentBonds ++
            [(entry.output.amount, stampedSlot entry.output)] }

end WithdrawalInputs

/-- An input the set does not hold contributes nothing. -/
def resolveWithdrawalInputs (tx : Transaction)
    (lookup : Outpoint → Option UtxoEntry) (owner : Hash) : WithdrawalInputs :=
  tx.inputs.zipIdx.foldl (WithdrawalInputs.resolveInput lookup owner) .empty

/-- The vesting verdict on a resolved withdrawal mined in `slot`. -/
def vestingBoundVerdict (tx : Transaction) (resolved : WithdrawalInputs)
    (slot height quarterSlots activation disable : Nat) :
    Except VestingError Unit :=
  if height < activation ∨ disable ≤ height then .ok ()
  else
    match resolved.malformedBondInputs with
    | (index, len) :: _ =>
        .error (.bondExtraDataMalformed (min index (2 ^ 32 - 1)) len)
    | [] =>
        checkWithdrawalPayoutBound
          (tx.outputs.foldl (fun total output =>
            satAddAmount total output.amount) 0)
          (resolved.spentBonds.filterMap fun bond =>
            bond.2.map fun slot => (bond.1, slot))
          resolved.nonBondTotal slot quarterSlots height activation disable

end Doli.Producer

namespace Doli.Storage.StateDb

open Doli.Core Doli.Lib Doli.Producer

/-- The Bonds of an address: outpoint, slot and amount, oldest first. -/
def getBondEntries (db : StateDb) (pubkeyHash : Hash) :
    List (Outpoint × Nat × Nat) :=
  (((db.getUtxosByPubkey pubkeyHash).filter fun row =>
    row.2.output.outputType = .bond).map fun row =>
      (row.1, (stampedSlot row.2.output).getD 0, row.2.output.amount)).insertionSort
    fun left right => left.2.1 ≤ right.2.1

end Doli.Storage.StateDb
