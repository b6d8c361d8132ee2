import Doli.Channels.Revocation
import Doli.Lib.FirstMatch

/-!
# The payments in flight of a channel

`HtlcManager` searches one list by id for payments that either side numbered.  Over a run
where no id comes twice each payment settles once and the totals are those of what was added
and has not settled.
-/

namespace Doli.Channels

open Doli.Core Doli.Lib

inductive HtlcState where
  | pending
  | fulfilled
  | expired
  | resolved
  deriving DecidableEq, Repr

def HtlcState.debug : HtlcState → String
  | .pending => "Pending"
  | .fulfilled => "Fulfilled"
  | .expired => "Expired"
  | .resolved => "Resolved"

/-- A payment in flight with the fields that the manager reads. -/
structure ListedHtlc extends InFlightHtlc where
  htlcId : Nat
  state : HtlcState
  preimage : Option Bytes
  deriving DecidableEq, Repr

/-- The errors of `ChannelError` that the manager answers. -/
inductive HtlcError where
  | htlcNotFound (id : String)
  | invalidRevocation
  | protocol (message : String)
  deriving DecidableEq, Repr

structure HtlcManager where
  nextId : Nat
  htlcs : List ListedHtlc
  deriving DecidableEq, Repr

namespace HtlcManager

def new : HtlcManager := ⟨0, []⟩

section

variable (arith : WordArith) (prim : Primitives) (manager : HtlcManager)

/-- A run ends where the next id does not fit. -/
def addOutgoing (paymentHash : Hash) (amount expiryHeight : Nat) :
    Option (HtlcManager × Nat) :=
  (arith.add manager.nextId 1).map fun nextId =>
    (⟨nextId, manager.htlcs ++ [{
      htlcId := manager.nextId
      paymentHash := paymentHash
      amount := amount
      expiryHeight := expiryHeight
      direction := .outgoing
      state := .pending
      preimage := none }]⟩, manager.nextId)

def addIncoming (htlcId : Nat) (paymentHash : Hash) (amount expiryHeight : Nat) :
    Option HtlcManager :=
  let htlcs := manager.htlcs ++ [{
    htlcId := htlcId
    paymentHash := paymentHash
    amount := amount
    expiryHeight := expiryHeight
    direction := .incoming
    state := .pending
    preimage := none }]
  if manager.nextId ≤ htlcId then (arith.add htlcId 1).map fun nextId => ⟨nextId, htlcs⟩
  else some ⟨manager.nextId, htlcs⟩

def isPending (htlcId : Nat) (htlc : ListedHtlc) : Bool :=
  htlc.htlcId = htlcId && htlc.state = .pending

def fulfill (htlcId : Nat) (preimage : Bytes) : Except HtlcError (HtlcManager × Nat) :=
  match manager.htlcs.find? (isPending htlcId) with
  | none => .error (.htlcNotFound (toString htlcId))
  | some htlc =>
      if prim.hashWithDomain hashlockDomain preimage ≠ htlc.paymentHash then
        .error .invalidRevocation
      else
        .ok (⟨manager.nextId, changeFirst (isPending htlcId)
          (fun found => { found with state := .fulfilled, preimage := some preimage })
          manager.htlcs⟩, htlc.amount)

def expire (htlcId currentHeight : Nat) : Except HtlcError (HtlcManager × Nat) :=
  match manager.htlcs.find? (isPending htlcId) with
  | none => .error (.htlcNotFound (toString htlcId))
  | some htlc =>
      if currentHeight < htlc.expiryHeight then
        .error (.protocol s!"HTLC {htlcId} not yet expired (current: {currentHeight}, expiry: {htlc.expiryHeight})")
      else
        .ok (⟨manager.nextId, changeFirst (isPending htlcId)
          (fun found => { found with state := .expired }) manager.htlcs⟩, htlc.amount)

def isNamed (htlcId : Nat) (htlc : ListedHtlc) : Bool := htlc.htlcId = htlcId

def resolve (htlcId : Nat) : Except HtlcError HtlcManager :=
  match manager.htlcs.find? (isNamed htlcId) with
  | none => .error (.htlcNotFound (toString htlcId))
  | some htlc =>
      if htlc.state ≠ .fulfilled ∧ htlc.state ≠ .expired then
        .error (.protocol s!"HTLC {htlcId} cannot be resolved in state {htlc.state.debug}")
      else
        .ok ⟨manager.nextId, changeFirst (isNamed htlcId)
          (fun found => { found with state := .resolved }) manager.htlcs⟩

def gcResolved : HtlcManager :=
  ⟨manager.nextId, manager.htlcs.filter fun htlc => htlc.state ≠ .resolved⟩

def pending : List ListedHtlc := manager.htlcs.filter fun htlc => htlc.state = .pending

/-- The amounts that are summed for a direction. -/
def pendingAmounts (direction : PaymentDirection) : List Nat :=
  (manager.htlcs.filter fun htlc =>
    htlc.state = .pending && htlc.direction = direction).map fun htlc => htlc.amount

def totalOutgoingPending : Option Nat := arith.sum (manager.pendingAmounts .outgoing) 0

def totalIncomingPending : Option Nat := arith.sum (manager.pendingAmounts .incoming) 0

end

end HtlcManager

/-! ## Runs -/

inductive HtlcOp where
  | addOutgoing (paymentHash : Hash) (amount expiryHeight : Nat)
  | addIncoming (htlcId : Nat) (paymentHash : Hash) (amount expiryHeight : Nat)
  | fulfill (htlcId : Nat) (preimage : Bytes)
  | expire (htlcId currentHeight : Nat)
  | resolve (htlcId : Nat)
  | gcResolved
  deriving DecidableEq, Repr

inductive HtlcAnswer where
  | added (htlcId : Nat)
  | settled (amount : Nat)
  | done
  | refused (error : HtlcError)
  deriving DecidableEq, Repr

namespace HtlcManager

section

variable (arith : WordArith) (prim : Primitives) (manager : HtlcManager)

/-- A refused operation leaves the manager as it is. -/
def settling (result : Except HtlcError (HtlcManager × Nat)) : HtlcManager × HtlcAnswer :=
  match result with
  | .error error => (manager, .refused error)
  | .ok (next, amount) => (next, .settled amount)

def resolving (result : Except HtlcError HtlcManager) : HtlcManager × HtlcAnswer :=
  match result with
  | .error error => (manager, .refused error)
  | .ok next => (next, .done)

def step : HtlcOp → Option (HtlcManager × HtlcAnswer)
  | .addOutgoing paymentHash amount expiryHeight =>
      (manager.addOutgoing arith paymentHash amount expiryHeight).map fun result =>
        (result.1, .added result.2)
  | .addIncoming htlcId paymentHash amount expiryHeight =>
      (manager.addIncoming arith htlcId paymentHash amount expiryHeight).map fun next =>
        (next, .done)
  | .fulfill htlcId preimage => some (manager.settling (manager.fulfill prim htlcId preimage))
  | .expire htlcId currentHeight => some (manager.settling (manager.expire htlcId currentHeight))
  | .resolve htlcId => some (manager.resolving (manager.resolve htlcId))
  | .gcResolved => some (manager.gcResolved, .done)

end

end HtlcManager

abbrev HtlcHistory := List (HtlcOp × HtlcAnswer)

/-- A payment as it was added. -/
structure AddedHtlc where
  htlcId : Nat
  direction : PaymentDirection
  amount : Nat
  deriving DecidableEq, Repr

def addedBy : HtlcOp × HtlcAnswer → Option AddedHtlc
  | (.addOutgoing _ amount _, .added htlcId) => some ⟨htlcId, .outgoing, amount⟩
  | (.addIncoming htlcId _ amount _, .done) => some ⟨htlcId, .incoming, amount⟩
  | _ => none

/-- The id that a fulfillment or an expiry settled. -/
def settledBy : HtlcOp × HtlcAnswer → Option Nat
  | (.fulfill htlcId _, .settled _) => some htlcId
  | (.expire htlcId _, .settled _) => some htlcId
  | _ => none

namespace HtlcHistory

variable (history : HtlcHistory)

def added : List AddedHtlc := history.filterMap addedBy

def addedIds : List Nat := history.added.map AddedHtlc.htlcId

def settledIds : List Nat := history.filterMap settledBy

/-- What was added and neither fulfilled nor expired. -/
def outstanding : List AddedHtlc :=
  history.added.filter fun htlc => htlc.htlcId ∉ history.settledIds

def outstandingTotal (direction : PaymentDirection) : Nat :=
  ((history.outstanding.filter fun htlc => htlc.direction = direction).map AddedHtlc.amount).sum

end HtlcHistory

/-- The histories of a manager whose steps were all `allowed`. -/
inductive HtlcRun (arith : WordArith) (prim : Primitives)
    (allowed : HtlcHistory → HtlcManager → HtlcOp → Prop) : HtlcHistory → HtlcManager → Prop
  | new : HtlcRun arith prim allowed [] .new
  | step {history : HtlcHistory} {manager next : HtlcManager} {op : HtlcOp} {answer : HtlcAnswer}
      (hrun : HtlcRun arith prim allowed history manager) (hallowed : allowed history manager op)
      (hstep : manager.step arith prim op = some (next, answer)) :
      HtlcRun arith prim allowed (history ++ [(op, answer)]) next

/-- An addition takes an id that no payment of the channel had, and neither the id after it nor
the total of its direction exceeds a `u64`. -/
def Collisionless (history : HtlcHistory) (manager : HtlcManager) : HtlcOp → Prop
  | .addOutgoing _ amount _ => manager.nextId + 1 < 2 ^ 64 ∧
      (manager.pendingAmounts .outgoing).sum + amount < 2 ^ 64
  | .addIncoming htlcId _ amount _ => htlcId ∉ history.addedIds ∧ htlcId + 1 < 2 ^ 64 ∧
      (manager.pendingAmounts .incoming).sum + amount < 2 ^ 64
  | _ => True

instance (history : HtlcHistory) (manager : HtlcManager) (op : HtlcOp) :
    Decidable (Collisionless history manager op) :=
  match op with
  | .addOutgoing _ _ _ => inferInstanceAs (Decidable (_ ∧ _))
  | .addIncoming _ _ _ _ => inferInstanceAs (Decidable (_ ∧ _))
  | .fulfill _ _ => .isTrue trivial
  | .expire _ _ => .isTrue trivial
  | .resolve _ => .isTrue trivial
  | .gcResolved => .isTrue trivial

/-- The entries of all other ids stay, and in place. -/
def OnlyNamed (htlcId : Nat) (manager next : HtlcManager) : Prop :=
  List.Forall₂ (fun before after => after.htlcId = before.htlcId ∧
    (before.htlcId ≠ htlcId → after = before)) manager.htlcs next.htlcs

/-- What an operation may change. -/
def ChangesOnly (manager next : HtlcManager) : HtlcOp → Prop
  | .addOutgoing _ _ _ => ∃ htlc : ListedHtlc, htlc.htlcId = manager.nextId ∧
      next.htlcs = manager.htlcs ++ [htlc]
  | .addIncoming htlcId _ _ _ => ∃ htlc : ListedHtlc, htlc.htlcId = htlcId ∧
      next.htlcs = manager.htlcs ++ [htlc]
  | .fulfill htlcId _ => OnlyNamed htlcId manager next
  | .expire htlcId _ => OnlyNamed htlcId manager next
  | .resolve htlcId => OnlyNamed htlcId manager next
  | .gcResolved => next.htlcs = manager.htlcs.filter fun htlc => htlc.state ≠ .resolved

end Doli.Channels
