import Doli.Core.ConditionCodec
import Doli.Core.Payload
import Doli.Lib.Checks
import Doli.Lib.Overflow

/-!
# The transactions of a channel

The outputs of a commitment are the delayed and revocable output of its owner, the plain one
of the counterparty and one for each payment in flight.  A commitment and a cooperative close
divide the capacity among them; the sums that are compared with the capacity are plain `u64`
additions.
-/

namespace Doli.Channels

open Doli.Core Doli.Lib

/-- Either side of the disjunction is a signature with one more condition. -/
def eitherSigned (left right : Hash) (leftCondition rightCondition : Condition) : Condition :=
  .or (.and (.signature left) leftCondition) (.and (.signature right) rightCondition)

/-- The counterparty sweeps with the revocation preimage, the owner waits. -/
def toLocalCondition (ownerPubkeyHash counterpartyPubkeyHash revocationHash : Hash)
    (disputeHeight : Nat) : Condition :=
  eitherSigned counterpartyPubkeyHash ownerPubkeyHash (.hashlock revocationHash)
    (.timelock disputeHeight)

def htlcOfferedCondition (localPubkeyHash remotePubkeyHash paymentHash : Hash)
    (expiryHeight : Nat) : Condition :=
  eitherSigned remotePubkeyHash localPubkeyHash (.hashlock paymentHash)
    (.timelockExpiry expiryHeight)

def htlcReceivedCondition (localPubkeyHash remotePubkeyHash paymentHash : Hash)
    (expiryHeight : Nat) : Condition :=
  eitherSigned localPubkeyHash remotePubkeyHash (.hashlock paymentHash)
    (.timelockExpiry expiryHeight)

/-- `Output::conditioned` -/
def conditioned (outputType : OutputType) (amount : Nat) (pubkeyHash : Hash)
    (condition : Condition) : Except ConditionError Output :=
  condition.encode.map fun extraData => ⟨outputType, amount, pubkeyHash, 0, extraData⟩

def toLocalOutput (amount : Nat) (ownerPubkeyHash counterpartyPubkeyHash revocationHash : Hash)
    (disputeHeight : Nat) : Except ConditionError Output :=
  conditioned .multisig amount ownerPubkeyHash
    (toLocalCondition ownerPubkeyHash counterpartyPubkeyHash revocationHash disputeHeight)

/-- `Output::normal` -/
def toRemoteOutput (amount : Nat) (remotePubkeyHash : Hash) : Output :=
  ⟨.normal, amount, remotePubkeyHash, 0, []⟩

def htlcOfferedOutput (amount : Nat) (localPubkeyHash remotePubkeyHash paymentHash : Hash)
    (expiryHeight : Nat) : Except ConditionError Output :=
  conditioned .htlc amount localPubkeyHash
    (htlcOfferedCondition localPubkeyHash remotePubkeyHash paymentHash expiryHeight)

def htlcReceivedOutput (amount : Nat) (localPubkeyHash remotePubkeyHash paymentHash : Hash)
    (expiryHeight : Nat) : Except ConditionError Output :=
  conditioned .htlc amount localPubkeyHash
    (htlcReceivedCondition localPubkeyHash remotePubkeyHash paymentHash expiryHeight)

/-! ## What is written -/

theorem conditioned_eq_ok {outputType : OutputType} {amount : Nat} {pubkeyHash : Hash}
    {condition : Condition} {output : Output} :
    conditioned outputType amount pubkeyHash condition = .ok output ↔
      ∃ extraData, condition.encode = .ok extraData ∧
        output = ⟨outputType, amount, pubkeyHash, 0, extraData⟩ := by
  unfold conditioned
  cases condition.encode with
  | error error => simp [Except.map]
  | ok extraData => simp [Except.map, eq_comm]

/-- What the encoder looks at in a lock. -/
structure Light (condition : Condition) : Prop where
  ops : condition.opsCount ≤ 1
  depth : condition.depth = 0
  limits : condition.validateStructure = .ok ()
  short : condition.encodeInner.length ≤ 33

theorem light_hashlock (hash : Hash) : Light (.hashlock hash) :=
  ⟨le_rfl, rfl, rfl, by simp [Condition.encodeInner]⟩

theorem light_timelock (height : Nat) : Light (.timelock height) :=
  ⟨Nat.zero_le 1, rfl, rfl, by simp [Condition.encodeInner]⟩

theorem light_timelockExpiry (height : Nat) : Light (.timelockExpiry height) :=
  ⟨Nat.zero_le 1, rfl, rfl, by simp [Condition.encodeInner]⟩

theorem encode_eitherSigned (left right : Hash) {leftCondition rightCondition : Condition}
    (hleft : Light leftCondition) (hright : Light rightCondition) :
    ∃ extraData,
      (eitherSigned left right leftCondition rightCondition).encode = .ok extraData := by
  have hops : ¬ maxConditionOps <
      (eitherSigned left right leftCondition rightCondition).opsCount := by
    have := hleft.ops
    have := hright.ops
    simp only [eitherSigned, Condition.opsCount, maxConditionOps]
    omega
  have hdepth : ¬ maxConditionDepth <
      (eitherSigned left right leftCondition rightCondition).depth := by
    simp only [eitherSigned, Condition.depth, hleft.depth, hright.depth, maxConditionDepth]
    omega
  have hvalid : (eitherSigned left right leftCondition rightCondition).validate = .ok () := by
    unfold Condition.validate
    rw [if_neg hops, if_neg hdepth]
    simp only [eitherSigned, Condition.validateStructure, hleft.limits, hright.limits]
    rfl
  have hlength : ¬ Condition.maxExtraDataSize < (UInt8.ofNat conditionVersion ::
      (eitherSigned left right leftCondition rightCondition).encodeInner).length := by
    have := hleft.short
    have := hright.short
    simp only [eitherSigned, Condition.encodeInner, List.length_cons, List.length_append,
      Hash.asBytes_length, Condition.maxExtraDataSize]
    omega
  unfold Condition.encode
  rw [hvalid]
  dsimp only
  rw [if_neg hlength]
  exact ⟨_, rfl⟩

theorem exists_conditioned {condition : Condition} {extraData : Bytes}
    (hencoded : condition.encode = .ok extraData) (outputType : OutputType) (amount : Nat)
    (pubkeyHash : Hash) : ∃ output, conditioned outputType amount pubkeyHash condition =
      .ok output :=
  ⟨_, conditioned_eq_ok.mpr ⟨extraData, hencoded, rfl⟩⟩

/-! ## The transactions -/

inductive ChannelError where
  | insufficientBalance (need available : Nat)
  | capacityMismatch (expected actual : Nat)
  | condition (error : ConditionError)
  deriving DecidableEq, Repr

structure ChannelBalance where
  localAmount : Nat
  remoteAmount : Nat
  deriving DecidableEq, Repr

inductive PaymentDirection where
  | outgoing
  | incoming
  deriving DecidableEq, Repr

structure InFlightHtlc where
  paymentHash : Hash
  amount : Nat
  expiryHeight : Nat
  direction : PaymentDirection
  deriving DecidableEq, Repr

structure CommitmentPair where
  number : Nat
  balance : ChannelBalance
  revocationPreimage : Bytes
  revocationHash : Hash
  remoteRevocationHash : Option Hash
  htlcs : List InFlightHtlc
  deriving DecidableEq, Repr

/-! ## Building -/

/-- `Input::new` -/
def newInput (prevTxHash : Hash) (outputIndex : Nat) : Input :=
  ⟨prevTxHash, outputIndex, ⟨0⟩, .all, 0, none⟩

/-- `Transaction::new_transfer` -/
def newTransfer (inputs : List Input) (outputs : List Output) : Transaction :=
  ⟨1, .transfer, inputs, outputs, []⟩

def ChannelBalance.total (arith : WordArith) (balance : ChannelBalance) : Option Nat :=
  arith.add balance.localAmount balance.remoteAmount

def unlessZero (amount : Nat) (output : Except ConditionError Output) :
    Except ConditionError (List Output) :=
  if 0 < amount then output.map fun written => [written] else .ok []

def htlcOutput (localPubkeyHash remotePubkeyHash : Hash) (htlc : InFlightHtlc) :
    Except ConditionError Output :=
  match htlc.direction with
  | .outgoing => htlcOfferedOutput htlc.amount localPubkeyHash remotePubkeyHash
      htlc.paymentHash htlc.expiryHeight
  | .incoming => htlcReceivedOutput htlc.amount localPubkeyHash remotePubkeyHash
      htlc.paymentHash htlc.expiryHeight

/-- The outputs of a commitment, with what the fee leaves its owner. -/
def CommitmentPair.commitmentOutputs (pair : CommitmentPair)
    (localPubkeyHash remotePubkeyHash : Hash) (disputeHeight localAfterFee : Nat) :
    Except ConditionError (List Output) := do
  let toLocal ← unlessZero localAfterFee (toLocalOutput localAfterFee localPubkeyHash
    remotePubkeyHash pair.revocationHash disputeHeight)
  let toRemote ← unlessZero pair.balance.remoteAmount
    (.ok (toRemoteOutput pair.balance.remoteAmount remotePubkeyHash))
  let pending ← pair.htlcs.mapM (htlcOutput localPubkeyHash remotePubkeyHash)
  .ok (toLocal ++ toRemote ++ pending)

def closeOutputs (localPubkeyHash remotePubkeyHash : Hash) (balance : ChannelBalance)
    (localAfterFee : Nat) : Except ConditionError (List Output) := do
  let toLocal ← unlessZero localAfterFee (.ok (toRemoteOutput localAfterFee localPubkeyHash))
  let toRemote ← unlessZero balance.remoteAmount
    (.ok (toRemoteOutput balance.remoteAmount remotePubkeyHash))
  .ok (toLocal ++ toRemote)

section

variable (arith : WordArith)

/-- The checks that every spending of the funding output makes, and the fee. -/
def spendFunding (funding : Input) (balance : ChannelBalance) (actual capacity fee : Nat)
    (divide : Nat → Except ConditionError (List Output)) :
    Option (Except ChannelError Transaction) :=
  if actual ≠ capacity then some (.error (.capacityMismatch capacity actual))
  else if 0 < fee ∧ balance.localAmount < fee then
    some (.error (.insufficientBalance fee balance.localAmount))
  else
    (arith.sub balance.localAmount fee).map fun localAfterFee =>
      match divide localAfterFee with
      | .error error => .error (.condition error)
      | .ok [] => .error (.insufficientBalance 1 0)
      | .ok outputs => .ok (newTransfer [funding] outputs)

/-- The run of a build ends without a value where its arithmetic does. -/
def CommitmentPair.buildLocalCommitment (pair : CommitmentPair) (fundingTxHash : Hash)
    (fundingOutputIndex : Nat) (localPubkeyHash remotePubkeyHash : Hash)
    (disputeHeight capacity fee : Nat) : Option (Except ChannelError Transaction) := do
  let htlcTotal ← arith.sum (pair.htlcs.map (·.amount)) 0
  let total ← pair.balance.total arith
  let actual ← arith.add total htlcTotal
  spendFunding arith (newInput fundingTxHash fundingOutputIndex) pair.balance actual capacity
    fee (pair.commitmentOutputs localPubkeyHash remotePubkeyHash disputeHeight)

def buildCooperativeClose (fundingTxHash : Hash) (fundingOutputIndex : Nat)
    (localPubkeyHash remotePubkeyHash : Hash) (balance : ChannelBalance)
    (capacity fee : Nat) : Option (Except ChannelError Transaction) := do
  let actual ← balance.total arith
  spendFunding arith (newInput fundingTxHash fundingOutputIndex) balance actual capacity fee
    (closeOutputs localPubkeyHash remotePubkeyHash balance)

end

/-! ## What an output pays -/

/-- At most one output, to the party, of the whole amount. -/
structure Pays (outputs : List Output) (pubkeyHash : Hash) (amount : Nat) : Prop where
  single : outputs.length ≤ 1
  owner : ∀ output ∈ outputs, output.pubkeyHash = pubkeyHash
  paid : (outputs.map Output.amount).sum = amount

theorem pays_unlessZero {amount : Nat} {output : Except ConditionError Output}
    {outputs : List Output} {pubkeyHash : Hash}
    (hok : unlessZero amount output = .ok outputs)
    (hpaid : ∀ written, output = .ok written →
      written.pubkeyHash = pubkeyHash ∧ written.amount = amount) :
    Pays outputs pubkeyHash amount := by
  unfold unlessZero at hok
  split at hok
  case isTrue =>
    cases output with
    | error error => cases hok
    | ok written =>
        cases hok
        obtain ⟨howner, hamount⟩ := hpaid written rfl
        exact ⟨le_rfl, by simpa using howner, by simpa using hamount⟩
  case isFalse hzero =>
    cases hok
    exact ⟨Nat.zero_le 1, by simp, by simp; omega⟩

theorem amount_of_conditioned {outputType : OutputType} {amount : Nat} {pubkeyHash : Hash}
    {condition : Condition} {output : Output}
    (hok : conditioned outputType amount pubkeyHash condition = .ok output) :
    output.pubkeyHash = pubkeyHash ∧ output.amount = amount := by
  obtain ⟨extraData, -, rfl⟩ := conditioned_eq_ok.mp hok
  exact ⟨rfl, rfl⟩

theorem pays_toRemote {amount : Nat} {pubkeyHash : Hash} {outputs : List Output}
    (hok : unlessZero amount (.ok (toRemoteOutput amount pubkeyHash)) = .ok outputs) :
    Pays outputs pubkeyHash amount := by
  apply pays_unlessZero hok
  intro written hwritten
  cases hwritten
  exact ⟨rfl, rfl⟩

theorem amount_of_htlcOutput {localPubkeyHash remotePubkeyHash : Hash} {htlc : InFlightHtlc}
    {output : Output} (hok : htlcOutput localPubkeyHash remotePubkeyHash htlc = .ok output) :
    output.amount = htlc.amount := by
  unfold htlcOutput at hok
  split at hok
  · exact (amount_of_conditioned hok).2
  · exact (amount_of_conditioned hok).2

theorem forall₂_of_mapM {α β ε : Type} {write : α → Except ε β} {items : List α}
    {written : List β} (hok : items.mapM write = .ok written) :
    List.Forall₂ (fun item output => write item = .ok output) items written := by
  induction items generalizing written with
  | nil =>
      cases hok
      exact .nil
  | cons item items ih =>
      rw [List.mapM_cons] at hok
      obtain ⟨output, houtput, hok⟩ := bind_eq_ok.mp hok
      obtain ⟨outputs, houtputs, hok⟩ := bind_eq_ok.mp hok
      cases hok
      exact .cons houtput (ih houtputs)

theorem exists_of_mem_mapM {α β ε : Type} {write : α → Except ε β} {items : List α}
    {written : List β} (hok : items.mapM write = .ok written) {output : β}
    (hmem : output ∈ written) : ∃ item ∈ items, write item = .ok output := by
  obtain ⟨hlength, hwritten⟩ := List.forall₂_iff_get.mp (forall₂_of_mapM hok)
  obtain ⟨⟨position, hposition⟩, rfl⟩ := List.get_of_mem hmem
  have hitem : position < items.length := by omega
  exact ⟨items.get ⟨position, hitem⟩, List.get_mem items _,
    hwritten position hitem hposition⟩

theorem exists_mapM {α β ε : Type} {write : α → Except ε β} (items : List α)
    (htotal : ∀ item ∈ items, ∃ output, write item = .ok output) :
    ∃ outputs, items.mapM write = .ok outputs := by
  induction items with
  | nil => exact ⟨[], rfl⟩
  | cons item items ih =>
      obtain ⟨hfirst, hothers⟩ := List.forall_mem_cons.mp htotal
      obtain ⟨output, houtput⟩ := hfirst
      obtain ⟨outputs, houtputs⟩ := ih hothers
      rw [List.mapM_cons, houtput]
      simp only [bind, Except.bind, houtputs]
      exact ⟨_, rfl⟩

/-- The parts of a transaction that spends the funding output. -/
def Divides (localPubkeyHash remotePubkeyHash : Hash) (balance : ChannelBalance)
    (htlcs : List InFlightHtlc) (localAfterFee : Nat) (outputs : List Output) : Prop :=
  ∃ own other pending, outputs = own ++ other ++ pending ∧
    Pays own localPubkeyHash localAfterFee ∧
      Pays other remotePubkeyHash balance.remoteAmount ∧
        List.Forall₂ (fun htlc output => htlcOutput localPubkeyHash remotePubkeyHash htlc =
          .ok output) htlcs pending

theorem divides_commitmentOutputs {pair : CommitmentPair}
    {localPubkeyHash remotePubkeyHash : Hash} {disputeHeight localAfterFee : Nat}
    {outputs : List Output}
    (hok : pair.commitmentOutputs localPubkeyHash remotePubkeyHash disputeHeight
      localAfterFee = .ok outputs) :
    Divides localPubkeyHash remotePubkeyHash pair.balance pair.htlcs localAfterFee
      outputs := by
  obtain ⟨own, hown, hok⟩ := bind_eq_ok.mp hok
  obtain ⟨other, hother, hok⟩ := bind_eq_ok.mp hok
  obtain ⟨pending, hpending, hok⟩ := bind_eq_ok.mp hok
  cases hok
  refine ⟨own, other, pending, rfl, ?_, pays_toRemote hother, forall₂_of_mapM hpending⟩
  exact pays_unlessZero hown fun written hwritten => amount_of_conditioned hwritten

theorem divides_closeOutputs {localPubkeyHash remotePubkeyHash : Hash}
    {balance : ChannelBalance} {localAfterFee : Nat} {outputs : List Output}
    (hok : closeOutputs localPubkeyHash remotePubkeyHash balance localAfterFee =
      .ok outputs) :
    Divides localPubkeyHash remotePubkeyHash balance [] localAfterFee outputs := by
  obtain ⟨own, hown, hok⟩ := bind_eq_ok.mp hok
  obtain ⟨other, hother, hok⟩ := bind_eq_ok.mp hok
  cases hok
  exact ⟨own, other, [], (List.append_nil _).symm, pays_toRemote hown,
    pays_toRemote hother, .nil⟩

theorem amounts_of_forall₂ {localPubkeyHash remotePubkeyHash : Hash}
    {htlcs : List InFlightHtlc} {pending : List Output}
    (hpending : List.Forall₂ (fun htlc output =>
      htlcOutput localPubkeyHash remotePubkeyHash htlc = .ok output) htlcs pending) :
    (pending.map Output.amount).sum = (htlcs.map (·.amount)).sum := by
  induction hpending with
  | nil => rfl
  | cons houtput hpending ih =>
      rw [List.map_cons, List.map_cons, List.sum_cons, List.sum_cons, ih,
        amount_of_htlcOutput houtput]

theorem Divides.sum {localPubkeyHash remotePubkeyHash : Hash} {balance : ChannelBalance}
    {htlcs : List InFlightHtlc} {localAfterFee : Nat} {outputs : List Output}
    (hdivides : Divides localPubkeyHash remotePubkeyHash balance htlcs localAfterFee
      outputs) :
    (outputs.map Output.amount).sum =
      localAfterFee + balance.remoteAmount + (htlcs.map (·.amount)).sum := by
  obtain ⟨own, other, pending, rfl, hown, hother, hpending⟩ := hdivides
  rw [List.map_append, List.map_append, List.sum_append, List.sum_append, hown.paid,
    hother.paid, amounts_of_forall₂ hpending]

theorem Divides.pending_length {localPubkeyHash remotePubkeyHash : Hash}
    {balance : ChannelBalance} {htlcs : List InFlightHtlc} {localAfterFee : Nat}
    {outputs : List Output}
    (hdivides : Divides localPubkeyHash remotePubkeyHash balance htlcs localAfterFee
      outputs) : htlcs.length ≤ outputs.length := by
  obtain ⟨own, other, pending, rfl, -, -, hpending⟩ := hdivides
  rw [hpending.length_eq, List.length_append]
  exact Nat.le_add_left _ _

theorem mem_unlessZero {amount : Nat} {output : Except ConditionError Output}
    {outputs : List Output} (hok : unlessZero amount output = .ok outputs) {written : Output}
    (hmem : written ∈ outputs) : output = .ok written := by
  unfold unlessZero at hok
  split at hok
  case isTrue =>
    cases output with
    | error error => cases hok
    | ok first =>
        cases hok
        rw [List.mem_singleton.mp hmem]
  case isFalse =>
    cases hok
    exact absurd hmem List.not_mem_nil

/-! ## No condition is refused -/

theorem exists_htlcOutput (localPubkeyHash remotePubkeyHash : Hash) (htlc : InFlightHtlc) :
    ∃ output, htlcOutput localPubkeyHash remotePubkeyHash htlc = .ok output := by
  have hencoded : ∀ left right, ∃ extraData, (eitherSigned left right
      (.hashlock htlc.paymentHash) (.timelockExpiry htlc.expiryHeight)).encode =
        .ok extraData := fun left right =>
    encode_eitherSigned left right (light_hashlock _) (light_timelockExpiry _)
  unfold htlcOutput
  split
  · obtain ⟨extraData, hextra⟩ := hencoded remotePubkeyHash localPubkeyHash
    exact exists_conditioned hextra .htlc htlc.amount localPubkeyHash
  · obtain ⟨extraData, hextra⟩ := hencoded localPubkeyHash remotePubkeyHash
    exact exists_conditioned hextra .htlc htlc.amount localPubkeyHash

theorem exists_unlessZero {amount : Nat} {output : Except ConditionError Output}
    (hwritten : ∃ written, output = .ok written) :
    ∃ outputs, unlessZero amount output = .ok outputs := by
  obtain ⟨written, rfl⟩ := hwritten
  unfold unlessZero
  split
  · exact ⟨_, rfl⟩
  · exact ⟨_, rfl⟩

theorem exists_commitmentOutputs (pair : CommitmentPair)
    (localPubkeyHash remotePubkeyHash : Hash) (disputeHeight localAfterFee : Nat) :
    ∃ outputs, pair.commitmentOutputs localPubkeyHash remotePubkeyHash disputeHeight
      localAfterFee = .ok outputs := by
  obtain ⟨extraData, hextra⟩ := encode_eitherSigned remotePubkeyHash localPubkeyHash
    (light_hashlock pair.revocationHash) (light_timelock disputeHeight)
  obtain ⟨own, hown⟩ := exists_unlessZero (exists_conditioned hextra .multisig localAfterFee
    localPubkeyHash)
  obtain ⟨other, hother⟩ : ∃ outputs, unlessZero pair.balance.remoteAmount
      (.ok (toRemoteOutput pair.balance.remoteAmount remotePubkeyHash)) = .ok outputs :=
    exists_unlessZero ⟨_, rfl⟩
  obtain ⟨pending, hpending⟩ := exists_mapM pair.htlcs fun htlc _ =>
    exists_htlcOutput localPubkeyHash remotePubkeyHash htlc
  refine ⟨own ++ other ++ pending, ?_⟩
  unfold CommitmentPair.commitmentOutputs
  exact bind_eq_ok.mpr ⟨own, hown, bind_eq_ok.mpr ⟨other, hother,
    bind_eq_ok.mpr ⟨pending, hpending, rfl⟩⟩⟩

end Doli.Channels
