import Doli.Lib.Worth
import Doli.Validation.PoolRules

/-!
# Output authority

Which pools a transaction may consume, and what it may create of every fungible asset
and of the shares of every pool: no more than it consumes, but for the keys of its own
pool and for one fresh asset anchored on its first input.
-/

namespace Doli.Validation

open Doli.Core Doli.Lib

inductive Key where
  | fa (id : Hash)
  | lp (id : Hash)
  deriving DecidableEq, Repr

/-- The derived order: assets before shares, and then the bytes of the ids. -/
def Key.le : Key → Key → Bool
  | .fa first, .fa second => first.word ≤ second.word
  | .fa _, .lp _ => true
  | .lp _, .fa _ => false
  | .lp first, .lp second => first.word ≤ second.word

/-- One output under its key; `supply` is the declared total of an asset. -/
structure KeyRow where
  key : Key
  supply : Nat
  amount : Nat
  deriving DecidableEq, Repr

structure Tally where
  input : Nat
  hasInput : Bool
  output : Nat
  supplies : List Nat

def authorityError (code message : String) : ValidationError :=
  .invalidTransaction s!"[ERRTX-{code}] {message}"

/-- A transaction of the three types consumes a pool. -/
def needsPool : TxType → Bool
  | .swap => true
  | .addLiquidity => true
  | .removeLiquidity => true
  | _ => false

def keyOf (output : Output) : Except ValidationError (Option KeyRow) :=
  match output.outputType with
  | .fungibleAsset =>
      match output.fungibleAssetMetadata with
      | some (id, supply, _) => .ok (some ⟨.fa id, supply, output.amount⟩)
      | none => .error (authorityError "AUTH003" "malformed FungibleAsset metadata")
  | .lpShare =>
      match output.lpShareMetadata with
      | some id => .ok (some ⟨.lp id, 0, output.amount⟩)
      | none => .error (authorityError "AUTH003" "malformed LPShare metadata")
  | _ => .ok none

def keyRows : List Output → Except ValidationError (List KeyRow)
  | [] => .ok []
  | output :: outputs => do
      let row ← keyOf output
      let rows ← keyRows outputs
      return row.toList ++ rows

def rowsAt (rows : List KeyRow) (key : Key) : List KeyRow :=
  rows.filter fun row => row.key = key

def tallyOf (consumed created : List KeyRow) (key : Key) : Tally where
  input := total KeyRow.amount (rowsAt consumed key)
  hasInput := !(rowsAt consumed key).isEmpty
  output := total KeyRow.amount (rowsAt created key)
  supplies := (rowsAt created key).map KeyRow.supply

/-- The keys of the tally in the order of the map. -/
def tallyKeys (consumed created : List KeyRow) : List Key :=
  (((consumed ++ created).map KeyRow.key).dedup).insertionSort fun first second =>
    first.le second

def checkPoolInputs (tx : Transaction) (consumed : List Output) : Verdict :=
  if needsPool tx.txType then
    refuseIf (poolIndices consumed ≠ [0])
      (authorityError "AUTH002" "must consume exactly one Pool at input 0")
  else
    refuseIf (poolIndices consumed ≠ [])
      (authorityError "AUTH002" "may not consume Pool inputs")

/-- The pool whose own keys the AMM rules bind. -/
def ownPool (tx : Transaction) (consumed : List Output) : Option Output :=
  if tx.txType = .createPool then tx.outputs[0]? else consumed[0]?

/-- The keys bound by the AMM rules for the pool of this transaction. -/
def ammExempt (tx : Transaction) (consumed : List Output) :
    Except ValidationError (List Key) :=
  if isAmm tx.txType then
    (orRefuse ((ownPool tx consumed).bind Output.poolMetadata)
      (authorityError "AUTH002" "pool metadata missing or malformed")).map fun pool =>
        [.fa pool.assetBId, .lp pool.poolId]
  else .ok []

def checkIssuance (prim : Primitives) (tx : Transaction) (id : Hash) (tally : Tally)
    (fresh : Nat) : Verdict := do
  refuseIf (tx.txType ≠ .transfer)
    (authorityError "AUTH004" s!"may not issue asset (outputs {tally.output}, no inputs)")
  refuseIf (1 < fresh) (authorityError "AUTH004" "second fresh asset in one tx")
  let first ← orRefuse tx.inputs[0]? (authorityError "AUTH004" "issuance without inputs")
  refuseIf (id ≠ Output.computeAssetId prim first.prevTxHash first.outputIndex)
    (authorityError "AUTH004" "asset without inputs is not anchored on input 0")
  refuseIf (tally.supplies.any fun supply => some supply ≠ tally.supplies[0]?)
    (authorityError "AUTH004" "asset issued with non-uniform total_supply")
  refuseIf (tally.supplies[0]?.getD 0 < tally.output)
    (authorityError "AUTH004" s!"asset issues {tally.output} above total_supply")

/-- `fresh` counts the assets without inputs seen so far. -/
def checkKeys (prim : Primitives) (tx : Transaction) (exempt : List Key)
    (tally : Key → Tally) : List Key → Nat → Verdict
  | [], _ => .ok ()
  | key :: keys, fresh =>
      if key ∈ exempt then checkKeys prim tx exempt tally keys fresh
      else
        match key, (tally key).hasInput with
        | .fa id, false => do
            checkIssuance prim tx id (tally key) (fresh + 1)
            checkKeys prim tx exempt tally keys (fresh + 1)
        | _, _ => do
            refuseIf ((tally key).input < (tally key).output)
              (authorityError "AUTH003"
                s!"outputs {(tally key).output} exceed inputs {(tally key).input}")
            checkKeys prim tx exempt tally keys fresh

def checkValueAuthority (ctx : ValidationContext) (tx : Transaction)
    (consumed : List Output) : Verdict :=
  if ctx.currentHeight < ctx.incI234ActivationHeight then .ok ()
  else do
    checkPoolInputs tx consumed
    let exempt ← ammExempt tx consumed
    let inputs ← keyRows consumed
    let outputs ← keyRows tx.outputs
    checkKeys ctx.crypto.primitives tx exempt (tallyOf inputs outputs)
      (tallyKeys inputs outputs) 0

/-! ## What acceptance gives -/

/-- What an output holds of a key. -/
def Key.amount : Key → Output → Nat
  | .fa id, output => output.assetAmount id
  | .lp id, output => output.lpAmount id

/-- A new asset whose id is derived from the first input of a Transfer. -/
def FreshIssuance (prim : Primitives) (tx : Transaction) (asset : Hash) : Prop :=
  tx.txType = .transfer ∧ ∃ first, tx.inputs[0]? = some first ∧
    asset = Output.computeAssetId prim first.prevTxHash first.outputIndex

theorem amount_keyOf {output : Output} {row : Option KeyRow} (hrow : keyOf output = .ok row)
    (key : Key) : total KeyRow.amount (rowsAt row.toList key) = key.amount output := by
  unfold keyOf at hrow
  split at hrow
  case h_1 htype =>
    split at hrow
    case h_2 => simp at hrow
    case h_1 id supply ticker hasset =>
      cases hrow
      cases key with
      | fa other =>
          by_cases hid : id = other
          · simp [rowsAt, Key.amount, Output.assetAmount_of_metadata hasset, hid]
          · simp [rowsAt, Key.amount, Output.assetAmount_of_metadata hasset, hid]
      | lp other => simp [rowsAt, Key.amount, Output.lpAmount_of_ne, htype]
  case h_2 htype =>
    split at hrow
    case h_2 => simp at hrow
    case h_1 id hshare =>
      cases hrow
      cases key with
      | fa other => simp [rowsAt, Key.amount, Output.assetAmount_of_ne, htype]
      | lp other =>
          by_cases hid : id = other
          · simp [rowsAt, Key.amount, Output.lpAmount, hshare, hid]
          · simp [rowsAt, Key.amount, Output.lpAmount, hshare, hid]
  case h_3 hasset hshare =>
    cases hrow
    cases key with
    | fa other => exact (Output.assetAmount_of_ne hasset other).symm
    | lp other => exact (Output.lpAmount_of_ne hshare other).symm

theorem total_rowsAt {outputs : List Output} {rows : List KeyRow}
    (hrows : keyRows outputs = .ok rows) (key : Key) :
    total KeyRow.amount (rowsAt rows key) = total key.amount outputs := by
  induction outputs generalizing rows with
  | nil =>
      cases hrows
      rfl
  | cons output outputs ih =>
      simp only [keyRows, bind_eq_ok, pure, Except.pure, Except.ok.injEq] at hrows
      obtain ⟨row, hrow, rest, hrest, rfl⟩ := hrows
      have hhead := amount_keyOf hrow key
      simp only [rowsAt] at hhead ih ⊢
      rw [List.filter_append, total_append, total_cons, hhead, ih hrest]

theorem metadata_of_keyRows {outputs : List Output} {rows : List KeyRow}
    (hrows : keyRows outputs = .ok rows) : ∀ output ∈ outputs,
      (output.outputType = .fungibleAsset → output.fungibleAssetMetadata.isSome) ∧
        (output.outputType = .lpShare → output.lpShareMetadata.isSome) := by
  induction outputs generalizing rows with
  | nil => simp
  | cons output outputs ih =>
      simp only [keyRows, bind_eq_ok, pure, Except.pure, Except.ok.injEq] at hrows
      obtain ⟨row, hrow, rest, hrest, rfl⟩ := hrows
      intro other hother
      rcases List.mem_cons.mp hother with rfl | hother
      · constructor
        · intro htype
          cases hasset : other.fungibleAssetMetadata with
          | none => simp [keyOf, htype, hasset] at hrow
          | some metadata => rfl
        · intro htype
          cases hshare : other.lpShareMetadata with
          | none => simp [keyOf, htype, hshare] at hrow
          | some id => rfl
      · exact ih hrest other hother

theorem fresh_of_checkIssuance {prim : Primitives} {tx : Transaction} {id : Hash}
    {tally : Tally} {fresh : Nat} (hok : checkIssuance prim tx id tally fresh = .ok ()) :
    FreshIssuance prim tx id := by
  simp only [checkIssuance, bind_eq_ok, exists_unit, refuseIf_eq_ok, orRefuse_eq_ok,
    not_not] at hok
  obtain ⟨htype, -, first, hfirst, hanchored, -, -⟩ := hok
  exact ⟨htype, first, hfirst, hanchored⟩

theorem checkKeys_ok {prim : Primitives} {tx : Transaction} {exempt : List Key}
    {tally : Key → Tally} {keys : List Key} {fresh : Nat}
    (hok : checkKeys prim tx exempt tally keys fresh = .ok ()) :
    ∀ key ∈ keys, key ∉ exempt → (tally key).output ≤ (tally key).input ∨
      ∃ id, key = .fa id ∧ FreshIssuance prim tx id := by
  induction keys generalizing fresh with
  | nil => simp
  | cons head keys ih =>
      intro key hkey hbound
      unfold checkKeys at hok
      split at hok
      case isTrue hexempt =>
        rcases List.mem_cons.mp hkey with rfl | hkey
        · exact absurd hexempt hbound
        · exact ih hok key hkey hbound
      case isFalse =>
        split at hok
        case h_1 id =>
          obtain ⟨hissued, hrest⟩ := seq_eq_ok.mp hok
          rcases List.mem_cons.mp hkey with rfl | hkey
          · exact .inr ⟨_, rfl, fresh_of_checkIssuance hissued⟩
          · exact ih hrest key hkey hbound
        case h_2 =>
          obtain ⟨hcovered, hrest⟩ := seq_eq_ok.mp hok
          rcases List.mem_cons.mp hkey with rfl | hkey
          · exact .inl (Nat.not_lt.mp (refuseIf_eq_ok.mp hcovered))
          · exact ih hrest key hkey hbound

/-- The verdict of the value authority, from its activation height on. -/
structure Authorized (prim : Primitives) (tx : Transaction) (consumed : List Output) :
    Prop where
  pools : poolIndices consumed = if needsPool tx.txType then [0] else []
  own : isAmm tx.txType = true → ∃ pool, (ownPool tx consumed).bind Output.poolMetadata = some pool
  readable : ∀ output ∈ consumed ++ tx.outputs,
    (output.outputType = .fungibleAsset → output.fungibleAssetMetadata.isSome) ∧
      (output.outputType = .lpShare → output.lpShareMetadata.isSome)
  covered : ∀ key : Key, (∀ pool, isAmm tx.txType = true →
      (ownPool tx consumed).bind Output.poolMetadata = some pool →
        key ≠ .fa pool.assetBId ∧ key ≠ .lp pool.poolId) →
    total key.amount tx.outputs ≤ total key.amount consumed ∨
      ∃ id, key = .fa id ∧ FreshIssuance prim tx id

section

variable {prim : Primitives} {tx : Transaction} {consumed : List Output}

theorem Authorized.asset_covered (hauthorized : Authorized prim tx consumed) {asset : Hash}
    (hother : ∀ pool, isAmm tx.txType = true →
      (ownPool tx consumed).bind Output.poolMetadata = some pool → asset ≠ pool.assetBId) :
    total (Output.assetAmount asset) tx.outputs ≤ total (Output.assetAmount asset) consumed ∨
      FreshIssuance prim tx asset := by
  have hbound := hauthorized.covered (.fa asset) fun pool hamm hpool =>
    ⟨by simpa using hother pool hamm hpool, by simp⟩
  apply hbound.imp id
  rintro ⟨issued, hsame, hfresh⟩
  cases hsame
  exact hfresh

theorem Authorized.shares_covered (hauthorized : Authorized prim tx consumed) {poolId : Hash}
    (hother : ∀ pool, isAmm tx.txType = true →
      (ownPool tx consumed).bind Output.poolMetadata = some pool → poolId ≠ pool.poolId) :
    total (Output.lpAmount poolId) tx.outputs ≤ total (Output.lpAmount poolId) consumed := by
  have hbound := hauthorized.covered (.lp poolId) fun pool hamm hpool =>
    ⟨by simp, by simpa using hother pool hamm hpool⟩
  apply hbound.resolve_right
  rintro ⟨issued, hsame, -⟩
  contradiction

end

theorem checkPoolInputs_ok {tx : Transaction} {consumed : List Output}
    (hok : checkPoolInputs tx consumed = .ok ()) :
    poolIndices consumed = if needsPool tx.txType then [0] else [] := by
  unfold checkPoolInputs at hok
  split at hok
  case isTrue hneeds => simpa [hneeds] using hok
  case isFalse hneeds => simpa [hneeds] using hok

theorem mem_tallyKeys {consumed created : List KeyRow} {key : Key} :
    key ∈ tallyKeys consumed created ↔ ∃ row ∈ consumed ++ created, row.key = key := by
  rw [tallyKeys, List.mem_insertionSort, List.mem_dedup, List.mem_map]

theorem authorized_of_checkValueAuthority {ctx : ValidationContext} {tx : Transaction}
    {consumed : List Output} (hactive : ctx.incI234ActivationHeight ≤ ctx.currentHeight)
    (hok : checkValueAuthority ctx tx consumed = .ok ()) :
    Authorized ctx.crypto.primitives tx consumed := by
  rw [checkValueAuthority, if_neg (Nat.not_lt.mpr hactive)] at hok
  simp only [bind_eq_ok, exists_unit] at hok
  obtain ⟨hpools, exempt, hexempt, inputs, hinputs, outputs, houtputs, hkeys⟩ := hok
  have hown : isAmm tx.txType = true → ∃ pool,
      (ownPool tx consumed).bind Output.poolMetadata = some pool ∧
        exempt = [.fa pool.assetBId, .lp pool.poolId] := by
    intro hamm
    rw [ammExempt, if_pos hamm] at hexempt
    cases hpool : (ownPool tx consumed).bind Output.poolMetadata with
    | none => simp [hpool, orRefuse, Except.map] at hexempt
    | some pool =>
        simp only [hpool, orRefuse, Option.elim_some, Except.map, Except.ok.injEq] at hexempt
        exact ⟨pool, rfl, hexempt.symm⟩
  constructor
  case pools => exact checkPoolInputs_ok hpools
  case own => exact fun hamm => (hown hamm).imp fun _ hpool => hpool.1
  case readable =>
    intro output houtput
    rcases List.mem_append.mp houtput with hconsumed | hcreated
    · exact metadata_of_keyRows hinputs output hconsumed
    · exact metadata_of_keyRows houtputs output hcreated
  case covered =>
    intro key hbound
    have hnot : key ∉ exempt := by
      cases hamm : isAmm tx.txType with
      | false =>
          simp only [ammExempt, hamm, Bool.false_eq_true, if_false, Except.ok.injEq] at hexempt
          simp [← hexempt]
      | true =>
          obtain ⟨pool, hpool, rfl⟩ := hown hamm
          simpa using hbound pool hamm hpool
    rw [← total_rowsAt hinputs, ← total_rowsAt houtputs]
    by_cases hkey : key ∈ tallyKeys inputs outputs
    · exact checkKeys_ok hkeys key hkey hnot
    · left
      have hnone : rowsAt outputs key = [] := by
        rw [rowsAt, List.filter_eq_nil_iff]
        intro row hrow hsame
        exact hkey (mem_tallyKeys.mpr
          ⟨row, List.mem_append_right _ hrow, of_decide_eq_true hsame⟩)
      simp [hnone]

end Doli.Validation
