import Doli.Mempool.Packages

/-!
# Packages over a run

The mempool runs beside a UTXO set that only blocks change.  A parent that leaves without
its child is all that can break a package, with a sum of fees past the range of a `u64`.
-/

namespace Doli

open Doli.Core Doli.Lib Doli.Storage
open Validation (sampleSpend samplePaid)

namespace Mempool

variable {pool next : Mempool} {db : StateDb} {hash txHash : Hash} {entry : MempoolEntry}

/-! ## The ancestors and the fee of an admitted transaction -/

/-- What an input is worth as the output of a resident and in the UTXO set. -/
def inputWorth (pool : Mempool) (db : StateDb) (input : Input) : Nat :=
  ((parentOutput pool input).elim 0 fun row => row.2.doliValue) +
    (db.getUtxo (inputOutpoint input)).elim 0 fun utxo => utxo.output.doliValue

/-- What the inputs come to: their worth, and every resident ancestor. -/
structure Resolved (pool : Mempool) (db : StateDb) (inputs : List Input)
    (sum : Nat × Finset Hash) : Prop where
  worth : sum.1 ≤ total (inputWorth pool db) inputs
  found : ∀ input ∈ inputs,
    (parentOutput pool input).isSome ∨ (db.getUtxo (inputOutpoint input)).isSome
  ancestors : ∀ ancestor, ancestor ∈ sum.2 ↔ ∃ input ∈ inputs,
    (parentOutput pool input).isSome ∧
      (ancestor = input.prevTxHash ∨ ancestor ∈ pool.ancestorsAt input.prevTxHash)

theorem ancestorsAt_of_parentOutput {input : Input} {parent : MempoolEntry} {output : Output}
    (hparent : parentOutput pool input = some (parent, output)) :
    pool.ancestorsAt input.prevTxHash = parent.ancestors := by
  unfold parentOutput at hparent
  obtain ⟨found, hfound, houtput⟩ := Option.bind_eq_some_iff.mp hparent
  obtain ⟨_, _, hpair⟩ := Option.map_eq_some_iff.mp houtput
  rw [ancestorsAt, hfound, Option.elim_some, (Prod.mk.inj hpair).1]

section

variable {config : MempoolConfig} {tx : Transaction} {height : Nat}

theorem Resolved.step {done : List Input} {input : Input} {sum after : Nat × Finset Hash}
    (hresolved : Resolved pool db done sum)
    (hok : calculateInput config pool db tx height sum input = .ok after) :
    Resolved pool db (done ++ [input]) after := by
  have hbefore := hresolved.worth
  have hhere : ∀ other ∈ done ++ [input], other ∈ done ∨ other = input := by simp
  unfold calculateInput at hok
  split at hok
  case h_1 parent output hparent =>
    simp only [bind_eq_ok, exists_unit, pure, Except.pure, Except.ok.injEq] at hok
    obtain ⟨-, rfl⟩ := hok
    have hamount := Validation.nativeAmount_le_doliValue output
    have hworth : output.doliValue ≤ inputWorth pool db input := by
      simp [inputWorth, hparent]
    refine ⟨?worth, ?found, ?ancestors⟩
    case worth =>
      rw [total_append, total_cons, total_nil]
      have hmod := Nat.mod_le (sum.1 + Validation.nativeAmount output) (2 ^ 64)
      dsimp only
      omega
    case found =>
      intro other hother
      rcases hhere other hother with hdone | rfl
      · exact hresolved.found other hdone
      · exact .inl (by simp [hparent])
    case ancestors =>
      intro ancestor
      rw [Finset.mem_union, hresolved.ancestors, Finset.mem_insert,
        ← ancestorsAt_of_parentOutput hparent]
      simp [or_and_right, exists_or, hparent]
  case h_2 hnone =>
    cases hutxo : db.getUtxo (inputOutpoint input) with
    | none => simp [hutxo] at hok
    | some utxo =>
        simp only [hutxo, bind_eq_ok, exists_unit, pure, Except.pure, Except.ok.injEq] at hok
        obtain ⟨-, rfl⟩ := hok
        have hamount := Validation.nativeAmount_le_doliValue utxo.output
        have hworth : utxo.output.doliValue ≤ inputWorth pool db input := by
          simp [inputWorth, hutxo]
        refine ⟨?worth, ?found, ?ancestors⟩
        case worth =>
          rw [total_append, total_cons, total_nil]
          have hmod := Nat.mod_le (sum.1 + Validation.nativeAmount utxo.output) (2 ^ 64)
          dsimp only
          omega
        case found =>
          intro other hother
          rcases hhere other hother with hdone | rfl
          · exact hresolved.found other hdone
          · exact .inr (by simp [hutxo])
        case ancestors =>
          intro ancestor
          rw [hresolved.ancestors]
          simp [or_and_right, exists_or, hnone]

theorem resolved_of_calculateInputs {sum : Nat × Finset Hash}
    (hok : calculateInputs config pool db tx height = .ok sum) :
    Resolved pool db tx.inputs sum := by
  refine run_invariant (Resolved pool db) ⟨Nat.le_refl _, by simp, by simp⟩ ?_ hok
  intro done input rest current after _ hcurrent hstep
  exact hcurrent.step hstep

end

theorem worth_of_resolveConsumedOutputs {inputs : List Input} {consumed : List Output}
    (hok : resolveConsumedOutputs pool db inputs = .ok consumed) :
    total Output.doliValue consumed ≤ total (inputWorth pool db) inputs := by
  induction inputs generalizing consumed with
  | nil =>
      cases hok
      exact Nat.le_refl _
  | cons input inputs ih =>
      simp only [resolveConsumedOutputs, bind_eq_ok, orRefuse_eq_ok, pure, Except.pure,
        Except.ok.injEq] at hok
      obtain ⟨output, houtput, outputs, houtputs, rfl⟩ := hok
      have htail := ih houtputs
      have hhead : output.doliValue ≤ inputWorth pool db input := by
        unfold inputWorth
        unfold consumedOutput at houtput
        cases hutxo : db.getUtxo (inputOutpoint input) with
        | some utxo =>
            simp only [hutxo, Option.map_some, Option.some_or, Option.some.injEq] at houtput
            simp [houtput]
        | none =>
            simp only [hutxo, Option.map_none, Option.none_or] at houtput
            obtain ⟨row, hrow, rfl⟩ := Option.map_eq_some_iff.mp houtput
            simp [hrow]
      rw [total_cons, total_cons]
      omega

section

variable {config : MempoolConfig} {view : NodeView} {tx : Transaction} {height slot : Nat}

theorem payment_of_admitPayment {slashExempt : Bool} {payment : Nat × Finset Hash}
    (hok : admitPayment config view pool db tx height slot slashExempt = .ok payment) :
    ∃ sum, Resolved pool db tx.inputs (sum, payment.2) ∧
      payment.1 ≤ total (inputWorth pool db) tx.inputs := by
  obtain ⟨inputs, consumed, fee, hinputs, hconsumed, -, hfee, -, rfl⟩ := admitPayment_eq_ok.mp hok
  have hresolved := resolved_of_calculateInputs hinputs
  refine ⟨inputs.1, hresolved, ?_⟩
  unfold calculateFee at hfee
  split at hfee
  case isTrue hgated =>
    simp only [hgated, Bool.true_or, if_true] at hconsumed
    have hworth := worth_of_resolveConsumedOutputs hconsumed
    cases hamm : Validation.verifyAmmConservation tx.txType consumed tx.outputs with
    | error error => simp [hamm, Except.mapError, Except.map] at hfee
    | ok _ =>
        simp only [hamm, Except.mapError, Except.map, Except.ok.injEq] at hfee
        have hmod := Nat.mod_le
          (total Output.doliValue consumed - total Output.doliValue tx.outputs) (2 ^ 64)
        dsimp only
        omega
  case isFalse =>
    simp only [bind_eq_ok, exists_unit, pure, Except.pure, Except.ok.injEq] at hfee
    obtain ⟨-, rfl⟩ := hfee
    have hworth := hresolved.worth
    dsimp only
    omega

end

/-! ## Both parts together -/

structure InOrder (pool : Mempool) (db : StateDb) : Prop where
  packaged : pool.Packaged
  supplied : pool.Supplied db

theorem inOrder_new (policy : MempoolPolicy) (db : StateDb) : (new policy).InOrder db where
  packaged := ⟨Lineage.closed_empty, by simp [Lineage.Summed, lineage, new],
    by simp [Lineage.Summed, lineage, new]⟩
  supplied := by simp [Supplied, new]

theorem InOrder.of_entries (horder : pool.InOrder db) (hsame : next.entries = pool.entries) :
    next.InOrder db := by
  obtain ⟨⟨hclosed, hfees, hsizes⟩, hsupplied⟩ := horder
  cases next
  cases pool
  cases hsame
  exact ⟨⟨hclosed, hfees, hsizes⟩, hsupplied⟩

theorem mem_select {test : MempoolEntry → Bool} :
    hash ∈ pool.select test ↔ pool.Holds hash fun entry => test entry = true := by
  unfold select rows Holds
  rw [List.mem_map]
  constructor
  · rintro ⟨row, hrow, rfl⟩
    rw [List.mem_filter, mem_sortedRows] at hrow
    exact ⟨row.2, hrow⟩
  · rintro ⟨entry, hentry, htest⟩
    exact ⟨(hash, entry), List.mem_filter.mpr ⟨(mem_sortedRows _).mpr hentry, htest⟩, rfl⟩

/-- Every input of what stays is confirmed, or its parent stays too. -/
def leavesNoOrphan (pool : Mempool) (db : StateDb) (hashes : List Hash) : Bool :=
  pool.rows.all fun row => decide (row.1 ∈ hashes) || row.2.tx.inputs.all fun input =>
    (db.getUtxo (inputOutpoint input)).isSome || decide (input.prevTxHash ∉ hashes)

theorem of_leavesNoOrphan {hashes : List Hash} (hleaves : pool.leavesNoOrphan db hashes = true)
    (hstays : hash ∉ hashes) (hentry : pool.entries.lookup hash = some entry) {input : Input}
    (hinput : input ∈ entry.tx.inputs) :
    (db.getUtxo (inputOutpoint input)).isSome ∨ input.prevTxHash ∉ hashes := by
  have hrow := List.all_eq_true.mp hleaves (hash, entry) ((mem_sortedRows _).mpr hentry)
  rw [Bool.or_eq_true, decide_eq_true_eq, List.all_eq_true] at hrow
  have hkept := hrow.resolve_left hstays input hinput
  rwa [Bool.or_eq_true, decide_eq_true_eq] at hkept

theorem InOrder.removeAll (horder : pool.InOrder db) {hashes : List Hash}
    (hleaves : pool.leavesNoOrphan db hashes = true) : (pool.removeAll hashes).InOrder db where
  packaged := horder.packaged.removeAll hashes
  supplied := horder.supplied.removeAll horder.packaged
    fun _ hstays _ hentry _ hinput => of_leavesNoOrphan hleaves hstays hentry hinput

theorem inputs_of_revalidate {config : MempoolConfig} {view : NodeView} {height slot : Nat}
    (hentry : (Doli.revalidate config view pool db height slot).entries.lookup hash =
      some entry) :
    ∀ input ∈ entry.tx.inputs, (db.getUtxo (inputOutpoint input)).isSome := by
  intro input hinput
  have hstays := ((mem_entries_removeAll _ _).mp (Finmap.mem_of_lookup_eq_some hentry)).2
  have hbare : (Doli.revalidate config view pool db height slot).bareAt hash =
      (pool.watch slot).bareAt hash := by
    rw [Doli.revalidate, bareAt_removeAll, if_neg hstays]
  obtain ⟨other, hother, htx⟩ := tx_of_bareAt hbare hentry
  have hvalid : stillValid config view (pool.watch slot) db height other.tx = true := by
    by_contra hinvalid
    apply hstays
    rw [toRemove, List.mem_append, List.mem_append, List.mem_append, mem_select]
    exact .inl (.inl (.inl ⟨other, hother, by simpa using hinvalid⟩))
  simp only [stillValid, Bool.and_eq_true] at hvalid
  exact List.all_eq_true.mp hvalid.1.1.1 input (htx ▸ hinput)

theorem InOrder.revalidate {config : MempoolConfig} {view : NodeView} {height slot : Nat}
    (hpackaged : pool.Packaged) (db : StateDb) :
    (Doli.revalidate config view pool db height slot).InOrder db where
  packaged := by
    have hwatched : (pool.watch slot).Packaged :=
      ⟨hpackaged.closed, hpackaged.fees, hpackaged.sizes⟩
    exact hwatched.removeAll _
  supplied _ _ hentry input hinput := .inl (inputs_of_revalidate hentry input hinput)

/-! ## Admissions -/

section

variable (config : MempoolConfig) (view : NodeView) (pool : Mempool) (db : StateDb)
  (tx : Transaction) (height slot : Nat)

/-- The residents that the transaction puts out if it is a slash. -/
def slashedOut : List Hash :=
  withdrawalsForSlash config.gates.base
    (if tx.txType = .slashProducer then
      some (minedAt { config.gates.base with currentHeight := height }) else none)
    pool db tx

/-- Every input is confirmed, or its parent stays, and the fees fit a `u64`. -/
def keepsItsParents (room : Mempool) : Bool :=
  (tx.inputs.all fun input => (db.getUtxo (inputOutpoint input)).isSome ||
      (decide (input.prevTxHash ∈ room.entries) &&
        decide (input.prevTxHash ∉ slashedOut config pool db tx height))) &&
    pool.leavesNoOrphan db (slashedOut config pool db tx height) &&
      decide (total (inputWorth pool db) tx.inputs + holdings MempoolEntry.fee pool.entries <
        2 ^ 64)

def carefulAdmission : Bool :=
  match admissionOf config view (pool.watch slot) db tx height slot,
      (pool.watch slot).makeRoom (config.size tx) with
  | .ok _, (room, true) => keepsItsParents config pool db tx height room
  | _, _ => true

end

section

variable {config : MempoolConfig} {view : NodeView} {tx : Transaction} {height slot now : Nat}
  {admission : Admission}

theorem slashedOut_eq_select (config : MempoolConfig) (db : StateDb) (tx : Transaction)
    (height : Nat) :
    ∃ test : MempoolEntry → Bool, (∀ entry, test entry.bare = test entry) ∧
      ∀ pool : Mempool, slashedOut config pool db tx height = pool.select test := by
  have hnone : ∀ pool : Mempool, pool.select (fun _ => false) = [] := by
    intro pool
    simp [select]
  unfold slashedOut withdrawalsForSlash
  dsimp only
  split
  case h_1 => exact ⟨fun _ => false, fun _ => rfl, fun pool => (hnone pool).symm⟩
  case h_2 key _ => exact ⟨_, fun _ => rfl, fun _ => rfl⟩

theorem accused_of_slashAdmissionCtx {ctx judged : Validation.ValidationContext}
    (hok : slashAdmissionCtx view ctx db tx = .ok judged) :
    judged.currentHeight = nextHeight ctx.currentHeight ∧
      judged.incI255SlashingActivationHeight = ctx.incI255SlashingActivationHeight ∧
        Node.slashAccused judged tx = Node.slashAccused ctx tx := by
  unfold slashAdmissionCtx at hok
  split at hok
  case h_1 =>
    cases hok
    exact ⟨rfl, rfl, rfl⟩
  case h_2 =>
    split at hok
    case isTrue =>
      split at hok
      case h_1 => cases hok
      case h_2 =>
        obtain ⟨-, rfl⟩ := map_eq_ok.mp hok
        exact ⟨rfl, rfl, rfl⟩
    case isFalse =>
      obtain ⟨-, rfl⟩ := map_eq_ok.mp hok
      exact ⟨rfl, rfl, rfl⟩

theorem withdrawalsForSlash_of_admission
    (hok : admissionOf config view pool db tx height slot = .ok admission) (other : Mempool) :
    withdrawalsForSlash config.gates.base admission.judged other db tx =
      slashedOut config other db tx height := by
  obtain ⟨judged, payment, hstructure, -, -, -, rfl⟩ := admissionOf_eq_ok.mp hok
  simp only [admitStructure, bind_eq_ok, exists_unit, pure, Except.pure, Except.ok.injEq]
    at hstructure
  obtain ⟨-, -, -, found, hfound, -, -, rfl⟩ := hstructure
  dsimp only
  unfold admissionCtx at hfound
  split at hfound
  case isTrue hkind =>
    have hslash : tx.txType ≠ .slashProducer := by
      rintro hslash
      simp [hslash] at hkind
    obtain ⟨-, rfl⟩ := map_eq_ok.mp hfound
    rw [slashedOut, if_neg hslash]
  case isFalse =>
    split at hfound
    case isTrue hslash =>
      cases hctx : slashAdmissionCtx view (config.admissionBaseCtx view height slot
          (pendingKeysFor config view pool tx (config.prim.txHash tx))) db tx with
      | error error => simp [hctx, Except.map] at hfound
      | ok ctx =>
          simp only [hctx, Except.map, Except.ok.injEq] at hfound
          obtain ⟨hheight, hgate, haccused⟩ := accused_of_slashAdmissionCtx hctx
          rw [slashedOut, if_pos hslash, ← hfound]
          unfold withdrawalsForSlash
          simp only [Option.bind_some, hheight, hgate, haccused]
          rfl
    case isFalse hslash =>
      cases hfound
      rw [slashedOut, if_neg hslash]

end

/-! ## What an admission keeps -/

theorem Within.bareAt (hwithin : next.Within pool) (hmem : hash ∈ next.entries) :
    next.bareAt hash = pool.bareAt hash := by
  obtain ⟨found, hfound⟩ := Finmap.mem_iff.mp hmem
  have hbare : next.bareAt hash = some found.bare := by
    rw [Mempool.bareAt, hfound, Option.map_some]
  rw [hbare, hwithin.entries hash found.bare hbare]

section

variable {test : MempoolEntry → Bool} (htest : ∀ entry, test entry.bare = test entry)

include htest

theorem mem_select_of_within (hwithin : next.Within pool) (hmem : hash ∈ next.select test) :
    hash ∈ pool.select test :=
  mem_select.mpr (hwithin.holds (fun entry => by rw [htest]) (mem_select.mp hmem))

theorem mem_select_place (ancestors : Finset Hash) (poolOutpoint : Option Outpoint) :
    hash ∈ (pool.place txHash entry ancestors poolOutpoint).select test ↔
      (hash = txHash ∧ test entry = true) ∨ (hash ≠ txHash ∧ hash ∈ pool.select test) := by
  rw [mem_select, mem_select, holds_place fun entry => by rw [htest]]

end

section

variable {config : MempoolConfig} {view : NodeView} {tx : Transaction} {height slot now : Nat}
  {room : Mempool} {ancestors : Finset Hash} {poolOutpoint : Option Outpoint} {sum : Nat}

theorem hasOutput_of_parentOutput {input : Input}
    (hparent : (parentOutput pool input).isSome = true) : pool.HasOutput input := by
  obtain ⟨row, hrow⟩ := Option.isSome_iff_exists.mp hparent
  unfold parentOutput at hrow
  obtain ⟨parent, hlookup, houtput⟩ := Option.bind_eq_some_iff.mp hrow
  obtain ⟨output, hat, -⟩ := Option.map_eq_some_iff.mp houtput
  exact ⟨parent, hlookup, (List.getElem?_eq_some_iff.mp hat).1⟩

theorem hasOutput_of_within (hwithin : next.Within pool) {input : Input}
    (hmem : input.prevTxHash ∈ next.entries) (houtput : pool.HasOutput input) :
    next.HasOutput input := by
  unfold HasOutput at houtput ⊢
  rw [holds_iff_bareAt fun _ => Iff.rfl] at houtput ⊢
  rwa [hwithin.bareAt hmem]

theorem InOrder.place (horder : pool.InOrder db) (hreduced : Reduced db room pool)
    (hwithin : room.Within pool) (hnew : txHash ∉ pool.entries) (hfresh : Fresh entry)
    (hresolved : Resolved pool db entry.tx.inputs (sum, ancestors))
    (hfees : entry.fee + holdings MempoolEntry.fee pool.entries < 2 ^ 64)
    (hstays : ∀ input ∈ entry.tx.inputs, (db.getUtxo (inputOutpoint input)).isSome ∨
      input.prevTxHash ∈ room.entries) :
    (room.place txHash entry ancestors poolOutpoint).InOrder db := by
  have hroomNew : txHash ∉ room.entries := mt (mem_of_within hwithin) hnew
  have hroomFees : entry.fee + ∑ ancestor ∈ ancestors ∩ room.entries.keys,
      room.feeAt ancestor < 2 ^ 64 := by
    have hancestors := ancestorFees_le room ancestors
    have hbound := hreduced.fees
    omega
  refine ⟨?packaged, ?supplied⟩
  case packaged =>
    apply hreduced.packaged.place hroomNew hfresh hroomFees
    intro parent hparent ancestor hancestor
    have habove := hreduced.ancestors hancestor
    obtain ⟨input, hinput, hsome, hfrom⟩ := (hresolved.ancestors parent).mp hparent
    refine (hresolved.ancestors ancestor).mpr ⟨input, hinput, hsome, .inr ?_⟩
    rcases hfrom with rfl | hdeeper
    · exact habove
    · exact horder.packaged.closed.trans habove hdeeper
  case supplied =>
    apply hreduced.supplied.place hroomNew hfresh hroomFees
    intro input hinput
    rcases hresolved.found input hinput with hsome | hconfirmed
    · refine (hstays input hinput).imp id fun hresident => ⟨?_, ?_⟩
      · exact (hresolved.ancestors _).mpr ⟨input, hinput, hsome, .inl rfl⟩
      · exact hasOutput_of_within hwithin hresident (hasOutput_of_parentOutput hsome)
    · exact .inl hconfirmed

end

theorem InOrder.select_place {room : Mempool} {ancestors : Finset Hash}
    {poolOutpoint : Option Outpoint} {test : MempoolEntry → Bool}
    (htest : ∀ entry, test entry.bare = test entry)
    (hplaced : (room.place txHash entry ancestors poolOutpoint).InOrder db)
    (hwithin : room.Within pool) (hroom : room.InOrder db) (hnew : txHash ∉ pool.entries)
    (hinputs : ∀ input ∈ entry.tx.inputs, (db.getUtxo (inputOutpoint input)).isSome ∨
      (input.prevTxHash ∈ room.entries ∧ input.prevTxHash ∉ pool.select test))
    (hleaves : pool.leavesNoOrphan db (pool.select test) = true) :
    ((room.place txHash entry ancestors poolOutpoint).removeAll
      ((room.place txHash entry ancestors poolOutpoint).select test)).InOrder db := by
  have hroomNew : txHash ∉ room.entries := mt (mem_of_within hwithin) hnew
  -- An older resident that stays in the room stays in the pool.
  have hout : ∀ hash, hash ≠ txHash → hash ∉ pool.select test →
      hash ∉ (room.place txHash entry ancestors poolOutpoint).select test := by
    intro hash hother hnot hmem
    rw [mem_select_place htest] at hmem
    rcases hmem with ⟨hsame, -⟩ | ⟨-, hselected⟩
    · exact hother hsame
    · exact hnot (mem_select_of_within htest hwithin hselected)
  refine ⟨hplaced.packaged.removeAll _, hplaced.supplied.removeAll hplaced.packaged ?_⟩
  intro hash hstays found hfound input hinput
  rcases tx_of_place hfound with ⟨-, htx⟩ | ⟨hother, old, hold, htx⟩
  · refine (hinputs input (htx ▸ hinput)).imp id fun hparent => ?_
    apply hout _ _ hparent.2
    intro hself
    exact hroomNew (hself ▸ hparent.1)
  · rw [← htx] at hinput
    have hresident := Finmap.mem_of_lookup_eq_some hold
    obtain ⟨elder, helder, helderTx⟩ := tx_of_bareAt (hwithin.bareAt hresident) hold
    have hkept : hash ∉ pool.select test := by
      intro hselected
      apply hstays
      rw [mem_select_place htest]
      refine .inr ⟨hother, ?_⟩
      rw [mem_select, holds_iff_bareAt fun entry => by rw [htest]] at hselected ⊢
      rwa [hwithin.bareAt hresident]
    rcases hroom.supplied hash old hold input hinput with hconfirmed | ⟨hancestor, -⟩
    · exact .inl hconfirmed
    · refine (of_leavesNoOrphan hleaves hkept helder (helderTx ▸ hinput)).imp id fun hparent => ?_
      apply hout _ _ hparent
      intro hself
      have hmem := (hroom.packaged.closed.mem hancestor).1
      exact hroomNew (hself ▸ Finmap.mem_keys.mp hmem)

section

variable {config : MempoolConfig} {view : NodeView} {tx : Transaction} {height slot now : Nat}

theorem InOrder.addTransaction (horder : pool.InOrder db)
    (hcareful : carefulAdmission config view pool db tx height slot = true) :
    (Doli.addTransaction config view pool db tx now height slot).1.InOrder db := by
  have hwatched : (pool.watch slot).InOrder db := horder.of_entries rfl
  have hreduced := reduced_makeRoom hwatched.packaged hwatched.supplied (config.size tx)
  have hroom : ((pool.watch slot).makeRoom (config.size tx)).1.InOrder db :=
    ⟨hreduced.packaged, hreduced.supplied⟩
  rcases addTransaction_cases config view pool db tx now height slot with
    hrefused | hfull | ⟨admission, placed, hadmission, hmade, hplace, hplaced⟩
  · rw [hrefused]
    exact hwatched
  · rw [hfull]
    exact hroom
  · have hwithin := within_makeRoom (pool.watch slot) (config.size tx)
    have hkeeps : keepsItsParents config (pool.watch slot) db tx height
        ((pool.watch slot).makeRoom (config.size tx)).1 = true := by
      rw [carefulAdmission, hadmission] at hcareful
      revert hcareful hmade
      rcases (pool.watch slot).makeRoom (config.size tx) with ⟨room, fits⟩
      rintro hcareful (rfl : fits = true)
      exact hcareful
    simp only [keepsItsParents, Bool.and_eq_true, List.all_eq_true, Bool.or_eq_true,
      decide_eq_true_eq] at hkeeps
    obtain ⟨⟨hinputs, hleaves⟩, hfees⟩ := hkeeps
    have hslashed := withdrawalsForSlash_of_admission hadmission
    obtain ⟨judged, payment, hstructure, -, hpayment, -, rfl⟩ := admissionOf_eq_ok.mp hadmission
    obtain ⟨sum, hresolved, hpaid⟩ := payment_of_admitPayment hpayment
    have hnew := notMem_of_admitStructure hstructure
    obtain ⟨test, htest, hselect⟩ := slashedOut_eq_select config db tx height
    rw [hselect] at hinputs hleaves
    have hbound : payment.1 + holdings MempoolEntry.fee (pool.watch slot).entries < 2 ^ 64 :=
      Nat.lt_of_le_of_lt (Nat.add_le_add_right hpaid _) hfees
    have hentered : placed.InOrder db := by
      rw [hplace]
      exact hwatched.place hreduced hwithin hnew ⟨rfl, rfl, rfl, rfl⟩ hresolved hbound
        fun input hinput => (hinputs input hinput).imp id And.left
    rw [hplaced, hslashed, hselect]
    subst hplace
    exact hentered.select_place htest hwithin hroom hnew hinputs hleaves

theorem InOrder.addSystemTransaction {policy : Transaction → Nat → Except MempoolError Unit}
    (horder : pool.InOrder db)
    (hcareful : checkSystemTransaction config view policy pool tx height = .ok () →
      ∀ input ∈ tx.inputs, (db.getUtxo (inputOutpoint input)).isSome) :
    (Doli.addSystemTransaction config view policy pool tx now height).1.InOrder db := by
  have hpruned := horder.of_entries (entries_pruneChanges pool (changeKey config tx))
  have hreduced := reduced_makeRoom hpruned.packaged hpruned.supplied (config.size tx)
  rcases addSystemTransaction_cases config view pool tx now height policy with
    hrefused | hfull | ⟨hchecked, -, hentered⟩
  · rw [hrefused]
    exact horder
  · rw [hfull]
    exact ⟨hreduced.packaged, hreduced.supplied⟩
  · rw [hentered]
    have hinputs := hcareful hchecked
    have hnew := notMem_of_checkSystemTransaction hchecked
    rw [← entries_pruneChanges pool (changeKey config tx)] at hnew
    have hwithin := within_makeRoom (pool.pruneChanges (changeKey config tx)) (config.size tx)
    have hroomNew := mt (mem_of_within hwithin) hnew
    have hpackaged := @Packaged.place _ (config.prim.txHash tx)
      (.new (config.prim.txHash tx) (config.size tx) now tx 0) ∅ none hreduced.packaged
      hroomNew ⟨rfl, rfl, rfl, rfl⟩ (by simp [MempoolEntry.new]) (by simp)
    have hsupplied := @Supplied.place _ db (config.prim.txHash tx)
      (.new (config.prim.txHash tx) (config.size tx) now tx 0) ∅ none hreduced.supplied
      hroomNew ⟨rfl, rfl, rfl, rfl⟩ (by simp [MempoolEntry.new])
      fun input hinput => .inl (hinputs input hinput)
    have hplaced := InOrder.mk hpackaged hsupplied
    exact hplaced.of_entries (entries_recordChange _ _ _)

end

/-! ## Runs beside a UTXO set -/

end Mempool

def MempoolOp.on (db : StateDb) : MempoolOp → MempoolOp
  | .addTransaction view _ tx now height slot => .addTransaction view db tx now height slot
  | .revalidate view _ height slot => .revalidate view db height slot
  | op => op

/-- A block replaces the UTXO set, and the mempool follows at once. -/
inductive LedgerEvent where
  | operate (op : MempoolOp)
  | block (view : NodeView) (utxos : StateDb) (txs : List Transaction) (height slot : Nat)

structure MempoolLedger where
  pool : Mempool
  utxos : StateDb

section

variable (config : MempoolConfig)

def ledgerStep (ledger : MempoolLedger) : LedgerEvent → MempoolLedger
  | .operate op => ⟨mempoolStep config ledger.pool (op.on ledger.utxos), ledger.utxos⟩
  | .block view utxos txs height slot =>
      ⟨revalidate config view (removeForBlock config ledger.pool txs) utxos height slot, utxos⟩

def ledgerRun (events : List LedgerEvent) (ledger : MempoolLedger) : MempoolLedger :=
  events.foldl (ledgerStep config) ledger

/-- No parent leaves without its child, and no sum of fees leaves the range of a `u64`. -/
def carefulOp (pool : Mempool) (db : StateDb) : MempoolOp → Bool
  | .addTransaction view _ tx _ height slot =>
      Mempool.carefulAdmission config view pool db tx height slot
  | .addSystemTransaction view policy tx _ height =>
      decide (checkSystemTransaction config view policy pool tx height ≠ .ok ()) ||
        tx.inputs.all fun input => (db.getUtxo (inputOutpoint input)).isSome
  | .removeTransaction hash => pool.leavesNoOrphan db [hash]
  | .evictLowestFee => true
  | .removeForBlock txs => pool.leavesNoOrphan db (txs.map config.prim.txHash)
  | .expireOld now => pool.leavesNoOrphan db (pool.select fun entry =>
      !entry.evictExempt && decide (pool.policy.maxAge < entry.age now))
  | .revalidate .. => true
  | .removeRegistrationTxs => pool.leavesNoOrphan db (pool.select fun entry =>
      entry.tx.txType = .registration)
  | .removeByErrorPattern message => pool.leavesNoOrphan db (pool.select fun entry =>
      isToxic message entry.tx)

def carefulEvent (ledger : MempoolLedger) : LedgerEvent → Bool
  | .operate op => carefulOp config ledger.pool ledger.utxos op
  | .block .. => true

def carefulRun : List LedgerEvent → MempoolLedger → Bool
  | [], _ => true
  | event :: events, ledger =>
      carefulEvent config ledger event && carefulRun events (ledgerStep config ledger event)

end

namespace Mempool

section

variable {config : MempoolConfig} {events done : List LedgerEvent} {ledger : MempoolLedger}

theorem InOrder.step (horder : pool.InOrder db) {op : MempoolOp}
    (hcareful : carefulOp config pool db op = true) :
    (mempoolStep config pool (op.on db)).InOrder db := by
  cases op with
  | addTransaction view given tx now height slot => exact horder.addTransaction hcareful
  | addSystemTransaction view policy tx now height =>
      apply horder.addSystemTransaction
      intro hchecked input hinput
      simp only [carefulOp, hchecked, ne_eq, not_true_eq_false, decide_false, Bool.false_or,
        List.all_eq_true] at hcareful
      exact hcareful input hinput
  | removeTransaction hash => exact horder.removeAll hcareful
  | evictLowestFee =>
      change (pool.evictLowestFee.getD pool).InOrder db
      rcases evictLowestFee_cases pool with hnone | ⟨txHash, entry, hentry, hleaf, hevicted⟩
      · rw [hnone]
        exact horder
      · rw [hevicted]
        exact ⟨horder.packaged.removeTransaction txHash,
          horder.supplied.removeLeaf horder.packaged hentry hleaf⟩
  | removeForBlock txs => exact horder.removeAll hcareful
  | expireOld now => exact horder.removeAll hcareful
  | revalidate view given height slot => exact .revalidate horder.packaged db
  | removeRegistrationTxs => exact horder.removeAll hcareful
  | removeByErrorPattern message => exact horder.removeAll hcareful

theorem InOrder.event (horder : ledger.pool.InOrder ledger.utxos) {event : LedgerEvent}
    (hcareful : carefulEvent config ledger event = true) :
    (ledgerStep config ledger event).pool.InOrder (ledgerStep config ledger event).utxos := by
  cases event with
  | operate op => exact horder.step hcareful
  | block view utxos txs height slot =>
      exact .revalidate (horder.packaged.removeAll _) utxos

theorem InOrder.run (horder : ledger.pool.InOrder ledger.utxos)
    (hcareful : carefulRun config events ledger = true) (hdone : done <+: events) :
    (ledgerRun config done ledger).pool.InOrder (ledgerRun config done ledger).utxos := by
  induction done generalizing events ledger with
  | nil => exact horder
  | cons event done ih =>
      obtain ⟨rest, rfl⟩ := hdone
      rw [List.cons_append, carefulRun, Bool.and_eq_true] at hcareful
      exact ih (horder.event hcareful.1) hcareful.2 (List.prefix_append done rest)

/-- The packages are closed in every state that a careful run goes through. -/
theorem packages_closed_of_run (policy : MempoolPolicy) (db : StateDb)
    (hcareful : carefulRun config events ⟨.new policy, db⟩ = true) (hdone : done <+: events) :
    (ledgerRun config done ⟨.new policy, db⟩).pool.PackagesClosed
      (ledgerRun config done ⟨.new policy, db⟩).utxos := by
  have horder : (ledgerRun config done ⟨.new policy, db⟩).pool.InOrder
      (ledgerRun config done ⟨.new policy, db⟩).utxos :=
    InOrder.run (inOrder_new policy db) hcareful hdone
  exact packagesClosed_of horder.packaged horder.supplied

end

end Mempool

/-! ## On given inputs -/

def sampleParent : Transaction := samplePayment ⟨⟨9⟩, 0⟩ 4900

def sampleParentHash : Hash := sampleMempoolConfig.prim.txHash sampleParent

def sampleChild : Transaction := samplePayment ⟨sampleParentHash, 0⟩ 4800

def sampleChildHash : Hash := sampleMempoolConfig.prim.txHash sampleChild

/-- The parent comes first and the child some days after it. -/
def sampleFamily : List LedgerEvent :=
  [.operate (.addTransaction sampleView .empty sampleParent 1000 20 5),
    .operate (.addTransaction sampleView .empty sampleChild 500000 20 5)]

def sampleConfirmedParent : List LedgerEvent :=
  sampleFamily ++ [.block sampleView
    (StateDb.empty.insertUtxo ⟨sampleParentHash, 0⟩ ⟨samplePaid 4900, 21, false, false⟩)
    [sampleParent] 21 6]

/-- The parent is past its age, and the child is not. -/
def sampleExpiredParent : List LedgerEvent :=
  sampleFamily ++ [.operate (.expireOld 1210601)]

def sampleMempoolLedger : MempoolLedger := ⟨.new .mainnet, sampleCoins⟩

namespace Mempool

theorem packages_closed_of_run_sample :
    (ledgerRun sampleMempoolConfig sampleConfirmedParent sampleMempoolLedger).pool.PackagesClosed
        (ledgerRun sampleMempoolConfig sampleConfirmedParent sampleMempoolLedger).utxos ∧
      sampleChildHash ∈
        (ledgerRun sampleMempoolConfig sampleConfirmedParent sampleMempoolLedger).pool.entries :=
  ⟨packages_closed_of_run .mainnet sampleCoins (by decide +kernel)
    (List.prefix_refl sampleConfirmedParent), by decide +kernel⟩

/-- The expired parent leaves its child with an input that nothing supplies. -/
theorem expired_parent_leaves_orphan :
    ¬∀ config policy db events, (ledgerRun config events ⟨.new policy, db⟩).pool.PackagesClosed
      (ledgerRun config events ⟨.new policy, db⟩).utxos := by
  intro hall
  have hclosed := hall sampleMempoolConfig .mainnet sampleCoins sampleExpiredParent
  have hresident : ((ledgerRun sampleMempoolConfig sampleExpiredParent
      ⟨.new .mainnet, sampleCoins⟩).pool.entries.lookup sampleChildHash).any
        (fun entry => decide (sampleSpend 1 ⟨sampleParentHash, 0⟩ ∈ entry.tx.inputs)) =
      true := by
    decide +kernel
  have hunconfirmed : ((ledgerRun sampleMempoolConfig sampleExpiredParent
      ⟨.new .mainnet, sampleCoins⟩).utxos.getUtxo
        (inputOutpoint (sampleSpend 1 ⟨sampleParentHash, 0⟩))).isSome = false := by
    decide +kernel
  have habsent : (sampleSpend 1 ⟨sampleParentHash, 0⟩).prevTxHash ∉ (ledgerRun
      sampleMempoolConfig sampleExpiredParent ⟨.new .mainnet, sampleCoins⟩).pool.entries := by
    decide +kernel
  cases hentry : (ledgerRun sampleMempoolConfig sampleExpiredParent
      ⟨.new .mainnet, sampleCoins⟩).pool.entries.lookup sampleChildHash with
  | none =>
      rw [hentry] at hresident
      cases hresident
  | some entry =>
      rw [hentry, Option.any_some, decide_eq_true_eq] at hresident
      rcases hclosed.supplied sampleChildHash entry hentry _ hresident with hconfirmed | hparent
      · rw [hunconfirmed] at hconfirmed
        cases hconfirmed
      · exact not_holds_of_notMem habsent hparent.2

end Mempool

end Doli
