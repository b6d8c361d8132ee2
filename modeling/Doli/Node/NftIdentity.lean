import Doli.Node.Reapply
import Doli.Node.Rebuild

/-!
# NFT identity

The unspent NFTs of a store carry pairwise distinct token ids, all of them in the
unique-id index, and every accepted transaction keeps it so.  The gate looks at the
outputs before the inputs are spent, so it refuses every transfer of an NFT.
-/

namespace Doli.Node

open Doli.Core Doli.Lib Doli.Storage

def CarriesToken (entry : UtxoEntry) (token : Hash) : Prop :=
  uniqueIdOf entry.output = some (.nft, token)

/-- No two unspent NFTs carry one token id. -/
def UniqueNfts (utxo : UtxoColumn) : Prop :=
  ∀ token outpoint other entry found, utxo.lookup outpoint = some entry →
    utxo.lookup other = some found → CarriesToken entry token →
      CarriesToken found token → outpoint = other

/-- The index lists exactly the token ids of the unspent NFTs, one for each. -/
structure NftIndexExact (db : StateDb) : Prop where
  listed : ∀ token, (.nft, token) ∈ db.uniqueIds ↔
    ∃ outpoint entry, db.utxo.lookup outpoint = some entry ∧ CarriesToken entry token
  unique : UniqueNfts db.utxo

/-! ## Rows in reach -/

/-- A row that a spend can still take: pending, or stored and not spent. -/
def Held (batch : BlockBatch) (outpoint : Outpoint) (entry : UtxoEntry) : Prop :=
  batch.pendingUtxos.lookup outpoint = some entry ∨
    (outpoint ∉ batch.spentInBatch ∧ batch.db.getUtxo outpoint = some entry)

/-- Every token in reach is listed, and no two rows in reach share one. -/
structure TokensListed (batch : BlockBatch) : Prop where
  coherent : BlockBatch.Coherent batch
  listed : ∀ outpoint entry token, Held batch outpoint entry →
    CarriesToken entry token → (.nft, token) ∈ batch.uidView
  unique : ∀ token outpoint other entry found, Held batch outpoint entry →
    Held batch other found → CarriesToken entry token → CarriesToken found token →
      outpoint = other

section Held

variable {batch before current : BlockBatch} {outpoint : Outpoint} {entry : UtxoEntry}

theorem held_of_view (hcoherent : BlockBatch.Coherent batch)
    (hview : batch.view.lookup outpoint = some entry) : Held batch outpoint entry := by
  rw [hcoherent.lookup] at hview
  cases hpending : batch.pendingUtxos.lookup outpoint with
  | some pending =>
      left
      simpa [hpending] using hview
  | none =>
      right
      rw [hpending, Option.none_or] at hview
      split at hview
      · contradiction
      case isFalse hunspent => exact ⟨hunspent, hview⟩

theorem held_of_getUtxo (hget : batch.getUtxo outpoint = some entry) :
    Held batch outpoint entry := by
  unfold BlockBatch.getUtxo at hget
  split at hget
  · contradiction
  case isFalse hunspent =>
    split at hget
    case h_1 pending hpending => exact .inl (hpending.trans hget)
    case h_2 => exact .inr ⟨hunspent, hget⟩

theorem TokensListed.uniqueNfts (htokens : TokensListed batch) : UniqueNfts batch.view :=
  fun token outpoint other entry found hentry hfound =>
    htokens.unique token outpoint other entry found
      (held_of_view htokens.coherent hentry) (held_of_view htokens.coherent hfound)

theorem held_beginBatch {db : StateDb} :
    Held db.beginBatch outpoint entry ↔ db.getUtxo outpoint = some entry := by
  simp [Held, StateDb.beginBatch]

theorem tokensListed_beginBatch {db : StateDb} (hunique : UniqueNfts db.utxo)
    (hlisted : ∀ outpoint entry token, db.utxo.lookup outpoint = some entry →
      CarriesToken entry token → (.nft, token) ∈ db.uniqueIds) :
    TokensListed db.beginBatch where
  coherent := BlockBatch.coherent_beginBatch db
  listed outpoint entry token hheld htoken :=
    hlisted outpoint entry token (held_beginBatch.mp hheld) htoken
  unique token outpoint other entry found hentry hfound :=
    hunique token outpoint other entry found (held_beginBatch.mp hentry)
      (held_beginBatch.mp hfound)

theorem NftIndexExact.tokensListed {db : StateDb} (hexact : NftIndexExact db) :
    TokensListed db.beginBatch :=
  tokensListed_beginBatch hexact.unique fun outpoint entry token hentry htoken =>
    (hexact.listed token).mpr ⟨outpoint, entry, hentry, htoken⟩

theorem TokensListed.commit (htokens : TokensListed batch) :
    TokensListed batch.commit.beginBatch :=
  tokensListed_beginBatch htokens.uniqueNfts fun outpoint entry token hentry htoken =>
    htokens.listed outpoint entry token (held_of_view htokens.coherent hentry) htoken

/-! ## A phase of spends -/

/-- What spends do to the rows in reach: none comes back, and an id that is gone
belonged to a row that is gone. -/
structure Released (before after : BlockBatch) : Prop where
  db : after.db = before.db
  coherent : BlockBatch.Coherent after
  held : ∀ outpoint entry, Held after outpoint entry → Held before outpoint entry
  fewer : after.uidView ⊆ before.uidView
  gone : ∀ uid ∈ before.uidView, uid ∉ after.uidView → ∃ outpoint entry,
    Held before outpoint entry ∧ uniqueIdOf entry.output = some uid ∧
      ∀ found, ¬ Held after outpoint found

theorem Released.refl (hcoherent : BlockBatch.Coherent batch) : Released batch batch where
  db := rfl
  coherent := hcoherent
  held _ _ := id
  fewer := Finset.Subset.refl _
  gone _ hin hout := absurd hin hout

theorem held_recordSpend {other : Outpoint} {found : UtxoEntry} :
    Held (batch.recordSpend outpoint entry) other found ↔
      other ≠ outpoint ∧ Held batch other found := by
  by_cases hother : other = outpoint
  · subst hother
    simp [Held]
  · simp [Held, hother, AList.lookup_erase_ne hother]

theorem Released.spend (hreleased : Released before current)
    (hentry : current.spendableEntry outpoint = some entry)
    (hreach : outpoint ∈ before.spentInBatch →
      (current.pendingUtxos.lookup outpoint).isSome) :
    Released before (current.recordSpend outpoint entry) := by
  have hheld : Held before outpoint entry := by
    unfold BlockBatch.spendableEntry at hentry
    split at hentry
    case h_1 pending hpending =>
      exact hreleased.held outpoint entry (.inl (hpending.trans hentry))
    case h_2 hpending =>
      right
      rw [hreleased.db] at hentry
      refine ⟨fun hspent => ?_, hentry⟩
      have hpresent := hreach hspent
      simp [hpending] at hpresent
  constructor
  case db => rw [BlockBatch.recordSpend_db, hreleased.db]
  case coherent => exact hreleased.coherent.recordSpend outpoint entry
  case held =>
    intro other found hfound
    exact hreleased.held other found (held_recordSpend.mp hfound).2
  case fewer =>
    intro uid huid
    exact hreleased.fewer ((BlockBatch.mem_uidView_recordSpend ..).mp huid).2
  case gone =>
    intro uid hin hout
    by_cases hcurrent : uid ∈ current.uidView
    · have hcarried : uniqueIdOf entry.output = some uid := by
        by_contra hother
        exact hout ((BlockBatch.mem_uidView_recordSpend ..).mpr ⟨hother, hcurrent⟩)
      refine ⟨outpoint, entry, hheld, hcarried, fun found hfound => ?_⟩
      exact (held_recordSpend.mp hfound).1 rfl
    · obtain ⟨other, gone, hgone, hcarried, hnot⟩ := hreleased.gone uid hin hcurrent
      refine ⟨other, gone, hgone, hcarried, fun found hfound => ?_⟩
      exact hnot found (held_recordSpend.mp hfound).2

theorem Released.tokensListed (htokens : TokensListed before)
    (hreleased : Released before current) : TokensListed current where
  coherent := hreleased.coherent
  listed outpoint entry token hheld htoken := by
    have hbefore := hreleased.held outpoint entry hheld
    by_contra hout
    obtain ⟨other, gone, hgone, hcarried, hnot⟩ :=
      hreleased.gone _ (htokens.listed outpoint entry token hbefore htoken) hout
    obtain rfl := htokens.unique token outpoint other entry gone hbefore hgone htoken
      hcarried
    exact hnot entry hheld
  unique token outpoint other entry found hentry hfound :=
    htokens.unique token outpoint other entry found (hreleased.held outpoint entry hentry)
      (hreleased.held other found hfound)

theorem Released.spendInputs {inputs : List Input} (hreleased : Released before current)
    (hreach : ∀ input ∈ inputs, inputOutpoint input ∉ before.spentInBatch)
    (total : Nat) :
    Released before (BlockBatch.spendInputs inputs current total).1 := by
  induction inputs generalizing current total with
  | nil => exact hreleased
  | cons input inputs ih =>
      cases hspend : current.spendUtxo (inputOutpoint input) with
      | error error => simpa [BlockBatch.spendInputs, hspend] using hreleased
      | ok pair =>
          obtain ⟨next, entry⟩ := pair
          obtain ⟨hentry, rfl⟩ := BlockBatch.spendUtxo_ok_iff.mp hspend
          simp only [BlockBatch.spendInputs, hspend]
          apply ih
          · exact hreleased.spend hentry fun hspent =>
              absurd hspent (hreach input List.mem_cons_self)
          · exact fun other hother => hreach other (List.mem_cons_of_mem _ hother)

/-- A row in reach that the batch has spent before is pending, and named once. -/
def ReachedOnce (before current : BlockBatch) (rows : List (Outpoint × UtxoEntry)) : Prop :=
  (∀ row ∈ rows, row.1 ∈ before.spentInBatch →
    (current.pendingUtxos.lookup row.1).isSome) ∧
  rows.Pairwise fun first second =>
    second.1 ∈ before.spentInBatch → second.1 ≠ first.1

theorem ReachedOnce.tail {row : Outpoint × UtxoEntry} {rows : List (Outpoint × UtxoEntry)}
    (hreach : ReachedOnce before current (row :: rows)) :
    ReachedOnce before (current.recordSpend row.1 entry) rows := by
  obtain ⟨hpending, hpairwise⟩ := hreach
  obtain ⟨hfirst, hrest⟩ := List.pairwise_cons.mp hpairwise
  refine ⟨fun other hother hspent => ?_, hrest⟩
  rw [BlockBatch.recordSpend_pendingUtxos,
    AList.lookup_erase_ne (hfirst other hother hspent)]
  exact hpending other (List.mem_cons_of_mem _ hother) hspent

theorem ReachedOnce.skip {row : Outpoint × UtxoEntry} {rows : List (Outpoint × UtxoEntry)}
    (hreach : ReachedOnce before current (row :: rows)) : ReachedOnce before current rows :=
  ⟨fun other hother => hreach.1 other (List.mem_cons_of_mem _ hother),
    (List.pairwise_cons.mp hreach.2).2⟩

theorem reachedOnce_getUtxosByPubkey (batch : BlockBatch) (pubkeyHash : Hash) :
    ReachedOnce batch batch (batch.getUtxosByPubkey pubkeyHash) := by
  unfold BlockBatch.getUtxosByPubkey
  have hpendings : ((batch.pendingOf pubkeyHash).map Prod.fst).Nodup :=
    BlockBatch.pendingOf_nodup batch pubkeyHash
  constructor
  · intro row hrow hspent
    rcases List.mem_append.mp hrow with hstored | hpending
    · simp [List.mem_filter, hspent] at hstored
    · obtain ⟨hpending, -⟩ := List.mem_filter.mp hpending
      simp [(BlockBatch.mem_pendingOf.mp hpending).1]
  · refine List.pairwise_append.mpr ⟨?_, ?_, ?_⟩
    · refine List.pairwise_of_forall_mem_list fun first _ second hsecond hspent => ?_
      simp [List.mem_filter, hspent] at hsecond
    · refine List.Pairwise.filter _ ?_
      exact (List.pairwise_map.mp hpendings).imp fun hne _ heq => hne heq.symm
    · intro first hfirst second hsecond _ heq
      have hnew := of_decide_eq_true (List.mem_filter.mp hsecond).2
      exact hnew (heq ▸ List.mem_map_of_mem hfirst)

end Held

theorem Released.burnRows {before : BlockBatch} {height : Nat}
    {rows : List (Outpoint × UtxoEntry)} {state next : UtxoState}
    (hreleased : Released before state.batch)
    (hreach : ReachedOnce before state.batch rows)
    (hburn : Node.burnRows height rows state = .ok next) :
    Released before next.batch := by
  induction rows generalizing state with
  | nil =>
      obtain rfl := Except.ok.inj hburn
      exact hreleased
  | cons row rows ih =>
      obtain ⟨outpoint, entry⟩ := row
      simp only [Node.burnRows] at hburn
      split at hburn
      case isTrue hburnable =>
        split at hburn
        · contradiction
        case h_2 spentBatch spentEntry hspend =>
          obtain ⟨hentry, rfl⟩ := BlockBatch.spendUtxo_ok_iff.mp hspend
          refine ih ?_ hreach.tail hburn
          exact hreleased.spend hentry fun hspent =>
            hreach.1 (outpoint, entry) List.mem_cons_self hspent
      case isFalse hkept => exact ih hreleased hreach.skip hburn

theorem released_slashBurn {ctx : BlockContext} {tx : Transaction}
    {state next : UtxoState} (hcoherent : BlockBatch.Coherent state.batch)
    (hburn : slashBurnInBatch ctx tx state = .ok next) :
    Released state.batch next.batch := by
  unfold slashBurnInBatch at hburn
  split at hburn
  · obtain rfl := Except.ok.inj hburn
    exact .refl hcoherent
  case h_2 owner howner =>
    exact (Released.refl hcoherent).burnRows
      (reachedOnce_getUtxosByPubkey state.batch owner) hburn

/-! ## The outputs of a transaction -/

/-- The token ids of the NFT outputs, in output order. -/
def mintedTokens (outputs : List Output) : List Hash :=
  outputs.filterMap fun output => output.nftMetadata.map Prod.fst

theorem nftMetadata_of_uniqueIdOf {output : Output} {token : Hash}
    (huid : uniqueIdOf output = some (.nft, token)) :
    output.outputType = .nft ∧ output.nftMetadata.map Prod.fst = some token := by
  unfold uniqueIdOf at huid
  split at huid
  case h_1 htype =>
    obtain ⟨metadata, hmetadata, heq⟩ := Option.map_eq_some_iff.mp huid
    exact ⟨htype, by simp [hmetadata, (Prod.mk.inj heq).2]⟩
  case h_2 =>
    obtain ⟨metadata, -, heq⟩ := Option.map_eq_some_iff.mp huid
    simp at heq
  case h_3 =>
    obtain ⟨metadata, -, heq⟩ := Option.map_eq_some_iff.mp huid
    simp at heq
  case h_4 => contradiction

theorem outputType_stampOutput (output : Output) (slot : Nat) :
    (stampOutput output slot).outputType = output.outputType := by
  unfold stampOutput
  split
  · rfl
  case h_2 htype =>
    split
    · rw [htype]; rfl
    · rfl
  · rfl

theorem stampOutput_of_nft {output : Output} {slot : Nat} (htype : output.outputType = .nft) :
    stampOutput output slot = output := by
  simp [stampOutput, htype]

theorem nft_of_stamped {entry : UtxoEntry} {output : Output} {slot : Nat} {token : Hash}
    (hsame : entry.output = stampOutput output slot) (htoken : CarriesToken entry token) :
    output.nftMetadata.map Prod.fst = some token := by
  rw [CarriesToken, hsame] at htoken
  have htype := (nftMetadata_of_uniqueIdOf htoken).1
  rw [outputType_stampOutput] at htype
  rw [stampOutput_of_nft htype] at htoken
  exact (nftMetadata_of_uniqueIdOf htoken).2

theorem mem_mintedTokens_of_newRows {txHash : Hash} {height slot : Nat}
    {isCoinbase isEpochReward : Bool} {outputs : List Output} {position : Nat}
    {row : Outpoint × UtxoEntry} {token : Hash}
    (hrow : row ∈ BlockBatch.newRows txHash height slot isCoinbase isEpochReward outputs
      position) (htoken : CarriesToken row.2 token) : token ∈ mintedTokens outputs := by
  obtain ⟨output, hout, hsame⟩ := mem_newRows hrow
  exact List.mem_filterMap.mpr ⟨output, hout, nft_of_stamped hsame htoken⟩

theorem newRows_unique {txHash : Hash} {height slot : Nat} {isCoinbase isEpochReward : Bool}
    {outputs : List Output} (hdistinct : (mintedTokens outputs).Nodup) {position : Nat}
    {first second : Outpoint × UtxoEntry} {token : Hash}
    (hfirst : first ∈ BlockBatch.newRows txHash height slot isCoinbase isEpochReward outputs
      position)
    (hsecond : second ∈ BlockBatch.newRows txHash height slot isCoinbase isEpochReward
      outputs position)
    (hcarry : CarriesToken first.2 token) (hcarry' : CarriesToken second.2 token) :
    first.1 = second.1 := by
  induction outputs generalizing position with
  | nil => simp [BlockBatch.newRows] at hfirst
  | cons output outputs ih =>
      have hhead : ∀ entry, entry.output = stampOutput output slot →
          CarriesToken entry token → token ∉ mintedTokens outputs := by
        intro entry heq htoken
        have hminted := nft_of_stamped heq htoken
        simp only [mintedTokens, List.filterMap_cons, hminted, List.nodup_cons] at hdistinct
        exact hdistinct.1
      have hrest : (mintedTokens outputs).Nodup := by
        refine hdistinct.sublist ?_
        simp only [mintedTokens, List.filterMap_cons]
        split
        · exact List.Sublist.refl _
        · exact List.sublist_cons_self ..
      rcases List.mem_cons.mp hfirst with rfl | hfirst
      · rcases List.mem_cons.mp hsecond with rfl | hsecond
        · rfl
        · exact absurd (mem_mintedTokens_of_newRows hsecond hcarry') (hhead _ rfl hcarry)
      · rcases List.mem_cons.mp hsecond with rfl | hsecond
        · exact absurd (mem_mintedTokens_of_newRows hfirst hcarry) (hhead _ rfl hcarry')
        · exact ih hrest hfirst hsecond

theorem mem_uidView_addRows {rows : List (Outpoint × UtxoEntry)} {batch : BlockBatch}
    {uid : UidKey} :
    uid ∈ (BlockBatch.addRows rows batch).uidView ↔
      (∃ row ∈ rows, uniqueIdOf row.2.output = some uid) ∨ uid ∈ batch.uidView := by
  induction rows generalizing batch with
  | nil => simp [BlockBatch.addRows]
  | cons row rows ih =>
      rw [BlockBatch.addRows_cons, ih, BlockBatch.addUtxo_uidView,
        BlockBatch.mem_uidView_addUniqueIdForEntry]
      simp only [List.mem_cons, exists_eq_or_imp]
      exact or_left_comm.trans or_assoc.symm

theorem held_addRows {rows : List (Outpoint × UtxoEntry)} {batch : BlockBatch}
    {outpoint : Outpoint} {entry : UtxoEntry}
    (hheld : Held (BlockBatch.addRows rows batch) outpoint entry) :
    (outpoint, entry) ∈ rows ∨ Held batch outpoint entry := by
  rcases hheld with hpending | ⟨hunspent, hstored⟩
  · exact (BlockBatch.addRows_pendingUtxos_mem hpending).imp_right .inl
  · rw [BlockBatch.addRows_spentInBatch] at hunspent
    rw [BlockBatch.addRows_db] at hstored
    exact .inr (.inr ⟨hunspent, hstored⟩)

theorem TokensListed.addRows {rows : List (Outpoint × UtxoEntry)} {batch : BlockBatch}
    (htokens : TokensListed batch)
    (hnew : ∀ row ∈ rows, ∀ token, CarriesToken row.2 token → (.nft, token) ∉ batch.uidView)
    (hdistinct : ∀ first ∈ rows, ∀ second ∈ rows, ∀ token, CarriesToken first.2 token →
      CarriesToken second.2 token → first.1 = second.1) :
    TokensListed (BlockBatch.addRows rows batch) := by
  constructor
  case coherent => exact htokens.coherent.addRows
  case listed =>
    intro outpoint entry token hheld htoken
    rw [mem_uidView_addRows]
    rcases held_addRows hheld with hrow | hold
    · exact .inl ⟨(outpoint, entry), hrow, htoken⟩
    · exact .inr (htokens.listed outpoint entry token hold htoken)
  case unique =>
    intro token outpoint other entry found hentry hfound htoken htoken'
    rcases held_addRows hentry with hrow | hold
    · rcases held_addRows hfound with hrow' | hold'
      · exact hdistinct (outpoint, entry) hrow (other, found) hrow' token htoken htoken'
      · exact absurd (htokens.listed other found token hold' htoken')
          (hnew (outpoint, entry) hrow token htoken)
    · rcases held_addRows hfound with hrow' | hold'
      · exact absurd (htokens.listed outpoint entry token hold htoken)
          (hnew (other, found) hrow' token htoken')
      · exact htokens.unique token outpoint other entry found hold hold' htoken htoken'

/-! ## Transactions and blocks -/

/-- The token ids of a transaction are distinct, and a replayed one names rows that
the overlay shows. -/
structure MintsApart (ctx : BlockContext) (state : UtxoState) (item : Transaction × Nat) :
    Prop where
  distinct : (mintedTokens item.1.outputs).Nodup
  shown : ctx.mode = .replay → ∀ outpoint ∈ spentInputs item.1 (isRewardTx item.2 item.1),
    (state.batch.getUtxo outpoint).isSome

theorem mem_gatedIds_of_minted {tx : Transaction} {token : Hash}
    (hminted : token ∈ mintedTokens tx.outputs) : (.nft, token) ∈ gatedIds tx := by
  obtain ⟨output, houtput, hmetadata⟩ := List.mem_filterMap.mp hminted
  refine List.mem_filterMap.mpr ⟨output, houtput, ?_⟩
  obtain ⟨metadata, hsome, rfl⟩ := Option.map_eq_some_iff.mp hmetadata
  have htype : output.outputType = .nft := by
    unfold Output.nftMetadata at hsome
    split at hsome
    · contradiction
    case isFalse hnft => simpa using (not_or.mp hnft).1
  simp [mintedId, htype, hsome]

theorem spendStage_batch {ctx : BlockContext} {tx : Transaction} {reward : Bool}
    {batch next : BlockBatch} (hspend : spendStage ctx tx reward batch = .ok next) :
    next = if reward then batch else (BlockBatch.spendInputs tx.inputs batch 0).1 := by
  unfold spendStage at hspend
  split at hspend
  case isTrue hreward =>
    rw [if_pos hreward]
    exact (Except.ok.inj hspend).symm
  case isFalse hreward =>
    rw [if_neg hreward]
    unfold BlockBatch.spendTransactionUtxos at hspend
    split at hspend
    case h_1 after amount hresult =>
      rw [hresult]
      exact (Except.ok.inj hspend).symm
    case h_2 after error hresult =>
      split at hspend
      · rw [hresult]
        exact (Except.ok.inj hspend).symm
      · contradiction

theorem spendInputs_uidView_subset (inputs : List Input) (batch : BlockBatch) (total : Nat) :
    (BlockBatch.spendInputs inputs batch total).1.uidView ⊆ batch.uidView := by
  induction inputs generalizing batch total with
  | nil => exact Finset.Subset.refl _
  | cons input inputs ih =>
      cases hspend : batch.spendUtxo (inputOutpoint input) with
      | error error => simp [BlockBatch.spendInputs, hspend]
      | ok pair =>
          obtain ⟨next, entry⟩ := pair
          obtain ⟨-, rfl⟩ := BlockBatch.spendUtxo_ok_iff.mp hspend
          simp only [BlockBatch.spendInputs, hspend]
          exact (ih _ _).trans fun uid huid =>
            ((BlockBatch.mem_uidView_recordSpend ..).mp huid).2

theorem TokensListed.processStep {ctx : BlockContext} {state next : UtxoState}
    {item : Transaction × Nat} (htokens : TokensListed state.batch)
    (hapart : MintsApart ctx state item) (hstep : processStep ctx state item = .ok next) :
    TokensListed next.batch := by
  obtain ⟨burned, spent, haccepted⟩ := processTransactionUtxos_ok hstep
  have hburned : Released state.batch burned.batch := by
    have hburn := haccepted.burn_ok
    simpa using released_slashBurn (by simpa using htokens.coherent) hburn
  have hreach : ∀ outpoint ∈ spentInputs item.1 (isRewardTx item.2 item.1),
      outpoint ∉ state.batch.spentInBatch := by
    intro outpoint hinput hspent
    have hshown : (state.batch.getUtxo outpoint).isSome := by
      by_cases hmode : ctx.mode = .replay
      · exact hapart.shown hmode outpoint hinput
      · exact getUtxo_of_accepted hmode hstep hinput
    simp [BlockBatch.getUtxo, hspent] at hshown
  have hspent : Released state.batch spent ∧ spent.uidView ⊆ burned.batch.uidView := by
    rw [spendStage_batch haccepted.spend_ok]
    split
    case isTrue hreward => exact ⟨hburned, Finset.Subset.refl _⟩
    case isFalse hreward =>
      refine ⟨hburned.spendInputs (fun input hinput => hreach _ ?_) 0,
        spendInputs_uidView_subset ..⟩
      exact mem_spentInputs.mpr ⟨by simpa using hreward, List.mem_map_of_mem hinput⟩
  rw [haccepted.next_eq]
  simp only [addStage, addTransactionUtxos_eq]
  apply (hspent.1.tokensListed htokens).addRows
  · intro row hrow token htoken hlisted
    have hgate := checkDuplicateIds_ok_iff.mp haccepted.unique_ok _
      (mem_gatedIds_of_minted (mem_mintedTokens_of_newRows hrow htoken))
    rw [(hburned.coherent.uniqueId _).mpr (hspent.2 hlisted)] at hgate
    contradiction
  · intro first hfirst second hsecond token htoken htoken'
    exact newRows_unique hapart.distinct hfirst hsecond htoken htoken'

theorem TokensListed.replaceOraclePrices {ctx : BlockContext} (prices : List PairPrice)
    {state : UtxoState} (htokens : TokensListed state.batch) :
    TokensListed (Node.replaceOraclePrices ctx prices state).batch := by
  refine foldl_invariant
    (fun (_ : List PairPrice) (current : UtxoState) => TokensListed current.batch) htokens ?_
  intro done price rest current hprices hcurrent
  have hconsumed : TokensListed
      (consumeOraclePrice current (oraclePriceOutpoint ctx.utxo.prim price.pairId)).batch := by
    unfold consumeOraclePrice
    split
    · exact hcurrent
    case h_2 previous hprevious =>
      simp only [spendOrKeep]
      split
      case h_1 next entry hspend =>
        obtain ⟨hentry, rfl⟩ := BlockBatch.spendUtxo_ok_iff.mp hspend
        refine Released.tokensListed hcurrent ((Released.refl hcurrent.coherent).spend hentry ?_)
        intro hspent
        simp [BlockBatch.getUtxo, hspent] at hprevious
      case h_2 => exact hcurrent
  have hrow : BlockBatch.addUtxo (consumeOraclePrice current
      (oraclePriceOutpoint ctx.utxo.prim price.pairId)).batch
        (oraclePriceOutpoint ctx.utxo.prim price.pairId)
        (oraclePriceEntry ctx.utxo.prim ctx.height price) =
      BlockBatch.addRows [(oraclePriceOutpoint ctx.utxo.prim price.pairId,
        oraclePriceEntry ctx.utxo.prim ctx.height price)]
        (consumeOraclePrice current (oraclePriceOutpoint ctx.utxo.prim price.pairId)).batch :=
    rfl
  simp only [replaceOraclePrice]
  rw [hrow]
  have hbare : ∀ token, ¬ CarriesToken (oraclePriceEntry ctx.utxo.prim ctx.height price)
      token := by
    simp [CarriesToken, uniqueIdOf, oraclePriceEntry]
  apply hconsumed.addRows
  · intro row hmem token htoken
    obtain rfl := List.mem_singleton.mp hmem
    exact absurd htoken (hbare token)
  · intro first hfirst second hsecond token htoken
    obtain rfl := List.mem_singleton.mp hfirst
    exact absurd htoken (hbare token)

/-- Every transaction of the items mints apart, wherever the run meets it. -/
def AllMintApart (ctx : BlockContext) (items : List (Transaction × Nat)) (db : StateDb) :
    Prop :=
  ∀ done item rest state, items = done ++ item :: rest →
    run (processStep ctx) done (UtxoState.initial db) = .ok state → MintsApart ctx state item

theorem TokensListed.run {ctx : BlockContext} {items : List (Transaction × Nat)}
    {db : StateDb} {final : UtxoState} (htokens : TokensListed db.beginBatch)
    (hapart : AllMintApart ctx items db)
    (hrun : Lib.run (Node.processStep ctx) items (UtxoState.initial db) = .ok final) :
    TokensListed final.batch := by
  have hinv := run_invariant (fun done (state : UtxoState) => TokensListed state.batch ∧
    Lib.run (Node.processStep ctx) done (UtxoState.initial db) = .ok state) ⟨htokens, rfl⟩ ?_ hrun
  · exact hinv.1
  · rintro done item rest state next hitems ⟨hstate, hreached⟩ hstep
    constructor
    · exact hstate.processStep (hapart done item rest state hitems hreached) hstep
    · exact run_append_ok.mpr ⟨state, hreached, run_cons_ok.mpr ⟨next, hstep, rfl⟩⟩

/-- The blocks of the run mint apart, each over the store it meets. -/
def BlocksMintApart (utxo : UtxoContext) (blocks : List ChainBlock) (db : StateDb) : Prop :=
  ∀ done block rest reached, blocks = done ++ block :: rest →
    run (applyChainStep utxo) done db = .ok reached →
      AllMintApart (block.context utxo) block.txs.zipIdx reached

theorem TokensListed.applyChainStep {utxo : UtxoContext} {block : ChainBlock}
    {db next : StateDb} (htokens : TokensListed db.beginBatch)
    (hapart : AllMintApart (block.context utxo) block.txs.zipIdx db)
    (hstep : Node.applyChainStep utxo db block = .ok next) :
    TokensListed next.beginBatch := by
  simp only [Node.applyChainStep, applyBlockUtxos] at hstep
  split at hstep
  · contradiction
  case h_2 after undo happly =>
    obtain rfl := Except.ok.inj hstep
    split at happly
    · contradiction
    case h_2 state hstate =>
      obtain ⟨rfl, -⟩ := Prod.mk.inj (Except.ok.inj happly)
      exact ((htokens.run hapart hstate).replaceOraclePrices block.prices).commit

theorem TokensListed.chain {utxo : UtxoContext} {blocks : List ChainBlock}
    {db final : StateDb} (htokens : TokensListed db.beginBatch)
    (hapart : BlocksMintApart utxo blocks db)
    (hrun : Lib.run (Node.applyChainStep utxo) blocks db = .ok final) :
    TokensListed final.beginBatch := by
  have hinv := run_invariant (fun done (reached : StateDb) =>
    TokensListed reached.beginBatch ∧
      Lib.run (Node.applyChainStep utxo) done db = .ok reached) ⟨htokens, rfl⟩ ?_ hrun
  · exact hinv.1
  · rintro done block rest reached next hblocks ⟨hreached, hran⟩ hstep
    constructor
    · exact hreached.applyChainStep (hapart done block rest reached hblocks hran) hstep
    · exact run_append_ok.mpr ⟨reached, hran, run_cons_ok.mpr ⟨next, hstep, rfl⟩⟩

/-! ## Transfers -/

/-- The transaction spends the unspent NFT with the token id and creates one output
with it. -/
structure Transfers (batch : BlockBatch) (tx : Transaction) (token : Hash) : Prop where
  spends : ∃ input ∈ tx.inputs, ∃ entry,
    batch.getUtxo (inputOutpoint input) = some entry ∧ CarriesToken entry token
  creates : (mintedTokens tx.outputs).count token = 1
  accused : tx.txType ≠ .slashProducer

theorem Transfers.refused {batch : BlockBatch} {tx : Transaction} {token : Hash}
    (htransfers : Transfers batch tx token) (htokens : TokensListed batch) :
    checkDuplicateIds batch tx.txType tx.outputs ≠ .ok () := by
  obtain ⟨input, -, entry, hentry, htoken⟩ := htransfers.spends
  have hlisted := htokens.listed _ entry token (held_of_getUtxo hentry) htoken
  have hminted : token ∈ mintedTokens tx.outputs :=
    List.count_pos_iff.mp (by rw [htransfers.creates]; exact Nat.one_pos)
  intro hok
  have hgate := checkDuplicateIds_ok_iff.mp hok _ (mem_gatedIds_of_minted hminted)
  rw [(htokens.coherent.uniqueId _).mpr hlisted] at hgate
  contradiction

theorem Transfers.not_processed {ctx : BlockContext} {txIndex : Nat} {tx : Transaction}
    {state next : UtxoState} {token : Hash} (htransfers : Transfers state.batch tx token)
    (htokens : TokensListed state.batch) :
    processTransactionUtxos ctx txIndex tx state ≠ .ok next := by
  intro hprocess
  obtain ⟨burned, spent, haccepted⟩ := processTransactionUtxos_ok hprocess
  have hburn := haccepted.burn_ok
  simp only [slashBurnInBatch, slashBurnOwner, htransfers.accused, ne_eq, not_false_eq_true,
    true_or, if_true] at hburn
  obtain rfl := Except.ok.inj hburn
  have hgate := haccepted.unique_ok
  rw [captureStage_batch] at hgate
  exact htransfers.refused htokens hgate

/-- Over a run of accepted blocks and into the next one, no two unspent NFTs share a
token id as long as the transactions mint apart; and no transfer passes the gate. -/
theorem nft_identity {utxo : UtxoContext} {db reached : StateDb} {blocks : List ChainBlock}
    (hexact : NftIndexExact db) (hblocks : BlocksMintApart utxo blocks db)
    (hreached : run (applyChainStep utxo) blocks db = .ok reached)
    {ctx : BlockContext} {items : List (Transaction × Nat)} {state : UtxoState}
    (hitems : AllMintApart ctx items reached)
    (hstate : run (processStep ctx) items (UtxoState.initial reached) = .ok state) :
    UniqueNfts reached.utxo ∧ UniqueNfts state.batch.view ∧
    ∀ (tx : Transaction) (txIndex : Nat) (token : Hash), Transfers state.batch tx token →
      checkDuplicateIds state.batch tx.txType tx.outputs ≠ .ok () ∧
        ∀ next, processTransactionUtxos ctx txIndex tx state ≠ .ok next := by
  have hchain := hexact.tokensListed.chain hblocks hreached
  have htokens := hchain.run hitems hstate
  refine ⟨?_, htokens.uniqueNfts, fun tx txIndex token htransfers => ⟨?_, fun next => ?_⟩⟩
  · have hunique := hchain.uniqueNfts
    simpa [BlockBatch.view, StateDb.beginBatch] using hunique
  · exact htransfers.refused htokens
  · exact htransfers.not_processed htokens

/-! ## One NFT and its transfer -/

def sampleToken : Hash := ⟨88⟩

def nftOutpoint : Outpoint := ⟨⟨9⟩, 1⟩

def sampleNft (owner : Hash) : Output where
  outputType := .nft
  amount := 1
  pubkeyHash := owner
  lockUntil := 0
  extraData := signatureCondition owner ++ (1 :: sampleToken.asBytes)

def nftDb : StateDb :=
  { sampleDb [(paidOutpoint, sampleEntry (sampleOutput 100 ⟨5⟩)),
      (nftOutpoint, sampleEntry (sampleNft ⟨5⟩))] with
    uniqueIds := {(.nft, sampleToken)} }

/-- The owner ⟨5⟩ hands the NFT to ⟨6⟩ and pays the fee. -/
def nftTransfer : Transaction :=
  sampleTransfer [nftOutpoint, paidOutpoint] [sampleNft ⟨6⟩, sampleOutput 90 ⟨5⟩]

theorem nftDb_exact : NftIndexExact nftDb := by
  have hrows : ∀ row ∈ nftDb.utxo.entries, uniqueIdOf row.2.output = none ∨
      (row.1 = nftOutpoint ∧ uniqueIdOf row.2.output = some (.nft, sampleToken)) := by
    decide +kernel
  have hcarry : ∀ outpoint entry token, nftDb.utxo.lookup outpoint = some entry →
      CarriesToken entry token → outpoint = nftOutpoint ∧ token = sampleToken := by
    intro outpoint entry token hentry htoken
    unfold CarriesToken at htoken
    rcases hrows ⟨outpoint, entry⟩ (Finmap.mem_lookup_iff.mp hentry) with hnone | ⟨rfl, hnft⟩
    · rw [hnone] at htoken
      contradiction
    · rw [hnft] at htoken
      exact ⟨rfl, (Prod.mk.inj (Option.some.inj htoken)).2.symm⟩
  constructor
  case listed =>
    intro token
    constructor
    · intro hlisted
      obtain rfl : token = sampleToken := by simpa [nftDb] using hlisted
      refine ⟨nftOutpoint, sampleEntry (sampleNft ⟨5⟩), ?_, ?_⟩
      · decide +kernel
      · unfold CarriesToken
        decide +kernel
    · rintro ⟨outpoint, entry, hentry, htoken⟩
      rw [(hcarry outpoint entry token hentry htoken).2]
      decide +kernel
  case unique =>
    intro token outpoint other entry found hentry hfound htoken htoken'
    rw [(hcarry outpoint entry token hentry htoken).1,
      (hcarry other found token hfound htoken').1]

theorem nftTransfer_transfers : Transfers nftDb.beginBatch nftTransfer sampleToken where
  spends := ⟨sampleInput nftOutpoint, by decide +kernel, sampleEntry (sampleNft ⟨5⟩),
    by decide +kernel, by unfold CarriesToken; decide +kernel⟩
  creates := by decide +kernel
  accused := by decide +kernel

/-- Validation accepts the transfer and the gate refuses it. -/
theorem gate_refuses_transfer :
    NftIndexExact nftDb ∧ Transfers nftDb.beginBatch nftTransfer sampleToken ∧
    sampleUtxoContext.validateTransactionWithUtxos 20 nftTransfer nftDb.beginBatch.getUtxo =
      .ok () ∧
    checkDuplicateIds nftDb.beginBatch nftTransfer.txType nftTransfer.outputs =
      .error (.nftExists sampleToken) :=
  ⟨nftDb_exact, nftTransfer_transfers, by decide +kernel, by decide +kernel⟩

/-- A coinbase on top of the store, and then the transfer. -/
theorem nft_identity_sample :
    ∃ state, run (processStep sampleBlockContext) [(sampleCoinbase, 0)]
        (UtxoState.initial nftDb) = .ok state ∧
      UniqueNfts state.batch.view ∧
      ∀ next, processTransactionUtxos sampleBlockContext 1 nftTransfer state ≠ .ok next := by
  have hshown : (run (processStep sampleBlockContext) [(sampleCoinbase, 0)]
      (UtxoState.initial nftDb)).toOption.any (fun state =>
        decide (state.batch.getUtxo nftOutpoint = some (sampleEntry (sampleNft ⟨5⟩)))) =
      true := by decide +kernel
  cases hstate : run (processStep sampleBlockContext) [(sampleCoinbase, 0)]
      (UtxoState.initial nftDb) with
  | error error =>
      rw [hstate] at hshown
      contradiction
  | ok state =>
      rw [hstate] at hshown
      have hget : state.batch.getUtxo nftOutpoint = some (sampleEntry (sampleNft ⟨5⟩)) :=
        of_decide_eq_true hshown
      have htransfers : Transfers state.batch nftTransfer sampleToken :=
        { nftTransfer_transfers with
          spends := ⟨sampleInput nftOutpoint, by decide +kernel, _, hget,
            by unfold CarriesToken; decide +kernel⟩ }
      have hblocks : BlocksMintApart sampleUtxoContext [] nftDb := by
        intro done block rest reached hempty
        simp at hempty
      have hitems : AllMintApart sampleBlockContext [(sampleCoinbase, 0)] nftDb := by
        intro done item rest reached hitems _
        rcases done with _ | ⟨first, done⟩
        · obtain ⟨rfl, -⟩ := List.cons.inj hitems
          exact ⟨by decide +kernel, by simp [sampleBlockContext]⟩
        · have hlength := congrArg List.length hitems
          simp at hlength
      obtain ⟨-, hunique, hrefused⟩ := nft_identity nftDb_exact hblocks rfl hitems hstate
      exact ⟨state, rfl, hunique, (hrefused nftTransfer 1 sampleToken htransfers).2⟩

end Doli.Node
