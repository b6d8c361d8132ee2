import Doli.Mempool.Selection

/-!
# What revalidation keeps

`revalidate` looks at each resident alone against the UTXO set.  What it keeps has every input
there, so it drops a chain of unconfirmed transactions behind its first one.
-/

namespace Doli

open Doli.Core Doli.Lib Doli.Storage Doli.Producer Doli.Node

namespace Mempool

/-! ## The verdicts on a resident -/

section

variable (config : MempoolConfig) (view : NodeView) (pool : Mempool) (db : StateDb)
  (height slot : Nat)

/-- One of the rules is against the resident; `producerRule` are the rules of the next height
on withdrawals, added bonds and registrations. -/
inductive Refused (hash : Hash) (tx : Transaction) : Prop
  | withdrawal
      (hverdict : withdrawalVerdict config view pool db tx height false false ≠ .ok ())
  | bondSpend
      (hverdict : bondSpendRefusal config tx (slashBondOwners config pool height) db ≠ .ok ())
  | addBond (hverdict : addbondHoldingsVerdict config view tx height ≠ .ok ())
  | duplicateRegistration (hlisted : hash ∈ registrationsThatBecameDuplicates config view pool)
  | slashRule
      (hlisted : hash ∈ slashRuleEvictions view (config.admissionBaseCtx view height slot [])
        pool db)
  | producerRule (hlisted : hash ∈ unmineableProducerTxs config pool height)

def Confirmed (tx : Transaction) : Prop :=
  ∀ input ∈ tx.inputs, (db.getUtxo (inputOutpoint input)).isSome

/-- Confirmed and refused by no rule. -/
def Sound (hash : Hash) : Prop :=
  pool.Holds hash fun entry =>
    Confirmed db entry.tx ∧ ¬Refused config view pool db height slot hash entry.tx

/-- A resident spends an output of `parent` that the UTXO set does not hold. -/
def DependsOn (hash parent : Hash) : Prop :=
  pool.Holds hash fun entry => ∃ input ∈ entry.tx.inputs, input.prevTxHash = parent ∧
    db.getUtxo (inputOutpoint input) = none ∧ pool.HasOutput input

/-- `next` is what should be left of `pool`: every input of a resident is confirmed or an
output of what is left, and no rule is against it or what it depends on. -/
def RevalidatesTo (next : Mempool) : Prop :=
  ∀ hash entry, pool.entries.lookup hash = some entry →
    (hash ∈ next.entries ↔
      (∀ input ∈ entry.tx.inputs,
        (db.getUtxo (inputOutpoint input)).isSome ∨ next.HasOutput input) ∧
      ¬Refused config view pool db height slot hash entry.tx ∧
      ∀ ancestor, Relation.TransGen (DependsOn pool db) hash ancestor →
        ¬pool.Holds ancestor fun found =>
          Refused config view pool db height slot ancestor found.tx)

/-- No resident that the rules let pass builds on sound ones. -/
def Chainless : Prop :=
  ∀ hash entry, pool.entries.lookup hash = some entry →
    ¬Refused config view pool db height slot hash entry.tx →
      (∀ input ∈ entry.tx.inputs, (db.getUtxo (inputOutpoint input)).isSome ∨
        (Sound config view pool db height slot input.prevTxHash ∧ pool.HasOutput input)) →
        Confirmed db entry.tx

end

section

variable {config : MempoolConfig} {view : NodeView} {pool : Mempool} {db : StateDb}
  {height slot : Nat} {hash : Hash} {entry : MempoolEntry}

theorem holds_removeAll {p : MempoolEntry → Prop} (hp : ∀ entry, p entry.bare ↔ p entry)
    (hashes : List Hash) :
    (pool.removeAll hashes).Holds hash p ↔ hash ∉ hashes ∧ pool.Holds hash p := by
  induction hashes generalizing pool with
  | nil => simp [removeAll]
  | cons first rest ih =>
      change ((pool.removeTransaction first).removeAll rest).Holds hash p ↔ _
      rw [ih, holds_removeTransaction hp, List.mem_cons, not_or]
      constructor
      · rintro ⟨hrest, hfirst, hholds⟩
        exact ⟨⟨hfirst, hrest⟩, hholds⟩
      · rintro ⟨⟨hfirst, hrest⟩, hholds⟩
        exact ⟨hrest, hfirst, hholds⟩

theorem mem_entries_iff : hash ∈ pool.entries ↔ pool.Holds hash fun _ => True := by
  simp [Holds, Finmap.mem_iff]

theorem confirmed_iff {tx : Transaction} :
    (tx.inputs.all fun input => (db.getUtxo (inputOutpoint input)).isSome) = true ↔
      Confirmed db tx :=
  List.all_eq_true

theorem stillValid_eq_true {tx : Transaction} :
    stillValid config view pool db height tx = true ↔
      Confirmed db tx ∧
        withdrawalVerdict config view pool db tx height false false = .ok () ∧
          bondSpendRefusal config tx (slashBondOwners config pool height) db = .ok () ∧
            addbondHoldingsVerdict config view tx height = .ok () := by
  simp only [stillValid, Bool.and_eq_true, decide_eq_true_eq, confirmed_iff, and_assoc]

theorem not_mem_toRemove (hentry : pool.entries.lookup hash = some entry) :
    hash ∉ toRemove config view pool db height slot ↔
      Confirmed db entry.tx ∧ ¬Refused config view pool db height slot hash entry.tx := by
  have hselected : hash ∈ pool.select (fun other =>
      !stillValid config view pool db height other.tx) ↔
        ¬stillValid config view pool db height entry.tx = true := by
    rw [mem_select, holds_iff_of_lookup hentry, Bool.not_eq_true', Bool.not_eq_true]
  simp only [toRemove, List.mem_append, not_or, hselected, not_not, stillValid_eq_true]
  constructor
  · rintro ⟨⟨⟨⟨hconfirmed, hwithdrawal, hbonds, haddBond⟩, hregistration⟩, hslash⟩, hproducer⟩
    refine ⟨hconfirmed, ?_⟩
    rintro (hverdict | hverdict | hverdict | hlisted | hlisted | hlisted)
    · exact hverdict hwithdrawal
    · exact hverdict hbonds
    · exact hverdict haddBond
    · exact hregistration hlisted
    · exact hslash hlisted
    · exact hproducer hlisted
  · rintro ⟨hconfirmed, hpasses⟩
    refine ⟨⟨⟨⟨hconfirmed, ?_, ?_, ?_⟩, ?_⟩, ?_⟩, ?_⟩
    · by_contra hverdict
      exact hpasses (.withdrawal hverdict)
    · by_contra hverdict
      exact hpasses (.bondSpend hverdict)
    · by_contra hverdict
      exact hpasses (.addBond hverdict)
    · exact fun hlisted => hpasses (.duplicateRegistration hlisted)
    · exact fun hlisted => hpasses (.slashRule hlisted)
    · exact fun hlisted => hpasses (.producerRule hlisted)

theorem holds_revalidate {p : MempoolEntry → Prop} (hp : ∀ entry, p entry.bare ↔ p entry) :
    (revalidate config view pool db height slot).Holds hash p ↔
      Sound config view (pool.watch slot) db height slot hash ∧ pool.Holds hash p := by
  unfold revalidate
  rw [holds_removeAll hp]
  constructor
  · rintro ⟨hstays, entry, hentry, hproperty⟩
    exact ⟨⟨entry, hentry, (not_mem_toRemove hentry).mp hstays⟩, entry, hentry, hproperty⟩
  · rintro ⟨⟨entry, hentry, hsound⟩, hholds⟩
    exact ⟨(not_mem_toRemove hentry).mpr hsound, hholds⟩

theorem hasOutput_revalidate {input : Input} :
    (revalidate config view pool db height slot).HasOutput input ↔
      Sound config view (pool.watch slot) db height slot input.prevTxHash ∧
        pool.HasOutput input :=
  holds_revalidate fun _ => Iff.rfl

theorem mem_entries_revalidate :
    hash ∈ (revalidate config view pool db height slot).entries ↔
      Sound config view (pool.watch slot) db height slot hash := by
  rw [mem_entries_iff, holds_revalidate fun _ => Iff.rfl]
  exact and_iff_left_of_imp fun hsound => hsound.imp fun _ hrow => ⟨hrow.1, trivial⟩

theorem sound_iff_of_lookup (hentry : pool.entries.lookup hash = some entry) :
    Sound config view pool db height slot hash ↔
      Confirmed db entry.tx ∧ ¬Refused config view pool db height slot hash entry.tx :=
  holds_iff_of_lookup hentry

theorem not_dependsOn (hentry : pool.entries.lookup hash = some entry)
    (hconfirmed : Confirmed db entry.tx) {parent : Hash} : ¬DependsOn pool db hash parent := by
  intro hdepends
  obtain ⟨input, hinput, -, hspent, -⟩ := (holds_iff_of_lookup hentry).mp hdepends
  have hfound := hconfirmed input hinput
  rw [hspent] at hfound
  cases hfound

theorem sound_of_dependsOn (hentry : pool.entries.lookup hash = some entry)
    (hinputs : ∀ input ∈ entry.tx.inputs, (db.getUtxo (inputOutpoint input)).isSome ∨
      (Sound config view pool db height slot input.prevTxHash ∧ pool.HasOutput input))
    {ancestor : Hash} (hdepends : Relation.TransGen (DependsOn pool db) hash ancestor) :
    Sound config view pool db height slot ancestor := by
  induction hdepends with
  | single hparent =>
      obtain ⟨input, hinput, rfl, hspent, -⟩ := (holds_iff_of_lookup hentry).mp hparent
      refine (hinputs input hinput).elim (fun hfound => ?_) And.left
      rw [hspent] at hfound
      cases hfound
  | tail _ hnext ih =>
      obtain ⟨found, hfound, hconfirmed, -⟩ := ih
      exact absurd hnext (not_dependsOn hfound hconfirmed)

theorem chainless_of_revalidatesTo
    (hexact : RevalidatesTo config view (pool.watch slot) db height slot
      (revalidate config view pool db height slot)) :
    Chainless config view (pool.watch slot) db height slot := by
  simp only [RevalidatesTo, mem_entries_revalidate, hasOutput_revalidate] at hexact
  intro hash entry hentry hpasses hinputs
  have hsound : Sound config view (pool.watch slot) db height slot hash := by
    refine (hexact hash entry hentry).mpr ⟨hinputs, hpasses, ?_⟩
    rintro ancestor hdepends ⟨found, hfound, hrefused⟩
    obtain ⟨other, hother, -, hfree⟩ := sound_of_dependsOn hentry hinputs hdepends
    rw [hfound] at hother
    exact hfree (Option.some.inj hother ▸ hrefused)
  exact ((sound_iff_of_lookup hentry).mp hsound).1

theorem revalidatesTo_of_chainless
    (hchainless : Chainless config view (pool.watch slot) db height slot) :
    RevalidatesTo config view (pool.watch slot) db height slot
      (revalidate config view pool db height slot) := by
  simp only [RevalidatesTo, mem_entries_revalidate, hasOutput_revalidate]
  intro hash entry hentry
  rw [sound_iff_of_lookup hentry]
  constructor
  · rintro ⟨hconfirmed, hpasses⟩
    refine ⟨fun input hinput => .inl (hconfirmed input hinput), hpasses, ?_⟩
    intro ancestor hdepends
    obtain ⟨parent, hparent, -⟩ := Relation.TransGen.head'_iff.mp hdepends
    exact absurd hparent (not_dependsOn hentry hconfirmed)
  · rintro ⟨hinputs, hpasses, -⟩
    exact ⟨hchainless hash entry hentry hpasses hinputs, hpasses⟩

end

/-- In every state, over every UTXO set: what is left is what should be exactly where no
resident that the rules let pass builds on sound ones. -/
theorem revalidate_exact_iff (config : MempoolConfig) (view : NodeView) (pool : Mempool)
    (db : StateDb) (height slot : Nat) :
    RevalidatesTo config view (pool.watch slot) db height slot
        (revalidate config view pool db height slot) ↔
      Chainless config view (pool.watch slot) db height slot :=
  ⟨chainless_of_revalidatesTo, revalidatesTo_of_chainless⟩

def sampleParent : Transaction := samplePayment ⟨⟨9⟩, 0⟩ 1000

def sampleChild : Transaction :=
  samplePayment ⟨sampleMempoolConfig.prim.txHash sampleParent, 0⟩ 900

/-- The child of a payment that stays is dropped. -/
theorem unconfirmed_child_dropped :
    ¬∀ config view pool db height slot,
      RevalidatesTo config view (pool.watch slot) db height slot
        (revalidate config view pool db height slot) := by
  intro hall
  have hchainless := chainless_of_revalidatesTo
    (hall sampleMempoolConfig sampleView (samplePackagePool 1000 900) sampleCoins 20 5)
  have hparent : (((samplePackagePool 1000 900).watch 5).entries.lookup
      (sampleMempoolConfig.prim.txHash sampleParent)).map MempoolEntry.tx =
        some sampleParent := by
    decide +kernel
  have hchild : (((samplePackagePool 1000 900).watch 5).entries.lookup
      (sampleMempoolConfig.prim.txHash sampleChild)).map MempoolEntry.tx =
        some sampleChild := by
    decide +kernel
  have hstays : sampleMempoolConfig.prim.txHash sampleParent ∉ toRemove sampleMempoolConfig
      sampleView ((samplePackagePool 1000 900).watch 5) sampleCoins 20 5 := by
    decide +kernel
  have hpasses : ¬Refused sampleMempoolConfig sampleView ((samplePackagePool 1000 900).watch 5)
      sampleCoins 20 5 (sampleMempoolConfig.prim.txHash sampleChild) sampleChild := by
    rintro (hverdict | hverdict | hverdict | hlisted | hlisted | hlisted)
    · exact hverdict (by decide +kernel)
    · exact hverdict (by decide +kernel)
    · exact hverdict (by decide +kernel)
    · exact absurd hlisted (by decide +kernel)
    · exact absurd hlisted (by decide +kernel)
    · exact absurd hlisted (by decide +kernel)
  have hopen : ¬Confirmed sampleCoins sampleChild := by
    rw [← confirmed_iff]
    decide +kernel
  obtain ⟨parent, hparent, hparentTx⟩ := Option.map_eq_some_iff.mp hparent
  obtain ⟨child, hchild, hchildTx⟩ := Option.map_eq_some_iff.mp hchild
  have hsound := (not_mem_toRemove hparent).mp hstays
  generalize sampleMempoolConfig.prim.txHash sampleChild = key at hchild hpasses
  rw [← hchildTx] at hpasses hopen
  apply hopen
  apply hchainless _ child hchild hpasses
  intro input hinput
  rw [hchildTx] at hinput
  obtain rfl := List.mem_singleton.mp hinput
  have hpaid : 0 < parent.tx.outputs.length := by
    rw [hparentTx]
    exact Nat.zero_lt_one
  exact .inr ⟨⟨parent, hparent, hsound⟩, parent, hparent, hpaid⟩

end Mempool

end Doli
