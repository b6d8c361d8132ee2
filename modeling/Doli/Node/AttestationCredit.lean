import Doli.Node.AppliedBlock

/-!
# Attestation credit

The builder writes bits over the universe of the parent state, the decoder
reads them over the universe of the state that the block leaves.  The epoch
list is the same in both; behind it a key is found at its place only if as many
active keys come before it.
-/

namespace Doli.Node

open Doli.Core Doli.Lib Doli.Storage Doli.Producer

/-- The keys whose bits are set. -/
def includedKeys (keys : List PublicKey) (bitfield : Bytes) : List PublicKey :=
  picks ((List.range keys.length).filter (hasBit bitfield)) keys

/-! ## Bits over a list and what follows it -/

/-- A set bit stands at a place of `key` in `keys`. -/
def NamedIn (keys : List PublicKey) (bitfield : Bytes) (key : PublicKey) : Prop :=
  ∃ index, hasBit bitfield index = true ∧ keys[index]? = some key

/-- The same for keys whose places begin behind `base`. -/
def NamedBehind (base keys : List PublicKey) (bitfield : Bytes) (key : PublicKey) :
    Prop :=
  ∃ index, hasBit bitfield (base.length + index) = true ∧ keys[index]? = some key

section Positions

variable {base keys others : List PublicKey} {bitfield : Bytes} {key : PublicKey}

theorem NamedIn.mem (hnamed : NamedIn keys bitfield key) : key ∈ keys := by
  obtain ⟨index, -, hkey⟩ := hnamed
  exact List.mem_of_getElem? hkey

theorem NamedBehind.mem (hnamed : NamedBehind base keys bitfield key) : key ∈ keys := by
  obtain ⟨index, -, hkey⟩ := hnamed
  exact List.mem_of_getElem? hkey

theorem mem_includedKeys :
    key ∈ includedKeys keys bitfield ↔ NamedIn keys bitfield key := by
  simp only [includedKeys, picks, List.mem_filterMap, List.mem_filter, List.mem_range]
  constructor
  · rintro ⟨index, ⟨-, hbit⟩, hkey⟩
    exact ⟨index, hbit, hkey⟩
  · rintro ⟨index, hbit, hkey⟩
    exact ⟨index, ⟨(List.getElem?_eq_some_iff.mp hkey).choose, hbit⟩, hkey⟩

theorem namedIn_append :
    NamedIn (base ++ keys) bitfield key ↔
      NamedIn base bitfield key ∨ NamedBehind base keys bitfield key := by
  constructor
  · rintro ⟨index, hbit, hkey⟩
    rw [List.getElem?_append] at hkey
    split at hkey
    · exact .inl ⟨index, hbit, hkey⟩
    · refine .inr ⟨index - base.length, ?_, hkey⟩
      rwa [show base.length + (index - base.length) = index by omega]
  · rintro (⟨index, hbit, hkey⟩ | ⟨index, hbit, hkey⟩)
    · refine ⟨index, hbit, ?_⟩
      rwa [List.getElem?_append_left (List.getElem?_eq_some_iff.mp hkey).choose]
    · refine ⟨base.length + index, hbit, ?_⟩
      rwa [List.getElem?_append_right (by omega), Nat.add_sub_cancel_left]

/-- The positions of the set bits behind `base`. -/
def extraPositions (base keys : List PublicKey) (bitfield : Bytes) : List Nat :=
  (List.range keys.length).filter fun index => hasBit bitfield (base.length + index)

theorem mem_extraPositions {index : Nat} :
    index ∈ extraPositions base keys bitfield ↔
      index < keys.length ∧ hasBit bitfield (base.length + index) = true := by
  simp [extraPositions]

theorem extraPositions_ascending :
    (extraPositions base keys bitfield).Pairwise (· < ·) :=
  List.pairwise_lt_range.filter _

/-- No bit is set behind `base` and `keys`. -/
def BitsWithin (base keys : List PublicKey) (bitfield : Bytes) : Prop :=
  ∀ index, hasBit bitfield (base.length + index) = true → index < keys.length

theorem BitsWithin.mem_picks (hwithin : BitsWithin base keys bitfield) :
    key ∈ picks (extraPositions base keys bitfield) others ↔
      NamedBehind base others bitfield key := by
  simp only [picks, List.mem_filterMap, mem_extraPositions]
  constructor
  · rintro ⟨index, ⟨-, hbit⟩, hkey⟩
    exact ⟨index, hbit, hkey⟩
  · rintro ⟨index, hbit, hkey⟩
    exact ⟨index, ⟨hwithin index hbit, hbit⟩, hkey⟩

/-- The same extra keys are named exactly if each stays active with as many active
keys before it. -/
theorem namedBehind_same_iff {active later : List PublicKey}
    (hwithin : BitsWithin base (extraKeys base active) bitfield) :
    (∀ key, NamedBehind base (extraKeys base later) bitfield key ↔
        NamedBehind base (extraKeys base active) bitfield key) ↔
      ∀ key, NamedBehind base (extraKeys base active) bitfield key →
        key ∈ later ∧ extraRank base later key = extraRank base active key := by
  have hsome : ∀ {members : List PublicKey} {index : Nat} {key : PublicKey},
      (extraKeys base members)[index]? = some key ↔
        key ∈ extraKeys base members ∧ extraRank base members key = index :=
    (extraKeys_ascending base _).getElem?_eq_some keyBelow_irrefl
  simp only [← hwithin.mem_picks]
  rw [picks_same_iff (extraKeys_ascending base active) (extraKeys_ascending base later)
    extraPositions_ascending fun position hposition => (mem_extraPositions.mp hposition).1]
  simp only [hwithin.mem_picks]
  constructor
  · rintro hsame key ⟨index, hbit, hkey⟩
    have hlater : (extraKeys base later)[index]? = some key := by
      rw [hsame index (mem_extraPositions.mpr ⟨hwithin index hbit, hbit⟩), hkey]
    obtain ⟨hmem, hrank⟩ := hsome.mp hlater
    exact ⟨(mem_extraKeys.mp hmem).1, hrank.trans (hsome.mp hkey).2.symm⟩
  · intro hplaces index hposition
    obtain ⟨hindex, hbit⟩ := mem_extraPositions.mp hposition
    cases hkey : (extraKeys base active)[index]? with
    | none =>
        have hlength := List.getElem?_eq_none_iff.mp hkey
        omega
    | some key =>
        obtain ⟨hlater, hrank⟩ := hplaces key ⟨index, hbit, hkey⟩
        obtain ⟨hmem, hplace⟩ := hsome.mp hkey
        rw [hsome, hrank]
        exact ⟨mem_extraKeys.mpr ⟨hlater, (mem_extraKeys.mp hmem).2⟩, hplace⟩

/-- Decoding under the conditions `data` and `full` names what was encoded exactly
if nothing was, or everything outside `base` keeps its place. -/
theorem named_same_iff {active later : List PublicKey} {data full : Prop}
    (hwithin : BitsWithin base (extraKeys base active) bitfield) :
    (∀ key, (data ∧ (NamedIn base bitfield key ∨
        full ∧ NamedBehind base (extraKeys base later) bitfield key)) ↔
      NamedIn (base ++ extraKeys base active) bitfield key) ↔
    (∀ key, ¬NamedIn (base ++ extraKeys base active) bitfield key) ∨
      data ∧ ∀ key, NamedIn (base ++ extraKeys base active) bitfield key →
        key ∉ base → full ∧ key ∈ later ∧
          extraRank base later key = extraRank base active key := by
  have hbehind : ∀ {members : List PublicKey} {key : PublicKey},
      NamedBehind base (extraKeys base members) bitfield key → key ∉ base :=
    fun hnamed => (mem_extraKeys.mp hnamed.mem).2
  simp only [namedIn_append]
  constructor
  · intro hsame
    by_cases hnone : ∀ key, ¬(NamedIn base bitfield key ∨
        NamedBehind base (extraKeys base active) bitfield key)
    · exact .inl hnone
    · obtain ⟨first, hfirst⟩ := not_forall_not.mp hnone
      have hdata := ((hsame first).mpr hfirst).1
      refine .inr ⟨hdata, fun key hkey hbase => ?_⟩
      rcases ((hsame key).mpr hkey).2 with hin | ⟨hfull, -⟩
      · exact absurd hin.mem hbase
      · refine ⟨hfull, (namedBehind_same_iff hwithin).mp ?_ key ?_⟩
        · intro other
          constructor
          · intro hlater
            rcases (hsame other).mp ⟨hdata, .inr ⟨hfull, hlater⟩⟩ with hin | hactive
            · exact absurd hin.mem (hbehind hlater)
            · exact hactive
          · intro hactive
            rcases ((hsame other).mpr (.inr hactive)).2 with hin | ⟨-, hlater⟩
            · exact absurd hin.mem (hbehind hactive)
            · exact hlater
        · rcases hkey with hin | hactive
          · exact absurd hin.mem hbase
          · exact hactive
  · rintro (hnone | ⟨hdata, hplaces⟩) key
    · refine iff_of_false ?_ (hnone key)
      rintro ⟨-, hin | ⟨-, index, hbit, -⟩⟩
      · exact hnone key (.inl hin)
      · cases hfound : (extraKeys base active)[index]? with
        | none =>
            have hlength := List.getElem?_eq_none_iff.mp hfound
            have hindex := hwithin index hbit
            omega
        | some found => exact hnone found (.inr ⟨index, hbit, hfound⟩)
    · have hsame := (namedBehind_same_iff hwithin).mpr fun key hactive =>
        (hplaces key (.inr hactive) (hbehind hactive)).2
      constructor
      · rintro ⟨-, hin | ⟨-, hlater⟩⟩
        · exact .inl hin
        · exact .inr ((hsame key).mp hlater)
      · rintro (hin | hactive)
        · exact ⟨hdata, .inl hin⟩
        · exact ⟨hdata, .inr ⟨(hplaces key (.inr hactive) (hbehind hactive)).1,
            (hsame key).mpr hactive⟩⟩

end Positions

/-! ## The builder and the validators -/

section Build

variable (builder config : NodeConfig) (node : NodeState)

/-- The keys that a builder at the tip of `node` gives bits to. -/
def encoderUniverse : List PublicKey :=
  encoderUniverseAt builder.incI178AttestationBlsActivationHeight
    (node.chainState.bestHeight + 1) node.epochState.producerList
    (builder.activeKeys node.producerSet (node.chainState.bestHeight + 1))

def builtCommitment (attested : List PublicKey) (pool : ParentSignaturePool)
    (parent : Hash) : AttestationCommitment :=
  buildAttestationCommitmentAt builder.utxo.prim builder.bls
    builder.incI178AttestationBlsActivationHeight (node.chainState.bestHeight + 1)
    (encoderUniverse builder node) attested pool parent

/-- Width and stray bits of a body bitfield; an empty one is not looked at. -/
def acceptsBitfield (bitfield : Bytes) : Bool :=
  let height := node.chainState.bestHeight + 1
  let count := strayBitUniverseWidthAt config.incI178AttestationBlsActivationHeight
    height node.epochState.producerList (config.activeKeys node.producerSet height)
  bitfield.isEmpty ||
    (bitfieldWidthAcceptedAt bitfield.length count height
      config.incI178AttestationBlsActivationHeight &&
      validateAttestationBitfieldVec bitfield count)

variable {builder config node}

theorem mem_activeKeys (hiterates : config.Iterates) {set : ProducerSet} {height : Nat}
    {key : PublicKey} :
    key ∈ config.activeKeys set height ↔ ∃ hash info,
      set.producers.lookup hash = some info ∧ isActiveAt height info = true ∧
        info.publicKey = key := by
  simp only [NodeConfig.activeKeys, NodeConfig.activeProducersAtHeight,
    NodeConfig.allProducers, List.mem_map, List.mem_filter, hiterates set.producers]
  constructor
  · rintro ⟨info, ⟨⟨hash, hinfo⟩, hactive⟩, hkey⟩
    exact ⟨hash, info, hinfo, hactive, hkey⟩
  · rintro ⟨hash, info, hinfo, hactive, hkey⟩
    exact ⟨info, ⟨⟨hash, hinfo⟩, hactive⟩, hkey⟩

theorem extraKeys_activeKeys (hbuilder : builder.Iterates) (hconfig : config.Iterates)
    {base : List PublicKey} {set : ProducerSet} {height : Nat} :
    extraKeys base (builder.activeKeys set height) =
      extraKeys base (config.activeKeys set height) :=
  extraKeys_congr fun key => by rw [mem_activeKeys hbuilder, mem_activeKeys hconfig]

theorem builtCommitment_bitfield {attested : List PublicKey}
    {pool : ParentSignaturePool} {parent : Hash}
    (hopen : builder.incI178AttestationBlsActivationHeight ≤
      node.chainState.bestHeight + 1) :
    (builtCommitment builder node attested pool parent).bitfield = [] ∨
      ∃ indices, (builtCommitment builder node attested pool parent).bitfield =
        encodeAttestationBitfieldVec indices (encoderUniverse builder node).length := by
  unfold builtCommitment buildAttestationCommitmentAt
  rw [if_pos hopen]
  unfold pooledCommitment
  split
  · exact .inl rfl
  · dsimp only
    split
    · exact .inl rfl
    · split
      · exact .inl rfl
      · exact .inr ⟨_, rfl⟩

end Build

/-! ## The decoder -/

section Credit

variable {config : NodeConfig} {height : Nat} {active : List PublicKey} {block : Block}
  {epochState : EpochState}

theorem decodeUniverse_eq
    (hopen : config.incI178AttestationBlsActivationHeight ≤ height)
    (hlist : epochState.producerList.Nodup) :
    decodeUniverse config height epochState active true =
      if config.fullBitfieldDecodeHeight ≤ height then
        ((epochState.producerList ++ extraKeys epochState.producerList active).length,
          extraKeys epochState.producerList active)
      else (epochState.producerList.length, []) := by
  unfold decodeUniverse postCommitUniverseAt encoderUniverseAt
  simp only [and_true, if_pos hopen, attestationUniverse_of_nodup hlist,
    List.drop_left]

/-- A set bit credits the key of the epoch list at its place, and above the full
decode the extra key at its place. -/
theorem mem_creditedKeys {key : PublicKey}
    (hopen : config.incI178AttestationBlsActivationHeight ≤ height)
    (hlist : epochState.producerList.Nodup) :
    key ∈ creditedKeys config height active block epochState ↔
      hasAttestationData block epochState = true ∧
        (NamedIn epochState.producerList block.attestationBitfield key ∨
          config.fullBitfieldDecodeHeight ≤ height ∧
            NamedBehind epochState.producerList
              (extraKeys epochState.producerList active) block.attestationBitfield key) := by
  unfold creditedKeys attestedIndices
  dsimp only
  cases hdata : hasAttestationData block epochState with
  | false => simp
  | true =>
      rw [decodeUniverse_eq hopen hlist]
      simp only [true_and, ne_eq]
      by_cases hempty : block.attestationBitfield = []
      · simp [hempty, hasBit, NamedIn, NamedBehind]
      · rw [if_pos hempty]
        simp only [List.mem_filterMap, mem_decode]
        by_cases hfull : config.fullBitfieldDecodeHeight ≤ height
        · simp only [hfull, if_true, true_and]
          rw [← namedIn_append]
          constructor
          · rintro ⟨index, ⟨-, hbit⟩, hkey⟩
            refine ⟨index, hbit, ?_⟩
            rwa [List.getElem?_append]
          · rintro ⟨index, hbit, hkey⟩
            refine ⟨index, ⟨(List.getElem?_eq_some_iff.mp hkey).choose, hbit⟩, ?_⟩
            rwa [List.getElem?_append] at hkey
        · simp only [hfull, if_false, false_and, or_false]
          constructor
          · rintro ⟨index, ⟨hindex, hbit⟩, hkey⟩
            rw [if_pos hindex] at hkey
            exact ⟨index, hbit, hkey⟩
          · rintro ⟨index, hbit, hkey⟩
            have hindex := (List.getElem?_eq_some_iff.mp hkey).choose
            exact ⟨index, ⟨hindex, hbit⟩, by rwa [if_pos hindex]⟩

end Credit

/-! ## Credit and inclusion -/

section Block

variable {builder config : NodeConfig} {node : NodeState} {left : ProducerSet}
  {block : Block}

/-- The block carries what the builder committed to. -/
structure CarriesAttendance (builder : NodeConfig) (node : NodeState) (block : Block) :
    Prop where
  built : ∃ attested pool parent,
    block.attestationBitfield =
        (builtCommitment builder node attested pool parent).bitfield ∧
      block.presenceRoot =
        (builtCommitment builder node attested pool parent).presenceRoot

/-- The block is decoded at all, and in the set it leaves every included key
outside the epoch list stands at its place among the extra keys. -/
structure KeepsPlaces (builder config : NodeConfig) (node : NodeState)
    (left : ProducerSet) (block : Block) : Prop where
  root : block.presenceRoot ≠ ⟨0⟩
  list : node.epochState.producerList ≠ []
  places : ∀ key ∈ includedKeys (encoderUniverse builder node) block.attestationBitfield,
    key ∉ node.epochState.producerList →
      config.fullBitfieldDecodeHeight ≤ node.chainState.bestHeight + 1 ∧
        key ∈ config.activeKeys left (node.chainState.bestHeight + 1) ∧
        extraRank node.epochState.producerList
            (config.activeKeys left (node.chainState.bestHeight + 1)) key =
          extraRank node.epochState.producerList
            (config.activeKeys node.producerSet (node.chainState.bestHeight + 1)) key

theorem encoderUniverse_eq (hbuilder : builder.Iterates) (hconfig : config.Iterates)
    (hopen : builder.incI178AttestationBlsActivationHeight ≤
      node.chainState.bestHeight + 1)
    (hlist : node.epochState.producerList.Nodup) :
    encoderUniverse builder node = node.epochState.producerList ++
      extraKeys node.epochState.producerList
        (config.activeKeys node.producerSet (node.chainState.bestHeight + 1)) := by
  rw [encoderUniverse, encoderUniverseAt, if_pos hopen,
    attestationUniverse_of_nodup hlist, extraKeys_activeKeys hbuilder hconfig]

theorem CarriesAttendance.hasBit_lt (hcarries : CarriesAttendance builder node block)
    (hopen : builder.incI178AttestationBlsActivationHeight ≤
      node.chainState.bestHeight + 1) {index : Nat}
    (hbit : hasBit block.attestationBitfield index = true) :
    index < (encoderUniverse builder node).length := by
  obtain ⟨attested, pool, parent, hbitfield, -⟩ := hcarries.built
  rw [hbitfield] at hbit
  rcases @builtCommitment_bitfield builder node attested pool parent hopen with
    hnone | ⟨indices, hindices⟩
  · simp [hnone, hasBit] at hbit
  · rw [hindices, hasBit_encode] at hbit
    exact hbit.2

theorem CarriesAttendance.accepted (hcarries : CarriesAttendance builder node block)
    (hbuilder : builder.Iterates) (hconfig : config.Iterates)
    (hgate : config.incI178AttestationBlsActivationHeight =
      builder.incI178AttestationBlsActivationHeight)
    (hopen : builder.incI178AttestationBlsActivationHeight ≤
      node.chainState.bestHeight + 1)
    (hlist : node.epochState.producerList.Nodup) :
    acceptsBitfield config node block.attestationBitfield = true := by
  obtain ⟨attested, pool, parent, hbitfield, -⟩ := hcarries.built
  have hcount : strayBitUniverseWidthAt config.incI178AttestationBlsActivationHeight
      (node.chainState.bestHeight + 1) node.epochState.producerList
      (config.activeKeys node.producerSet (node.chainState.bestHeight + 1)) =
      (encoderUniverse builder node).length := by
    rw [strayBitUniverseWidthAt, hgate, if_pos hopen, attestationUniverse_of_nodup hlist,
      encoderUniverse_eq hbuilder hconfig hopen hlist]
  unfold acceptsBitfield
  dsimp only
  rw [hcount, hbitfield]
  rcases @builtCommitment_bitfield builder node attested pool parent hopen with
    hnone | ⟨indices, hindices⟩
  · simp [hnone]
  · rw [hindices, validate_encode, encode_length]
    simp [bitfieldWidthAcceptedAt]

/-- The bits that a builder sets are the keys that get credit exactly if nobody is
included or every key keeps its place. -/
theorem credited_iff_included (hbuilder : builder.Iterates) (hconfig : config.Iterates)
    (hgate : config.incI178AttestationBlsActivationHeight =
      builder.incI178AttestationBlsActivationHeight)
    (hopen : builder.incI178AttestationBlsActivationHeight ≤
      node.chainState.bestHeight + 1)
    (hlist : node.epochState.producerList.Nodup)
    (hcarries : CarriesAttendance builder node block) :
    (∀ key,
      key ∈ creditedKeys config (node.chainState.bestHeight + 1)
          (config.activeKeys left (node.chainState.bestHeight + 1)) block
          node.epochState ↔
        key ∈ includedKeys (encoderUniverse builder node) block.attestationBitfield) ↔
      includedKeys (encoderUniverse builder node) block.attestationBitfield = [] ∨
        KeepsPlaces builder config node left block := by
  have hwithin : BitsWithin node.epochState.producerList
      (extraKeys node.epochState.producerList
        (config.activeKeys node.producerSet (node.chainState.bestHeight + 1)))
      block.attestationBitfield := by
    intro index hbit
    have hlt := hcarries.hasBit_lt hopen hbit
    rw [encoderUniverse_eq hbuilder hconfig hopen hlist, List.length_append] at hlt
    omega
  have hnone : includedKeys (encoderUniverse builder node) block.attestationBitfield =
      [] ↔ ∀ key,
        ¬NamedIn (encoderUniverse builder node) block.attestationBitfield key := by
    simp only [List.eq_nil_iff_forall_not_mem, mem_includedKeys]
  have hdata : hasAttestationData block node.epochState = true ↔
      block.presenceRoot ≠ ⟨0⟩ ∧ node.epochState.producerList ≠ [] := by
    simp [hasAttestationData]
  simp only [mem_creditedKeys (hgate ▸ hopen) hlist, mem_includedKeys, hnone]
  rw [encoderUniverse_eq hbuilder hconfig hopen hlist, named_same_iff hwithin, hdata]
  apply or_congr_right
  constructor
  · rintro ⟨⟨hroot, hsome⟩, hplaces⟩
    refine ⟨hroot, hsome, ?_⟩
    rw [encoderUniverse_eq hbuilder hconfig hopen hlist]
    exact fun key hkey => hplaces key (mem_includedKeys.mp hkey)
  · rintro ⟨hroot, hsome, hplaces⟩
    rw [encoderUniverse_eq hbuilder hconfig hopen hlist] at hplaces
    exact ⟨⟨hroot, hsome⟩, fun key hkey => hplaces key (mem_includedKeys.mpr hkey)⟩

end Block

/-! ## A slash at the boundary -/

def memberInfo (key : PublicKey) : ProducerInfo :=
  .newWithBonds key 0 1000000000 ⟨⟨1⟩, 0⟩ 0 1

def memberSet (keys : List PublicKey) (queue : List PendingProducerUpdate) :
    ProducerSet :=
  .fromParts
    { producers := keys.foldl (fun producers key =>
        producers.insert (samplePrimitives.cryptoHash key) (memberInfo key)) ∅
      exitHistory := ∅
      pendingUpdates := queue }

/-- One listed producer and three others; the first of these is to be slashed at
the boundary. -/
def boundaryNode : NodeState :=
  { sampleNode 19 with
    producerSet := memberSet [⟨10⟩, ⟨20⟩, ⟨30⟩, ⟨50⟩] [.slash ⟨10⟩ 15]
    epochState := { (sampleNode 19).epochState with producerList := [⟨50⟩] } }

/-- What the builder makes of one signature over the parent. -/
def boundaryCommitment : AttestationCommitment :=
  builtCommitment sampleConfig boundaryNode []
    (Finmap.singleton (sampleBlock 19 []).hash (Finmap.singleton ⟨20⟩ [1]))
    (sampleBlock 19 []).hash

def boundaryBlock : Block :=
  { sampleBlock 20 [] with
    presenceRoot := boundaryCommitment.presenceRoot
    attestationBitfield := boundaryCommitment.bitfield }

def slashedNode : NodeState :=
  (applyBlock sampleConfig boundaryNode boundaryBlock .full).2

theorem boundaryBlock_carries :
    CarriesAttendance sampleConfig boundaryNode boundaryBlock :=
  ⟨_, _, _, rfl, rfl⟩

end Doli.Node
