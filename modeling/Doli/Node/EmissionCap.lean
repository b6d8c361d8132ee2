import Doli.Lib.Decay
import Doli.Node.BlockEconomics

/-!
# The cap of the emission

The reward of a block halves each era, rounding down.  What the blocks of any chain mint
stays below the supply that the validation of transactions allows, and the arithmetic of
the machine computes the reward exactly.
-/

namespace Doli.Node

open Doli.Lib Finset

namespace RewardParams

/-! ## Arithmetic of the machine -/

section

variable (params : RewardParams)

/-- `height_to_era` on words: a `u64` quotient, clamped and cast to a `u32`. -/
def machineEra (height : UInt64) : Option UInt32 :=
  if UInt64.ofNat params.blocksPerEra = 0 then none
  else
    let era := height / UInt64.ofNat params.blocksPerEra
    some (if UInt32.toUInt64 (.ofNat (2 ^ 32 - 1)) < era then .ofNat (2 ^ 32 - 1)
      else era.toUInt32)

/-- A shift of a `u64` by its width or more overflows. -/
def shiftRight (amount : UInt64) (shift : UInt32) : Option UInt64 :=
  if shift < 64 then some (amount >>> shift.toUInt64) else none

/-- `block_reward` on words. -/
def machineReward (height : UInt64) : Option UInt64 :=
  (params.machineEra height).bind fun era =>
    if 64 ≤ era then some 0 else shiftRight (UInt64.ofNat params.initialReward) era

end

/-- The fields of `ConsensusParams` are words, and eras have blocks. -/
structure Fits (params : RewardParams) : Prop where
  reward : params.initialReward < 2 ^ 64
  era : params.blocksPerEra < 2 ^ 64
  era_pos : 0 < params.blocksPerEra

variable {params : RewardParams}

theorem machineEra_exact (hfits : params.Fits) (height : UInt64) :
    ∃ era, params.machineEra height = some era ∧
      era.toNat = params.heightToEra height.toNat := by
  have hword : (UInt64.ofNat params.blocksPerEra).toNat = params.blocksPerEra :=
    UInt64.toNat_ofNat_of_lt' hfits.era
  have hnonzero : UInt64.ofNat params.blocksPerEra ≠ 0 := by
    intro hzero
    have hnat := congrArg UInt64.toNat hzero
    rw [hword] at hnat
    exact hfits.era_pos.ne' hnat
  refine ⟨_, if_neg hnonzero, ?_⟩
  simp only [UInt64.lt_iff_toNat_lt, UInt64.toNat_div, hword, heightToEra]
  split
  case isTrue hcapped =>
    have hcap : 2 ^ 32 - 1 < height.toNat / params.blocksPerEra := by simpa using hcapped
    rw [min_eq_right hcap.le]
    rfl
  case isFalse hfree =>
    have hcap : height.toNat / params.blocksPerEra ≤ 2 ^ 32 - 1 := by simpa using hfree
    rw [min_eq_left hcap, UInt64.toNat_toUInt32, UInt64.toNat_div, hword]
    exact Nat.mod_eq_of_lt (by omega)

theorem machineReward_exact (hfits : params.Fits) (height : UInt64) :
    ∃ reward, params.machineReward height = some reward ∧
      reward.toNat = params.blockReward height.toNat := by
  obtain ⟨era, hera, hexact⟩ := machineEra_exact hfits height
  have hword : (UInt64.ofNat params.initialReward).toNat = params.initialReward :=
    UInt64.toNat_ofNat_of_lt' hfits.reward
  simp only [machineReward, hera, Option.bind_some, shiftRight, blockReward, ← hexact,
    UInt32.le_iff_toNat_le, UInt32.lt_iff_toNat_lt, UInt32.reduceToNat]
  split
  case isTrue hlate => exact ⟨0, rfl, rfl⟩
  case isFalse hearly =>
    have hshift : era.toNat < 64 := Nat.lt_of_not_le hearly
    refine ⟨_, if_pos hshift, ?_⟩
    rw [UInt64.toNat_shiftRight, hword, UInt32.toNat_toUInt64, Nat.mod_eq_of_lt hshift,
      Nat.shiftRight_eq_div_pow]

/-! ## Emission -/

/-- The clamp of the era and the cut after 64 eras change nothing, for a reward that is a
word. -/
theorem blockReward_eq_decayed (hreward : params.initialReward < 2 ^ 64) (height : Nat) :
    params.blockReward height = decayed params.initialReward 2 params.blocksPerEra height := by
  unfold blockReward decayed heightToEra
  split
  case isTrue hlate =>
    have hera : 64 ≤ height / params.blocksPerEra := hlate.trans (min_le_left _ _)
    have hgone : params.initialReward < 2 ^ (height / params.blocksPerEra) :=
      hreward.trans_le (Nat.pow_le_pow_right (by decide) hera)
    rw [Nat.div_eq_of_lt hgone]
  case isFalse hearly =>
    have hera : height / params.blocksPerEra ≤ 2 ^ 32 - 1 := by omega
    rw [min_eq_left hera]

theorem blockReward_antitone (hreward : params.initialReward < 2 ^ 64) :
    Antitone params.blockReward := by
  have hdecayed : params.blockReward = decayed params.initialReward 2 params.blocksPerEra :=
    funext (blockReward_eq_decayed hreward)
  rw [hdecayed]
  exact decayed_antitone (by decide)

theorem sum_blockReward_le (hfits : params.Fits) (height : Nat) :
    ∑ below ∈ range height, params.blockReward below ≤
      params.blocksPerEra * (params.initialReward * 2) := by
  rw [sum_congr rfl fun below _ => blockReward_eq_decayed hfits.reward below]
  simpa using sum_decayed_le (Nat.le_refl 2) hfits.era_pos height

/-! ## Mainnet -/

def mainnet : RewardParams where
  initialReward := 100000000
  blocksPerEra := Validation.blocksPerEra

theorem mainnet_fits : mainnet.Fits where
  reward := by decide
  era := by decide
  era_pos := by decide

theorem totalSupply_eq :
    Validation.totalSupply = mainnet.blocksPerEra * (mainnet.initialReward * 2) := by
  decide

theorem mainnet_emission :
    (∀ height, ∑ below ∈ range height, mainnet.blockReward below ≤ Validation.totalSupply) ∧
      Antitone mainnet.blockReward ∧
      ∀ height : UInt64,
        (∃ era, mainnet.machineEra height = some era ∧
          era.toNat = mainnet.heightToEra height.toNat) ∧
        ∃ reward, mainnet.machineReward height = some reward ∧
          reward.toNat = mainnet.blockReward height.toNat := by
  refine ⟨fun height => ?_, blockReward_antitone mainnet_fits.reward, fun height =>
    ⟨machineEra_exact mainnet_fits height, machineReward_exact mainnet_fits height⟩⟩
  rw [totalSupply_eq]
  exact sum_blockReward_le mainnet_fits height

end RewardParams

end Doli.Node
