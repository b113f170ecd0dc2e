import AimSimulator.Processor.LLCStructure
import Mathlib.Data.Int.ConditionallyCompleteOrder
import Mathlib.Order.ConditionallyCompleteLattice.Basic
/-!
# The geometry of the last-level cache

`SimpleO3` gives the cache a capacity for each core.  The mask of `get_index` and the shift of
`get_tag` cut an address into the same parts only where the number of sets is a power of two.
-/

namespace AimSimulator.Processor

open AddrMapper BitFields

/-- The cache that `SimpleO3::init` builds. -/
def SimpleO3.newLLC (latency : Int) (llcCapacityPerCore linesizeBytes associativity
    numMshrPerCore numCores : Nat) : LLCParams where
  latency
  sizeBytes := llcCapacityPerCore * numCores
  linesizeBytes
  associativity
  numMshrs := numMshrPerCore * numCores
  numCores

namespace LLCParams

variable (p : LLCParams)

def IdentifiesLines : Prop :=
  ∀ a b : Int, 0 ≤ a → 0 ≤ b →
    (p.getIndex a = p.getIndex b ∧ p.getTag a = p.getTag b ↔ p.align a = p.align b)

def CoversSets : Prop := Set.image p.getIndex {a | 0 ≤ a} = Set.Ico 0 (p.setSize : Int)

variable {p}

theorem getIndex_line {k : Nat} (hk : p.linesizeBytes = 2 ^ k) (hsets : p.setSize ≠ 0) (x : Nat) :
    p.getIndex ((2 ^ k * x : Nat) : Int) = ((x &&& (p.setSize - 1) : Nat) : Int) := by
  have hmask : (p.setSize : Int) - 1 = ((p.setSize - 1 : Nat) : Int) :=
    (Nat.cast_pred (Nat.pos_of_ne_zero hsets)).symm
  rw [getIndex, indexMask, indexOffset, hk, calcLog2_two_pow, hmask, Int.shiftRight_eq_div_pow]
  rw [← Int.natCast_ediv, Nat.mul_div_cancel_left _ (Nat.two_pow_pos k)]
  rfl

theorem getTag_line {k : Nat} (hk : p.linesizeBytes = 2 ^ k) (x : Nat) :
    p.getTag ((2 ^ k * x : Nat) : Int) = ((x / 2 ^ p.setSize.log2 : Nat) : Int) := by
  have hlog : calcLog2 p.setSize = p.setSize.log2 := by
    rw [calcLog2, calcLog2.loop_eq 0 (Nat.le_refl _), Nat.zero_add]
  rw [getTag, tagOffset, indexOffset, hk, calcLog2_two_pow, hlog, Nat.add_comm,
    Int.shiftRight_add, Int.shiftRight_eq_div_pow, Int.shiftRight_eq_div_pow, ← Int.natCast_ediv,
    Nat.mul_div_cancel_left _ (Nat.two_pow_pos k)]
  rfl

theorem coversSets {k m : Nat} (hk : p.linesizeBytes = 2 ^ k) (hm : p.setSize = 2 ^ m) :
    p.CoversSets := by
  have hpos : (0 : Int) < 2 ^ m := Int.pow_pos (by decide)
  have hsize : (p.setSize : Int) = 2 ^ m := by
    rw [hm]
    push_cast
    rfl
  refine Set.ext fun i => ⟨?_, fun ⟨hnonneg, hlt⟩ => ⟨2 ^ k * i, ?_, ?_⟩⟩
  · rintro ⟨a, -, rfl⟩
    rw [getIndex_two_pow hk hm, hsize]
    exact ⟨Int.emod_nonneg _ hpos.ne', Int.emod_lt_of_pos _ hpos⟩
  · exact Int.mul_nonneg (Int.pow_nonneg (by decide)) hnonneg
  · rw [hsize] at hlt
    rw [getIndex_two_pow hk hm, Int.mul_ediv_cancel_left _ (Int.pow_pos (by decide)).ne',
      Int.emod_eq_of_lt hnonneg hlt]

theorem exists_alias {k : Nat} (hk : p.linesizeBytes = 2 ^ k) (hsets : p.setSize ≠ 0)
    (hpow : ∀ m, p.setSize ≠ 2 ^ m) : ¬ p.IdentifiesLines := by
  obtain ⟨j, hj, hclear⟩ := exists_clear_bit hsets hpow
  have hindex : p.getIndex ((2 ^ k * 2 ^ j : Nat) : Int) = p.getIndex ((2 ^ k * 0 : Nat) : Int) := by
    have hand : 2 ^ j &&& (p.setSize - 1) = 0 := by
      rw [Nat.and_comm, Nat.and_two_pow, hclear, Bool.toNat_false, Nat.zero_mul]
    rw [getIndex_line hk hsets, getIndex_line hk hsets, hand, Nat.zero_and]
  have htag : p.getTag ((2 ^ k * 2 ^ j : Nat) : Int) = p.getTag ((2 ^ k * 0 : Nat) : Int) := by
    have hlt : 2 ^ j < 2 ^ p.setSize.log2 := Nat.pow_lt_pow_right (by decide) hj
    rw [getTag_line hk, getTag_line hk, Nat.div_eq_of_lt hlt, Nat.zero_div]
  intro hlines
  have halign := (hlines _ _ (Int.natCast_nonneg _) (Int.natCast_nonneg _)).mp ⟨hindex, htag⟩
  rw [align_two_pow hk, align_two_pow hk] at halign
  have hzero := Int.eq_of_mul_eq_mul_left (Int.pow_pos (by decide)).ne' halign
  push_cast at hzero
  rw [Int.mul_ediv_cancel_left _ (Int.pow_pos (by decide)).ne', mul_zero, Int.zero_ediv] at hzero
  exact (Int.pow_pos (by decide)).ne' hzero

end LLCParams

/-- With a line size that is a power of two, index and tag identify the lines and the indices
are those of all sets exactly where the number of sets is a power of two. -/
theorem llc_index_tag_iff (latency : Int)
    (llcCapacityPerCore linesizeBytes associativity numMshrPerCore numCores : Nat)
    (hline : ∃ k, linesizeBytes = 2 ^ k) :
    (SimpleO3.newLLC latency llcCapacityPerCore linesizeBytes associativity numMshrPerCore
          numCores).IdentifiesLines ∧
        (SimpleO3.newLLC latency llcCapacityPerCore linesizeBytes associativity numMshrPerCore
          numCores).CoversSets ↔
      ∃ m, llcCapacityPerCore * numCores / (linesizeBytes * associativity) = 2 ^ m := by
  let p := SimpleO3.newLLC latency llcCapacityPerCore linesizeBytes associativity numMshrPerCore
    numCores
  obtain ⟨k, hk⟩ := hline
  refine ⟨fun ⟨hlines, hcovers⟩ => Classical.byContradiction fun hpow => ?_, fun ⟨m, hm⟩ => ?_⟩
  · by_cases hsets : p.setSize = 0
    · have hzero : p.getIndex 0 ∈ Set.image p.getIndex {a | 0 ≤ a} := ⟨0, Int.le_refl 0, rfl⟩
      rw [show Set.image p.getIndex _ = _ from hcovers, hsets] at hzero
      exact absurd hzero.2 (Int.not_lt_of_ge hzero.1)
    · exact LLCParams.exists_alias hk hsets (fun m hm => hpow ⟨m, hm⟩) hlines
  · have hm : p.setSize = 2 ^ m := hm
    exact ⟨fun a b _ _ => (LLCParams.align_eq_iff ⟨⟨k, hk⟩, ⟨m, hm⟩⟩).symm,
      LLCParams.coversSets hk hm⟩

/-- The default cache of two cores. -/
theorem llc_index_tag_iff_twoCores :
    (∃ k, 64 = 2 ^ k) ∧ (SimpleO3.newLLC 47 (2 ^ 21) 64 8 16 2).IdentifiesLines ∧
      (SimpleO3.newLLC 47 (2 ^ 21) 64 8 16 2).CoversSets :=
  ⟨⟨6, rfl⟩, (llc_index_tag_iff 47 (2 ^ 21) 64 8 16 2 ⟨6, rfl⟩).mpr ⟨13, by decide⟩⟩

/-- With the default cache of three cores, two lines have one index and one tag. -/
theorem three_cores_alias :
    let p := SimpleO3.newLLC 47 (2 ^ 21) 64 8 16 3
    p.getIndex 0x40000 = p.getIndex 0 ∧ p.getTag 0x40000 = p.getTag 0 ∧
      p.align 0x40000 ≠ p.align 0 ∧ ¬ p.IdentifiesLines := by
  intro p
  have hindex : p.getIndex 0x40000 = p.getIndex 0 := by decide +kernel
  have htag : p.getTag 0x40000 = p.getTag 0 := by decide +kernel
  have halign : p.align 0x40000 ≠ p.align 0 := by
    have hline : p.linesizeBytes = 2 ^ 6 := rfl
    rw [LLCParams.align_two_pow hline, LLCParams.align_two_pow hline]
    decide
  exact ⟨hindex, htag, halign, fun hlines =>
    halign ((hlines _ _ (by decide) (by decide)).mp ⟨hindex, htag⟩)⟩

end AimSimulator.Processor
