import Mathlib.Tactic.Ring
import AimSimulator.Plugin.Hydra
/-!
# What the counters of Hydra say

The counters of a bank stand for each row through one of three tables.  `estimate` is the
counter that stands for a row; an activation raises it, and no hand-over between the tables
lowers it.  The counters of the cache agree with the table while a tag fits its type.
-/

namespace AimSimulator.Plugin

open MisraGries Pending

/-! ## Geometry -/

structure HydraConfig.PowersOfTwo (c : HydraConfig) : Prop where
  rows : ∃ k, c.numRows = 2 ^ k
  banks : ∃ k, c.numBanksPerRank = 2 ^ k
  groups : ∃ k, c.rowGroupSize = 2 ^ k
  sets : ∃ k, c.rccNumPerRank / 16 = 2 ^ k

def HydraConfig.Addresses (c : HydraConfig) (v : AddrVec) : Prop :=
  v.length = 6 ∧ ∀ l < 6, 0 ≤ v.at l ∧ v.at l < (c.levels.count.getD l 0 : Int) ∧ v.at l < 2 ^ 31

structure HydraParams.Geometry (p : HydraParams) : Prop where
  rows : p.numRows = 2 ^ p.rowAddressBits
  banks : p.numBanksPerRank = 2 ^ p.bankAddressBits
  groups : p.rowGroupSize = 2 ^ (p.rowAddressBits - p.gctIndexBits)
  tagRowBits : p.rccTagRowBits = (p.rowAddressBits : Int) - p.rccIndexBits
  tagBits : p.rccTagBits = p.rccTagRowBits + p.bankAddressBits

theorem HydraConfig.PowersOfTwo.geometry {c : HydraConfig} (hc : c.PowersOfTwo) {p : HydraParams}
    (h : c.setup = some p) : p.Geometry ∧ p.toHydraConfig = c := by
  obtain ⟨k, hk⟩ := hc.rows
  obtain ⟨b, hb⟩ := hc.banks
  obtain ⟨g, hg⟩ := hc.groups
  unfold setup at h
  dsimp only at h
  split at h
  · cases h
  · next hdefined =>
      obtain ⟨layout, -, rfl⟩ := Option.map_eq_some_iff.mp h
      refine ⟨⟨?_, ?_, ?_, rfl, rfl⟩, rfl⟩
      · dsimp only
        rw [hk, Nat.log2_two_pow]
      · dsimp only
        rw [hb, Nat.log2_two_pow]
      · dsimp only
        have hentries : 2 ^ k / 2 ^ g ≠ 0 := by
          rw [← hk, ← hg]
          omega
        have hle : g ≤ k := by
          by_contra hlt
          exact hentries (Nat.div_eq_of_lt (Nat.pow_lt_pow_right (by decide) (by omega)))
        rw [hk, hg, Nat.pow_div hle (by decide), Nat.log2_two_pow, Nat.log2_two_pow]
        congr 1
        omega

namespace HydraParams.Geometry

variable {p : HydraParams} (hp : p.Geometry)

include hp

theorem tagRowBits_add (hnonneg : 0 ≤ p.rccTagRowBits) :
    p.rccTagRowBits.toNat + p.rccIndexBits = p.rowAddressBits := by
  have := hp.tagRowBits
  omega

theorem gctIndex_eq (row : Nat) : p.gctIndex row = row / p.rowGroupSize := by
  rw [gctIndex, Nat.shiftRight_eq_div_pow, hp.groups]

omit hp in
theorem rccIndex_eq (row : Nat) : p.rccIndex row = row % 2 ^ p.rccIndexBits := by
  rw [rccIndex, Nat.one_shiftLeft, Nat.and_two_pow_sub_one_eq_mod]

theorem rowTag_lt (hnonneg : 0 ≤ p.rccTagRowBits) {row : Nat} (hrow : row < p.numRows) :
    row / 2 ^ p.rccIndexBits < 2 ^ p.rccTagRowBits.toNat := by
  refine Nat.div_lt_of_lt_mul ?_
  rw [← Nat.pow_add, Nat.add_comm, hp.tagRowBits_add hnonneg, ← hp.rows]
  exact hrow

theorem rccTag_eq (hnonneg : 0 ≤ p.rccTagRowBits) (hfits : p.rccTagBits ≤ 32) {bank row : Nat}
    (hbank : bank < p.numBanksPerRank) (hrow : row < p.numRows) :
    p.rccTag bank row = 2 ^ p.rccTagRowBits.toNat * bank + row / 2 ^ p.rccIndexBits := by
  have hshift : (p.rowAddressBits - p.rccTagRowBits : Int).toNat = p.rccIndexBits := by
    have := hp.tagRowBits
    omega
  have hbits : p.rccTagRowBits.toNat + p.bankAddressBits ≤ 32 := by
    have := hp.tagBits
    omega
  have hlt : bank * 2 ^ p.rccTagRowBits.toNat < 2 ^ 32 := by
    refine Nat.lt_of_lt_of_le ?_ (Nat.pow_le_pow_right (by decide) hbits)
    rw [Nat.pow_add, Nat.mul_comm, ← hp.banks]
    exact Nat.mul_lt_mul_of_pos_left hbank (Nat.two_pow_pos _)
  rw [rccTag, hshift, Nat.shiftRight_eq_div_pow, Nat.shiftLeft_eq, Nat.mod_eq_of_lt hlt,
    Nat.or_comm, ← Nat.shiftLeft_eq,
    ← Nat.shiftLeft_add_eq_or_of_lt (hp.rowTag_lt hnonneg hrow), Nat.shiftLeft_eq, Nat.mul_comm]

theorem rccTag_lt (hnonneg : 0 ≤ p.rccTagRowBits) (hfits : p.rccTagBits ≤ 32) {bank row : Nat}
    (hbank : bank < p.numBanksPerRank) (hrow : row < p.numRows) :
    p.rccTag bank row < 2 ^ p.rccTagBits.toNat := by
  have hbits : p.rccTagBits.toNat = p.rccTagRowBits.toNat + p.bankAddressBits := by
    have := hp.tagBits
    omega
  have hlow := hp.rowTag_lt hnonneg hrow
  rw [hp.rccTag_eq hnonneg hfits hbank hrow, hbits, Nat.pow_add, ← hp.banks]
  calc 2 ^ p.rccTagRowBits.toNat * bank + row / 2 ^ p.rccIndexBits
      < 2 ^ p.rccTagRowBits.toNat * bank + 2 ^ p.rccTagRowBits.toNat :=
        Nat.add_lt_add_left hlow _
    _ = 2 ^ p.rccTagRowBits.toNat * (bank + 1) := (Nat.mul_succ _ _).symm
    _ ≤ 2 ^ p.rccTagRowBits.toNat * p.numBanksPerRank := Nat.mul_le_mul_left _ hbank

theorem rccTag_div (hnonneg : 0 ≤ p.rccTagRowBits) (hfits : p.rccTagBits ≤ 32) {bank row : Nat}
    (hbank : bank < p.numBanksPerRank) (hrow : row < p.numRows) :
    p.rccTag bank row / 2 ^ p.rccTagRowBits.toNat = bank := by
  rw [hp.rccTag_eq hnonneg hfits hbank hrow, Nat.mul_add_div (Nat.two_pow_pos _),
    Nat.div_eq_of_lt (hp.rowTag_lt hnonneg hrow), Nat.add_zero]

theorem rccTag_mod (hnonneg : 0 ≤ p.rccTagRowBits) (hfits : p.rccTagBits ≤ 32) {bank row : Nat}
    (hbank : bank < p.numBanksPerRank) (hrow : row < p.numRows) :
    p.rccTag bank row % 2 ^ p.rccTagRowBits.toNat = row / 2 ^ p.rccIndexBits := by
  rw [hp.rccTag_eq hnonneg hfits hbank hrow, Nat.mul_add_mod,
    Nat.mod_eq_of_lt (hp.rowTag_lt hnonneg hrow)]

end HydraParams.Geometry

/-! ## Accesses -/

structure HydraParams.Encodes (p : HydraParams) (rccIndex : Nat) (tag : Int) (bank row : Nat) :
    Prop where
  tagRowBits : 0 ≤ p.rccTagRowBits
  bank_lt : bank < p.numBanksPerRank
  row_lt : row < p.numRows
  index : p.rccIndex row = rccIndex
  tag : (p.rccTag bank row : Int) = tag

theorem HydraParams.Encodes.unique {p : HydraParams} (hp : p.Geometry)
    (hfits : p.rccTagBits ≤ 32) {rccIndex : Nat} {tag : Int}
    {bank row bank' row' : Nat} (h : p.Encodes rccIndex tag bank row)
    (h' : p.Encodes rccIndex tag bank' row') : bank' = bank ∧ row' = row := by
  have hnonneg := h.tagRowBits
  have htag : p.rccTag bank' row' = p.rccTag bank row := Int.ofNat_inj.mp (h'.tag.trans h.tag.symm)
  have hindex := h'.index.trans h.index.symm
  have hhigh := hp.rccTag_mod hnonneg hfits h'.bank_lt h'.row_lt
  rw [htag, hp.rccTag_mod hnonneg hfits h.bank_lt h.row_lt] at hhigh
  rw [HydraParams.Geometry.rccIndex_eq, HydraParams.Geometry.rccIndex_eq] at hindex
  constructor
  · rw [← hp.rccTag_div hnonneg hfits h'.bank_lt h'.row_lt, htag,
      hp.rccTag_div hnonneg hfits h.bank_lt h.row_lt]
  · rw [← Nat.div_add_mod row' (2 ^ p.rccIndexBits), hindex, ← hhigh, Nat.div_add_mod]

/-- The indices that are computed for an address of the device. -/
structure HydraAccess.Valid (p : HydraParams) (a : HydraAccess) (bank : Nat) : Prop where
  flatBankId : a.flatBankId = a.rankId * p.numBanksPerRank + bank
  gctIndex : a.gctIndex = p.gctIndex a.rowId
  encodes : p.Encodes a.rccIndex a.rccTag bank a.rowId

theorem toUint_eq {x : Int} (h : 0 ≤ x) (hlt : x < 2 ^ 31) : (toUint x : Int) = x := by
  rw [toUint, BitVec.toNat_ofInt]
  omega

theorem HydraConfig.levels_flatBankId (c : HydraConfig) (v : AddrVec) :
    c.levels.flatBankId v =
      v.at 3 + v.at 2 * c.numBanks + v.at 1 * (c.numBanks * c.numBankgroups) := by
  change v.at 3 + v.at 2 * (1 * (c.numBanks : Int)) +
    v.at 1 * (1 * (c.numBanks : Int) * (c.numBankgroups : Int)) = _
  rw [Int.one_mul]

theorem HydraParams.access_rankId {p : HydraParams} {v : AddrVec} (hv : p.Addresses v)
    {a : HydraAccess} (h : p.access v = some a) : v.at 1 = (a.rankId : Int) := by
  unfold access at h
  dsimp only at h
  split at h
  · cases h
  · obtain rfl := Option.some.inj h
    have hrank := hv.2 1 (by decide)
    exact (toUint_eq hrank.1 hrank.2.2).symm

theorem HydraParams.access_spec {p : HydraParams} {v : AddrVec}
    (hv : p.Addresses v) {a : HydraAccess} (h : p.access v = some a) :
    a.addrVec = v ∧ v.at 4 = (a.rowId : Int) ∧ p.levels.flatBankId v = (a.flatBankId : Int) ∧
      a.Valid p (a.flatBankId % p.numBanksPerRank) := by
  unfold access at h
  dsimp only at h
  split at h
  · cases h
  · next hdefined =>
      obtain rfl := Option.some.inj h
      have hrank := hv.2 1 (by decide)
      have hbankgroup := hv.2 2 (by decide)
      have hbank := hv.2 3 (by decide)
      have hrow := hv.2 4 (by decide)
      have hrowId := toUint_eq hrow.1 hrow.2.2
      have hrankId := toUint_eq hrank.1 hrank.2.2
      obtain ⟨g, hg⟩ := Int.eq_ofNat_of_zero_le hbankgroup.1
      obtain ⟨b, hb⟩ := Int.eq_ofNat_of_zero_le hbank.1
      have hbankId : b + g * p.numBanks < p.numBanksPerRank := by
        have hblt : b < p.numBanks := Int.ofNat_lt.mp (hb ▸ hbank.2.1)
        have hglt : g < p.numBankgroups := Int.ofNat_lt.mp (hg ▸ hbankgroup.2.1)
        calc b + g * p.numBanks < p.numBanks + g * p.numBanks := Nat.add_lt_add_right hblt _
          _ = (g + 1) * p.numBanks := by rw [Nat.succ_mul, Nat.add_comm]
          _ ≤ p.numBankgroups * p.numBanks := Nat.mul_le_mul_right _ hglt
      have hflat : p.levels.flatBankId v =
          ((toUint (v.at 1) * p.numBanksPerRank + (b + g * p.numBanks) : Nat) : Int) := by
        rw [HydraConfig.levels_flatBankId, hb, hg, HydraConfig.numBanksPerRank]
        push_cast
        rw [hrankId]
        ring
      have hmod : (p.levels.flatBankId v).toNat % p.numBanksPerRank = b + g * p.numBanks := by
        rw [hflat, Int.toNat_natCast, Nat.mul_add_mod_of_lt hbankId]
      refine ⟨rfl, hrowId.symm, ?_, ?_⟩
      · dsimp only
        rw [hflat, Int.toNat_natCast]
      · refine ⟨?_, rfl, by omega, ?_, ?_, rfl, rfl⟩
        · dsimp only
          rw [hmod, hflat, Int.toNat_natCast]
        · rw [hmod]
          exact hbankId
        · have hlt : (toUint (v.at 4) : Int) < (p.numRows : Int) := by
            rw [hrowId]
            exact hrow.2.1
          exact Int.ofNat_lt.mp hlt

/-! ## Counters after an update of a table -/

namespace Hydra

variable {p : HydraParams} {s : Hydra}

def rctCount (s : Hydra) (flatBankId rowId : Nat) : Nat :=
  ((s.rctCountTable flatBankId).lookup rowId).getD 0

theorem group_setGroup_self (f g : Nat) (e : GCTEntry) : (s.setGroup f g e).group f g = e := by
  unfold group setGroup
  dsimp only
  rw [Function.update_self, AList.lookup_insert]
  rfl

theorem group_setGroup_ne {f g f' g' : Nat} (h : f' ≠ f ∨ g' ≠ g) (e : GCTEntry) :
    (s.setGroup f g e).group f' g' = s.group f' g' := by
  unfold group setGroup
  dsimp only
  by_cases hf : f' = f
  · subst hf
    rw [Function.update_self, AList.lookup_insert_ne (h.resolve_left (· rfl))]
  · rw [Function.update_of_ne hf]

theorem rowCount_setRowCount_self (f r c : Nat) : (s.setRowCount f r c).rowCount f r = c := by
  unfold rowCount setRowCount
  dsimp only
  rw [Function.update_self, AList.lookup_insert]
  rfl

theorem rowCount_setRowCount_ne {f r f' r' : Nat} (h : f' ≠ f ∨ r' ≠ r) (c : Nat) :
    (s.setRowCount f r c).rowCount f' r' = s.rowCount f' r' := by
  unfold rowCount setRowCount
  dsimp only
  by_cases hf : f' = f
  · subst hf
    rw [Function.update_self, AList.lookup_insert_ne (h.resolve_left (· rfl))]
  · rw [Function.update_of_ne hf]

theorem setCache_self (k i : Nat) (set : Table Int) :
    (s.setCache k i set).rowCountCache k i = set := by
  unfold setCache
  dsimp only
  rw [Function.update_self, Function.update_self]

theorem setCache_ne {k i k' i' : Nat} (h : k' ≠ k ∨ i' ≠ i) (set : Table Int) :
    (s.setCache k i set).rowCountCache k' i' = s.rowCountCache k' i' := by
  unfold setCache
  dsimp only
  by_cases hk : k' = k
  · subst hk
    rw [Function.update_self, Function.update_of_ne (h.resolve_left (· rfl))]
  · rw [Function.update_of_ne hk]

theorem lookup_foldl_insert (table : Table Nat) (start threshold n row : Nat) :
    ((List.range n).foldl (fun table i => table.insert (start + i) threshold) table).lookup row =
      if start ≤ row ∧ row < start + n then some threshold else table.lookup row := by
  induction n with
  | zero => rw [if_neg (by omega)]; rfl
  | succ n ih =>
      rw [List.range_succ, List.foldl_append, List.foldl_cons, List.foldl_nil]
      by_cases hrow : row = start + n
      · rw [hrow, AList.lookup_insert, if_pos (by omega)]
      · rw [AList.lookup_insert_ne hrow, ih]
        by_cases hin : start ≤ row ∧ row < start + n
        · rw [if_pos hin, if_pos (by omega)]
        · rw [if_neg hin, if_neg (by omega)]

/-! ## The counter that stands for a row -/

def estimate (p : HydraParams) (s : Hydra) (f r : Nat) : Nat :=
  if r < p.totalRctRowSize then s.rctCount f r
  else if (s.group f (p.gctIndex r)).initialized then s.rowCount f r
  else (s.group f (p.gctIndex r)).groupCount

/-- With a group threshold below the tracking threshold all counters are below the latter; a
group is initialised at its own threshold. -/
structure Bounded (p : HydraParams) (s : Hydra) : Prop where
  small : p.groupThreshold < p.trackingThreshold → ∀ f r, s.estimate p f r < p.trackingThreshold
  below : ∀ f g, (s.group f g).initialized = false → (s.group f g).groupCount ≤ p.groupThreshold
  reached : ∀ f g, (s.group f g).initialized = true → p.groupThreshold ≤ (s.group f g).groupCount

/-- Each entry of the cache belongs to a row, with the counter that the table has for it. -/
def Coherent (p : HydraParams) (s : Hydra) : Prop :=
  ∀ k i tag count, (s.rowCountCache k i).lookup tag = some count →
    ∃ bank row, p.Encodes i tag bank row ∧
      s.rowCount (k * p.numBanksPerRank + bank) row = count ∧
      (s.group (k * p.numBanksPerRank + bank) (p.gctIndex row)).initialized = true

def vrrs (sent : Sent) : List AddrVec := (sent.filter fun x => x.1 = .vrr).map Prod.snd

/-- An activation raises the counter of its row or sends a refresh for it; no other counter
is lowered. -/
structure Counts (p : HydraParams) (s : Hydra) (a : HydraAccess) (s' : Hydra) (sent : Sent) :
    Prop where
  bounded : Bounded p s'
  coherent : Coherent p s'
  others : ∀ f r, (f ≠ a.flatBankId ∨ r ≠ a.rowId) → s.estimate p f r ≤ s'.estimate p f r
  self : (vrrs sent = [] ∧
      s.estimate p a.flatBankId a.rowId + 1 ≤ s'.estimate p a.flatBankId a.rowId) ∨
    vrrs sent = [a.addrVec]

theorem estimate_setRctTable_self {f r : Nat} (hr : r < p.totalRctRowSize) (table : Table Nat) :
    (s.setRctTable f table).estimate p f r = (table.lookup r).getD 0 := by
  unfold estimate rctCount setRctTable
  dsimp only
  rw [if_pos hr, Function.update_self]

theorem estimate_setRctTable_ne {f r f' r' : Nat} (hne : f' ≠ f ∨ r' ≠ r) {table : Table Nat}
    (htable : ∀ r', r' ≠ r → table.lookup r' = (s.rctCountTable f).lookup r') :
    (s.setRctTable f table).estimate p f' r' = s.estimate p f' r' := by
  unfold estimate rctCount setRctTable
  dsimp only
  by_cases hf : f' = f
  · subst hf
    rw [Function.update_self, htable r' (hne.resolve_left (· rfl))]
    rfl
  · rw [Function.update_of_ne hf]
    rfl

theorem Bounded.setRctTable (hs : Bounded p s) {f r : Nat} (hr : r < p.totalRctRowSize)
    {table : Table Nat}
    (hlt : p.groupThreshold < p.trackingThreshold →
      (table.lookup r).getD 0 < p.trackingThreshold)
    (htable : ∀ r', r' ≠ r → table.lookup r' = (s.rctCountTable f).lookup r') :
    Bounded p (s.setRctTable f table) := by
  refine ⟨fun hthreshold f' r' => ?_, hs.below, hs.reached⟩
  by_cases hne : f' ≠ f ∨ r' ≠ r
  · rw [estimate_setRctTable_ne hne htable]
    exact hs.small hthreshold f' r'
  · obtain ⟨rfl, rfl⟩ : f' = f ∧ r' = r := by omega
    rw [estimate_setRctTable_self hr]
    exact hlt hthreshold

theorem countRct_counts {a : HydraAccess} (hs : Bounded p s) (hc : Coherent p s)
    (hrow : a.rowId < p.totalRctRowSize) :
    Counts p s a (s.countRct p a).1 (s.countRct p a).2 := by
  unfold countRct
  dsimp only
  split
  · have htable : ∀ r, r ≠ a.rowId →
        ((s.rctCountTable a.flatBankId).erase a.rowId).lookup r =
          (s.rctCountTable a.flatBankId).lookup r := fun r hr => AList.lookup_erase_ne hr
    refine ⟨hs.setRctTable hrow (fun hthreshold => ?_) htable, hc,
      fun f r hne => (estimate_setRctTable_ne hne htable).ge, .inr rfl⟩
    rw [AList.lookup_erase]
    exact Nat.zero_lt_of_lt hthreshold
  · next hlt =>
      have htable : ∀ r, r ≠ a.rowId →
          ((s.rctCountTable a.flatBankId).insert a.rowId
            (((s.rctCountTable a.flatBankId).lookup a.rowId).getD 0 + 1)).lookup r =
            (s.rctCountTable a.flatBankId).lookup r := fun r hr => AList.lookup_insert_ne hr
      refine ⟨hs.setRctTable hrow (fun _ => ?_) htable, hc,
        fun f r hne => (estimate_setRctTable_ne hne htable).ge, .inl ⟨rfl, ?_⟩⟩
      · rw [AList.lookup_insert]
        exact Nat.lt_of_not_le hlt
      · rw [estimate_setRctTable_self hrow, AList.lookup_insert, estimate, if_pos hrow]
        exact Nat.le_refl _

theorem estimate_setGroup_ne {f g f' r' : Nat} (h : f' ≠ f ∨ p.gctIndex r' ≠ g) (e : GCTEntry) :
    (s.setGroup f g e).estimate p f' r' = s.estimate p f' r' := by
  unfold estimate
  rw [group_setGroup_ne h]
  rfl

theorem estimate_setGroup_self {f g r : Nat} (hrow : ¬ r < p.totalRctRowSize)
    (hg : p.gctIndex r = g) {e : GCTEntry} (he : e.initialized = false) :
    (s.setGroup f g e).estimate p f r = e.groupCount := by
  subst hg
  unfold estimate
  rw [if_neg hrow, group_setGroup_self, if_neg (by rw [he]; exact Bool.false_ne_true)]

theorem estimate_of_rct {f r : Nat} (hrow : r < p.totalRctRowSize) :
    s.estimate p f r = s.rctCount f r := if_pos hrow

theorem estimate_of_group {f r : Nat} (hrow : ¬ r < p.totalRctRowSize)
    (h : (s.group f (p.gctIndex r)).initialized = false) :
    s.estimate p f r = (s.group f (p.gctIndex r)).groupCount := by
  rw [estimate, if_neg hrow, if_neg (by rw [h]; exact Bool.false_ne_true)]

theorem estimate_of_row {f r : Nat} (hrow : ¬ r < p.totalRctRowSize)
    (h : (s.group f (p.gctIndex r)).initialized = true) :
    s.estimate p f r = s.rowCount f r := by
  rw [estimate, if_neg hrow, if_pos h]

theorem setGroup_counts {a : HydraAccess} {bank : Nat} (hs : Bounded p s) (hc : Coherent p s)
    (ha : a.Valid p bank) (hrow : ¬ a.rowId < p.totalRctRowSize)
    (hbelow : (s.group a.flatBankId a.gctIndex).groupCount < p.groupThreshold) :
    Counts p s a (s.setGroup a.flatBankId a.gctIndex
      { s.group a.flatBankId a.gctIndex with
        groupCount := (s.group a.flatBankId a.gctIndex).groupCount + 1 }) [] := by
  have hnot : (s.group a.flatBankId a.gctIndex).initialized = false := by
    by_contra hinit
    have := hs.reached _ _ (Bool.eq_true_of_not_eq_false hinit)
    omega
  generalize he : ({ s.group a.flatBankId a.gctIndex with
    groupCount := (s.group a.flatBankId a.gctIndex).groupCount + 1 } : GCTEntry) = e
  have hcount : e.groupCount = (s.group a.flatBankId a.gctIndex).groupCount + 1 := by rw [← he]
  have hinit : e.initialized = false := by rw [← he]; exact hnot
  -- a row of the group has the counter of the group, every other row has what it had
  have hcases : ∀ f r, ((s.setGroup a.flatBankId a.gctIndex e).estimate p f r = s.estimate p f r) ∨
      ((s.setGroup a.flatBankId a.gctIndex e).estimate p f r = e.groupCount ∧
        s.estimate p f r + 1 = e.groupCount) := by
    intro f r
    by_cases hne : f ≠ a.flatBankId ∨ p.gctIndex r ≠ a.gctIndex
    · exact .inl (estimate_setGroup_ne hne e)
    · obtain ⟨rfl, hg⟩ : f = a.flatBankId ∧ p.gctIndex r = a.gctIndex := by omega
      by_cases hr : r < p.totalRctRowSize
      · left
        rw [estimate_of_rct hr, estimate_of_rct hr]
        rfl
      · right
        rw [estimate_setGroup_self hr hg hinit, estimate_of_group hr (by rw [hg]; exact hnot), hg,
          hcount]
        exact ⟨rfl, rfl⟩
  refine ⟨⟨fun hthreshold f r => ?_, fun f g hg => ?_, fun f g hg => ?_⟩, ?_, fun f r _ => ?_,
    .inl ⟨rfl, ?_⟩⟩
  · have := hs.small hthreshold f r
    rcases hcases f r with heq | ⟨heq, hplus⟩ <;> omega
  · by_cases hne : f ≠ a.flatBankId ∨ g ≠ a.gctIndex
    · rw [group_setGroup_ne hne] at hg ⊢
      exact hs.below f g hg
    · obtain ⟨rfl, rfl⟩ : f = a.flatBankId ∧ g = a.gctIndex := by omega
      rw [group_setGroup_self]
      omega
  · by_cases hne : f ≠ a.flatBankId ∨ g ≠ a.gctIndex
    · rw [group_setGroup_ne hne] at hg ⊢
      exact hs.reached f g hg
    · obtain ⟨rfl, rfl⟩ : f = a.flatBankId ∧ g = a.gctIndex := by omega
      rw [group_setGroup_self, hinit] at hg
      cases hg
  · intro k i tag count hlookup
    obtain ⟨bank', row, henc, hcount', hgroup⟩ := hc k i tag count hlookup
    refine ⟨bank', row, henc, hcount', ?_⟩
    rw [group_setGroup_ne, hgroup]
    by_contra heq
    obtain ⟨hf, hg⟩ : k * p.numBanksPerRank + bank' = a.flatBankId ∧
      p.gctIndex row = a.gctIndex := by omega
    rw [hf, hg, hnot] at hgroup
    cases hgroup
  · rcases hcases f r with heq | ⟨heq, hplus⟩ <;> omega
  · have hself := estimate_setGroup_self (s := s) (f := a.flatBankId) hrow ha.gctIndex.symm hinit
    rw [hself, estimate_of_group hrow (by rw [← ha.gctIndex]; exact hnot), ← ha.gctIndex, hcount]

structure Starts (p : HydraParams) (s : Hydra) (a : HydraAccess) (s' : Hydra) (sent : Sent) :
    Prop where
  bounded : Bounded p s'
  coherent : Coherent p s'
  le : ∀ f r, s.estimate p f r ≤ s'.estimate p f r
  initialized : (s'.group a.flatBankId a.gctIndex).initialized = true
  cache : s'.rowCountCache = s.rowCountCache
  sent : ∀ x ∈ sent, x.1 = .rctInit

theorem initGroup_starts {a : HydraAccess} (hp : p.Geometry) (hs : Bounded p s)
    (hc : Coherent p s)
    (hreached : p.groupThreshold ≤ (s.group a.flatBankId a.gctIndex).groupCount) :
    Starts p s a (s.initGroup p a).1 (s.initGroup p a).2 := by
  unfold initGroup
  split
  · next hinit => exact ⟨hs, hc, fun _ _ => Nat.le_refl _, hinit, rfl, nofun⟩
  · next hnot =>
      have hnot := Bool.eq_false_of_not_eq_true hnot
      dsimp only
      generalize hs' : ({ s.setGroup a.flatBankId a.gctIndex _ with rowCountTable := _ } : Hydra) = s'
      have hsize : 0 < p.rowGroupSize := hp.groups ▸ Nat.two_pow_pos _
      have hgroup : ∀ f g, (f ≠ a.flatBankId ∨ g ≠ a.gctIndex) → s'.group f g = s.group f g := by
        intro f g hne
        rw [← hs']
        exact group_setGroup_ne hne _
      have hown : s'.group a.flatBankId a.gctIndex =
          { s.group a.flatBankId a.gctIndex with initialized := true } := by
        rw [← hs']
        exact group_setGroup_self _ _ _
      have hcount : ∀ f r, s'.rowCount f r =
          if f = a.flatBankId ∧ p.gctIndex r = a.gctIndex then p.groupThreshold
          else s.rowCount f r := by
        intro f r
        rw [← hs']
        unfold rowCount
        dsimp only
        by_cases hf : f = a.flatBankId
        · subst hf
          have hiff : (a.gctIndex * p.rowGroupSize ≤ r ∧
              r < a.gctIndex * p.rowGroupSize + p.rowGroupSize) ↔ p.gctIndex r = a.gctIndex := by
            rw [hp.gctIndex_eq, Nat.div_eq_iff hsize]
            omega
          rw [Function.update_self, lookup_foldl_insert]
          by_cases hg : p.gctIndex r = a.gctIndex
          · rw [if_pos (hiff.mpr hg), if_pos ⟨rfl, hg⟩]
            rfl
          · rw [if_neg (mt hiff.mp hg), if_neg fun h => hg h.2]
            rfl
        · rw [Function.update_of_ne hf, if_neg fun h => hf h.1]
          rfl
      have hrct : ∀ f r, s'.rctCount f r = s.rctCount f r := fun f r => by rw [← hs']; rfl
      have hcases : ∀ f r, s'.estimate p f r = s.estimate p f r ∨
          (s'.estimate p f r = p.groupThreshold ∧ s.estimate p f r ≤ p.groupThreshold) := by
        intro f r
        by_cases hr : r < p.totalRctRowSize
        · left
          rw [estimate_of_rct hr, estimate_of_rct hr, hrct]
        · by_cases hin : f = a.flatBankId ∧ p.gctIndex r = a.gctIndex
          · right
            obtain ⟨rfl, hg⟩ := hin
            have hbelow := hs.below _ _ hnot
            rw [estimate_of_row hr (by rw [hg, hown]), hcount, if_pos ⟨rfl, hg⟩,
              estimate_of_group hr (by rw [hg]; exact hnot), hg]
            exact ⟨rfl, hbelow⟩
          · left
            unfold estimate
            rw [if_neg hr, if_neg hr, hgroup f _ (by omega), hcount, if_neg hin]
      refine ⟨⟨fun hthreshold f r => ?_, fun f g hg => ?_, fun f g hg => ?_⟩, ?_, fun f r => ?_,
        ?_, ?_, ?_⟩
      · have := hs.small hthreshold f r
        rcases hcases f r with heq | ⟨heq, -⟩ <;> omega
      · by_cases hin : f = a.flatBankId ∧ g = a.gctIndex
        · obtain ⟨rfl, rfl⟩ := hin
          rw [hown] at hg
          cases hg
        · rw [hgroup f g (by omega)] at hg ⊢
          exact hs.below f g hg
      · by_cases hin : f = a.flatBankId ∧ g = a.gctIndex
        · obtain ⟨rfl, rfl⟩ := hin
          rw [hown]
          exact hreached
        · rw [hgroup f g (by omega)] at hg ⊢
          exact hs.reached f g hg
      · intro k i tag count hlookup
        rw [← hs'] at hlookup
        obtain ⟨bank, row, henc, hcount', hinit⟩ := hc k i tag count hlookup
        have hout : ¬ (k * p.numBanksPerRank + bank = a.flatBankId ∧
            p.gctIndex row = a.gctIndex) := by
          rintro ⟨hf, hg⟩
          rw [hf, hg, hnot] at hinit
          cases hinit
        refine ⟨bank, row, henc, ?_, ?_⟩
        · rw [hcount, if_neg hout, hcount']
        · rw [hgroup _ _ (by omega), hinit]
      · rcases hcases f r with heq | ⟨heq, hle⟩ <;> omega
      · rw [hown]
      · rw [← hs']
        rfl
      · intro x hx
        obtain ⟨i, -, rfl⟩ := List.mem_map.mp hx
        rfl

/-! ## The cache -/

def store (s : Hydra) (a : HydraAccess) (count : Nat) : Hydra :=
  (s.setCache a.rankId a.rccIndex
    ((s.rowCountCache a.rankId a.rccIndex).insert a.rccTag count)).setRowCount
      a.flatBankId a.rowId count

theorem lookup_store (a : HydraAccess) (count : Nat) :
    ((s.store a count).rowCountCache a.rankId a.rccIndex).lookup a.rccTag = some count := by
  change ((s.setCache _ _ _).rowCountCache a.rankId a.rccIndex).lookup a.rccTag = _
  rw [setCache_self, AList.lookup_insert]

theorem rowCount_store_self (a : HydraAccess) (count : Nat) :
    (s.store a count).rowCount a.flatBankId a.rowId = count := rowCount_setRowCount_self _ _ _

theorem estimate_store_ne {a : HydraAccess} {f r : Nat} (hne : f ≠ a.flatBankId ∨ r ≠ a.rowId)
    (count : Nat) : (s.store a count).estimate p f r = s.estimate p f r := by
  have hcount : (s.store a count).rowCount f r = s.rowCount f r := rowCount_setRowCount_ne hne _
  unfold estimate
  rw [hcount]
  rfl

theorem estimate_store_self {a : HydraAccess} {bank : Nat} (ha : a.Valid p bank)
    (hrow : ¬ a.rowId < p.totalRctRowSize)
    (hinit : (s.group a.flatBankId a.gctIndex).initialized = true) (count : Nat) :
    (s.store a count).estimate p a.flatBankId a.rowId = count := by
  rw [ha.gctIndex] at hinit
  have hinit' : ((s.store a count).group a.flatBankId (p.gctIndex a.rowId)).initialized = true :=
    hinit
  rw [estimate_of_row hrow hinit', rowCount_store_self]

theorem Bounded.store {a : HydraAccess} {bank : Nat} (hs : Bounded p s) (ha : a.Valid p bank)
    (hrow : ¬ a.rowId < p.totalRctRowSize)
    (hinit : (s.group a.flatBankId a.gctIndex).initialized = true) {count : Nat}
    (hlt : count < p.trackingThreshold) : Bounded p (s.store a count) := by
  refine ⟨fun hthreshold f r => ?_, hs.below, hs.reached⟩
  by_cases hne : f ≠ a.flatBankId ∨ r ≠ a.rowId
  · rw [estimate_store_ne hne]
    exact hs.small hthreshold f r
  · obtain ⟨rfl, rfl⟩ : f = a.flatBankId ∧ r = a.rowId := by omega
    rw [estimate_store_self ha hrow hinit]
    exact hlt

theorem Coherent.store {a : HydraAccess} {bank : Nat} (hc : Coherent p s) (ha : a.Valid p bank)
    (hinit : (s.group a.flatBankId a.gctIndex).initialized = true) (count : Nat) :
    Coherent p (s.store a count) := by
  generalize hs' : s.store a count = s'
  have hcount : s'.rowCount a.flatBankId a.rowId = count := by
    rw [← hs']
    exact rowCount_setRowCount_self _ _ _
  have hcount_ne : ∀ f r, (f ≠ a.flatBankId ∨ r ≠ a.rowId) → s'.rowCount f r = s.rowCount f r := by
    intro f r hne
    rw [← hs']
    exact rowCount_setRowCount_ne hne _
  have hgroup : ∀ f g, s'.group f g = s.group f g := fun f g => by rw [← hs']; rfl
  intro k i tag count' hlookup
  by_cases hkey : k = a.rankId ∧ i = a.rccIndex ∧ tag = a.rccTag
  · obtain ⟨rfl, rfl, rfl⟩ := hkey
    have hset : s'.rowCountCache a.rankId a.rccIndex =
        (s.rowCountCache a.rankId a.rccIndex).insert a.rccTag count := by
      rw [← hs']
      exact setCache_self _ _ _
    rw [hset, AList.lookup_insert] at hlookup
    obtain rfl := Option.some.inj hlookup
    refine ⟨bank, a.rowId, ha.encodes, ?_, ?_⟩
    · rw [← ha.flatBankId, hcount]
    · rw [← ha.flatBankId, hgroup, ← ha.gctIndex, hinit]
  · have hold : (s.rowCountCache k i).lookup tag = some count' := by
      rw [← hlookup, ← hs']
      change _ = ((s.setCache _ _ _).rowCountCache k i).lookup tag
      by_cases hki : k = a.rankId ∧ i = a.rccIndex
      · obtain ⟨rfl, rfl⟩ := hki
        rw [setCache_self, AList.lookup_insert_ne fun h => hkey ⟨rfl, rfl, h⟩]
      · rw [setCache_ne (by omega)]
    obtain ⟨bank', row, henc, hrow, hgrp⟩ := hc k i tag count' hold
    refine ⟨bank', row, henc, ?_, ?_⟩
    · rw [hcount_ne, hrow]
      by_contra hsame
      obtain ⟨hflat, rfl⟩ : k * p.numBanksPerRank + bank' = a.flatBankId ∧ row = a.rowId := by
        omega
      rw [ha.flatBankId] at hflat
      have hmod := congrArg (· % p.numBanksPerRank) hflat
      have hdiv := congrArg (· / p.numBanksPerRank) hflat
      have hpos : 0 < p.numBanksPerRank := Nat.zero_lt_of_lt henc.bank_lt
      simp only [Nat.mul_add_mod_of_lt henc.bank_lt, Nat.mul_add_mod_of_lt ha.encodes.bank_lt] at hmod
      rw [Nat.mul_comm, Nat.mul_comm a.rankId] at hdiv
      simp only [Nat.mul_add_div hpos, Nat.div_eq_of_lt henc.bank_lt,
        Nat.div_eq_of_lt ha.encodes.bank_lt, Nat.add_zero] at hdiv
      subst hmod
      exact hkey ⟨hdiv, henc.index.symm.trans ha.encodes.index, henc.tag.symm.trans ha.encodes.tag⟩
    · rw [hgroup, hgrp]

theorem Coherent.erase (hc : Coherent p s) (k i : Nat) (tag : Int) :
    Coherent p (s.setCache k i ((s.rowCountCache k i).erase tag)) := by
  intro k' i' tag' count hlookup
  by_cases hki : k' = k ∧ i' = i
  · obtain ⟨rfl, rfl⟩ := hki
    rw [setCache_self] at hlookup
    exact hc k' i' tag' count (Summary.lookup_erase_eq_some hlookup)
  · rw [setCache_ne (by omega)] at hlookup
    exact hc k' i' tag' count hlookup

theorem makeRoom_cases {a : HydraAccess} {choice : Nat} {s' : Hydra} {sent : Sent}
    (h : s.makeRoom p a choice = some (s', sent)) :
    ((s.rowCountCache a.rankId a.rccIndex).entries.length ≠ 16 ∧ s' = s ∧ sent = []) ∨
    ∃ tag count, (s.rowCountCache a.rankId a.rccIndex).entries.length = 16 ∧
      (s.rowCountCache a.rankId a.rccIndex).lookup tag = some count ∧
      s' = s.setCache a.rankId a.rccIndex ((s.rowCountCache a.rankId a.rccIndex).erase (toInt tag)) ∧
      sent = [(.rctWrite, p.evictedEntryAddrVec a.addrVec (toInt tag) a.rccIndex)] := by
  unfold makeRoom at h
  dsimp only at h
  split at h
  · next hfull =>
      obtain ⟨tag, htag, heq⟩ := Option.map_eq_some_iff.mp h
      obtain ⟨rfl, rfl⟩ := Prod.mk.inj heq
      right
      have hmem : ∃ e ∈ (s.rowCountCache a.rankId a.rccIndex).entries, e.1 = tag := by
        unfold getTagToEvict at htag
        dsimp only at htag
        split at htag
        · obtain ⟨e, he, rfl⟩ := Option.map_eq_some_iff.mp htag
          exact ⟨e, pick_mem he, rfl⟩
        · obtain ⟨e, he, rfl⟩ := Option.map_eq_some_iff.mp htag
          exact ⟨e, (List.mem_filter.mp (pick_mem he)).1, rfl⟩
        · cases htag
      obtain ⟨⟨_, count⟩, hmem, rfl⟩ := hmem
      exact ⟨_, count, hfull, Table.lookup_eq_some_iff.mpr hmem, rfl, rfl⟩
  · next hfull =>
      obtain ⟨rfl, rfl⟩ := Prod.mk.inj (Option.some.inj h)
      exact .inl ⟨hfull, rfl, rfl⟩

theorem countRow_cases {a : HydraAccess} {bank : Nat} {choice : Nat} {s' : Hydra} {sent : Sent}
    (hp : p.Geometry) (hfits : p.rccTagBits ≤ 32) (hc : Coherent p s) (ha : a.Valid p bank)
    (h : s.countRow p a choice = some (s', sent)) :
    ∃ s₁ sent₁, s' = s₁.store a (s.rowCount a.flatBankId a.rowId + 1) ∧
      ((s₁ = s ∧ sent = [] ∧ ∃ count,
          (s.rowCountCache a.rankId a.rccIndex).lookup a.rccTag = some count) ∨
        ((s.rowCountCache a.rankId a.rccIndex).lookup a.rccTag = none ∧
        s.makeRoom p a choice = some (s₁, sent₁) ∧
          sent = sent₁ ++ [(.rctRead, p.rctAddrVec a.addrVec (a.addrVec.at 4))])) := by
  unfold countRow at h
  cases hlookup : (s.rowCountCache a.rankId a.rccIndex).lookup a.rccTag with
  | none =>
      rw [hlookup] at h
      obtain ⟨⟨s₁, sent₁⟩, hroom, heq⟩ := Option.map_eq_some_iff.mp h
      obtain ⟨rfl, rfl⟩ := Prod.mk.inj heq
      refine ⟨s₁, sent₁, ?_, .inr ⟨rfl, hroom, rfl⟩⟩
      have hcount : s₁.rowCount a.flatBankId a.rowId = s.rowCount a.flatBankId a.rowId := by
        rcases makeRoom_cases hroom with ⟨-, rfl, -⟩ | ⟨tag, count, -, -, rfl, -⟩ <;> rfl
      rw [hcount]
      rfl
  | some count =>
      rw [hlookup] at h
      obtain ⟨rfl, rfl⟩ := Prod.mk.inj (Option.some.inj h)
      obtain ⟨bank', row, henc, hcount, -⟩ := hc _ _ _ _ hlookup
      obtain ⟨rfl, rfl⟩ := ha.encodes.unique hp hfits henc
      rw [← ha.flatBankId] at hcount
      refine ⟨s, [], ?_, .inl ⟨rfl, rfl, count, rfl⟩⟩
      rw [hcount]
      subst hcount
      rfl

theorem vrrs_append (sent sent' : Sent) : vrrs (sent ++ sent') = vrrs sent ++ vrrs sent' := by
  rw [vrrs, List.filter_append, List.map_append]
  rfl

theorem vrrs_eq_nil {sent : Sent} (h : ∀ x ∈ sent, x.1 ≠ .vrr) : vrrs sent = [] := by
  rw [vrrs, List.filter_eq_nil_iff.mpr fun x hx => by rw [decide_eq_true_eq]; exact h x hx]
  rfl

theorem makeRoom_keeps {a : HydraAccess} {choice : Nat} {s' : Hydra} {sent : Sent}
    (h : s.makeRoom p a choice = some (s', sent)) (hs : Bounded p s) (hc : Coherent p s) :
    Bounded p s' ∧ Coherent p s' ∧ (∀ f r, s'.estimate p f r = s.estimate p f r) ∧
      (∀ f g, s'.group f g = s.group f g) ∧ vrrs sent = [] := by
  rcases makeRoom_cases h with ⟨-, rfl, rfl⟩ | ⟨tag, count, -, -, rfl, rfl⟩
  · exact ⟨hs, hc, fun _ _ => rfl, fun _ _ => rfl, rfl⟩
  · exact ⟨⟨hs.small, hs.below, hs.reached⟩, hc.erase _ _ _, fun _ _ => rfl, fun _ _ => rfl, rfl⟩

theorem checkThreshold_store (a : HydraAccess) (count : Nat) :
    (s.store a count).checkThreshold p a =
      if count ≥ p.trackingThreshold then ((s.store a count).store a 0, [(.vrr, a.addrVec)])
      else (s.store a count, []) := by
  unfold checkThreshold
  dsimp only
  rw [lookup_store]
  rfl

theorem countRow_counts {a : HydraAccess} {bank : Nat} {choice : Nat} {s' : Hydra} {sent : Sent}
    (hp : p.Geometry) (hfits : p.rccTagBits ≤ 32) (hs : Bounded p s) (hc : Coherent p s)
    (ha : a.Valid p bank) (hrow : ¬ a.rowId < p.totalRctRowSize)
    (hinit : (s.group a.flatBankId a.gctIndex).initialized = true)
    (h : s.countRow p a choice = some (s', sent)) :
    Counts p s a (s'.checkThreshold p a).1 (sent ++ (s'.checkThreshold p a).2) := by
  have hself : s.estimate p a.flatBankId a.rowId = s.rowCount a.flatBankId a.rowId :=
    estimate_of_row hrow (by rw [← ha.gctIndex]; exact hinit)
  obtain ⟨s₁, sent₁, rfl, hroom⟩ := countRow_cases hp hfits hc ha h
  obtain ⟨hs₁, hc₁, hestimate, hgroup, hsent⟩ : Bounded p s₁ ∧ Coherent p s₁ ∧
      (∀ f r, s₁.estimate p f r = s.estimate p f r) ∧ (∀ f g, s₁.group f g = s.group f g) ∧
        vrrs sent = [] := by
    rcases hroom with ⟨rfl, rfl, -⟩ | ⟨-, hroom, rfl⟩
    · exact ⟨hs, hc, fun _ _ => rfl, fun _ _ => rfl, rfl⟩
    · obtain ⟨hs₁, hc₁, hestimate, hgroup, hsent⟩ := makeRoom_keeps hroom hs hc
      refine ⟨hs₁, hc₁, hestimate, hgroup, ?_⟩
      rw [vrrs_append, hsent]
      rfl
  have hinit₁ : (s₁.group a.flatBankId a.gctIndex).initialized = true := by rw [hgroup, hinit]
  rw [checkThreshold_store]
  split
  · have hinit₂ : ((s₁.store a (s.rowCount a.flatBankId a.rowId + 1)).group a.flatBankId
        a.gctIndex).initialized = true := hinit₁
    refine ⟨⟨fun hthreshold f r => ?_, hs₁.below, hs₁.reached⟩, (hc₁.store ha hinit₁ _).store ha hinit₁ 0,
      fun f r hne => ?_, .inr ?_⟩
    · by_cases hne : f ≠ a.flatBankId ∨ r ≠ a.rowId
      · rw [estimate_store_ne hne, estimate_store_ne hne]
        exact hs₁.small hthreshold f r
      · obtain ⟨rfl, rfl⟩ : f = a.flatBankId ∧ r = a.rowId := by omega
        dsimp only
        rw [estimate_store_self ha hrow hinit₂]
        exact Nat.zero_lt_of_lt hthreshold
    · rw [estimate_store_ne hne, estimate_store_ne hne, hestimate]
    · rw [vrrs_append, hsent]
      rfl
  · next hbelow =>
      refine ⟨hs₁.store ha hrow hinit₁ (Nat.lt_of_not_le hbelow), hc₁.store ha hinit₁ _,
        fun f r hne => ?_, .inl ⟨?_, ?_⟩⟩
      · rw [estimate_store_ne hne, hestimate]
      · rw [List.append_nil, hsent]
      · rw [estimate_store_self ha hrow hinit₁, hself]

theorem activate_counts {a : HydraAccess} {bank : Nat} {choice : Nat} {s' : Hydra} {sent : Sent}
    (hp : p.Geometry) (hfits : p.rccTagBits ≤ 32) (hs : Bounded p s) (hc : Coherent p s)
    (ha : a.Valid p bank) (h : s.activate p a choice = some (s', sent)) :
    Counts p s a s' sent := by
  unfold activate at h
  dsimp only at h
  split at h
  · next hrow =>
      obtain ⟨rfl, rfl⟩ := Prod.mk.inj (Option.some.inj h)
      exact countRct_counts hs hc hrow
  · next hrow =>
      split at h
      · next hreached =>
          have hstart := initGroup_starts hp hs hc hreached
          obtain ⟨⟨s₁, sent₁⟩, hcount, heq⟩ := Option.map_eq_some_iff.mp h
          obtain ⟨rfl, rfl⟩ := Prod.mk.inj heq
          have hcounts := countRow_counts hp hfits hstart.bounded hstart.coherent ha hrow
            hstart.initialized hcount
          have hinit : vrrs (s.initGroup p a).2 = [] :=
            vrrs_eq_nil fun x hx => by rw [hstart.sent x hx]; decide
          refine ⟨hcounts.bounded, hcounts.coherent,
            fun f r hne => Nat.le_trans (hstart.le f r) (hcounts.others f r hne), ?_⟩
          rw [List.append_assoc, vrrs_append, hinit, List.nil_append]
          rcases hcounts.self with ⟨hnone, hself⟩ | hvrr
          · exact .inl ⟨hnone, Nat.le_trans (Nat.succ_le_succ (hstart.le _ _)) hself⟩
          · exact .inr hvrr
      · next hbelow =>
          obtain ⟨rfl, rfl⟩ := Prod.mk.inj (Option.some.inj h)
          exact setGroup_counts hs hc ha hrow (Nat.lt_of_not_le hbelow)

/-! ## Runs -/

structure Watched where
  plugin : Hydra := {}
  log : Nat → List (Event Int) := fun _ => []

/-- A call of `update`, and what it adds to the logs. -/
def Watched.step (p : HydraParams) (w : Watched) (call : Option Issued × Nat) : Option Watched :=
  (w.plugin.update p call.1 call.2).map fun (plugin, sent) =>
    { plugin, log := fun bank =>
        p.levels.watch (w.plugin.resets p) call.1 (vrrs sent) bank (w.log bank) }

def Addressed (p : HydraParams) (request : Option Issued) : Prop :=
  ∀ v, p.levels.activation request = some v → p.Addresses v

abbrev Run (p : HydraParams) : Watched → Prop :=
  Runs.Reachable (Eq {}) (fun w call w' => w.step p call = some w')
    (fun _ call => Addressed p call.1)

theorem bounded_empty (clk : Int) : Bounded p { clk } := by
  have hzero : ∀ f r, estimate p { clk } f r = 0 := by
    intro f r
    unfold estimate
    split
    · rfl
    · split <;> rfl
  refine ⟨fun hthreshold f r => ?_, fun f g _ => Nat.zero_le _, fun f g h => ?_⟩
  · rw [hzero]
    exact Nat.zero_lt_of_lt hthreshold
  · cases h

theorem coherent_empty (clk : Int) : Coherent p { clk } := by
  intro k i tag count h
  cases h

theorem advance_keeps (hs : Bounded p s) (hc : Coherent p s) :
    Bounded p (s.advance p) ∧ Coherent p (s.advance p) := by
  unfold advance
  split
  · exact ⟨bounded_empty _, coherent_empty _⟩
  · exact ⟨⟨hs.small, hs.below, hs.reached⟩, hc⟩

theorem update_cases {s' : Hydra} {request : Option Issued} {choice : Nat} {sent : Sent}
    (h : s.update p request choice = some (s', sent)) :
    (p.levels.activation request = none ∧ s' = s.advance p ∧ sent = []) ∨
    ∃ v a, p.levels.activation request = some v ∧ p.access v = some a ∧
      (s.advance p).activate p a choice = some (s', sent) := by
  unfold update at h
  split at h
  · cases h
  · cases hact : p.levels.activation request with
    | none =>
        rw [hact] at h
        obtain ⟨rfl, rfl⟩ := Prod.mk.inj (Option.some.inj h)
        exact .inl ⟨rfl, rfl, rfl⟩
    | some v =>
        rw [hact] at h
        obtain ⟨a, ha, h⟩ := Option.bind_eq_some_iff.mp h
        exact .inr ⟨v, a, rfl, ha, h⟩

structure Tracks (p : HydraParams) (w : Watched) : Prop where
  bounded : Bounded p w.plugin
  coherent : Coherent p w.plugin
  pending_le : ∀ f r : Nat, pending (r : Int) (w.log f) ≤ w.plugin.estimate p f r

theorem Tracks.step {w w' : Watched} {call : Option Issued × Nat} (hp : p.Geometry)
    (hfits : p.rccTagBits ≤ 32) (hw : Tracks p w) (haddr : Addressed p call.1)
    (h : w.step p call = some w') : Tracks p w' := by
  obtain ⟨⟨s', sent⟩, hupdate, rfl⟩ := Option.map_eq_some_iff.mp h
  obtain ⟨hs, hc⟩ := advance_keeps hw.bounded hw.coherent
  have hle : ∀ f r : Nat, pending (r : Int)
      (if w.plugin.resets p then .reset :: w.log f else w.log f) ≤
        (w.plugin.advance p).estimate p f r := by
    intro f r
    unfold advance
    split
    · exact Nat.zero_le _
    · exact hw.pending_le f r
  rcases update_cases hupdate with ⟨hact, rfl, rfl⟩ | ⟨v, a, hact, haccess, hactivate⟩
  · refine ⟨hs, hc, fun f r => ?_⟩
    dsimp only
    rw [show vrrs [] = [] from rfl, Levels.watch_none hact]
    exact hle f r
  · obtain ⟨rfl, hrow, hflat, ha⟩ := HydraParams.access_spec (haddr v hact) haccess
    have hcounts := activate_counts hp hfits hs hc ha hactivate
    refine ⟨hcounts.bounded, hcounts.coherent, fun f r => ?_⟩
    dsimp only
    by_cases hf : f = a.flatBankId
    · subst hf
      rcases hcounts.self with ⟨hnone, hself⟩ | hvrr
      · rw [hnone, Levels.watch_hit hact hflat]
        by_cases hr : r = a.rowId
        · subst hr
          have hrow' : a.addrVec.at p.levels.row = (a.rowId : Int) := hrow
          rw [hrow', pending_hit_self]
          exact Nat.le_trans (Nat.succ_le_succ (hle _ _)) hself
        · have hne : a.addrVec.at p.levels.row ≠ (r : Int) :=
            fun h => hr (Int.ofNat_inj.mp (h.symm.trans hrow))
          rw [pending_hit_ne hne]
          exact Nat.le_trans (hle _ _) (hcounts.others _ _ (.inr hr))
      · rw [hvrr, Levels.watch_refresh hact hflat]
        by_cases hr : r = a.rowId
        · subst hr
          have hrow' : a.addrVec.at p.levels.row = (a.rowId : Int) := hrow
          rw [hrow', pending_clear_self]
          exact Nat.zero_le _
        · have hne : a.addrVec.at p.levels.row ≠ (r : Int) :=
            fun h => hr (Int.ofNat_inj.mp (h.symm.trans hrow))
          rw [pending_clear_ne hne, pending_hit_ne hne]
          exact Nat.le_trans (hle _ _) (hcounts.others _ _ (.inr hr))
    · have hvrrs : ∀ w ∈ vrrs sent, w = a.addrVec := by
        rcases hcounts.self with ⟨hnone, -⟩ | hvrr
        · rw [hnone]
          exact nofun
        · rw [hvrr]
          exact fun w hw => List.mem_singleton.mp hw
      have hne : p.levels.flatBankId a.addrVec ≠ (f : Int) :=
        fun h => hf (Int.ofNat_inj.mp (h.symm.trans hflat))
      rw [Levels.watch_ne hact hvrrs hne]
      exact Nat.le_trans (hle _ _) (hcounts.others _ _ (.inl hf))

theorem Run.tracks (hp : p.Geometry) (hfits : p.rccTagBits ≤ 32) {w : Watched} (h : Run p w) :
    Tracks p w := by
  refine h.invariant (I := fun w => Tracks p w) ?_ ?_
  · rintro w rfl
    exact ⟨bounded_empty _, coherent_empty _, fun _ _ => Nat.zero_le _⟩
  · intro w call w' hw haddr hstep
    exact hw.step hp hfits haddr hstep

theorem run_replay {ok : Watched → Option Issued × Nat → Bool}
    (hok : ∀ w call, ok w call = true → Addressed p call.1) {calls : List (Option Issued × Nat)}
    {w : Watched} (h : Runs.replay (Watched.step p) ok {} calls = some w) : Run p w :=
  Runs.replay_reachable hok (.start rfl) h

instance (c : HydraConfig) (v : AddrVec) : Decidable (c.Addresses v) :=
  inferInstanceAs (Decidable (_ ∧ ∀ l < 6, _))

instance (p : HydraParams) (request : Option Issued) : Decidable (Addressed p request) :=
  match h : p.levels.activation request with
  | none => .isTrue fun v hv => by rw [h] at hv; cases hv
  | some v => decidable_of_iff (p.Addresses v)
      ⟨fun hv w hw => by rw [h] at hw; cases hw; exact hv, fun hv => hv v h⟩

end Hydra

open Hydra

/-- With powers of two as sizes and tags that fit `uint`, in every state of every run no row
has as many activations as the tracking threshold since its last requested refresh or the
reset. -/
theorem hydra_tracks {c : HydraConfig} {p : HydraParams} (hsetup : c.setup = some p)
    (hsizes : c.PowersOfTwo) (hthreshold : c.groupThreshold < c.trackingThreshold)
    (htag : p.rccTagBits ≤ 32) {w : Watched} (h : Run p w) (bank row : Nat) :
    pending (row : Int) (w.log bank) ≤ c.trackingThreshold - 1 := by
  obtain ⟨hp, rfl⟩ := hsizes.geometry hsetup
  have htracks := h.tracks hp htag
  have hlt := htracks.bounded.small hthreshold bank row
  have hle := htracks.pending_le bank row
  omega

/-- `DDR4_8Gb_x8` with a small threshold. -/
def ddr4Hydra : HydraConfig where
  numRanks := 1
  numBankgroups := 4
  numBanks := 4
  numRows := 2 ^ 16
  numColumns := 2 ^ 10
  trackingThreshold := 4
  groupThreshold := 2
  rowGroupSize := 4
  resetPeriodClk := 1000

theorem ddr4Hydra_powersOfTwo : ddr4Hydra.PowersOfTwo :=
  ⟨⟨16, rfl⟩, ⟨4, rfl⟩, ⟨2, rfl⟩, ⟨8, rfl⟩⟩

/-- Three activations of a row, the last one counted for the row alone. -/
theorem hydra_tracks_ddr4 :
    ∃ p w, ddr4Hydra.setup = some p ∧ Run p w ∧ pending 1000 (w.log 6) = 3 ∧
      ∀ bank row : Nat, pending (row : Int) (w.log bank) ≤ 3 := by
  have hrun : (ddr4Hydra.setup.any fun p => p.rccTagBits ≤ 32 ∧
      (Runs.replay (Watched.step p) (fun _ call => decide (Addressed p call.1)) {}
        [(some ⟨true, 4, [0, 0, 1, 2, 1000, 0]⟩, 0), (some ⟨true, 4, [0, 0, 1, 2, 1000, 8]⟩, 0),
          (some ⟨true, 4, [0, 0, 1, 2, 1000, 0]⟩, 0)]).any fun w =>
            pending 1000 (w.log 6) = 3) = true := by
    decide +kernel
  obtain ⟨p, hp, htest⟩ := Option.any_eq_true .. |>.mp hrun
  obtain ⟨htag, hreplay⟩ := of_decide_eq_true htest
  obtain ⟨w, hw, hpending⟩ := Option.any_eq_true .. |>.mp hreplay
  have hr := run_replay (fun _ _ hok => of_decide_eq_true hok) hw
  exact ⟨p, w, hp, hr, of_decide_eq_true hpending,
    hydra_tracks hp ddr4Hydra_powersOfTwo (by decide) htag hr⟩

def wideHydra : HydraConfig where
  numRanks := 1
  numBankgroups := 128
  numBanks := 256
  numRows := 2 ^ 18
  numColumns := 2 ^ 10
  trackingThreshold := 3
  groupThreshold := 1
  rowGroupSize := 4
  resetPeriodClk := 1000
  rccNumPerRank := 16

theorem wideHydra_powersOfTwo : wideHydra.PowersOfTwo :=
  ⟨⟨18, rfl⟩, ⟨15, rfl⟩, ⟨2, rfl⟩, ⟨0, rfl⟩⟩

/-- Two banks whose ids differ above the tag share an entry of the cache: the third
activation of a row of the first bank requests no refresh. -/
theorem hydra_untracked :
    ∃ p w, wideHydra.setup = some p ∧ wideHydra.PowersOfTwo ∧
      wideHydra.groupThreshold < wideHydra.trackingThreshold ∧ Run p w ∧
        pending 1000 (w.log 0) = wideHydra.trackingThreshold := by
  have hrun : (wideHydra.setup.any fun p =>
      (Runs.replay (Watched.step p) (fun _ call => decide (Addressed p call.1)) {}
        [(some ⟨true, 4, [0, 0, 0, 0, 1000, 0]⟩, 0), (some ⟨true, 4, [0, 0, 64, 0, 1000, 0]⟩, 0),
          (some ⟨true, 4, [0, 0, 0, 0, 1000, 0]⟩, 0), (some ⟨true, 4, [0, 0, 64, 0, 1000, 0]⟩, 0),
          (some ⟨true, 4, [0, 0, 0, 0, 1000, 0]⟩, 0)]).any fun w =>
            pending 1000 (w.log 0) = wideHydra.trackingThreshold) = true := by
    decide +kernel
  obtain ⟨p, hp, hreplay⟩ := Option.any_eq_true .. |>.mp hrun
  obtain ⟨w, hw, hpending⟩ := Option.any_eq_true .. |>.mp hreplay
  exact ⟨p, w, hp, wideHydra_powersOfTwo, by decide,
    run_replay (fun _ _ hok => of_decide_eq_true hok) hw, of_decide_eq_true hpending⟩

end AimSimulator.Plugin
