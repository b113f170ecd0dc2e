import AimSimulator.Plugin.Hydra
/-!
# Where Hydra keeps its counters

The number of reserved rows is rounded once, from cache lines; the slot of a counter is
found with the counters of a row, rounded down.  With counters of three bytes the two do not
agree: a row then has room for less than its share of the counters.
-/

namespace AimSimulator.Plugin

/-! ## The width of a counter -/

theorem ceilLog2_le_iff {n : Nat} (hn : 2 ≤ n) (k : Nat) : ceilLog2 n ≤ k ↔ n ≤ 2 ^ k := by
  have hlog := Nat.log2_lt (n := n - 1) (k := k) (by omega)
  rw [ceilLog2, if_neg (by omega)]
  omega

theorem counterBits_eq {t : Nat} (ht : 2 ≤ t) (hint : t < 2 ^ 31) :
    counterBits t =
      if t ≤ 2 ^ 8 then 8 else if t ≤ 2 ^ 16 then 16 else if t ≤ 2 ^ 24 then 24 else 32 := by
  have hpos : ¬ ceilLog2 t ≤ 0 := by rw [ceilLog2_le_iff ht]; omega
  have h8 := ceilLog2_le_iff ht 8
  have h16 := ceilLog2_le_iff ht 16
  have h24 := ceilLog2_le_iff ht 24
  have h32 : ceilLog2 t ≤ 32 := (ceilLog2_le_iff ht 32).mpr (by omega)
  rw [counterBits]
  split
  · omega
  · split
    · omega
    · split
      · omega
      · omega

/-! ## Rows and columns of the slots -/

/-- The slot of each row of the bank lies in a reserved row and in a column of the bank. -/
def RctLayout.Fits (layout : RctLayout) (numRows numColumns : Nat) : Prop :=
  ∀ rowId : Nat, rowId < numRows →
    (layout.generateRowColId rowId).1 < layout.totalRctRowSize ∧
      0 ≤ (layout.generateRowColId rowId).2 ∧ (layout.generateRowColId rowId).2 < numColumns

theorem RctLayout.generateRowColId_natCast (layout : RctLayout) (rowId : Nat) :
    layout.generateRowColId rowId =
      (((rowId / layout.rctPerRow : Nat) : Int),
        ((rowId % layout.rctPerRow * layout.counterBits / 512 * 8 : Nat) : Int)) := by
  rw [generateRowColId, ← Int.ofNat_tdiv, ← Int.ofNat_tmod, Int.shiftLeft_eq]
  rfl

theorem rows_lt_iff {numRows perRow total : Nat} (hper : 0 < perRow) (hrows : 0 < numRows) :
    (∀ rowId < numRows, rowId / perRow < total) ↔ numRows ≤ perRow * total := by
  constructor
  · intro h
    have hlast := h (numRows - 1) (by omega)
    rw [Nat.div_lt_iff_lt_mul hper, Nat.mul_comm] at hlast
    omega
  · intro h rowId hrow
    rw [Nat.div_lt_iff_lt_mul hper, Nat.mul_comm]
    omega

theorem column_lt (rowId : Nat) {bits numCls : Nat} (hbits : 0 < bits)
    (hper : 0 < numCls * 512 / bits) : rowId % (numCls * 512 / bits) * bits / 512 < numCls := by
  have hmod : rowId % (numCls * 512 / bits) < numCls * 512 / bits := Nat.mod_lt _ hper
  rw [Nat.div_lt_iff_lt_mul (by decide)]
  calc rowId % (numCls * 512 / bits) * bits < numCls * 512 / bits * bits :=
        Nat.mul_lt_mul_of_pos_right hmod hbits
    _ ≤ numCls * 512 := Nat.div_mul_le_self _ _

/-! ## Whether the reserved rows suffice -/

theorem le_mul_ceilDiv (k : Nat) {n : Nat} (hn : 0 < n) : k ≤ n * ((k + n - 1) / n) := by
  have hdiv := Nat.div_add_mod (k + n - 1) n
  have hmod := Nat.mod_lt (k + n - 1) hn
  omega

/-- A width that divides a cache line: the reserved rows suffice from one line on. -/
theorem suffices_of_dvd {numRows n bits m : Nat} (hm : m * bits = 512) (hn : 0 < n)
    (hpos : 0 < numRows) (hrows : m ∣ numRows ∨ numRows < m) :
    numRows ≤ n * 512 / bits * ((numRows * bits / 512 + n - 1) / n) ↔ m ≤ numRows := by
  have hbits : 0 < bits := Nat.pos_of_ne_zero (by rintro rfl; omega)
  have hper : n * 512 / bits = n * m := by
    rw [← hm, ← Nat.mul_assoc, Nat.mul_div_cancel _ hbits]
  rw [hper]
  rcases hrows with ⟨k, rfl⟩ | hlt
  · have hlines : m * k * bits / 512 = k := by
      rw [Nat.mul_right_comm, hm, Nat.mul_div_cancel_left _ (by decide)]
    have hk : 0 < k := Nat.pos_of_mul_pos_left hpos
    rw [hlines]
    refine iff_of_true ?_ (Nat.le_mul_of_pos_right m hk)
    rw [Nat.mul_comm n m, Nat.mul_assoc]
    exact Nat.mul_le_mul_left m (le_mul_ceilDiv k hn)
  · have hlines : numRows * bits / 512 = 0 := by
      rw [← hm]
      exact Nat.div_eq_of_lt (Nat.mul_lt_mul_of_pos_right hlt hbits)
    rw [hlines, Nat.zero_add, Nat.div_eq_of_lt (by omega), Nat.mul_zero]
    omega

theorem two_pow_mod_three (k : Nat) : 2 ^ k % 3 ≠ 0 := by
  induction k with
  | zero => decide
  | succ k ih =>
      rw [Nat.pow_succ]
      omega

/-- Counters of three bytes: a row holds less than `64 n / 3` of them, and the reserved rows
suffice only while the counters fill no three rows. -/
theorem suffices_three_bytes (r j : Nat) :
    2 ^ r ≤ 2 ^ j * 512 / 24 * ((2 ^ r * 24 / 512 + 2 ^ j - 1) / 2 ^ j) ↔
      32 ≤ 2 ^ r ∧ 2 ^ r < 64 * 2 ^ j ∧ 2 ≤ 2 ^ j := by
  have hn : 0 < 2 ^ j := Nat.two_pow_pos j
  have hpos : 0 < 2 ^ r := Nat.two_pow_pos r
  have hmod := two_pow_mod_three j
  rcases Nat.lt_trichotomy r 5 with hlt | rfl | hgt
  · have hsmall : 2 ^ r ≤ 2 ^ 4 := Nat.pow_le_pow_right (by decide) (by omega)
    have hlines : 2 ^ r * 24 / 512 = 0 := by omega
    have hnone : (2 ^ j - 1) / 2 ^ j = 0 := Nat.div_eq_of_lt (by omega)
    rw [hlines, Nat.zero_add, hnone, Nat.mul_zero]
    omega
  · have hrows : (2 ^ 5 * 24 / 512 + 2 ^ j - 1) / 2 ^ j = 1 := by
      rw [show 2 ^ 5 * 24 / 512 + 2 ^ j - 1 = 2 ^ j by omega, Nat.div_self hn]
    rw [hrows]
    omega
  · obtain ⟨i, rfl⟩ : ∃ i, r = i + 6 := ⟨r - 6, by omega⟩
    have hi : 0 < 2 ^ i := Nat.two_pow_pos i
    have hr : 2 ^ (i + 6) = 64 * 2 ^ i := by rw [Nat.pow_add, Nat.mul_comm]
    have hlines : 64 * 2 ^ i * 24 / 512 = 3 * 2 ^ i := by omega
    rw [hr, hlines]
    rcases Nat.lt_or_ge i j with hij | hij
    · -- the counters fill at most one and a half rows
      have htwo : 2 * 2 ^ i ≤ 2 ^ j := by
        rw [← Nat.pow_succ']
        exact Nat.pow_le_pow_right (by decide) hij
      refine iff_of_true ?_ ⟨by omega, by omega, by omega⟩
      by_cases hhalf : 2 ^ j = 2 * 2 ^ i
      · have hrows : (3 * 2 ^ i + 2 ^ j - 1) / 2 ^ j = 2 := by
          rw [Nat.div_eq_iff hn]
          omega
        rw [hrows]
        omega
      · have hfour : 4 * 2 ^ i ≤ 2 ^ j := by
          have hne : i + 1 ≠ j := by
            rintro rfl
            exact hhalf (by rw [Nat.pow_succ'])
          rw [show 4 = 2 ^ 2 from rfl, ← Nat.pow_add]
          exact Nat.pow_le_pow_right (by decide) (by omega)
        have hrows : (3 * 2 ^ i + 2 ^ j - 1) / 2 ^ j = 1 := by
          rw [Nat.div_eq_iff hn]
          omega
        rw [hrows]
        omega
    · -- three rows, or a multiple, each of which loses a counter
      obtain ⟨t, ht⟩ : 2 ^ j ∣ 2 ^ i := Nat.pow_dvd_pow 2 hij
      have htpos : 0 < t := Nat.pos_of_ne_zero (by rintro rfl; omega)
      have hrows : (3 * 2 ^ i + 2 ^ j - 1) / 2 ^ j = 3 * t := by
        rw [ht, show 3 * (2 ^ j * t) = 2 ^ j * (3 * t) by rw [Nat.mul_left_comm],
          Nat.add_sub_assoc hn, Nat.mul_add_div hn, Nat.div_eq_of_lt (by omega), Nat.add_zero]
      have hshort : 2 ^ j * 512 / 24 * 3 < 64 * 2 ^ j := by omega
      have hlt : 2 ^ j * 512 / 24 * (3 * t) < 64 * 2 ^ i := by
        rw [ht, ← Nat.mul_assoc, ← Nat.mul_assoc]
        exact Nat.mul_lt_mul_of_pos_right hshort htpos
      have hge : 2 ^ j ≤ 2 ^ i := Nat.pow_le_pow_right (by decide) hij
      rw [hrows]
      omega

/-! ## The condition -/

/-- When the reserved rows hold the counters, for powers of two as numbers of rows and
columns. -/
def CountersFit (numRows numColumns trackingThreshold : Nat) : Prop :=
  8 ≤ numColumns ∧ numColumns < 2 ^ 25 ∧
    if trackingThreshold ≤ 2 ^ 8 then 64 ≤ numRows ∧ numRows < 2 ^ 28
    else if trackingThreshold ≤ 2 ^ 16 then 32 ≤ numRows ∧ numRows < 2 ^ 27
    else if trackingThreshold ≤ 2 ^ 24 then
      32 ≤ numRows ∧ numRows < 2 ^ 27 ∧ numRows < 8 * numColumns ∧ 16 ≤ numColumns
    else 16 ≤ numRows ∧ numRows < 2 ^ 26

theorem rctLayout_fits_iff {numRows n t : Nat} (ht : 2 ≤ t) (hint : t < 2 ^ 31)
    (hrows : 0 < numRows) :
    (∃ layout, rctLayout numRows (8 * n) t = some layout ∧ layout.Fits numRows (8 * n)) ↔
      0 < n ∧ n * 512 < 2 ^ 31 ∧ numRows * counterBits t < 2 ^ 31 ∧
        numRows ≤ n * 512 / counterBits t * ((numRows * counterBits t / 512 + n - 1) / n) := by
  have hbits : 8 ≤ counterBits t ∧ counterBits t ≤ 32 := by
    rw [counterBits_eq ht hint]
    split
    · omega
    · split
      · omega
      · split <;> omega
  have hcls : 8 * n / 8 = n := Nat.mul_div_cancel_left n (by decide)
  unfold rctLayout
  dsimp only
  rw [hcls]
  by_cases hdefined : 0 < n ∧ n * 512 < 2 ^ 31 ∧ numRows * counterBits t < 2 ^ 31
  · obtain ⟨hn, hcols, hover⟩ := hdefined
    have hper : 0 < n * 512 / counterBits t := Nat.div_pos (by omega) (by omega)
    rw [if_neg (by omega)]
    have hfits : ∀ layout : RctLayout, layout.rctPerRow = n * 512 / counterBits t →
        layout.counterBits = counterBits t →
        (layout.Fits numRows (8 * n) ↔
          ∀ rowId < numRows, rowId / layout.rctPerRow < layout.totalRctRowSize) := by
      intro layout hlayout hwidth
      refine forall₂_congr fun rowId hrow => ?_
      rw [layout.generateRowColId_natCast, hlayout, hwidth]
      have hcol := column_lt rowId (by omega : 0 < counterBits t) hper
      constructor
      · intro h
        exact Int.ofNat_lt.mp h.1
      · intro h
        exact ⟨Int.ofNat_lt.mpr h, Int.natCast_nonneg _, Int.ofNat_lt.mpr (by omega)⟩
    constructor
    · rintro ⟨layout, hlayout, h⟩
      obtain rfl := Option.some.inj hlayout
      exact ⟨hn, hcols, hover, (rows_lt_iff hper hrows).mp ((hfits _ rfl rfl).mp h)⟩
    · rintro ⟨-, -, -, h⟩
      exact ⟨_, rfl, (hfits _ rfl rfl).mpr ((rows_lt_iff hper hrows).mpr h)⟩
  · rw [if_pos (by omega)]
    refine iff_of_false ?_ fun h => hdefined ⟨h.1, h.2.1, h.2.2.1⟩
    rintro ⟨layout, hlayout, -⟩
    cases hlayout

/-- For every threshold and all powers of two as numbers of rows and columns, each slot lies in
a reserved row and in a column of the bank exactly when the condition holds. -/
theorem hydra_counters_reserved_iff (r k : Nat) {t : Nat} (ht : 2 ≤ t) (hint : t < 2 ^ 31) :
    (∃ layout, rctLayout (2 ^ r) (2 ^ k) t = some layout ∧ layout.Fits (2 ^ r) (2 ^ k)) ↔
      CountersFit (2 ^ r) (2 ^ k) t := by
  have hrows : 0 < 2 ^ r := Nat.two_pow_pos r
  rcases Nat.lt_or_ge k 3 with hk | hk
  · have hsmall : 2 ^ k ≤ 2 ^ 2 := Nat.pow_le_pow_right (by decide) (by omega)
    refine iff_of_false ?_ fun h => by have := h.1; omega
    rintro ⟨layout, hlayout, -⟩
    unfold rctLayout at hlayout
    dsimp only at hlayout
    rw [if_pos (by omega)] at hlayout
    cases hlayout
  · obtain ⟨j, rfl⟩ : ∃ j, k = j + 3 := ⟨k - 3, by omega⟩
    have hcols : 2 ^ (j + 3) = 8 * 2 ^ j := by rw [Nat.pow_add, Nat.mul_comm]
    have hn : 0 < 2 ^ j := Nat.two_pow_pos j
    have hdvd : ∀ i, 2 ^ i ∣ 2 ^ r ∨ 2 ^ r < 2 ^ i := fun i =>
      (Nat.lt_or_ge r i).symm.imp (Nat.pow_dvd_pow 2) (Nat.pow_lt_pow_right (by decide))
    rw [hcols, rctLayout_fits_iff ht hint hrows, counterBits_eq ht hint, CountersFit]
    split
    · rw [suffices_of_dvd (m := 64) rfl hn hrows (hdvd 6)]
      omega
    · split
      · rw [suffices_of_dvd (m := 32) rfl hn hrows (hdvd 5)]
        omega
      · split
        · have hover : 2 ^ r < 2 ^ 27 → 2 ^ r ≤ 2 ^ 26 := fun h =>
            Nat.pow_le_pow_right (by decide)
              (Nat.le_of_lt_succ ((Nat.pow_lt_pow_iff_right (by decide)).mp h))
          rw [suffices_three_bytes]
          omega
        · rw [suffices_of_dvd (m := 16) rfl hn hrows (hdvd 4)]
          omega

/-- `DDR4_8Gb_x8` with two bytes for each counter. -/
theorem hydra_counters_reserved_ddr4 :
    ∃ layout, rctLayout (2 ^ 16) (2 ^ 10) 1000 = some layout ∧ layout.Fits (2 ^ 16) (2 ^ 10) :=
  (hydra_counters_reserved_iff 16 10 (by decide) (by decide)).mpr (by
    unfold CountersFit
    decide)

/-- `DDR4_8Gb_x8` with three bytes for each counter: 24 rows are reserved, and the slot of the
last row is in row 24. -/
theorem hydra_counter_outside :
    ∃ layout, rctLayout (2 ^ 16) (2 ^ 10) (2 ^ 17) = some layout ∧
      layout.generateRowColId 65535 = (24, 0) ∧ layout.totalRctRowSize = 24 ∧
        ¬ layout.Fits (2 ^ 16) (2 ^ 10) := by
  refine ⟨⟨128, 24, 3072, 24, 2730, 21⟩, by decide +kernel, by decide +kernel, rfl, fun h => ?_⟩
  exact absurd (h 65535 (by decide)).1 (by decide +kernel)

end AimSimulator.Plugin
