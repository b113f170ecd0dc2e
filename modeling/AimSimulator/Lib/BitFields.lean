import Mathlib.Data.Int.Bitwise
import Mathlib.Data.List.Forall2
import Mathlib.Data.Set.Function
/-!
# Numbers as bit fields

A number cut into fields of given widths, lowest field first, and put together again; masks
of the lower bits of an integer.
-/

namespace BitFields

def slices : List Nat → Nat → List Nat
  | [], _ => []
  | w :: ws, a => a % 2 ^ w :: slices ws (a / 2 ^ w)

def join : List Nat → List Nat → Nat
  | w :: ws, d :: ds => d + 2 ^ w * join ws ds
  | _, _ => 0

def Fits (ws ds : List Nat) : Prop := List.Forall₂ (fun w d => d < 2 ^ w) ws ds

theorem slices_fits (ws : List Nat) (a : Nat) : Fits ws (slices ws a) := by
  induction ws generalizing a with
  | nil => exact .nil
  | cons w ws ih => exact .cons (Nat.mod_lt _ (Nat.two_pow_pos w)) (ih _)

theorem join_slices (ws : List Nat) (a : Nat) : join ws (slices ws a) = a % 2 ^ ws.sum := by
  induction ws generalizing a with
  | nil => exact (Nat.mod_one a).symm
  | cons w ws ih => rw [slices, join, ih, List.sum_cons, Nat.pow_add, Nat.mod_mul]

theorem slices_join {ws ds : List Nat} (h : Fits ws ds) : slices ws (join ws ds) = ds := by
  induction h with
  | nil => rfl
  | @cons w d ws ds hd _ ih =>
      have hmod : (d + 2 ^ w * join ws ds) % 2 ^ w = d := by
        rw [Nat.add_mul_mod_self_left, Nat.mod_eq_of_lt hd]
      have hdiv : (d + 2 ^ w * join ws ds) / 2 ^ w = join ws ds := by
        rw [Nat.add_mul_div_left _ _ (Nat.two_pow_pos w), Nat.div_eq_of_lt hd, Nat.zero_add]
      rw [join, slices, hmod, hdiv, ih]

theorem join_lt {ws ds : List Nat} (h : Fits ws ds) : join ws ds < 2 ^ ws.sum := by
  rw [← slices_join h, join_slices]
  exact Nat.mod_lt _ (Nat.two_pow_pos _)

theorem eq_of_slices_eq {ws : List Nat} {a b : Nat} (ha : a < 2 ^ ws.sum) (hb : b < 2 ^ ws.sum)
    (h : slices ws a = slices ws b) : a = b := by
  rw [← Nat.mod_eq_of_lt ha, ← Nat.mod_eq_of_lt hb, ← join_slices, ← join_slices, h]

theorem slices_bijOn (ws : List Nat) :
    Set.BijOn (slices ws) {a | a < 2 ^ ws.sum} {ds | Fits ws ds} := by
  refine ⟨fun a _ => slices_fits ws a, fun a ha b hb h => eq_of_slices_eq ha hb h, ?_⟩
  intro ds hds
  exact ⟨join ws ds, join_lt hds, slices_join hds⟩

theorem slices_append (ws ws' : List Nat) (a : Nat) :
    slices (ws ++ ws') a = slices ws a ++ slices ws' (a / 2 ^ ws.sum) := by
  induction ws generalizing a with
  | nil => simp [slices]
  | cons w ws ih =>
      rw [List.cons_append, slices, ih, List.sum_cons, Nat.pow_add, ← Nat.div_div_eq_div_mul]
      rfl

/-! ## Masks -/

theorem ldiff_mask (n m : Nat) : Nat.ldiff (2 ^ n - 1) m = 2 ^ n - (m % 2 ^ n + 1) := by
  refine Nat.eq_of_testBit_eq fun i => ?_
  rw [Nat.testBit_ldiff, Nat.testBit_two_pow_sub_one,
    Nat.testBit_two_pow_sub_succ (Nat.mod_lt _ (Nat.two_pow_pos n)), Nat.testBit_mod_two_pow]
  by_cases hi : i < n
  · simp [hi]
  · simp [hi]

theorem land_mask (a : Int) (n : Nat) : Int.land a ((2 ^ n - 1 : Nat) : Int) = a % 2 ^ n := by
  have hpos := Nat.two_pow_pos n
  cases a with
  | ofNat m =>
      change ((m &&& (2 ^ n - 1) : Nat) : Int) = _
      rw [Nat.and_two_pow_sub_one_eq_mod]
      push_cast
      rfl
  | negSucc m =>
      change ((Nat.ldiff (2 ^ n - 1) m : Nat) : Int) = _
      rw [ldiff_mask, Int.negSucc_emod m (by exact_mod_cast hpos)]
      have hlt := Nat.mod_lt m hpos
      push_cast [Nat.cast_sub (show m % 2 ^ n + 1 ≤ 2 ^ n from hlt)]
      omega

theorem ldiff_of_mask (n m : Nat) : Nat.ldiff m (2 ^ n - 1) = 2 ^ n * (m / 2 ^ n) := by
  refine Nat.eq_of_testBit_eq fun i => ?_
  rw [Nat.testBit_ldiff, Nat.testBit_two_pow_sub_one, Nat.testBit_two_pow_mul,
    Nat.testBit_div_two_pow]
  by_cases hi : i < n
  · simp [hi]
  · have hle : n ≤ i := by omega
    rw [Nat.sub_add_cancel hle]
    simp [hi, hle]

theorem lor_mask (n m : Nat) : m ||| (2 ^ n - 1) = 2 ^ n * (m / 2 ^ n) + (2 ^ n - 1) := by
  have hpos := Nat.two_pow_pos n
  rw [Nat.two_pow_add_eq_or_of_lt (by omega)]
  refine Nat.eq_of_testBit_eq fun i => ?_
  rw [Nat.testBit_or, Nat.testBit_or, Nat.testBit_two_pow_sub_one, Nat.testBit_two_pow_mul,
    Nat.testBit_div_two_pow]
  by_cases hi : i < n
  · simp [hi]
  · have hle : n ≤ i := by omega
    rw [Nat.sub_add_cancel hle]
    simp [hi, hle]

theorem land_lnot_mask (a : Int) (n : Nat) :
    Int.land a (Int.lnot ((2 ^ n - 1 : Nat) : Int)) = 2 ^ n * (a / 2 ^ n) := by
  have hpos := Nat.two_pow_pos n
  cases a with
  | ofNat m =>
      change ((Nat.ldiff m (2 ^ n - 1) : Nat) : Int) = _
      rw [ldiff_of_mask]
      push_cast
      rfl
  | negSucc m =>
      change Int.negSucc (m ||| (2 ^ n - 1)) = _
      rw [lor_mask, Int.negSucc_ediv m (by exact_mod_cast hpos), Int.negSucc_eq]
      push_cast [Nat.cast_sub (show 1 ≤ 2 ^ n from hpos)]
      rw [Int.mul_neg, Int.mul_add]
      change _ = -((2:Int) ^ n * ((m : Int) / 2 ^ n) + _)
      omega

theorem exists_clear_bit {n : Nat} (hn : n ≠ 0) (hpow : ∀ k, n ≠ 2 ^ k) :
    ∃ j < n.log2, (n - 1).testBit j = false := by
  have hle : 2 ^ n.log2 ≤ n - 1 := by
    have hself := Nat.log2_self_le hn
    have hne := hpow n.log2
    omega
  have hlt : n < 2 ^ (n.log2 + 1) := Nat.lt_log2_self
  refine Classical.byContradiction fun hall => ?_
  have hbits : ∀ j < n.log2, (n - 1).testBit j = true := fun j hj =>
    Bool.of_not_eq_false fun hclear => hall ⟨j, hj, hclear⟩
  have hfull : n - 1 = 2 ^ (n.log2 + 1) - 1 := by
    refine Nat.eq_of_testBit_eq fun i => ?_
    rw [Nat.testBit_two_pow_sub_one]
    rcases Nat.lt_trichotomy i n.log2 with hi | rfl | hi
    · rw [hbits i hi, decide_eq_true (by omega)]
    · have hone : (n - 1) / 2 ^ n.log2 = 1 :=
        Nat.div_eq_of_lt_le (by omega) (by rw [Nat.pow_succ] at hlt; omega)
      rw [Nat.testBit_eq_decide_div_mod_eq, hone]
      exact (decide_eq_true (Nat.lt_succ_self _)).symm
    · have hsmall : n - 1 < 2 ^ i :=
        Nat.lt_of_lt_of_le (by omega) (Nat.pow_le_pow_right (by decide) hi)
      rw [Nat.testBit_lt_two_pow hsmall, decide_eq_false (by omega)]
  exact hpow (n.log2 + 1) (by omega)

end BitFields
