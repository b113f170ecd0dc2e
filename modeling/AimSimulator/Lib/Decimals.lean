import AimSimulator.Lib.Numerals
/-!
# Numbers that are printed

The decimal text of an integer, which `stoll` and `stoi` of the C++ standard library read back.
-/

namespace Numerals

def stoi (s : List Char) : Except Fault Int :=
  match stoll 10 s with
  | .error fault => .error fault
  | .ok v => if -2 ^ 31 ≤ v ∧ v < 2 ^ 31 then .ok v else .error .outOfRange

def decimalText (v : Int) : List Char :=
  if v < 0 then '-' :: Nat.toDigits 10 v.natAbs else Nat.toDigits 10 v.natAbs

theorem digit_of_isDigit {c : Char} (h : c.isDigit = true) :
    digit c = some (c.toNat - '0'.toNat) := by
  have hrange : '0' ≤ c ∧ c ≤ '9' := by
    simpa [Char.isDigit, Char.le_def] using h
  rw [digit, if_pos hrange]

/-! ## Digits -/

theorem isDigit_toDigits {n : Nat} {c : Char} (hc : c ∈ Nat.toDigits 10 n) :
    isDigit 10 c = true := by
  have h := Nat.isDigit_of_mem_toDigits (by decide) (by decide) hc
  have hnine : c.toNat ≤ '9'.toNat := by
    have hrange := h
    simp only [Char.isDigit, Bool.and_eq_true, decide_eq_true_eq] at hrange
    exact hrange.2
  have hten : c.toNat - '0'.toNat < 10 := by
    have hzero : '0'.toNat = 48 := rfl
    have hlast : '9'.toNat = 57 := rfl
    omega
  rw [isDigit, digit_of_isDigit h]
  exact decide_eq_true hten

theorem value_eq_ofDigitChars {s : List Char} (h : ∀ c ∈ s, c.isDigit = true) (acc : Nat) :
    s.foldl (fun acc c => acc * 10 + (digit c).getD 0) acc = Nat.ofDigitChars 10 s acc := by
  induction s generalizing acc with
  | nil => rfl
  | cons c s ih =>
      rw [List.foldl_cons, Nat.ofDigitChars_cons, digit_of_isDigit (h c List.mem_cons_self),
        Nat.mul_comm acc 10]
      exact ih (fun c hc => h c (List.mem_cons_of_mem _ hc)) _

theorem value_toDigits (n : Nat) : value 10 (Nat.toDigits 10 n) = n := by
  have hdigits : ∀ c ∈ Nat.toDigits 10 n, c.isDigit = true :=
    fun c hc => Nat.isDigit_of_mem_toDigits (by decide) (by decide) hc
  rw [value, value_eq_ofDigitChars hdigits]
  exact Nat.ofDigitChars_ten_toDigits

/-! ## Texts -/

theorem decimalText_ne_nil (v : Int) : decimalText v ≠ [] := by
  unfold decimalText
  split
  · exact List.cons_ne_nil _ _
  · exact Nat.toDigits_ne_nil

theorem isSpace_decimalText {v : Int} {c : Char} (hc : c ∈ decimalText v) : isSpace c = false := by
  unfold decimalText at hc
  split at hc
  · rcases List.mem_cons.mp hc with rfl | hc
    · rfl
    · exact (isDigit_ne (isDigit_toDigits hc)).1
  · exact (isDigit_ne (isDigit_toDigits hc)).1

theorem sign_decimalText (v : Int) :
    sign (decimalText v) = (if v < 0 then -1 else 1, Nat.toDigits 10 v.natAbs) := by
  unfold decimalText
  split
  · rfl
  · obtain ⟨c, s, hs⟩ := List.exists_cons_of_ne_nil (Nat.toDigits_ne_nil (n := v.natAbs) (b := 10))
    rw [hs, sign_digits (isDigit_toDigits (n := v.natAbs) (hs ▸ List.mem_cons_self))]

theorem stoll_decimalText {v : Int} (h : -2 ^ 63 ≤ v ∧ v < 2 ^ 63) :
    stoll 10 (decimalText v) = .ok v := by
  have hspace : (decimalText v).dropWhile isSpace = decimalText v := by
    obtain ⟨c, s, hs⟩ := List.exists_cons_of_ne_nil (decimalText_ne_nil v)
    have hc : isSpace c = false := isSpace_decimalText (v := v) (hs ▸ List.mem_cons_self)
    rw [hs, List.dropWhile_cons, hc, if_neg Bool.false_ne_true]
  have hdigits : ∀ c ∈ Nat.toDigits 10 v.natAbs, isDigit 10 c = true :=
    fun c hc => isDigit_toDigits hc
  have hvalue : (if v < 0 then -1 else 1) * ((v.natAbs : Nat) : Int) = v := by
    split <;> omega
  unfold stoll
  rw [hspace, sign_decimalText]
  dsimp only
  rw [dropPrefix_digits (List.all_eq_true.mpr hdigits), List.takeWhile_eq_self_iff.mpr hdigits,
    if_neg Nat.toDigits_ne_nil, value_toDigits, hvalue, if_pos h]

theorem stoi_decimalText {v : Int} (h : -2 ^ 31 ≤ v ∧ v < 2 ^ 31) :
    stoi (decimalText v) = .ok v := by
  have hlong : -2 ^ 63 ≤ v ∧ v < 2 ^ 63 := by omega
  rw [stoi, stoll_decimalText hlong]
  exact if_pos h

theorem stoll_range {base : Nat} {s : List Char} {v : Int} (h : stoll base s = .ok v) :
    -2 ^ 63 ≤ v ∧ v < 2 ^ 63 := by
  unfold stoll at h
  dsimp only at h
  split at h
  · cases h
  · split at h
    · next hrange => exact Except.ok.inj h ▸ hrange
    · cases h

theorem stoi_range {s : List Char} {v : Int} (h : stoi s = .ok v) : -2 ^ 31 ≤ v ∧ v < 2 ^ 31 := by
  unfold stoi at h
  split at h
  · cases h
  · split at h
    · next hrange => exact Except.ok.inj h ▸ hrange
    · cases h

end Numerals
