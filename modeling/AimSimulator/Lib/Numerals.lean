import Mathlib.Data.List.TakeWhile
import Mathlib.Algebra.Group.Int.Defs
/-!
# Numbers in text

`std::stoll` of the C++ standard library, with the numerals that it reads in full: digits with
an optional sign, and the digits of a hexadecimal number.
-/

namespace Numerals

def isSpace (c : Char) : Bool :=
  c = ' ' || c = '\t' || c = '\n' || c = '\r' || c = '\x0b' || c = '\x0c'

def digit (c : Char) : Option Nat :=
  if '0' ≤ c ∧ c ≤ '9' then some (c.toNat - '0'.toNat)
  else if 'a' ≤ c ∧ c ≤ 'f' then some (c.toNat - 'a'.toNat + 10)
  else if 'A' ≤ c ∧ c ≤ 'F' then some (c.toNat - 'A'.toNat + 10)
  else none

def isDigit (base : Nat) (c : Char) : Bool := (digit c).any fun d => d < base

def value (base : Nat) (digits : List Char) : Nat :=
  digits.foldl (fun acc c => acc * base + (digit c).getD 0) 0

def sign : List Char → Int × List Char
  | '-' :: s => (-1, s)
  | '+' :: s => (1, s)
  | s => (1, s)

inductive Fault
  | invalidArgument
  | outOfRange
  deriving DecidableEq, Repr

def dropPrefix (base : Nat) : List Char → List Char
  | '0' :: x :: c :: s =>
      if base = 16 ∧ (x = 'x' ∨ x = 'X') ∧ isDigit 16 c then c :: s else '0' :: x :: c :: s
  | s => s

/-- `stoll`: white space, a sign and the longest run of digits; what follows is not looked
at. -/
def stoll (base : Nat) (s : List Char) : Except Fault Int :=
  let (sgn, s) := sign (s.dropWhile isSpace)
  let digits := (dropPrefix base s).takeWhile (isDigit base)
  if digits = [] then .error .invalidArgument
  else if -2 ^ 63 ≤ sgn * value base digits ∧ sgn * value base digits < 2 ^ 63 then
    .ok (sgn * value base digits)
  else .error .outOfRange

/-! ## Numerals -/

def decimal (s : List Char) : Option Int :=
  let (sgn, digits) := sign s
  if digits ≠ [] ∧ digits.all (isDigit 10) then some (sgn * value 10 digits) else none

def hexadecimal (digits : List Char) : Option Int :=
  if digits ≠ [] ∧ digits.all (isDigit 16) then some (value 16 digits) else none

theorem isDigit_ne {base : Nat} {c : Char} (h : isDigit base c = true) :
    isSpace c = false ∧ c ≠ '-' ∧ c ≠ '+' ∧ c ≠ 'x' ∧ c ≠ 'X' := by
  have hne : ∀ d, digit d = none → c ≠ d := by
    rintro d hd rfl
    rw [isDigit, hd] at h
    cases h
  refine ⟨?_, hne _ rfl, hne _ rfl, hne _ rfl, hne _ rfl⟩
  simp only [isSpace, decide_eq_false (hne ' ' rfl), decide_eq_false (hne '\t' rfl),
    decide_eq_false (hne '\n' rfl), decide_eq_false (hne '\r' rfl),
    decide_eq_false (hne '\x0b' rfl), decide_eq_false (hne '\x0c' rfl), Bool.or_self]

theorem sign_digits {base : Nat} {c : Char} {s : List Char} (h : isDigit base c = true) :
    sign (c :: s) = (1, c :: s) := by
  obtain ⟨-, hminus, hplus, -⟩ := isDigit_ne h
  unfold sign
  split
  · next heq => exact absurd (List.cons.inj heq).1 hminus
  · next heq => exact absurd (List.cons.inj heq).1 hplus
  · rfl

theorem dropPrefix_digits {base : Nat} {s : List Char} (h : s.all (isDigit base) = true) :
    dropPrefix base s = s := by
  unfold dropPrefix
  split
  · next x c rest =>
      rw [List.all_cons, List.all_cons, Bool.and_eq_true, Bool.and_eq_true] at h
      obtain ⟨-, -, -, hx, hX⟩ := isDigit_ne h.2.1
      exact if_neg fun hprefix => hprefix.2.1.elim hx hX
  · rfl

theorem stoll_decimal {s : List Char} {v w : Int} (h : decimal s = some v)
    (hread : stoll 10 s = .ok w) : w = v := by
  unfold decimal at h
  dsimp only at h
  split at h
  · next hdigits =>
      obtain ⟨hne, hall⟩ := hdigits
      have hspace : s.dropWhile isSpace = s := by
        cases s with
        | nil => rfl
        | cons c rest =>
            rw [List.dropWhile_cons, if_neg]
            intro hc
            cases hsign : isDigit 10 c with
            | true =>
                rw [(isDigit_ne hsign).1] at hc
                cases hc
            | false =>
                unfold sign at hall
                split at hall
                · next heq =>
                    rw [(List.cons.inj heq).1] at hc
                    cases hc
                · next heq =>
                    rw [(List.cons.inj heq).1] at hc
                    cases hc
                · rw [List.all_cons, hsign] at hall
                  cases hall
      unfold stoll at hread
      dsimp only at hread
      rw [hspace, dropPrefix_digits hall,
        List.takeWhile_eq_self_iff.mpr (List.all_eq_true.mp hall), if_neg hne] at hread
      split at hread
      · exact (Except.ok.inj hread).symm.trans (Option.some.inj h)
      · cases hread
  · cases h

theorem stoll_hexadecimal {s : List Char} {v w : Int} (h : hexadecimal s = some v)
    (hread : stoll 16 s = .ok w) : w = v := by
  unfold hexadecimal at h
  split at h
  · next hdigits =>
      obtain ⟨hne, hall⟩ := hdigits
      cases s with
      | nil => exact absurd rfl hne
      | cons c rest =>
          have hc : isDigit 16 c = true := by
            rw [List.all_cons, Bool.and_eq_true] at hall
            exact hall.1
          unfold stoll at hread
          rw [List.dropWhile_cons, (isDigit_ne hc).1, if_neg Bool.false_ne_true, sign_digits hc] at hread
          dsimp only at hread
          rw [dropPrefix_digits hall, List.takeWhile_eq_self_iff.mpr (List.all_eq_true.mp hall),
            if_neg hne, Int.one_mul] at hread
          split at hread
          · exact (Except.ok.inj hread).symm.trans (Option.some.inj h)
          · cases hread
  · cases h

end Numerals
