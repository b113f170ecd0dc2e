import Mathlib.Data.Set.Function
import Mathlib.Logic.Equiv.Basic
/-!
# Tables of disjoint pairs

A table that maps each member of a pair to the other is the permutation that swaps the
members of every pair.  Linking two free elements, and unlinking a pair, compose this
permutation with one swap.
-/

namespace Pairing

variable {α : Type*} [DecidableEq α]

def Paired (t : α → Option α) : Prop := ∀ a b, t a = some b → a ≠ b ∧ t b = some a

/-- Where the table sends an element; elements outside stay. -/
def apply (t : α → Option α) (x : α) : α := (t x).getD x

def link (t : α → Option α) (a b : α) : α → Option α :=
  fun x => if x = b then some a else if x = a then some b else t x

def unlink (t : α → Option α) (a b : α) : α → Option α :=
  fun x => if x = b ∨ x = a then none else t x

namespace Paired

variable {t : α → Option α} {a b : α}

omit [DecidableEq α] in
theorem ne (h : Paired t) (hab : t a = some b) : a ≠ b := (h a b hab).1

omit [DecidableEq α] in
theorem symm (h : Paired t) (hab : t a = some b) : t b = some a := (h a b hab).2

omit [DecidableEq α] in
theorem eq_of_partner (h : Paired t) {c x : α} (ha : t a = some x) (hc : t c = some x) : a = c :=
  Option.some.inj ((h.symm ha).symm.trans (h.symm hc))

omit [DecidableEq α] in
theorem apply_apply (h : Paired t) (x : α) : apply t (apply t x) = x := by
  unfold apply
  cases hx : t x with
  | none => rw [Option.getD_none, hx, Option.getD_none]
  | some y => rw [Option.getD_some, h.symm hx, Option.getD_some]

omit [DecidableEq α] in
theorem bijOn_iff (h : Paired t) {S : Set α} :
    Set.BijOn (apply t) S S ↔ ∀ a ∈ S, ∀ b, t a = some b → b ∈ S := by
  constructor
  · intro hbij a ha b hab
    have hmem := hbij.mapsTo ha
    rwa [apply, hab] at hmem
  · intro hmem
    have hmaps : Set.MapsTo (apply t) S S := by
      intro a ha
      unfold apply
      cases hab : t a with
      | none => exact ha
      | some b => exact hmem a ha b hab
    exact Set.InvOn.bijOn ⟨fun x _ => h.apply_apply x, fun x _ => h.apply_apply x⟩ hmaps hmaps

theorem link (h : Paired t) (ha : t a = none) (hb : t b = none) (hab : a ≠ b) :
    Paired (link t a b) := by
  intro x y hxy
  unfold Pairing.link at hxy ⊢
  split at hxy
  · next hx =>
      obtain rfl := Option.some.inj hxy
      rw [hx, if_neg hab, if_pos rfl]
      exact ⟨hab.symm, rfl⟩
  · next hxb =>
      split at hxy
      · next hx =>
          obtain rfl := Option.some.inj hxy
          rw [hx, if_pos rfl]
          exact ⟨hab, rfl⟩
      · have hy := h.symm hxy
        have hyb : y ≠ b := by rintro rfl; rw [hb] at hy; cases hy
        have hya : y ≠ a := by rintro rfl; rw [ha] at hy; cases hy
        rw [if_neg hyb, if_neg hya]
        exact ⟨h.ne hxy, hy⟩

theorem unlink (h : Paired t) (hab : t a = some b) : Paired (unlink t a b) := by
  intro x y hxy
  unfold Pairing.unlink at hxy ⊢
  split at hxy
  · cases hxy
  · next hx =>
      rw [not_or] at hx
      have hy := h.symm hxy
      have hyb : y ≠ b := by rintro rfl; exact hx.2 (h.eq_of_partner hxy hab)
      have hya : y ≠ a := by rintro rfl; exact hx.1 (h.eq_of_partner hxy (h.symm hab))
      rw [if_neg (not_or.mpr ⟨hyb, hya⟩)]
      exact ⟨h.ne hxy, hy⟩

theorem apply_link (h : Paired t) (ha : t a = none) (hb : t b = none) (x : α) :
    apply (Pairing.link t a b) x = Equiv.swap a b (apply t x) := by
  unfold apply Pairing.link
  by_cases hxb : x = b
  · rw [if_pos hxb, hxb, hb]
    exact (Equiv.swap_apply_right a b).symm
  · rw [if_neg hxb]
    by_cases hxa : x = a
    · rw [if_pos hxa, hxa, ha]
      exact (Equiv.swap_apply_left a b).symm
    · rw [if_neg hxa]
      cases hx : t x with
      | none => exact (Equiv.swap_apply_of_ne_of_ne hxa hxb).symm
      | some y =>
          have hy := h.symm hx
          have hyb : y ≠ b := by rintro rfl; rw [hb] at hy; cases hy
          have hya : y ≠ a := by rintro rfl; rw [ha] at hy; cases hy
          exact (Equiv.swap_apply_of_ne_of_ne hya hyb).symm

theorem apply_unlink (h : Paired t) (hab : t a = some b) (x : α) :
    apply (Pairing.unlink t a b) x = Equiv.swap a b (apply t x) := by
  unfold apply Pairing.unlink
  by_cases hxb : x = b
  · rw [if_pos (.inl hxb), hxb, h.symm hab]
    exact (Equiv.swap_apply_left a b).symm
  · by_cases hxa : x = a
    · rw [if_pos (.inr hxa), hxa, hab]
      exact (Equiv.swap_apply_right a b).symm
    · rw [if_neg (not_or.mpr ⟨hxb, hxa⟩)]
      cases hx : t x with
      | none => exact (Equiv.swap_apply_of_ne_of_ne hxa hxb).symm
      | some y =>
          have hyb : y ≠ b := by rintro rfl; exact hxa (h.eq_of_partner hx hab)
          have hya : y ≠ a := by rintro rfl; exact hxb (h.eq_of_partner hx (h.symm hab))
          exact (Equiv.swap_apply_of_ne_of_ne hya hyb).symm

end Paired

end Pairing
