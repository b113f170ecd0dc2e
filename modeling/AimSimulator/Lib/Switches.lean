/-!
# Sequences with a switch

A sequence of items that each need a mode, some of which switch the mode.  An item
switches exactly when the mode before it is not the one it needs, and leaves the mode it
needs behind.  The parity of the switches then tells whether the mode changed.
-/

namespace Switches

/-- Whether the items lead from the mode `m` to the mode `m'`.  An item is the mode it needs
with whether it switches. -/
def Trace (m : Bool) : List (Bool × Bool) → Bool → Prop
  | [], m' => m' = m
  | (needs, switches) :: items, m' =>
      (switches = true ↔ needs ≠ m) ∧ Trace needs items m'

def switches (items : List (Bool × Bool)) : Nat := items.countP (·.2)

theorem trace_append {m m' : Bool} {items items' : List (Bool × Bool)} :
    Trace m (items ++ items') m' ↔ ∃ k, Trace m items k ∧ Trace k items' m' := by
  induction items generalizing m with
  | nil =>
      constructor
      · exact fun h => ⟨m, rfl, h⟩
      · rintro ⟨k, rfl, h⟩
        exact h
  | cons item items ih =>
      constructor
      · rintro ⟨hitem, h⟩
        obtain ⟨k, hleft, hright⟩ := ih.mp h
        exact ⟨k, ⟨hitem, hleft⟩, hright⟩
      · rintro ⟨k, ⟨hitem, hleft⟩, hright⟩
        exact ⟨hitem, ih.mpr ⟨k, hleft, hright⟩⟩

theorem Trace.odd_iff {m m' : Bool} {items : List (Bool × Bool)} (h : Trace m items m') :
    switches items % 2 = 1 ↔ m' ≠ m := by
  induction items generalizing m with
  | nil =>
      obtain rfl : m' = m := h
      simp [switches]
  | cons item items ih =>
      obtain ⟨hitem, h⟩ := h
      have hrest := ih h
      have hcount : switches (item :: items) = switches items + if item.2 then 1 else 0 :=
        List.countP_cons
      by_cases hneeds : item.1 = m
      · have hplain : ¬ item.2 = true := fun hs => hitem.mp hs hneeds
        rw [hcount, if_neg hplain, Nat.add_zero, hrest, hneeds]
      · rw [hcount, if_pos (hitem.mpr hneeds)]
        have hflip : m' ≠ item.1 ↔ ¬ m' ≠ m := by
          cases hi : item.1 <;> cases m <;> cases m' <;> simp_all
        have hparity : (switches items + 1) % 2 = 1 ↔ ¬ switches items % 2 = 1 := by omega
        rw [hparity, hrest, hflip, Decidable.not_not]

/-- Between two items that do not switch, the number of switches is odd exactly when they need
different modes. -/
theorem Trace.between {m m' needs needs' : Bool} {before between after : List (Bool × Bool)}
    (h : Trace m (before ++ (needs, false) :: (between ++ (needs', false) :: after)) m') :
    switches between % 2 = 1 ↔ needs' ≠ needs := by
  obtain ⟨k, -, -, hrest⟩ := trace_append.mp h
  obtain ⟨k', hbetween, hlast, -⟩ := trace_append.mp hrest
  have hneeds : needs' = k' := Decidable.byContradiction fun hne => nomatch hlast.mpr hne
  rw [hbetween.odd_iff, hneeds]

end Switches
