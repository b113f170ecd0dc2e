/-!
# A list over and over again

The first entries of the sequence that repeats a list without end.
-/

namespace Cyclic

universe u

variable {α : Type u} {xs : List α}

/-- The first `n` entries of `xs ++ xs ++ …`. -/
def cycle (xs : List α) (n : Nat) : List α :=
  (List.range n).filterMap fun i => xs[i % xs.length]?

@[simp] theorem cycle_zero : cycle xs 0 = [] := rfl

theorem cycle_succ (n : Nat) : cycle xs (n + 1) = cycle xs n ++ (xs[n % xs.length]?).toList := by
  rw [cycle, List.range_succ, List.filterMap_append, cycle, List.filterMap_cons]
  cases xs[n % xs.length]? <;> rfl

theorem cycle_succ_of_getElem? {n : Nat} {x : α} (h : xs[n % xs.length]? = some x) :
    cycle xs (n + 1) = cycle xs n ++ [x] := by
  rw [cycle_succ, h, Option.toList_some]

theorem exists_getElem? (h : xs ≠ []) (n : Nat) : ∃ x, xs[n % xs.length]? = some x :=
  ⟨_, List.getElem?_eq_getElem (Nat.mod_lt n (List.length_pos_iff.mpr h))⟩

end Cyclic
