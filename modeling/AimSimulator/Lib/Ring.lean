import Mathlib.Data.Nat.ModEq
/-!
# The live slots of a circular buffer

A circular buffer of `depth` slots holds `load` entries from the slot `tail` on, and goes on at
slot `0` behind its last slot.
-/

namespace Ring

def live (depth tail load : Nat) : List Nat := (List.range' tail load).map (· % depth)

variable {depth tail load : Nat}

@[simp] theorem live_zero : live depth tail 0 = [] := rfl

theorem live_succ : live depth tail (load + 1) = tail % depth :: live depth (tail + 1) load := by
  rw [live, List.range'_succ, List.map_cons, live]

theorem live_concat :
    live depth tail (load + 1) = live depth tail load ++ [(tail + load) % depth] := by
  rw [live, List.range'_1_concat, List.map_append, live]
  rfl

theorem live_mod_tail : live depth (tail % depth) load = live depth tail load := by
  induction load generalizing tail with
  | zero => rfl
  | succ load ih =>
      have hwrapped : live depth (tail % depth + 1) load = live depth (tail + 1) load := by
        rw [← ih, Nat.mod_add_mod, ih]
      rw [live_succ, live_succ, Nat.mod_mod, hwrapped]

theorem live_succ_wrapped (htail : tail < depth) :
    live depth tail (load + 1) = tail :: live depth ((tail + 1) % depth) load := by
  rw [live_succ, live_mod_tail, Nat.mod_eq_of_lt htail]

theorem lt_of_mem_live (hdepth : 0 < depth) {slot : Nat} (h : slot ∈ live depth tail load) :
    slot < depth := by
  obtain ⟨i, -, rfl⟩ := List.mem_map.mp h
  exact Nat.mod_lt i hdepth

theorem head_not_mem_live (h : load < depth) : (tail + load) % depth ∉ live depth tail load := by
  intro hmem
  obtain ⟨i, hi, hsame⟩ := List.mem_map.mp hmem
  obtain ⟨hle, hlt⟩ := List.mem_range'_1.mp hi
  have hdvd : depth ∣ tail + load - i := (Nat.modEq_iff_dvd' (Nat.le_of_lt hlt)).mp hsame
  have hzero := Nat.eq_zero_of_dvd_of_lt hdvd (by omega)
  omega

theorem wrap_eq_mod (htail : tail < depth) :
    (if tail + 1 = depth then 0 else tail + 1) = (tail + 1) % depth := by
  split
  · next hlast => rw [hlast, Nat.mod_self]
  · next hnext => rw [Nat.mod_eq_of_lt (by omega)]

end Ring
