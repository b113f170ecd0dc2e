/-!
# The set bits of a bit vector

The positions of the set bits from the lowest on, as a scan that tests each position and
clears the one it found visits them.
-/

namespace SetBits

variable {w : Nat} {x : BitVec w} {i : Nat}

def setBits (x : BitVec w) : List Nat := (List.range w).filter x.getLsbD

theorem mem_setBits : i ∈ setBits x ↔ x.getLsbD i = true := by
  rw [setBits, List.mem_filter, List.mem_range]
  exact ⟨fun h => h.2, fun h => ⟨BitVec.lt_of_getLsbD h, h⟩⟩

theorem nodup_setBits (x : BitVec w) : (setBits x).Nodup :=
  List.nodup_range.sublist List.filter_sublist

theorem and_shift_bne_zero (x : BitVec w) (h : i < w) :
    (x &&& 1#w <<< i != 0) = x.getLsbD i := by
  rw [← BitVec.twoPow_eq, BitVec.and_twoPow]
  split
  · next hbit =>
      rw [hbit, bne_iff_ne]
      intro hzero
      have htwo := congrArg (fun y : BitVec w => y.getLsbD i) hzero
      simp [h] at htwo
  · next hbit => simp [hbit]

theorem getLsbD_clear (x : BitVec w) (i j : Nat) :
    (x &&& ~~~ (1#w <<< i)).getLsbD j = (x.getLsbD j && decide (j ≠ i)) := by
  rw [← BitVec.twoPow_eq]
  simp only [BitVec.getLsbD_and, BitVec.getLsbD_not, BitVec.getLsbD_twoPow]
  by_cases hj : j < w
  · by_cases hij : i = j
    · simp [hij, hj]
    · simp [hij, hj, Ne.symm hij]
  · simp [BitVec.getLsbD_of_ge x j (Nat.le_of_not_lt hj)]

theorem getLsbD_set (x : BitVec w) {i : Nat} (hi : i < w) (j : Nat) :
    (x ||| 1#w <<< i).getLsbD j = (x.getLsbD j || decide (j = i)) := by
  rw [← BitVec.twoPow_eq, BitVec.getLsbD_or, BitVec.getLsbD_twoPow]
  by_cases hij : i = j
  · subst hij
    simp [hi]
  · simp [hij, Ne.symm hij]

theorem find?_setBit (x : BitVec w) :
    ((List.range w).find? fun i => x &&& 1#w <<< i != 0) = (setBits x).head? := by
  have hfilter : ((List.range w).filter fun i => x &&& 1#w <<< i != 0) = setBits x :=
    List.filter_congr fun i hi => and_shift_bne_zero x (List.mem_range.mp hi)
  rw [← hfilter, List.head?_filter]

theorem setBits_clear {rest : List Nat} (h : setBits x = i :: rest) :
    setBits (x &&& ~~~ (1#w <<< i)) = rest := by
  have hnodup := nodup_setBits x
  rw [h, List.nodup_cons] at hnodup
  have hfilter : setBits (x &&& ~~~ (1#w <<< i)) = (setBits x).filter fun j => j ≠ i := by
    rw [setBits, setBits, List.filter_filter]
    refine List.filter_congr fun j _ => ?_
    rw [getLsbD_clear, Bool.and_comm]
  rw [hfilter, h, List.filter_cons]
  simp only [ne_eq, not_true, decide_false, Bool.false_eq_true, if_false]
  refine List.filter_eq_self.mpr fun j hj => ?_
  have hne : j ≠ i := fun heq => hnodup.1 (heq ▸ hj)
  simp [hne]

end SetBits
