/-!
# Counting over list edits

How removing, replacing or splitting the elements of a list changes the number of
elements with a property.
-/

namespace Counting

universe u

variable {α : Type u} {p : α → Bool} {l : List α} {i : Nat} {a : α}

theorem countP_eraseIdx (p : α → Bool) (h : l[i]? = some a) :
    (l.eraseIdx i).countP p + [a].countP p = l.countP p := by
  induction l generalizing i with
  | nil => simp at h
  | cons b bs ih =>
      cases i with
      | zero =>
          obtain rfl : b = a := by simpa using h
          rw [List.eraseIdx_cons_zero, Nat.add_comm, ← List.countP_append]
          rfl
      | succ i =>
          have hrest := ih (i := i) (by simpa using h)
          simp only [List.eraseIdx_cons_succ, List.countP_cons] at hrest ⊢
          omega

theorem countP_set {b : α} (h : l[i]? = some a) (hp : p b = p a) :
    (l.set i b).countP p = l.countP p := by
  induction l generalizing i with
  | nil => rfl
  | cons c cs ih =>
      cases i with
      | zero =>
          obtain rfl : c = a := by simpa using h
          rw [List.set_cons_zero, List.countP_cons, List.countP_cons, hp]
      | succ i =>
          rw [List.set_cons_succ, List.countP_cons, List.countP_cons,
            ih (by simpa using h)]

theorem countP_filter_split (p f g : α → Bool) (l : List α) (h : ∀ a ∈ l, g a = !f a) :
    (l.filter f).countP p + (l.filter g).countP p = l.countP p := by
  have hg : l.filter g = l.filter fun a => !f a := List.filter_congr h
  rw [hg, List.countP_eq_countP_filter_add l p f]

theorem countP_flatMap_update (p : α → Bool) {f g : Nat → List α} {n j : Nat} (hj : j < n)
    (hsame : ∀ i, i ≠ j → g i = f i) :
    ((List.range n).flatMap g).countP p + (f j).countP p =
      ((List.range n).flatMap f).countP p + (g j).countP p := by
  induction n with
  | zero => omega
  | succ n ih =>
      simp only [List.range_succ, List.flatMap_append, List.countP_append,
        List.flatMap_singleton]
      by_cases hn : j = n
      · have hrest : (List.range n).flatMap g = (List.range n).flatMap f := by
          refine congrArg List.flatten (List.map_congr_left fun i hi => hsame i ?_)
          have := List.mem_range.mp hi
          omega
        rw [hrest, hn]
        omega
      · have hrest := ih (by omega)
        rw [hsame n fun h => hn h.symm]
        omega

theorem mem_of_mem_eraseIdx (h : a ∈ l.eraseIdx i) : a ∈ l :=
  (List.eraseIdx_sublist l i).subset h

/-- Where `k` steps down a descending list lead at least `width` down, no window of that width
holds more than `k` elements. -/
theorem countP_window_le {f : α → Int} {k : Nat} {width : Int}
    (hdesc : l.Pairwise fun a b => f b ≤ f a)
    (hgap : ∀ i a b, l[i]? = some a → l[i + k]? = some b → f b + width ≤ f a) (t : Int) :
    l.countP (fun a => t ≤ f a ∧ f a < t + width) ≤ k := by
  induction l with
  | nil => exact Nat.zero_le k
  | cons a as ih =>
      by_cases ha : t ≤ f a ∧ f a < t + width
      · -- everything from position `k` on lies below the window that `a` is in
        have hbelow : ((a :: as).drop k).countP (fun a => t ≤ f a ∧ f a < t + width) = 0 := by
          rw [List.countP_eq_zero]
          intro b hb hin
          rw [decide_eq_true_eq] at hin
          obtain ⟨j, hj⟩ := List.mem_iff_getElem?.mp hb
          rw [List.getElem?_drop] at hj
          obtain ⟨hlt, -⟩ := List.getElem?_eq_some_iff.mp hj
          have hk : k < (a :: as).length := by omega
          have hstep := hgap 0 a _ rfl
            (by rw [Nat.zero_add]; exact List.getElem?_eq_getElem hk)
          have hle : f b ≤ f (a :: as)[k] := by
            obtain ⟨_, rfl⟩ := List.getElem?_eq_some_iff.mp hj
            rcases Nat.eq_zero_or_pos j with rfl | hj0
            · exact Int.le_refl _
            · exact List.pairwise_iff_getElem.mp hdesc k (k + j) hk hlt (by omega)
          omega
        calc (a :: as).countP (fun a => t ≤ f a ∧ f a < t + width)
            = ((a :: as).take k ++ (a :: as).drop k).countP
                (fun a => t ≤ f a ∧ f a < t + width) := by rw [List.take_append_drop]
          _ = ((a :: as).take k).countP (fun a => t ≤ f a ∧ f a < t + width) := by
              rw [List.countP_append, hbelow, Nat.add_zero]
          _ ≤ ((a :: as).take k).length := List.countP_le_length
          _ ≤ k := List.length_take_le ..
      · rw [List.countP_cons_of_neg (by rwa [decide_eq_true_eq])]
        refine ih (List.pairwise_cons.mp hdesc).2 fun i b c hb hc => ?_
        refine hgap (i + 1) b c hb ?_
        rw [Nat.add_right_comm]
        exact hc

end Counting
