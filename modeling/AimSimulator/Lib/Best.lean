/-!
# Choosing a best element by a left fold

A scheduler that walks a list and keeps the better of two candidates computes
`best`.  For a total preorder the result lies below every element of the list.
-/

namespace Best

universe u

variable {α : Type u}

def better (le : α → α → Bool) (a b : α) : α := if le a b then a else b

/-- Walk the list from the candidate `a`, keeping the better of two elements. -/
def best (le : α → α → Bool) (a : α) (as : List α) : α := as.foldl (better le) a

variable {le : α → α → Bool}

theorem best_mem (a : α) (as : List α) : best le a as ∈ a :: as := by
  induction as generalizing a with
  | nil => exact List.mem_cons_self ..
  | cons b bs ih =>
      rw [best, List.foldl_cons]
      rcases List.mem_cons.mp (ih (better le a b)) with h | h
      · rw [best] at h
        rw [h, better]
        split
        · exact List.mem_cons_self ..
        · exact List.mem_cons_of_mem _ (List.mem_cons_self ..)
      · exact List.mem_cons_of_mem _ (List.mem_cons_of_mem _ h)

theorem best_congr {le' : α → α → Bool} {a : α} {as : List α}
    (h : ∀ x ∈ a :: as, ∀ y ∈ a :: as, le x y = le' x y) : best le a as = best le' a as := by
  induction as generalizing a with
  | nil => rfl
  | cons b bs ih =>
      have hbetter : better le a b = better le' a b := by
        unfold better
        rw [h a List.mem_cons_self b (List.mem_cons_of_mem a List.mem_cons_self)]
      have hmem : ∀ x ∈ better le a b :: bs, x ∈ a :: b :: bs := by
        intro x hx
        rcases List.mem_cons.mp hx with rfl | hx
        · unfold better
          split
          · exact List.mem_cons_self
          · exact List.mem_cons_of_mem a List.mem_cons_self
        · exact List.mem_cons_of_mem a (List.mem_cons_of_mem b hx)
      calc best le a (b :: bs) = best le (better le a b) bs := rfl
        _ = best le' (better le a b) bs := ih fun x hx y hy => h x (hmem x hx) y (hmem y hy)
        _ = best le' a (b :: bs) := by rw [hbetter]; rfl

theorem best_map {β : Type u} {le' : β → β → Bool} {f : α → β}
    (h : ∀ x y, le' (f x) (f y) = le x y) (a : α) (as : List α) :
    best le' (f a) (as.map f) = f (best le a as) := by
  induction as generalizing a with
  | nil => rfl
  | cons b bs ih =>
      have hbetter : better le' (f a) (f b) = f (better le a b) := by
        unfold better
        rw [h]
        split <;> rfl
      calc best le' (f a) ((b :: bs).map f) = best le' (better le' (f a) (f b)) (bs.map f) := rfl
        _ = f (best le (better le a b) bs) := by rw [hbetter, ih]
        _ = f (best le a (b :: bs)) := rfl

section Preorder

variable (htotal : ∀ a b, le a b = true ∨ le b a = true)
  (htrans : ∀ a b c, le a b = true → le b c = true → le a c = true)

include htotal

theorem le_refl (a : α) : le a a = true := by
  rcases htotal a a with h | h <;> exact h

theorem better_le_left (a b : α) : le (better le a b) a = true := by
  unfold better
  split
  · exact le_refl htotal a
  · next h => exact (htotal a b).resolve_left h

theorem better_le_right (a b : α) : le (better le a b) b = true := by
  unfold better
  split
  · assumption
  · exact le_refl htotal b

include htrans

theorem best_le_head (a : α) (as : List α) : le (best le a as) a = true := by
  induction as generalizing a with
  | nil => exact le_refl htotal a
  | cons b bs ih => exact htrans _ _ _ (ih _) (better_le_left htotal a b)

theorem best_le {a : α} {as : List α} {x : α} (hx : x ∈ a :: as) :
    le (best le a as) x = true := by
  induction as generalizing a with
  | nil =>
      obtain rfl := List.mem_singleton.mp hx
      exact le_refl htotal x
  | cons b bs ih =>
      rw [best, List.foldl_cons]
      rcases List.mem_cons.mp hx with rfl | hx
      · exact htrans _ _ _ (best_le_head htotal htrans _ bs) (better_le_left htotal x b)
      · rcases List.mem_cons.mp hx with rfl | hx
        · exact htrans _ _ _ (best_le_head htotal htrans _ bs) (better_le_right htotal a x)
        · exact ih (List.mem_cons_of_mem _ hx)

/-- The result wins over every element before it: among ties it is the first. -/
theorem best_first (a : α) (as : List α) :
    ∃ before after, a :: as = before ++ best le a as :: after ∧
      ∀ x ∈ before, le x (best le a as) = false := by
  induction as generalizing a with
  | nil => exact ⟨[], [], rfl, fun _ hx => (List.not_mem_nil hx).elim⟩
  | cons b bs ih =>
      obtain ⟨before, after, hsplit, hlost⟩ := ih (better le a b)
      rw [best, List.foldl_cons, ← best]
      generalize best le (better le a b) bs = r at hsplit hlost
      -- the head of the shorter walk is `a` or `b`, and the other one lost to it
      cases hab : le a b with
      | true =>
          have hbetter : better le a b = a := if_pos hab
          rw [hbetter] at hsplit
          cases before with
          | nil =>
              obtain ⟨rfl, rfl⟩ := List.cons.inj hsplit
              exact ⟨[], b :: bs, rfl, fun _ hx => (List.not_mem_nil hx).elim⟩
          | cons c before =>
              obtain ⟨rfl, rfl⟩ := List.cons.inj hsplit
              have ha : le a r = false := hlost a List.mem_cons_self
              refine ⟨a :: b :: before, after, rfl, fun x hx => ?_⟩
              rcases List.mem_cons.mp hx with rfl | hx
              · exact ha
              · rcases List.mem_cons.mp hx with rfl | hx
                · refine Bool.eq_false_iff.mpr fun hb => ?_
                  rw [htrans _ _ _ hab hb] at ha
                  cases ha
                · exact hlost x (List.mem_cons_of_mem _ hx)
      | false =>
          have hbetter : better le a b = b := if_neg (Bool.eq_false_iff.mp hab)
          have hba : le b a = true := (htotal a b).resolve_left (Bool.eq_false_iff.mp hab)
          rw [hbetter] at hsplit
          cases before with
          | nil =>
              obtain ⟨rfl, rfl⟩ := List.cons.inj hsplit
              refine ⟨[a], bs, rfl, fun x hx => ?_⟩
              rw [List.mem_singleton.mp hx]
              exact hab
          | cons c before =>
              obtain ⟨rfl, rfl⟩ := List.cons.inj hsplit
              have hb : le b r = false := hlost b List.mem_cons_self
              refine ⟨a :: b :: before, after, rfl, fun x hx => ?_⟩
              rcases List.mem_cons.mp hx with rfl | hx
              · refine Bool.eq_false_iff.mpr fun ha => ?_
                rw [htrans _ _ _ hba ha] at hb
                cases hb
              · exact hlost x hx

end Preorder

end Best
