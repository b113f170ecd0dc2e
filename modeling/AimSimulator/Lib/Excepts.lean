/-!
# Computations with errors

How the outcome of a computation in `Except` is taken apart.
-/

namespace Excepts

universe u v

variable {ε : Type u} {α β : Type v} {x : Except ε α} {f : α → Except ε β}

theorem bind_eq_ok {b : β} : x >>= f = .ok b ↔ ∃ a, x = .ok a ∧ f a = .ok b := by
  cases x with
  | error e => exact ⟨nofun, fun ⟨_, h, _⟩ => nomatch h⟩
  | ok a => exact ⟨fun h => ⟨a, rfl, h⟩, fun ⟨_, ha, h⟩ => Except.ok.inj ha ▸ h⟩

theorem bind_eq_error {e : ε} :
    x >>= f = .error e ↔ x = .error e ∨ ∃ a, x = .ok a ∧ f a = .error e := by
  cases x with
  | error e' =>
      refine ⟨fun h => .inl (congrArg _ (Except.error.inj h)), fun h => ?_⟩
      rcases h with h | ⟨_, ha, _⟩
      · exact congrArg _ (Except.error.inj h)
      · cases ha
  | ok a =>
      exact ⟨fun h => .inr ⟨a, rfl, h⟩,
        fun h => h.elim (fun h => nomatch h) fun ⟨_, ha, h⟩ => Except.ok.inj ha ▸ h⟩

theorem map_eq_ok {g : α → β} {b : β} : g <$> x = .ok b ↔ ∃ a, x = .ok a ∧ g a = b := by
  cases x with
  | error e => exact ⟨nofun, fun ⟨_, h, _⟩ => nomatch h⟩
  | ok a =>
      exact ⟨fun h => ⟨a, rfl, Except.ok.inj h⟩,
        fun ⟨_, ha, h⟩ => congrArg _ (Except.ok.inj ha ▸ h)⟩

theorem map_eq_error {g : α → β} {e : ε} : g <$> x = .error e ↔ x = .error e := by
  cases x with
  | error e' => exact ⟨fun h => congrArg _ (Except.error.inj h),
      fun h => congrArg _ (Except.error.inj h)⟩
  | ok a => exact ⟨nofun, nofun⟩

theorem map_of_mapM_ok {γ : Type v} {g : α → Except ε γ} {l : List α} {cs : List γ}
    (h : l.mapM g = .ok cs) : l.map g = cs.map .ok := by
  induction l generalizing cs with
  | nil =>
      obtain rfl := Except.ok.inj h
      rfl
  | cons a l ih =>
      rw [List.mapM_cons] at h
      obtain ⟨c, hc, h⟩ := bind_eq_ok.mp h
      obtain ⟨rest, hrest, h⟩ := bind_eq_ok.mp h
      obtain rfl := Except.ok.inj h
      rw [List.map_cons, List.map_cons, hc, ih hrest]

theorem mapM_of_map_ok {γ : Type v} {g : α → Except ε γ} {l : List α} {cs : List γ}
    (h : l.map g = cs.map .ok) : l.mapM g = .ok cs := by
  induction l generalizing cs with
  | nil =>
      obtain rfl : cs = [] := List.map_eq_nil_iff.mp h.symm
      rfl
  | cons a l ih =>
      cases cs with
      | nil => cases h
      | cons c cs =>
          obtain ⟨hc, hrest⟩ := List.cons.inj h
          rw [List.mapM_cons, hc, ih hrest]
          rfl

theorem forM_of_ok {γ : Type} {g : γ → Except ε PUnit} {l : List γ} (h : ∀ c ∈ l, g c = .ok ⟨⟩) :
    l.forM g = .ok ⟨⟩ := by
  induction l with
  | nil => rfl
  | cons c l ih =>
      show g c >>= (fun _ => l.forM g) = _
      rw [h c List.mem_cons_self]
      exact ih fun c hc => h c (List.mem_cons_of_mem _ hc)

end Excepts
