/-!
# Doing what one is told

A loop that asks a state what to do next and does it, until the answer is the goal itself.
-/

namespace Prompting

variable {σ α : Type} (ask : σ → α) (act : σ → α → σ) (goal : α)

/-- What is done from a state on, before the goal is the answer. -/
inductive Leads : σ → List α → Prop
  | done {s : σ} (asked : ask s = goal) : Leads s []
  | step {s : σ} {a : α} {rest : List α} (asked : ask s = a) (ne_goal : a ≠ goal)
      (leads : Leads (act s a) rest) : Leads s (a :: rest)

/-- What is done on the way to another state, where the goal was never the answer. -/
inductive Follows : σ → List α → σ → Prop
  | refl {s : σ} : Follows s [] s
  | step {s s' : σ} {a : α} {rest : List α} (asked : ask s = a) (ne_goal : a ≠ goal)
      (follows : Follows (act s a) rest s') : Follows s (a :: rest) s'

variable {ask act goal}

theorem Follows.leads_iff {s s' : σ} {way done : List α} (h : Follows ask act goal s way s') :
    Leads ask act goal s done ↔ ∃ rest, done = way ++ rest ∧ Leads ask act goal s' rest := by
  induction h generalizing done with
  | refl => simp
  | @step s s' a way asked ne_goal _ ih =>
      constructor
      · intro hleads
        cases hleads with
        | done hgoal => exact absurd (asked.symm.trans hgoal) ne_goal
        | step asked' _ leads =>
            obtain rfl := asked.symm.trans asked'
            obtain ⟨rest, rfl, hrest⟩ := ih.mp leads
            exact ⟨rest, rfl, hrest⟩
      · rintro ⟨rest, rfl, hrest⟩
        exact .step asked ne_goal (ih.mpr ⟨rest, rfl, hrest⟩)

theorem not_leads {I : σ → Prop} (hne : ∀ s, I s → ask s ≠ goal)
    (hkeep : ∀ s, I s → I (act s (ask s))) {s : σ} (h : I s) (done : List α) :
    ¬ Leads ask act goal s done := by
  intro hleads
  induction hleads with
  | done asked => exact hne _ h asked
  | step asked _ _ ih => exact ih (asked ▸ hkeep _ h)

end Prompting
