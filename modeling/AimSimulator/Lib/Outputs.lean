/-!
# Runs with outputs

A step either is refused or gives the next state and what it puts out.  `outputs` runs a list of
labels.  An invariant may speak of the labels and the outputs so far; a simulation relates two
systems that put out the same and refuse the same labels.
-/

namespace Runs

universe u v w

variable {State : Type u} {State' : Type u} {Label : Type v} {Out : Type w}

/-- Run labels from a state and collect the outputs; `none` if a step is refused. -/
def outputs (step : State → Label → Option (State × List Out)) :
    State → List Label → Option (State × List Out)
  | s, [] => some (s, [])
  | s, l :: ls =>
      (step s l).bind fun (t, out) => (outputs step t ls).map fun (u, rest) => (u, out ++ rest)

theorem outputs_cons_eq_some {step : State → Label → Option (State × List Out)} {s u : State}
    {l : Label} {ls : List Label} {outs : List Out} :
    outputs step s (l :: ls) = some (u, outs) ↔
      ∃ t out rest, step s l = some (t, out) ∧ outputs step t ls = some (u, rest) ∧
        outs = out ++ rest := by
  rw [outputs, Option.bind_eq_some_iff]
  constructor
  · rintro ⟨⟨t, out⟩, hstep, hrest⟩
    obtain ⟨⟨u, rest⟩, hrun, heq⟩ := Option.map_eq_some_iff.mp hrest
    obtain ⟨rfl, rfl⟩ := Prod.mk.inj heq
    exact ⟨t, out, rest, hstep, hrun, rfl⟩
  · rintro ⟨t, out, rest, hstep, hrun, rfl⟩
    exact ⟨(t, out), hstep, Option.map_eq_some_iff.mpr ⟨(u, rest), hrun, rfl⟩⟩

/-- The run rule with the history: what holds of the start and survives every step holds of the
end of a run, its labels and its outputs. -/
theorem outputs_invariant {step : State → Label → Option (State × List Out)}
    {I : State → List Label → List Out → Prop}
    (hstep : ∀ s labels past l t out, I s labels past → step s l = some (t, out) →
      I t (labels ++ [l]) (past ++ out))
    {s t : State} {labels ls : List Label} {past outs : List Out} (h : I s labels past)
    (hrun : outputs step s ls = some (t, outs)) : I t (labels ++ ls) (past ++ outs) := by
  induction ls generalizing s labels past outs with
  | nil =>
      obtain ⟨rfl, rfl⟩ := Prod.mk.inj (Option.some.inj hrun)
      rw [List.append_nil, List.append_nil]
      exact h
  | cons l ls ih =>
      obtain ⟨u, out, rest, hfirst, hrest, rfl⟩ := outputs_cons_eq_some.mp hrun
      have hnext := ih (hstep _ _ _ _ _ _ h hfirst) hrest
      rwa [List.append_assoc, List.append_assoc] at hnext

/-- The rule for runs that are never refused. -/
theorem outputs_total {step : State → Label → Option (State × List Out)}
    {I : State → List Label → List Out → Prop}
    (hstep : ∀ s labels past l, I s labels past →
      ∃ t out, step s l = some (t, out) ∧ I t (labels ++ [l]) (past ++ out))
    {s : State} {labels : List Label} {past : List Out} (h : I s labels past) (ls : List Label) :
    ∃ t outs, outputs step s ls = some (t, outs) ∧ I t (labels ++ ls) (past ++ outs) := by
  induction ls generalizing s labels past with
  | nil => exact ⟨s, [], rfl, by rwa [List.append_nil, List.append_nil]⟩
  | cons l ls ih =>
      obtain ⟨t, out, hfirst, ht⟩ := hstep s labels past l h
      obtain ⟨u, rest, hrest, hu⟩ := ih ht
      refine ⟨u, out ++ rest, outputs_cons_eq_some.mpr ⟨t, out, rest, hfirst, hrest, rfl⟩, ?_⟩
      rwa [List.append_assoc, List.append_assoc] at hu

/-- The run rule with the outputs alone. -/
theorem outputs_preserves {step : State → Label → Option (State × List Out)}
    {I : State → List Out → Prop}
    (hstep : ∀ s past l t out, I s past → step s l = some (t, out) → I t (past ++ out))
    {s t : State} {ls : List Label} (past : List Out) {outs : List Out} (h : I s past)
    (hrun : outputs step s ls = some (t, outs)) : I t (past ++ outs) :=
  @outputs_invariant State Label Out step (fun s _ past => I s past)
    (fun s _ past l t out => hstep s past l t out) s t [] ls past outs h hrun

/-- Two systems whose steps match run alike: the same labels are refused and the same outputs
are collected. -/
theorem outputs_simulates {step : State → Label → Option (State × List Out)}
    {step' : State' → Label → Option (State' × List Out)} {R : State → State' → Prop}
    (hstep : ∀ s s' l, R s s' →
      Option.Rel (fun x y => R x.1 y.1 ∧ x.2 = y.2) (step s l) (step' s' l))
    {s : State} {s' : State'} (h : R s s') (ls : List Label) :
    Option.Rel (fun x y => R x.1 y.1 ∧ x.2 = y.2) (outputs step s ls) (outputs step' s' ls) := by
  induction ls generalizing s s' with
  | nil => exact .some ⟨h, rfl⟩
  | cons l ls ih =>
      have hl := hstep s s' l h
      rw [outputs, outputs]
      generalize step s l = x, step' s' l = y at hl ⊢
      cases hl with
      | none => exact .none
      | @some x y hxy =>
          obtain ⟨⟨t, out⟩, ⟨t', out'⟩⟩ := x, y
          obtain ⟨hrel, rfl⟩ := hxy
          have hrest := ih hrel
          dsimp only [Option.bind_some]
          generalize outputs step t ls = x, outputs step' t' ls = y at hrest ⊢
          cases hrest with
          | none => exact .none
          | some huv => exact .some ⟨huv.1, congrArg (out ++ ·) huv.2⟩

end Runs
