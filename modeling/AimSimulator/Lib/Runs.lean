/-!
# Guarded runs of a labelled transition system

A system is an initial predicate, a step relation indexed by a label, and a
guard on the steps a run may take.  `Reachable` collects the states of the
runs whose steps all meet the guard.  The guard `fun _ _ => True` gives every
run; a sharper guard states under which steps a property survives.
-/

namespace Runs

universe u v w x

variable {State : Type u} {Label : Type v}

/-- States reached from `init` by steps that all meet `guard`. -/
inductive Reachable (init : State → Prop) (step : State → Label → State → Prop)
    (guard : State → Label → Prop) : State → Prop
  | start {s : State} : init s → Reachable init step guard s
  | next {s t : State} {l : Label} :
      Reachable init step guard s → guard s l → step s l t →
        Reachable init step guard t

namespace Reachable

variable {init : State → Prop} {step : State → Label → State → Prop}
  {guard guard' : State → Label → Prop}

/-- The run rule: what holds at the start and survives every admitted step
holds in every reached state. -/
theorem invariant {I : State → Prop} (hinit : ∀ s, init s → I s)
    (hstep : ∀ s l t, I s → guard s l → step s l t → I t)
    {s : State} (h : Reachable init step guard s) : I s := by
  induction h with
  | start hs => exact hinit _ hs
  | next _ hg hst ih => exact hstep _ _ _ ih hg hst

/-- The run rule with an invariant that is already known to hold. -/
theorem invariant_with {known I : State → Prop}
    (hknown : ∀ s, Reachable init step guard s → known s)
    (hinit : ∀ s, init s → I s)
    (hstep : ∀ s l t, known s → known t → I s → guard s l → step s l t → I t)
    {s : State} (h : Reachable init step guard s) : I s := by
  induction h with
  | start hs => exact hinit _ hs
  | next hr hg hst ih =>
      exact hstep _ _ _ (hknown _ hr) (hknown _ (.next hr hg hst)) ih hg hst

theorem mono (hguard : ∀ s l, guard s l → guard' s l) {s : State}
    (h : Reachable init step guard s) : Reachable init step guard' s := by
  induction h with
  | start hs => exact .start hs
  | next _ hg hst ih => exact .next ih (hguard _ _ hg) hst

theorem strengthen {s : State} (h : Reachable init step guard s) :
    Reachable init step (fun s l => guard s l ∧ Reachable init step guard s) s := by
  induction h with
  | start hs => exact .start hs
  | next hr hg hst ih => exact .next ih ⟨hg, hr⟩ hst

end Reachable

/-- Replay labels from a state, testing each with `ok`; `none` if a step on the way is
refused or fails its test. -/
def replay (step : State → Label → Option State) (ok : State → Label → Bool) :
    State → List Label → Option State
  | s, [] => some s
  | s, l :: ls => if ok s l then (step s l).bind fun t => replay step ok t ls else none

theorem replay_reachable_of_mem {init : State → Prop} {step : State → Label → Option State}
    {guard : State → Label → Prop} {ok : State → Label → Bool} {ls : List Label}
    (hok : ∀ l ∈ ls, ∀ s, ok s l = true → guard s l) {s t : State}
    (hs : Reachable init (fun s l t => step s l = some t) guard s)
    (h : replay step ok s ls = some t) :
    Reachable init (fun s l t => step s l = some t) guard t := by
  induction ls generalizing s with
  | nil =>
      obtain rfl : s = t := by simpa [replay] using h
      exact hs
  | cons l ls ih =>
      obtain ⟨hl, hls⟩ := List.forall_mem_cons.mp hok
      rw [replay] at h
      split at h
      · next htest =>
          obtain ⟨u, hst, hrest⟩ := Option.bind_eq_some_iff.mp h
          exact ih hls (.next hs (hl s htest) hst) hrest
      · cases h

theorem replay_reachable {init : State → Prop} {step : State → Label → Option State}
    {guard : State → Label → Prop} {ok : State → Label → Bool}
    (hok : ∀ s l, ok s l = true → guard s l) {ls : List Label} {s t : State}
    (hs : Reachable init (fun s l t => step s l = some t) guard s)
    (h : replay step ok s ls = some t) :
    Reachable init (fun s l t => step s l = some t) guard t :=
  replay_reachable_of_mem (fun l _ s => hok s l) hs h

/-! ## The labels of a run -/

def exec (step : State → Label → Option State) (s : State) (ls : List Label) : Option State :=
  ls.foldlM step s

section

variable {step : State → Label → Option State} {s t u : State} {l : Label} {ls : List Label}

theorem forall_concat {P : Label → Prop} (hls : ∀ l ∈ ls, P l) (hl : P l) :
    ∀ l' ∈ ls ++ [l], P l' :=
  List.forall_mem_append.mpr ⟨hls, List.forall_mem_singleton.mpr hl⟩

theorem exec_concat (h : exec step s ls = some t) (hstep : step t l = some u) :
    exec step s (ls ++ [l]) = some u := by
  rw [exec] at h ⊢
  rw [List.foldlM_append, h, Option.bind_eq_bind, Option.bind_some, List.foldlM_cons, hstep]
  rfl

/-- The run rule with the labels so far. -/
theorem exec_invariant {I : List Label → State → Prop}
    (hstep : ∀ done s l t, I done s → l ∈ ls → step s l = some t → I (done ++ [l]) t)
    (done : List Label) (h : I done s) (hrun : exec step s ls = some t) : I (done ++ ls) t := by
  rw [exec] at hrun
  induction ls generalizing s done with
  | nil =>
      obtain rfl : s = t := Option.some.inj hrun
      rwa [List.append_nil]
  | cons l ls ih =>
      rw [List.foldlM_cons] at hrun
      obtain ⟨u, hu, hrest⟩ := Option.bind_eq_some_iff.mp hrun
      have hnext := ih
        (fun done s l' t hI hmem => hstep done s l' t hI (List.mem_cons_of_mem _ hmem))
        _ (hstep done s l u h List.mem_cons_self hu) hrest
      rwa [List.append_assoc, List.singleton_append] at hnext

theorem exec_reachable {init : State → Prop} {guard : State → Label → Prop}
    (hls : ∀ l ∈ ls, ∀ s, guard s l)
    (hs : Reachable init (fun s l t => step s l = some t) guard s)
    (hrun : exec step s ls = some t) :
    Reachable init (fun s l t => step s l = some t) guard t :=
  exec_invariant (I := fun _ s => Reachable init (fun s l t => step s l = some t) guard s)
    (fun _ s l _ hr hl hst => .next hr (hls l hl s) hst) [] hs hrun

theorem Reachable.exists_exec {init : State → Prop} {P : Label → Prop}
    (h : Reachable init (fun s l t => step s l = some t) (fun _ l => P l) t) :
    ∃ s ls, init s ∧ (∀ l ∈ ls, P l) ∧ exec step s ls = some t := by
  induction h with
  | start hs => exact ⟨_, [], hs, fun _ hl => absurd hl List.not_mem_nil, rfl⟩
  | @next _ _ l _ hl hst ih =>
      obtain ⟨s, ls, hs, hls, hrun⟩ := ih
      exact ⟨s, ls ++ [l], hs, forall_concat hls hl, exec_concat hrun hst⟩

/-- What the steps of a run give out, one after the other. -/
def emitted {Out : Type w} (step : State → Label → Option State)
    (emit : State → Label → State → List Out) : State → List Label → List Out
  | _, [] => []
  | s, l :: ls =>
      match step s l with
      | some t => emit s l t ++ emitted step emit t ls
      | none => []

/-- The run rule with what was given out so far, to any number of observers. -/
theorem exec_emitted {Out : Type w} {ι : Type x} {emit : ι → State → Label → State → List Out}
    {I : (ι → List Out) → State → Prop}
    (hstep : ∀ out s l t, I out s → l ∈ ls → step s l = some t →
      I (fun i => out i ++ emit i s l t) t)
    (out : ι → List Out) (h : I out s) (hrun : exec step s ls = some t) :
    I (fun i => out i ++ emitted step (emit i) s ls) t := by
  rw [exec] at hrun
  induction ls generalizing s out with
  | nil =>
      obtain rfl : s = t := Option.some.inj hrun
      simpa only [emitted, List.append_nil] using h
  | cons l ls ih =>
      rw [List.foldlM_cons] at hrun
      obtain ⟨u, hu, hrest⟩ := Option.bind_eq_some_iff.mp hrun
      have hnext := ih (fun out s l' t hI hmem => hstep out s l' t hI (List.mem_cons_of_mem _ hmem))
        _ (hstep out s l u h List.mem_cons_self hu) hrest
      simpa only [emitted, hu, List.append_assoc] using hnext

end

end Runs
