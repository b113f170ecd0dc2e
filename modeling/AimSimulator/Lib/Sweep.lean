/-!
# Components that take turns on a shared resource

A sweep gives each component of a list one turn, in order, on one resource.  Where a component
sees only its own part of the resource and touches no other, a sweep is a turn of each component
on a resource of its own.
-/

namespace Sweep

universe u v w x

variable {C : Type u} {D : Type v} {O : Type w}

/-- One turn of each component, the `k`-th first, with the outputs; `none` if a turn fails. -/
def sweep (turn : Nat → C → D → Option (C × D × O)) :
    Nat → List C → D → Option (List C × D × List O)
  | _, [], d => some ([], d, [])
  | k, c :: cs, d =>
      (turn k c d).bind fun (c', d', o) =>
        (sweep turn (k + 1) cs d').map fun (cs', d'', os) => (c' :: cs', d'', o :: os)

variable {turn : Nat → C → D → Option (C × D × O)}

theorem sweep_cons {k : Nat} {c : C} {cs cs' : List C} {d d' : D} {os : List O}
    (h : sweep turn k (c :: cs) d = some (cs', d', os)) :
    ∃ c₁ cs₁ d₁ o os₁, turn k c d = some (c₁, d₁, o) ∧
      sweep turn (k + 1) cs d₁ = some (cs₁, d', os₁) ∧ cs' = c₁ :: cs₁ ∧ os = o :: os₁ := by
  obtain ⟨⟨c₁, d₁, o⟩, hturn, h⟩ := Option.bind_eq_some_iff.mp h
  obtain ⟨⟨cs₁, d₂, os₁⟩, hrest, heq⟩ := Option.map_eq_some_iff.mp h
  simp only [Prod.mk.injEq] at heq
  obtain ⟨rfl, rfl, rfl⟩ := heq
  exact ⟨c₁, cs₁, d₁, o, os₁, hturn, hrest, rfl, rfl⟩

theorem sweep_length {k : Nat} {cs cs' : List C} {d d' : D} {os : List O}
    (h : sweep turn k cs d = some (cs', d', os)) :
    cs'.length = cs.length ∧ os.length = cs.length := by
  induction cs generalizing k d cs' os with
  | nil =>
      obtain ⟨rfl, -, rfl⟩ : [] = cs' ∧ d = d' ∧ [] = os := by simpa [sweep] using h
      exact ⟨rfl, rfl⟩
  | cons c cs ih =>
      obtain ⟨c₁, cs₁, d₁, o, os₁, -, hrest, rfl, rfl⟩ := sweep_cons h
      obtain ⟨hcs, hos⟩ := ih hrest
      exact ⟨congrArg (· + 1) hcs, congrArg (· + 1) hos⟩

/-- What each turn keeps, of the components and of the resource with the outputs so far, a sweep
keeps. -/
theorem sweep_induct {K : Nat → C → Prop} {J : D → List O → Prop} {before : List O}
    (hturn : ∀ k c d c' d' o outs, K k c → J d outs → turn k c d = some (c', d', o) →
      K k c' ∧ J d' (outs ++ [o])) {k : Nat} {cs cs' : List C} {d d' : D} {os : List O}
    (hcs : ∀ j c, cs[j]? = some c → K (k + j) c) (hd : J d before)
    (h : sweep turn k cs d = some (cs', d', os)) :
    (∀ j c, cs'[j]? = some c → K (k + j) c) ∧ J d' (before ++ os) := by
  induction cs generalizing k d cs' os before with
  | nil =>
      obtain ⟨rfl, rfl, rfl⟩ : [] = cs' ∧ d = d' ∧ [] = os := by simpa [sweep] using h
      exact ⟨hcs, by rwa [List.append_nil]⟩
  | cons c cs ih =>
      obtain ⟨c₁, cs₁, d₁, o, os₁, hfirst, hrest, rfl, rfl⟩ := sweep_cons h
      obtain ⟨hc₁, hd₁⟩ := hturn k c d c₁ d₁ o before (hcs 0 c rfl) hd hfirst
      obtain ⟨hcs₁, hd'⟩ := ih (fun j c hget => by
        have := hcs (j + 1) c hget
        rwa [Nat.add_left_comm, Nat.add_comm] at this) hd₁ hrest
      refine ⟨fun j c hget => ?_, by rwa [List.append_assoc] at hd'⟩
      cases j with
      | zero =>
          obtain rfl := Option.some.inj hget
          exact hc₁
      | succ j =>
          have := hcs₁ j c hget
          rwa [Nat.add_assoc, Nat.add_comm 1] at this

/-- Where each turn puts out what its component gives away, a sweep puts out what the components
give away. -/
theorem sweep_gives {α : Type x} {K : C → Prop} {f : C → List α} {g : O → List α}
    (hturn : ∀ k c d c' d' o, K c → turn k c d = some (c', d', o) →
      K c' ∧ (f c' ++ g o).Perm (f c)) {k : Nat} {cs cs' : List C} {d d' : D} {os : List O}
    (hcs : ∀ c ∈ cs, K c) (h : sweep turn k cs d = some (cs', d', os)) :
    (∀ c ∈ cs', K c) ∧ (cs'.flatMap f ++ os.flatMap g).Perm (cs.flatMap f) := by
  induction cs generalizing k d cs' os with
  | nil =>
      obtain ⟨rfl, -, rfl⟩ : [] = cs' ∧ d = d' ∧ [] = os := by simpa [sweep] using h
      exact ⟨hcs, .refl _⟩
  | cons c cs ih =>
      obtain ⟨hc, hcs⟩ := List.forall_mem_cons.mp hcs
      obtain ⟨c₁, cs₁, d₁, o, os₁, hfirst, hrest, rfl, rfl⟩ := sweep_cons h
      obtain ⟨hc₁, hone⟩ := hturn k c d c₁ d₁ o hc hfirst
      obtain ⟨hcs₁, hall⟩ := ih hcs hrest
      refine ⟨List.forall_mem_cons.mpr ⟨hc₁, hcs₁⟩, ?_⟩
      simp only [List.flatMap_cons]
      have hswap : (f c₁ ++ cs₁.flatMap f ++ (g o ++ os₁.flatMap g)).Perm
          (f c₁ ++ g o ++ (cs₁.flatMap f ++ os₁.flatMap g)) := by
        rw [List.append_assoc, List.append_assoc]
        exact (List.perm_append_comm_assoc ..).append_left _
      exact hswap.trans (hone.append hall)

section Parts

variable {K : Nat → C → Prop} {agree : Nat → D → D → Prop}
  (hown : ∀ k c d e c' d' o, K k c → agree k d e → turn k c d = some (c', d', o) →
    ∃ e', turn k c e = some (c', e', o) ∧ agree k d' e')
  (hother : ∀ k i c d e c' d' o, k ≠ i → K k c → agree i d e → turn k c d = some (c', d', o) →
    agree i d' e)

include hother in
theorem sweep_other {k i : Nat} (hi : i < k) {cs cs' : List C} {d d' e : D} {os : List O}
    (hcs : ∀ j c, cs[j]? = some c → K (k + j) c) (hd : agree i d e)
    (h : sweep turn k cs d = some (cs', d', os)) : agree i d' e := by
  induction cs generalizing k d cs' os with
  | nil =>
      obtain ⟨-, rfl, -⟩ : [] = cs' ∧ d = d' ∧ [] = os := by simpa [sweep] using h
      exact hd
  | cons c cs ih =>
      obtain ⟨c₁, cs₁, d₁, o, os₁, hfirst, hrest, -, -⟩ := sweep_cons h
      have hd₁ := hother k i c d e c₁ d₁ o (by omega) (hcs 0 c rfl) hd hfirst
      refine ih (Nat.lt_succ_of_lt hi) (fun j c hget => ?_) hd₁ hrest
      have := hcs (j + 1) c hget
      rwa [Nat.add_left_comm, Nat.add_comm] at this

include hown hother in
theorem sweep_project {k : Nat} {cs cs' : List C} {d d' e : D} {os : List O}
    (hcs : ∀ j c, cs[j]? = some c → K (k + j) c) (h : sweep turn k cs d = some (cs', d', os))
    {j : Nat} {c : C} (hc : cs[j]? = some c) (hd : agree (k + j) d e) :
    ∃ c' e' o, turn (k + j) c e = some (c', e', o) ∧ cs'[j]? = some c' ∧ os[j]? = some o ∧
      agree (k + j) d' e' := by
  induction cs generalizing k d cs' os j with
  | nil => cases hc
  | cons c₀ cs ih =>
      obtain ⟨c₁, cs₁, d₁, o, os₁, hfirst, hrest, rfl, rfl⟩ := sweep_cons h
      have hcs' : ∀ j c, cs[j]? = some c → K (k + 1 + j) c := by
        intro j c hget
        have := hcs (j + 1) c hget
        rwa [Nat.add_left_comm, Nat.add_comm] at this
      cases j with
      | zero =>
          obtain rfl := Option.some.inj hc
          obtain ⟨e', hturn, hd₁⟩ := hown k c₀ d e c₁ d₁ o (hcs 0 c₀ rfl) hd hfirst
          exact ⟨c₁, e', o, hturn, rfl, rfl,
            sweep_other hother (Nat.lt_succ_self k) hcs' hd₁ hrest⟩
      | succ j =>
          have hplace : k + (j + 1) = k + 1 + j := by omega
          rw [hplace] at hd ⊢
          have hd₁ := hother k (k + 1 + j) c₀ d e c₁ d₁ o (by omega) (hcs 0 c₀ rfl) hd hfirst
          exact ih hcs' hrest hc hd₁

end Parts

end Sweep
