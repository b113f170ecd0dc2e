/-!
# Time spent in states

A system changes its state at timed events and stays in it until the next one.  `timeWhile` is
the time, from a clock up to a stop, during which the state has a property; `stateAt` is the
state in which it is at a clock.
-/

namespace TimedRuns

universe u v w

variable {σ : Type u} {τ : Type v} {ε : Type w} (clock : ε → Int)

def Ordered (clk : Int) : List ε → Int → Prop
  | [], stop => clk ≤ stop
  | e :: events, stop => clk ≤ clock e ∧ Ordered (clock e) events stop

instance decidableOrdered : (clk : Int) → (events : List ε) → (stop : Int) →
    Decidable (Ordered clock clk events stop)
  | clk, [], stop => inferInstanceAs (Decidable (clk ≤ stop))
  | clk, e :: events, stop =>
      have := decidableOrdered (clock e) events stop
      inferInstanceAs (Decidable (clk ≤ clock e ∧ Ordered clock (clock e) events stop))

def timeWhile (step : σ → ε → σ) (P : σ → Bool) (s : σ) (clk : Int) : List ε → Int → Int
  | [], stop => if P s then stop - clk else 0
  | e :: events, stop =>
      (if P s then clock e - clk else 0) + timeWhile step P (step s e) (clock e) events stop

def upTo (t : Int) (events : List ε) : List ε := events.filter fun e => decide (clock e ≤ t)

def stateAt (step : σ → ε → σ) (s : σ) (events : List ε) (t : Int) : σ :=
  (upTo clock t events).foldl step s

variable {clock} {step : σ → ε → σ} {step' : τ → ε → τ} {P : σ → Bool} {Q : τ → Bool}

/-! ## Events up to a clock -/

theorem upTo_cons {e : ε} {t : Int} (h : clock e ≤ t) (events : List ε) :
    upTo clock t (e :: events) = e :: upTo clock t events :=
  List.filter_cons_of_pos (decide_eq_true h)

theorem upTo_cons_of_lt {e : ε} {t : Int} (h : t < clock e) (events : List ε) :
    upTo clock t (e :: events) = upTo clock t events :=
  List.filter_cons_of_neg fun hle => absurd (of_decide_eq_true hle) (Int.not_le.mpr h)

theorem Ordered.upTo_eq_nil {clk stop t : Int} {events : List ε}
    (h : Ordered clock clk events stop) (ht : t < clk) : upTo clock t events = [] := by
  induction events generalizing clk with
  | nil => rfl
  | cons e events ih =>
      have hlate : t < clock e := Int.lt_of_lt_of_le ht h.1
      rw [upTo_cons_of_lt hlate, ih h.2 hlate]

theorem Ordered.upTo_stop {clk stop : Int} {events : List ε}
    (h : Ordered clock clk events stop) : clk ≤ stop ∧ upTo clock stop events = events := by
  induction events generalizing clk with
  | nil => exact ⟨h, rfl⟩
  | cons e events ih =>
      obtain ⟨hle, hrest⟩ := ih h.2
      exact ⟨Int.le_trans h.1 hle, by rw [upTo_cons hle, hrest]⟩

theorem Ordered.upTo {clk stop t : Int} {events : List ε} (h : Ordered clock clk events stop)
    (ht : clk ≤ t) : Ordered clock clk (upTo clock t events) t := by
  induction events generalizing clk with
  | nil => exact ht
  | cons e events ih =>
      by_cases hle : clock e ≤ t
      · rw [upTo_cons hle]
        exact ⟨h.1, ih h.2 hle⟩
      · have hlate : t < clock e := Int.not_le.mp hle
        rw [upTo_cons_of_lt hlate, h.2.upTo_eq_nil hlate]
        exact ht

/-! ## Times -/

theorem timeWhile_self (s : σ) {clk : Int} {events : List ε} (h : Ordered clock clk events clk) :
    timeWhile clock step P s clk events clk = 0 := by
  induction events generalizing s with
  | nil => rw [timeWhile, Int.sub_self, ite_self]
  | cons e events ih =>
      have hclk : clock e = clk := Int.le_antisymm h.2.upTo_stop.1 h.1
      have hrest := h.2
      rw [hclk] at hrest
      rw [timeWhile, hclk, Int.sub_self, ite_self, ih _ hrest, Int.zero_add]

theorem timeWhile_succ (s : σ) {clk stop t : Int} {events : List ε}
    (h : Ordered clock clk events stop) (ht : clk ≤ t) :
    timeWhile clock step P s clk (upTo clock (t + 1) events) (t + 1) =
      timeWhile clock step P s clk (upTo clock t events) t +
        if P (stateAt clock step s events t) then 1 else 0 := by
  induction events generalizing s clk with
  | nil =>
      change (if P s then t + 1 - clk else 0) = (if P s then t - clk else 0) + if P s then 1 else 0
      split <;> omega
  | cons e events ih =>
      by_cases hle : clock e ≤ t
      · rw [stateAt, upTo_cons hle, upTo_cons (by omega), timeWhile, timeWhile, ih _ h.2 hle]
        exact (Int.add_assoc ..).symm
      · have hlate : t < clock e := Int.not_le.mp hle
        have hcharge : (if P s then t + 1 - clk else 0) =
            (if P s then t - clk else 0) + if P s then 1 else 0 := by
          split <;> omega
        rw [stateAt, upTo_cons_of_lt hlate, h.2.upTo_eq_nil hlate]
        by_cases hnext : clock e = t + 1
        · have hrest : Ordered clock (t + 1) (upTo clock (t + 1) events) (t + 1) :=
            Ordered.upTo (hnext ▸ h.2) (Int.le_refl _)
          rw [upTo_cons (Int.le_of_eq hnext), timeWhile, timeWhile, hnext, timeWhile_self _ hrest,
            Int.add_zero]
          exact hcharge
        · have hlater : t + 1 < clock e := by omega
          rw [upTo_cons_of_lt hlater, h.2.upTo_eq_nil hlater]
          exact hcharge

/-- Two systems are in their properties for the same time up to each clock exactly where, at each
clock, both are or neither is. -/
theorem timeWhile_upTo_eq_iff (s : σ) (s' : τ) {clk stop : Int} {events : List ε}
    (h : Ordered clock clk events stop) :
    (∀ t, clk ≤ t → t ≤ stop → timeWhile clock step P s clk (upTo clock t events) t =
      timeWhile clock step' Q s' clk (upTo clock t events) t) ↔
    ∀ t, clk ≤ t → t < stop →
      P (stateAt clock step s events t) = Q (stateAt clock step' s' events t) := by
  constructor
  · intro hall t ht hlt
    have hnext := hall (t + 1) (by omega) (by omega)
    rw [timeWhile_succ s h ht, timeWhile_succ s' h ht, hall t ht (by omega)] at hnext
    have hcharge : ∀ p q : Bool, (if p then 1 else 0 : Int) = (if q then 1 else 0) → p = q := by
      decide
    exact hcharge _ _ (by omega)
  · intro hall t ht
    obtain ⟨n, rfl⟩ := Int.le.dest ht
    induction n with
    | zero =>
        intro _
        have hstart : Ordered clock clk (upTo clock clk events) clk := h.upTo (Int.le_refl clk)
        rw [Int.natCast_zero, Int.add_zero, timeWhile_self s hstart, timeWhile_self s' hstart]
    | succ n ih =>
        intro hle
        rw [Int.natCast_succ, ← Int.add_assoc] at hle ⊢
        rw [timeWhile_succ s h (by omega), timeWhile_succ s' h (by omega),
          ih (by omega) (by omega), hall _ (by omega) (by omega)]

theorem timeWhile_simulates {R : σ → τ → Prop} {events : List ε}
    (hstep : ∀ s s', ∀ e ∈ events, R s s' → R (step s e) (step' s' e))
    (hproperty : ∀ s s', R s s' → P s = Q s') {s : σ} {s' : τ} (h : R s s') (clk stop : Int) :
    timeWhile clock step P s clk events stop = timeWhile clock step' Q s' clk events stop := by
  induction events generalizing s s' clk with
  | nil => rw [timeWhile, timeWhile, hproperty s s' h]
  | cons e events ih =>
      rw [timeWhile, timeWhile, hproperty s s' h]
      rw [ih (fun s s' d hd => hstep s s' d (List.mem_cons_of_mem _ hd))
        (hstep s s' e List.mem_cons_self h)]

end TimedRuns
