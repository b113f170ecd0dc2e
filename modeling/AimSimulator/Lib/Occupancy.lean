import Mathlib.Logic.Function.Basic
import AimSimulator.Lib.Runs
/-!
# The occupancy of bounded buffers

Buffers with a capacity, of which only the number of elements counts.  An access offers an
element to a buffer or takes one out.  Whether an offer is admitted depends on the size and the
capacity of its buffer, by a test that is a parameter: nothing says that it keeps the capacity.
-/

namespace Occupancy

universe u v w

inductive Access (Id : Type u)
  | offer (id : Id)
  | take (id : Id)
  deriving DecidableEq

section

variable {Id : Type u} [DecidableEq Id] (admits : Nat → Nat → Bool) (capacity : Id → Nat)

/-- The sizes after an access; an offer that is not admitted changes nothing. -/
def access (size : Id → Nat) : Access Id → Id → Nat
  | .offer id =>
      if admits (size id) (capacity id) then Function.update size id (size id + 1) else size
  | .take id => Function.update size id (size id - 1)

def run (size : Id → Nat) (accesses : List (Access Id)) : Id → Nat :=
  accesses.foldl (access admits capacity) size

/-- Each offer finds its buffer with a size and a capacity in the relation `P`. -/
def EachOffer (P : Nat → Nat → Prop) : (Id → Nat) → List (Access Id) → Prop
  | _, [] => True
  | size, .offer id :: accesses =>
      P (size id) (capacity id) ∧
        EachOffer P (access admits capacity size (.offer id)) accesses
  | size, .take id :: accesses =>
      EachOffer P (access admits capacity size (.take id)) accesses

instance EachOffer.decidable (P : Nat → Nat → Prop) [DecidableRel P] :
    (size : Id → Nat) → (accesses : List (Access Id)) →
      Decidable (EachOffer admits capacity P size accesses)
  | _, [] => inferInstanceAs (Decidable True)
  | size, .offer id :: accesses =>
      have := EachOffer.decidable P (access admits capacity size (.offer id)) accesses
      inferInstanceAs (Decidable (P (size id) (capacity id) ∧
        EachOffer admits capacity P (access admits capacity size (.offer id)) accesses))
  | size, .take id :: accesses =>
      EachOffer.decidable P (access admits capacity size (.take id)) accesses

variable {admits capacity} {size : Id → Nat} {accesses : List (Access Id)}

theorem run_append (accesses' : List (Access Id)) :
    run admits capacity size (accesses ++ accesses') =
      run admits capacity (run admits capacity size accesses) accesses' :=
  List.foldl_append

@[simp] theorem access_offer_self (id : Id) :
    access admits capacity size (.offer id) id =
      if admits (size id) (capacity id) then size id + 1 else size id := by
  rw [access]
  split
  · rw [Function.update_self]
  · rfl

@[simp] theorem access_offer_ne {id id' : Id} (h : id' ≠ id) :
    access admits capacity size (.offer id) id' = size id' := by
  rw [access]
  split
  · rw [Function.update_of_ne h]
  · rfl

@[simp] theorem access_take_self (id : Id) :
    access admits capacity size (.take id) id = size id - 1 := by
  rw [access, Function.update_self]

@[simp] theorem access_take_ne {id id' : Id} (h : id' ≠ id) :
    access admits capacity size (.take id) id' = size id' := by
  rw [access, Function.update_of_ne h]

theorem le_access_offer (id id' : Id) :
    size id' ≤ access admits capacity size (.offer id) id' := by
  by_cases hid : id' = id
  · subst hid
    rw [access_offer_self]
    split
    · exact Nat.le_succ _
    · exact Nat.le_refl _
  · exact Nat.le_of_eq (access_offer_ne hid).symm

theorem le_run_of_offers (hoffers : ∀ a ∈ accesses, ∃ id, a = .offer id) (id : Id) :
    size id ≤ run admits capacity size accesses id := by
  induction accesses generalizing size with
  | nil => exact Nat.le_refl _
  | cons a accesses ih =>
      obtain ⟨⟨id', rfl⟩, hrest⟩ := List.forall_mem_cons.mp hoffers
      exact Nat.le_trans (le_access_offer id' id) (ih hrest)

theorem EachOffer.imp {P Q : Nat → Nat → Prop} (hPQ : ∀ n cap, P n cap → Q n cap)
    (h : EachOffer admits capacity P size accesses) :
    EachOffer admits capacity Q size accesses := by
  induction accesses generalizing size with
  | nil => trivial
  | cons a accesses ih =>
      cases a with
      | offer id => exact ⟨hPQ _ _ h.1, ih h.2⟩
      | take id => exact @ih (access admits capacity size (.take id)) h

theorem run_le (bound : Nat → Nat)
    (hoffers : EachOffer admits capacity (fun n cap => admits n cap = true → n < bound cap)
      size accesses)
    (hsize : ∀ id, size id ≤ bound (capacity id)) (id : Id) :
    run admits capacity size accesses id ≤ bound (capacity id) := by
  induction accesses generalizing size with
  | nil => exact hsize id
  | cons a accesses ih =>
      cases a with
      | offer id' =>
          refine ih hoffers.2 fun id => ?_
          by_cases hid : id = id'
          · subst hid
            rw [access_offer_self]
            split
            · next hadmits => exact hoffers.1 hadmits
            · exact hsize id
          · rw [access_offer_ne hid]
            exact hsize id
      | take id' =>
          refine @ih (access admits capacity size (.take id')) hoffers (fun id => ?_)
          by_cases hid : id = id'
          · subst hid
            rw [access_take_self]
            exact Nat.le_trans (Nat.sub_le _ 1) (hsize id)
          · rw [access_take_ne hid]
            exact hsize id

end

/-! ## Systems with buffers -/

structure System (State : Type u) (Label : Type v) (Id : Type w) [DecidableEq Id] where
  step : State → Label → Option State
  admits : Nat → Nat → Bool
  size : State → Id → Nat
  capacity : State → Id → Nat
  accesses : State → Label → List (Access Id)
  size_step : ∀ {s l t}, step s l = some t →
    size t = run admits (capacity s) (size s) (accesses s l)
  capacity_step : ∀ {s l t}, step s l = some t → capacity t = capacity s

namespace System

variable {State : Type u} {Label : Type v} {Id : Type w} [DecidableEq Id]
  (S : System State Label Id)

/-- No buffer holds more than its capacity and `slack`. -/
def Within (slack : Nat) (s : State) : Prop := ∀ id, S.size s id ≤ S.capacity s id + slack

/-- Each offer of a step finds its buffer with a size and a capacity in the relation `P`. -/
def EachOffer (P : Nat → Nat → Prop) (s : State) (l : Label) : Prop :=
  Occupancy.EachOffer S.admits (S.capacity s) P (S.size s) (S.accesses s l)

instance (P : Nat → Nat → Prop) [DecidableRel P] (s : State) (l : Label) :
    Decidable (S.EachOffer P s l) :=
  EachOffer.decidable S.admits (S.capacity s) P (S.size s) (S.accesses s l)

abbrev Run (init : State → Prop) (guard : State → Label → Prop) : State → Prop :=
  Runs.Reachable init (fun s l t => S.step s l = some t) guard

variable {S} {init : State → Prop} {guard : State → Label → Prop} {slack : Nat} {s t : State}
  {l : Label}

/-- The step lemma: offers that are admitted below the bound only keep it. -/
theorem within_step
    (hoffers : S.EachOffer (fun n cap => S.admits n cap = true → n < cap + slack) s l)
    (hwithin : S.Within slack s) (hstep : S.step s l = some t) : S.Within slack t := by
  intro id
  rw [S.size_step hstep, S.capacity_step hstep]
  exact run_le (· + slack) hoffers hwithin id

theorem within_run
    (hguard : ∀ s l, guard s l →
      S.EachOffer (fun n cap => S.admits n cap = true → n < cap + slack) s l)
    (hinit : ∀ s, init s → S.Within slack s) (hr : S.Run init guard s) : S.Within slack s :=
  hr.invariant hinit fun s l _ hwithin hg hstep => within_step (hguard s l hg) hwithin hstep

end System

/-! ## A test that admits one too many

A test that admits an offer while the size is at most the capacity differs from the one that keeps
the capacity only where a buffer is exactly full. -/

namespace System

variable {State : Type u} {Label : Type v} {Id : Type w} [DecidableEq Id]
  {S : System State Label Id} {init : State → Prop} {s t : State} {l : Label}

def RefusesFull (S : System State Label Id) (n cap : Nat) : Prop :=
  S.admits n cap = false ↔ cap ≤ n

theorem refusesFull_iff (hadmits : ∀ n cap, S.admits n cap = decide (n ≤ cap)) (n cap : Nat) :
    S.RefusesFull n cap ↔ n ≠ cap := by
  rw [RefusesFull, hadmits, decide_eq_false_iff_not]
  omega

theorem lt_of_ne (hadmits : ∀ n cap, S.admits n cap = decide (n ≤ cap)) {n cap : Nat}
    (hne : n ≠ cap) (haccept : S.admits n cap = true) : n < cap + 0 := by
  rw [hadmits, decide_eq_true_eq] at haccept
  omega

theorem within_of_no_full (hadmits : ∀ n cap, S.admits n cap = decide (n ≤ cap))
    (hinit : ∀ s, init s → S.Within 0 s) (hr : S.Run init (S.EachOffer (· ≠ ·)) s) :
    S.Within 0 s :=
  within_run (fun _ _ hg => EachOffer.imp (fun _ _ => lt_of_ne hadmits) hg) hinit hr

/-- Within the capacities, a step keeps them and refuses exactly what finds its buffer full if and
only if it makes no offer to a full buffer. -/
theorem step_iff_no_full (hadmits : ∀ n cap, S.admits n cap = decide (n ≤ cap))
    (hwithin : S.Within 0 s) (hstep : S.step s l = some t) :
    (S.Within 0 t ∧ S.EachOffer S.RefusesFull s l) ↔ S.EachOffer (· ≠ ·) s l := by
  constructor
  · rintro ⟨-, hexact⟩
    exact EachOffer.imp (fun n cap => (refusesFull_iff hadmits n cap).mp) hexact
  · intro hne
    exact ⟨within_step (EachOffer.imp (fun _ _ => lt_of_ne hadmits) hne) hwithin hstep,
      EachOffer.imp (fun n cap => (refusesFull_iff hadmits n cap).mpr) hne⟩

end System

end Occupancy
