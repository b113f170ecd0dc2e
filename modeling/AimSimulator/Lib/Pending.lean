/-!
# Pending hits

A log of hits on keys, of keys that are cleared and of resets, newest first.  The hits of a
key that are pending are those since it was last cleared or everything was reset.
-/

namespace Pending

variable {κ : Type}

inductive Event (κ : Type)
  | hit (key : κ)
  | clear (key : κ)
  | reset

def pending [DecidableEq κ] (key : κ) : List (Event κ) → Nat
  | [] => 0
  | .hit k :: log => if k = key then pending key log + 1 else pending key log
  | .clear k :: log => if k = key then 0 else pending key log
  | .reset :: _ => 0

def hits : List (Event κ) → Nat
  | [] => 0
  | .hit _ :: log => hits log + 1
  | .clear _ :: log => hits log
  | .reset :: _ => 0

section

variable [DecidableEq κ]

@[simp] theorem pending_nil (key : κ) : pending key [] = 0 := rfl

@[simp] theorem pending_hit_self (key : κ) (log : List (Event κ)) :
    pending key (.hit key :: log) = pending key log + 1 := if_pos rfl

theorem pending_hit_ne {key k : κ} (h : k ≠ key) (log : List (Event κ)) :
    pending key (.hit k :: log) = pending key log := if_neg h

@[simp] theorem pending_clear_self (key : κ) (log : List (Event κ)) :
    pending key (.clear key :: log) = 0 := if_pos rfl

theorem pending_clear_ne {key k : κ} (h : k ≠ key) (log : List (Event κ)) :
    pending key (.clear k :: log) = pending key log := if_neg h

@[simp] theorem pending_reset (key : κ) (log : List (Event κ)) :
    pending key (.reset :: log) = 0 := rfl

end

@[simp] theorem hits_nil : hits ([] : List (Event κ)) = 0 := rfl

@[simp] theorem hits_hit (k : κ) (log : List (Event κ)) : hits (.hit k :: log) = hits log + 1 := rfl

@[simp] theorem hits_clear (k : κ) (log : List (Event κ)) : hits (.clear k :: log) = hits log := rfl

@[simp] theorem hits_reset (log : List (Event κ)) : hits (.reset :: log) = 0 := rfl

end Pending
