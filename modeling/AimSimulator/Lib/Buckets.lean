import Mathlib.Data.List.AList
/-!
# Lists filed under keys

A table of lists in which a key without entry stands for the empty list, and all that is filed
in it, up to order.
-/

universe u v

variable {κ : Type u} {α : Type v} [DecidableEq κ]

abbrev Buckets (κ : Type u) (α : Type v) := AList fun _ : κ => List α

namespace Buckets

def get (b : Buckets κ α) (k : κ) : List α := (b.lookup k).getD []

def put (b : Buckets κ α) (k : κ) (l : List α) : Buckets κ α := b.insert k l

def push (b : Buckets κ α) (k : κ) (x : α) : Buckets κ α := b.put k (b.get k ++ [x])

def all (b : Buckets κ α) : List α := b.entries.flatMap fun e => e.2

@[simp] theorem get_empty (k : κ) : get (∅ : Buckets κ α) k = [] := rfl

omit [DecidableEq κ] in
@[simp] theorem all_empty : all (∅ : Buckets κ α) = [] := rfl

@[simp] theorem get_put_self (b : Buckets κ α) (k : κ) (l : List α) : (b.put k l).get k = l := by
  rw [get, put, AList.lookup_insert]
  rfl

theorem get_put_ne (b : Buckets κ α) {k k' : κ} (l : List α) (h : k' ≠ k) :
    (b.put k l).get k' = b.get k' := by
  rw [get, put, AList.lookup_insert_ne h]
  rfl

theorem get_push_ne (b : Buckets κ α) {k k' : κ} (x : α) (h : k' ≠ k) :
    (b.push k x).get k' = b.get k' := get_put_ne b _ h

theorem put_put (b : Buckets κ α) (k : κ) (l l' : List α) : (b.put k l).put k l' = b.put k l' :=
  AList.insert_insert b

theorem all_put (b : Buckets κ α) (k : κ) (l : List α) :
    (b.put k l).all = l ++ all (b.erase k) := rfl

theorem all_perm (b : Buckets κ α) (k : κ) : b.all.Perm (b.get k ++ all (b.erase k)) := by
  cases h : b.lookup k with
  | none =>
      have herase : b.erase k = b :=
        AList.ext (List.kerase_of_notMem_keys (List.dlookup_eq_none.mp h))
      rw [get, h, herase]
      exact .refl _
  | some l =>
      have hmem : ⟨k, l⟩ ∈ b.entries := (List.mem_dlookup_iff b.nodupKeys).mp h
      obtain ⟨l', l₁, l₂, hnot, heq, herase⟩ := List.exists_of_kerase (List.mem_keys_of_mem hmem)
      obtain rfl : l' = l := by
        have hl' : b.lookup k = some l' :=
          (List.mem_dlookup_iff b.nodupKeys).mpr (heq ▸ List.mem_append_right _ List.mem_cons_self)
        exact Option.some.inj (hl'.symm.trans h)
      rw [get, h]
      change (b.entries.flatMap fun e => e.2).Perm
        (l' ++ (List.kerase k b.entries).flatMap fun e => e.2)
      rw [herase, heq, List.flatMap_append, List.flatMap_append, List.flatMap_cons]
      exact List.perm_append_comm_assoc _ _ _

theorem all_push (b : Buckets κ α) (k : κ) (x : α) : (b.push k x).all.Perm (x :: b.all) := by
  have hall := (all_perm b k).cons x
  refine List.Perm.trans ?_ hall.symm
  rw [push, all_put, List.append_assoc]
  exact List.perm_middle

theorem all_put_of_get_eq_nil (b : Buckets κ α) {k : κ} (l : List α) (h : b.get k = []) :
    (b.put k l).all.Perm (l ++ b.all) := by
  have hall := all_perm b k
  rw [h, List.nil_append] at hall
  rw [all_put]
  exact hall.symm.append_left l

end Buckets
