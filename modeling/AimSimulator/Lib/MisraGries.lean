import Mathlib.Algebra.Order.BigOperators.Group.List
import Mathlib.Algebra.Order.Ring.Nat
import Mathlib.Algebra.Group.Action.Defs
import Mathlib.Data.List.AList
/-!
# Frequency estimates from a table of counters

A table counts some of the keys that are observed; a spillover counter stands for all
others.  An observed key that is not in the table takes the place of one whose count equals
the spillover counter, and raises the counter if there is none.  Each key is then observed
at most as often as its estimate says, and the counters together count each observation
at most once.
-/

namespace MisraGries

variable {κ : Type} [DecidableEq κ]

abbrev Table (κ : Type) := AList fun _ : κ => Nat

structure Summary (κ : Type) where
  table : Table κ
  spillover : Nat

/-! ## Tables of counters -/

namespace Table

def sum (t : Table κ) : Nat := (t.entries.map fun e => e.2).sum

theorem lookup_eq_some_iff {t : Table κ} {x : κ} {c : Nat} :
    t.lookup x = some c ↔ ⟨x, c⟩ ∈ t.entries :=
  List.mem_dlookup_iff t.nodupKeys

theorem entries_perm {t : Table κ} {x : κ} {c : Nat} (h : t.lookup x = some c) :
    t.entries.Perm (⟨x, c⟩ :: (t.erase x).entries) := by
  have hmem := lookup_eq_some_iff.mp h
  obtain ⟨c', l₁, l₂, hnot, heq, herase⟩ :=
    List.exists_of_kerase (List.mem_keys_of_mem hmem)
  have hc : some c = some c' := by
    rw [← h]
    exact lookup_eq_some_iff.mpr (heq ▸ List.mem_append_right _ List.mem_cons_self)
  obtain rfl := Option.some.inj hc
  change t.entries.Perm (⟨x, c⟩ :: List.kerase x t.entries)
  rw [herase, heq]
  exact List.perm_middle

theorem sum_erase {t : Table κ} {x : κ} {c : Nat} (h : t.lookup x = some c) :
    sum (t.erase x) + c = sum t := by
  rw [sum, sum, ((entries_perm h).map _).sum_nat, List.map_cons, List.sum_cons, Nat.add_comm]

theorem length_erase {t : Table κ} {x : κ} {c : Nat} (h : t.lookup x = some c) :
    (t.erase x).entries.length + 1 = t.entries.length := by
  rw [(entries_perm h).length_eq, List.length_cons]

theorem sum_insert (t : Table κ) (x : κ) (d : Nat) :
    sum (t.insert x d) = d + sum (t.erase x) := rfl

theorem length_insert (t : Table κ) (x : κ) (d : Nat) :
    (t.insert x d).entries.length = (t.erase x).entries.length + 1 := rfl

theorem erase_of_lookup_eq_none {t : Table κ} {x : κ} (h : t.lookup x = none) : t.erase x = t :=
  AList.ext (List.kerase_of_notMem_keys (List.dlookup_eq_none.mp h))

theorem length_mul_le_sum {t : Table κ} {m : Nat} (h : ∀ x c, t.lookup x = some c → m ≤ c) :
    t.entries.length * m ≤ t.sum := by
  have hmap : ∀ c ∈ t.entries.map (fun e => e.2), m ≤ c := by
    intro c hc
    obtain ⟨e, he, rfl⟩ := List.mem_map.mp hc
    exact h e.1 e.2 (lookup_eq_some_iff.mpr he)
  have hsum := List.card_nsmul_le_sum _ m hmap
  rwa [List.length_map, smul_eq_mul] at hsum

end Table

/-! ## Observations -/

namespace Summary

def estimate (s : Summary κ) (x : κ) : Nat := (s.table.lookup x).getD s.spillover

def Above (s : Summary κ) : Prop := ∀ x c, s.table.lookup x = some c → s.spillover ≤ c

def total (s : Summary κ) : Nat := s.table.sum + s.spillover

inductive Observe (s : Summary κ) (x : κ) : Summary κ → Prop
  | count {c : Nat} : s.table.lookup x = some c →
      Observe s x { s with table := s.table.insert x (c + 1) }
  | replace {y : κ} : s.table.lookup x = none → s.table.lookup y = some s.spillover →
      Observe s x { s with table := (s.table.erase y).insert x (s.spillover + 1) }
  | spill : s.table.lookup x = none → (∀ y, s.table.lookup y ≠ some s.spillover) →
      Observe s x { s with spillover := s.spillover + 1 }

def lower (s : Summary κ) (x : κ) : Summary κ := { s with table := s.table.insert x s.spillover }

theorem lookup_erase_eq_some {t : Table κ} {x y : κ} {c : Nat}
    (h : (t.erase y).lookup x = some c) : t.lookup x = some c := by
  by_cases hxy : x = y
  · rw [hxy, AList.lookup_erase] at h
    cases h
  · rwa [AList.lookup_erase_ne hxy] at h

theorem lookup_erase_eq_none {t : Table κ} {x : κ} (y : κ) (h : t.lookup x = none) :
    (t.erase y).lookup x = none := by
  cases hx : (t.erase y).lookup x with
  | none => rfl
  | some c =>
      rw [lookup_erase_eq_some hx] at h
      cases h

theorem Observe.above {s s' : Summary κ} {x : κ} (h : Observe s x s') (hs : s.Above) :
    s'.Above := by
  cases h with
  | @count c hx =>
      intro z d hz
      by_cases hzx : z = x
      · rw [hzx, AList.lookup_insert] at hz
        obtain rfl := Option.some.inj hz
        exact Nat.le_succ_of_le (hs x c hx)
      · rw [AList.lookup_insert_ne hzx] at hz
        exact hs z d hz
  | @replace y hx hy =>
      intro z d hz
      by_cases hzx : z = x
      · rw [hzx, AList.lookup_insert] at hz
        obtain rfl := Option.some.inj hz
        exact Nat.le_succ _
      · rw [AList.lookup_insert_ne hzx] at hz
        exact hs z d (lookup_erase_eq_some hz)
  | spill hx hne =>
      intro z d hz
      have hle := hs z d hz
      have hd : d ≠ s.spillover := fun h => hne z (h ▸ hz)
      change s.spillover + 1 ≤ d
      omega

theorem Observe.estimate_self {s s' : Summary κ} {x : κ} (h : Observe s x s') :
    s'.estimate x = s.estimate x + 1 := by
  unfold estimate
  cases h with
  | count hx => rw [AList.lookup_insert, hx]; rfl
  | replace hx hy => rw [AList.lookup_insert, hx]; rfl
  | spill hx hne => rw [hx]; rfl

theorem Observe.estimate_ne {s s' : Summary κ} {x z : κ} (h : Observe s x s') (hz : z ≠ x) :
    s.estimate z ≤ s'.estimate z := by
  unfold estimate
  cases h with
  | count hx => rw [AList.lookup_insert_ne hz]
  | @replace y hx hy =>
      rw [AList.lookup_insert_ne hz]
      by_cases hzy : z = y
      · rw [hzy, AList.lookup_erase, hy]
        exact Nat.le_refl _
      · rw [AList.lookup_erase_ne hzy]
  | spill hx hne =>
      change (s.table.lookup z).getD s.spillover ≤ (s.table.lookup z).getD (s.spillover + 1)
      cases s.table.lookup z with
      | none => exact Nat.le_succ _
      | some c => exact Nat.le_refl _

theorem Observe.estimate_ne_le {s s' : Summary κ} {x z : κ} (h : Observe s x s') (hz : z ≠ x) :
    s'.estimate z ≤ max (s.estimate z) (s.spillover + 1) := by
  unfold estimate
  cases h with
  | count hx =>
      rw [AList.lookup_insert_ne hz]
      exact Nat.le_max_left _ _
  | @replace y hx hy =>
      rw [AList.lookup_insert_ne hz]
      by_cases hzy : z = y
      · rw [hzy, AList.lookup_erase]
        exact Nat.le_trans (Nat.le_succ _) (Nat.le_max_right _ _)
      · rw [AList.lookup_erase_ne hzy]
        exact Nat.le_max_left _ _
  | spill hx hne =>
      change (s.table.lookup z).getD (s.spillover + 1) ≤ _
      cases s.table.lookup z with
      | none => exact Nat.le_max_right _ _
      | some c => exact Nat.le_max_left _ _

theorem Observe.total_eq {s s' : Summary κ} {x : κ} (h : Observe s x s') :
    s'.total = s.total + 1 := by
  unfold total
  cases h with
  | count hx =>
      have := Table.sum_erase hx
      dsimp only
      rw [Table.sum_insert]
      omega
  | @replace y hx hy =>
      have := Table.sum_erase hy
      dsimp only
      rw [Table.sum_insert, Table.erase_of_lookup_eq_none (lookup_erase_eq_none y hx)]
      omega
  | spill hx hne =>
      change s.table.sum + (s.spillover + 1) = _
      omega

theorem Observe.length_eq {s s' : Summary κ} {x : κ} (h : Observe s x s') :
    s'.table.entries.length = s.table.entries.length := by
  cases h with
  | count hx => rw [Table.length_insert, Table.length_erase hx]
  | @replace y hx hy =>
      rw [Table.length_insert, Table.erase_of_lookup_eq_none (lookup_erase_eq_none y hx),
        Table.length_erase hy]
  | spill hx hne => rfl

theorem above_lower {s : Summary κ} (hs : s.Above) (x : κ) : (s.lower x).Above := by
  intro z d hz
  by_cases hzx : z = x
  · rw [hzx, lower, AList.lookup_insert] at hz
    exact Nat.le_of_eq (Option.some.inj hz)
  · rw [lower, AList.lookup_insert_ne hzx] at hz
    exact hs z d hz

theorem estimate_lower_ne (s : Summary κ) {x z : κ} (hz : z ≠ x) :
    (s.lower x).estimate z = s.estimate z := by
  rw [estimate, lower, AList.lookup_insert_ne hz]
  rfl

theorem estimate_lower_self (s : Summary κ) (x : κ) : (s.lower x).estimate x = s.spillover := by
  rw [estimate, lower, AList.lookup_insert]
  rfl

theorem total_lower_le {s : Summary κ} (hs : s.Above) {x : κ} {c : Nat}
    (hx : s.table.lookup x = some c) : (s.lower x).total ≤ s.total := by
  have hsum := Table.sum_erase hx
  have hle := hs x c hx
  change s.spillover + Table.sum (s.table.erase x) + s.spillover ≤ s.table.sum + s.spillover
  omega

theorem length_lower (s : Summary κ) {x : κ} {c : Nat} (hx : s.table.lookup x = some c) :
    (s.lower x).table.entries.length = s.table.entries.length :=
  Table.length_erase hx

theorem spillover_le_total {s : Summary κ} (hs : s.Above) :
    (s.table.entries.length + 1) * s.spillover ≤ s.total := by
  have := Table.length_mul_le_sum hs
  rw [total, Nat.succ_mul]
  omega

end Summary

end MisraGries
