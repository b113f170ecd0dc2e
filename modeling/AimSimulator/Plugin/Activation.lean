import AimSimulator.Base.Request
import AimSimulator.Lib.Pending
/-!
# Activations seen by a controller plugin

What `IControllerPlugin::update` is given, the flattened bank id that `graphene.cpp`,
`hydra.cpp` and `rrs.cpp` compute from an address vector, the search of a hash map, and the
log of what happened to the rows of a bank: the activations, the victim-row refreshes that
a plugin requests, and its resets.
-/

namespace AimSimulator.Plugin

open Pending

/-- The entry that a loop over a map finds first among those that fit. -/
def pick {α : Type} (fitting : List α) (choice : Nat) : Option α :=
  fitting[choice % fitting.length]?

theorem pick_mem {α : Type} {fitting : List α} {choice : Nat} {a : α}
    (h : pick fitting choice = some a) : a ∈ fitting :=
  List.mem_of_getElem? h

theorem pick_eq_none {α : Type} {fitting : List α} {choice : Nat}
    (h : pick fitting choice = none) : fitting = [] := by
  cases fitting with
  | nil => rfl
  | cons a rest =>
      have hlt := Nat.mod_lt choice (Nat.succ_pos rest.length)
      exact absurd (List.getElem?_eq_none_iff.mp h) (Nat.not_le_of_lt hlt)

/-- The request a controller has issued: the meta data of its command and its address. -/
structure Issued where
  isOpening : Bool
  scope : Nat
  addrVec : AddrVec

/-- The levels of the device, with `m_organization.count`. -/
structure Levels where
  rank : Nat
  bank : Nat
  row : Nat
  count : List Nat

namespace Levels

variable (lv : Levels)

/-- `flat_bank_id`; the second component of the loop is `accumulated_dimension`. -/
def flatBankId (addrVec : AddrVec) : Int :=
  ((List.range' lv.rank (lv.bank - lv.rank)).reverse.foldl
    (fun (flat, dimension) i =>
      let dimension := dimension * (lv.count.getD (i + 1) 0 : Int)
      (flat + addrVec.at i * dimension, dimension)) (addrVec.at lv.bank, (1 : Int))).1

def activation (request : Option Issued) : Option AddrVec :=
  match request with
  | some req => if req.isOpening ∧ req.scope = lv.row then some req.addrVec else none
  | none => none

/-- What a call adds to the log of a bank: a reset, then the activation, then the refreshes. -/
def watch (resets : Bool) (request : Option Issued) (vrrs : List AddrVec) (bank : Nat)
    (log : List (Event Int)) : List (Event Int) :=
  let log := if resets then .reset :: log else log
  let log :=
    match lv.activation request with
    | some v => if lv.flatBankId v = bank then .hit (v.at lv.row) :: log else log
    | none => log
  vrrs.foldl
    (fun log v => if lv.flatBankId v = bank then .clear (v.at lv.row) :: log else log) log

variable {lv}

theorem watch_none {resets : Bool} {request : Option Issued} (h : lv.activation request = none)
    (bank : Nat) (log : List (Event Int)) :
    lv.watch resets request [] bank log = if resets then .reset :: log else log := by
  rw [watch, h]
  rfl

theorem watch_hit {resets : Bool} {request : Option Issued} {v : AddrVec}
    (h : lv.activation request = some v) {bank : Nat} (hbank : lv.flatBankId v = bank)
    (log : List (Event Int)) :
    lv.watch resets request [] bank log =
      .hit (v.at lv.row) :: if resets then .reset :: log else log := by
  rw [watch, h]
  exact if_pos hbank

theorem watch_refresh {resets : Bool} {request : Option Issued} {v : AddrVec}
    (h : lv.activation request = some v) {bank : Nat} (hbank : lv.flatBankId v = bank)
    (log : List (Event Int)) :
    lv.watch resets request [v] bank log =
      .clear (v.at lv.row) :: .hit (v.at lv.row) :: if resets then .reset :: log else log := by
  rw [watch, h]
  dsimp only
  rw [List.foldl_cons, List.foldl_nil, if_pos hbank, if_pos hbank]

theorem watch_ne {resets : Bool} {request : Option Issued} {v : AddrVec}
    (h : lv.activation request = some v) {vrrs : List AddrVec} (hvrrs : ∀ w ∈ vrrs, w = v)
    {bank : Nat} (hbank : lv.flatBankId v ≠ bank) (log : List (Event Int)) :
    lv.watch resets request vrrs bank log = if resets then .reset :: log else log := by
  rw [watch, h]
  dsimp only
  rw [if_neg hbank]
  induction vrrs with
  | nil => rfl
  | cons w vrrs ih =>
      obtain rfl := hvrrs w List.mem_cons_self
      rw [List.foldl_cons, if_neg hbank]
      exact ih fun w hw => hvrrs w (List.mem_cons_of_mem _ hw)

end Levels

end AimSimulator.Plugin
