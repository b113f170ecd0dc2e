import AimSimulator.Plugin.Activation
import Mathlib.Data.List.AList
import Mathlib.Tactic.Ring
/-!
# Tables of rows for the banks of a rank

What `twice.cpp` and `oracle_rh.cpp` share: the levels of a device with ranks, the flattened
bank id and the slice of a rank, a table of rows for each bank, and the log of the commands a
plugin sees with the victim-row refreshes it requests.
-/

namespace AimSimulator.Plugin

/-- The levels of a device with ranks; the banks of a rank may be in bank groups. -/
structure RankLevels extends Levels where
  bankgroup : Option Nat
  nested : (bankgroup = none ∧ bank = rank + 1) ∨ (bankgroup = some (rank + 1) ∧ bank = rank + 2)
  deeper : bank < row

structure IssuedCommand extends Issued where
  isRefreshing : Bool

namespace RankLevels

variable (lv : RankLevels)

def numRanks : Nat := lv.count.getD lv.rank 0

def numBanksPerRank : Nat :=
  match lv.bankgroup with
  | none => lv.count.getD lv.bank 0
  | some bankgroup => lv.count.getD bankgroup 0 * lv.count.getD lv.bank 0

def InRange (v : AddrVec) : Prop :=
  ∀ level, lv.rank ≤ level → level ≤ lv.bank → 0 ≤ v.at level ∧ v.at level < lv.count.getD level 0

instance (v : AddrVec) : Decidable (lv.InRange v) :=
  decidable_of_iff (∀ level ∈ List.range (lv.bank + 1), lv.rank ≤ level →
      0 ≤ v.at level ∧ v.at level < lv.count.getD level 0)
    ⟨fun h level hle hge => h level (List.mem_range.mpr (Nat.lt_succ_of_le hge)) hle,
      fun h level hmem hle => h level hle (Nat.le_of_lt_succ (List.mem_range.mp hmem))⟩

def rowKey (v : AddrVec) : List Int :=
  v.at lv.row :: (List.range' lv.rank (lv.bank + 1 - lv.rank)).map v.at

def bankOfRank (v : AddrVec) : Int :=
  match lv.bankgroup with
  | none => v.at lv.bank
  | some bankgroup => v.at lv.bank + v.at bankgroup * lv.count.getD lv.bank 0

def InSlice (rank : Int) (bank : Nat) : Prop :=
  rank * lv.numBanksPerRank ≤ bank ∧ bank < (rank + 1) * (lv.numBanksPerRank : Int)

instance (rank : Int) (bank : Nat) : Decidable (lv.InSlice rank bank) :=
  inferInstanceAs (Decidable (_ ∧ _))

/-! ## The flattened bank id -/

variable {lv} {v w : AddrVec}

theorem flatBankId_eq : lv.flatBankId v = lv.bankOfRank v + v.at lv.rank * lv.numBanksPerRank := by
  unfold Levels.flatBankId bankOfRank numBanksPerRank
  rcases lv.nested with ⟨hgroup, hbank⟩ | ⟨hgroup, hbank⟩
  · rw [hgroup, hbank, Nat.add_sub_cancel_left]
    simp [List.range']
  · rw [hgroup, hbank, Nat.add_sub_cancel_left]
    simp only [List.range', List.reverse_cons, List.reverse_nil, List.nil_append, List.cons_append,
      List.foldl_cons, List.foldl_nil]
    push_cast
    ring

theorem digits_inj {a b a' b' n : Int} (ha : 0 ≤ a ∧ a < n) (ha' : 0 ≤ a' ∧ a' < n)
    (h : a + b * n = a' + b' * n) : a = a' ∧ b = b' := by
  have hmod : a = a' :=
    calc a = (a + b * n) % n := by rw [Int.add_mul_emod_self_right, Int.emod_eq_of_lt ha.1 ha.2]
      _ = (a' + b' * n) % n := by rw [h]
      _ = a' := by rw [Int.add_mul_emod_self_right, Int.emod_eq_of_lt ha'.1 ha'.2]
  refine ⟨hmod, ?_⟩
  have hmul : b * n = b' * n := by omega
  exact Int.eq_of_mul_eq_mul_right (by omega) hmul

theorem bankOfRank_lt (hv : lv.InRange v) :
    0 ≤ lv.bankOfRank v ∧ lv.bankOfRank v < lv.numBanksPerRank := by
  unfold bankOfRank numBanksPerRank
  have hbank := hv lv.bank (by rcases lv.nested with ⟨-, h⟩ | ⟨-, h⟩ <;> omega) (Nat.le_refl _)
  rcases lv.nested with ⟨hgroup, -⟩ | ⟨hgroup, hlevel⟩
  · rw [hgroup]
    exact hbank
  · rw [hgroup]
    have hbankgroup := hv (lv.rank + 1) (by omega) (by omega)
    dsimp only
    have hmul : v.at (lv.rank + 1) * lv.count.getD lv.bank 0 + lv.count.getD lv.bank 0 ≤
        (lv.count.getD (lv.rank + 1) 0 : Int) * lv.count.getD lv.bank 0 := by
      rw [← add_one_mul]
      exact Int.mul_le_mul_of_nonneg_right (by omega) (by omega)
    have hnonneg : 0 ≤ v.at (lv.rank + 1) * (lv.count.getD lv.bank 0 : Int) :=
      Int.mul_nonneg hbankgroup.1 (by omega)
    push_cast
    omega

theorem flatBankId_bounds (hv : lv.InRange v) :
    v.at lv.rank * lv.numBanksPerRank ≤ lv.flatBankId v ∧
      lv.flatBankId v < (v.at lv.rank + 1) * lv.numBanksPerRank := by
  have hbank := bankOfRank_lt hv
  rw [flatBankId_eq, add_one_mul]
  omega

theorem flatBankId_lt (hv : lv.InRange v) :
    0 ≤ lv.flatBankId v ∧ (lv.flatBankId v).toNat < lv.numRanks * lv.numBanksPerRank := by
  have hrank := hv lv.rank (Nat.le_refl _)
    (by rcases lv.nested with ⟨-, h⟩ | ⟨-, h⟩ <;> omega)
  obtain ⟨hle, hlt⟩ := flatBankId_bounds hv
  have hnonneg : 0 ≤ v.at lv.rank * (lv.numBanksPerRank : Int) :=
    Int.mul_nonneg hrank.1 (by omega)
  have htop : (v.at lv.rank + 1) * (lv.numBanksPerRank : Int) ≤
      (lv.numRanks : Int) * lv.numBanksPerRank := by
    refine Int.mul_le_mul_of_nonneg_right ?_ (by omega)
    rw [numRanks]
    omega
  refine ⟨by omega, ?_⟩
  have hcast : ((lv.numRanks * lv.numBanksPerRank : Nat) : Int) =
      (lv.numRanks : Int) * lv.numBanksPerRank := Int.natCast_mul ..
  omega

theorem inSlice_flatBankId_iff (hv : lv.InRange v) {rank : Int} :
    lv.InSlice rank (lv.flatBankId v).toNat ↔ v.at lv.rank = rank := by
  have hnonneg := (flatBankId_lt hv).1
  have hbank := bankOfRank_lt hv
  unfold InSlice
  rw [Int.toNat_of_nonneg hnonneg]
  refine ⟨fun ⟨hle, hlt⟩ => ?_, fun h => h ▸ flatBankId_bounds hv⟩
  rw [flatBankId_eq] at hle hlt
  have hpos : (0 : Int) < lv.numBanksPerRank := by omega
  have hbelow : v.at lv.rank < rank + 1 := by
    refine Int.lt_of_mul_lt_mul_right (a := (lv.numBanksPerRank : Int)) ?_ (by omega)
    omega
  have habove : rank < v.at lv.rank + 1 := by
    refine Int.lt_of_mul_lt_mul_right (a := (lv.numBanksPerRank : Int)) ?_ (by omega)
    rw [add_one_mul]
    omega
  omega

theorem rowKey_eq_iff (hv : lv.InRange v) (hw : lv.InRange w) :
    lv.rowKey v = lv.rowKey w ↔ lv.flatBankId v = lv.flatBankId w ∧ v.at lv.row = w.at lv.row := by
  have hlevels : lv.rowKey v = lv.rowKey w ↔
      v.at lv.row = w.at lv.row ∧ ∀ level, lv.rank ≤ level → level ≤ lv.bank →
        v.at level = w.at level := by
    unfold rowKey
    rw [List.cons_eq_cons, List.map_inj_left]
    refine and_congr_right fun _ => forall_congr' fun level => ?_
    rw [List.mem_range'_1, and_imp]
    refine imp_congr_right fun _ => imp_congr_left ?_
    rcases lv.nested with ⟨-, h⟩ | ⟨-, h⟩ <;> omega
  rw [hlevels, and_comm, and_congr_left_iff]
  intro _
  refine ⟨fun h => ?_, fun h => ?_⟩
  · rw [flatBankId_eq, flatBankId_eq]
    unfold bankOfRank
    rcases lv.nested with ⟨hgroup, hlevel⟩ | ⟨hgroup, hlevel⟩
    · rw [hgroup]
      dsimp only
      rw [h lv.bank (by omega) (by omega), h lv.rank (by omega) (by omega)]
    · rw [hgroup]
      dsimp only
      rw [h lv.bank (by omega) (by omega), h lv.rank (by omega) (by omega),
        h (lv.rank + 1) (by omega) (by omega)]
  · rw [flatBankId_eq, flatBankId_eq] at h
    obtain ⟨hbank, hrank⟩ := digits_inj (bankOfRank_lt hv) (bankOfRank_lt hw) h
    unfold bankOfRank at hbank
    intro level hle hge
    rcases lv.nested with ⟨hgroup, hlevel⟩ | ⟨hgroup, hlevel⟩
    · rw [hgroup] at hbank
      rcases (by omega : level = lv.rank ∨ level = lv.bank) with rfl | rfl
      · exact hrank
      · exact hbank
    · rw [hgroup] at hbank
      obtain ⟨hlow, hhigh⟩ := digits_inj (hv lv.bank (by omega) (by omega))
        (hw lv.bank (by omega) (by omega)) hbank
      rcases (by omega : level = lv.rank ∨ level = lv.rank + 1 ∨ level = lv.bank) with
        rfl | rfl | rfl
      · exact hrank
      · exact hhigh
      · exact hlow

/-! ## Tables -/

abbrev RowTable (β : Type) := AList fun _ : Int => β

variable {β : Type} {tables : List (RowTable β)}

variable (lv) in
/-- What the table of its bank holds for the row of an address. -/
def entry (tables : List (RowTable β)) (v : AddrVec) : Option β :=
  tables[(lv.flatBankId v).toNat]?.bind fun table => table.lookup (v.at lv.row)

theorem entry_congr (hv : lv.InRange v) (hw : lv.InRange w) (h : lv.rowKey v = lv.rowKey w) :
    lv.entry tables v = lv.entry tables w := by
  obtain ⟨hbank, hrow⟩ := (rowKey_eq_iff hv hw).mp h
  rw [entry, entry, hbank, hrow]

theorem entry_replicate (n : Nat) (v : AddrVec) :
    lv.entry (List.replicate n (∅ : RowTable β)) v = none := by
  unfold entry
  rw [List.getElem?_replicate]
  split <;> rfl

theorem entry_set (hv : lv.InRange v) (hw : lv.InRange w) {table table' : RowTable β}
    (htable : tables[(lv.flatBankId w).toNat]? = some table)
    (hother : ∀ row, row ≠ w.at lv.row → table'.lookup row = table.lookup row) :
    lv.entry (tables.set (lv.flatBankId w).toNat table') v =
      if lv.rowKey v = lv.rowKey w then table'.lookup (w.at lv.row) else lv.entry tables v := by
  have hlt := (List.getElem?_eq_some_iff.mp htable).1
  have hbank : (lv.flatBankId v).toNat = (lv.flatBankId w).toNat ↔
      lv.flatBankId v = lv.flatBankId w := by
    have := (flatBankId_lt hv).1
    have := (flatBankId_lt hw).1
    omega
  unfold entry
  by_cases hsame : lv.flatBankId v = lv.flatBankId w
  · rw [hsame, List.getElem?_set_self hlt, htable, Option.bind_some, Option.bind_some]
    by_cases hrow : v.at lv.row = w.at lv.row
    · rw [if_pos ((rowKey_eq_iff hv hw).mpr ⟨hsame, hrow⟩), hrow]
    · rw [if_neg fun h => hrow ((rowKey_eq_iff hv hw).mp h).2]
      exact hother _ hrow
  · rw [List.getElem?_set_ne fun h => hsame (hbank.mp h.symm),
      if_neg fun h => hsame ((rowKey_eq_iff hv hw).mp h).1]

/-! ## The commands a plugin sees -/

inductive Seen
  | activation (addrVec : AddrVec)
  | refresh (rank : Int)
  | other

/-- A call of `update`: what it sees, and the victim-row refreshes it requests. -/
structure Record where
  seen : Seen
  vrrs : List AddrVec

variable (lv) in
def seen (request : Option IssuedCommand) : Seen :=
  match request with
  | none => .other
  | some req =>
      if req.isRefreshing ∧ req.scope = lv.rank then .refresh (req.addrVec.at lv.rank)
      else if req.isOpening ∧ req.scope = lv.row then .activation req.addrVec
      else .other

variable (lv) in
def Admits (request : Option IssuedCommand) : Prop :=
  ∀ v, lv.seen request = .activation v → lv.InRange v

instance (request : Option IssuedCommand) : Decidable (lv.Admits request) :=
  match h : lv.seen request with
  | .activation v =>
      decidable_of_iff (lv.InRange v) ⟨fun hv w hw => Seen.activation.inj (h.symm.trans hw) ▸ hv,
        fun hall => hall v h⟩
  | .refresh _ => isTrue fun w hw => by cases h.symm.trans hw
  | .other => isTrue fun w hw => by cases h.symm.trans hw

def Record.isActivation (r : Record) : Bool := r.seen matches .activation _

variable (lv) in
def Record.activates (v : AddrVec) (r : Record) : Bool :=
  match r.seen with
  | .activation w => lv.rowKey w = lv.rowKey v
  | _ => false

variable (lv) in
/-- A call that requests a victim-row refresh for the row of an address. -/
def Record.requests (v : AddrVec) (r : Record) : Bool :=
  r.vrrs.any fun w => lv.rowKey w = lv.rowKey v

end RankLevels

def ddr4Ranks : RankLevels where
  rank := 1
  bank := 3
  row := 4
  count := [1, 2, 4, 4, 65536, 1024]
  bankgroup := some 2
  nested := .inr ⟨rfl, rfl⟩
  deeper := by decide

/-- `ACT` of a row, and `REFab` of a rank. -/
def activateRow (rank bankgroup bank row : Int) : Option IssuedCommand :=
  some ⟨⟨true, 4, [0, rank, bankgroup, bank, row, -1]⟩, false⟩

def refreshRank (rank : Int) : Option IssuedCommand :=
  some ⟨⟨false, 1, [0, rank, -1, -1, -1, -1]⟩, true⟩

end AimSimulator.Plugin
