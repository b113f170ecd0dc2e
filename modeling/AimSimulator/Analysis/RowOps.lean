import AimSimulator.Lib.Excepts
import AimSimulator.Analysis.ActivityCycles
import AimSimulator.Dram.GDDR6
import AimSimulator.Dram.LPDDR
import Mathlib.Tactic.SplitIfs
/-!
# Open rows in the device and in a replay

What an issued command does to the set of banks that count as open, once in `issue_command`
and once in the replay of the trace.  The two agree on every command but `REFab`, which
closes everything in the replay alone.
-/

namespace AimSimulator.Analysis

open Dram

inductive RowOp
  | openAll (bits : Nat)
  | opens (bits : Nat)
  | closes (bits : Nat)
  | closeAll
  | refresh
  | keep
  deriving DecidableEq

namespace RowOp

def device (mask : Nat) : RowOp → Nat
  | .openAll bits => bits
  | .opens bits => mask ||| bits
  | .closes bits => andNot mask bits
  | .closeAll => 0
  | .refresh | .keep => mask

def replay (mask : Nat) : RowOp → Nat
  | .refresh => 0
  | op => op.device mask

theorem replay_eq_device {op : RowOp} (h : op ≠ .refresh) (mask : Nat) :
    op.replay mask = op.device mask := by
  cases op with
  | refresh => exact absurd rfl h
  | _ => rfl

theorem replay_le {held mask : Nat} (h : ∀ i, held.testBit i = true → mask.testBit i = true)
    (op : RowOp) : ∀ i, (op.replay held).testBit i = true → (op.device mask).testBit i = true := by
  intro i
  have hi := h i
  cases op with
  | openAll bits => exact id
  | opens bits =>
      simp only [replay, device, Nat.testBit_or, Bool.or_eq_true]
      exact Or.imp_left hi
  | closes bits =>
      simp only [replay, device, testBit_andNot, Bool.and_eq_true]
      exact And.imp_left hi
  | closeAll => exact id
  | refresh => simp [replay]
  | keep => exact hi

end RowOp

/-! ## The masks of one address -/

theorem toNat_bankBit {b : Int} (h : 0 ≤ b) (hlt : b < 16) :
    (bankBit b).toNat = 1 <<< b.toNat := by
  have hlt' : b.toNat < 16 := by omega
  rw [bankBit, if_neg (by omega), BitVec.toNat_shiftLeft]
  refine Nat.mod_eq_of_lt ?_
  rw [BitVec.toNat_ofNat, Nat.one_mod_two_pow (by omega), Nat.one_shiftLeft]
  exact Nat.pow_lt_pow_right (by omega) hlt'

namespace TraceSpec

section

variable (spec : TraceSpec) {a : AddrVec}

theorem maskForBank_ok (hcount : spec.allBankCount ≤ 16) (h : 0 ≤ a.at spec.bankIndex)
    (hlt : a.at spec.bankIndex < spec.allBankCount) :
    spec.maskForBank a = .ok (bankBit (a.at spec.bankIndex)).toNat := by
  rw [toNat_bankBit h (by omega)]
  rw [AddrVec.at, List.getD_eq_getElem?_getD] at h hlt ⊢
  unfold maskForBank
  cases hbank : a[spec.bankIndex]? with
  | none =>
      rw [hbank] at h
      exact absurd h (by decide)
  | some b =>
      rw [hbank] at h hlt
      exact if_pos ⟨h, hlt⟩

theorem maskForBank_error
    (h : ¬ (0 ≤ a.at spec.bankIndex ∧ a.at spec.bankIndex < spec.allBankCount)) :
    ∃ e, spec.maskForBank a = .error e := by
  rw [AddrVec.at, List.getD_eq_getElem?_getD] at h
  unfold maskForBank
  cases hbank : a[spec.bankIndex]? with
  | none => exact ⟨_, rfl⟩
  | some b =>
      rw [hbank] at h
      exact ⟨_, if_neg h⟩

theorem maskForBankgroup_ok (hcount : spec.allBankCount ≤ 16) {g : Int}
    (hg : a.at spec.bankgroupIndex = g) (h : 0 ≤ g) (hle : g * 4 + 4 ≤ spec.allBankCount) :
    spec.maskForBankgroup a = .ok (bankBit (g * 4) ||| bankBit (g * 4 + 1) |||
      bankBit (g * 4 + 2) ||| bankBit (g * 4 + 3)).toNat := by
  have hmask : ∀ g : Int, 0 ≤ g → g < 4 → (bankBit (g * 4) ||| bankBit (g * 4 + 1) |||
      bankBit (g * 4 + 2) ||| bankBit (g * 4 + 3)).toNat =
        ((1 <<< 4) - 1) <<< (g * 4).toNat := by
    intro g h h'
    obtain rfl | rfl | rfl | rfl : g = 0 ∨ g = 1 ∨ g = 2 ∨ g = 3 := by omega
    all_goals decide
  rw [hmask g h (by omega)]
  rw [AddrVec.at, List.getD_eq_getElem?_getD] at hg
  unfold maskForBankgroup
  cases hgroup : a[spec.bankgroupIndex]? with
  | none =>
      rw [hgroup] at hg
      subst hg
      exact absurd h (by decide)
  | some b =>
      rw [hgroup] at hg
      obtain rfl : b = g := hg
      exact if_neg (by omega)

theorem maskForBankgroup_error
    (h : ¬ (0 ≤ a.at spec.bankgroupIndex ∧ a.at spec.bankgroupIndex * 4 + 4 ≤ spec.allBankCount)) :
    ∃ e, spec.maskForBankgroup a = .error e := by
  rw [AddrVec.at, List.getD_eq_getElem?_getD] at h
  unfold maskForBankgroup
  cases hgroup : a[spec.bankgroupIndex]? with
  | none => exact ⟨_, rfl⟩
  | some b =>
      rw [hgroup] at h
      exact ⟨_, if_pos (by simp only [Option.getD_some] at h; omega)⟩

theorem mask_error {Cmd : Type} {cmd : Cmd} {banks groups : List Cmd}
    (h : ¬ ((cmd ∈ banks → 0 ≤ a.at spec.bankIndex ∧ a.at spec.bankIndex < spec.allBankCount) ∧
      (cmd ∈ groups → 0 ≤ a.at spec.bankgroupIndex ∧
        a.at spec.bankgroupIndex * 4 + 4 ≤ spec.allBankCount))) :
    (cmd ∈ banks ∧ ∃ e, spec.maskForBank a = .error e) ∨
      (cmd ∈ groups ∧ ∃ e, spec.maskForBankgroup a = .error e) := by
  rw [Classical.not_and_iff_not_or_not, Classical.not_imp, Classical.not_imp] at h
  rcases h with ⟨hmem, hrange⟩ | ⟨hmem, hrange⟩
  · exact .inl ⟨hmem, spec.maskForBank_error hrange⟩
  · exact .inr ⟨hmem, spec.maskForBankgroup_error hrange⟩

end

/-! ## The standby totals -/

/-- A charge changes neither the standby totals nor what the replay holds. -/
structure SameStandby (r r' : Replay) : Prop where
  act : r'.totals.actStbyCycles = r.totals.actStbyCycles
  pre : r'.totals.preStbyCycles = r.totals.preStbyCycles
  openBanks : r'.openBanks = r.openBanks
  previousClock : r'.previousClock = r.previousClock

theorem charge_standby (spec : TraceSpec) (activity : Activity) (banks : Int) (r : Replay) :
    SameStandby r (spec.charge activity banks r) := by
  unfold charge
  split <;> exact ⟨rfl, rfl, rfl, rfl⟩

end TraceSpec

/-! ## Traces of a device -/

structure TimedCommand (Cmd : Type) where
  clk : Int
  cmd : Cmd
  addrVec : AddrVec

def TimedCommand.event {Cmd : Type} (commandName : Cmd → String) (e : TimedCommand Cmd) :
    CommandEvent :=
  ⟨e.clk, commandName e.cmd, e.addrVec⟩

namespace TraceSpec

variable {spec : TraceSpec} {a : AddrVec}

/-- The effect of a trace entry on the open banks, where its address is valid. -/
def rowOp (spec : TraceSpec) (command : String) (address : AddrVec) : Except String RowOp :=
  if command = "ACT16" ∨ command = "ACT8-2" then .ok (.openAll spec.allBankMask)
  else if command = "ACT4" ∨ command = "ACT4-2" then
    (spec.maskForBankgroup address).map .opens
  else if command = "ACT" ∨ command = "ACT-2" then (spec.maskForBank address).map .opens
  else if command ∈ ["PREA", "WRA16", "WRA8"] then .ok .closeAll
  else if command = "PRE4" then (spec.maskForBankgroup address).map .closes
  else if command ∈ ["PRE", "RDA", "WRA"] then (spec.maskForBank address).map .closes
  else if command = "REFab" then .ok .refresh
  else .ok .keep

theorem charge_map {x : Except String Nat} {f : Nat → RowOp} {activity : Activity} {banks : Int}
    {r : Replay} {op : RowOp} (h : x.map f = .ok op) :
    ∃ r', (x.map fun mask => spec.charge activity banks
        { r with openBanks := (f mask).replay r.openBanks }) = .ok r' ∧
      SameStandby { r with openBanks := op.replay r.openBanks } r' := by
  cases x with
  | error e => cases h
  | ok mask =>
      obtain rfl := Except.ok.inj h
      exact ⟨_, rfl, charge_standby ..⟩

theorem openAndClose_ok {r : Replay} {command : String} {op : RowOp}
    (h : spec.rowOp command a = .ok op) :
    ∃ r', spec.openAndClose r command a = .ok r' ∧
      SameStandby { r with openBanks := op.replay r.openBanks } r' := by
  unfold rowOp at h
  unfold openAndClose
  split_ifs at h ⊢
  · obtain rfl := Except.ok.inj h
    exact ⟨_, rfl, charge_standby ..⟩
  · exact charge_map h
  · exact charge_map h
  · obtain rfl := Except.ok.inj h
    exact ⟨_, rfl, charge_standby ..⟩
  · exact charge_map h
  · exact charge_map h
  · obtain rfl := Except.ok.inj h
    exact ⟨_, rfl, rfl, rfl, rfl, rfl⟩
  · obtain rfl := Except.ok.inj h
    exact ⟨_, rfl, rfl, rfl, rfl, rfl⟩

theorem openAndClose_error {r : Replay} {command : String} {e : String}
    (h : spec.rowOp command a = .error e) : spec.openAndClose r command a = .error e := by
  have hmap : ∀ {α : Type} {x : Except String Nat} {f : Nat → RowOp} (g : Nat → α),
      x.map f = .error e → x.map g = .error e := by
    intro α x f g h
    cases x with
    | error e' => exact congrArg _ (Except.error.inj h)
    | ok mask => cases h
  unfold rowOp at h
  unfold openAndClose
  split_ifs at h ⊢
  all_goals exact hmap _ h

end TraceSpec

/-- A replay succeeds on the commands in range and follows the open rows of a device. -/
structure RecordedBy {Cmd : Type} (spec : TraceSpec)
    (openRowsAfter : Cmd → AddrVec → BitVec 16 → BitVec 16) (commandName : Cmd → String)
    (rowOp : Cmd → AddrVec → RowOp) (refreshAll : Cmd) (InRange : Cmd → AddrVec → Prop) :
    Prop where
  refresh : ∀ cmd a, rowOp cmd a = .refresh ↔ cmd = refreshAll
  device : ∀ cmd a mask, (openRowsAfter cmd a mask).toNat = (rowOp cmd a).device mask.toNat
  replay : ∀ cmd a, InRange cmd a → spec.rowOp (commandName cmd) a = .ok (rowOp cmd a)
  error : ∀ cmd a, ¬ InRange cmd a → ∃ e, spec.rowOp (commandName cmd) a = .error e

theorem toNat_and_not (mask bits : BitVec 16) :
    (mask &&& ~~~ bits).toNat = andNot mask.toNat bits.toNat := by
  refine Nat.eq_of_testBit_eq fun i => ?_
  rw [BitVec.toNat_and, Nat.testBit_and, testBit_andNot]
  simp only [BitVec.testBit_toNat, BitVec.getLsbD_not]
  by_cases hi : i < 16
  · rw [decide_eq_true hi, Bool.true_and]
  · rw [BitVec.getLsbD_of_ge mask i (Nat.le_of_not_lt hi), Bool.false_and, Bool.false_and]

/-! ## GDDR6 -/

namespace GDDR6

open Dram.GDDR6

def commandName : Cmd → String
  | .ACT => "ACT" | .PREA => "PREA" | .PRE => "PRE" | .RD => "RD" | .WR => "WR"
  | .RDA => "RDA" | .WRA => "WRA" | .REFab => "REFab" | .REFpb => "REFpb" | .ACT4 => "ACT4"
  | .ACT16 => "ACT16" | .PRE4 => "PRE4" | .MAC => "MAC" | .MAC16 => "MAC16" | .AF16 => "AF16"
  | .EWMUL16 => "EWMUL16" | .RDCP => "RDCP" | .WRCP => "WRCP" | .WRGB => "WRGB"
  | .RDMAC16 => "RDMAC16" | .RDAF16 => "RDAF16" | .WRMAC16 => "WRMAC16" | .WRA16 => "WRA16"
  | .TMOD => "TMOD" | .SYNC => "SYNC" | .EOC => "EOC" | .UNKNOWN => "UNKNOWN"

def traceSpec (tracePrefix : String) (nRAS nRC : Int) : TraceSpec :=
  ⟨tracePrefix, "GDDR6", nRAS, nRC⟩

def rowOp (cmd : Cmd) (a : AddrVec) : RowOp :=
  match cmd with
  | .WRA16 | .PREA => .closeAll
  | .PRE4 => .closes (bankgroupBits (a.at bankgroup)).toNat
  | .PRE | .RDA | .WRA => .closes (bankBit (a.at bank)).toNat
  | .ACT16 => .openAll 0xFFFF
  | .ACT4 => .opens (bankgroupBits (a.at bankgroup)).toNat
  | .ACT => .opens (bankBit (a.at bank)).toNat
  | .REFab => .refresh
  | _ => .keep

/-- The bank or bank group that a command opens or closes is one of the 16 banks. -/
def InRange (cmd : Cmd) (a : AddrVec) : Prop :=
  (cmd ∈ [.ACT, .PRE, .RDA, .WRA] → 0 ≤ a.at bank ∧ a.at bank < 16) ∧
    (cmd ∈ [.ACT4, .PRE4] → 0 ≤ a.at bankgroup ∧ a.at bankgroup * 4 + 4 ≤ 16)

instance (cmd : Cmd) (a : AddrVec) : Decidable (InRange cmd a) :=
  inferInstanceAs (Decidable (_ ∧ _))

section

variable (tracePrefix : String) (nRAS nRC : Int)

theorem maskForBank_ok {a : AddrVec} (h : 0 ≤ a.at bank ∧ a.at bank < 16) :
    (traceSpec tracePrefix nRAS nRC).maskForBank a = .ok (bankBit (a.at bank)).toNat :=
  TraceSpec.maskForBank_ok (traceSpec tracePrefix nRAS nRC) (Nat.le_refl 16) h.1 h.2

theorem maskForBankgroup_ok {a : AddrVec}
    (h : 0 ≤ a.at bankgroup ∧ a.at bankgroup * 4 + 4 ≤ 16) :
    (traceSpec tracePrefix nRAS nRC).maskForBankgroup a =
      .ok (bankgroupBits (a.at bankgroup)).toNat :=
  TraceSpec.maskForBankgroup_ok (traceSpec tracePrefix nRAS nRC) (Nat.le_refl 16) rfl
    h.1 h.2

end

theorem recordedBy (V : Timing → Int) (tracePrefix : String) (nRAS nRC : Int) :
    RecordedBy (traceSpec tracePrefix nRAS nRC) (model V).openRowsAfter commandName rowOp
      .REFab InRange where
  refresh cmd a := by cases cmd <;> simp [rowOp]
  device cmd a mask := by
    cases cmd <;> first | rfl | exact BitVec.toNat_or .. | exact toNat_and_not ..
  replay cmd a h := by
    obtain ⟨hbank, hgroup⟩ := h
    cases cmd
    case ACT =>
      exact congrArg (Except.map RowOp.opens) (maskForBank_ok _ _ _ (hbank (by decide)))
    case PRE | RDA | WRA =>
      exact congrArg (Except.map RowOp.closes) (maskForBank_ok _ _ _ (hbank (by decide)))
    case ACT4 =>
      exact congrArg (Except.map RowOp.opens) (maskForBankgroup_ok _ _ _ (hgroup (by decide)))
    case PRE4 =>
      exact congrArg (Except.map RowOp.closes) (maskForBankgroup_ok _ _ _ (hgroup (by decide)))
    all_goals rfl
  error cmd a h := by
    rcases (traceSpec tracePrefix nRAS nRC).mask_error h with ⟨hmem, e, he⟩ | ⟨hmem, e, he⟩
    · simp only [List.mem_cons, List.not_mem_nil, or_false] at hmem
      rcases hmem with rfl | rfl | rfl | rfl <;> exact ⟨e, Excepts.map_eq_error.mpr he⟩
    · simp only [List.mem_cons, List.not_mem_nil, or_false] at hmem
      rcases hmem with rfl | rfl <;> exact ⟨e, Excepts.map_eq_error.mpr he⟩

end GDDR6

/-! ## LPDDR4 -/

namespace LPDDR4

open Dram.LPDDR

def commandName : Cmd → String
  | .ACT_1 => "ACT-1" | .ACT_2 => "ACT-2" | .PRE => "PRE" | .PREA => "PREA"
  | .CASRD => "CASRD" | .CASWR => "CASWR" | .CASWRGB => "CASWRGB" | .CASWRMAC8 => "CASWRMAC8"
  | .CASRDMAC8 => "CASRDMAC8" | .CASRDAF8 => "CASRDAF8" | .CASWRA8 => "CASWRA8" | .RD => "RD"
  | .WR => "WR" | .RDA => "RDA" | .WRA => "WRA" | .REFab => "REFab" | .REFpb => "REFpb"
  | .RFMab => "RFMab" | .RFMpb => "RFMpb" | .ACT4_1 => "ACT4-1" | .ACT8_1 => "ACT8-1"
  | .ACT4_2 => "ACT4-2" | .ACT8_2 => "ACT8-2" | .PRE4 => "PRE4" | .MAC => "MAC"
  | .MAC8 => "MAC8" | .AF8 => "AF8" | .EWMUL8 => "EWMUL8" | .RDCP => "RDCP" | .WRCP => "WRCP"
  | .WRGB => "WRGB" | .RDMAC8 => "RDMAC8" | .RDAF8 => "RDAF8" | .WRMAC8 => "WRMAC8"
  | .WRA8 => "WRA8" | .TMOD => "TMOD" | .SYNC => "SYNC" | .EOC => "EOC"
  | .UNKNOWN => "UNKNOWN"

def traceSpec (tracePrefix : String) (nRAS nRC : Int) : TraceSpec :=
  ⟨tracePrefix, "LPDDR4", nRAS, nRC⟩

/-- The effect of a command on the open banks, of which there are 8. -/
def rowOp (cmd : Cmd) (a : AddrVec) : RowOp :=
  match cmd with
  | .WRA8 | .PREA => .closeAll
  | .PRE4 => .closes (bankgroupBits (a.at bankgroup)).toNat
  | .PRE | .RDA | .WRA => .closes (bankBit (a.at bank)).toNat
  | .ACT8_2 => .openAll 0xFF
  | .ACT4_2 => .opens (bankgroupBits (a.at bankgroup)).toNat
  | .ACT_2 => .opens (bankBit (a.at bank)).toNat
  | .REFab => .refresh
  | _ => .keep

/-- The bank or bank group that a command opens or closes is one of the 8 banks. -/
def InRange (cmd : Cmd) (a : AddrVec) : Prop :=
  (cmd ∈ [.ACT_2, .PRE, .RDA, .WRA] → 0 ≤ a.at bank ∧ a.at bank < 8) ∧
    (cmd ∈ [.ACT4_2, .PRE4] → 0 ≤ a.at bankgroup ∧ a.at bankgroup * 4 + 4 ≤ 8)

instance (cmd : Cmd) (a : AddrVec) : Decidable (InRange cmd a) :=
  inferInstanceAs (Decidable (_ ∧ _))

section

variable (tracePrefix : String) (nRAS nRC : Int)

theorem maskForBank_ok {a : AddrVec} (h : 0 ≤ a.at bank ∧ a.at bank < 8) :
    (traceSpec tracePrefix nRAS nRC).maskForBank a = .ok (bankBit (a.at bank)).toNat :=
  TraceSpec.maskForBank_ok (traceSpec tracePrefix nRAS nRC) (Nat.le_add_right 8 8) h.1 h.2

theorem maskForBankgroup_ok {a : AddrVec}
    (h : 0 ≤ a.at bankgroup ∧ a.at bankgroup * 4 + 4 ≤ 8) :
    (traceSpec tracePrefix nRAS nRC).maskForBankgroup a =
      .ok (bankgroupBits (a.at bankgroup)).toNat :=
  TraceSpec.maskForBankgroup_ok (traceSpec tracePrefix nRAS nRC) (Nat.le_add_right 8 8)
    rfl h.1 h.2

end

theorem recordedBy (V : Timing → Int) {count : Nat → Int}
    (hbanks : (count bankgroup * count bank).toNat = 8) (tracePrefix : String) (nRAS nRC : Int) :
    RecordedBy (traceSpec tracePrefix nRAS nRC) (model .LPDDR4 count V).openRowsAfter commandName
      rowOp .REFab InRange where
  refresh cmd a := by cases cmd <;> simp [rowOp]
  device cmd a mask := by
    cases cmd
    case ACT8_2 =>
      change (openMask (count bankgroup * count bank).toNat).toNat = 0xFF
      rw [hbanks]
      rfl
    all_goals first | rfl | exact BitVec.toNat_or .. | exact toNat_and_not ..
  replay cmd a h := by
    obtain ⟨hbank, hgroup⟩ := h
    cases cmd
    case ACT_2 =>
      exact congrArg (Except.map RowOp.opens) (maskForBank_ok _ _ _ (hbank (by decide)))
    case PRE | RDA | WRA =>
      exact congrArg (Except.map RowOp.closes) (maskForBank_ok _ _ _ (hbank (by decide)))
    case ACT4_2 =>
      exact congrArg (Except.map RowOp.opens) (maskForBankgroup_ok _ _ _ (hgroup (by decide)))
    case PRE4 =>
      exact congrArg (Except.map RowOp.closes) (maskForBankgroup_ok _ _ _ (hgroup (by decide)))
    all_goals rfl
  error cmd a h := by
    rcases (traceSpec tracePrefix nRAS nRC).mask_error h with ⟨hmem, e, he⟩ | ⟨hmem, e, he⟩
    · simp only [List.mem_cons, List.not_mem_nil, or_false] at hmem
      rcases hmem with rfl | rfl | rfl | rfl <;> exact ⟨e, Excepts.map_eq_error.mpr he⟩
    · simp only [List.mem_cons, List.not_mem_nil, or_false] at hmem
      rcases hmem with rfl | rfl <;> exact ⟨e, Excepts.map_eq_error.mpr he⟩

end LPDDR4

end AimSimulator.Analysis
