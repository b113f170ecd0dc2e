import AimSimulator.Lib.TimedRuns
import AimSimulator.Analysis.StandbyTotals
import Mathlib.Data.Int.Range
/-!
# Standby totals and the lifetimes of banks

The replay of a GDDR6 trace keeps the open banks in a mask of 16 bits.  A command of one bank
uses the bit of its bank number, whatever its bank group, and a command of a bank group uses
the four bits of the group.  The standby totals are therefore those of another trace, in which
every command of one bank is in bank group 0.
-/

namespace AimSimulator.Analysis.GDDR6

open Dram Dram.GDDR6 TimedRuns

/-! ## The banks -/

/-- The 16 banks of a channel by bank group and bank, with those that are open. -/
abbrev Banks := Fin 4 → Fin 4 → Bool

def banksAfter (banks : Banks) (e : TimedCommand Cmd) : Banks := fun g b =>
  let inGroup : Bool := e.addrVec.at bankgroup = g
  let here : Bool := inGroup && (e.addrVec.at bank = b : Bool)
  match e.cmd with
  | .ACT16 => true
  | .PREA | .WRA16 => false
  | .ACT4 => banks g b || inGroup
  | .PRE4 => banks g b && !inGroup
  | .ACT => banks g b || here
  | .PRE | .RDA | .WRA => banks g b && !here
  | _ => banks g b

theorem banksAfter_rows (banks : Banks) (e : TimedCommand Cmd) (g b : Fin 4) (r : BankRows St)
    (h : banks g b = decide (r.1 = .Opened)) :
    banksAfter banks e g b = decide ((rowEffect e.cmd e.addrVec g b r).1 = .Opened) := by
  unfold banksAfter rowEffect
  cases e.cmd with
  | ACT4 | PRE4 =>
      by_cases hg : e.addrVec.at bankgroup = g <;> simp [hg, h, BankRows.openRow, BankRows.close]
  | ACT | PRE | RDA | WRA =>
      by_cases hg : e.addrVec.at bankgroup = g <;> by_cases hb : e.addrVec.at bank = b <;>
        simp [hg, hb, h, BankRows.openRow, BankRows.close]
  | _ => first | exact h | rfl

def HasOpen (V : Timing → Int) (dev : (model V).Dev) (ch : Nat) (banks : Banks) : Prop :=
  ∀ g b : Fin 4, ∃ r, (model V).rowsAt dev ch [g, b] = some r ∧ banks g b = decide (r.1 = .Opened)

theorem HasOpen.issue {V : Timing → Int} {dev : (model V).Dev} {ch : Nat} {banks : Banks}
    (h : HasOpen V dev ch banks) {e : TimedCommand Cmd} (hch : e.addrVec.at channel = ch) :
    HasOpen V ((model V).issueCommand { dev with clk := e.clk } e.cmd e.addrVec) ch
      (banksAfter banks e) := by
  intro g b
  obtain ⟨r, hr, hbank⟩ := h g b
  have hsame : (model V).rowsAt { dev with clk := e.clk } ch [g, b] = some r := hr
  have hissued := (model V).rowsAt_issueCommand (actsBy V) { dev with clk := e.clk } e.cmd
    e.addrVec ch [g, b]
  rw [hsame, Option.map_some, if_pos hch] at hissued
  have heffect := touch_rowEffect (V := V) e.cmd e.addrVec g b r
  exact ⟨_, hissued.trans (congrArg some heffect), banksAfter_rows banks e g b r hbank⟩

/-- The lifetimes are those of the device: the banks that its channel has open are those that the
commands issued to the channel leave open. -/
theorem HasOpen.run {V : Timing → Int} {ch : Nat} {trace : List (TimedCommand Cmd)}
    (hch : ∀ e ∈ trace, e.addrVec.at channel = ch) {dev : (model V).Dev} {banks : Banks}
    (h : HasOpen V dev ch banks) :
    HasOpen V (trace.foldl
      (fun dev e => (model V).issueCommand { dev with clk := e.clk } e.cmd e.addrVec) dev) ch
      (trace.foldl banksAfter banks) := by
  induction trace generalizing dev banks with
  | nil => exact h
  | cons e trace ih =>
      obtain ⟨hhead, htail⟩ := List.forall_mem_cons.mp hch
      exact ih htail (h.issue hhead)

def someOpen (banks : Banks) : Bool := decide (∃ g b, banks g b = true)

def allClosed : Banks := fun _ _ => false

/-- The address of a command names one of the four bank groups, and one of the four banks of it,
where the command is one of a bank group or of a bank. -/
def Addressed (e : TimedCommand Cmd) : Prop :=
  (e.cmd ∈ [.ACT, .PRE, .RDA, .WRA] → (0 ≤ e.addrVec.at bankgroup ∧ e.addrVec.at bankgroup < 4) ∧
    0 ≤ e.addrVec.at bank ∧ e.addrVec.at bank < 4) ∧
  (e.cmd ∈ [.ACT4, .PRE4] → 0 ≤ e.addrVec.at bankgroup ∧ e.addrVec.at bankgroup < 4)

instance (e : TimedCommand Cmd) : Decidable (Addressed e) := inferInstanceAs (Decidable (_ ∧ _))

theorem Addressed.inRange {e : TimedCommand Cmd} (h : Addressed e) : InRange e.cmd e.addrVec := by
  refine ⟨fun hmem => ?_, fun hmem => ?_⟩
  · obtain ⟨-, hpos, hlt⟩ := h.1 hmem
    exact ⟨hpos, by omega⟩
  · obtain ⟨hpos, hlt⟩ := h.2 hmem
    exact ⟨hpos, by omega⟩

/-- The address of the bank with the same number in bank group 0. -/
def firstBankgroup (a : AddrVec) : AddrVec := List.set a bankgroup 0

/-- A command as the replay reads it: one of a single bank is in bank group 0, and a refresh closes
all banks. -/
def misread (e : TimedCommand Cmd) : TimedCommand Cmd :=
  match e.cmd with
  | .ACT | .PRE | .RDA | .WRA => { e with addrVec := firstBankgroup e.addrVec }
  | .REFab => { e with cmd := .PREA }
  | _ => e

def misreadAfter (banks : Banks) (e : TimedCommand Cmd) : Banks := banksAfter banks (misread e)

def openTime (trace : List (TimedCommand Cmd)) (stop : Int) : Int :=
  timeWhile TimedCommand.clk banksAfter someOpen allClosed 0 trace stop

def misreadTime (trace : List (TimedCommand Cmd)) (stop : Int) : Int :=
  timeWhile TimedCommand.clk misreadAfter someOpen allClosed 0 trace stop

/-- Some bank is open at a clock where some bank of the misread trace is, and only there. -/
def ShowsOpen (trace : List (TimedCommand Cmd)) (t : Int) : Prop :=
  someOpen (stateAt TimedCommand.clk banksAfter allClosed trace t) =
    someOpen (stateAt TimedCommand.clk misreadAfter allClosed trace t)

instance (trace : List (TimedCommand Cmd)) (t : Int) : Decidable (ShowsOpen trace t) :=
  inferInstanceAs (Decidable (_ = _))

/-! ## The mask -/

def maskAfter (mask : Nat) (e : TimedCommand Cmd) : Nat := (rowOp e.cmd e.addrVec).replay mask

def maskedTime (trace : List (TimedCommand Cmd)) (stop : Int) : Int :=
  timeWhile TimedCommand.clk maskAfter (· != 0) 0 0 trace stop

/-- Bit `4g + b` of the mask is bank `b` of bank group `g`. -/
structure Aligns (mask : Nat) (banks : Banks) : Prop where
  bits : ∀ g b : Fin 4, mask.testBit (4 * g + b) = banks g b
  lt : mask < 2 ^ 16

theorem Aligns.ne_zero {mask : Nat} {banks : Banks} (h : Aligns mask banks) :
    (mask != 0) = someOpen banks := by
  by_cases hopen : ∃ g b, banks g b = true
  · obtain ⟨g, b, hgb⟩ := hopen
    have hne : mask ≠ 0 := by
      intro hzero
      have hbit := h.bits g b
      rw [hzero, Nat.zero_testBit, hgb] at hbit
      cases hbit
    rw [someOpen, decide_eq_true ⟨g, b, hgb⟩, bne_iff_ne.mpr hne]
  · have hzero : mask = 0 := by
      refine Nat.eq_of_testBit_eq fun i => ?_
      rw [Nat.zero_testBit]
      by_cases hi : i < 16
      · have hbit := h.bits ⟨i / 4, by omega⟩ ⟨i % 4, by omega⟩
        rw [Nat.div_add_mod] at hbit
        rw [hbit]
        exact Bool.eq_false_iff.mpr fun hgb => hopen ⟨_, _, hgb⟩
      · exact Nat.testBit_lt_two_pow (Nat.lt_of_lt_of_le h.lt
          (Nat.pow_le_pow_right (by omega) (Nat.le_of_not_lt hi)))
    rw [someOpen, decide_eq_false hopen, hzero]
    rfl

theorem testBit_bank {bank : Int} (h : 0 ≤ bank ∧ bank < 4) (g b : Fin 4) :
    (bankBit bank).toNat.testBit (4 * g + b) = (decide ((0 : Int) = g) && decide (bank = b)) := by
  obtain rfl | rfl | rfl | rfl : bank = 0 ∨ bank = 1 ∨ bank = 2 ∨ bank = 3 := by omega
  all_goals revert g b; decide

theorem testBit_bankgroup {bankgroupId : Int} (h : 0 ≤ bankgroupId ∧ bankgroupId < 4)
    (g b : Fin 4) :
    (bankgroupBits bankgroupId).toNat.testBit (4 * g + b) = decide (bankgroupId = g) := by
  obtain rfl | rfl | rfl | rfl :
    bankgroupId = 0 ∨ bankgroupId = 1 ∨ bankgroupId = 2 ∨ bankgroupId = 3 := by omega
  all_goals revert g b; decide

theorem andNot_lt {a : Nat} (h : a < 2 ^ 16) (b : Nat) : andNot a b < 2 ^ 16 :=
  Nat.xor_lt_two_pow h (Nat.lt_of_le_of_lt Nat.and_le_left h)

theorem at_firstBankgroup {a : AddrVec} (h : 0 ≤ a.at bankgroup) :
    (firstBankgroup a).at bankgroup = 0 ∧ (firstBankgroup a).at bank = a.at bank := by
  match a with
  | [] | [_] => cases h
  | _ :: _ :: _ => exact ⟨rfl, rfl⟩

theorem Aligns.step {mask : Nat} {banks : Banks} (h : Aligns mask banks) {e : TimedCommand Cmd}
    (haddr : Addressed e) : Aligns (maskAfter mask e) (misreadAfter banks e) := by
  obtain ⟨clk, cmd, a⟩ := e
  obtain ⟨hbits, hlt⟩ := h
  obtain ⟨hbank, hgroup⟩ := haddr
  dsimp only at hbank hgroup
  have hone : cmd ∈ [Cmd.ACT, .PRE, .RDA, .WRA] → ∀ g b : Fin 4,
      (bankBit (a.at bank)).toNat.testBit (4 * g + b) =
        (decide ((firstBankgroup a).at bankgroup = g) &&
          decide ((firstBankgroup a).at bank = b)) := by
    intro hmem g b
    obtain ⟨hzero, hsame⟩ := at_firstBankgroup (hbank hmem).1.1
    rw [testBit_bank (hbank hmem).2, hzero, hsame]
  have hfour : cmd ∈ [Cmd.ACT4, .PRE4] → ∀ g b : Fin 4,
      (bankgroupBits (a.at bankgroup)).toNat.testBit (4 * g + b) =
        decide (a.at bankgroup = g) := fun hmem => testBit_bankgroup (hgroup hmem)
  have hopens : ∀ bits : BitVec 16, mask ||| bits.toNat < 2 ^ 16 := fun bits =>
    Nat.or_lt_two_pow hlt bits.isLt
  cases cmd with
  | ACT16 =>
      have hall : ∀ g b : Fin 4, Nat.testBit 0xFFFF (4 * g + b) = true := by decide
      exact ⟨hall, show 0xFFFF < 2 ^ 16 by decide⟩
  | PREA | WRA16 | REFab => exact ⟨fun g b => Nat.zero_testBit _, show 0 < 2 ^ 16 by decide⟩
  | ACT =>
      refine ⟨fun g b => ?_, hopens _⟩
      change (mask ||| (bankBit (a.at bank)).toNat).testBit _ = _
      rw [Nat.testBit_or, hbits, hone (by decide)]
      rfl
  | PRE | RDA | WRA =>
      refine ⟨fun g b => ?_, andNot_lt hlt _⟩
      change (andNot mask (bankBit (a.at bank)).toNat).testBit _ = _
      rw [testBit_andNot, hbits, hone (by decide)]
      rfl
  | ACT4 =>
      refine ⟨fun g b => ?_, hopens _⟩
      change (mask ||| (bankgroupBits (a.at bankgroup)).toNat).testBit _ = _
      rw [Nat.testBit_or, hbits, hfour (by decide)]
      rfl
  | PRE4 =>
      refine ⟨fun g b => ?_, andNot_lt hlt _⟩
      change (andNot mask (bankgroupBits (a.at bankgroup)).toNat).testBit _ = _
      rw [testBit_andNot, hbits, hfour (by decide)]
      rfl
  | _ => exact ⟨hbits, hlt⟩

theorem maskedTime_eq {trace : List (TimedCommand Cmd)} (haddr : ∀ e ∈ trace, Addressed e)
    (stop : Int) : maskedTime trace stop = misreadTime trace stop := by
  have hstart : Aligns 0 allClosed := ⟨fun _ _ => Nat.zero_testBit _, by decide⟩
  exact timeWhile_simulates (fun _ _ e he h => h.step (haddr e he)) (fun _ _ h => h.ne_zero)
    hstart 0 stop

/-! ## The replay of a trace -/

variable (tracePrefix : String) (nRAS nRC : Int)

theorem replayEvent_ok {r : Replay} {e : TimedCommand Cmd} (hclk : r.previousClock ≤ e.clk)
    (haddr : Addressed e) :
    ∃ r', (traceSpec tracePrefix nRAS nRC).replayEvent r (e.event commandName) = .ok r' ∧
      r'.openBanks = maskAfter r.openBanks e ∧ r'.previousClock = e.clk ∧
      r'.totals.actStbyCycles = r.totals.actStbyCycles +
        (if (r.openBanks != 0) then e.clk - r.previousClock else 0) ∧
      r'.totals.preStbyCycles = r.totals.preStbyCycles +
        (e.clk - r.previousClock - (if (r.openBanks != 0) then e.clk - r.previousClock else 0)) := by
  obtain ⟨totals, hok, hact, hpre⟩ := TraceSpec.accountInterval_ok
    (traceSpec tracePrefix nRAS nRC) (Int.sub_nonneg_of_le hclk) r.totals r.openBanks
    r.previousActivities
  have hop := (recordedBy (fun _ => 0) tracePrefix nRAS nRC).replay e.cmd e.addrVec haddr.inRange
  obtain ⟨r', hopen, hsame⟩ := TraceSpec.openAndClose_ok
    (r := { r with totals, previousActivities := [] }) hop
  refine ⟨{ r' with
    previousClock := e.clk
    previousActivities := r'.previousActivities ++
      (traceSpec tracePrefix nRAS nRC).dataActivities (commandName e.cmd) }, ?_, ?_, rfl, ?_, ?_⟩
  · unfold TraceSpec.replayEvent TimedCommand.event
    dsimp only
    rw [hok]
    change ((traceSpec tracePrefix nRAS nRC).openAndClose _ _ _).bind _ = _
    rw [hopen]
    rfl
  · exact hsame.openBanks
  · refine hsame.act.trans (hact.trans ?_)
    by_cases hzero : r.openBanks = 0 <;> simp [hzero]
  · refine hsame.pre.trans (hpre.trans ?_)
    by_cases hzero : r.openBanks = 0 <;> simp [hzero]

/-- The rest of a trace: the events that follow a state of the replay, up to the end. -/
theorem replay_rest {trace : List (TimedCommand Cmd)} {stop : Int} (haddr : ∀ e ∈ trace, Addressed e)
    {r : Replay} (hordered : Ordered TimedCommand.clk r.previousClock trace stop) :
    ∃ r' totals, (trace.map (TimedCommand.event commandName)).foldlM
        (traceSpec tracePrefix nRAS nRC).replayEvent r = .ok r' ∧
      (traceSpec tracePrefix nRAS nRC).accountInterval r'.totals (stop - r'.previousClock)
        r'.openBanks r'.previousActivities = .ok totals ∧
      totals.actStbyCycles = r.totals.actStbyCycles +
        timeWhile TimedCommand.clk maskAfter (· != 0) r.openBanks r.previousClock trace stop ∧
      totals.preStbyCycles = r.totals.preStbyCycles + (stop - r.previousClock -
        timeWhile TimedCommand.clk maskAfter (· != 0) r.openBanks r.previousClock trace stop) := by
  induction trace generalizing r with
  | nil =>
      obtain ⟨totals, hok, hact, hpre⟩ := TraceSpec.accountInterval_ok
        (traceSpec tracePrefix nRAS nRC) (Int.sub_nonneg_of_le hordered) r.totals r.openBanks
        r.previousActivities
      refine ⟨r, totals, rfl, hok, hact.trans ?_, hpre.trans ?_⟩
      all_goals
        rw [timeWhile]
        by_cases hzero : r.openBanks = 0 <;> simp [hzero]
  | cons e trace ih =>
      obtain ⟨hhead, htail⟩ := List.forall_mem_cons.mp haddr
      obtain ⟨hclk, hrest⟩ := hordered
      obtain ⟨r₁, hok₁, hopen, hclk₁, hact₁, hpre₁⟩ :=
        replayEvent_ok tracePrefix nRAS nRC hclk hhead
      obtain ⟨r', totals, hok, hfinish, hact, hpre⟩ := ih htail (r := r₁) (hclk₁ ▸ hrest)
      rw [hopen, hclk₁] at hact hpre
      refine ⟨r', totals, ?_, hfinish, ?_, ?_⟩
      · rw [List.map_cons, List.foldlM_cons, hok₁]
        exact hok
      · rw [hact, hact₁, timeWhile]
        omega
      · rw [hpre, hpre₁, timeWhile]
        omega

theorem traceBasedActivityCycles_ok (path : String) {trace : List (TimedCommand Cmd)} {stop : Int}
    (hne : trace ≠ []) (haddr : ∀ e ∈ trace, Addressed e)
    (hordered : Ordered TimedCommand.clk 0 trace stop) :
    ∃ totals, (traceSpec tracePrefix nRAS nRC).traceBasedActivityCycles stop
        [(path, trace.map (TimedCommand.event commandName))] = .ok totals ∧
      totals.actStbyCycles = maskedTime trace stop ∧
      totals.preStbyCycles = stop - maskedTime trace stop := by
  obtain ⟨r', totals, hok, hfinish, hact, hpre⟩ :=
    replay_rest tracePrefix nRAS nRC haddr (r := { totals := {} }) hordered
  have hmap : trace.map (TimedCommand.event commandName) ≠ [] := mt List.map_eq_nil_iff.mp hne
  refine ⟨totals, ?_, hact.trans (Int.zero_add _), hpre.trans ?_⟩
  · unfold TraceSpec.traceBasedActivityCycles
    rw [if_neg (List.cons_ne_nil _ _), if_neg (fun h => nomatch h.1), List.foldlM_cons]
    have hfile : (traceSpec tracePrefix nRAS nRC).replayFile stop {}
        (path, trace.map (TimedCommand.event commandName)) = .ok totals := by
      unfold TraceSpec.replayFile parseCommandTrace
      dsimp only
      rw [if_neg hmap]
      change (if trace.map (TimedCommand.event commandName) = [] then _ else _) = _
      rw [if_neg hmap, hok]
      exact hfinish
    rw [hfile]
    rfl
  · rw [Int.sub_zero]
    exact Int.zero_add _

theorem traceBasedActivityCycles_nil (path : String) (stop : Int) :
    ∃ e, (traceSpec tracePrefix nRAS nRC).traceBasedActivityCycles stop [(path, [])] = .error e :=
  ⟨_, rfl⟩

/-! ## Lifetimes -/

/-- The replay returns the time in which a bank is open, and the rest of the run. -/
def ReportsLifetimes (path : String) (trace : List (TimedCommand Cmd)) (stop : Int) : Prop :=
  ∃ totals, (traceSpec tracePrefix nRAS nRC).traceBasedActivityCycles stop
      [(path, trace.map (TimedCommand.event commandName))] = .ok totals ∧
    totals.actStbyCycles = openTime trace stop ∧ totals.preStbyCycles = stop - openTime trace stop

/-- The replay reports the lifetimes of the banks exactly where the banks of the misread trace are
open for the same time. -/
theorem reportsLifetimes_iff (path : String) {trace : List (TimedCommand Cmd)} {stop : Int}
    (haddr : ∀ e ∈ trace, Addressed e) (hordered : Ordered TimedCommand.clk 0 trace stop) :
    ReportsLifetimes tracePrefix nRAS nRC path trace stop ↔
      trace ≠ [] ∧ openTime trace stop = misreadTime trace stop := by
  unfold ReportsLifetimes
  by_cases hempty : trace = []
  · subst hempty
    obtain ⟨e, he⟩ := traceBasedActivityCycles_nil tracePrefix nRAS nRC path stop
    rw [List.map_nil, he]
    exact ⟨fun ⟨_, h, _⟩ => (nomatch h), fun h => absurd rfl h.1⟩
  · obtain ⟨totals, hok, hact, hpre⟩ :=
      traceBasedActivityCycles_ok tracePrefix nRAS nRC path hempty haddr hordered
    rw [maskedTime_eq haddr] at hact hpre
    constructor
    · rintro ⟨totals', hok', hact', -⟩
      obtain rfl := Except.ok.inj (hok.symm.trans hok')
      exact ⟨hempty, hact'.symm.trans hact⟩
    · rintro ⟨-, hequal⟩
      exact ⟨totals, hok, hequal ▸ hact, hequal ▸ hpre⟩

/-- The replay reports the lifetimes of the banks where at each clock some bank is open if and only
if some bank of the misread trace is; and that is what it takes for it to report them at whatever
clock the run ends. -/
theorem standby_lifetimes_iff (path : String) {trace : List (TimedCommand Cmd)} {stop : Int}
    (haddr : ∀ e ∈ trace, Addressed e) (hordered : Ordered TimedCommand.clk 0 trace stop) :
    (trace ≠ [] → (∀ t, 0 ≤ t → t < stop → ShowsOpen trace t) →
      ReportsLifetimes tracePrefix nRAS nRC path trace stop) ∧
    ((∀ t, 0 ≤ t → t ≤ stop → upTo TimedCommand.clk t trace ≠ [] →
        ReportsLifetimes tracePrefix nRAS nRC path (upTo TimedCommand.clk t trace) t) ↔
      ∀ t, 0 ≤ t → t < stop → ShowsOpen trace t) := by
  have hcut : ∀ t, 0 ≤ t → (ReportsLifetimes tracePrefix nRAS nRC path
      (upTo TimedCommand.clk t trace) t ↔ upTo TimedCommand.clk t trace ≠ [] ∧
        openTime (upTo TimedCommand.clk t trace) t =
          misreadTime (upTo TimedCommand.clk t trace) t) := fun t ht =>
    reportsLifetimes_iff tracePrefix nRAS nRC path
      (fun e he => haddr e (List.mem_filter.mp he).1) (hordered.upTo ht)
  have htimes : (∀ t, 0 ≤ t → t ≤ stop → openTime (upTo TimedCommand.clk t trace) t =
      misreadTime (upTo TimedCommand.clk t trace) t) ↔
        ∀ t, 0 ≤ t → t < stop → ShowsOpen trace t :=
    timeWhile_upTo_eq_iff allClosed allClosed hordered
  obtain ⟨hstop, hwhole⟩ := hordered.upTo_stop
  have hreports : (∀ t, 0 ≤ t → t ≤ stop → upTo TimedCommand.clk t trace ≠ [] →
      ReportsLifetimes tracePrefix nRAS nRC path (upTo TimedCommand.clk t trace) t) ↔
      ∀ t, 0 ≤ t → t < stop → ShowsOpen trace t := by
    refine Iff.trans ⟨fun h t ht hle => ?_, fun h t ht hle hne => ?_⟩ htimes
    · by_cases hne : upTo TimedCommand.clk t trace = []
      · rw [hne]
        rfl
      · exact ((hcut t ht).mp (h t ht hle hne)).2
    · exact (hcut t ht).mpr ⟨hne, h t ht hle⟩
  refine ⟨fun hne hshows => ?_, hreports⟩
  have hend := hreports.mpr hshows stop hstop (Int.le_refl stop)
  rw [hwhole] at hend
  exact hend hne

/-- One bank, open from 10 to 30. -/
theorem standby_lifetimes_one :
    ReportsLifetimes "commands" 54 89 "commands.ch0"
      [⟨10, .ACT, [0, 1, 2, 7, 0]⟩, ⟨30, .PRE, [0, 1, 2, 7, 0]⟩] 50 := by
  refine (standby_lifetimes_iff "commands" 54 89 "commands.ch0" ?_ ?_).1 nofun ?_
  · decide
  · decide
  · decide +kernel

/-- Bank 0 of two bank groups is opened, and closed in one of them. -/
def sharedBit : List (TimedCommand Cmd) :=
  [⟨0, .ACT, [0, 0, 0, 7, 0]⟩, ⟨10, .ACT, [0, 1, 0, 7, 0]⟩, ⟨20, .PRE, [0, 0, 0, 7, 0]⟩]

/-- The precharge of one bank clears the bit of both, so that the open one is not seen. -/
theorem precharge_hides_bank :
    (∀ e ∈ sharedBit, Addressed e) ∧ Ordered TimedCommand.clk 0 sharedBit 30 ∧
      ¬ ReportsLifetimes "commands" 54 89 "commands.ch0" sharedBit 30 := by
  refine ⟨by decide, by decide, ?_⟩
  rintro ⟨totals, hok, hact, -⟩
  have hreturned : ((traceSpec "commands" 54 89).traceBasedActivityCycles 30
      [("commands.ch0", sharedBit.map (TimedCommand.event commandName))]).toOption.map
        Totals.actStbyCycles = some 20 := by decide +kernel
  have hopen : openTime sharedBit 30 = 30 := by decide +kernel
  rw [hok] at hreturned
  have htwenty : totals.actStbyCycles = 20 := Option.some.inj hreturned
  omega

end AimSimulator.Analysis.GDDR6
