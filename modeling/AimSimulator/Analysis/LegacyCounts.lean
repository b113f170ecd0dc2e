import Mathlib.Algebra.Order.Ring.Rat
import Mathlib.Tactic.Ring
import AimSimulator.Lib.TimedRuns
import AimSimulator.Analysis.StandbyTotals
/-!
# Activations counted and replayed

`legacy_command_activity_counts` of `scripts/cellar_power_calculator.py` weighs the counts of
the commands of a run.  The replay of the traces of LPDDR4 charges each command a fixed window
for every bank it is about, so that both find the same dynamic cycles, as long as the addresses
are those of the eight banks that the replay knows.
-/

namespace AimSimulator.Analysis

open Dram TimedRuns

/-! ## The counts of the legacy model -/

structure RunStatistics where
  dramImpl : String
  count : String → Int

structure ActivityCounts where
  actCommands : ℚ
  preCommands : ℚ
  readCommands : ℚ
  writeCommands : ℚ
  pimCommands : ℚ

def legacyCommandActivityCounts (stat : RunStatistics) : Except String ActivityCounts :=
  let elementwise : ℚ := (stat.count "EWMUL16" + stat.count "EWMUL8") / 4
  if stat.dramImpl ∈ ["LPDDR4", "LPDDR4X"] then
    let bankCount : ℚ := 8
    .ok
      { actCommands := stat.count "ACT-2" + 4 * stat.count "ACT4-2" + bankCount * stat.count "ACT8-2"
        preCommands := stat.count "PRE" + stat.count "RDA" + stat.count "WRA" +
          4 * stat.count "PRE4" + bankCount * (stat.count "PREA" + stat.count "WRA8")
        readCommands := stat.count "RDCP" + stat.count "RD" + stat.count "RDA" +
          (bankCount * stat.count "AF8" + stat.count "RDMAC8" + stat.count "RDAF8")
        writeCommands := stat.count "WRCP" + stat.count "WR" + stat.count "WRA" +
          (stat.count "WRMAC8" + bankCount * stat.count "WRA8")
        pimCommands := stat.count "MAC" / bankCount + stat.count "MAC8" + elementwise }
  else if stat.dramImpl = "GDDR6" then
    let bankCount : ℚ := 16
    .ok
      { actCommands := stat.count "ACT" + 4 * stat.count "ACT4" + bankCount * stat.count "ACT16"
        preCommands := stat.count "PRE" + stat.count "RDA" + stat.count "WRA" +
          4 * stat.count "PRE4" + bankCount * (stat.count "PREA" + stat.count "WRA16")
        readCommands := stat.count "RDCP" + stat.count "RD" + stat.count "RDA" +
          (bankCount * stat.count "AF16" + stat.count "RDMAC16" + stat.count "RDAF16")
        writeCommands := stat.count "WRCP" + stat.count "WR" + stat.count "WRA" +
          (stat.count "WRMAC16" + bankCount * stat.count "WRA16")
        pimCommands := stat.count "MAC" / bankCount + stat.count "MAC16" + elementwise }
  else .error s!"Unsupported DRAM implementation for legacy energy: {stat.dramImpl}"

/-! ## Dynamic cycles of a replay -/

/-- The activities that the replay charges per interval are not activations or precharges. -/
def Quiet (activities : List (Activity × Int)) : Prop :=
  ∀ a ∈ activities, a.1 ≠ .ACT ∧ a.1 ≠ .PRE

/-- A replay whose dynamic cycles have grown, and which charges none of them per interval. -/
structure Charged (totals : Totals) (act pre : Int) (totals' : Totals) : Prop where
  act : totals'.cycles .ACT = totals.cycles .ACT + act
  pre : totals'.cycles .PRE = totals.cycles .PRE + pre

namespace Charged

variable {totals totals₁ totals₂ : Totals} {act act' pre pre' : Int}

theorem refl (totals : Totals) : Charged totals 0 0 totals :=
  ⟨(Int.add_zero _).symm, (Int.add_zero _).symm⟩

theorem trans (h : Charged totals act pre totals₁) (h' : Charged totals₁ act' pre' totals₂) :
    Charged totals (act + act') (pre + pre') totals₂ :=
  ⟨by rw [h'.act, h.act, Int.add_assoc], by rw [h'.pre, h.pre, Int.add_assoc]⟩

end Charged

namespace TraceSpec

variable {spec : TraceSpec}

theorem foldl_add_quiet {activities : List (Activity × Int)} (h : Quiet activities) (cycles : Int)
    (totals : Totals) :
    Charged totals 0 0 (activities.foldl
      (fun totals (activity, scale) => totals.add activity (scale * cycles)) totals) := by
  induction activities generalizing totals with
  | nil => exact .refl totals
  | cons a activities ih =>
      obtain ⟨⟨hact, hpre⟩, htail⟩ := List.forall_mem_cons.mp h
      have hhead : Charged totals 0 0 (totals.add a.1 (a.2 * cycles)) := by
        refine ⟨?_, ?_⟩
        · rw [Totals.cycles_add, if_neg (Ne.symm hact), Int.add_zero]
        · rw [Totals.cycles_add, if_neg (Ne.symm hpre), Int.add_zero]
      exact hhead.trans (ih htail _)

theorem accountInterval_quiet (spec : TraceSpec) {cycles : Int} (h : 0 ≤ cycles)
    (totals : Totals) (openBanks : Nat) {activities : List (Activity × Int)}
    (hquiet : Quiet activities) :
    ∃ totals', spec.accountInterval totals cycles openBanks activities = .ok totals' ∧
      Charged totals 0 0 totals' := by
  refine ⟨_, if_neg (Int.not_lt.mpr h), ?_⟩
  split
  · obtain ⟨hact, hpre⟩ := foldl_add_quiet hquiet cycles
      { totals with actStbyCycles := totals.actStbyCycles + cycles }
    exact ⟨hact, hpre⟩
  · obtain ⟨hact, hpre⟩ := foldl_add_quiet hquiet cycles
      { totals with preStbyCycles := totals.preStbyCycles + cycles }
    exact ⟨hact, hpre⟩

theorem dataActivities_quiet (spec : TraceSpec) (command : String) :
    Quiet (spec.dataActivities command) := by
  intro a ha
  unfold dataActivities at ha
  simp only [List.mem_append] at ha
  rcases ha with (ha | ha) | ha
  · split at ha
    · obtain rfl := List.mem_singleton.mp ha
      exact ⟨nofun, nofun⟩
    · split at ha
      · obtain rfl := List.mem_singleton.mp ha
        exact ⟨nofun, nofun⟩
      · cases ha
  · split at ha
    · obtain rfl := List.mem_singleton.mp ha
      exact ⟨nofun, nofun⟩
    · split at ha
      · obtain rfl := List.mem_singleton.mp ha
        exact ⟨nofun, nofun⟩
      · cases ha
  · split at ha
    · obtain rfl := List.mem_singleton.mp ha
      exact ⟨nofun, nofun⟩
    · cases ha

end TraceSpec

/-! ## The two generations -/

namespace LPDDR4

open Dram.LPDDR

/-- How many activations of one bank a command is charged as. -/
def actBanks : Cmd → Int
  | .ACT8_2 => 8
  | .ACT4_2 => 4
  | .ACT_2 => 1
  | _ => 0

def preBanks : Cmd → Int
  | .PREA | .WRA8 => 8
  | .PRE4 => 4
  | .PRE | .RDA | .WRA => 1
  | _ => 0

structure Splits (spec : TraceSpec) : Prop where
  idd0 : spec.useIdd0Split = true
  allBankCount : spec.allBankCount = 8
  bankgroupIndex : spec.bankgroupIndex = bankgroup
  bankIndex : spec.bankIndex = bank

theorem splits_of_dramImpl {spec : TraceSpec}
    (h : spec.dramImpl = "LPDDR4" ∨ spec.dramImpl = "LPDDR4X") : Splits spec := by
  obtain ⟨tracePrefix, dramImpl, nRAS, nRC⟩ := spec
  rcases h with rfl | rfl
  · exact ⟨rfl, rfl, rfl, rfl⟩
  · exact ⟨rfl, rfl, rfl, rfl⟩

variable {spec : TraceSpec} {r : Replay}

theorem charge_eq (h : Splits spec) (activity : Activity) (banks : Int) (r : Replay) :
    spec.charge activity banks r =
      { r with totals := r.totals.add activity (banks * spec.dynamicCycles activity) } := by
  rw [TraceSpec.charge, if_pos h.idd0]

theorem charge_act (h : Splits spec) (banks : Int) (mask : Nat) (r : Replay) :
    Charged r.totals (banks * spec.nRAS) 0
        (spec.charge .ACT banks { r with openBanks := mask }).totals ∧
      (spec.charge .ACT banks { r with openBanks := mask }).previousActivities =
        r.previousActivities := by
  rw [charge_eq h]
  exact ⟨⟨by simp [TraceSpec.dynamicCycles], by simp⟩, rfl⟩

theorem charge_pre (h : Splits spec) (banks : Int) (mask : Nat) (r : Replay) :
    Charged r.totals 0 (banks * (spec.nRC - spec.nRAS))
        (spec.charge .PRE banks { r with openBanks := mask }).totals ∧
      (spec.charge .PRE banks { r with openBanks := mask }).previousActivities =
        r.previousActivities := by
  rw [charge_eq h]
  exact ⟨⟨by simp, by simp [TraceSpec.dynamicCycles]⟩, rfl⟩

/-- What a branch of `openAndClose` leaves: the charge of the command, nothing per interval. -/
structure Opened (spec : TraceSpec) (cmd : Cmd) (r r' : Replay) : Prop where
  charged : Charged r.totals (actBanks cmd * spec.nRAS) (preBanks cmd * (spec.nRC - spec.nRAS))
    r'.totals
  activities : r'.previousActivities = r.previousActivities

theorem openAndClose_ok (h : Splits spec) {cmd : Cmd} {a : AddrVec} (hrange : InRange cmd a) :
    ∃ r', spec.openAndClose r (commandName cmd) a = .ok r' ∧ Opened spec cmd r r' := by
  obtain ⟨hbank, hgroup⟩ := hrange
  have hact : ∀ (banks : Int) (mask : Nat), actBanks cmd = banks → preBanks cmd = 0 →
      Opened spec cmd r (spec.charge .ACT banks { r with openBanks := mask }) := by
    rintro _ mask rfl hpre
    obtain ⟨hcharged, hactivities⟩ := charge_act h (actBanks cmd) mask r
    exact ⟨by rw [hpre, Int.zero_mul]; exact hcharged, hactivities⟩
  have hpre : ∀ (banks : Int) (mask : Nat), actBanks cmd = 0 → preBanks cmd = banks →
      Opened spec cmd r (spec.charge .PRE banks { r with openBanks := mask }) := by
    rintro _ mask hact rfl
    obtain ⟨hcharged, hactivities⟩ := charge_pre h (preBanks cmd) mask r
    exact ⟨by rw [hact, Int.zero_mul]; exact hcharged, hactivities⟩
  have hall : (spec.allBankCount : Int) = 8 := congrArg Nat.cast h.allBankCount
  have hone : cmd ∈ [Cmd.ACT_2, .PRE, .RDA, .WRA] → ∃ mask, spec.maskForBank a = .ok mask := by
    intro hmem
    obtain ⟨hpos, hlt⟩ := hbank hmem
    rw [← h.bankIndex] at hpos hlt
    exact ⟨_, spec.maskForBank_ok (by omega) hpos (by omega)⟩
  have hfour : cmd ∈ [Cmd.ACT4_2, .PRE4] → ∃ mask, spec.maskForBankgroup a = .ok mask := by
    intro hmem
    obtain ⟨hpos, hle⟩ := hgroup hmem
    exact ⟨_, spec.maskForBankgroup_ok (by omega) (h.bankgroupIndex ▸ rfl) hpos (by omega)⟩
  cases cmd with
  | ACT8_2 => exact ⟨_, rfl, hact _ _ hall.symm rfl⟩
  | PREA | WRA8 => exact ⟨_, rfl, hpre _ _ rfl hall.symm⟩
  | ACT4_2 =>
      obtain ⟨mask, hmask⟩ := hfour (by decide)
      exact ⟨_, congrArg (Except.map _) hmask, hact _ _ rfl rfl⟩
  | PRE4 =>
      obtain ⟨mask, hmask⟩ := hfour (by decide)
      exact ⟨_, congrArg (Except.map _) hmask, hpre _ _ rfl rfl⟩
  | ACT_2 =>
      obtain ⟨mask, hmask⟩ := hone (by decide)
      exact ⟨_, congrArg (Except.map _) hmask, hact _ _ rfl rfl⟩
  | PRE | RDA | WRA =>
      obtain ⟨mask, hmask⟩ := hone (by decide)
      exact ⟨_, congrArg (Except.map _) hmask, hpre _ _ rfl rfl⟩
  | _ =>
      exact ⟨_, rfl, ⟨by simp [actBanks], by simp [preBanks]⟩, rfl⟩

theorem openAndClose_error (h : Splits spec) {cmd : Cmd} {a : AddrVec} (hrange : ¬ InRange cmd a) :
    ∃ e, ∀ r, spec.openAndClose r (commandName cmd) a = .error e := by
  rw [InRange, Classical.not_and_iff_not_or_not, Classical.not_imp, Classical.not_imp] at hrange
  rcases hrange with ⟨hmem, hout⟩ | ⟨hmem, hout⟩
  · obtain ⟨e, he⟩ := spec.maskForBank_error (a := a) (by rw [h.bankIndex, h.allBankCount]; exact hout)
    refine ⟨e, fun r => ?_⟩
    simp only [List.mem_cons, List.not_mem_nil, or_false] at hmem
    rcases hmem with rfl | rfl | rfl | rfl <;> exact Excepts.map_eq_error.mpr he
  · obtain ⟨e, he⟩ := spec.maskForBankgroup_error (a := a)
      (by rw [h.bankgroupIndex, h.allBankCount]; exact hout)
    refine ⟨e, fun r => ?_⟩
    simp only [List.mem_cons, List.not_mem_nil, or_false] at hmem
    rcases hmem with rfl | rfl <;> exact Excepts.map_eq_error.mpr he

/-! ## The replay of the traces -/

def banksOf (banks : Cmd → Int) (trace : List (TimedCommand Cmd)) : Int :=
  (trace.map fun e => banks e.cmd).sum

/-- The window of the dynamic cycles of activations, and of precharges. -/
abbrev ChargedFor (spec : TraceSpec) (totals : Totals) (act pre : Int) (totals' : Totals) : Prop :=
  Charged totals (act * spec.nRAS) (pre * (spec.nRC - spec.nRAS)) totals'

theorem ChargedFor.of_zero {totals totals' : Totals} (h : Charged totals 0 0 totals') :
    ChargedFor spec totals 0 0 totals' :=
  ⟨by rw [Int.zero_mul]; exact h.act, by rw [Int.zero_mul]; exact h.pre⟩

theorem ChargedFor.trans {totals totals₁ totals₂ : Totals} {act act' pre pre' : Int}
    (h : ChargedFor spec totals act pre totals₁) (h' : ChargedFor spec totals₁ act' pre' totals₂) :
    ChargedFor spec totals (act + act') (pre + pre') totals₂ := by
  have hsum := Charged.trans h h'
  rwa [← Int.add_mul, ← Int.add_mul] at hsum

theorem replayEvent_ok (h : Splits spec) {e : TimedCommand Cmd} (hrange : InRange e.cmd e.addrVec)
    (hclk : r.previousClock ≤ e.clk) (hquiet : Quiet r.previousActivities) :
    ∃ r', spec.replayEvent r (e.event commandName) = .ok r' ∧
      ChargedFor spec r.totals (actBanks e.cmd) (preBanks e.cmd) r'.totals ∧
      r'.previousClock = e.clk ∧ Quiet r'.previousActivities := by
  obtain ⟨totals, hok, hinterval⟩ := spec.accountInterval_quiet
    (Int.sub_nonneg_of_le hclk) r.totals r.openBanks hquiet
  obtain ⟨r', hopen, hcharged, hactivities⟩ :=
    openAndClose_ok (r := { r with totals, previousActivities := [] }) h hrange
  refine ⟨{ r' with
    previousClock := e.clk
    previousActivities := r'.previousActivities ++ spec.dataActivities (commandName e.cmd) },
    ?_, ?_, rfl, ?_⟩
  · unfold TraceSpec.replayEvent TimedCommand.event
    dsimp only
    rw [hok]
    change (spec.openAndClose _ _ _).bind _ = _
    rw [hopen]
    rfl
  · have hsum := hinterval.trans hcharged
    rwa [Int.zero_add, Int.zero_add] at hsum
  · rw [hactivities]
    exact TraceSpec.dataActivities_quiet spec (commandName e.cmd)

theorem replayEvent_error (h : Splits spec) {e : TimedCommand Cmd}
    (hrange : ¬ InRange e.cmd e.addrVec) (hclk : r.previousClock ≤ e.clk) :
    ∃ msg, spec.replayEvent r (e.event commandName) = .error msg := by
  obtain ⟨totals, hok, -⟩ := TraceSpec.accountInterval_ok spec (Int.sub_nonneg_of_le hclk) r.totals
    r.openBanks r.previousActivities
  obtain ⟨msg, hmsg⟩ := openAndClose_error h hrange
  refine ⟨msg, ?_⟩
  unfold TraceSpec.replayEvent TimedCommand.event
  dsimp only
  rw [hok]
  change (spec.openAndClose _ _ _).bind _ = _
  rw [hmsg]
  rfl

theorem replay_ok (h : Splits spec) {trace : List (TimedCommand Cmd)} {stop : Int}
    (hrange : ∀ e ∈ trace, InRange e.cmd e.addrVec)
    (hordered : Ordered TimedCommand.clk r.previousClock trace stop)
    (hquiet : Quiet r.previousActivities) :
    ∃ r' totals, (trace.map (TimedCommand.event commandName)).foldlM spec.replayEvent r = .ok r' ∧
      spec.accountInterval r'.totals (stop - r'.previousClock) r'.openBanks
        r'.previousActivities = .ok totals ∧
      ChargedFor spec r.totals (banksOf actBanks trace) (banksOf preBanks trace) totals := by
  induction trace generalizing r with
  | nil =>
      obtain ⟨totals, hok, hinterval⟩ := spec.accountInterval_quiet
        (Int.sub_nonneg_of_le hordered) r.totals r.openBanks hquiet
      exact ⟨r, totals, rfl, hok, .of_zero hinterval⟩
  | cons e trace ih =>
      obtain ⟨hhead, htail⟩ := List.forall_mem_cons.mp hrange
      obtain ⟨hclk, hrest⟩ := hordered
      obtain ⟨r₁, hok₁, hcharged₁, hclk₁, hquiet₁⟩ := replayEvent_ok h hhead hclk hquiet
      obtain ⟨r', totals, hok, hfinish, hcharged⟩ := ih htail (hclk₁ ▸ hrest) hquiet₁
      refine ⟨r', totals, ?_, hfinish, hcharged₁.trans hcharged⟩
      rw [List.map_cons, List.foldlM_cons, hok₁]
      exact hok

theorem replay_error (h : Splits spec) {trace : List (TimedCommand Cmd)} {stop : Int}
    (hrange : ¬ ∀ e ∈ trace, InRange e.cmd e.addrVec)
    (hordered : Ordered TimedCommand.clk r.previousClock trace stop)
    (hquiet : Quiet r.previousActivities) :
    ∃ msg, (trace.map (TimedCommand.event commandName)).foldlM spec.replayEvent r =
      .error msg := by
  induction trace generalizing r with
  | nil => exact absurd (fun _ he => (List.not_mem_nil he).elim) hrange
  | cons e trace ih =>
      obtain ⟨hclk, hrest⟩ := hordered
      rw [List.map_cons, List.foldlM_cons]
      by_cases hhead : InRange e.cmd e.addrVec
      · obtain ⟨r₁, hok₁, -, hclk₁, hquiet₁⟩ := replayEvent_ok h hhead hclk hquiet
        rw [hok₁]
        exact ih (fun htail => hrange (List.forall_mem_cons.mpr ⟨hhead, htail⟩)) (hclk₁ ▸ hrest)
          hquiet₁
      · obtain ⟨msg, hmsg⟩ := replayEvent_error h hhead hclk
        rw [hmsg]
        exact ⟨msg, rfl⟩

abbrev ChannelTrace := String × List (TimedCommand Cmd)

def ChannelTrace.file (t : ChannelTrace) : String × List CommandEvent :=
  (t.1, t.2.map (TimedCommand.event commandName))

def ChannelTrace.Valid (t : ChannelTrace) (stop : Int) : Prop :=
  t.2 ≠ [] ∧ Ordered TimedCommand.clk 0 t.2 stop

theorem replayFile_eq (t : ChannelTrace) (hne : t.2 ≠ []) (stop : Int) (totals : Totals) :
    spec.replayFile stop totals t.file =
      (t.file.2.foldlM spec.replayEvent { totals } >>= fun r =>
        spec.accountInterval r.totals (stop - r.previousClock) r.openBanks
          r.previousActivities) := by
  have hmap : t.file.2 ≠ [] := mt List.map_eq_nil_iff.mp hne
  unfold TraceSpec.replayFile parseCommandTrace
  rw [if_neg hmap]
  change (if t.file.2 = [] then _ else _) = _
  rw [if_neg hmap]

theorem replayFiles_ok (h : Splits spec) {stop : Int} {traces : List ChannelTrace}
    (hvalid : ∀ t ∈ traces, t.Valid stop)
    (hrange : ∀ t ∈ traces, ∀ e ∈ t.2, InRange e.cmd e.addrVec) (totals : Totals) :
    ∃ totals', (traces.map ChannelTrace.file).foldlM (spec.replayFile stop) totals =
        .ok totals' ∧
      ChargedFor spec totals (banksOf actBanks (traces.flatMap Prod.snd))
        (banksOf preBanks (traces.flatMap Prod.snd)) totals' := by
  have happend : ∀ (banks : Cmd → Int) (xs ys : List (TimedCommand Cmd)),
      banksOf banks (xs ++ ys) = banksOf banks xs + banksOf banks ys := by
    intro banks xs ys
    rw [banksOf, List.map_append, List.sum_append]
    rfl
  induction traces generalizing totals with
  | nil => exact ⟨totals, rfl, .of_zero (.refl totals)⟩
  | cons t traces ih =>
      obtain ⟨⟨hne, hordered⟩, hvalid⟩ := List.forall_mem_cons.mp hvalid
      obtain ⟨hrange₁, hrange⟩ := List.forall_mem_cons.mp hrange
      obtain ⟨r', totals₁, hok₁, hfinish, hcharged₁⟩ :=
        replay_ok h hrange₁ (r := { totals }) hordered nofun
      obtain ⟨totals', hok, hcharged⟩ := ih hvalid hrange totals₁
      refine ⟨totals', ?_, ?_⟩
      · rw [List.map_cons, List.foldlM_cons, replayFile_eq t hne]
        change (((t.2.map (TimedCommand.event commandName)).foldlM spec.replayEvent { totals } >>=
          _) >>= _) = _
        rw [hok₁]
        change (spec.accountInterval _ _ _ _ >>= _) = _
        rw [hfinish]
        exact hok
      · rw [List.flatMap_cons, happend, happend]
        exact hcharged₁.trans hcharged

theorem replayFiles_error (h : Splits spec) {stop : Int} {traces : List ChannelTrace}
    (hvalid : ∀ t ∈ traces, t.Valid stop)
    (hrange : ¬ ∀ t ∈ traces, ∀ e ∈ t.2, InRange e.cmd e.addrVec) (totals : Totals) :
    ∃ msg, (traces.map ChannelTrace.file).foldlM (spec.replayFile stop) totals = .error msg := by
  induction traces generalizing totals with
  | nil => exact absurd (fun _ ht => (List.not_mem_nil ht).elim) hrange
  | cons t traces ih =>
      obtain ⟨⟨hne, hordered⟩, hvalid⟩ := List.forall_mem_cons.mp hvalid
      rw [List.map_cons, List.foldlM_cons, replayFile_eq t hne]
      change ∃ msg, (((t.2.map (TimedCommand.event commandName)).foldlM spec.replayEvent
        { totals } >>= _) >>= _) = _
      by_cases hhead : ∀ e ∈ t.2, InRange e.cmd e.addrVec
      · obtain ⟨r', totals₁, hok₁, hfinish, -⟩ :=
          replay_ok h hhead (r := { totals }) hordered nofun
        rw [hok₁]
        change ∃ msg, (spec.accountInterval _ _ _ _ >>= _) = _
        rw [hfinish]
        exact ih hvalid (fun htail => hrange (List.forall_mem_cons.mpr ⟨hhead, htail⟩)) totals₁
      · obtain ⟨msg, hmsg⟩ := replay_error h hhead (r := { totals }) hordered nofun
        rw [hmsg]
        exact ⟨msg, rfl⟩

/-! ## Counts and charges -/

def Counts (stat : RunStatistics) (traces : List ChannelTrace) : Prop :=
  ∀ cmd, stat.count (commandName cmd) =
    (((traces.flatMap Prod.snd).map TimedCommand.cmd).count cmd : Int)

theorem banksOf_actBanks (trace : List (TimedCommand Cmd)) :
    banksOf actBanks trace = ((trace.map TimedCommand.cmd).count .ACT_2 : Int) +
      4 * (trace.map TimedCommand.cmd).count .ACT4_2 +
        8 * (trace.map TimedCommand.cmd).count .ACT8_2 := by
  unfold banksOf
  induction trace with
  | nil => rfl
  | cons e trace ih =>
      rw [List.map_cons, List.sum_cons, List.map_cons, ih]
      simp only [List.count_cons]
      cases e.cmd <;> simp [actBanks] <;> omega

theorem banksOf_preBanks (trace : List (TimedCommand Cmd)) :
    banksOf preBanks trace = ((trace.map TimedCommand.cmd).count .PRE : Int) +
      (trace.map TimedCommand.cmd).count .RDA + (trace.map TimedCommand.cmd).count .WRA +
        4 * (trace.map TimedCommand.cmd).count .PRE4 +
          8 * ((trace.map TimedCommand.cmd).count .PREA +
            (trace.map TimedCommand.cmd).count .WRA8) := by
  unfold banksOf
  induction trace with
  | nil => rfl
  | cons e trace ih =>
      rw [List.map_cons, List.sum_cons, List.map_cons, ih]
      simp only [List.count_cons]
      cases e.cmd <;> simp [preBanks] <;> omega

def SameDynamicCycles (spec : TraceSpec) (stop : Int) (traces : List ChannelTrace)
    (stat : RunStatistics) : Prop :=
  ∃ totals counts, spec.traceBasedActivityCycles stop (traces.map ChannelTrace.file) = .ok totals ∧
    legacyCommandActivityCounts stat = .ok counts ∧
    (totals.cycles .ACT : ℚ) = counts.actCommands * spec.nRAS ∧
    (totals.cycles .PRE : ℚ) = counts.preCommands * (spec.nRC - spec.nRAS)

/-- The replay of LPDDR4 and LPDDR4X charges the activations and precharges that are counted,
exactly where every command of a bank or a bank group names one of the eight banks; elsewhere it
raises an error. -/
theorem sameDynamicCycles_iff {stop : Int} {traces : List ChannelTrace} {stat : RunStatistics}
    (himpl : spec.dramImpl = "LPDDR4" ∨ spec.dramImpl = "LPDDR4X")
    (hwindow : 0 < spec.nRAS ∧ spec.nRAS < spec.nRC) (hne : traces ≠ [])
    (hvalid : ∀ t ∈ traces, t.Valid stop) (hstat : stat.dramImpl = spec.dramImpl)
    (hcounts : Counts stat traces) :
    (SameDynamicCycles spec stop traces stat ↔
        ∀ t ∈ traces, ∀ e ∈ t.2, InRange e.cmd e.addrVec) ∧
      ((¬ ∀ t ∈ traces, ∀ e ∈ t.2, InRange e.cmd e.addrVec) →
        ∃ msg, spec.traceBasedActivityCycles stop (traces.map ChannelTrace.file) = .error msg) := by
  have hsplits := splits_of_dramImpl himpl
  have hreplay : spec.traceBasedActivityCycles stop (traces.map ChannelTrace.file) =
      (traces.map ChannelTrace.file).foldlM (spec.replayFile stop) {} := by
    unfold TraceSpec.traceBasedActivityCycles
    rw [if_neg (mt List.map_eq_nil_iff.mp hne), if_neg (fun h => by omega)]
  have herror : (¬ ∀ t ∈ traces, ∀ e ∈ t.2, InRange e.cmd e.addrVec) →
      ∃ msg, spec.traceBasedActivityCycles stop (traces.map ChannelTrace.file) = .error msg :=
    fun hout => hreplay ▸ replayFiles_error hsplits hvalid hout {}
  refine ⟨⟨?_, fun hrange => ?_⟩, herror⟩
  · rintro ⟨totals, counts, hok, -⟩
    refine Classical.byContradiction fun hout => ?_
    obtain ⟨msg, hmsg⟩ := herror hout
    cases hok.symm.trans hmsg
  · obtain ⟨totals, hok, hact, hpre⟩ := replayFiles_ok hsplits hvalid hrange {}
    have hlegacy : stat.dramImpl ∈ ["LPDDR4", "LPDDR4X"] := by
      rw [hstat]
      rcases himpl with himpl | himpl <;> rw [himpl] <;> decide
    refine ⟨totals, _, hreplay.trans hok, if_pos hlegacy, ?_, ?_⟩
    · rw [hact, banksOf_actBanks, ← hcounts .ACT_2, ← hcounts .ACT4_2, ← hcounts .ACT8_2]
      simp only [commandName]
      push_cast
      ring
    · rw [hpre, banksOf_preBanks, ← hcounts .PRE, ← hcounts .RDA, ← hcounts .WRA, ← hcounts .PRE4,
        ← hcounts .PREA, ← hcounts .WRA8]
      simp only [commandName]
      push_cast
      ring

def macTrace : ChannelTrace :=
  ("commands.ch0", [⟨10, .ACT8_2, [0, 0, -1, -1, 0, 0]⟩, ⟨20, .MAC8, [0, 0, -1, -1, 0, 0]⟩,
    ⟨70, .PREA, [0, 0, -1, -1, 0, 0]⟩])

theorem sameDynamicCycles_mac :
    SameDynamicCycles ⟨"commands", "LPDDR4X", 12, 20⟩ 100 [macTrace]
      ⟨"LPDDR4X", fun c => if c ∈ ["ACT8-2", "MAC8", "PREA"] then 1 else 0⟩ := by
  refine (sameDynamicCycles_iff (.inr rfl) (by decide) (List.cons_ne_nil _ _) ?_ rfl ?_).1.mpr ?_
  · rintro t ht
    obtain rfl := List.mem_singleton.mp ht
    exact ⟨List.cons_ne_nil _ _, by decide⟩
  · intro cmd
    cases cmd <;> decide +kernel
  · decide

/-- An activation of bank group 2 of the four of `LPDDR4_8Gb_x16`. -/
def thirdGroup : ChannelTrace := ("commands.ch0", [⟨10, .ACT4_2, [0, 0, 2, -1, 7, 0]⟩])

/-- The replay refuses the third of four bank groups, which the counts include. -/
theorem third_bankgroup_refused :
    thirdGroup.Valid 100 ∧
      Counts ⟨"LPDDR4", fun c => if c = "ACT4-2" then 1 else 0⟩ [thirdGroup] ∧
      ¬ SameDynamicCycles ⟨"commands", "LPDDR4", 12, 20⟩ 100 [thirdGroup]
        ⟨"LPDDR4", fun c => if c = "ACT4-2" then 1 else 0⟩ := by
  refine ⟨⟨List.cons_ne_nil _ _, by decide⟩, ?_, ?_⟩
  · intro cmd
    cases cmd <;> decide +kernel
  · rintro ⟨totals, counts, hok, -⟩
    have hrefused : (TraceSpec.traceBasedActivityCycles ⟨"commands", "LPDDR4", 12, 20⟩ 100
        ([thirdGroup].map ChannelTrace.file)).toOption.isNone = true := by decide +kernel
    rw [hok] at hrefused
    cases hrefused

end LPDDR4

end AimSimulator.Analysis
