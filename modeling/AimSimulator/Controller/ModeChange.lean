import AimSimulator.Lib.Switches
import AimSimulator.Controller.History
import AimSimulator.Dram.Prerequisites
import AimSimulator.Dram.GDDR6Timing
import AimSimulator.Dram.LPDDRTiming
/-!
# Mode changes

A controller issues `TMOD` exactly when the request it serves needs the other register
mode.  The delay after a `TMOD` stands in the timing table at one level: the channel in
GDDR6, the rank in LPDDR.  It holds back the commands to the node that the `TMOD` was
issued to, and only those.
-/

namespace AimSimulator.Controller

open Dram

/-! ## Modes and mode changes alternate -/

section

variable {Dev Cmd : Type} [DecidableEq Cmd] {iface : IDRAM Dev Cmd} {params : Params}
  {dev₀ : Dev} {guard : Chan Dev Cmd → Op → Prop} {s : Chan Dev Cmd}

def needsRegRWMode (req : Request) : Bool :=
  AiMDRAMController.requiresRegRWMode req == some true

variable (iface) in
/-- Whether the requests of two commands that are not mode changes need different modes exactly
when the number of mode changes between them is odd. -/
def SwitchesBetween (log : List (Event Cmd)) : Prop :=
  ∀ before q cmd between q' cmd' after,
    issued log = before ++ (q, cmd) :: (between ++ (q', cmd') :: after) →
      cmd ≠ iface.tmod → cmd' ≠ iface.tmod →
        ((between.countP fun e => e.2 = iface.tmod) % 2 = 1 ↔
          needsRegRWMode q'.req ≠ needsRegRWMode q.req)

variable (iface) in
def modeItems (l : List (Queued Cmd × Cmd)) : List (Bool × Bool) :=
  l.map fun e => (needsRegRWMode e.1.req, decide (e.2 = iface.tmod))

theorem switches_modeItems (l : List (Queued Cmd × Cmd)) :
    Switches.switches (modeItems iface l) = l.countP fun e => e.2 = iface.tmod := by
  rw [Switches.switches, modeItems, List.countP_map]
  rfl

theorem SwitchesBetween.of_trace {log : List (Event Cmd)} {mode : Bool}
    (h : Switches.Trace false (modeItems iface (issued log)) mode) :
    SwitchesBetween iface log := by
  intro before q cmd between q' cmd' after hissued hcmd hcmd'
  rw [hissued] at h
  simp only [modeItems, List.map_append, List.map_cons, decide_eq_false hcmd,
    decide_eq_false hcmd'] at h
  rw [← switches_modeItems]
  exact h.between

/-- Whether no request gets the mode change as its own command. -/
def NeverPreqTmod (iface : IDRAM Dev Cmd) : Prop :=
  ∀ dev req final, finalOf iface req = some final →
    iface.getPreqCommand dev final req.addrVec ≠ iface.tmod

theorem tick_trace (hplain : NeverPreqTmod iface)
    (hr : Chan.Run iface params dev₀ guard s) {ctl : AiMDRAMController Cmd} {dev : Dev}
    {events : List (Event Cmd)}
    (htick : s.ctl.tick iface params (iface.tick s.dev) = some (ctl, dev, events)) :
    Switches.Trace s.ctl.isRegRWMode (modeItems iface (issued events)) ctl.isRegRWMode := by
  rcases AiMDRAMController.tick_device htick with
    ⟨-, hmode, hquiet⟩ | ⟨c₁, sched, cmd, hissues, -, hrequires, hissued⟩
  · rw [hquiet]
    exact hmode
  · obtain ⟨requires, hrequires', hcmd⟩ := hissues.mode
    obtain rfl := Option.some.inj (hrequires'.symm.trans hrequires)
    have hown : sched.command ≠ iface.tmod := by
      rw [hissues.prerequisite.1]
      exact hplain _ _ _ (Chan.picked_final hr hissues.next)
    have hneeds : needsRegRWMode sched.req.req = ctl.isRegRWMode := by
      rw [needsRegRWMode, hrequires]
      cases ctl.isRegRWMode <;> rfl
    have hswitch : cmd = iface.tmod ↔ ctl.isRegRWMode ≠ s.ctl.isRegRWMode := by
      by_cases hmode : ctl.isRegRWMode = s.ctl.isRegRWMode
      · rw [hcmd, if_neg (mt bne_iff_ne.mp (not_not_intro hmode))]
        exact iff_of_false hown (not_not_intro hmode)
      · rw [hcmd, if_pos (bne_iff_ne.mpr hmode)]
        exact iff_of_true rfl hmode
    have hreq := (SameRequest.stampIssue c₁.toQueues sched.req).req
    rw [hissued]
    simp only [modeItems, List.map_cons, List.map_nil, hreq, hneeds]
    exact ⟨decide_eq_true_iff.trans hswitch, rfl⟩

theorem run_trace (hplain : NeverPreqTmod iface) (hr : Chan.Run iface params dev₀ guard s) :
    Switches.Trace false (modeItems iface (issued s.log)) s.ctl.isRegRWMode := by
  refine hr.invariant_with (I := fun s : Chan Dev Cmd =>
    Switches.Trace false (modeItems iface (issued s.log)) s.ctl.isRegRWMode) (fun _ h => h) ?_ ?_
  · rintro s rfl
    rfl
  · rintro s op t hrun - hI - hstep
    have happend : ∀ {events : List (Event Cmd)} {mode : Bool},
        Switches.Trace s.ctl.isRegRWMode (modeItems iface (issued events)) mode →
          Switches.Trace false (modeItems iface (issued (s.log ++ events))) mode := by
      intro events mode h
      rw [issued_append, modeItems, List.map_append]
      exact Switches.trace_append.mpr ⟨_, hI, h⟩
    cases op with
    | send req =>
        obtain ⟨⟨ok, ctl, events⟩, hsent, rfl⟩ := Option.map_eq_some_iff.mp hstep
        refine happend ?_
        rcases @AiMDRAMController.send_step _ _ iface (fun _ _ _ => True) _ _ _ _ _
          (fun _ _ _ => trivial) hsent with ⟨rfl, rfl⟩ | h
        · rfl
        · rw [h.issued]
          exact (AiMDRAMController.SameRest.send hsent).isRegRWMode
    | prioritySend req =>
        obtain ⟨⟨ok, ctl, events⟩, hsent, rfl⟩ := Option.map_eq_some_iff.mp hstep
        refine happend ?_
        rcases @AiMDRAMController.prioritySend_step _ _ iface (fun _ _ _ => True) _ _ _ _ _
          trivial hsent with ⟨rfl, rfl⟩ | h
        · rfl
        · rw [h.issued]
          exact (AiMDRAMController.SameRest.prioritySend hsent).isRegRWMode
    | tick =>
        obtain ⟨⟨ctl, dev, events⟩, hticked, rfl⟩ := Option.map_eq_some_iff.mp hstep
        exact happend (tick_trace hplain hrun hticked)

theorem run_switchesBetween (hplain : NeverPreqTmod iface)
    (hr : Chan.Run iface params dev₀ guard s) : SwitchesBetween iface s.log :=
  .of_trace (run_trace hplain hr)

end

/-! ## The delay after a mode change -/

section

variable {Cmd St Ext Timing : Type} [DecidableEq Cmd] {model : DRAMModel Cmd St Ext}
  {params : Params} {count : Nat → Int}

/-- The entry `ts` of the timing table delays after a mode change every command but the mode
change itself, which no request gets as a prerequisite, and the undefined one. -/
structure DelaysMode (model : DRAMModel Cmd St Ext) (V : Timing → Int)
    (table : List (TimingConsInitializer Cmd Timing)) (ts : TimingConsInitializer Cmd Timing)
    (undefined : Cmd) : Prop where
  populated : model.timingCons = populateTimingcons V table
  mem : ts ∈ table
  preceding : model.tmod ∈ ts.preceding
  window : ts.window = 1
  own : ts.isSibling = false
  level : ts.level ≤ model.bankLevel
  following : ∀ cmd, cmd ≠ model.tmod → cmd ≠ undefined →
    cmd ∈ ts.following ∧ ts.level ≤ model.commandScopes cmd
  neverTmod : NeverPreqTmod model.idram

/-- Whether no command of a history follows a mode change on its channel within `nMODCH`
cycles. -/
def ModeSpaced (model : DRAMModel Cmd St Ext) (nMODCH : Int) (history : List (Issue Cmd)) : Prop :=
  history.Pairwise fun later earlier => earlier.cmd = model.tmod →
    later.addrVec.at 0 = earlier.addrVec.at 0 → earlier.clk + nMODCH ≤ later.clk

instance (nMODCH : Int) (history : List (Issue Cmd)) : Decidable (ModeSpaced model nMODCH history) :=
  inferInstanceAs (Decidable (List.Pairwise _ _))

/-- Whether a request that is scheduled while the delay of a mode change runs has a defined next
command and goes to the node at `level` that the mode change was issued to. -/
def KeepsToSwitched (model : DRAMModel Cmd St Ext) (params : Params) (count : Nat → Int)
    (level : Nat) (nMODCH : Int) (undefined : Cmd) (s : TimedChan model) : Op → Prop
  | .tick => ∀ e ∈ s.history, e.cmd = model.tmod →
      (model.tick s.chan.dev).clk < e.clk + nMODCH →
        ∀ x ∈ s.chan.ctl.nextScheduled model.idram params (model.tick s.chan.dev),
          x.2.req.req.opcode.isBarrier = false → x.2.req.req.addrVec.at 0 = e.addrVec.at 0 →
            x.2.command ≠ undefined ∧ NamesNode count level x.2.req.req.addrVec ∧
              ∀ i, i ≤ level → e.addrVec.at i = x.2.req.req.addrVec.at i
  | _ => True

instance (level : Nat) (nMODCH : Int) (undefined : Cmd) (s : TimedChan model) :
    DecidablePred (KeepsToSwitched model params count level nMODCH undefined s)
  | .send _ | .prioritySend _ => isTrue trivial
  | .tick => by
      unfold KeepsToSwitched NamesNode
      exact @List.decidableBAll _ _ (fun _ => forall_prop_decidable _) _

variable (model params) in
/-- The channels with their histories that calls lead to which keep to the node that was
switched. -/
abbrev TimedChan.ModeRun (count : Nat → Int) (level : Nat) (nMODCH : Int) (undefined : Cmd) :
    TimedChan model → Prop :=
  Runs.Reachable (fun s => s = ⟨Chan.init model.idram (model.createNodes count), []⟩)
    (fun s op t => s.step params op = some t)
      (KeepsToSwitched model params count level nMODCH undefined)

omit [DecidableEq Cmd] in
theorem exists_latest {history : List (Issue Cmd)}
    (hsorted : history.Pairwise fun later earlier => earlier.clk ≤ later.clk) {e : Issue Cmd}
    (he : e ∈ history) : ∃ latest, history[0]? = some latest ∧ e.clk ≤ latest.clk := by
  cases history with
  | nil => cases he
  | cons latest rest =>
      refine ⟨latest, rfl, ?_⟩
      rcases List.mem_cons.mp he with rfl | he
      · exact Int.le_refl _
      · exact (List.pairwise_cons.mp hsorted).1 e he

variable {V : Timing → Int} {table : List (TimingConsInitializer Cmd Timing)}
  {ts : TimingConsInitializer Cmd Timing} {undefined : Cmd} {s : TimedChan model}

theorem DelaysMode.ready (hdelay : DelaysMode model V table ts undefined)
    {history : List (Issue Cmd)} {dev : model.Dev} (hs : model.DeviceTiming count ⟨dev, history⟩)
    (hsorted : history.Pairwise fun later earlier => earlier.clk ≤ later.clk)
    {cmd : Cmd} (hcmd : cmd ≠ model.tmod) (hdefined : cmd ≠ undefined) {addrVec : AddrVec}
    (hready : model.checkReady dev cmd addrVec = true)
    (hnode : NamesNode count ts.level addrVec) {e : Issue Cmd} (he : e ∈ history)
    (htmod : e.cmd = model.tmod) (hsame : ∀ i, i ≤ ts.level → e.addrVec.at i = addrVec.at i) :
    e.clk + ts.latency V ≤ dev.clk := by
  obtain ⟨hfollows, hscope⟩ := hdelay.following cmd hcmd hdefined
  have hmem : e ∈ issuesOf model.tmod (issuesTo 0 ts.level addrVec history) := by
    refine List.mem_filter.mpr ⟨List.mem_filter.mpr ⟨he, ?_⟩, decide_eq_true htmod⟩
    exact decide_eq_true fun i hi _ => hsame i hi
  have hsub : List.Sublist (issuesOf model.tmod (issuesTo 0 ts.level addrVec history)) history :=
    List.filter_sublist.trans List.filter_sublist
  obtain ⟨latest, hlatest, hle⟩ := exists_latest (hsorted.sublist hsub) hmem
  have hbound := DRAMModel.checkReady_entry hdelay.populated hs hready hdelay.mem hdelay.own hfollows
    hdelay.level hscope hnode hdelay.preceding (by rwa [hdelay.window])
  exact Int.le_trans (Int.add_le_add_right hle _) hbound

/-- A call leaves every mode change followed by its delay exactly when it keeps to the switched
node. -/
theorem step_modeSpaced (hdelay : DelaysMode model V table ts undefined)
    (hact : model.ActionsKeepTiming count) (hwin : model.WindowsPositive)
    (hr : TimedChan.Run model params count (fun _ _ => True) s) {op : Op} {t : TimedChan model}
    (hstep : s.step params op = some t) :
    ModeSpaced model (ts.latency V) t.history ↔ ModeSpaced model (ts.latency V) s.history ∧
      KeepsToSwitched model params count ts.level (ts.latency V) undefined s op := by
  rcases TimedChan.step_cases hstep with ⟨hhistory, -⟩ | ⟨c₁, sched, cmd, rfl, hissues, -, hhistory⟩
  · rw [hhistory]
    refine ⟨fun hspaced => ⟨hspaced, ?_⟩, And.left⟩
    cases op with
    | send req | prioritySend req => trivial
    | tick =>
        rintro e - - - ⟨c₁, sched⟩ hnext hbarrier
        exact absurd hhistory (TimedChan.tick_history_ne hstep hnext hbarrier)
  · rw [hhistory, ModeSpaced, List.pairwise_cons, and_comm]
    refine and_congr_right fun _ => ⟨fun hspaced e he htmod hwithin x hx _ hchannel => ?_,
      fun hkeeps e he htmod hchannel => Int.not_lt.mp fun hwithin => ?_⟩
    · obtain rfl := Option.some.inj (hissues.next.symm.trans hx)
      exact absurd hwithin (Int.not_lt.mpr (hspaced e he htmod hchannel))
    · obtain ⟨htiming, -, hsorted⟩ := hr.deviceTiming hact hwin
      obtain ⟨hcommand, hready⟩ := hissues.prerequisite
      have hplain : sched.command ≠ model.tmod := by
        rw [hcommand]
        exact hdelay.neverTmod _ _ _ (Chan.picked_final hr.chan hissues.next)
      obtain ⟨hdefined, hnode, hsame⟩ := hkeeps e he htmod hwithin (c₁, sched) hissues.next
        hissues.notBarrier hchannel
      exact absurd hwithin (Int.not_lt.mpr
        (hdelay.ready htiming.tick hsorted hplain hdefined hready hnode he htmod hsame))

theorem TimedChan.ModeRun.run {level : Nat} {nMODCH : Int}
    (hr : TimedChan.ModeRun model params count level nMODCH undefined s) :
    TimedChan.Run model params count (fun _ _ => True) s :=
  hr.mono fun _ _ _ => trivial

/-- In every run that keeps to the switched node no command comes within the delay of a mode
change. -/
theorem run_modeSpaced (hdelay : DelaysMode model V table ts undefined)
    (hact : model.ActionsKeepTiming count) (hwin : model.WindowsPositive)
    (hr : TimedChan.ModeRun model params count ts.level (ts.latency V) undefined s) :
    ModeSpaced model (ts.latency V) s.history := by
  refine hr.invariant_with (I := fun s : TimedChan model => ModeSpaced model (ts.latency V) s.history)
    (fun _ hs => TimedChan.ModeRun.run hs) ?_ ?_
  · rintro s rfl
    exact .nil
  · rintro s op t hrun - hI hkeeps hstep
    exact (step_modeSpaced hdelay hact hwin hrun hstep).mpr ⟨hI, hkeeps⟩

end

/-! ## All three models -/

namespace GDDR6

open Dram.GDDR6

theorem finalOf_ne_tmod {V : Timing → Int} {req : Request} {final : Cmd}
    (h : finalOf (model V).idram req = some final) : final ≠ .TMOD := by
  unfold finalOf at h
  split at h
  · cases hop : req.opcode <;> rw [hop] at h <;> exact Option.some.inj h ▸ by decide
  · cases htype : req.type with
    | AIM | MAX => rw [htype] at h; cases h
    | _ => rw [htype] at h; exact Option.some.inj h ▸ by decide

theorem exists_delaysMode (V : Timing → Int) : ∃ ts, ts.level = channel ∧
    ts.latency V = V .nMODCH ∧ DelaysMode (model V) V timingConsTable ts .UNKNOWN := by
  have hfollowing : ∀ cmd : Cmd, cmd ≠ .TMOD → cmd ≠ .UNKNOWN →
      cmd ∈ (timingConsTable.get ⟨61, by decide⟩).following ∧ channel ≤ commandScopes cmd := by
    intro cmd htmod hunknown
    cases cmd with
    | TMOD => exact absurd rfl htmod
    | UNKNOWN => exact absurd rfl hunknown
    | _ => decide
  refine ⟨_, rfl, rfl, rfl, List.get_mem timingConsTable ⟨61, by decide⟩,
    List.mem_singleton.mpr rfl, rfl, rfl, Nat.zero_le _, hfollowing, fun dev req final hfinal => ?_⟩
  exact getPreqCommand_answers (P := fun cmd => cmd ≠ .TMOD) (by decide) dev
    (finalOf_ne_tmod hfinal) req.addrVec

end GDDR6

namespace LPDDR

open Dram.LPDDR

variable {gen : Generation} {sizes : Nat → Int} {V : Timing → Int}

theorem finalOf_ne_tmod {req : Request} {final : Cmd}
    (h : finalOf (model gen sizes V).idram req = some final) : final ≠ .TMOD := by
  unfold finalOf at h
  split at h
  · cases hop : req.opcode <;> rw [hop] at h <;> exact Option.some.inj h ▸ by decide
  · cases htype : req.type with
    | AIM | MAX => rw [htype] at h; cases h
    | _ => rw [htype] at h; exact Option.some.inj h ▸ by decide

theorem exists_delaysMode (gen : Generation) (sizes : Nat → Int) (V : Timing → Int) :
    ∃ ts, ts.level = rank ∧ ts.latency V = V .nMODCH ∧
      DelaysMode (model gen sizes V) V (timingConsTable gen) ts .UNKNOWN := by
  have hfollowing : ∀ cmd : Cmd, cmd ≠ .TMOD → cmd ≠ .UNKNOWN →
      cmd ∈ (rankTimingCons.get ⟨61, by decide⟩).following ∧ rank ≤ commandScopes cmd := by
    intro cmd htmod hunknown
    cases cmd with
    | TMOD => exact absurd rfl htmod
    | UNKNOWN => exact absurd rfl hunknown
    | _ => decide
  have hmem : (rankTimingCons.get ⟨61, by decide⟩) ∈ timingConsTable gen := by
    have hrank := List.get_mem rankTimingCons ⟨61, by decide⟩
    cases gen with
    | LPDDR4 => exact List.mem_append_left _ hrank
    | LPDDR5 => exact List.mem_append_left _ (List.mem_append_left _ hrank)
  refine ⟨_, rfl, rfl, rfl, hmem, List.mem_singleton.mpr rfl, rfl, rfl,
    show rank ≤ bank by decide, hfollowing,
    fun dev req final hfinal => ?_⟩
  exact getPreqCommand_answers (P := fun cmd => cmd ≠ .TMOD) (by decide) dev
    (finalOf_ne_tmod hfinal) req.addrVec

end LPDDR

/-- In every run the number of mode changes between commands for requests of different modes is
odd.  In every run that keeps to the node that was switched, the one at `level` of the addresses,
no command comes within `nMODCH` cycles after a mode change, and of the next calls exactly those
that keep to it leave this so. -/
def SeparatesModes {Cmd St Ext : Type} [DecidableEq Cmd] (model : DRAMModel Cmd St Ext)
    (level : Nat) (nMODCH : Int) (undefined : Cmd) : Prop :=
  ∀ {params : Params} {count : Nat → Int} {s : TimedChan model},
    TimedChan.Run model params count (fun _ _ => True) s →
      SwitchesBetween model.idram s.chan.log ∧
        (TimedChan.ModeRun model params count level nMODCH undefined s →
          ModeSpaced model nMODCH s.history) ∧
        ∀ op t, s.step params op = some t →
          (ModeSpaced model nMODCH t.history ↔ ModeSpaced model nMODCH s.history ∧
            KeepsToSwitched model params count level nMODCH undefined s op)

theorem DelaysMode.separatesModes {Cmd St Ext Timing : Type} [DecidableEq Cmd]
    {model : DRAMModel Cmd St Ext} {V : Timing → Int}
    {table : List (TimingConsInitializer Cmd Timing)} {ts : TimingConsInitializer Cmd Timing}
    {undefined : Cmd} (hdelay : DelaysMode model V table ts undefined)
    (hact : ∀ count, model.ActionsKeepTiming count) (hwin : model.WindowsPositive) :
    SeparatesModes model ts.level (ts.latency V) undefined := by
  intro params count s hr
  exact ⟨run_switchesBetween hdelay.neverTmod hr.chan, run_modeSpaced hdelay (hact count) hwin,
    fun op t hstep => step_modeSpaced hdelay (hact count) hwin hr hstep⟩

/-- Every run of GDDR6 whose requests are defined, and every run of LPDDR4 or LPDDR5 whose
requests are defined and keep to the rank that was switched, separates its modes. -/
theorem modeChange_separated (V : GDDR6.Timing → Int) (gen : LPDDR.Generation)
    (sizes : Nat → Int) (W : LPDDR.Timing → Int) :
    SeparatesModes (GDDR6.model V) GDDR6.channel (V .nMODCH) .UNKNOWN ∧
      SeparatesModes (LPDDR.model gen sizes W) LPDDR.rank (W .nMODCH) .UNKNOWN := by
  constructor
  · obtain ⟨ts, hlevel, hlatency, hdelay⟩ := GDDR6.exists_delaysMode V
    rw [← hlevel, ← hlatency]
    exact hdelay.separatesModes (GDDR6.actionsKeepTiming V) (GDDR6.windowsPositive V)
  · obtain ⟨ts, hlevel, hlatency, hdelay⟩ := LPDDR.exists_delaysMode gen sizes W
    rw [← hlevel, ← hlatency]
    exact hdelay.separatesModes (LPDDR.actionsKeepTiming gen sizes W)
      (LPDDR.windowsPositive gen sizes W)

def LPDDR.x16 : Nat → Int := Organization.countAt ⟨2048, 16, [1, 1, 4, 4, 8192, 1024]⟩

open Dram.LPDDR in
/-- A read that waits for its row during the mode change of a `WR_GB`, in LPDDR5 with one
rank. -/
theorem modeChange_separated_read :
    ∃ s : TimedChan (model .LPDDR5 LPDDR.x16 (aimVals .LPDDR5)),
      (s.history.any fun e => e.cmd = .TMOD) = true ∧
        ModeSpaced (model .LPDDR5 LPDDR.x16 (aimVals .LPDDR5))
          (aimVals .LPDDR5 .nMODCH) s.history := by
  have hrun : ((Runs.replay (TimedChan.step { channelId := 0 })
      (fun s op => decide (KeepsToSwitched _ { channelId := 0 } LPDDR.x16 rank
        (aimVals .LPDDR5 .nMODCH) .UNKNOWN s op))
      ⟨Chan.init (model .LPDDR5 LPDDR.x16 (aimVals .LPDDR5)).idram
        ((model .LPDDR5 LPDDR.x16 (aimVals .LPDDR5)).createNodes LPDDR.x16), []⟩
      ([.send { type := .Read, addrVec := [0, 0, 0, 0, 5, 0] }, .tick, .tick,
        .send { type := .AIM, opcode := .ISR_WR_GB, addrVec := [0, 0, -1, -1, -1, -1] }] ++
          List.replicate 40 .tick)).any fun s => s.history.any fun e => e.cmd = .TMOD) = true := by
    decide +kernel
  obtain ⟨s, hs, htest⟩ := Option.any_eq_true .. |>.mp hrun
  have hmode : TimedChan.ModeRun (model .LPDDR5 LPDDR.x16 (aimVals .LPDDR5)) { channelId := 0 }
      LPDDR.x16 rank (aimVals .LPDDR5 .nMODCH) .UNKNOWN s :=
    Runs.replay_reachable (fun _ _ hok => of_decide_eq_true hok) (.start rfl) hs
  exact ⟨s, htest, ((modeChange_separated (fun _ => 0) .LPDDR5 LPDDR.x16
    (aimVals .LPDDR5)).2 hmode.run).2.1 hmode⟩

/-! ## A mode change of one rank does not hold back another -/

namespace LPDDR

open Dram.LPDDR

def twoRanks : Nat → Int := Organization.countAt ⟨2048, 16, [1, 2, 4, 4, 8192, 1024]⟩

abbrev twoRankModel : DRAMModel Cmd St Int :=
  model .LPDDR5 twoRanks (aimVals .LPDDR5)

/-- A read of rank 1 and a `WR_GB` of rank 0: the mode change for the second does not hold
back the first, which changes the mode again within the delay. -/
theorem other_rank_in_delay :
    ∃ s : TimedChan twoRankModel,
      TimedChan.Run twoRankModel { channelId := 0 } twoRanks (fun _ _ => True) s ∧
        ¬ ModeSpaced twoRankModel (aimVals .LPDDR5 .nMODCH) s.history := by
  have hrun : ((Runs.replay (TimedChan.step { channelId := 0 }) (fun _ _ => true)
      ⟨Chan.init twoRankModel.idram (twoRankModel.createNodes twoRanks), []⟩
      ([.send { type := .Read, addrVec := [0, 1, 0, 0, 5, 0] }, .tick, .tick,
        .send { type := .AIM, opcode := .ISR_WR_GB, addrVec := [0, 0, -1, -1, -1, -1] }] ++
          List.replicate 14 .tick)).any fun s =>
        !decide (ModeSpaced twoRankModel (aimVals .LPDDR5 .nMODCH) s.history)) =
          true := by
    decide +kernel
  obtain ⟨s, hs, htest⟩ := Option.any_eq_true .. |>.mp hrun
  refine ⟨s, Runs.replay_reachable (fun _ _ _ => trivial) (.start rfl) hs, ?_⟩
  simpa using htest

end LPDDR

end AimSimulator.Controller
