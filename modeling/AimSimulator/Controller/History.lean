import AimSimulator.Controller.RowState
import AimSimulator.Dram.Shape
/-!
# The commands of a channel in time

A channel together with the commands it issued, each at the clock of the device.  The
device agrees with this history: its ready clocks dominate every constraint of the timing
table over the issues so far.
-/

namespace AimSimulator.Controller

open Dram

variable {Cmd St Ext : Type} [DecidableEq Cmd]

/-- A channel with the commands it issued, most recent first. -/
structure TimedChan (model : DRAMModel Cmd St Ext) where
  chan : Chan model.Dev Cmd
  history : List (Issue Cmd) := []

omit [DecidableEq Cmd] in
def issuesAt (clk : Int) (events : List (Event Cmd)) : List (Issue Cmd) :=
  (issued events).map fun (q, cmd) => ⟨clk, cmd, q.req.addrVec⟩

namespace TimedChan

variable {model : DRAMModel Cmd St Ext} {params : Params}

variable (params) in
/-- One call, which adds the commands it issues to the history. -/
def step (s : TimedChan model) (op : Op) : Option (TimedChan model) :=
  (s.chan.step model.idram params op).map fun t =>
    ⟨t, issuesAt t.dev.clk (t.log.drop s.chan.log.length) ++ s.history⟩

variable (model params) in
/-- The channels with their histories that calls which all meet a guard lead to. -/
abbrev Run (count : Nat → Int) (guard : Chan model.Dev Cmd → Op → Prop) :
    TimedChan model → Prop :=
  Runs.Reachable (fun s => s = ⟨Chan.init model.idram (model.createNodes count), []⟩)
    (fun s op t => s.step params op = some t) fun s op => guard s.chan op

variable {count : Nat → Int} {guard : Chan model.Dev Cmd → Op → Prop} {s t : TimedChan model}

theorem Run.chan (hr : Run model params count guard s) :
    Chan.Run model.idram params (model.createNodes count) guard s.chan := by
  induction hr with
  | start hs =>
      subst hs
      exact .start rfl
  | next _ hg hstep ih =>
      obtain ⟨t, hchan, rfl⟩ := Option.map_eq_some_iff.mp hstep
      exact .next ih hg hchan

theorem exists_run {c : Chan model.Dev Cmd}
    (hr : Chan.Run model.idram params (model.createNodes count) guard c) :
    ∃ history, Run model params count guard ⟨c, history⟩ := by
  induction hr with
  | start hs =>
      subst hs
      exact ⟨[], .start rfl⟩
  | next _ hg hstep ih =>
      obtain ⟨history, hrun⟩ := ih
      exact ⟨_, .next hrun hg (congrArg (Option.map _) hstep)⟩

/-- What a call does to the device and the history: nothing but the clock, or one issue. -/
theorem step_cases {op : Op} (hstep : s.step params op = some t) :
    (t.history = s.history ∧ (t.chan.dev = s.chan.dev ∨ t.chan.dev = model.tick s.chan.dev)) ∨
    ∃ c₁ sched cmd, op = .tick ∧
      AiMDRAMController.Issues model.idram params s.chan.ctl (model.tick s.chan.dev) c₁ sched cmd ∧
      t.chan.dev = model.issueCommand (model.tick s.chan.dev) cmd sched.req.req.addrVec ∧
      t.history = ⟨(model.tick s.chan.dev).clk, cmd, sched.req.req.addrVec⟩ :: s.history := by
  obtain ⟨t, hchan, rfl⟩ := Option.map_eq_some_iff.mp hstep
  have hquiet : ∀ {c : Queues Cmd} {events : List (Event Cmd)} {c' : Queues Cmd} {clk : Int},
      (c' = c ∧ events = []) ∨ QueueStep model.idram (fun _ _ _ => True) c events c' →
        issuesAt clk events = [] := by
    rintro c events c' clk (⟨-, rfl⟩ | h)
    · rfl
    · rw [issuesAt, h.issued]
      rfl
  cases op with
  | send req =>
      obtain ⟨⟨ok, ctl, events⟩, hsent, rfl⟩ := Option.map_eq_some_iff.mp hchan
      have hcases := @AiMDRAMController.send_step _ _ model.idram (fun _ _ _ => True) _ _ _ _ _
        (fun _ _ _ => trivial) hsent
      refine .inl ⟨?_, .inl rfl⟩
      dsimp only
      rw [List.drop_left, hquiet (hcases.imp_left fun h => ⟨congrArg _ h.1, h.2⟩), List.nil_append]
  | prioritySend req =>
      obtain ⟨⟨ok, ctl, events⟩, hsent, rfl⟩ := Option.map_eq_some_iff.mp hchan
      have hcases := @AiMDRAMController.prioritySend_step _ _ model.idram (fun _ _ _ => True)
        _ _ _ _ _ trivial hsent
      refine .inl ⟨?_, .inl rfl⟩
      dsimp only
      rw [List.drop_left, hquiet (hcases.imp_left fun h => ⟨congrArg _ h.1, h.2⟩), List.nil_append]
  | tick =>
      obtain ⟨⟨ctl, dev, events⟩, hticked, rfl⟩ := Option.map_eq_some_iff.mp hchan
      dsimp only
      rw [List.drop_left]
      rcases AiMDRAMController.tick_device hticked with
        ⟨rfl, -, hissued⟩ | ⟨c₁, sched, cmd, hissues, rfl, -, hissued⟩
      · refine .inl ⟨?_, .inr rfl⟩
        rw [issuesAt, hissued]
        rfl
      · refine .inr ⟨c₁, sched, cmd, rfl, hissues, rfl, ?_⟩
        have hreq := (SameRequest.stampIssue c₁.toQueues sched.req).req
        rw [issuesAt, hissued, List.map_singleton]
        dsimp only
        rw [hreq]
        exact congrArg (Issue.mk · _ _ :: s.history) (model.issueCommand_clk ..)

theorem tick_history_ne (hstep : s.step params .tick = some t) {c₁ : AiMDRAMController Cmd}
    {sched : Scheduled Cmd}
    (hnext : s.chan.ctl.nextScheduled model.idram params (model.tick s.chan.dev) = some (c₁, sched))
    (hbarrier : sched.req.req.opcode.isBarrier = false) : t.history ≠ s.history := by
  obtain ⟨t, hchan, rfl⟩ := Option.map_eq_some_iff.mp hstep
  obtain ⟨⟨ctl, dev, events⟩, hticked, rfl⟩ := Option.map_eq_some_iff.mp hchan
  have hissued := AiMDRAMController.tick_issues hticked hnext hbarrier
  dsimp only
  rw [List.drop_left]
  exact fun heq => hissued (List.map_eq_nil_iff.mp (List.append_left_eq_self.mp heq))

theorem Run.deviceTiming (hact : model.ActionsKeepTiming count) (hwin : model.WindowsPositive)
    (hr : Run model params count guard s) :
    model.DeviceTiming count ⟨s.chan.dev, s.history⟩ ∧
      (∀ e ∈ s.history, e.clk ≤ s.chan.dev.clk) ∧
        s.history.Pairwise fun later earlier => earlier.clk ≤ later.clk := by
  refine hr.invariant (I := fun s : TimedChan model =>
    model.DeviceTiming count ⟨s.chan.dev, s.history⟩ ∧
      (∀ e ∈ s.history, e.clk ≤ s.chan.dev.clk) ∧
        s.history.Pairwise fun later earlier => earlier.clk ≤ later.clk) ?_ ?_
  · rintro s rfl
    exact ⟨DRAMModel.createNodes_deviceTiming, fun e he => (List.not_mem_nil he).elim, .nil⟩
  · rintro s op t ⟨htiming, hpast, hsorted⟩ - hstep
    have hticked : model.DeviceTiming count ⟨model.tick s.chan.dev, s.history⟩ := htiming.tick
    have hpast' : ∀ e ∈ s.history, e.clk ≤ (model.tick s.chan.dev).clk :=
      fun e he => Int.le_trans (hpast e he) (Int.le.intro 1 rfl)
    rcases step_cases hstep with ⟨hhistory, hdev | hdev⟩ | ⟨c₁, sched, cmd, -, -, hdev, hhistory⟩
    · rw [hhistory, hdev]
      exact ⟨htiming, hpast, hsorted⟩
    · rw [hhistory, hdev]
      exact ⟨hticked, hpast', hsorted⟩
    · rw [hhistory, hdev]
      refine ⟨DRAMModel.issueCommand_deviceTiming hact hwin hticked _ _, ?_,
        List.pairwise_cons.mpr ⟨hpast', hsorted⟩⟩
      rw [model.issueCommand_clk]
      intro e he
      rcases List.mem_cons.mp he with rfl | he
      · exact Int.le_refl _
      · exact hpast' e he

end TimedChan

theorem Chan.deviceTiming {model : DRAMModel Cmd St Ext} {params : Params} {count : Nat → Int}
    {guard : Chan model.Dev Cmd → Op → Prop} {s : Chan model.Dev Cmd}
    (hact : model.ActionsKeepTiming count) (hwin : model.WindowsPositive)
    (hr : Chan.Run model.idram params (model.createNodes count) guard s) :
    ∃ history, model.DeviceTiming count ⟨model.tick s.dev, history⟩ := by
  obtain ⟨history, hrun⟩ := TimedChan.exists_run hr
  exact ⟨history, (hrun.deviceTiming hact hwin).1.tick⟩

end AimSimulator.Controller
