import AimSimulator.Controller.History
import AimSimulator.Dram.AllBankWrite
import AimSimulator.Dram.GDDR6Timing
import AimSimulator.Dram.LPDDRTiming
import AimSimulator.Dram.OpenRows
import AimSimulator.Dram.Prerequisites
/-!
# The standby counters

Each tick counts its cycle as active or as precharged by the open-row mask of its channel.
The mask follows the banks as long as `issue_command` uses the bits of the banks that a command
opens and closes, and then the counters count the cycles with and without an open bank.
-/

namespace AimSimulator.Controller

open Dram

section

variable {Dev Cmd : Type} [DecidableEq Cmd] {iface : IDRAM Dev Cmd} {params : Params}

namespace AiMDRAMController

/-! ## What a tick counts -/

theorem countIssue_standby (c : AiMDRAMController Cmd) (q : Queued Cmd) (cmd : Cmd) :
    (c.countIssue q cmd).numActiveCycles = c.stats.numActiveCycles ∧
      (c.countIssue q cmd).numPrechargedCycles = c.stats.numPrechargedCycles := by
  unfold countIssue
  dsimp only
  split
  · split <;> exact ⟨rfl, rfl⟩
  · exact ⟨rfl, rfl⟩

theorem serveScheduled_standby {c c' : AiMDRAMController Cmd} {dev dev' : Dev}
    {found : Option (Scheduled Cmd)} {events : List (Event Cmd)}
    (h : c.serveScheduled iface dev found = some (c', dev', events)) :
    c'.stats.numActiveCycles = c.stats.numActiveCycles ∧
      c'.stats.numPrechargedCycles = c.stats.numPrechargedCycles := by
  unfold serveScheduled at h
  split at h
  · split at h
    · obtain ⟨rfl, -⟩ := Option.some.inj h
      exact ⟨rfl, rfl⟩
    · obtain ⟨requires, -, heq⟩ := Option.map_eq_some_iff.mp h
      obtain ⟨rfl, -⟩ := heq
      exact countIssue_standby c _ _
  · split at h <;> obtain ⟨rfl, -⟩ := Option.some.inj h <;> exact ⟨rfl, rfl⟩

theorem tick_standby {c c' : AiMDRAMController Cmd} {dev dev' : Dev} {events : List (Event Cmd)}
    (h : c.tick iface params dev = some (c', dev', events)) :
    c'.stats.numActiveCycles = c.stats.numActiveCycles +
        (if iface.openRows dev' params.channelId = 0 then 0 else 1) ∧
      c'.stats.numPrechargedCycles = c.stats.numPrechargedCycles +
        (if iface.openRows dev' params.channelId = 0 then 1 else 0) := by
  rw [tick] at h
  obtain ⟨⟨c₁, prepared⟩, hprep, h⟩ := Option.bind_eq_some_iff.mp h
  obtain ⟨⟨c₂, dev₂, served⟩, hserved, heq⟩ := Option.map_eq_some_iff.mp h
  simp only [Prod.mk.injEq] at heq
  obtain ⟨rfl, rfl, -⟩ := heq
  have hprepared := (prepare_mode hprep).2
  have hsched := (@SameRest.scheduleRequest _ _ iface params c₁ dev).stats
  obtain ⟨hactive, hprecharged⟩ := serveScheduled_standby hserved
  rw [hsched, hprepared] at hactive hprecharged
  unfold countStandby
  split
  · exact ⟨hactive.trans (Int.add_zero _).symm, congrArg (· + 1) hprecharged⟩
  · exact ⟨congrArg (· + 1) hactive, hprecharged.trans (Int.add_zero _).symm⟩

end AiMDRAMController

theorem Chan.step_standby {s t : Chan Dev Cmd} {op : Op} (hstep : s.step iface params op = some t)
    (hop : op ≠ .tick) : t.ctl.stats = s.ctl.stats ∧ t.dev = s.dev := by
  cases op with
  | send req =>
      obtain ⟨⟨ok, ctl, events⟩, hsent, rfl⟩ := Option.map_eq_some_iff.mp hstep
      exact ⟨(AiMDRAMController.SameRest.send hsent).stats, rfl⟩
  | prioritySend req =>
      obtain ⟨⟨ok, ctl, events⟩, hsent, rfl⟩ := Option.map_eq_some_iff.mp hstep
      exact ⟨(AiMDRAMController.SameRest.prioritySend hsent).stats, rfl⟩
  | tick => exact absurd rfl hop

/-! ## Counting by the banks -/

/-- A channel with the number of ticks that left some bank open, and of the others. -/
structure StandbyChan (Dev Cmd : Type) where
  chan : Chan Dev Cmd
  active : Int := 0
  precharged : Int := 0

namespace StandbyChan

variable (iface params) in
/-- One call, which counts a tick by whether it leaves a bank open. -/
def step (isOpen : Dev → Bool) (s : StandbyChan Dev Cmd) (op : Op) : Option (StandbyChan Dev Cmd) :=
  (s.chan.step iface params op).map fun t =>
    match op with
    | .tick =>
        if isOpen t.dev then ⟨t, s.active + 1, s.precharged⟩
        else ⟨t, s.active, s.precharged + 1⟩
    | _ => ⟨t, s.active, s.precharged⟩

variable (iface params) in
/-- The channels with their counts that calls which all meet a guard lead to. -/
abbrev Run (isOpen : Dev → Bool) (dev₀ : Dev) (guard : Chan Dev Cmd → Op → Prop) :
    StandbyChan Dev Cmd → Prop :=
  Runs.Reachable (fun s => s = ⟨Chan.init iface dev₀, 0, 0⟩)
    (fun s op t => s.step iface params isOpen op = some t) fun s op => guard s.chan op

variable {isOpen : Dev → Bool} {dev₀ : Dev} {guard : Chan Dev Cmd → Op → Prop}
  {s t : StandbyChan Dev Cmd}

theorem step_chan {op : Op} (hstep : s.step iface params isOpen op = some t) :
    s.chan.step iface params op = some t.chan := by
  obtain ⟨t, hchan, rfl⟩ := Option.map_eq_some_iff.mp hstep
  rw [hchan]
  cases op with
  | tick => dsimp only; split <;> rfl
  | _ => rfl

theorem Run.chan (hr : Run iface params isOpen dev₀ guard s) :
    Chan.Run iface params dev₀ guard s.chan := by
  induction hr with
  | start hs =>
      subst hs
      exact .start rfl
  | next _ hg hstep ih => exact .next ih hg (step_chan hstep)

theorem run_replay {ok : StandbyChan Dev Cmd → Op → Bool}
    (hok : ∀ s op, ok s op = true → guard s.chan op) {ops : List Op}
    (h : Runs.replay (step iface params isOpen) ok ⟨Chan.init iface dev₀, 0, 0⟩ ops = some s) :
    Run iface params isOpen dev₀ guard s := Runs.replay_reachable hok (.start rfl) h

/-- Where the mask of the channel is zero exactly when no bank is open, the counters of the
controller agree with the counts. -/
theorem Run.counters (hr : Run iface params isOpen dev₀ guard s)
    (hmask : ∀ c, Chan.Run iface params dev₀ guard c →
      (iface.openRows c.dev params.channelId = 0 ↔ isOpen c.dev = false)) :
    s.chan.ctl.stats.numActiveCycles = s.active ∧
      s.chan.ctl.stats.numPrechargedCycles = s.precharged := by
  refine (Runs.Reachable.invariant_with (I := fun s : StandbyChan Dev Cmd =>
    Run iface params isOpen dev₀ guard s ∧ s.chan.ctl.stats.numActiveCycles = s.active ∧
      s.chan.ctl.stats.numPrechargedCycles = s.precharged) (fun _ h => h) ?_ ?_ hr).2
  · rintro s rfl
    exact ⟨.start rfl, rfl, rfl⟩
  · rintro s op t hrun hrun' ⟨-, hactive, hprecharged⟩ hg hstep
    refine ⟨hrun', ?_⟩
    obtain ⟨c, hchan, rfl⟩ := Option.map_eq_some_iff.mp hstep
    have hzero := hmask c (.next (Run.chan hrun) hg hchan)
    cases op with
    | tick =>
        obtain ⟨⟨ctl, dev, events⟩, hticked, rfl⟩ := Option.map_eq_some_iff.mp hchan
        have hcount := AiMDRAMController.tick_standby hticked
        rw [hactive, hprecharged] at hcount
        dsimp only at hzero ⊢
        cases hopen : isOpen dev with
        | true =>
            rw [hopen] at hzero
            have hne : iface.openRows dev params.channelId ≠ 0 :=
              fun h => Bool.false_ne_true (hzero.mp h).symm
            rw [if_neg hne, if_neg hne] at hcount
            exact ⟨hcount.1, hcount.2.trans (Int.add_zero _)⟩
        | false =>
            rw [hopen] at hzero
            have heq : iface.openRows dev params.channelId = 0 := hzero.mpr rfl
            rw [if_pos heq, if_pos heq] at hcount
            exact ⟨hcount.1.trans (Int.add_zero _), hcount.2⟩
    | send req | prioritySend req =>
        have hsame := (Chan.step_standby hchan nofun).1
        dsimp only
        rw [hsame]
        exact ⟨hactive, hprecharged⟩

end StandbyChan

end

section

variable {Cmd St Ext : Type} [DecidableEq Cmd]

/-- Each bit of the masks tells whether its bank is open, and the counters of the controller are
the numbers of ticks that left some bank open, and of the others. -/
structure CountsOpenBanks (model : DRAMModel Cmd St Ext) (opened : St) (numBanks : Nat)
    (name : Nat → Nat → List Nat) (s : StandbyChan model.Dev Cmd) : Prop where
  bit : ∀ (ch g b : Nat) mask r, s.chan.dev.openRows[ch]? = some mask →
    model.rowsAt s.chan.dev ch (name g b) = some r →
      (mask.getLsbD (g * numBanks + b) = true ↔ r.1 = opened)
  active : s.chan.ctl.stats.numActiveCycles = s.active
  precharged : s.chan.ctl.stats.numPrechargedCycles = s.precharged

/-- Whether the command of the next tick updates the mask with the banks. -/
def MirrorsIssued {model : DRAMModel Cmd St Ext} (mirrors : model.Dev → Cmd → AddrVec → Prop)
    (params : Params) (s : Chan model.Dev Cmd) : Op → Prop
  | .tick => ∀ e ∈ s.ctl.nextCommand model.idram params (model.tick s.dev),
      mirrors (model.tick s.dev) e.2 e.1.addrVec
  | _ => True

instance {model : DRAMModel Cmd St Ext} {mirrors : model.Dev → Cmd → AddrVec → Prop}
    [∀ dev cmd a, Decidable (mirrors dev cmd a)] {params : Params} {s : Chan model.Dev Cmd} :
    DecidablePred (MirrorsIssued mirrors params s)
  | .send _ | .prioritySend _ => isTrue trivial
  | .tick => inferInstanceAs (Decidable (∀ e ∈ s.ctl.nextCommand model.idram params
      (model.tick s.dev), mirrors (model.tick s.dev) e.2 e.1.addrVec))

theorem countsOpenBanks [DecidableEq St] {model : DRAMModel Cmd St Ext} {opened : St}
    {groups numBanks : Nat} {name : Nat → Nat → List Nat} {params : Params} {dev₀ : model.Dev}
    {guard : Chan model.Dev Cmd → Op → Prop}
    (hmatch : ∀ c, Chan.Run model.idram params dev₀ guard c →
      model.MasksMatch opened numBanks c.dev ∧
        ∀ ch, ch < c.dev.channels.length → BankGrid groups numBanks name (model.rowsAt c.dev ch))
    {s : StandbyChan model.Dev Cmd}
    (hr : StandbyChan.Run model.idram params
      (fun dev => model.someOpen opened dev params.channelId.toNat) dev₀ guard s) :
    CountsOpenBanks model opened numBanks name s := by
  obtain ⟨hmasks, hgrid⟩ := hmatch s.chan hr.chan
  obtain ⟨hactive, hprecharged⟩ :=
    hr.counters fun c hc => (hmatch c hc).1.eq_zero_iff params.channelId.toNat
  refine ⟨fun ch g b mask r hmask hrows => ?_, hactive, hprecharged⟩
  have hlt : ch < s.chan.dev.channels.length :=
    hmasks.length ▸ (List.getElem?_eq_some_iff.mp hmask).1
  exact (hmasks.mask ch mask hmask).bit_iff (hgrid ch hlt) hrows

end

/-! ## GDDR6 -/

namespace GDDR6

open Dram.GDDR6

variable {V : Timing → Int} {count : Nat → Int} {params : Params}
  {s : Chan (model V).Dev Cmd}

theorem issues_notGroup {guard : Chan (model V).Dev Cmd → Op → Prop}
    (hr : Chan.Run (model V).idram params ((model V).createNodes count) guard s)
    {c₁ : AiMDRAMController Cmd} {sched : Scheduled Cmd} {cmd : Cmd}
    (hissues : AiMDRAMController.Issues (model V).idram params s.ctl ((model V).tick s.dev)
      c₁ sched cmd) : cmd ≠ .ACT4 ∧ cmd ≠ .PRE4 := by
  by_cases htmod : cmd = .TMOD
  · subst htmod
    exact ⟨nofun, nofun⟩
  · rw [(hissues.ready htmod).1]
    refine getPreqCommand_answers (P := fun cmd => cmd ≠ .ACT4 ∧ cmd ≠ .PRE4) (by decide) _ ?_ _
    exact IsFinal.notGroup (finalOf_translated _ (Chan.picked_final hr hissues.next))

theorem run_masksMatch
    (hr : Chan.Run (model V).idram params ((model V).createNodes count)
      (MirrorsIssued (fun _ => MirrorsBanks count) params) s) :
    (model V).MasksMatch .Opened (count bank).toNat s.dev := by
  refine Chan.dev_invariant (I := fun dev : (model V).Dev =>
    (model V).MasksMatch .Opened (count bank).toNat dev) ?_ ?_ ?_ hr
  · exact DRAMModel.createNodes_masksMatch nofun
  · exact fun dev h => ⟨h.length, h.mask⟩
  · intro s c₁ sched cmd hrun hmirrors hissues hold
    obtain ⟨history, hs⟩ := Chan.deviceTiming (actionsKeepTiming V count) (windowsPositive V) hrun
    exact issueCommand_masksMatch hs hold (hmirrors _ hissues.nextCommand)
      (issues_notGroup hrun hissues)

theorem run_countsOpenBanks {s : StandbyChan (model V).Dev Cmd}
    (hr : StandbyChan.Run (model V).idram params
      (fun dev => (model V).someOpen .Opened dev params.channelId.toNat)
      ((model V).createNodes count) (MirrorsIssued (fun _ => MirrorsBanks count) params) s) :
    CountsOpenBanks (model V) .Opened (count bank).toNat (fun g b => [g, b]) s := by
  refine @countsOpenBanks _ _ _ _ _ (model V) .Opened (count bankgroup).toNat _ _ _ _ _ ?_ s hr
  intro c hc
  obtain ⟨history, hs⟩ := Chan.deviceTiming (actionsKeepTiming V count) (windowsPositive V) hc
  exact ⟨run_masksMatch hc, fun ch hch => bankGrid hs hch⟩

end GDDR6

/-! ## LPDDR4 and LPDDR5 -/

namespace LPDDR

open Dram.LPDDR

variable {gen : Generation} {V : Timing → Int} {count : Nat → Int} {params : Params}
  {s : Chan (model gen count V).Dev Cmd} {guard : Chan (model gen count V).Dev Cmd → Op → Prop}

theorem issues_notGroup
    (hr : Chan.Run (model gen count V).idram params ((model gen count V).createNodes count) guard s)
    {c₁ : AiMDRAMController Cmd} {sched : Scheduled Cmd} {cmd : Cmd}
    (hissues : AiMDRAMController.Issues (model gen count V).idram params s.ctl
      ((model gen count V).tick s.dev) c₁ sched cmd) :
    cmd ≠ .ACT4_1 ∧ cmd ≠ .ACT4_2 ∧ cmd ≠ .PRE4 := by
  by_cases htmod : cmd = .TMOD
  · subst htmod
    exact ⟨nofun, nofun, nofun⟩
  · rw [(hissues.ready htmod).1]
    refine getPreqCommand_answers (P := fun cmd => cmd ≠ .ACT4_1 ∧ cmd ≠ .ACT4_2 ∧ cmd ≠ .PRE4)
      (by decide) _ ?_ _
    exact IsFinal.notGroup (finalOf_translated _ (Chan.picked_final hr hissues.next))

theorem issues_act1
    (hr : Chan.Run (model gen count V).idram params ((model gen count V).createNodes count) guard s)
    {c₁ : AiMDRAMController Cmd} {sched : Scheduled Cmd} {cmd : Cmd}
    (hissues : AiMDRAMController.Issues (model gen count V).idram params s.ctl
      ((model gen count V).tick s.dev) c₁ sched cmd) (hact : cmd = .ACT_1) {ch : Nat}
    {path : List Nat} {r : BankRows St}
    (hnames : (model gen count V).Names sched.req.req.addrVec ch path)
    (hrows : (model gen count V).rowsAt ((model gen count V).tick s.dev) ch path = some r) :
    r.1 ≠ .Opened := by
  subst hact
  have hpreq := (hissues.ready nofun).1
  have hfinal : IsFinal sched.req.finalCommand :=
    finalOf_translated _ (Chan.picked_final hr hissues.next)
  rw [(model gen count V).rowsAt_addressed hnames] at hrows
  obtain ⟨b, hb, rfl⟩ := Option.map_eq_some_iff.mp hrows
  intro hopen
  have hclosed : b.state = .Closed := getPreqCommand_act1 hfinal hpreq.symm hb
  cases hclosed.symm.trans hopen

theorem run_masksMatch (hrank : count rank = 1)
    (hr : Chan.Run (model gen count V).idram params ((model gen count V).createNodes count)
      (MirrorsIssued MirrorsBanks params) s) :
    (model gen count V).MasksMatch .Opened (count bank).toNat s.dev := by
  refine Chan.dev_invariant (I := fun dev : (model gen count V).Dev =>
    (model gen count V).MasksMatch .Opened (count bank).toNat dev) ?_ ?_ ?_ hr
  · exact DRAMModel.createNodes_masksMatch nofun
  · exact fun dev h => ⟨h.length, h.mask⟩
  · intro s c₁ sched cmd hrun hmirrors hissues hold
    obtain ⟨history, hs⟩ := Chan.deviceTiming (actionsKeepTiming gen count V count)
      (windowsPositive gen count V) hrun
    exact issueCommand_masksMatch hrank hs hold (hmirrors _ hissues.nextCommand)
      (fun hact ch path r hnames hrows => issues_act1 hrun hissues hact hnames hrows)
      (issues_notGroup hrun hissues)

theorem run_countsOpenBanks (hrank : count rank = 1) {s : StandbyChan (model gen count V).Dev Cmd}
    (hr : StandbyChan.Run (model gen count V).idram params
      (fun dev => (model gen count V).someOpen .Opened dev params.channelId.toNat)
      ((model gen count V).createNodes count) (MirrorsIssued MirrorsBanks params) s) :
    CountsOpenBanks (model gen count V) .Opened (count bank).toNat (fun g b => [0, g, b]) s := by
  refine @countsOpenBanks _ _ _ _ _ (model gen count V) .Opened (count bankgroup).toNat _ _ _ _ _
    ?_ s hr
  intro c hc
  obtain ⟨history, hs⟩ := Chan.deviceTiming (actionsKeepTiming gen count V count)
    (windowsPositive gen count V) hc
  exact ⟨run_masksMatch hrank hc, fun ch hch => bankGrid hrank hs hch⟩

end LPDDR

/-! ## All three models -/

/-- In every run whose commands update the mask with the banks, over GDDR6 and over LPDDR4 and
LPDDR5 with one rank, each bit of the masks tells whether its bank is open, and the counters of
the controller count the cycles with some and with no open bank. -/
theorem openRows_follow_banks (gen : Dram.LPDDR.Generation) (V : Dram.GDDR6.Timing → Int)
    (V' : Dram.LPDDR.Timing → Int) (count : Nat → Int) (params : Params) :
    (∀ s, StandbyChan.Run (Dram.GDDR6.model V).idram params
        (fun dev => (Dram.GDDR6.model V).someOpen .Opened dev params.channelId.toNat)
        ((Dram.GDDR6.model V).createNodes count)
        (MirrorsIssued (fun _ => Dram.GDDR6.MirrorsBanks count) params) s →
      CountsOpenBanks (Dram.GDDR6.model V) .Opened (count Dram.GDDR6.bank).toNat
        (fun g b => [g, b]) s) ∧
    (count Dram.LPDDR.rank = 1 → ∀ s, StandbyChan.Run (Dram.LPDDR.model gen count V').idram params
        (fun dev => (Dram.LPDDR.model gen count V').someOpen .Opened dev params.channelId.toNat)
        ((Dram.LPDDR.model gen count V').createNodes count)
        (MirrorsIssued Dram.LPDDR.MirrorsBanks params) s →
      CountsOpenBanks (Dram.LPDDR.model gen count V') .Opened (count Dram.LPDDR.bank).toNat
        (fun g b => [0, g, b]) s) :=
  ⟨fun _ hr => GDDR6.run_countsOpenBanks hr, fun hrank _ hr => LPDDR.run_countsOpenBanks hrank hr⟩

/-- A read of a bank of the first bank group, in GDDR6 and in LPDDR4. -/
theorem openRows_follow_banks_read :
    (∃ s : StandbyChan Dram.GDDR6.aimModel.Dev Dram.GDDR6.Cmd, (s.active = 2 ∧ s.precharged = 0) ∧
      CountsOpenBanks Dram.GDDR6.aimModel .Opened 4 (fun g b => [g, b]) s) ∧
    ∃ s : StandbyChan Dram.LPDDR.aimModel.Dev Dram.LPDDR.Cmd, (s.active = 1 ∧ s.precharged = 1) ∧
      CountsOpenBanks Dram.LPDDR.aimModel .Opened 8 (fun g b => [0, g, b]) s := by
  have hrun : ((Runs.replay (StandbyChan.step Dram.GDDR6.aimModel.idram { channelId := 0 }
        fun dev => Dram.GDDR6.aimModel.someOpen .Opened dev 0)
      (fun s op => decide (MirrorsIssued (fun _ => Dram.GDDR6.MirrorsBanks
        Dram.GDDR6.x16Organization.countAt) { channelId := 0 } s.chan op))
      ⟨Chan.init Dram.GDDR6.aimModel.idram Dram.GDDR6.x16Device, 0, 0⟩
      [.send { type := .Read, addrVec := [0, 0, 1, 5, 0] }, .tick, .tick]).any fun s =>
        s.active = 2 ∧ s.precharged = 0) = true := by
    decide +kernel
  have hrun' : ((Runs.replay (StandbyChan.step Dram.LPDDR.aimModel.idram { channelId := 0 }
        fun dev => Dram.LPDDR.aimModel.someOpen .Opened dev 0)
      (fun s op => decide (MirrorsIssued Dram.LPDDR.MirrorsBanks { channelId := 0 } s.chan op))
      ⟨Chan.init Dram.LPDDR.aimModel.idram Dram.LPDDR.aimDevice, 0, 0⟩
      [.send { type := .Read, addrVec := [0, 0, 0, 1, 5, 0] }, .tick, .tick]).any fun s =>
        s.active = 1 ∧ s.precharged = 1) = true := by
    decide +kernel
  obtain ⟨s, hs, htest⟩ := Option.any_eq_true .. |>.mp hrun
  obtain ⟨s', hs', htest'⟩ := Option.any_eq_true .. |>.mp hrun'
  refine ⟨⟨s, of_decide_eq_true htest, ?_⟩, s', of_decide_eq_true htest', ?_⟩
  · have hr := StandbyChan.run_replay (fun _ _ hok => of_decide_eq_true hok) hs
    exact (openRows_follow_banks .LPDDR4 Dram.GDDR6.aimVals (fun _ => 0)
      Dram.GDDR6.x16Organization.countAt { channelId := 0 }).1 s hr
  · have hr := StandbyChan.run_replay (fun _ _ hok => of_decide_eq_true hok) hs'
    exact (openRows_follow_banks .LPDDR4 (fun _ => 0) (Dram.LPDDR.aimVals .LPDDR4)
      (Organization.countAt ⟨4096, 16, [32, 1, 1, 8, 32768, 1024]⟩) { channelId := 0 }).2 rfl s' hr

open Dram.GDDR6 in
/-- A read of a bank of the second bank group of GDDR6: the bit of a bank of the first group is
set. -/
theorem second_group_bit :
    ∃ s : StandbyChan aimModel.Dev Cmd,
      StandbyChan.Run aimModel.idram { channelId := 0 }
        (fun dev => aimModel.someOpen .Opened dev 0) x16Device (fun _ _ => True) s ∧
      s.chan.dev.openRows[0]? = some 0b10#16 ∧
      (aimModel.rowsAt s.chan.dev 0 [1, 1]).map Prod.fst = some .Opened ∧
      (aimModel.rowsAt s.chan.dev 0 [0, 1]).map Prod.fst = some .Closed ∧
        ¬ CountsOpenBanks aimModel .Opened 4 (fun g b => [g, b]) s := by
  have hrun : ((Runs.replay (StandbyChan.step aimModel.idram { channelId := 0 }
        fun dev => aimModel.someOpen .Opened dev 0) (fun _ _ => true)
      ⟨Chan.init aimModel.idram x16Device, 0, 0⟩
      [.send { type := .Read, addrVec := [0, 1, 1, 5, 0] }, .tick]).any fun s =>
        s.chan.dev.openRows[0]? = some 0b10#16 ∧
        (aimModel.rowsAt s.chan.dev 0 [1, 1]).map Prod.fst = some .Opened ∧
        (aimModel.rowsAt s.chan.dev 0 [0, 1]).map Prod.fst = some .Closed) = true := by
    decide +kernel
  obtain ⟨s, hs, htest⟩ := Option.any_eq_true .. |>.mp hrun
  obtain ⟨hmask, hopen, hclosed⟩ := of_decide_eq_true htest
  refine ⟨s, StandbyChan.run_replay (fun _ _ _ => trivial) hs, hmask, hopen, hclosed,
    fun hcounts => ?_⟩
  obtain ⟨r, hr, hstate⟩ := Option.map_eq_some_iff.mp hopen
  have hbit := (hcounts.bit 0 1 1 _ r hmask hr).mpr hstate
  exact absurd hbit (by decide)

end AimSimulator.Controller
