import Mathlib.Data.List.Nodup
import AimSimulator.Controller.ActiveBuffer
import AimSimulator.Dram.Dominance
import AimSimulator.Dram.RefreshTables
/-!
# Active requests never block the scheduler

The bank of an active request of a GDDR6 controller is closed or open with the row of the
request.  While it is closed nothing else can open it: an activation of that bank is ready for
the active request too, which is preferred, and `ACT16` is ready no earlier than its `ACT`.
So an active request never needs a precharge.
-/

namespace AimSimulator.Dram.GDDR6

variable {V : Timing → Int} {dev : (model V).Dev}

/-! ## The prerequisite of a read or a write -/

theorem access_preq_closed {final : Cmd} (hfinal : (model V).IsAccess final) {addrVec : AddrVec}
    {b : NodeBase Cmd St Unit} (hb : (model V).addressed dev addrVec = some b)
    (hclosed : b.state = .Closed) : (model V).getPreqCommand dev final addrVec = .ACT := by
  rcases access_opening hfinal addrVec with ⟨_, -, -, hact⟩ | ⟨hother, -⟩
  · exact hact
  · exact absurd hclosed (hother b hb)

theorem access_preq_open {final : Cmd} (hfinal : (model V).IsAccess final) {addrVec : AddrVec}
    {b : NodeBase Cmd St Unit} (hb : (model V).addressed dev addrVec = some b)
    (hopen : b.rows = openRows (addrVec.at row)) :
    (model V).getPreqCommand dev final addrVec = final := by
  obtain ⟨hnone, hbank⟩ := access_preqs hfinal
  rcases (model V).getPreqCommand_bank hnone dev addrVec with
    ⟨b', up, hb', hpreq⟩ | ⟨hnobank, -⟩
  · obtain rfl := Option.some.inj (hb.symm.trans hb')
    have hstate : b.state = .Opened := congrArg Prod.fst hopen
    have hrow : b.hasRow (addrVec.at row) = true := by
      rw [← hasRow_rows, hopen]
      simp [BankRows.hasRow]
    have hclosed : b.state ≠ .Closed := hstate ▸ by decide
    rw [hpreq, DRAMSpec.ownPreq, show (model V).preqs 0 final = _ from hbank]
    show (requireRowOpen final up (.bank b) addrVec dev.clk).getD (model V).commandOne = final
    rw [show requireRowOpen final up (.bank b) addrVec dev.clk = some final from
      (if_neg hclosed).trans ((if_pos hstate).trans (if_pos hrow))]
    rfl
  · rw [hnobank] at hb
    cases hb

theorem access_preq_ne_act16 {final : Cmd} (hfinal : (model V).IsAccess final)
    (addrVec : AddrVec) : (model V).getPreqCommand dev final addrVec ≠ .ACT16 := by
  rcases access_opening hfinal addrVec with ⟨_, -, -, hact⟩ | ⟨-, hplain⟩
  · rw [hact]
    exact nofun
  · intro hact
    rw [hact] at hplain
    cases hplain

theorem act_ready (hlast : (model V).ReadyLast .ACT .ACT16 dev) (hclk : 0 ≤ dev.clk)
    {a a' : AddrVec} (hready : (model V).checkReady dev .ACT16 a' = true)
    (hch : a'.at channel = a.at channel) {b : NodeBase Cmd St Unit}
    (hb : (model V).addressed dev a = some b) : (model V).checkReady dev .ACT a = true := by
  obtain ⟨c, hc, hb⟩ := Option.bind_eq_some_iff.mp hb
  have hc' : (model V).channelOf dev a' = some c := by
    rw [← hc, DRAMModel.channelOf, DRAMModel.channelOf, hch]
  rw [DRAMModel.checkReady, hc'] at hready
  rw [DRAMModel.checkReady, hc]
  have hle := DRAMSpec.readyAt_le (DRAMSpec.checkReady_readyAt _ hready) hclk
  have hindex : dev.channels[(a.at 0).toNat]? = some c := by
    unfold DRAMModel.channelOf at hc
    split at hc
    · cases hc
    · exact hc
  exact DRAMSpec.checkReady_of_readyBy _ hb (hlast _ c hindex) hle

/-! ## The row of an active request -/

/-- The bank of a request is closed, or open with the row of the request. -/
def HoldsOwnRow (dev : (model V).Dev) (addrVec : AddrVec) : Prop :=
  ∃ b, (model V).addressed dev addrVec = some b ∧
    (b.rows = closedRows ∨ b.rows = openRows (addrVec.at row))

/-- A command keeps the row of a request, unless it opens the closed bank with another row. -/
theorem HoldsOwnRow.issue {a a' : AddrVec} {cmd : Cmd} (h : HoldsOwnRow dev a)
    (hfinds : FindsRows dev cmd a')
    (hown : ∀ b, (model V).addressed dev a = some b → b.rows = closedRows →
      (cmd = .ACT → (model V).SameBankAddr a' a → a'.at row = a.at row) ∧
        (a'.at channel = a.at channel → cmd ≠ .ACT16)) :
    HoldsOwnRow ((model V).issueCommand dev cmd a') a := by
  obtain ⟨b, hb, hrows⟩ := h
  obtain ⟨ch, path, hnames, hr⟩ := (model V).exists_names hb
  obtain ⟨r', hr'⟩ : ∃ r', (model V).rowsAt ((model V).issueCommand dev cmd a') ch path = some r' := by
    rw [(model V).rowsAt_issueCommand (actsBy V), hr]
    exact ⟨_, rfl⟩
  have haddressed := @DRAMModel.rowsAt_addressed _ _ _ (model V)
    ((model V).issueCommand dev cmd a') _ _ _ hnames
  rw [hr'] at haddressed
  obtain ⟨b', hb', rfl⟩ := Option.map_eq_some_iff.mp haddressed.symm
  refine ⟨b', hb', ?_⟩
  obtain ⟨r, hold, hcases⟩ := issueCommand_rows hr'
  obtain rfl := Option.some.inj (hr.symm.trans hold)
  rcases hcases with heq | heq | ⟨hch, heq, ⟨rfl, hpath⟩ | rfl | rfl⟩
  · exact heq ▸ hrows
  · exact .inl heq
  · have hclosed : b.rows = closedRows := hfinds.needs ch path _ ⟨hch, .inr hpath⟩ hr
    have hsame : (model V).SameBankAddr a' a :=
      .of_pathOf (hch.trans hnames.1.symm) hpath hnames.2
    rw [heq, hclosed, (hown b hb hclosed).1 rfl hsame]
    exact .inr rfl
  · rcases hfinds.needs ch path _ ⟨hch, .inl rfl⟩ hr with hclosed | hopen
    · exact absurd rfl ((hown b hb hclosed).2 (hch.trans hnames.1.symm))
    · have hrow : a'.at row = a.at row := by
        rcases hrows with hclosed | hopen'
        · rw [hclosed] at hopen
          cases hopen
        · rw [hopen'] at hopen
          simpa using hopen.symm
      refine .inr ?_
      rw [heq, hopen, hrow]
      simp [BankRows.openRow]
  · exact absurd rfl hfinds.notGroup

end AimSimulator.Dram.GDDR6

namespace AimSimulator.Controller

open Dram Dram.GDDR6

variable {V : Timing → Int} {count : Nat → Int} {params : Params}
  {guard : Chan (model V).Dev Cmd → Op → Prop} {s : Chan (model V).Dev Cmd}

theorem run_readyLast (hV : V .nRRDS ≤ V .nRC)
    (hr : Chan.Run (model V).idram params ((model V).createNodes count) guard s) :
    (model V).ReadyLast .ACT .ACT16 s.dev := by
  refine Chan.dev_invariant (I := fun dev : (model V).Dev => (model V).ReadyLast .ACT .ACT16 dev)
    DRAMModel.createNodes_readyLast (fun dev h => h) ?_ hr
  intro s c₁ sched cmd hrun _ _ hlast
  obtain ⟨history, hdev⟩ := Chan.deviceTiming (actionsKeepTiming V count) (windowsPositive V) hrun
  exact DRAMModel.issueCommand_readyLast (actsOnBanks V) (actionsKeepTiming V count)
    (windowsPositive V) (dominated hV) hdev hlast cmd _

theorem picked_active_preq {dev : (model V).Dev} {q : Queued Cmd}
    (haccess : (model V).IsAccess q.finalCommand) (hrow : HoldsOwnRow dev q.req.addrVec) :
    (model V).getPreqCommand dev q.finalCommand q.req.addrVec = .ACT ∨
      (model V).getPreqCommand dev q.finalCommand q.req.addrVec = q.finalCommand := by
  obtain ⟨b, hb, hclosed | hopen⟩ := hrow
  · exact .inl (access_preq_closed haccess hb (congrArg Prod.fst hclosed))
  · exact .inr (access_preq_open haccess hb hopen)

section Issue

variable {c₁ : AiMDRAMController Cmd} {sched : Scheduled Cmd} {cmd : Cmd}

/-- A command keeps the rows of the requests that were active before: an activation of the bank of
one of them would be that request's own, which the scheduler prefers. -/
theorem issue_keepsActive (hV : V .nRRDS ≤ V .nRC)
    (hr : Chan.Run (model V).idram params ((model V).createNodes count) guard s)
    (hissues : AiMDRAMController.Issues (model V).idram params s.ctl ((model V).tick s.dev)
      c₁ sched cmd)
    (hI : ∀ e ∈ s.ctl.activeBuffer.buffer.map activeEntry, HoldsOwnRow s.dev e.1.addrVec) :
    ∀ e ∈ s.ctl.activeBuffer.buffer.map activeEntry,
      HoldsOwnRow ((model V).issueCommand ((model V).tick s.dev) cmd sched.req.req.addrVec)
        e.1.addrVec := by
  have hpicked := hissues.picked
  have hactive := AiMDRAMController.nextScheduled_activeBuffer hissues.next
  obtain ⟨history, hdev⟩ := Chan.deviceTiming (actionsKeepTiming V count) (windowsPositive V) hr
  obtain ⟨-, hbanks⟩ := run_activeBanks (opensBank V count) rfl (actionsKeepTiming V count)
    (windowsPositive V) hr
  have hlast : (model V).ReadyLast .ACT .ACT16 ((model V).tick s.dev) := run_readyLast hV hr
  have hready : ∀ {cmd'}, cmd = cmd' → cmd' ≠ .TMOD →
      (model V).getPreqCommand ((model V).tick s.dev) sched.req.finalCommand
        sched.req.req.addrVec = cmd' ∧
      (model V).checkReady ((model V).tick s.dev) cmd' sched.req.req.addrVec = true := by
    rintro _ rfl hne
    obtain ⟨hpreq, hready⟩ := hissues.ready hne
    exact ⟨hpreq.symm, hready⟩
  intro e he
  refine HoldsOwnRow.issue (hI e he) (issues_findsRows hr hissues (run_oneRowEach hr))
    fun b hb hclosed => ?_
  have hpreq : (model V).getPreqCommand ((model V).tick s.dev) e.2 e.1.addrVec = .ACT :=
    access_preq_closed (hbanks.access e he) hb (congrArg Prod.fst hclosed)
  have hover : sched.buffer ≠ .active →
      (model V).checkReady ((model V).tick s.dev) .ACT e.1.addrVec = false := by
    intro hbuffer
    obtain ⟨q, hq, rfl⟩ := List.mem_map.mp he
    have hover := hpicked.overActive hbuffer q (hactive ▸ hq)
    rw [← hpreq]
    exact hover
  have hself : sched.buffer = .active →
      activeEntry sched.req ∈ s.ctl.activeBuffer.buffer.map activeEntry := by
    intro hbuffer
    have hstands := hpicked.stands
    rw [hbuffer] at hstands
    exact List.mem_map_of_mem (hactive ▸ List.mem_of_getElem? hstands)
  constructor
  · intro hact hsame
    by_cases hbuffer : sched.buffer = .active
    · have hbank : bankOf (model V) (activeEntry sched.req) = bankOf (model V) e :=
        Prod.ext hsame.1 (DRAMSpec.SameBank.pathOf (model V).toDRAMSpec hsame.2)
      have heq := List.inj_on_of_nodup_map hbanks.distinct (hself hbuffer) he hbank
      exact congrArg (fun e : Request × Cmd => e.1.addrVec.at row) heq
    · have hother := (hready hact (by decide)).2
      rw [hsame.checkReady, hover hbuffer] at hother
      cases hother
  · intro hch hact
    obtain ⟨hpreq', hother⟩ := hready hact (by decide)
    by_cases hbuffer : sched.buffer = .active
    · exact access_preq_ne_act16 (hbanks.access _ (hself hbuffer)) _ hpreq'
    · rw [act_ready hlast hdev.clk_nonneg hother hch hb] at hover
      cases hover hbuffer

/-- A conventional request whose command opens a bank finds it closed, and opens it with its row. -/
theorem issue_opensOwn
    (hr : Chan.Run (model V).idram params ((model V).createNodes count) guard s)
    (hissues : AiMDRAMController.Issues (model V).idram params s.ctl ((model V).tick s.dev)
      c₁ sched cmd)
    (htype : sched.req.req.type ≠ .AIM) (hopen : (commandMeta cmd).isOpening = true) :
    HoldsOwnRow ((model V).issueCommand ((model V).tick s.dev) cmd sched.req.req.addrVec)
      sched.req.req.addrVec := by
  obtain ⟨history, hdev⟩ := Chan.deviceTiming (actionsKeepTiming V count) (windowsPositive V) hr
  have hfinds := issues_findsRows hr hissues (run_oneRowEach hr)
  have hplain : cmd ≠ .TMOD := by
    rintro rfl
    cases hopen
  obtain ⟨hpreq, -⟩ := hissues.ready hplain
  have hfinal : requestTranslations sched.req.req.type = some sched.req.finalCommand := by
    rw [← Chan.picked_final hr hissues.next, finalOf, if_neg htype]
    rfl
  rw [hpreq] at hopen
  obtain ⟨haccess, b, hb⟩ := (opensBank V count).access hdev hfinal hopen
  have hact : cmd = .ACT := by
    rcases access_opening haccess sched.req.req.addrVec with ⟨_, -, -, hact⟩ | ⟨-, hfalse⟩
    · exact hpreq.trans hact
    · exact absurd (hopen.symm.trans hfalse) (by decide)
  subst hact
  obtain ⟨ch, path, hnames, hrows⟩ := (model V).exists_names hb
  have hclosed : b.rows = closedRows :=
    hfinds.needs ch path _ ⟨hnames.1, .inr hnames.2⟩ hrows
  exact HoldsOwnRow.issue ⟨b, hb, .inl hclosed⟩ hfinds fun _ _ _ =>
    ⟨fun _ _ => rfl, fun _ h => by cases h⟩

theorem issue_holdsOwnRow (hV : V .nRRDS ≤ V .nRC)
    (hr : Chan.Run (model V).idram params ((model V).createNodes count) guard s)
    {c' : Queues Cmd}
    (hissues : AiMDRAMController.Issues (model V).idram params s.ctl ((model V).tick s.dev)
      c₁ sched cmd)
    (hserve : ServeStep (model V).idram c₁.toQueues sched
      [.issue (AiMDRAMController.stampIssue c₁.toQueues sched.req) cmd] c')
    (hI : ∀ e ∈ s.ctl.activeBuffer.buffer.map activeEntry, HoldsOwnRow s.dev e.1.addrVec) :
    ∀ e ∈ c'.activeBuffer.buffer.map activeEntry,
      HoldsOwnRow ((model V).issueCommand ((model V).tick s.dev) cmd sched.req.req.addrVec)
        e.1.addrVec := by
  have hactive := AiMDRAMController.nextScheduled_activeBuffer hissues.next
  have hold := issue_keepsActive hV hr hissues hI
  rcases (serve_active hserve hissues.picked.stands activeEntry
      fun h => Prod.ext h.req h.finalCommand).2 with
    hsub | ⟨-, htype, -, ⟨q, cmd', hevents, -, hopen⟩, happend⟩
  · exact fun e he => hold e (hactive ▸ hsub.subset he)
  · obtain ⟨-, rfl⟩ : _ ∧ cmd = cmd' := by simpa using hevents
    rw [happend, hactive]
    exact List.forall_mem_append.mpr ⟨hold,
      List.forall_mem_singleton.mpr (issue_opensOwn hr hissues htype hopen)⟩

end Issue

theorem run_holdsOwnRow (hV : V .nRRDS ≤ V .nRC)
    (hr : Chan.Run (model V).idram params ((model V).createNodes count) guard s) :
    ∀ e ∈ s.ctl.activeBuffer.buffer.map activeEntry, HoldsOwnRow s.dev e.1.addrVec := by
  have hentry : ∀ {q q' : Queued Cmd}, SameRequest q q' → activeEntry q' = activeEntry q :=
    fun h => Prod.ext h.req h.finalCommand
  refine hr.invariant_with (I := fun s : Chan (model V).Dev Cmd =>
      ∀ e ∈ s.ctl.activeBuffer.buffer.map activeEntry, HoldsOwnRow s.dev e.1.addrVec)
    (fun _ h => h) ?_ ?_
  · rintro s rfl e he
    cases he
  · rintro s op t hrun - hI - hstep
    cases op with
    | send req | prioritySend req =>
        obtain ⟨hdev, hactive⟩ := Chan.step_quiet hstep nofun
        rw [hdev, hactive]
        exact hI
    | tick =>
        obtain ⟨⟨ctl, dev, events⟩, hticked, rfl⟩ := Option.map_eq_some_iff.mp hstep
        rcases AiMDRAMController.tick_active hticked activeEntry hentry with
          ⟨rfl, hsub⟩ | ⟨c₁, sched, cmd, hissues, rfl, hserve⟩
        · exact fun e he => hI e (hsub.subset he)
        · exact issue_holdsOwnRow hV hrun hissues hserve hI

/-- Whether nothing blocks the active requests of a channel: each has its bank closed or open
with its own row and needs no closing command, and when one of them is ready the next tick
schedules it. -/
structure Unblocked (V : Timing → Int) (params : Params) (s : Chan (model V).Dev Cmd) : Prop where
  rows : ∀ q ∈ s.ctl.activeBuffer.buffer, HoldsOwnRow s.dev q.req.addrVec
  preq : ∀ q ∈ s.ctl.activeBuffer.buffer, (commandMeta ((model V).getPreqCommand
    ((model V).tick s.dev) q.finalCommand q.req.addrVec)).isClosing = false
  scheduled : ∀ c₁ prepared best,
    s.ctl.prepare (model V).idram params = some (c₁, prepared) →
      FRFCFS.getBestRequest (model V).idram ((model V).tick s.dev) .active c₁.activeBuffer =
        some best → best.ready (model V).idram ((model V).tick s.dev) = true →
          s.ctl.nextScheduled (model V).idram params ((model V).tick s.dev) = some (c₁, best)

theorem run_unblocked (hV : V .nRRDS ≤ V .nRC)
    (hr : Chan.Run (model V).idram params ((model V).createNodes count) guard s) :
    Unblocked V params s := by
  obtain ⟨-, hbanks⟩ := run_activeBanks (opensBank V count) rfl (actionsKeepTiming V count)
    (windowsPositive V) hr
  have hrows : ∀ q ∈ s.ctl.activeBuffer.buffer, HoldsOwnRow s.dev q.req.addrVec :=
    fun q hq => run_holdsOwnRow hV hr (activeEntry q) (List.mem_map_of_mem hq)
  have hpreq : ∀ q ∈ s.ctl.activeBuffer.buffer, (commandMeta ((model V).getPreqCommand
      ((model V).tick s.dev) q.finalCommand q.req.addrVec)).isClosing = false := by
    intro q hq
    have haccess : (model V).IsAccess q.finalCommand :=
      hbanks.access (activeEntry q) (List.mem_map_of_mem hq)
    have hrow : HoldsOwnRow ((model V).tick s.dev) q.req.addrVec := hrows q hq
    rcases picked_active_preq haccess hrow with h | h
    · rw [h]
      rfl
    · rw [h]
      rcases isAccess_cases haccess with h | h <;> rw [h] <;> rfl
  refine ⟨hrows, hpreq, fun c₁ prepared best hprep hbest hready => ?_⟩
  obtain ⟨hmem, hcandidate⟩ := FRFCFS.getBestRequest_spec (model V).idram hbest
  have hactive := AiMDRAMController.prepare_activeBuffer hprep
  have hclosing : (commandMeta best.command).isClosing = false := by
    rw [hcandidate]
    exact hpreq best.req (hactive ▸ List.mem_of_getElem? hmem)
  have hfilter : (FRFCFS.getBestRequest (model V).idram ((model V).tick s.dev) .active
      c₁.activeBuffer).filter (Scheduled.ready (model V).idram ((model V).tick s.dev)) =
        some best := Option.filter_eq_some_iff.mpr ⟨hbest, hready⟩
  have hkept : c₁.unlessClosing (model V).idram best = some best := by
    rw [AiMDRAMController.unlessClosing, AiMDRAMController.closesActive,
      show ((model V).idram.commandMeta best.command).isClosing = false from hclosing]
    rfl
  have hsched : (c₁.scheduleRequest (model V).idram params ((model V).tick s.dev)).2 =
      some best := by
    unfold AiMDRAMController.scheduleRequest
    rw [hfilter]
    exact hkept
  simp [AiMDRAMController.nextScheduled, hprep, hsched]

/-- For every organisation and every timing preset, with the timings that the setup resolves for
them, no run blocks its active requests. -/
theorem presets_unblocked {org : Organization} {preset : String} {values : List Int}
    (hpreset : timingPresets.lookup preset = some values) {vals : Timing → Int}
    (hvals : deviceTables.setTimingVals org { preset := some preset } = .ok vals)
    {s : Chan (model vals).Dev Cmd}
    (hr : Chan.Run (model vals).idram params ((model vals).createNodes org.countAt)
      (fun _ _ => True) s) : Unblocked vals params s := by
  obtain ⟨nRFC, nREFI, rfl⟩ := deviceTables_setTimingVals hpreset hvals
  exact run_unblocked (presets_nRRDS_le_nRC hpreset org.dq nRFC nREFI) hr

/-- A read that waits in the active buffer for its bank, and a `SYNC` behind it. -/
theorem presets_unblocked_read :
    ∃ s : Chan aimModel.Dev Cmd, s.ctl.activeBuffer.buffer ≠ [] ∧ s.ctl.aimBuffer.buffer ≠ [] ∧
      Unblocked aimVals { channelId := 0 } s := by
  have hrun : ((Chan.replay aimModel.idram { channelId := 0 } x16Device (fun _ _ => true)
      [.send { type := .Read, addrVec := [0, 1, 1, 5, 0] }, .tick,
        .send { type := .AIM, opcode := .ISR_SYNC }]).any fun s =>
        !s.ctl.activeBuffer.buffer.isEmpty && !s.ctl.aimBuffer.buffer.isEmpty) = true := by
    decide +kernel
  obtain ⟨s, hs, htest⟩ := Option.any_eq_true .. |>.mp hrun
  obtain ⟨hactive, haim⟩ := Bool.and_eq_true_iff.mp htest
  have hnonempty : ∀ {l : List (Queued Cmd)}, (!l.isEmpty) = true → l ≠ [] := by
    rintro _ h rfl
    cases h
  exact ⟨s, hnonempty hactive, hnonempty haim,
    @presets_unblocked _ x16Organization _ _ rfl _ (aimVals_setup _) _
      (Chan.replay_run (fun _ _ _ => trivial) hs)⟩

end AimSimulator.Controller
