import AimSimulator.Analysis.StandbyTotals
import AimSimulator.Dma.Decode
/-!
# Trace replay and the counters of a simulation

In every run of the memory system the recorder of each channel follows its controller, so
that the replay of all traces reaches the sums of the standby counters exactly where every
channel is replayable.
-/

namespace AimSimulator.Analysis

open Dram Controller

section

variable {Cmd St Ext : Type} [DecidableEq Cmd] {model : DRAMModel Cmd St Ext}
  {spec : TraceSpec} {commandName : Cmd → String} {rowOp : Cmd → AddrVec → RowOp} {refreshAll : Cmd}
  {InRange : Cmd → AddrVec → Prop} {p : Dma.SystemParams} {params : Params}

/-! ## The mask of one channel -/

theorem issueCommand_openRows (dev : model.Dev) (cmd : Cmd) {a : AddrVec} {channel : Nat}
    (hzero : a.at 0 = channel) :
    (model.idram.issueCommand dev cmd a).openRows =
      dev.openRows.modify channel (model.openRowsAfter cmd a) := by
  change (model.issueCommand dev cmd a).openRows = _
  unfold DRAMModel.issueCommand
  rw [if_neg (by omega), hzero]
  rfl

theorem getD_modify_self {masks : List (BitVec 16)} {channel : Nat} {f : BitVec 16 → BitVec 16}
    (h : channel < masks.length) :
    (masks.modify channel f).getD channel 0 = f (masks.getD channel 0) := by
  rw [List.getD_eq_getElem?_getD, List.getD_eq_getElem?_getD, List.getElem?_modify_eq,
    List.getElem?_eq_getElem h]
  rfl

theorem getD_modify_of_ne {masks : List (BitVec 16)} {channel other : Nat}
    {f : BitVec 16 → BitVec 16} (h : other ≠ channel) :
    (masks.modify channel f).getD other 0 = masks.getD other 0 := by
  rw [List.getD_eq_getElem?_getD, List.getD_eq_getElem?_getD,
    List.getElem?_modify_ne _ _ h.symm]

/-! ## One controller -/

/-- What holds of a channel between the ticks, over the mask of its row bits. -/
structure ChannelFollows (spec : TraceSpec) (commandName : Cmd → String)
    (refreshAll : Cmd) (InRange : Cmd → AddrVec → Prop) (channel : Nat)
    (t : Traced Cmd) (mask : BitVec 16) : Prop where
  addressed : ∀ q ∈ t.ctl.outstanding, Dma.Addressed channel q.req
  follows : ∃ m, Follows spec commandName refreshAll InRange m t mask

theorem refreshRequest_addressed (channel rank : Nat) : Dma.Addressed channel
    (AiMDRAMController.refreshRequest model.idram { params with channelId := channel } rank) := by
  right
  unfold AiMDRAMController.refreshRequest
  rw [Dma.at_set_succ, Dma.at_set_zero]
  rw [List.length_replicate]
  exact Nat.succ_pos _

theorem Traced.send_follows {channel : Nat} {req : Request} {ok : Bool} {t t' : Traced Cmd}
    {mask : BitVec 16} (hreq : Dma.Addressed channel req)
    (ht : ChannelFollows spec commandName refreshAll InRange channel t mask)
    (h : t.send model.idram req = some (ok, t')) :
    ChannelFollows spec commandName refreshAll InRange channel t' mask ∧
      t'.recorder = t.recorder := by
  obtain ⟨⟨ok, ctl, events⟩, hsent, heq⟩ := Option.map_eq_some_iff.mp h
  obtain ⟨-, rfl⟩ := Prod.mk.inj heq
  obtain ⟨m, hm⟩ := ht.follows
  have hstats := (AiMDRAMController.SameRest.send hsent).stats
  exact ⟨⟨AiMDRAMController.send_requests hreq hsent ht.addressed, m, hm.congr hstats rfl rfl⟩, rfl⟩

theorem Traced.tick_follows
    (hrec : RecordedBy spec model.openRowsAfter commandName rowOp refreshAll InRange)
    {channel : Nat} {t t' : Traced Cmd} {dev dev' : model.Dev} (hchannel : channel < dev.openRows.length)
    (ht : ChannelFollows spec commandName refreshAll InRange channel t
      (dev.openRows.getD channel 0))
    (h : t.tick model.idram commandName params channel dev = some (t', dev')) :
    ChannelFollows spec commandName refreshAll InRange channel t' (dev'.openRows.getD channel 0) ∧
      t'.recorder.clk = t.recorder.clk + 1 ∧ dev'.openRows.length = dev.openRows.length ∧
        ∀ other, other ≠ channel → dev'.openRows.getD other 0 = dev.openRows.getD other 0 := by
  obtain ⟨⟨ctl, dev'', events⟩, hticked, heq⟩ := Option.map_eq_some_iff.mp h
  obtain ⟨rfl, rfl⟩ := Prod.mk.inj heq
  obtain ⟨m, hm⟩ := ht.follows
  obtain ⟨hactive, hprecharged⟩ := AiMDRAMController.tick_standby hticked
  have haddressed := AiMDRAMController.tick_requests (P := Dma.Addressed channel)
    (fun _ rank _ => refreshRequest_addressed channel rank) hticked ht.addressed
  rcases AiMDRAMController.tick_device hticked with
    ⟨rfl, -, hissued⟩ | ⟨c₁, sched, cmd, hissues, rfl, -, hissued⟩
  · refine ⟨⟨haddressed, m.idle, hm.idle hactive hprecharged ?_ ?_⟩, rfl, rfl, fun _ _ => rfl⟩
    · dsimp only
      rw [hissued]
      rfl
    · dsimp only
      rw [hissued]
      exact List.append_nil _
  · have hzero : sched.req.req.addrVec.at 0 = channel :=
      (AiMDRAMController.nextScheduled_requests
        (fun _ rank _ => refreshRequest_addressed channel rank) hissues.next
        ht.addressed).resolve_left (Bool.eq_false_iff.mp hissues.notBarrier)
    have hrows := issueCommand_openRows dev cmd hzero
    have hreq := (SameRequest.stampIssue c₁.toQueues sched.req).req
    refine ⟨⟨haddressed, m.issue (rowOp cmd sched.req.req.addrVec), ?_⟩, rfl, ?_, ?_⟩
    · refine hm.issue hrec ?_ hactive hprecharged ?_ ?_
      · rw [hrows, getD_modify_self hchannel]
      · dsimp only
        rw [hissued, List.head?_cons, Option.map_some]
        dsimp only
        rw [hreq]
      · dsimp only
        rw [hissued, List.head?_cons, Option.toList_some, List.map_singleton]
        dsimp only
        rw [hreq]
        rfl
    · rw [hrows, List.length_modify]
    · intro other hother
      rw [hrows, getD_modify_of_ne hother]

/-! ## Runs -/

structure SimFollows (spec : TraceSpec) (commandName : Cmd → String)
    (refreshAll : Cmd) (InRange : Cmd → AddrVec → Prop) (numControllers : Nat)
    (clk : Int) (s : Simulation model.Dev Cmd) : Prop where
  rows : numControllers ≤ s.dev.openRows.length
  delivers : s.sys.Delivers (fun _ => True) Dma.Addressed (fun channel t =>
    ChannelFollows spec commandName refreshAll InRange channel t
      (s.dev.openRows.getD channel 0)) clk

namespace SimFollows

variable {n : Nat} {clk : Int} {s s' : Simulation model.Dev Cmd}

theorem tickController
    (hrec : RecordedBy spec model.openRowsAfter commandName rowOp refreshAll InRange)
    (hs : SimFollows spec commandName refreshAll InRange n clk s) {channel : Nat}
    (hchannel : channel < n)
    (h : s.tickController model.idram commandName params channel = some s') :
    SimFollows spec commandName refreshAll InRange n clk s' ∧ ∀ i,
      (s'.sys.controllers i).recorder.clk =
        (s.sys.controllers i).recorder.clk + if i = channel then 1 else 0 := by
  obtain ⟨⟨t, dev⟩, htick, rfl⟩ := Option.map_eq_some_iff.mp h
  obtain ⟨ht, hclk, hlength, hother⟩ := Traced.tick_follows hrec
    (Nat.lt_of_lt_of_le hchannel hs.rows) (hs.delivers.controllers channel) htick
  refine ⟨⟨hlength ▸ hs.rows, hs.delivers.clock, hs.delivers.hosts, fun i => ?_,
    hs.delivers.waiting⟩, fun i => ?_⟩
  · by_cases hi : i = channel
    · subst hi
      dsimp only
      rw [if_pos rfl]
      exact ht
    · dsimp only
      rw [if_neg hi, hother i hi]
      exact hs.delivers.controllers i
  · by_cases hi : i = channel
    · subst hi
      dsimp only
      rw [if_pos rfl, if_pos rfl]
      exact hclk
    · dsimp only
      rw [if_neg hi, if_neg hi, Int.add_zero]

theorem tickControllers
    (hrec : RecordedBy spec model.openRowsAfter commandName rowOp refreshAll InRange)
    {channels : List Nat} (hnodup : channels.Nodup) (hchannels : ∀ c ∈ channels, c < n)
    (hs : SimFollows spec commandName refreshAll InRange n clk s)
    (h : channels.foldlM (Simulation.tickController model.idram commandName params) s = some s') :
    SimFollows spec commandName refreshAll InRange n clk s' ∧ ∀ i,
      (s'.sys.controllers i).recorder.clk =
        (s.sys.controllers i).recorder.clk + if i ∈ channels then 1 else 0 := by
  induction channels generalizing s with
  | nil =>
      obtain rfl := Option.some.inj h
      exact ⟨hs, fun i => (Int.add_zero _).symm⟩
  | cons channel channels ih =>
      obtain ⟨hnew, hnodup⟩ := List.nodup_cons.mp hnodup
      obtain ⟨hchannel, hchannels⟩ := List.forall_mem_cons.mp hchannels
      rw [List.foldlM_cons] at h
      obtain ⟨u, hhead, hrest⟩ := Option.bind_eq_some_iff.mp h
      obtain ⟨hu, hclk⟩ := hs.tickController hrec hchannel hhead
      obtain ⟨hs', hclk'⟩ := ih hnodup hchannels hu hrest
      refine ⟨hs', fun i => ?_⟩
      rw [hclk' i, hclk i]
      by_cases hi : i = channel
      · subst hi
        rw [if_pos rfl, if_neg hnew, if_pos List.mem_cons_self, Int.add_zero]
      · rw [if_neg hi, Int.add_zero]
        simp only [List.mem_cons, hi, false_or]

/-- The channels between two steps, all of them at the clock of the memory system. -/
structure InStep (spec : TraceSpec) (commandName : Cmd → String) (refreshAll : Cmd)
    (InRange : Cmd → AddrVec → Prop) (n : Nat) (s : Simulation model.Dev Cmd) : Prop where
  rows : n ≤ s.dev.openRows.length
  delivers : s.sys.Delivers (fun _ => True) Dma.Addressed (fun channel t =>
    ChannelFollows spec commandName refreshAll InRange channel t (s.dev.openRows.getD channel 0) ∧
      (channel < n → t.recorder.clk = s.memorySystemCycles)) s.memorySystemCycles

theorem InStep.init {count : Nat → Int} (hn : n ≤ (count 0).toNat) :
    InStep spec commandName refreshAll InRange n
      (Simulation.init model.idram (model.createNodes count)) := by
  refine ⟨(List.length_replicate ..).symm ▸ hn, rfl, fun host hmem => (List.not_mem_nil hmem).elim,
    fun i => ⟨⟨fun q hq => ?_, {}, ?_⟩, ?_⟩, fun i copy hmem => (List.not_mem_nil hmem).elim⟩
  · exact (List.not_mem_nil hq).elim
  · have hzero : (Simulation.init model.idram (model.createNodes count)).dev.openRows.getD i 0 =
        0 := by
      change (List.replicate _ 0).getD i 0 = 0
      rw [List.getD_eq_getElem?_getD, List.getElem?_replicate]
      split <;> rfl
    rw [hzero]
    exact .init rfl rfl
  · exact fun _ => rfl

theorem InStep.tick
    (hrec : RecordedBy spec model.openRowsAfter commandName rowOp refreshAll InRange)
    (hs : InStep spec commandName refreshAll InRange p.numControllers s)
    (h : s.step model.idram commandName p params .tick = some s') :
    InStep spec commandName refreshAll InRange p.numControllers s' := by
  obtain ⟨sys, hsys, hloop⟩ := Option.bind_eq_some_iff.mp h
  have hdelivers := hs.delivers.tick
    (fun channel req ok t t' hreq ht hsend => by
      obtain ⟨hfollows, hrecorder⟩ := Traced.send_follows hreq ht.1 hsend
      exact ⟨hfollows, fun hc => hrecorder ▸ ht.2 hc⟩)
    (fun cfrValues host d _ hd c hc id => Dma.decode_addressed hd hc) hsys
  have hsim : SimFollows spec commandName refreshAll InRange p.numControllers
      (s.memorySystemCycles + 1) ({ sys, dev := model.tick s.dev } : Simulation model.Dev Cmd) :=
    ⟨hs.rows, hdelivers.clock, hdelivers.hosts, fun c => (hdelivers.controllers c).1, hdelivers.waiting⟩
  obtain ⟨hs', hclk⟩ := hsim.tickControllers hrec List.nodup_range
    (fun c hc => List.mem_range.mp hc) hloop
  have hcycles : s'.memorySystemCycles = s.memorySystemCycles + 1 := hs'.delivers.clock
  refine ⟨hs'.rows, rfl, hs'.delivers.hosts, fun c => ⟨hs'.delivers.controllers c, fun hc => ?_⟩,
    hs'.delivers.waiting⟩
  rw [hclk c, if_pos (List.mem_range.mpr hc), hcycles]
  exact congrArg (· + 1) ((hdelivers.controllers c).2 hc)

theorem inStep (hrec : RecordedBy spec model.openRowsAfter commandName rowOp refreshAll InRange)
    {count : Nat → Int} (hn : p.numControllers ≤ (count 0).toNat)
    (hr : Simulation.Run model.idram commandName p params (model.createNodes count) s) :
    InStep spec commandName refreshAll InRange p.numControllers s := by
  refine hr.invariant (I := fun s : Simulation model.Dev Cmd =>
    InStep spec commandName refreshAll InRange p.numControllers s) ?_ ?_
  · rintro s rfl
    exact InStep.init hn
  · rintro s op t hs - hstep
    cases op with
    | host req =>
        obtain ⟨⟨ok, sys⟩, hsent, rfl⟩ := Option.map_eq_some_iff.mp hstep
        have hsys := hs.delivers.host trivial hsent
        have hcycles : sys.dma.clk = s.memorySystemCycles := hsys.clock
        refine ⟨hs.rows, rfl, hsys.hosts, fun c => ⟨(hsys.controllers c).1, fun hc => ?_⟩,
          hsys.waiting⟩
        exact ((hsys.controllers c).2 hc).trans hcycles.symm
    | receive i =>
        obtain ⟨copy, -, hstep⟩ := Option.bind_eq_some_iff.mp hstep
        obtain ⟨sys, hreceive, rfl⟩ := Option.map_eq_some_iff.mp hstep
        have hbefore : Dma.System.Delivers _ _ _ _
            { s.sys with inFlight := s.sys.inFlight.eraseIdx i } :=
          hs.delivers.congr rfl rfl rfl rfl
        have hsys := hbefore.receive hreceive
        have hcycles : sys.dma.clk = s.memorySystemCycles := hsys.clock
        refine ⟨hs.rows, rfl, hsys.hosts, fun c => ⟨(hsys.controllers c).1, fun hc => ?_⟩,
          hsys.waiting⟩
        exact ((hsys.controllers c).2 hc).trans hcycles.symm
    | tick => exact hs.tick hrec hstep

end SimFollows

/-! ## The replay of a simulation -/

def ReplaysCounters {Dev : Type} (spec : TraceSpec) (n : Nat) (s : Simulation Dev Cmd) : Prop :=
  ∃ totals, spec.traceBasedActivityCycles s.memorySystemCycles (s.traceFiles spec.tracePrefix n) =
      .ok totals ∧
    totals.actStbyCycles = s.activeCycles n ∧ totals.preStbyCycles = s.prechargedCycles n

/-- There are channels, all of them replayable, and the split of the dynamic cycles has two
windows where it is used. -/
structure AllReplayable (spec : TraceSpec) (refreshAll : Cmd) (InRange : Cmd → AddrVec → Prop)
    (n : Nat) (s : Simulation model.Dev Cmd) : Prop where
  some : n ≠ 0
  windows : spec.useIdd0Split = true → 0 < spec.nRAS ∧ spec.nRAS < spec.nRC
  channels : ∀ c < n, Replayable refreshAll InRange (s.sys.controllers c).issues
    (s.dev.openRows.getD c 0)

theorem replaysCounters_iff (hrec : RecordedBy spec model.openRowsAfter commandName rowOp refreshAll
      InRange) {count : Nat → Int} (hn : p.numControllers ≤ (count 0).toNat)
    {s : Simulation model.Dev Cmd}
    (hr : Simulation.Run model.idram commandName p params (model.createNodes count) s) :
    ReplaysCounters spec p.numControllers s ↔
      AllReplayable spec refreshAll InRange p.numControllers s := by
  have hs := SimFollows.inStep hrec hn hr
  have hfollows : ∀ c, ∃ m, Follows spec commandName refreshAll InRange m (s.sys.controllers c)
      (s.dev.openRows.getD c 0) := fun c => (hs.delivers.controllers c).1.follows
  obtain ⟨m, hm⟩ := Classical.axiomOfChoice hfollows
  have hclk : ∀ c ∈ List.range p.numControllers,
      (s.sys.controllers c).recorder.clk = s.memorySystemCycles := fun c hc =>
    (hs.delivers.controllers c).2 (List.mem_range.mp hc)
  have hiff := replay_eq_counters_iff (fun c _ => hm c) hclk
    fun c => s!"{spec.tracePrefix}.ch{c}"
  refine hiff.trans ⟨fun ⟨hsome, hwindows, hchannels⟩ => ?_, fun ⟨hsome, hwindows, hchannels⟩ => ?_⟩
  · exact ⟨mt (fun h => List.range_eq_nil.mpr h) hsome, hwindows,
      fun c hc => hchannels c (List.mem_range.mpr hc)⟩
  · exact ⟨mt List.range_eq_nil.mp hsome, hwindows,
      fun c hc => hchannels c (List.mem_range.mp hc)⟩

instance (refreshAll : Cmd) (InRange : Cmd → AddrVec → Prop) [∀ cmd a, Decidable (InRange cmd a)]
    (issues : List (MaskedIssue Cmd)) (mask : BitVec 16) :
    Decidable (Replayable refreshAll InRange issues mask) :=
  decidable_of_iff ((issues ≠ [] ∧ ∀ e ∈ issues, InRange e.cmd e.addrVec) ∧
      (∀ e ∈ issues, e.cmd = refreshAll → e.mask = 0) ∧ mask = 0)
    ⟨fun ⟨⟨hissued, hrange⟩, hfresh, hzero⟩ => ⟨hissued, hrange, hfresh, hzero⟩,
      fun ⟨hissued, hrange, hfresh, hzero⟩ => ⟨⟨hissued, hrange⟩, hfresh, hzero⟩⟩

instance (refreshAll : Cmd) (InRange : Cmd → AddrVec → Prop) [∀ cmd a, Decidable (InRange cmd a)]
    (n : Nat) (s : Simulation model.Dev Cmd) :
    Decidable (AllReplayable spec refreshAll InRange n s) :=
  decidable_of_iff (n ≠ 0 ∧ (spec.useIdd0Split = true → 0 < spec.nRAS ∧ spec.nRAS < spec.nRC) ∧
      ∀ c < n, Replayable refreshAll InRange (s.sys.controllers c).issues
        (s.dev.openRows.getD c 0))
    ⟨fun ⟨hsome, hwindows, hchannels⟩ => ⟨hsome, hwindows, hchannels⟩,
      fun ⟨hsome, hwindows, hchannels⟩ => ⟨hsome, hwindows, hchannels⟩⟩

theorem Simulation.run_replay {dev₀ : model.Dev} {ops : List Simulation.Op}
    {s : Simulation model.Dev Cmd}
    (h : Runs.replay (Simulation.step model.idram commandName p params) (fun _ _ => true)
      (Simulation.init model.idram dev₀) ops = some s) :
    Simulation.Run model.idram commandName p params dev₀ s :=
  Runs.replay_reachable (fun _ _ _ => trivial) (.start rfl) h

end

/-! ## GDDR6 and LPDDR4 -/

def GDDR6.systemParams (count : Nat → Int) : Dma.SystemParams :=
  ⟨(count Dram.GDDR6.channel).toNat, false, count Dram.GDDR6.bankgroup, count Dram.GDDR6.bank⟩

def LPDDR4.systemParams (count : Nat → Int) : Dma.SystemParams :=
  ⟨(count Dram.LPDDR.channel).toNat, true, count Dram.LPDDR.bankgroup, count Dram.LPDDR.bank⟩

/-- In every run over GDDR6, and over LPDDR4 with one bank group of 8 banks, the replay of the
traces returns the sums of the standby counters exactly where every channel is replayable. -/
theorem trace_replay_iff (V : Dram.GDDR6.Timing → Int) (V' : Dram.LPDDR.Timing → Int)
    (count : Nat → Int) (params : Params) (tracePrefix : String) :
    (∀ s, Simulation.Run (Dram.GDDR6.model V).idram GDDR6.commandName (GDDR6.systemParams count)
        params ((Dram.GDDR6.model V).createNodes count) s →
      (ReplaysCounters (GDDR6.traceSpec tracePrefix (V .nRAS) (V .nRC)) (count 0).toNat s ↔
        AllReplayable (GDDR6.traceSpec tracePrefix (V .nRAS) (V .nRC)) .REFab GDDR6.InRange
          (count 0).toNat s)) ∧
    (count Dram.LPDDR.bankgroup = 1 → count Dram.LPDDR.bank = 8 → ∀ s,
      Simulation.Run (Dram.LPDDR.model .LPDDR4 count V').idram LPDDR4.commandName
        (LPDDR4.systemParams count) params
        ((Dram.LPDDR.model .LPDDR4 count V').createNodes count) s →
      (ReplaysCounters (LPDDR4.traceSpec tracePrefix (V' .nRAS) (V' .nRC)) (count 0).toNat s ↔
        AllReplayable (LPDDR4.traceSpec tracePrefix (V' .nRAS) (V' .nRC)) .REFab LPDDR4.InRange
          (count 0).toNat s)) := by
  refine ⟨fun s hr => ?_, fun hgroup hbank s hr => ?_⟩
  · exact replaysCounters_iff (GDDR6.recordedBy V ..) (Nat.le_refl _) hr
  · have hbanks : (count Dram.LPDDR.bankgroup * count Dram.LPDDR.bank).toNat = 8 := by
      rw [hgroup, hbank]
      rfl
    exact replaysCounters_iff (LPDDR4.recordedBy V' hbanks ..) (Nat.le_refl _) hr

/-- The two channels of `GDDR6_8Gb_x16`, and one channel of LPDDR4. -/
abbrev gddr6Count : Nat → Int := Dram.GDDR6.x16Organization.countAt
abbrev lpddr4Count : Nat → Int := Organization.countAt ⟨4096, 16, [1, 1, 1, 8, 32768, 1024]⟩

/-- Calls of the memory system over GDDR6 from a fresh state. -/
def gddr6Replay (ops : List Simulation.Op) :
    Option (Simulation Dram.GDDR6.aimModel.Dev Dram.GDDR6.Cmd) :=
  Runs.replay (Simulation.step Dram.GDDR6.aimModel.idram GDDR6.commandName
      (GDDR6.systemParams gddr6Count) { channelId := 0 }) (fun _ _ => true)
    (Simulation.init Dram.GDDR6.aimModel.idram (Dram.GDDR6.aimModel.createNodes gddr6Count)) ops

/-- A write to the global buffers of all channels, in GDDR6 and in LPDDR4. -/
theorem trace_replay_iff_writeGB :
    (∃ s, Simulation.Run Dram.GDDR6.aimModel.idram GDDR6.commandName
        (GDDR6.systemParams gddr6Count) { channelId := 0 }
        (Dram.GDDR6.aimModel.createNodes gddr6Count) s ∧ s.memorySystemCycles = 1 ∧
      ReplaysCounters (GDDR6.traceSpec "commands" (Dram.GDDR6.aimVals .nRAS)
        (Dram.GDDR6.aimVals .nRC)) 2 s) ∧
    ∃ s, Simulation.Run (Dram.LPDDR.model .LPDDR4 lpddr4Count
          (Dram.LPDDR.aimVals .LPDDR4)).idram LPDDR4.commandName
        (LPDDR4.systemParams lpddr4Count) { channelId := 0 }
        ((Dram.LPDDR.model .LPDDR4 lpddr4Count
          (Dram.LPDDR.aimVals .LPDDR4)).createNodes lpddr4Count) s ∧
        s.memorySystemCycles = 1 ∧
      ReplaysCounters (LPDDR4.traceSpec "commands"
        (Dram.LPDDR.aimVals .LPDDR4 .nRAS)
        (Dram.LPDDR.aimVals .LPDDR4 .nRC)) 1 s := by
  have hrun : ((gddr6Replay
      [.host { type := .AIM, opcode := .ISR_WR_GB, channelMask := 0xC0000000, opsize := 1 },
        .tick]).any fun s => s.memorySystemCycles = 1 ∧
          AllReplayable (GDDR6.traceSpec "commands"
            (Dram.GDDR6.aimVals .nRAS)
            (Dram.GDDR6.aimVals .nRC)) .REFab GDDR6.InRange 2 s) =
          true := by
    decide +kernel
  have hrun' : ((Runs.replay (Simulation.step (Dram.LPDDR.model .LPDDR4 lpddr4Count
          (Dram.LPDDR.aimVals .LPDDR4)).idram LPDDR4.commandName
        (LPDDR4.systemParams lpddr4Count) { channelId := 0 }) (fun _ _ => true)
      (Simulation.init (Dram.LPDDR.model .LPDDR4 lpddr4Count
          (Dram.LPDDR.aimVals .LPDDR4)).idram
        ((Dram.LPDDR.model .LPDDR4 lpddr4Count
          (Dram.LPDDR.aimVals .LPDDR4)).createNodes lpddr4Count))
      [.host { type := .AIM, opcode := .ISR_WR_GB, channelMask := 0x80000000, opsize := 1 },
        .tick]).any fun s => s.memorySystemCycles = 1 ∧
          AllReplayable (LPDDR4.traceSpec "commands"
            (Dram.LPDDR.aimVals .LPDDR4 .nRAS)
            (Dram.LPDDR.aimVals .LPDDR4 .nRC)) .REFab LPDDR4.InRange 1
              s) = true := by
    decide +kernel
  obtain ⟨s, hs, htest⟩ := Option.any_eq_true .. |>.mp hrun
  obtain ⟨s', hs', htest'⟩ := Option.any_eq_true .. |>.mp hrun'
  obtain ⟨hcycles, hall⟩ := of_decide_eq_true htest
  obtain ⟨hcycles', hall'⟩ := of_decide_eq_true htest'
  refine ⟨⟨s, Simulation.run_replay hs, hcycles, ?_⟩, s', Simulation.run_replay hs', hcycles', ?_⟩
  · exact ((trace_replay_iff _ (fun _ => 0) gddr6Count _ "commands").1 s
      (Simulation.run_replay hs)).mpr hall
  · exact ((trace_replay_iff (fun _ => 0) _ lpddr4Count _ "commands").2 rfl rfl s'
      (Simulation.run_replay hs')).mpr hall'

/-- A trace without any command, and one that leaves a row of each channel open: each run ends with
the callbacks of its `EOC`. -/
theorem idle_and_open_channels :
    (∃ s, Simulation.Run Dram.GDDR6.aimModel.idram GDDR6.commandName
        (GDDR6.systemParams gddr6Count) { channelId := 0 }
        (Dram.GDDR6.aimModel.createNodes gddr6Count) s ∧ s.sys.dma.requestQueue = [] ∧
      (s.sys.controllers 1).issues = [] ∧ ∀ tracePrefix nRAS nRC,
        ¬ ReplaysCounters (GDDR6.traceSpec tracePrefix nRAS nRC) 2 s) ∧
    ∃ s, Simulation.Run Dram.GDDR6.aimModel.idram GDDR6.commandName
        (GDDR6.systemParams gddr6Count) { channelId := 0 }
        (Dram.GDDR6.aimModel.createNodes gddr6Count) s ∧ s.sys.dma.requestQueue = [] ∧
      s.memorySystemCycles = 4 ∧ s.dev.openRows = [2, 2] ∧ ∀ tracePrefix nRAS nRC,
        ¬ ReplaysCounters (GDDR6.traceSpec tracePrefix nRAS nRC) 2 s := by
  let eoc : Simulation.Op :=
    .host { type := .AIM, opcode := .ISR_EOC, callback := .frontEnd 0 }
  let read : Int → Simulation.Op := fun channel =>
    .host { type := .Read, memAccessRegion := .MEM, channelMask := channel, bankIndex := 1,
            rowAddr := 5 }
  have hidle : ((gddr6Replay [eoc, .tick, .tick, .receive 0, .receive 0]).any
      fun s => s.sys.dma.requestQueue = [] ∧ (s.sys.controllers 1).issues.isEmpty) = true := by
    decide +kernel
  have hopen : ((gddr6Replay [read 0, .tick, read 1, .tick, eoc, .tick, .tick, .receive 0,
      .receive 0]).any fun s => s.sys.dma.requestQueue = [] ∧ s.memorySystemCycles = 4 ∧
        s.dev.openRows = [2, 2]) = true := by
    decide +kernel
  obtain ⟨s, hs, htest⟩ := Option.any_eq_true .. |>.mp hidle
  obtain ⟨s', hs', htest'⟩ := Option.any_eq_true .. |>.mp hopen
  obtain ⟨hempty, hissues⟩ := of_decide_eq_true htest
  obtain ⟨hempty', hcycles, hrows⟩ := of_decide_eq_true htest'
  have hnone := List.isEmpty_iff.mp hissues
  refine ⟨⟨s, Simulation.run_replay hs, hempty, hnone, fun tracePrefix nRAS nRC hreplays => ?_⟩,
    s', Simulation.run_replay hs', hempty', hcycles, hrows,
      fun tracePrefix nRAS nRC hreplays => ?_⟩
  · have hall := (replaysCounters_iff (GDDR6.recordedBy _ ..) (Nat.le_refl _)
      (Simulation.run_replay hs)).mp hreplays
    exact (hall.channels 1 (by decide)).issued hnone
  · have hall := (replaysCounters_iff (GDDR6.recordedBy _ ..) (Nat.le_refl _)
      (Simulation.run_replay hs')).mp hreplays
    have hzero := (hall.channels 1 (by decide)).closed
    rw [hrows] at hzero
    exact absurd hzero (by decide)

end AimSimulator.Analysis
