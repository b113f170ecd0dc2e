import AimSimulator.Dram.AimExactness
import AimSimulator.MemorySystem.AiMChannels
/-!
# Timing safety of the AiM memory system

The controllers of an AiM memory system test every command with `check_ready`, but for the mode
change, which they issue whenever the next request needs the other mode.  So every other command
of a system respects the timing table against all commands of its device, mode changes included.
-/

namespace AimSimulator.MemorySystem

open Dram Controller

variable {Cmd St Ext Timing : Type} [DecidableEq Cmd] {model : DRAMModel Cmd St Ext}
  {p : AiMParams} {count : Nat → Int} {V : Timing → Int}
  {table : List (TimingConsInitializer Cmd Timing)}

omit [DecidableEq Cmd] in
theorem issuesOfCycle_append (clk : Int) (turns : List (List (Event Cmd)))
    (events : List (Event Cmd)) :
    AiMMemorySystem.issuesOfCycle clk (turns ++ [events]) =
      ((issued events).map fun (q, cmd) => (⟨clk, cmd, q.req.addrVec⟩ : Issue Cmd)).reverse ++
        AiMMemorySystem.issuesOfCycle clk turns := by
  unfold AiMMemorySystem.issuesOfCycle
  rw [List.flatMap_append, List.flatMap_singleton, List.map_append, List.reverse_append]

/-- The device of a system against all issued commands, of which those other than mode changes
respect the table. -/
structure AiMTimed (model : DRAMModel Cmd St Ext) (V : Timing → Int) (count : Nat → Int)
    (table : List (TimingConsInitializer Cmd Timing)) (clk : Int) (dram : model.Dev)
    (issues : List (Issue Cmd)) : Prop where
  clk : dram.clk = clk
  timing : model.DeviceTiming count ⟨dram, issues⟩
  siblings : DRAMModel.DeviceSiblings ⟨dram, issues⟩
  respects : ∀ later f earlier, issues = later ++ f :: earlier → f.cmd ≠ model.tmod →
    ∀ ts ∈ table, ts.level ≤ model.commandScopes f.cmd → ts.Respected V count f earlier

namespace AiMTimed

variable {clk : Int} {dram : model.Dev} {issues : List (Issue Cmd)}

theorem tick (h : AiMTimed model V count table clk dram issues) :
    AiMTimed model V count table (clk + 1) (model.tick dram) issues :=
  ⟨congrArg (· + 1) h.clk, h.timing.tick, h.siblings, h.respects⟩

theorem issue (hact : model.ActionsKeepClocks)
    (htable : model.timingCons = populateTimingcons V table)
    (hfits : EntriesFit model.bankLevel table) (h : AiMTimed model V count table clk dram issues)
    {cmd : Cmd} {addrVec : AddrVec}
    (hready : cmd ≠ model.tmod → model.checkReady dram cmd addrVec = true) :
    AiMTimed model V count table clk (model.issueCommand dram cmd addrVec)
      (⟨clk, cmd, addrVec⟩ :: issues) := by
  obtain ⟨rfl, htiming, hsiblings, hrespects⟩ := h
  refine ⟨DRAMModel.issueCommand_clk model dram cmd addrVec,
    DRAMModel.issueCommand_deviceTiming hact.actionsKeepTiming (hfits.windowsPositive htable)
      htiming cmd addrVec,
    DRAMModel.issueCommand_deviceSiblings hact hsiblings cmd addrVec, ?_⟩
  intro later f earlier heq hcmd
  cases later with
  | nil =>
      obtain ⟨rfl, rfl⟩ := List.cons_eq_cons.mp heq
      exact fun ts hts hscope => DRAMModel.checkReady_respected htable htiming hsiblings
        (hready hcmd) hfits hts hscope
  | cons x later =>
      obtain ⟨-, heq⟩ := List.cons_eq_cons.mp heq
      exact hrespects later f earlier heq hcmd

end AiMTimed

section

variable (hact : model.ActionsKeepClocks) (htable : model.timingCons = populateTimingcons V table)
  (hfits : EntriesFit model.bankLevel table)

include hact htable hfits

theorem turn_aimTimed {k : Nat} {c c' : Logged Cmd} {dram dram' : model.Dev}
    {events : List (Event Cmd)} {clk : Int} {before : List (Issue Cmd)}
    {turns : List (List (Event Cmd))}
    (hturn : Logged.turn model.idram p k c dram = some (c', dram', events))
    (h : AiMTimed model V count table clk dram
      (AiMMemorySystem.issuesOfCycle clk turns ++ before)) :
    AiMTimed model V count table clk dram'
      (AiMMemorySystem.issuesOfCycle clk (turns ++ [events]) ++ before) := by
  rw [issuesOfCycle_append]
  rcases AiMDRAMController.tick_device (Logged.turn_cases hturn).1 with
    ⟨rfl, -, hnone⟩ | ⟨c₁, s, cmd, hissues, rfl, -, hone⟩
  · rw [hnone]
    exact h
  · have hsame := (SameRequest.stampIssue c₁.toQueues s.req).req
    rw [hone, List.map_singleton]
    dsimp only
    rw [hsame]
    exact h.issue hact htable hfits fun hcmd => (hissues.ready hcmd).2

theorem run_aimTimed {s : AiMMemorySystem model.Dev Cmd}
    {guard : AiMMemorySystem model.Dev Cmd → AiMMemorySystem.Op → Prop}
    (hr : AiMMemorySystem.Run model.idram p (model.createNodes count) guard s) :
    AiMTimed model V count table s.cycle s.dram s.issues := by
  refine hr.invariant (I := fun s => AiMTimed model V count table s.cycle s.dram s.issues) ?_ ?_
  · rintro s rfl
    refine ⟨rfl, DRAMModel.createNodes_deviceTiming, DRAMModel.createNodes_deviceSiblings, ?_⟩
    intro later f earlier heq
    simp [AiMMemorySystem.init] at heq
  · rintro s op t hs - hstep
    cases op with
    | host req =>
        obtain ⟨⟨ok, host⟩, -, rfl⟩ := Option.map_eq_some_iff.mp hstep
        exact hs
    | plugin channel req =>
        unfold AiMMemorySystem.step at hstep
        dsimp only at hstep
        split at hstep
        · obtain ⟨c, -, rfl⟩ := Option.map_eq_some_iff.mp hstep
          exact hs
        · cases hstep
    | tick =>
        obtain ⟨host, -, hcases⟩ := AiMMemorySystem.tick_stages hstep
        rcases hcases with rfl | ⟨controllers, dram, turns, host', hsweep, -, rfl⟩
        · exact hs
        · have hticked : AiMTimed model V count table (s.cycle + 1) (model.tick s.dram)
              (AiMMemorySystem.issuesOfCycle (s.cycle + 1) [] ++ s.issues) := hs.tick
          exact (Sweep.sweep_induct (K := fun _ _ => True)
            (J := fun dram turns => AiMTimed model V count table (s.cycle + 1) dram
              (AiMMemorySystem.issuesOfCycle (s.cycle + 1) turns ++ s.issues))
            (fun k c d c' d' o turns _ hd hturn =>
              ⟨trivial, turn_aimTimed hact htable hfits hturn hd⟩)
            (fun _ _ _ => trivial) hticked hsweep).2

end

/-- In every run of an AiM memory system over GDDR6, LPDDR4 or LPDDR5, of any organisation and
under any timing values, each command but a mode change respects the timing table against all
earlier commands of the device; a per-bank refresh of LPDDR respects its entries of the channel
and the rank. -/
theorem aim_system_respects :
    (∀ {V : GDDR6.Timing → Int} {s : AiMMemorySystem (GDDR6.model V).Dev GDDR6.Cmd},
      AiMMemorySystem.Run (GDDR6.model V).idram p ((GDDR6.model V).createNodes count)
          (fun _ _ => True) s →
        ∀ later f earlier, s.issues = later ++ f :: earlier → f.cmd ≠ .TMOD →
          ∀ ts ∈ GDDR6.timingConsTable, ts.Respected V count f earlier) ∧
    ∀ {gen : LPDDR.Generation} {sizes : Nat → Int} {V : LPDDR.Timing → Int}
      {s : AiMMemorySystem (LPDDR.model gen sizes V).Dev LPDDR.Cmd},
      AiMMemorySystem.Run (LPDDR.model gen sizes V).idram p
          ((LPDDR.model gen sizes V).createNodes count) (fun _ _ => True) s →
        ∀ later f earlier, s.issues = later ++ f :: earlier → f.cmd ≠ .TMOD →
          ∀ ts ∈ LPDDR.timingConsTable gen, (f.cmd = .REFpb → ts.level ≤ LPDDR.rank) →
            ts.Respected V count f earlier := by
  constructor
  · intro V s hr later f earlier heq hcmd ts hts hf
    have htimed := run_aimTimed (GDDR6.actionsKeepClocks V) rfl GDDR6.entriesFit hr
    exact htimed.respects later f earlier heq hcmd ts hts
      ((GDDR6.timingConsTable_fits V ts hts).2.2.2 f.cmd hf).1 hf
  · intro gen sizes V s hr later f earlier heq hcmd ts hts hcovered hf
    have htimed := run_aimTimed (LPDDR.actionsKeepClocks gen sizes V) rfl (LPDDR.entriesFit gen) hr
    exact htimed.respects later f earlier heq hcmd ts hts
      (LPDDR.level_le_scope ts hts f.cmd hf hcovered) hf

/-- The mode change and the read of both channels. -/
theorem aim_system_respects_gddr6 :
    ∃ s : AiMMemorySystem GDDR6.aimModel.Dev GDDR6.Cmd, s.issues.length = 4 ∧
      ∀ later f earlier, s.issues = later ++ f :: earlier → f.cmd ≠ .TMOD →
        ∀ ts ∈ GDDR6.timingConsTable, ts.Respected GDDR6.aimVals
          GDDR6.x16Organization.countAt f earlier := by
  have hrun : ((AiMMemorySystem.readThenSyncRun 40).any fun s => s.issues.length == 4) = true := by
    decide +kernel
  obtain ⟨s, hs, hissues⟩ := Option.any_eq_true .. |>.mp hrun
  exact ⟨s, eq_of_beq hissues, aim_system_respects.1
    ((AiMMemorySystem.readThenSyncRun_reached hs).mono fun _ _ _ => trivial)⟩

end AimSimulator.MemorySystem
