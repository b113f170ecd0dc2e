import AimSimulator.Dram.StandardTiming
import AimSimulator.MemorySystem.Channels
/-!
# Timing safety of a memory system

The controllers of a system issue no command that fails `check_ready`, so whatever the front
end, the mapper, the scheduler and the plugins do, the commands of a system over a standard
device respect its timing table.
-/

namespace AimSimulator.MemorySystem

open Dram Controller GenericDRAMController

variable {Cmd St Ext Timing : Type} [DecidableEq Cmd] {model : DRAMModel Cmd St Ext}
  {params : GenericParams} {apply : Request → Request} {count : Nat → Int} {V : Timing → Int}
  {table : List (TimingConsInitializer Cmd Timing)}

omit [DecidableEq Cmd] in
theorem issuesOfTurns_append (clk : Int) (turns : List (Turn Cmd)) (o : Turn Cmd) :
    issuesOfTurns clk (turns ++ [o]) =
      (o.issued.map fun i => (⟨clk, i.1, i.2⟩ : Issue Cmd)).toList ++ issuesOfTurns clk turns := by
  unfold issuesOfTurns
  rw [List.filterMap_append, List.reverse_append]
  cases h : o.issued <;> simp [h]

/-- The device of a system against the commands that its controllers issued, at its clock. -/
structure SystemTimed (model : DRAMModel Cmd St Ext) (V : Timing → Int) (count : Nat → Int)
    (table : List (TimingConsInitializer Cmd Timing)) (clk : Int) (dram : model.Dev)
    (issues : List (Issue Cmd)) : Prop where
  clk : dram.clk = clk
  timed : DRAMModel.Timed model V count table ⟨dram, issues⟩

section

variable (hact : model.ActionsKeepClocks) (htable : model.timingCons = populateTimingcons V table)
  (hfits : EntriesFit model.bankLevel table)

include hact htable hfits

theorem turn_timed {plugins : Nat → List Request} {k : Nat} {c c' : GenericDRAMController Cmd}
    {dram dram' : model.Dev} {o : Turn Cmd} {clk : Int} {before : List (Issue Cmd)}
    {turns : List (Turn Cmd)}
    (hturn : GenericDRAMSystem.turn model.idram params plugins k c dram = some (c', dram', o))
    (h : SystemTimed model V count table clk dram (issuesOfTurns clk turns ++ before)) :
    SystemTimed model V count table clk dram' (issuesOfTurns clk (turns ++ [o]) ++ before) := by
  obtain ⟨called, htick, rfl⟩ := GenericDRAMSystem.turn_cases hturn
  rw [tick_device htick, issuesOfTurns_append]
  cases hissued : c.issued model.idram (forChannel params k) dram with
  | none => exact h
  | some issue =>
      obtain ⟨cmd, addrVec⟩ := issue
      obtain ⟨-, -, -, -, -, hready⟩ :=
        issued_cases (P := fun _ _ => True) hissued (fun _ _ _ => trivial) fun _ _ => trivial
      obtain ⟨rfl, htimed⟩ := h
      exact ⟨DRAMModel.issueCommand_clk model dram cmd addrVec,
        htimed.issue hact htable hfits hready⟩

theorem reachable_timed {numChannels : Nat} {s : SystemRun model.Dev Cmd}
    {guard : SystemRun model.Dev Cmd → SystemOp → Prop}
    (hr : SystemRun.Run model.idram params apply numChannels (model.createNodes count) guard s) :
    SystemTimed model V count table s.sys.clk s.sys.dram s.issues := by
  refine hr.invariant
    (I := fun s => SystemTimed model V count table s.sys.clk s.sys.dram s.issues) ?_ ?_
  · rintro s rfl
    exact ⟨rfl, .createNodes⟩
  · rintro s op t hs - hstep
    cases op with
    | send req =>
        obtain ⟨c, c', isSuccess, hsend⟩ := SystemRun.send_cases hstep
        rw [hsend.dram, hsend.clk, hsend.issues]
        exact hs
    | tick plugins =>
        obtain ⟨turns, hsweep, hclk, hissues, -, -, -⟩ := SystemRun.tick_cases hstep
        have hticked : SystemTimed model V count table (s.sys.clk + 1) (model.tick s.sys.dram)
            (issuesOfTurns (s.sys.clk + 1) [] ++ s.issues) :=
          ⟨congrArg (· + 1) hs.clk, hs.timed.tick⟩
        rw [hclk, hissues]
        exact (Sweep.sweep_induct (K := fun _ _ => True)
          (J := fun dram turns => SystemTimed model V count table (s.sys.clk + 1) dram
            (issuesOfTurns (s.sys.clk + 1) turns ++ s.issues))
          (fun k c d c' d' o turns _ hd hturn =>
            ⟨trivial, turn_timed hact htable hfits hturn hd⟩)
          (fun _ _ _ => trivial) hticked hsweep).2

end

/-- In every run of a memory system over DDR3, DDR4, DDR4-VRR, HBM, HBM2 or HBM3, its commands
respect the timing table, whatever the front end, the mapper and the plugins send. -/
theorem standard_respects {impl : Standard.Impl} {aim : Standard.AimLookups}
    {V : Standard.Timing → Int} {numChannels : Nat}
    {s : SystemRun (Standard.model impl aim count V).Dev Standard.Cmd}
    (hr : SystemRun.Run (Standard.model impl aim count V).idram params apply numChannels
      ((Standard.model impl aim count V).createNodes count) (fun _ _ => True) s) :
    Standard.RespectsTable impl count V s.issues := by
  intro later f earlier heq ts hts hcovered hf
  have htimed := reachable_timed Standard.actionsKeepClocks rfl (Standard.entriesFit impl) hr
  exact htimed.timed.respects later f earlier heq ts hts
    (Standard.level_le_scope ts hts f.cmd hf hcovered) hf

/-- Two channels that open a row and read it. -/
theorem standard_respects_readBoth : Standard.RespectsTable .DDR3 (fun _ => 2) (fun _ => 1)
    (readBothRun.get readBothRun_isSome).issues := by
  have hrun : readBothRun = some (readBothRun.get readBothRun_isSome) := (Option.some_get _).symm
  exact standard_respects (Runs.exec_reachable (fun _ _ _ => trivial) (.start rfl) hrun)

end AimSimulator.MemorySystem
