import AimSimulator.Dram.StandardRows
import AimSimulator.MemorySystem.Timing
/-!
# Row safety of a memory system

Whatever the front end, the mapper and the plugins send, the commands of a system over a standard
device keep to the bank protocol: a row is opened in a closed bank, read and written while it is
open, and refreshed in a closed bank.
-/

namespace AimSimulator.MemorySystem

open Dram Dram.Standard Controller GenericDRAMController

/-- Each command of a history may be issued to each bank of the organisation that it reaches. -/
def KeepsProtocol (impl : Impl) (count : Nat → Int) (history : List (Issue Cmd)) : Prop :=
  ∀ later f earlier, history = later ++ f :: earlier → ∀ (ch : Nat) (path : List Nat),
    HasBank impl count path → Reaches impl f.cmd f.addrVec ch path →
      Needs f.cmd (f.addrVec.at (row impl)) (openRow impl ch path earlier)

variable {impl : Impl} {aim : AimLookups} {count : Nat → Int} {V : Timing → Int}
  {params : GenericParams} {apply : Request → Request}

/-- A device whose banks hold what its commands say, and commands that kept the protocol. -/
structure SystemRows (clk : Int) (dram : (Standard.model impl aim count V).Dev)
    (issues : List (Issue Cmd)) : Prop where
  clk : dram.clk = clk
  timing : (Standard.model impl aim count V).DeviceTiming count ⟨dram, issues⟩
  rows : RowsMatch dram issues
  protocol : KeepsProtocol impl count issues

theorem SystemRows.issue {clk : Int} {dram : (Standard.model impl aim count V).Dev}
    {issues : List (Issue Cmd)} (h : SystemRows clk dram issues) {cmd : Cmd} {addrVec : AddrVec}
    (hfinds : FindsRows dram cmd addrVec)
    (hready : (Standard.model impl aim count V).checkReady dram cmd addrVec = true) :
    SystemRows clk ((Standard.model impl aim count V).issueCommand dram cmd addrVec)
      (⟨clk, cmd, addrVec⟩ :: issues) := by
  obtain ⟨rfl, htiming, hrows, hprotocol⟩ := h
  refine ⟨DRAMModel.issueCommand_clk .., DRAMModel.issueCommand_deviceTiming
    actionsKeepClocks.actionsKeepTiming ((entriesFit impl).windowsPositive rfl) htiming _ _,
    hrows.issue hfinds _, fun later f earlier heq ch path hpath hreach => ?_⟩
  cases later with
  | nil =>
      obtain ⟨rfl, rfl⟩ := List.cons.inj heq
      -- the channel is there, as the command is ready
      obtain ⟨c, hc⟩ : ∃ c, dram.channels[ch]? = some c := by
        unfold DRAMModel.checkReady at hready
        rw [(Standard.model impl aim count V).channelOf_eq hreach.1] at hready
        cases hc : dram.channels[ch]? with
        | none =>
            rw [hc] at hready
            cases hready
        | some c => exact ⟨c, rfl⟩
      obtain ⟨r, hr⟩ := htiming.rowsAt_isSome.mpr ⟨(List.getElem?_eq_some_iff.mp hc).1, hpath.mem_paths⟩
      exact hfinds ch path _ hreach (hrows ch path r hr ▸ hr)
  | cons e later =>
      obtain ⟨rfl, rfl⟩ := List.cons.inj heq
      exact hprotocol later f earlier rfl ch path hpath hreach

/-- The requests of a controller end with commands that its device translates requests to. -/
abbrev OfFinal (impl : Impl) (_ : Request) (final : Cmd) : Prop := IsFinal impl final

theorem given_final (req : Request) :
    Given (Standard.model impl aim count V).idram (OfFinal impl) req :=
  fun _ hfinal => ⟨req.type, hfinal⟩

theorem turn_rows {plugins : Nat → List Request} {k : Nat} {c c' : GenericDRAMController Cmd}
    {dram dram' : (Standard.model impl aim count V).Dev} {o : Turn Cmd} {clk : Int}
    {before : List (Issue Cmd)} {turns : List (Turn Cmd)}
    (hturn : GenericDRAMSystem.turn (Standard.model impl aim count V).idram params plugins k c dram =
      some (c', dram', o)) (hold : c.toQueues.Hold (OfFinal impl))
    (h : SystemRows clk dram (issuesOfTurns clk turns ++ before)) :
    c'.toQueues.Hold (OfFinal impl) ∧
      SystemRows clk dram' (issuesOfTurns clk (turns ++ [o]) ++ before) := by
  obtain ⟨called, htick, rfl⟩ := GenericDRAMSystem.turn_cases hturn
  refine ⟨tick_hold htick (fun req _ => given_final req) (fun _ => given_final _) hold, ?_⟩
  rw [tick_device htick, issuesOfTurns_append]
  cases hissued : c.issued (Standard.model impl aim count V).idram (forChannel params k) dram with
  | none => exact h
  | some issue =>
      obtain ⟨cmd, addrVec⟩ := issue
      obtain ⟨req, final, hfinal, -, hcommand, hready⟩ :=
        issued_cases hissued (fun _ => given_final _) hold
      exact h.issue (hcommand ▸ getPreqCommand_finds hfinal) hready

/-- In every run of a memory system over DDR3, DDR4, DDR4-VRR, HBM, HBM2 or HBM3, its commands
keep to the bank protocol, and the banks of the device hold the rows that the commands say. -/
theorem standard_keepsProtocol {numChannels : Nat}
    {s : SystemRun (Standard.model impl aim count V).Dev Cmd}
    (hr : SystemRun.Run (Standard.model impl aim count V).idram params apply numChannels
      ((Standard.model impl aim count V).createNodes count) (fun _ _ => True) s) :
    KeepsProtocol impl count s.issues ∧ RowsMatch s.sys.dram s.issues := by
  suffices h : (∀ (k : Nat) (c : GenericDRAMController Cmd), s.sys.controllers[k]? = some c →
      c.toQueues.Hold (OfFinal impl)) ∧ SystemRows s.sys.clk s.sys.dram s.issues from
    ⟨h.2.protocol, h.2.rows⟩
  refine hr.invariant (I := fun s => (∀ (k : Nat) (c : GenericDRAMController Cmd),
    s.sys.controllers[k]? = some c → c.toQueues.Hold (OfFinal impl)) ∧
      SystemRows s.sys.clk s.sys.dram s.issues) ?_ ?_
  · rintro s rfl
    refine ⟨fun k c hget q hq => ?_, rfl, DRAMModel.createNodes_deviceTiming, createNodes_rowsMatch,
      fun later f earlier heq => ?_⟩
    · obtain rfl := List.eq_of_mem_replicate (List.mem_of_getElem? hget)
      rcases Queues.mem_outstanding.mp hq with hq | hq | ⟨id, hq⟩
      · cases hq
      · cases hq
      · cases id <;> cases hq
    · cases later <;> cases heq
  · rintro s op t ⟨hold, hrows⟩ - hstep
    cases op with
    | send req =>
        obtain ⟨c₀, c₁, isSuccess, hsend⟩ := SystemRun.send_cases hstep
        obtain ⟨k₀, -, hget₀, hctls⟩ := hsend.channel
        rw [hsend.dram, hsend.clk, hsend.issues]
        refine ⟨fun k c hget => ?_, hrows⟩
        rw [hctls, List.getElem?_set] at hget
        split at hget
        · split at hget
          · obtain rfl := Option.some.inj hget
            exact send_hold hsend.sent (given_final _) (hold k₀ c₀ hget₀)
          · cases hget
        · exact hold k c hget
    | tick plugins =>
        obtain ⟨turns, hsweep, hclk, hissues, -⟩ := SystemRun.tick_cases hstep
        have hticked : SystemRows (s.sys.clk + 1)
            ((Standard.model impl aim count V).tick s.sys.dram)
            (issuesOfTurns (s.sys.clk + 1) [] ++ s.issues) :=
          ⟨congrArg (· + 1) hrows.clk, hrows.timing.tick, hrows.rows, hrows.protocol⟩
        rw [hclk, hissues]
        have hswept := Sweep.sweep_induct (K := fun _ c => c.toQueues.Hold (OfFinal impl))
          (J := fun dram turns => SystemRows (s.sys.clk + 1) dram
            (issuesOfTurns (s.sys.clk + 1) turns ++ s.issues))
          (fun k c d c' d' o turns hc hd hturn => turn_rows hturn hc hd)
          (fun j c hc => hold j c hc) hticked hsweep
        refine ⟨fun k c hget => ?_, hswept.2⟩
        exact hswept.1 k c hget

/-- Two channels that open a row and read it. -/
theorem standard_keepsProtocol_readBoth :
    KeepsProtocol .DDR3 (fun _ => 2) (readBothRun.get readBothRun_isSome).issues := by
  have hrun : readBothRun = some (readBothRun.get readBothRun_isSome) := (Option.some_get _).symm
  exact (standard_keepsProtocol (Runs.exec_reachable (fun _ _ _ => trivial) (.start rfl) hrun)).1

end AimSimulator.MemorySystem
