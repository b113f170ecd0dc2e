import AimSimulator.Analysis.ActivityCycles
import AimSimulator.Controller.Device
import AimSimulator.Dma.Run
import Mathlib.Algebra.Ring.Int.Defs
/-!
# Simulations with recorded traces

`AiMDRAMSystem` with the controllers of its channels over one device, each controller with a
`TraceRecorder` (`dram_controller/impl/plugin/trace_recorder.cpp`).  All clock ratios are
one: a tick of the memory system ticks the device and every controller once.
-/

namespace AimSimulator.Analysis

open Dram Controller

/-- `TraceRecorder`: its clock and what it has written to its file. -/
structure TraceRecorder where
  clk : Int := 0
  trace : List CommandEvent := []

/-- `update`, with the name and the address of the command to issue if there is one. -/
def TraceRecorder.update (r : TraceRecorder) (found : Option (String × AddrVec)) :
    TraceRecorder where
  clk := r.clk + 1
  trace := match found with
    | some (command, addrVec) => r.trace ++ [⟨r.clk + 1, command, addrVec⟩]
    | none => r.trace

/-- An issued command with the open-row mask of the channel before it. -/
structure MaskedIssue (Cmd : Type) where
  clk : Int
  cmd : Cmd
  addrVec : AddrVec
  mask : BitVec 16

/-- A conventional read that a controller was sent, with the requests in its write buffer and
whether its AiM buffer was empty then, and whether `send` forwarded it. -/
structure SentRead where
  req : Request
  writes : List Request
  aimIdle : Bool
  forwarded : Bool

/-- A controller with its trace recorder, the commands it issued and the reads it was sent so
far. -/
structure Traced (Cmd : Type) where
  ctl : AiMDRAMController Cmd
  recorder : TraceRecorder := {}
  issues : List (MaskedIssue Cmd) := []
  reads : List SentRead := []

def forwards {Cmd : Type} (events : List (Event Cmd)) : Bool :=
  events.any fun
    | .forward _ => true
    | _ => false

def sentReads {Cmd : Type} (c : AiMDRAMController Cmd) (req : Request)
    (events : List (Event Cmd)) : List SentRead :=
  if req.type = .Read then
    [⟨req, c.writeBuffer.buffer.map (·.req), c.aimBuffer.buffer.isEmpty, forwards events⟩]
  else []

/-- The memory system with its controllers, and the device they share. -/
structure Simulation (Dev Cmd : Type) where
  sys : Dma.System (Traced Cmd)
  dev : Dev

section

variable {Dev Cmd : Type} [DecidableEq Cmd] (iface : IDRAM Dev Cmd) (commandName : Cmd → String)
  (p : Dma.SystemParams) (params : Params)

def Traced.send (req : Request) (t : Traced Cmd) : Option (Bool × Traced Cmd) :=
  (t.ctl.send iface req).map fun (ok, ctl, events) =>
    (ok, { t with ctl, reads := t.reads ++ sentReads t.ctl req events })

def Traced.tick (channel : Nat) (t : Traced Cmd) (dev : Dev) : Option (Traced Cmd × Dev) :=
  (t.ctl.tick iface { params with channelId := channel } dev).map fun (ctl, dev', events) =>
    let found := (issued events).head?
    ({ t with
       ctl
       recorder := t.recorder.update (found.map fun (q, cmd) => (commandName cmd, q.req.addrVec))
       issues := t.issues ++ found.toList.map fun (q, cmd) =>
        ⟨t.recorder.clk + 1, cmd, q.req.addrVec, iface.openRows dev channel⟩ }, dev')

namespace Simulation

def tickController (s : Simulation Dev Cmd) (channel : Nat) : Option (Simulation Dev Cmd) :=
  ((s.sys.controllers channel).tick iface commandName params channel s.dev).map fun (t, dev) =>
    { sys := { s.sys with
        controllers := fun i => if i = channel then t else s.sys.controllers i }
      dev }

/-- What can happen next: a request of the front end, a tick, or the callback of an accepted
copy. -/
inductive Op
  | host (req : Request)
  | tick
  | receive (i : Nat)

/-- One step.  A callback changes nothing but the memory system and stands here between the
ticks. -/
def step (s : Simulation Dev Cmd) : Op → Option (Simulation Dev Cmd)
  | .host req => (s.sys.send req).map fun (_, sys) => { s with sys }
  | .tick =>
      (s.sys.tick p (Traced.send iface)).bind fun sys =>
        (List.range p.numControllers).foldlM (tickController iface commandName params)
          { sys, dev := iface.tick s.dev }
  | .receive i =>
      s.sys.inFlight[i]?.bind fun copy =>
        ({ s.sys with inFlight := s.sys.inFlight.eraseIdx i }.receive copy).map fun sys =>
          { s with sys }

def init (dev : Dev) : Simulation Dev Cmd where
  sys := { controllers := fun _ => { ctl := AiMDRAMController.init iface } }
  dev := dev

abbrev Run (dev₀ : Dev) : Simulation Dev Cmd → Prop :=
  Runs.Reachable (fun s => s = init iface dev₀)
    (fun s op t => s.step iface commandName p params op = some t) fun _ _ => True

variable {Dev Cmd : Type}

def memorySystemCycles (s : Simulation Dev Cmd) : Int := s.sys.dma.clk

def traceFiles (s : Simulation Dev Cmd) (tracePrefix : String) (numControllers : Nat) :
    List (String × List CommandEvent) :=
  (List.range numControllers).map fun channel =>
    (s!"{tracePrefix}.ch{channel}", (s.sys.controllers channel).recorder.trace)

def activeCycles (s : Simulation Dev Cmd) (numControllers : Nat) : Int :=
  ((List.range numControllers).map fun channel =>
    (s.sys.controllers channel).ctl.stats.numActiveCycles).sum

def prechargedCycles (s : Simulation Dev Cmd) (numControllers : Nat) : Int :=
  ((List.range numControllers).map fun channel =>
    (s.sys.controllers channel).ctl.stats.numPrechargedCycles).sum

/-! ## What holds of every controller -/

section

variable {Dev Cmd : Type} [DecidableEq Cmd] {iface : IDRAM Dev Cmd} {commandName : Cmd → String}
  {p : Dma.SystemParams} {params : Params} {H : Request → Prop} {Q : Nat → Request → Prop}
  {G : Nat → Traced Cmd → Prop} {clk : Int} {s s' : Simulation Dev Cmd}

section

variable (htick : ∀ channel t t' dev dev', G channel t →
  t.tick iface commandName params channel dev = some (t', dev') → G channel t')

include htick

theorem tickController_delivers {channel : Nat} (hs : s.sys.Delivers H Q G clk)
    (h : s.tickController iface commandName params channel = some s') :
    s'.sys.Delivers H Q G clk := by
  obtain ⟨⟨t, dev⟩, hticked, rfl⟩ := Option.map_eq_some_iff.mp h
  refine ⟨hs.clock, hs.hosts, fun i => ?_, hs.waiting⟩
  dsimp only
  split
  · next hi =>
      subst hi
      exact htick _ _ _ _ _ (hs.controllers _) hticked
  · exact hs.controllers i

theorem tickControllers_delivers {channels : List Nat} (hs : s.sys.Delivers H Q G clk)
    (h : channels.foldlM (tickController iface commandName params) s = some s') :
    s'.sys.Delivers H Q G clk := by
  induction channels generalizing s with
  | nil =>
      obtain rfl := Option.some.inj h
      exact hs
  | cons channel channels ih =>
      rw [List.foldlM_cons] at h
      obtain ⟨u, hhead, hrest⟩ := Option.bind_eq_some_iff.mp h
      exact ih (tickController_delivers htick hs hhead) hrest

end

/-- The run rule: what holds of every fresh controller and survives its calls, given what holds
of the copies it is sent. -/
theorem run_delivers {dev₀ : Dev} {guard : Simulation Dev Cmd → Op → Prop}
    (hinit : ∀ channel, G channel { ctl := AiMDRAMController.init iface })
    (hhost : ∀ s req, guard s (.host req) → H req)
    (hdecode : ∀ cfrValues host d, H host → Dma.decode p cfrValues host = some d →
      ∀ c ∈ d.copies, ∀ id, Q c.1 { c.2 with aimReqId := id })
    (hsend : ∀ channel req ok t t', Q channel req → G channel t →
      t.send iface req = some (ok, t') → G channel t')
    (htick : ∀ channel t t' dev dev', G channel t →
      t.tick iface commandName params channel dev = some (t', dev') → G channel t')
    (hr : Runs.Reachable (fun s => s = init iface dev₀)
      (fun s op t => s.step iface commandName p params op = some t) guard s) :
    s.sys.Delivers H Q G s.memorySystemCycles := by
  refine hr.invariant (I := fun s : Simulation Dev Cmd =>
    s.sys.Delivers H Q G s.memorySystemCycles) ?_ ?_
  · rintro s rfl
    exact ⟨rfl, fun host hmem => (List.not_mem_nil hmem).elim, hinit,
      fun channel copy hmem => (List.not_mem_nil hmem).elim⟩
  · rintro s op t hs hg hstep
    cases op with
    | host req =>
        obtain ⟨⟨ok, sys⟩, hsent, rfl⟩ := Option.map_eq_some_iff.mp hstep
        have hsys := hs.host (hhost s req hg) hsent
        exact hsys.now
    | receive i =>
        obtain ⟨copy, -, hstep⟩ := Option.bind_eq_some_iff.mp hstep
        obtain ⟨sys, hreceive, rfl⟩ := Option.map_eq_some_iff.mp hstep
        have hbefore : Dma.System.Delivers _ _ _ _
            { s.sys with inFlight := s.sys.inFlight.eraseIdx i } := hs.congr rfl rfl rfl rfl
        have hsys := hbefore.receive hreceive
        exact hsys.now
    | tick =>
        obtain ⟨sys, hsys, hloop⟩ := Option.bind_eq_some_iff.mp hstep
        have hticked := hs.tick hsend hdecode hsys
        exact (tickControllers_delivers (s := { sys, dev := iface.tick s.dev }) htick hticked
          hloop).now

end

end Simulation

end

end AimSimulator.Analysis
