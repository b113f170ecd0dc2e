import AimSimulator.Lib.Sweep
import AimSimulator.Controller.Device
import AimSimulator.Dma.Run
import AimSimulator.Dram.Timing
/-!
# The AiM memory system

`memory_system/impl/aim_DRAM_system.cpp` with the controllers and the device that it creates.
The DMA sends its copies to the controllers; in every cycle of theirs the device advances and
each controller takes a turn on it, in which it may complete a copy and so call the DMA back.
-/

namespace AimSimulator.MemorySystem

open Dram Controller

structure Logged (Cmd : Type) where
  ctl : AiMDRAMController Cmd
  log : List (Event Cmd) := []

/-- What a memory system is made of: the organisation that the DMA sees, the parameters of its
controllers, and their `get_clock_ratio`. -/
structure AiMParams where
  system : Dma.SystemParams
  controller : Params
  clockRatio : Nat

def AiMParams.forChannel (p : AiMParams) (channelId : Nat) : Params :=
  { p.controller with channelId := channelId }

/-- `AiMDRAMSystem` with its device, the cycles of the device, and the commands issued so far,
most recent first. -/
structure AiMMemorySystem (Dev Cmd : Type) where
  host : Dma.System (Logged Cmd)
  dram : Dev
  cycle : Int := 0
  issues : List (Issue Cmd) := []

section

variable {Dev Cmd : Type} [DecidableEq Cmd] (iface : IDRAM Dev Cmd) (p : AiMParams)

/-! ## The controllers -/

namespace Logged

def send (req : Request) (c : Logged Cmd) : Option (Bool × Logged Cmd) :=
  (c.ctl.send iface req).map fun (ok, ctl, events) => (ok, ⟨ctl, c.log ++ events⟩)

def prioritySend (req : Request) (c : Logged Cmd) : Option (Logged Cmd) :=
  (c.ctl.prioritySend iface req).map fun (_, ctl, events) => ⟨ctl, c.log ++ events⟩

/-- `tick` of the controller of a channel. -/
def turn (channelId : Nat) (c : Logged Cmd) (dram : Dev) :
    Option (Logged Cmd × Dev × List (Event Cmd)) :=
  (c.ctl.tick iface (p.forChannel channelId) dram).map fun (ctl, dram', events) =>
    (⟨ctl, c.log ++ events⟩, dram', events)

def completed (events : List (Event Cmd)) : List Request :=
  events.filterMap fun
    | .complete q => some q.req
    | _ => none

end Logged

/-! ## The memory system -/

namespace AiMMemorySystem

/-- A memory system after `init` and `setup`. -/
def init (dram : Dev) : AiMMemorySystem Dev Cmd where
  host := { controllers := fun _ => { ctl := AiMDRAMController.init iface } }
  dram := dram

/-- The copies among the completed requests: their callback is that of the DMA. -/
def callbacks (turns : List (List (Event Cmd))) : List Request :=
  (turns.flatMap Logged.completed).filter fun req => req.callback = .aimReceive

/-- The callback of a copy, which is no longer in flight then. -/
def fire {C : Type} (host : Dma.System C) (copy : Request) : Option (Dma.System C) :=
  { host with inFlight := host.inFlight.erase copy }.receive copy

def issuesOfCycle (clk : Int) (turns : List (List (Event Cmd))) : List (Issue Cmd) :=
  ((turns.flatMap issued).map fun (q, cmd) => ⟨clk, cmd, q.req.addrVec⟩).reverse

/-- A cycle of the device and the controllers.  A callback touches neither the device nor a
controller, so those of a cycle stand behind its turns, in their order. -/
def cycleTick (s : AiMMemorySystem Dev Cmd) : Option (AiMMemorySystem Dev Cmd) :=
  (Sweep.sweep (Logged.turn iface p) 0
      ((List.range p.system.numControllers).map s.host.controllers) (iface.tick s.dram)).bind
    fun (controllers, dram, turns) =>
      ((callbacks turns).foldlM fire
        { s.host with
          controllers := fun k => controllers.getD k (s.host.controllers k) }).map fun host =>
        { host
          dram
          cycle := s.cycle + 1
          issues := issuesOfCycle (s.cycle + 1) turns ++ s.issues }

/-- `tick`; `none` where it throws or divides by zero.  `m_clk` advances at its end, behind the
test for a cycle of the controllers. -/
def tick (s : AiMMemorySystem Dev Cmd) : Option (AiMMemorySystem Dev Cmd) :=
  (s.host.tick p.system (Logged.send iface)).bind fun host =>
    if p.clockRatio = 0 then none
    else if s.host.dma.clk % p.clockRatio = 0 then { s with host }.cycleTick iface p
    else some { s with host }

/-- What can happen to a memory system: a request of the front end, a tick, or a request that a
plugin of a controller sends. -/
inductive Op
  | host (req : Request)
  | tick
  | plugin (channel : Nat) (req : Request)

def step (s : AiMMemorySystem Dev Cmd) : Op → Option (AiMMemorySystem Dev Cmd)
  | .host req => (s.host.send req).map fun (_, host) => { s with host }
  | .tick => s.tick iface p
  | .plugin channel req =>
      if channel < p.system.numControllers then
        ((s.host.controllers channel).prioritySend iface req).map fun c =>
          { s with host := { s.host with
              controllers := fun k => if k = channel then c else s.host.controllers k } }
      else none

/-- The private callback of the DMA reaches a request through the DMA alone. -/
def OwnCallbacks : Op → Prop
  | .host req | .plugin _ req => req.callback ≠ .aimReceive
  | .tick => True

def OwnPlugins : Op → Prop
  | .plugin channel req => req.addrVec.at 0 = channel
  | _ => True

/-- The memory systems reached by steps that all meet a guard. -/
abbrev Run (dram : Dev) (guard : AiMMemorySystem Dev Cmd → Op → Prop) :
    AiMMemorySystem Dev Cmd → Prop :=
  Runs.Reachable (fun s => s = init iface dram) (fun s op t => s.step iface p op = some t) guard

end AiMMemorySystem

end

end AimSimulator.MemorySystem
