import AimSimulator.Lib.Sweep
import AimSimulator.Dram.Timing
import AimSimulator.Controller.GenericDevice
/-!
# The generic memory system

`memory_system/impl/generic_DRAM_system.cpp`: an address mapper in front of one generic
controller for each channel, all over one device.  `send` goes to the channel that the mapped
address names; `tick` advances the device and then ticks the controllers in turn.
-/

namespace AimSimulator.MemorySystem

open Dram Controller

/-- The parameters with the `m_channel_id` of a controller. -/
def forChannel (params : GenericParams) (channelId : Nat) : GenericParams :=
  { params with channelId := channelId }

structure GenericDRAMSystem (Dev Cmd : Type) where
  clk : Int := 0
  dram : Dev
  controllers : List (GenericDRAMController Cmd)
  numReadRequests : Nat := 0
  numWriteRequests : Nat := 0
  numOtherRequests : Nat := 0

/-- What the `tick` of one controller shows: the requests it called back and the command it
issued. -/
structure Turn (Cmd : Type) where
  called : List (Queued Cmd)
  issued : Option (Cmd × AddrVec)

variable {Dev Cmd : Type} [DecidableEq Cmd] (iface : IDRAM Dev Cmd) (params : GenericParams)
  (apply : Request → Request)

namespace GenericDRAMSystem

def init (numChannels : Nat) (dram : Dev) : GenericDRAMSystem Dev Cmd where
  dram := dram
  controllers := List.replicate numChannels (GenericDRAMController.init iface)

def count (s : GenericDRAMSystem Dev Cmd) : ReqType → GenericDRAMSystem Dev Cmd
  | .Read => { s with numReadRequests := s.numReadRequests + 1 }
  | .Write => { s with numWriteRequests := s.numWriteRequests + 1 }
  | _ => { s with numOtherRequests := s.numOtherRequests + 1 }

/-- `send`; `none` where the controller throws or the mapped address names no channel. -/
def send (s : GenericDRAMSystem Dev Cmd) (req : Request) :
    Option (Bool × GenericDRAMSystem Dev Cmd) :=
  let req := apply req
  let channelId := req.addrVec.at 0
  if channelId < 0 then none
  else
    (s.controllers[channelId.toNat]?).bind fun c =>
      (c.send iface req).map fun (isSuccess, c') =>
        let s' := { s with controllers := s.controllers.set channelId.toNat c' }
        (isSuccess, if isSuccess then s'.count req.type else s')

/-- The `tick` of the controller of a channel, with the requests its plugins send. -/
def turn (plugins : Nat → List Request) (channelId : Nat) (c : GenericDRAMController Cmd)
    (dram : Dev) : Option (GenericDRAMController Cmd × Dev × Turn Cmd) :=
  (c.tick iface (forChannel params channelId) dram (plugins channelId)).map
    fun (c', dram', called) =>
      (c', dram', ⟨called, c.issued iface (forChannel params channelId) dram⟩)

/-- `tick`; `none` where a controller throws. -/
def tick (s : GenericDRAMSystem Dev Cmd) (plugins : Nat → List Request) :
    Option (GenericDRAMSystem Dev Cmd × List (Turn Cmd)) :=
  (Sweep.sweep (turn iface params plugins) 0 s.controllers (iface.tick s.dram)).map
    fun (controllers, dram, turns) => ({ s with clk := s.clk + 1, dram, controllers }, turns)

omit [DecidableEq Cmd] in
@[simp] theorem count_controllers (s : GenericDRAMSystem Dev Cmd) (type : ReqType) :
    (s.count type).controllers = s.controllers := by
  cases type <;> rfl

omit [DecidableEq Cmd] in
@[simp] theorem count_dram (s : GenericDRAMSystem Dev Cmd) (type : ReqType) :
    (s.count type).dram = s.dram := by
  cases type <;> rfl

omit [DecidableEq Cmd] in
@[simp] theorem count_clk (s : GenericDRAMSystem Dev Cmd) (type : ReqType) :
    (s.count type).clk = s.clk := by
  cases type <;> rfl

omit [DecidableEq Cmd] in
theorem count_numReads (s : GenericDRAMSystem Dev Cmd) (type : ReqType) :
    (s.count type).numReadRequests =
      s.numReadRequests + (decide (type = .Read)).toNat := by
  cases type <;> rfl

variable {iface params} in
theorem turn_cases {plugins : Nat → List Request} {k : Nat} {c c' : GenericDRAMController Cmd}
    {dram dram' : Dev} {o : Turn Cmd}
    (h : turn iface params plugins k c dram = some (c', dram', o)) :
    ∃ called, c.tick iface (forChannel params k) dram (plugins k) = some (c', dram', called) ∧
      o = ⟨called, c.issued iface (forChannel params k) dram⟩ := by
  obtain ⟨⟨c₁, dram₁, called⟩, htick, heq⟩ := Option.map_eq_some_iff.mp h
  simp only [Prod.mk.injEq] at heq
  obtain ⟨rfl, rfl, rfl⟩ := heq
  exact ⟨called, htick, rfl⟩

end GenericDRAMSystem

/-! ## Runs -/

/-- A system with the commands issued so far, most recent first, the requests that each
controller called back, and the requests that were accepted. -/
structure SystemRun (Dev Cmd : Type) where
  sys : GenericDRAMSystem Dev Cmd
  issues : List (Issue Cmd) := []
  called : Nat → List (Queued Cmd) := fun _ => []
  accepted : List Request := []

/-- What the front end does to the system; a tick comes with the requests that the plugins of
each controller send. -/
inductive SystemOp
  | send (req : Request)
  | tick (plugins : Nat → List Request)

def issuesOfTurns (clk : Int) (turns : List (Turn Cmd)) : List (Issue Cmd) :=
  (turns.filterMap fun o => o.issued.map fun i => ⟨clk, i.1, i.2⟩).reverse

namespace SystemRun

def init (numChannels : Nat) (dram : Dev) : SystemRun Dev Cmd where
  sys := GenericDRAMSystem.init iface numChannels dram

def step (s : SystemRun Dev Cmd) : SystemOp → Option (SystemRun Dev Cmd)
  | .send req =>
      (s.sys.send iface apply req).map fun (isSuccess, sys) =>
        { s with sys, accepted := s.accepted ++ if isSuccess then [apply req] else [] }
  | .tick plugins =>
      (s.sys.tick iface params plugins).map fun (sys, turns) =>
        { s with
          sys
          issues := issuesOfTurns sys.clk turns ++ s.issues
          called := fun k => s.called k ++ (turns[k]?).elim [] Turn.called }

/-- The systems reached from a fresh one by steps that all meet a guard. -/
abbrev Run (numChannels : Nat) (dram : Dev) (guard : SystemRun Dev Cmd → SystemOp → Prop) :
    SystemRun Dev Cmd → Prop :=
  Runs.Reachable (fun s => s = init iface numChannels dram)
    (fun s op t => s.step iface params apply op = some t) guard

variable {iface params apply}

/-- What a `send` does: it reaches the controller of the channel that the mapped address names. -/
structure SendStep (iface : IDRAM Dev Cmd) (s t : SystemRun Dev Cmd) (req : Request)
    (c c' : GenericDRAMController Cmd) (isSuccess : Bool) : Prop where
  channel : ∃ k : Nat, req.addrVec.at 0 = k ∧ s.sys.controllers[k]? = some c ∧
    t.sys.controllers = s.sys.controllers.set k c'
  sent : c.send iface req = some (isSuccess, c')
  dram : t.sys.dram = s.sys.dram
  clk : t.sys.clk = s.sys.clk
  issues : t.issues = s.issues
  called : t.called = s.called
  accepted : t.accepted = s.accepted ++ if isSuccess then [req] else []
  numReads : t.sys.numReadRequests =
    s.sys.numReadRequests + (isSuccess && decide (req.type = .Read)).toNat

theorem send_cases {s t : SystemRun Dev Cmd} {req : Request}
    (h : s.step iface params apply (.send req) = some t) :
    ∃ c c' isSuccess, SendStep iface s t (apply req) c c' isSuccess := by
  obtain ⟨⟨ok, sys⟩, hsend, rfl⟩ := Option.map_eq_some_iff.mp h
  unfold GenericDRAMSystem.send at hsend
  dsimp only at hsend
  split at hsend
  · cases hsend
  · next hneg =>
      obtain ⟨c, hget, hsend⟩ := Option.bind_eq_some_iff.mp hsend
      obtain ⟨⟨isSuccess, c'⟩, hctl, heq⟩ := Option.map_eq_some_iff.mp hsend
      obtain ⟨rfl, rfl⟩ := Prod.mk.inj heq
      refine ⟨c, c', isSuccess, ⟨((apply req).addrVec.at 0).toNat, by omega, hget, ?_⟩, hctl, ?_, ?_,
        rfl, rfl, rfl, ?_⟩
      all_goals
        cases isSuccess
        · rfl
        · simp [GenericDRAMSystem.count_numReads]

theorem tick_cases {s t : SystemRun Dev Cmd} {plugins : Nat → List Request}
    (h : s.step iface params apply (.tick plugins) = some t) :
    ∃ turns, Sweep.sweep (GenericDRAMSystem.turn iface params plugins) 0 s.sys.controllers
        (iface.tick s.sys.dram) = some (t.sys.controllers, t.sys.dram, turns) ∧
      t.sys.clk = s.sys.clk + 1 ∧ t.issues = issuesOfTurns (s.sys.clk + 1) turns ++ s.issues ∧
      (t.called = fun k => s.called k ++ (turns[k]?).elim [] Turn.called) ∧
      t.accepted = s.accepted ∧ t.sys.numReadRequests = s.sys.numReadRequests := by
  obtain ⟨⟨sys, turns⟩, htick, rfl⟩ := Option.map_eq_some_iff.mp h
  obtain ⟨⟨controllers, dram, turns'⟩, hsweep, heq⟩ := Option.map_eq_some_iff.mp htick
  obtain ⟨rfl, rfl⟩ := Prod.mk.inj heq
  exact ⟨turns', hsweep, rfl, rfl, rfl, rfl, rfl⟩

end SystemRun

end AimSimulator.MemorySystem
