import AimSimulator.Controller.Refresh
/-!
# The generic DRAM controller, and plugins that send

`dram_controller/impl/generic_dram_controller.cpp` with the scheduler and the refresh manager of
the AiM controller.  In both controllers a plugin may call `priority_send` in the middle of a tick;
which requests the plugins send is an argument of the tick.
-/

namespace AimSimulator.Controller

open Dram

/-- The calls a controller receives, and what another controller does to the shared device. -/
inductive Call (Cmd : Type)
  | send (req : Request)
  | prioritySend (req : Request)
  | tick (plugins : List Request)
  | issueElsewhere (cmd : Cmd) (addrVec : AddrVec)

variable {Dev Cmd : Type} [DecidableEq Cmd] (iface : IDRAM Dev Cmd)

/-! ## The AiM controller with plugins -/

section

variable (params : Params)

namespace AiMDRAMController

/-- The calls of `priority_send` by the plugins; they pass over a refusal. -/
def pluginSends (c : AiMDRAMController Cmd) :
    List Request → Option (AiMDRAMController Cmd × List (Event Cmd))
  | [] => some (c, [])
  | req :: reqs =>
      (c.prioritySend iface req).bind fun (_, c', events) =>
        (pluginSends c' reqs).map fun (c'', events') => (c'', events ++ events')

/-- `tick` with the requests its plugins send.  A cycle without a request updates the plugins
last; nothing it does before reads the priority buffer. -/
def tickWith (c : AiMDRAMController Cmd) (dev : Dev) (plugins : List Request) :
    Option (AiMDRAMController Cmd × Dev × List (Event Cmd)) :=
  (c.prepare iface params).bind fun (c₁, prepared) =>
    let found := c₁.scheduleRequest iface params dev
    (found.1.pluginSends iface plugins).bind fun (c₂, sent) =>
      (c₂.serveScheduled iface dev found.2).map fun (c₃, dev', served) =>
        (c₃.countStandby iface params dev', dev', prepared ++ (sent ++ served))

example (c : AiMDRAMController Cmd) (dev : Dev) :
    c.tickWith iface params dev [] = c.tick iface params dev := rfl

end AiMDRAMController

def Chan.call (s : Chan Dev Cmd) : Call Cmd → Option (Chan Dev Cmd)
  | .send req => s.step iface params (.send req)
  | .prioritySend req => s.step iface params (.prioritySend req)
  | .tick plugins =>
      (s.ctl.tickWith iface params (iface.tick s.dev) plugins).map fun (ctl, dev, events) =>
        ⟨ctl, dev, s.log ++ events⟩
  | .issueElsewhere cmd addrVec => some { s with dev := iface.issueCommand s.dev cmd addrVec }

/-- The channels reached from a fresh controller by calls that all meet a guard. -/
abbrev Chan.CallRun (dev₀ : Dev) (guard : Chan Dev Cmd → Call Cmd → Prop) : Chan Dev Cmd → Prop :=
  Runs.Reachable (fun s => s = Chan.init iface dev₀)
    (fun s call t => s.call iface params call = some t) guard

end

/-! ## The generic controller -/

structure GenericParams extends Params where
  readLatency : Int

/-- The state of `GenericDRAMController`.  Its `pending` requests are the `pendingReads`; the
pending writes and the AiM buffer stay empty. -/
structure GenericDRAMController (Cmd : Type) extends Queues Cmd where
  isWriteMode : Bool := false
  refresh : AllBankRefresh

namespace GenericDRAMController

variable (params : GenericParams)

def init : GenericDRAMController Cmd where
  refresh := { nextRefreshCycle := iface.nREFI }

/-- Put a request into a buffer; a full buffer refuses it. -/
def enqueueTo (c : GenericDRAMController Cmd) (id : BufferId) (q : Queued Cmd) :
    Bool × GenericDRAMController Cmd :=
  match (c.bufferOf id).enqueue q with
  | some b => (true, { c with toQueues := { c.setBuffer id b with nextSeq := c.nextSeq + 1 } })
  | none => (false, c)

def send (c : GenericDRAMController Cmd) (req : Request) :
    Option (Bool × GenericDRAMController Cmd) :=
  (iface.requestTranslations req.type).bind fun final =>
    match req.type with
    | .Read =>
        if c.writeBuffer.buffer.any fun wreq => wreq.req.addr = req.addr then
          let q : Queued Cmd :=
            { req, finalCommand := final, depart := c.clk + 1, seq := c.nextSeq }
          some (true,
            { c with pendingReads := c.pendingReads ++ [q], nextSeq := c.nextSeq + 1 })
        else
          some (c.enqueueTo .read
            { req, finalCommand := final, arrive := c.clk, seq := c.nextSeq })
    | .Write =>
        some (c.enqueueTo .write
          { req, finalCommand := final, arrive := c.clk, seq := c.nextSeq })
    | _ => none

def prioritySend (c : GenericDRAMController Cmd) (req : Request) :
    Option (Bool × GenericDRAMController Cmd) :=
  (iface.requestTranslations req.type).map fun final =>
    c.enqueueTo .priority { req, finalCommand := final, seq := c.nextSeq }

/-- The calls of `priority_send` by the plugins. -/
def pluginSends (c : GenericDRAMController Cmd) :
    List Request → Option (GenericDRAMController Cmd)
  | [] => some c
  | req :: reqs => (c.prioritySend iface req).bind fun (_, c') => pluginSends c' reqs

def serveCompletedReads (c : GenericDRAMController Cmd) :
    GenericDRAMController Cmd × List (Queued Cmd) :=
  match c.pendingReads with
  | q :: rest => if q.depart ≤ c.clk then ({ c with pendingReads := rest }, [q]) else (c, [])
  | [] => (c, [])

/-- The `tick` of the refresh manager; a refused refresh throws. -/
def refreshTick (c : GenericDRAMController Cmd) : Option (GenericDRAMController Cmd) :=
  ((managerSetup iface params.toParams).tick (prioritySend iface) c.refresh c).map
    fun (manager, c', _) => { c' with refresh := manager }

/-- What `tick` does before it schedules. -/
def prepare (c : GenericDRAMController Cmd) :
    Option (GenericDRAMController Cmd × List (Queued Cmd)) :=
  let (c₁, called) := { c with clk := c.clk + 1 }.serveCompletedReads
  (c₁.refreshTick iface params).map fun c₂ => (c₂, called)

/-- An AiM controller with the same queues and no AiM request.  The two sources share the functions
that are applied to it here. -/
def asAiM (c : GenericDRAMController Cmd) : AiMDRAMController Cmd where
  toQueues := { c.toQueues with aimBuffer := {} }
  isWriteMode := c.isWriteMode
  refresh := c.refresh

def setWriteMode (c : GenericDRAMController Cmd) : GenericDRAMController Cmd :=
  { c with isWriteMode := (c.asAiM.setWriteMode params.toParams).isWriteMode }

def scheduleRequest (c : GenericDRAMController Cmd) (dev : Dev) :
    GenericDRAMController Cmd × Option (Scheduled Cmd) :=
  match (FRFCFS.getBestRequest iface dev .active c.activeBuffer).filter
      (Scheduled.ready iface dev) with
  | some s => (c, c.asAiM.unlessClosing iface s)
  | none =>
      match c.priorityBuffer.buffer with
      | q :: _ =>
          (c, ((some (candidate iface dev .priority 0 q)).filter
            (Scheduled.ready iface dev)).bind (c.asAiM.unlessClosing iface))
      | [] =>
          let c' := c.setWriteMode params
          let id := if c'.isWriteMode then BufferId.write else BufferId.read
          (c', ((FRFCFS.getBestRequest iface dev id (c'.bufferOf id)).filter
            (Scheduled.ready iface dev)).bind (c'.asAiM.unlessClosing iface))

/-- Where a request goes after its command was issued: away after its last one, a read to the
pending requests, and to the active buffer after one that opens a row. -/
def moveIssued (c : Queues Cmd) (s : Scheduled Cmd) : Queues Cmd :=
  if s.command = s.req.finalCommand then
    let c' := c.removeAt s.buffer s.index
    if s.req.req.type = .Read then
      { c' with
        pendingReads := c'.pendingReads ++ [{ s.req with depart := c.clk + params.readLatency }] }
    else c'
  else if (iface.commandMeta s.command).isOpening then
    let c' := { c with activeBuffer := (c.activeBuffer.enqueue s.req).getD c.activeBuffer }
    c'.removeAt s.buffer s.index
  else c

def serveScheduled (c : GenericDRAMController Cmd) (dev : Dev) :
    Option (Scheduled Cmd) → GenericDRAMController Cmd × Dev
  | some s =>
      ({ c with toQueues := moveIssued iface params c.toQueues s },
        iface.issueCommand dev s.command s.req.req.addrVec)
  | none => (c, dev)

/-- `tick` with the requests its plugins send; `none` where it throws. -/
def tick (c : GenericDRAMController Cmd) (dev : Dev) (plugins : List Request) :
    Option (GenericDRAMController Cmd × Dev × List (Queued Cmd)) :=
  (c.prepare iface params).bind fun (c₁, called) =>
    let found := c₁.scheduleRequest iface params dev
    (found.1.pluginSends iface plugins).map fun c₂ =>
      let (c₃, dev') := c₂.serveScheduled iface params dev found.2
      (c₃, dev', called)

def nextScheduled (c : GenericDRAMController Cmd) (dev : Dev) : Option (Scheduled Cmd) :=
  (c.prepare iface params).bind fun (c₁, _) => (c₁.scheduleRequest iface params dev).2

variable {iface params}

omit [DecidableEq Cmd] in
theorem scheduleRequest_toQueues (c : GenericDRAMController Cmd) (dev : Dev) :
    (c.scheduleRequest iface params dev).1.toQueues = c.toQueues := by
  unfold scheduleRequest
  split
  · rfl
  · split <;> rfl

omit [DecidableEq Cmd] in
theorem scheduleRequest_eq (c : GenericDRAMController Cmd) (dev : Dev) :
    (c.scheduleRequest iface params dev).2 =
      (c.asAiM.scheduleRequest iface params.toParams dev).2 := by
  unfold scheduleRequest AiMDRAMController.scheduleRequest
  have hactive : c.asAiM.activeBuffer = c.activeBuffer := rfl
  have hpriority : c.asAiM.priorityBuffer = c.priorityBuffer := rfl
  have haim : c.asAiM.aimBuffer.buffer = [] := rfl
  rw [hactive, hpriority, haim]
  generalize (FRFCFS.getBestRequest iface dev .active c.activeBuffer).filter _ = best
  cases best with
  | some s => rfl
  | none =>
      generalize c.priorityBuffer.buffer = waiting
      cases waiting with
      | cons q qs => rfl
      | nil =>
          -- the write mode is the same, and it changes no queue
          have hclosing : (c.asAiM.setWriteMode params.toParams).unlessClosing iface =
              (c.setWriteMode params).asAiM.unlessClosing iface := by
            funext s
            unfold AiMDRAMController.unlessClosing AiMDRAMController.closesActive
            rw [AiMDRAMController.setWriteMode_toQueues]
            rfl
          have hmode : (c.setWriteMode params).isWriteMode =
            (c.asAiM.setWriteMode params.toParams).isWriteMode := rfl
          dsimp only
          rw [hclosing, hmode, AiMDRAMController.setWriteMode_toQueues]
          split <;> rfl

omit [DecidableEq Cmd] in
theorem refreshTick_cases {c c' : GenericDRAMController Cmd}
    (h : c.refreshTick iface params = some c') :
    (c.refresh.clk + 1 = c.refresh.nextRefreshCycle ∧
      ∃ c₁ sent, (managerSetup iface params.toParams).sendAll (prioritySend iface) c
        (List.range iface.numRanks.toNat) = some (c₁, sent) ∧ c'.toQueues = c₁.toQueues) ∨
    (¬ c.refresh.clk + 1 = c.refresh.nextRefreshCycle ∧ c'.toQueues = c.toQueues) := by
  obtain ⟨⟨manager, c₁, sent⟩, htick, rfl⟩ := Option.map_eq_some_iff.mp h
  unfold RefreshSetup.tick at htick
  split at htick
  · next hdue =>
      obtain ⟨⟨c₂, sent'⟩, hsent, heq⟩ := Option.map_eq_some_iff.mp htick
      simp only [Prod.mk.injEq] at heq
      obtain ⟨-, rfl, -⟩ := heq
      exact .inl ⟨hdue, c₂, sent', hsent, rfl⟩
  · next hdue =>
      obtain ⟨-, rfl, -⟩ := Option.some.inj htick
      exact .inr ⟨hdue, rfl⟩

omit [DecidableEq Cmd] in
theorem scheduleRequest_stands {c : GenericDRAMController Cmd} {dev : Dev} {s : Scheduled Cmd}
    (h : (c.scheduleRequest iface params dev).2 = some s) :
    s.buffer ≠ .aim ∧ (c.bufferOf s.buffer).buffer[s.index]? = some s.req := by
  rw [scheduleRequest_eq] at h
  have hstands := (AiMDRAMController.scheduleRequest_picked iface h).stands
  cases hid : s.buffer <;> rw [hid] at hstands
  case aim => cases hstands
  all_goals exact ⟨nofun, hstands⟩

end GenericDRAMController

/-- A generic controller with its device and the requests whose callbacks were called. -/
structure GenericChan (Dev Cmd : Type) where
  ctl : GenericDRAMController Cmd
  dev : Dev
  called : List (Queued Cmd) := []

namespace GenericChan

variable (params : GenericParams)

def init (dev : Dev) : GenericChan Dev Cmd where
  ctl := GenericDRAMController.init iface
  dev := dev

def call (s : GenericChan Dev Cmd) : Call Cmd → Option (GenericChan Dev Cmd)
  | .send req => (s.ctl.send iface req).map fun (_, ctl) => { s with ctl }
  | .prioritySend req => (s.ctl.prioritySend iface req).map fun (_, ctl) => { s with ctl }
  | .tick plugins =>
      (s.ctl.tick iface params (iface.tick s.dev) plugins).map fun (ctl, dev, called) =>
        ⟨ctl, dev, s.called ++ called⟩
  | .issueElsewhere cmd addrVec => some { s with dev := iface.issueCommand s.dev cmd addrVec }

/-- The channels reached from a fresh controller by calls that all meet a guard. -/
abbrev Run (dev₀ : Dev) (guard : GenericChan Dev Cmd → Call Cmd → Prop) :
    GenericChan Dev Cmd → Prop :=
  Runs.Reachable (fun s => s = init iface dev₀)
    (fun s call t => s.call iface params call = some t) guard

end GenericChan

end AimSimulator.Controller
