import AimSimulator.Lib.Best
import AimSimulator.Dram.Device
/-!
# The AiM DRAM controller

`dram_controller/impl/AiM_dram_controller.cpp` with its FR-FCFS scheduler and its
all-bank refresh manager.  Calls that can throw return an `Option`.  Beside the state
of the source a controller numbers the requests it accepts, and every call returns the
events a run is judged by.  The plugins are modelled apart.
-/

namespace AimSimulator.Controller

open Dram

/-- A request inside a controller, with the members of `struct Request` that a
controller sets.  `command` is not kept: it is computed anew before every use. -/
structure Queued (Cmd : Type) where
  req : Request
  finalCommand : Cmd
  arrive : Int := -1
  issue : Int := -1
  depart : Int := -1
  /-- how many requests the controller had accepted before this one -/
  seq : Nat

structure ReqBuffer (Cmd : Type) where
  buffer : List (Queued Cmd) := []
  maxSize : Nat := 32

namespace ReqBuffer

variable {Cmd : Type}

def size (b : ReqBuffer Cmd) : Nat := b.buffer.length

/-- `enqueue`; `none` where the source returns `false`. -/
def enqueue (b : ReqBuffer Cmd) (q : Queued Cmd) : Option (ReqBuffer Cmd) :=
  if b.size ≤ b.maxSize then some { b with buffer := b.buffer ++ [q] } else none

def remove (b : ReqBuffer Cmd) (index : Nat) : ReqBuffer Cmd :=
  { b with buffer := b.buffer.eraseIdx index }

def set (b : ReqBuffer Cmd) (index : Nat) (q : Queued Cmd) : ReqBuffer Cmd :=
  { b with buffer := b.buffer.set index q }

end ReqBuffer

inductive Event (Cmd : Type)
  | accept (q : Queued Cmd)
  | forward (q : Queued Cmd)
  | issue (q : Queued Cmd) (cmd : Cmd)
  | barrier (q : Queued Cmd)
  | complete (q : Queued Cmd)
  | retire (q : Queued Cmd)

/-- The parameters of a controller.  A watermark is a fraction of the capacity of the
write buffer, as numerator and denominator. -/
structure Params where
  channelId : Int
  wrLowWatermark : Nat × Nat := (1, 5)
  wrHighWatermark : Nat × Nat := (4, 5)

structure Stats (Cmd : Type) where
  numRWCycles : ReqType → Int := fun _ => 0
  numAiMCycles : Opcode → Int := fun _ => 0
  numCommands : Cmd → Int := fun _ => 0
  numIdleCycles : Int := 0
  numActiveCycles : Int := 0
  numPrechargedCycles : Int := 0

structure AllBankRefresh where
  clk : Int := 0
  nextRefreshCycle : Int

inductive BufferId
  | active | priority | read | write | aim
  deriving DecidableEq, Repr

structure Queues (Cmd : Type) where
  clk : Int := 0
  pendingReads : List (Queued Cmd) := []
  pendingWrites : List (Queued Cmd) := []
  activeBuffer : ReqBuffer Cmd := {}
  priorityBuffer : ReqBuffer Cmd := { maxSize := 512 * 3 + 32 }
  readBuffer : ReqBuffer Cmd := {}
  writeBuffer : ReqBuffer Cmd := {}
  aimBuffer : ReqBuffer Cmd := {}
  nextSeq : Nat := 0

namespace Queues

variable {Cmd : Type}

def bufferOf (c : Queues Cmd) : BufferId → ReqBuffer Cmd
  | .active => c.activeBuffer
  | .priority => c.priorityBuffer
  | .read => c.readBuffer
  | .write => c.writeBuffer
  | .aim => c.aimBuffer

def setBuffer (c : Queues Cmd) (id : BufferId) (b : ReqBuffer Cmd) : Queues Cmd :=
  match id with
  | .active => { c with activeBuffer := b }
  | .priority => { c with priorityBuffer := b }
  | .read => { c with readBuffer := b }
  | .write => { c with writeBuffer := b }
  | .aim => { c with aimBuffer := b }

def removeAt (c : Queues Cmd) (id : BufferId) (index : Nat) : Queues Cmd :=
  c.setBuffer id ((c.bufferOf id).remove index)

end Queues

structure AiMDRAMController (Cmd : Type) extends Queues Cmd where
  isWriteMode : Bool := false
  isRegRWMode : Bool := false
  refresh : AllBankRefresh
  stats : Stats Cmd := {}

/-- The outcome of `schedule_request`: where the request stands, and its command. -/
structure Scheduled (Cmd : Type) where
  buffer : BufferId
  index : Nat
  req : Queued Cmd
  command : Cmd

section

variable {Dev Cmd : Type} [DecidableEq Cmd] (iface : IDRAM Dev Cmd)

/-! ## FR-FCFS -/

def Scheduled.ready (dev : Dev) (s : Scheduled Cmd) : Bool :=
  iface.checkReady dev s.command s.req.req.addrVec

/-- A request of a buffer with its freshly computed prerequisite. -/
def candidate (dev : Dev) (id : BufferId) (index : Nat) (q : Queued Cmd) : Scheduled Cmd where
  buffer := id
  index := index
  req := q
  command := iface.getPreqCommand dev q.finalCommand q.req.addrVec

/-- Whether `FRFCFS::compare` returns its first argument. -/
def FRFCFS.prefers (dev : Dev) (s₁ s₂ : Scheduled Cmd) : Bool :=
  if s₁.ready iface dev != s₂.ready iface dev then s₁.ready iface dev
  else s₁.req.arrive ≤ s₂.req.arrive

/-- `FRFCFS::get_best_request`; `none` is `buffer.end()`. -/
def FRFCFS.getBestRequest (dev : Dev) (id : BufferId) (b : ReqBuffer Cmd) :
    Option (Scheduled Cmd) :=
  match b.buffer.mapIdx (candidate iface dev id) with
  | [] => none
  | c :: cs => some (Best.best (FRFCFS.prefers iface dev) c cs)

namespace AiMDRAMController

def init : AiMDRAMController Cmd where
  refresh := { nextRefreshCycle := iface.nREFI }

/-! ## Accepting requests -/

/-- Put a request into a buffer; a full buffer refuses it. -/
def enqueueTo (c : AiMDRAMController Cmd) (id : BufferId) (q : Queued Cmd) :
    Bool × AiMDRAMController Cmd × List (Event Cmd) :=
  match (c.bufferOf id).enqueue q with
  | some b =>
      (true, { c with toQueues := { c.setBuffer id b with nextSeq := c.nextSeq + 1 } },
        [.accept q])
  | none => (false, c, [])

def send (c : AiMDRAMController Cmd) (req : Request) :
    Option (Bool × AiMDRAMController Cmd × List (Event Cmd)) :=
  if req.type = .AIM then
    if c.writeBuffer.size ≠ 0 ∨ c.readBuffer.size ≠ 0 then some (false, c, [])
    else
      (iface.aimRequestTranslations req.opcode).map fun final =>
        c.enqueueTo .aim { req, finalCommand := final, arrive := c.clk, seq := c.nextSeq }
  else if c.aimBuffer.size ≠ 0 then some (false, c, [])
  else
    (iface.requestTranslations req.type).bind fun final =>
      match req.type with
      | .Read =>
          if c.writeBuffer.buffer.any fun wreq => wreq.req.addr = req.addr then
            let q : Queued Cmd :=
              { req, finalCommand := final, depart := c.clk + 1, seq := c.nextSeq }
            some (true,
              { c with pendingReads := c.pendingReads ++ [q], nextSeq := c.nextSeq + 1 },
              [.accept q, .forward q])
          else
            some (c.enqueueTo .read
              { req, finalCommand := final, arrive := c.clk, seq := c.nextSeq })
      | .Write =>
          some (c.enqueueTo .write
            { req, finalCommand := final, arrive := c.clk, seq := c.nextSeq })
      | _ => none

def prioritySend (c : AiMDRAMController Cmd) (req : Request) :
    Option (Bool × AiMDRAMController Cmd × List (Event Cmd)) :=
  (if req.type = .AIM then iface.aimRequestTranslations req.opcode
   else iface.requestTranslations req.type).map fun final =>
    c.enqueueTo .priority { req, finalCommand := final, seq := c.nextSeq }

/-! ## One cycle -/

def headDone (c : AiMDRAMController Cmd) (q : Queued Cmd) : Bool :=
  decide (q.depart ≤ c.clk) && (!q.req.opcode.isBarrier || c.pendingWrites.isEmpty)

/-- The part of `serve_completed_reqs` over `pending_reads`. -/
def serveReads (c : AiMDRAMController Cmd) : AiMDRAMController Cmd × List (Event Cmd) :=
  match c.pendingReads with
  | q :: rest =>
      if c.headDone q then ({ c with pendingReads := rest }, [.complete q]) else (c, [])
  | [] => (c, [])

def serveWrites (c : AiMDRAMController Cmd) : AiMDRAMController Cmd × List (Event Cmd) :=
  ({ c with pendingWrites := c.pendingWrites.filter fun q => c.clk < q.depart },
    (c.pendingWrites.filter fun q => q.depart ≤ c.clk).map .retire)

def serveCompletedReqs (c : AiMDRAMController Cmd) : AiMDRAMController Cmd × List (Event Cmd) :=
  let (c₁, completed) := c.serveReads
  let (c₂, retired) := c₁.serveWrites
  (c₂, completed ++ retired)

/-- The request that `AllBankRefresh::tick` builds for a rank. -/
def refreshRequest (params : Params) (rank : Nat) : Request where
  addrVec := ((List.replicate iface.numLevels (-1)).set 0 params.channelId).set 1 rank
  type := .RefAllBank
  typeId := 2

def sendRefreshes (params : Params) (c : AiMDRAMController Cmd) :
    List Nat → Option (AiMDRAMController Cmd × List (Event Cmd))
  | [] => some (c, [])
  | rank :: ranks =>
      (c.prioritySend iface (refreshRequest iface params rank)).bind fun (ok, c', events) =>
        if ok then
          (sendRefreshes params c' ranks).map fun (c'', events') => (c'', events ++ events')
        else none

def refreshTick (params : Params) (c : AiMDRAMController Cmd) :
    Option (AiMDRAMController Cmd × List (Event Cmd)) :=
  if c.refresh.clk + 1 = c.refresh.nextRefreshCycle then
    sendRefreshes iface params
      { c with refresh := ⟨c.refresh.clk + 1, c.refresh.nextRefreshCycle + iface.nREFI⟩ }
      (List.range iface.numRanks.toNat)
  else some ({ c with refresh := ⟨c.refresh.clk + 1, c.refresh.nextRefreshCycle⟩ }, [])

def setWriteMode (params : Params) (c : AiMDRAMController Cmd) : AiMDRAMController Cmd :=
  if c.isWriteMode then
    if c.writeBuffer.size * params.wrLowWatermark.2 <
        params.wrLowWatermark.1 * c.writeBuffer.maxSize ∧ c.readBuffer.size ≠ 0 then
      { c with isWriteMode := false }
    else c
  else if params.wrHighWatermark.1 * c.writeBuffer.maxSize <
      c.writeBuffer.size * params.wrHighWatermark.2 ∨ c.readBuffer.size = 0 then
    { c with isWriteMode := true }
  else c

/-- Step 2.3 of `schedule_request`: a closing command must not hit the row group of a
request in the active buffer. -/
def closesActive (c : AiMDRAMController Cmd) (s : Scheduled Cmd) : Bool :=
  (iface.commandMeta s.command).isClosing &&
    c.activeBuffer.buffer.any fun q =>
      q.req.addrVec.take iface.rowLevel = s.req.req.addrVec.take iface.rowLevel

/-- A candidate is taken when it is ready and closes no active row. -/
def unlessClosing (c : AiMDRAMController Cmd) (s : Scheduled Cmd) : Option (Scheduled Cmd) :=
  if c.closesActive iface s then none else some s

def scheduleRequest (params : Params) (c : AiMDRAMController Cmd) (dev : Dev) :
    AiMDRAMController Cmd × Option (Scheduled Cmd) :=
  match (FRFCFS.getBestRequest iface dev .active c.activeBuffer).filter
      (Scheduled.ready iface dev) with
  | some s => (c, c.unlessClosing iface s)
  | none =>
      match c.priorityBuffer.buffer with
      | q :: _ =>
          (c, ((some (candidate iface dev .priority 0 q)).filter
            (Scheduled.ready iface dev)).bind (c.unlessClosing iface))
      | [] =>
          match c.aimBuffer.buffer with
          | q :: _ =>
              if q.req.opcode.isBarrier then (c, some ⟨.aim, 0, q, q.finalCommand⟩)
              else
                (c, ((some (candidate iface dev .aim 0 q)).filter
                  (Scheduled.ready iface dev)).bind (c.unlessClosing iface))
          | [] =>
              let c' := c.setWriteMode params
              let id := if c'.isWriteMode then BufferId.write else BufferId.read
              (c', ((FRFCFS.getBestRequest iface dev id (c'.bufferOf id)).filter
                (Scheduled.ready iface dev)).bind (c'.unlessClosing iface))

/-- The branch of `tick` for `ISR_EOC` and `ISR_SYNC`. -/
def serveBarrier (c : Queues Cmd) (s : Scheduled Cmd) : Queues Cmd :=
  let c' := c.removeAt s.buffer s.index
  { c' with pendingReads := c'.pendingReads ++ [{ s.req with depart := c.clk }] }

/-- Whether a request needs the register mode; `none` where the lookup throws. -/
def requiresRegRWMode (req : Request) : Option Bool :=
  if req.type = .AIM then opcodeRequiresRegRWMod req.opcode else some false

def issuedCommand (c : AiMDRAMController Cmd) (s : Scheduled Cmd) (requires : Bool) : Cmd :=
  if requires != c.isRegRWMode then iface.tmod else s.command

def countIssue (c : AiMDRAMController Cmd) (q : Queued Cmd) (cmd : Cmd) : Stats Cmd :=
  let numCommands := fun x => if x = cmd then c.stats.numCommands x + 1 else c.stats.numCommands x
  if cmd = q.finalCommand then
    if q.req.type = .AIM then
      { c.stats with
        numCommands
        numAiMCycles := fun op =>
          if op = q.req.opcode then c.stats.numAiMCycles op + (c.clk - q.issue)
          else c.stats.numAiMCycles op }
    else
      { c.stats with
        numCommands
        numRWCycles := fun type =>
          if type = q.req.type then c.stats.numRWCycles type + (c.clk - q.issue)
          else c.stats.numRWCycles type }
  else { c.stats with numCommands }

/-- Where a request goes after a command was issued for it: to the pending requests
after its last command, to the active buffer after one that opens a row (which drops it
when that buffer is full), and otherwise nowhere. -/
def moveIssued (c : Queues Cmd) (s : Scheduled Cmd) (q : Queued Cmd) (cmd : Cmd) :
    Queues Cmd :=
  if cmd = q.finalCommand then
    let q := { q with depart := c.clk + iface.commandLatencies cmd }
    let c' := c.removeAt s.buffer s.index
    if q.req.isReader then { c' with pendingReads := c'.pendingReads ++ [q] }
    else { c' with pendingWrites := c'.pendingWrites ++ [q] }
  else if q.req.type ≠ .AIM ∧ (iface.commandMeta cmd).isOpening = true then
    let c' := { c with activeBuffer := (c.activeBuffer.enqueue q).getD c.activeBuffer }
    c'.removeAt s.buffer s.index
  else c.setBuffer s.buffer ((c.bufferOf s.buffer).set s.index q)

def stampIssue (c : Queues Cmd) (q : Queued Cmd) : Queued Cmd :=
  if q.issue = -1 then { q with issue := c.clk - 1 } else q

/-- The branch of `tick` that issues a command. -/
def serveRequest (c : AiMDRAMController Cmd) (dev : Dev) (s : Scheduled Cmd) :
    Option (AiMDRAMController Cmd × Dev × List (Event Cmd)) :=
  (requiresRegRWMode s.req.req).map fun requires =>
    let cmd := c.issuedCommand iface s requires
    let q := stampIssue c.toQueues s.req
    ({ c with
        toQueues := moveIssued iface c.toQueues s q cmd
        isRegRWMode := requires
        stats := c.countIssue q cmd },
      iface.issueCommand dev cmd q.req.addrVec, [.issue q cmd])

/-- The condition under which a cycle without a request counts as idle. -/
def isIdle (c : AiMDRAMController Cmd) : Bool :=
  c.readBuffer.size = 0 && c.writeBuffer.size = 0 && c.aimBuffer.size = 0 &&
    c.pendingReads.length = 0 && c.pendingWrites.length = 0

def serveScheduled (c : AiMDRAMController Cmd) (dev : Dev) :
    Option (Scheduled Cmd) → Option (AiMDRAMController Cmd × Dev × List (Event Cmd))
  | some s =>
      if s.req.req.opcode.isBarrier then
        some ({ c with toQueues := serveBarrier c.toQueues s }, dev,
          [.barrier { s.req with depart := c.clk }])
      else c.serveRequest iface dev s
  | none =>
      if c.isIdle then
        some ({ c with
          stats := { c.stats with numIdleCycles := c.stats.numIdleCycles + 1 } }, dev, [])
      else some (c, dev, [])

def countStandby (params : Params) (c : AiMDRAMController Cmd) (dev : Dev) :
    AiMDRAMController Cmd :=
  if iface.openRows dev params.channelId = 0 then
    { c with
      stats := { c.stats with numPrechargedCycles := c.stats.numPrechargedCycles + 1 } }
  else
    { c with stats := { c.stats with numActiveCycles := c.stats.numActiveCycles + 1 } }

/-- What `tick` does before it schedules: serve the completed requests and let the
refresh manager tick. -/
def prepare (params : Params) (c : AiMDRAMController Cmd) :
    Option (AiMDRAMController Cmd × List (Event Cmd)) :=
  let (c₁, completed) := { c with clk := c.clk + 1 }.serveCompletedReqs
  (c₁.refreshTick iface params).map fun (c₂, refreshed) => (c₂, completed ++ refreshed)

def tick (params : Params) (c : AiMDRAMController Cmd) (dev : Dev) :
    Option (AiMDRAMController Cmd × Dev × List (Event Cmd)) :=
  (c.prepare iface params).bind fun (c₁, prepared) =>
    let found := c₁.scheduleRequest iface params dev
    (found.1.serveScheduled iface dev found.2).map fun (c₂, dev', served) =>
      (c₂.countStandby iface params dev', dev', prepared ++ served)

def nextScheduled (params : Params) (c : AiMDRAMController Cmd) (dev : Dev) :
    Option (AiMDRAMController Cmd × Scheduled Cmd) :=
  (c.prepare iface params).bind fun (c₁, _) =>
    (c₁.scheduleRequest iface params dev).2.map fun s => (c₁, s)

end AiMDRAMController

end

end AimSimulator.Controller
