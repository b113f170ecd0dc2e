import AimSimulator.Base.Request
import Mathlib.Algebra.Group.Nat.Defs
import Mathlib.Algebra.Group.Int.Defs
/-!
# The AiM DMA

`memory_system/impl/aim_DRAM_system.cpp`: the queue of host requests, their decoding into
one copy for each channel and column, the retry queue of each channel, and the callback
of the blocking copies.  The controllers are a state `C` for each channel with a `send`
that accepts or refuses; a call that throws, exits or leaves an array returns `none`.
Assertions are off, as in the release build the project configures.
-/

namespace AimSimulator.Dma

def isrSize : Nat := 2 ^ 21

def maxChannelCount : Nat := 32

inductive CFR
  | BROADCAST | EWMUL_BG | AFM
  deriving DecidableEq, Repr

def addressToCFR : Int → Option CFR
  | 0 => some .BROADCAST
  | 1 => some .EWMUL_BG
  | 2 => some .AFM
  | _ => none

/-- The number of controllers and the organisation of the device. -/
structure SystemParams where
  numControllers : Nat
  hasRank : Bool
  /-- `get_level_size("bankgroup")` -/
  numBankgroups : Int
  /-- `get_level_size("bank")` -/
  banksPerBankgroup : Int

namespace SystemParams

variable (p : SystemParams)

/-- `m_levels("bankgroup")`. -/
def bankgroupLevel : Nat := if p.hasRank then 2 else 1

def numLevels : Nat := p.bankgroupLevel + 4

end SystemParams

/-! ## Channels and addresses -/

def channelBit (i : Nat) : BitVec 32 := 1#32 <<< i

/-- `CountSetBit`; the `int` is widened with its sign to meet the mask. -/
def countSetBit (chMask : BitVec 64) : Nat :=
  (List.range maxChannelCount).countP fun i => chMask &&& (channelBit i).signExtend 64 != 0

/-- `FindFirstChannelIndex`: the channel and the mask it leaves. -/
def findFirstChannelIndex (chMask : BitVec 64) : Nat × BitVec 64 :=
  let chMaskU := chMask.setWidth 32
  match (List.range maxChannelCount).find? fun i => chMaskU &&& channelBit i != 0 with
  | some i => (maxChannelCount - 1 - i, (chMaskU &&& ~~~ channelBit i).setWidth 64)
  | none => (0, chMask)

def firstChannels : Nat → BitVec 64 → List Nat
  | 0, _ => []
  | count + 1, chMask =>
      (findFirstChannelIndex chMask).1 :: firstChannels count (findFirstChannelIndex chMask).2

/-- The channels the inner loop of the decoder visits for a mask. -/
def channelsOf (chMask : BitVec 64) : List Nat := firstChannels (countSetBit chMask) chMask

/-- `addr_vec.resize(n, -1)`. -/
def resize (addrVec : AddrVec) (n : Nat) : AddrVec :=
  addrVec.take n ++ List.replicate (n - addrVec.length) (-1)

def applyAddrMapp (p : SystemParams) (req : Request) (channelId : Int) : Option Request :=
  if channelId < 0 ∨ channelId ≥ maxChannelCount then none
  else
    let addrVec := (resize req.addrVec p.numLevels).set 0 channelId
    let addrVec := if p.hasRank then addrVec.set 1 0 else addrVec
    let level := p.bankgroupLevel
    let place := fun bankgroup bank : Int =>
      some { req with
        addrVec := (((addrVec.set level bankgroup).set (level + 1) bank).set (level + 2)
          req.rowAddr).set (level + 3) req.colAddr }
    if req.bankIndex = -1 then place (-1) (-1)
    else if p.numBankgroups ≤ 0 ∨ p.banksPerBankgroup ≤ 0 then none
    else if req.bankIndex < 0 ∨ req.bankIndex ≥ p.numBankgroups * p.banksPerBankgroup then none
    else
      place (req.bankIndex.tdiv p.banksPerBankgroup) (req.bankIndex.tmod p.banksPerBankgroup)

/-! ## The state -/

structure AiMDRAMSystem where
  clk : Int := 0
  requestQueue : List Request := []
  /-- `remaining_AiM_requests` -/
  remaining : Nat → List Request := fun _ => []
  aimReqId : Int := 0
  stalledAiMRequests : Int := 0
  cfrValues : CFR → Int := fun
    | .BROADCAST => 0
    | .EWMUL_BG => 1
    | .AFM => 0
  numISRQueueFull : Nat := 0
  numRWRequests : ReqType → MemAccessRegion → Nat := fun _ _ => 0
  numAiMRequests : Opcode → Nat := fun _ => 0

inductive HostEvent
  | enqueue (host : Request)
  | decode (host : Request)
  | copy (channel : Nat) (req : Request) (accepted : Bool)
  | callback (host arg : Request)
  | remove (host : Request)

/-- The DMA with its controllers, the accepted copies that will call it back, and the
events so far. -/
structure System (C : Type) where
  dma : AiMDRAMSystem := {}
  controllers : Nat → C
  inFlight : List Request := []
  log : List HostEvent := []

/-! ## Decoding -/

/-- A host request as its copies: the request `host_req` that is handed to the callback,
whether the copies block, and where each copy goes. -/
structure Decoded where
  arg : Request
  blocking : Bool := false
  copies : List (Nat × Request) := []
  cfrValues : CFR → Int

def toInt16 (x : Int) : Int := (BitVec.ofInt 16 x).toInt

def toInt32 (x : Int) : Int := (BitVec.ofInt 32 x).toInt

/-- The copy `aim_req` at its construction. -/
def convertSingleBank (host : Request) : Request :=
  match host.opcode with
  | .ISR_RD_SBK => { host with type := .Read, memAccessRegion := .MEM, opcode := .MIN }
  | .ISR_WR_SBK => { host with type := .Write, memAccessRegion := .MEM, opcode := .MIN }
  | _ => host

/-- The copy `aim_req` of an unrolled instruction before its loops. -/
def unrolledRequest (cfrValues : CFR → Int) (host : Request) (isr : AiMISR) : Request :=
  let req := convertSingleBank host
  let req := if isr.aimDmaBlocking then { req with callback := .aimReceive } else req
  let req :=
    if host.opcode = .ISR_AF then
      { req with
        afm := toInt16 (cfrValues .AFM)
        rowAddr := 2 ^ 29 + toInt16 (cfrValues .AFM) }
    else req
  let req :=
    if host.opcode = .ISR_MAC_ABK ∨ host.opcode = .ISR_MAC_SBK then
      { req with broadcast := toInt16 (cfrValues .BROADCAST) }
    else req
  let req :=
    if host.opcode = .ISR_MAC_ABK then { req with ewmulBg := toInt16 (cfrValues .EWMUL_BG) }
    else req
  let req := if isr.isFieldLegal .bankIndex then { req with bankIndex := host.bankIndex } else req
  if isr.isFieldLegal .rowAddr then { req with rowAddr := host.rowAddr } else req

def columnsOf (host : Request) : List Int :=
  (List.range (if host.opsize = -1 then 1 else host.opsize.toNat)).map fun i : Nat =>
    (if host.colAddr = -1 then 0 else host.colAddr) + i

/-- The opcodes whose instructions are unrolled over columns and channels. -/
def isUnrolled : Opcode → Bool
  | .ISR_WR_SBK | .ISR_WR_GB | .ISR_WR_BIAS | .ISR_RD_MAC | .ISR_RD_AF | .ISR_RD_SBK
  | .ISR_COPY_BKGB | .ISR_COPY_GBBK | .ISR_MAC_SBK | .ISR_MAC_ABK | .ISR_AF | .ISR_EWMUL
  | .ISR_WR_ABK => true
  | _ => false

def unroll (p : SystemParams) (host req : Request) : Option (List (Nat × Request)) :=
  ((columnsOf host).flatMap fun col =>
    (channelsOf (BitVec.ofInt 64 host.channelMask)).map fun channel => (channel, col)).mapM
      fun (channel, col) =>
        (applyAddrMapp p { req with colAddr := col } channel).map fun copy => (channel, copy)

/-- The branch of the decoder for `Type::AIM`; `none` where it throws or exits. -/
def decodeAiM (p : SystemParams) (cfrValues : CFR → Int) (host : Request) : Option Decoded :=
  if isUnrolled host.opcode then
    (convertOpcodeToISR host.opcode).bind fun isr =>
      if isr.channelCountEqOne ∧ countSetBit (BitVec.ofInt 64 host.channelMask) ≠ 1 then none
      else
        (unroll p host (unrolledRequest cfrValues host isr)).map fun copies =>
          { arg := { host with colAddr := if host.colAddr = -1 then 0 else host.colAddr }
            blocking := isr.aimDmaBlocking
            copies
            cfrValues }
  else
    match host.opcode with
    | .ISR_WR_AFLUT => none
    | .ISR_SYNC | .ISR_EOC =>
        some
          { arg := host
            blocking := true
            copies := (List.range p.numControllers).map fun channel =>
              (channel, { host with callback := .aimReceive })
            cfrValues }
    | _ => some { arg := host, cfrValues }

/-- The branch of the decoder for `MemAccessRegion::MEM`: one copy, for the channel that
`channel_mask` names. -/
def decodeMem (p : SystemParams) (cfrValues : CFR → Int) (host : Request) : Option Decoded :=
  (applyAddrMapp p host (toInt32 host.channelMask)).map fun copy =>
    { arg := host, copies := [((copy.addrVec.at 0).toNat, copy)], cfrValues }

/-- The decoder of `tick`; `none` where it throws or exits. -/
def decode (p : SystemParams) (cfrValues : CFR → Int) (host : Request) : Option Decoded :=
  match host.type, host.memAccessRegion with
  | .AIM, _ => decodeAiM p cfrValues host
  | .Read, .CFR => some { arg := host, cfrValues }
  | .Read, .GPR => some { arg := host, cfrValues }
  | .Read, .MEM => decodeMem p cfrValues host
  | .Write, .CFR =>
      (addressToCFR host.addr).map fun cfr =>
        { arg := host, cfrValues := fun c => if c = cfr then host.data else cfrValues c }
  | .Write, .GPR => some { arg := host, cfrValues }
  | .Write, .MEM => decodeMem p cfrValues host
  | _, _ => none

/-! ## Delivery -/

section

variable {C : Type} (p : SystemParams) (send : Request → C → Option (Bool × C))

namespace System

/-- `m_controllers[channel]->send`; `none` where there is no such controller. -/
def deliver (channel : Nat) (copy : Request) (s : System C) : Option (Bool × System C) :=
  if channel < p.numControllers then
    (send copy (s.controllers channel)).map fun (ok, c) =>
      (ok, { s with
        controllers := fun i => if i = channel then c else s.controllers i
        inFlight := if ok && copy.callback == .aimReceive then s.inFlight ++ [copy]
          else s.inFlight
        log := s.log ++ [.copy channel copy ok] })
  else none

def setRemaining (channel : Nat) (queue : List Request) (s : System C) : System C :=
  { s with dma.remaining := fun i => if i = channel then queue else s.dma.remaining i }

def retryQueue (channel : Nat) : List Request → System C → Option (System C)
  | [], s => some s
  | copy :: queue, s =>
      (s.deliver p send channel copy).bind fun (ok, s') =>
        if ok then retryQueue channel queue (s'.setRemaining channel queue) else some s'

/-- The `for` loop over the retry queues, with its two flags. -/
def retryChannels : List Nat → System C → Option (Bool × Bool × System C)
  | [], s => some (false, false, s)
  | channel :: channels, s =>
      (s.retryQueue p send channel (s.dma.remaining channel)).bind fun s' =>
        (retryChannels channels s').map fun (was, isLeft, s'') =>
          (!(s.dma.remaining channel).isEmpty || was,
            !(s'.dma.remaining channel).isEmpty || isLeft, s'')

def sendCopy (blocking : Bool) (channel : Nat) (copy : Request) (s : System C) :
    Option (Bool × System C) :=
  let copy := { copy with aimReqId := s.dma.aimReqId }
  (s.deliver p send channel copy).bind fun (ok, s') =>
    let s' := { s' with
      dma.aimReqId := s.dma.aimReqId + 1
      dma.stalledAiMRequests :=
        s.dma.stalledAiMRequests + if blocking then 1 else 0 }
    if ok then some (true, s')
    else if channel < maxChannelCount then
      some (false, s'.setRemaining channel (s'.dma.remaining channel ++ [copy]))
    else none

/-- Send the copies of a host request; the flag is `all_AiM_requests_sent`. -/
def sendCopies (blocking : Bool) : List (Nat × Request) → System C → Option (Bool × System C)
  | [], s => some (true, s)
  | (channel, copy) :: copies, s =>
      (s.sendCopy p send blocking channel copy).bind fun (ok, s') =>
        (sendCopies blocking copies s').map fun (oks, s'') => (ok && oks, s'')

def popHead (arg : Request → Request) (s : System C) : Option (System C) :=
  match s.dma.requestQueue with
  | [] => none
  | host :: queue =>
      some { s with
        dma.requestQueue := queue
        log := s.log ++ (if host.callback = .empty then [] else [.callback host (arg host)]) ++
          [.remove host] }

def decodeHead (host : Request) (s : System C) : Option (System C) :=
  (decode p s.dma.cfrValues host).bind fun d =>
    (sendCopies p send d.blocking d.copies
      { s with dma.cfrValues := d.cfrValues, log := s.log ++ [.decode host] }).bind
        fun (allSent, s') =>
          if s'.dma.stalledAiMRequests = 0 ∧ allSent then s'.popHead fun _ => d.arg else some s'

def tick (s : System C) : Option (System C) :=
  (s.retryChannels p send (List.range maxChannelCount)).bind fun (was, isLeft, s') =>
    (if s'.dma.stalledAiMRequests = 0 then
      if was then if isLeft then some s' else s'.popHead id
      else
        match s'.dma.requestQueue with
        | [] => some s'
        | host :: _ => s'.decodeHead p send host
    else some s').map fun t => { t with dma.clk := t.dma.clk + 1 }

end System

end

namespace System

variable {C : Type}

def send (req : Request) (s : System C) : Option (Bool × System C) :=
  if s.dma.requestQueue.length = isrSize then
    some (false, { s with dma.numISRQueueFull := s.dma.numISRQueueFull + 1 })
  else
    let s' := { s with
      dma.requestQueue := s.dma.requestQueue ++ [req]
      log := s.log ++ [HostEvent.enqueue req] }
    match req.type with
    | .AIM =>
        some (true, { s' with
          dma.numAiMRequests := fun op =>
            if op = req.opcode then s.dma.numAiMRequests op + 1 else s.dma.numAiMRequests op })
    | .Read | .Write =>
        some (true, { s' with
          dma.numRWRequests := fun type region =>
            if type = req.type ∧ region = req.memAccessRegion then
              s.dma.numRWRequests type region + 1
            else s.dma.numRWRequests type region })
    | _ => none

/-- `receive`, the callback of a blocking copy; `none` where it throws or the queue is
empty. -/
def receive (req : Request) (s : System C) : Option (System C) :=
  match s.dma.requestQueue with
  | [] => none
  | host :: _ =>
      if req.hostReqId ≠ host.hostReqId then none
      else
        let s' := { s with dma.stalledAiMRequests := s.dma.stalledAiMRequests - 1 }
        if s'.dma.stalledAiMRequests = 0 then s'.popHead id else some s'

end System

end AimSimulator.Dma
