/-!
# Requests and the AiM instruction table

`struct Request`, the enumerations it uses and the table of AiM instructions
(`AiMISRInfo::init`).  A request is what its producer fills in; the fields that
only a DRAM controller sets (`command`, `final_command`, `arrive`, `issue`,
`depart`) live in `Controller.Queued`, since every `send` overwrites them before
they are read.
-/

namespace AimSimulator

/-- `AddrVec_t`, the device address, indexed by level; `-1` is a wildcard. -/
abbrev AddrVec := List Int

/-- `addr_vec[level]`. -/
def AddrVec.at (addrVec : AddrVec) (level : Nat) : Int := addrVec.getD level (-1)

inductive ReqType
  | Read | Write | RefAllBank | RefSingleBank | AIM | MAX
  deriving DecidableEq, Repr

inductive MemAccessRegion
  | MIN | GPR | CFR | MEM | MAX
  deriving DecidableEq, Repr

inductive Opcode
  | MIN
  | ISR_WR_SBK | ISR_WR_GB | ISR_WR_BIAS | ISR_WR_AFLUT | ISR_RD_MAC | ISR_RD_AF
  | ISR_RD_SBK | ISR_COPY_BKGB | ISR_COPY_GBBK | ISR_MAC_SBK | ISR_MAC_ABK | ISR_AF
  | ISR_EWMUL | ISR_EWADD | ISR_WR_ABK | ISR_EOC | ISR_SYNC
  | MAX
  deriving DecidableEq, Repr

/-- What the `callback` of a request holds: nothing, a function of a front end
(named by a tag), or the private `AiMDRAMSystem::receive`. -/
inductive Callback
  | empty
  | frontEnd (tag : Nat)
  | aimReceive
  deriving DecidableEq, Repr

/-- `struct Request`, without the fields a controller sets. -/
structure Request where
  addr : Int := -1
  data : Int := 0
  addrVec : AddrVec := []
  hostReqId : Int := -1
  aimReqId : Int := -1
  type : ReqType := .MAX
  memAccessRegion : MemAccessRegion := .MAX
  opcode : Opcode := .MAX
  opsize : Int := -1
  gprAddr0 : Int := -1
  gprAddr1 : Int := -1
  channelMask : Int := -1
  bankIndex : Int := -1
  rowAddr : Int := -1
  colAddr : Int := -1
  threadIndex : Int := -1
  broadcast : Int := -1
  afm : Int := -1
  ewmulBg : Int := -1
  sourceId : Int := -1
  typeId : Int := -1
  callback : Callback := .empty
  deriving DecidableEq, Repr

inductive Field
  | opsize | gprAddr0 | gprAddr1 | channelMask | bankIndex | rowAddr | colAddr | threadIndex
  deriving DecidableEq, Repr

/-- `class AiMISR`: one row of the instruction table. -/
structure AiMISR where
  opcode : Opcode
  legalFields : List Field
  channelCountEqOne : Bool
  aimDmaBlocking : Bool
  requireRegRWMod : Bool

def AiMISR.isFieldLegal (isr : AiMISR) (field : Field) : Bool :=
  isr.legalFields.contains field

/-- `AiMISRInfo::convert_AiM_opcode_to_AiM_ISR`; `none` where it throws. -/
def convertOpcodeToISR : Opcode → Option AiMISR
  | .ISR_WR_SBK =>
      some ⟨.ISR_WR_SBK, [.gprAddr0, .channelMask, .bankIndex, .rowAddr], false, false, false⟩
  | .ISR_WR_ABK =>
      some ⟨.ISR_WR_ABK, [.gprAddr0, .channelMask, .rowAddr], true, false, false⟩
  | .ISR_WR_GB => some ⟨.ISR_WR_GB, [.opsize, .gprAddr0, .channelMask], false, false, true⟩
  | .ISR_WR_BIAS => some ⟨.ISR_WR_BIAS, [.gprAddr0, .channelMask], false, false, true⟩
  | .ISR_WR_AFLUT => some ⟨.ISR_WR_AFLUT, [.opsize], false, false, false⟩
  | .ISR_RD_MAC => some ⟨.ISR_RD_MAC, [.gprAddr0, .channelMask], false, true, true⟩
  | .ISR_RD_AF => some ⟨.ISR_RD_AF, [.gprAddr0, .channelMask], false, true, true⟩
  | .ISR_RD_SBK =>
      some ⟨.ISR_RD_SBK, [.gprAddr0, .channelMask, .bankIndex, .rowAddr], false, false, false⟩
  | .ISR_COPY_BKGB =>
      some ⟨.ISR_COPY_BKGB, [.opsize, .channelMask, .bankIndex, .rowAddr], false, false, false⟩
  | .ISR_COPY_GBBK =>
      some ⟨.ISR_COPY_GBBK, [.opsize, .channelMask, .bankIndex, .rowAddr], false, false, false⟩
  | .ISR_MAC_SBK =>
      some ⟨.ISR_MAC_SBK, [.opsize, .channelMask, .bankIndex, .rowAddr], false, false, false⟩
  | .ISR_MAC_ABK => some ⟨.ISR_MAC_ABK, [.opsize, .channelMask, .rowAddr], false, false, false⟩
  | .ISR_AF => some ⟨.ISR_AF, [.channelMask], false, false, false⟩
  | .ISR_EWMUL => some ⟨.ISR_EWMUL, [.opsize, .channelMask, .rowAddr], false, false, false⟩
  | .ISR_EWADD => some ⟨.ISR_EWADD, [.opsize, .gprAddr0, .gprAddr1], false, false, false⟩
  | .ISR_SYNC => some ⟨.ISR_SYNC, [], false, true, false⟩
  | .ISR_EOC => some ⟨.ISR_EOC, [], false, true, false⟩
  | .MIN | .MAX => none

/-- `AiMISRInfo::opcode_requires_reg_RW_mod`; `none` where it throws. -/
def opcodeRequiresRegRWMod (opcode : Opcode) : Option Bool :=
  (convertOpcodeToISR opcode).map (·.requireRegRWMod)

def Opcode.isBarrier (opcode : Opcode) : Bool := opcode == .ISR_EOC || opcode == .ISR_SYNC

def Request.isReader (req : Request) : Bool :=
  req.type == .Read ||
    (req.type == .AIM && (convertOpcodeToISR req.opcode).any (·.aimDmaBlocking))

def Request.isConventional (req : Request) : Bool :=
  req.type == .Read || req.type == .Write

def Request.isAimBarrier (req : Request) : Bool := req.type == .AIM && req.opcode.isBarrier

end AimSimulator
