import AimSimulator.Dram.Node
/-!
# The device interface

`IDRAM` as the controller uses it, and its implementation by a DRAM model: one
node tree per channel, a clock and the open-row mask of each channel.
-/

namespace AimSimulator.Dram

structure DRAMCommandMeta where
  isOpening : Bool := false
  isClosing : Bool := false
  isAccessing : Bool := false
  isRefreshing : Bool := false

/-- `class IDRAM`, over the states `Dev` of a device.  A translation is `none`
where the lookup table has no such index and throws. -/
structure IDRAM (Dev Cmd : Type) where
  commandMeta : Cmd → DRAMCommandMeta
  commandLatencies : Cmd → Int
  requestTranslations : ReqType → Option Cmd
  aimRequestTranslations : Opcode → Option Cmd
  /-- `m_commands("TMOD")` -/
  tmod : Cmd
  /-- `m_levels("row")` -/
  rowLevel : Nat
  /-- `m_levels.size()` -/
  numLevels : Nat
  /-- `get_level_size("rank")` -/
  numRanks : Int
  /-- `m_timing_vals("nREFI")` -/
  nREFI : Int
  tick : Dev → Dev
  issueCommand : Dev → Cmd → AddrVec → Dev
  getPreqCommand : Dev → Cmd → AddrVec → Cmd
  checkReady : Dev → Cmd → AddrVec → Bool
  openRows : Dev → Int → BitVec 16

def bankBit (bankId : Int) : BitVec 16 := if bankId < 0 then 0 else 1#16 <<< bankId.toNat

/-- The state of a device: `m_clk`, `m_channels` and `m_open_rows`. -/
structure Device (Cmd St Ext : Type) (bankLevel : Nat) where
  clk : Int
  channels : List (DRAMNode Cmd St Ext bankLevel)
  openRows : List (BitVec 16)

/-- A DRAM model: its node tree and the rest of what `IDRAM` shows of it. -/
structure DRAMModel (Cmd St Ext : Type) extends DRAMSpec Cmd St Ext where
  commandMeta : Cmd → DRAMCommandMeta
  commandLatencies : Cmd → Int
  requestTranslations : ReqType → Option Cmd
  aimRequestTranslations : Opcode → Option Cmd
  tmod : Cmd
  numRanks : Int
  nREFI : Int
  /-- the `switch` of `issue_command` over the open-row mask of the channel -/
  openRowsAfter : Cmd → AddrVec → BitVec 16 → BitVec 16

namespace DRAMModel

variable {Cmd St Ext : Type} [DecidableEq Cmd] (model : DRAMModel Cmd St Ext)

abbrev Dev := Device Cmd St Ext model.bankLevel

def createNodes (count : Nat → Int) : model.Dev where
  clk := 0
  channels := (List.range (count 0).toNat).map fun i : Nat =>
    model.newNode count model.bankLevel i
  openRows := List.replicate (count 0).toNat 0

/-- `m_channels[addr_vec[m_levels["channel"]]]`. -/
def channelOf (dev : model.Dev) (addrVec : AddrVec) :
    Option (DRAMNode Cmd St Ext model.bankLevel) :=
  if addrVec.at 0 < 0 then none else dev.channels[(addrVec.at 0).toNat]?

def tick (dev : model.Dev) : model.Dev := { dev with clk := dev.clk + 1 }

def issueCommand (dev : model.Dev) (cmd : Cmd) (addrVec : AddrVec) : model.Dev :=
  if addrVec.at 0 < 0 then dev
  else
    { dev with
      channels := dev.channels.modify (addrVec.at 0).toNat fun channel =>
        model.updateStates cmd addrVec dev.clk _
          (model.updateTiming cmd addrVec dev.clk _ channel)
      openRows := dev.openRows.modify (addrVec.at 0).toNat
        (model.openRowsAfter cmd addrVec) }

@[simp] theorem issueCommand_clk (dev : model.Dev) (cmd : Cmd) (addrVec : AddrVec) :
    (model.issueCommand dev cmd addrVec).clk = dev.clk := by
  unfold issueCommand
  split <;> rfl

def getPreqCommand (dev : model.Dev) (cmd : Cmd) (addrVec : AddrVec) : Cmd :=
  match model.channelOf dev addrVec with
  | some channel => model.toDRAMSpec.getPreqCommand cmd addrVec dev.clk _ [] channel
  | none => cmd

def checkReady (dev : model.Dev) (cmd : Cmd) (addrVec : AddrVec) : Bool :=
  match model.channelOf dev addrVec with
  | some channel => model.toDRAMSpec.checkReady cmd addrVec dev.clk _ channel
  | none => false

def idram : IDRAM model.Dev Cmd where
  commandMeta := model.commandMeta
  commandLatencies := model.commandLatencies
  requestTranslations := model.requestTranslations
  aimRequestTranslations := model.aimRequestTranslations
  tmod := model.tmod
  rowLevel := model.bankLevel + 1
  numLevels := model.bankLevel + 3
  numRanks := model.numRanks
  nREFI := model.nREFI
  tick := model.tick
  issueCommand := model.issueCommand
  getPreqCommand := model.getPreqCommand
  checkReady := model.checkReady
  openRows := fun dev channel => dev.openRows.getD channel.toNat 0

end DRAMModel

end AimSimulator.Dram
