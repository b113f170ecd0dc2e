import AimSimulator.Dram.Node
/-!
# Actions and prerequisites shared by the models

The templates of `dram/lambdas`.  A template reads the states and the commands
it needs from its model by name; here they are arguments.  `rowLevel` is
`m_levels["row"]`.
-/

namespace AimSimulator.Dram

variable {Cmd St Ext : Type}

/-- Opening a bank with a row: its state and the entry of the row. -/
def NodeBase.openRow (opened : St) (row : Int) (b : NodeBase Cmd St Ext) :
    NodeBase Cmd St Ext :=
  { b with state := opened }.setRow row opened

def NodeBase.close (closed : St) (b : NodeBase Cmd St Ext) : NodeBase Cmd St Ext :=
  { b with state := closed, rowState := [] }

namespace Action

/-- `Action::Bank::ACT`.  Its assertions are compiled out of a release build. -/
def Bank.ACT (rowLevel : Nat) (opened : St) : ActionFunc Cmd St Ext 0 :=
  fun node addrVec _ => .bank (node.base.openRow opened (addrVec.at rowLevel))

def Bank.PRE (closed : St) : ActionFunc Cmd St Ext 0 :=
  fun node _ _ => .bank (node.base.close closed)

/-- The loop of the multi-bank activations over all banks below a node. -/
def openBanks (rowLevel : Nat) (opened : St) {d : Nat} : ActionFunc Cmd St Ext d :=
  fun node addrVec _ => node.mapBanks (NodeBase.openRow opened (addrVec.at rowLevel)) d

/-- The loop of the multi-bank precharges over all banks below a node. -/
def closeBanks (closed : St) {d : Nat} : ActionFunc Cmd St Ext d :=
  fun node _ _ => node.mapBanks (NodeBase.close closed) d

def BankGroup.ACT4b (rowLevel : Nat) (opened : St) : ActionFunc Cmd St Ext 1 :=
  openBanks rowLevel opened

def BankGroup.PRE4b (closed : St) : ActionFunc Cmd St Ext 1 := closeBanks closed

def Rank.PREab (closed : St) : ActionFunc Cmd St Ext 2 := closeBanks closed

def Channel.ACTab (rowLevel : Nat) (opened : St) {d : Nat} : ActionFunc Cmd St Ext d :=
  openBanks rowLevel opened

def Channel.PREab (closed : St) {d : Nat} : ActionFunc Cmd St Ext d := closeBanks closed

end Action

namespace Preq

variable [DecidableEq St]

/-- `Preq::Bank::RequireRowOpen`.  In any other state the source exits. -/
def Bank.RequireRowOpen (rowLevel : Nat) (closed opened : St) (act pre cmd : Cmd) :
    PreqFunc Cmd St Ext 0 :=
  fun _ node addrVec _ =>
    if node.base.state = closed then some act
    else if node.base.state = opened then
      if node.base.hasRow (addrVec.at rowLevel) then some cmd else some pre
    else some cmd

/-- `Preq::Bank::RequireBankClosed`.  In any other state the source exits. -/
def Bank.RequireBankClosed (closed opened : St) (pre cmd : Cmd) : PreqFunc Cmd St Ext 0 :=
  fun _ node _ _ =>
    if node.base.state = closed then some cmd
    else if node.base.state = opened then some pre
    else some cmd

/-- `Preq::Rank::RequireAllBanksClosed` and `Preq::Channel::RequireAllBanksClosed`. -/
def RequireAllBanksClosed (closed : St) (prea cmd : Cmd) {d : Nat} : PreqFunc Cmd St Ext d :=
  fun _ node _ _ =>
    if (node.banks d).all fun bank => bank.state = closed then some cmd else some prea

/-- `Preq::Channel::RequireAllRowsOpen`.  The loop over the banks returns at the
first bank that is opened with another row. -/
def Channel.RequireAllRowsOpen (rowLevel : Nat) (closed : St) (prea actAll cmd : Cmd) {d : Nat} :
    PreqFunc Cmd St Ext d :=
  fun _ node addrVec _ =>
    if (node.banks d).any fun bank =>
        bank.state ≠ closed && !bank.hasRow (addrVec.at rowLevel) then some prea
    else if (node.banks d).any fun bank => bank.state = closed then some actAll
    else some cmd

end Preq

end AimSimulator.Dram
