import AimSimulator.Base.Request
/-!
# The DRAM device tree

`DRAMNodeBase` of `dram/node.h` and the timing table of `dram/spec.h`, generic
in the model.  A node of depth `d` stands `d` levels above the banks: `m_level`
is `bankLevel - d`, and the lambdas of a model are indexed by depth, with depth
`0` for `m_levels["bank"]`.
-/

namespace AimSimulator.Dram

/-- `Organization`: density in Mb, DQ width and the size of each level. -/
structure Organization where
  density : Int
  dq : Int
  count : List Int

/-- `count[level]`. -/
def Organization.countAt (org : Organization) (level : Nat) : Int := org.count.getD level (-1)

structure TimingConsEntry (Cmd : Type) where
  cmd : Cmd
  val : Int
  window : Nat := 1
  sibling : Bool := false

/-- `TimingConsInitializer`; the latency is an expression over `m_timing_vals`. -/
structure TimingConsInitializer (Cmd Timing : Type) where
  level : Nat
  preceding : List Cmd
  following : List Cmd
  latency : (Timing → Int) → Int
  window : Nat := 1
  isSibling : Bool := false

/-- `populate_timingcons`: the entries pushed to `m_timing_cons[level][p_cmd]`,
in the order of the initializer. -/
def populateTimingcons {Cmd Timing : Type} [DecidableEq Cmd] (V : Timing → Int)
    (initializer : List (TimingConsInitializer Cmd Timing)) (level : Nat) (pCmd : Cmd) :
    List (TimingConsEntry Cmd) :=
  initializer.flatMap fun ts =>
    if ts.level = level then
      ts.preceding.flatMap fun p =>
        if p = pCmd then
          ts.following.map fun f => ⟨f, ts.latency V, ts.window, ts.isSibling⟩
        else []
    else []

structure NodeBase (Cmd St Ext : Type) where
  nodeId : Int
  state : St
  cmdReadyClk : Cmd → Int
  cmdHistory : Cmd → List Int
  rowState : List (Int × St)
  ext : Ext

/-- `m_row_state[row] = state`. -/
def NodeBase.setRow {Cmd St Ext : Type} (b : NodeBase Cmd St Ext) (row : Int) (state : St) :
    NodeBase Cmd St Ext :=
  { b with rowState := (row, state) :: b.rowState.filter fun e => e.1 != row }

/-- `m_row_state.find(row) != m_row_state.end()`. -/
def NodeBase.hasRow {Cmd St Ext : Type} (b : NodeBase Cmd St Ext) (row : Int) : Bool :=
  b.rowState.any fun e => e.1 == row

structure NodeOf (Cmd St Ext Child : Type) where
  base : NodeBase Cmd St Ext
  children : List Child

/-- The subtree below a node that stands `d` levels above the banks. -/
def DRAMNode (Cmd St Ext : Type) : Nat → Type
  | 0 => NodeBase Cmd St Ext
  | d + 1 => NodeOf Cmd St Ext (DRAMNode Cmd St Ext d)

variable {Cmd St Ext : Type}

namespace DRAMNode

def bank (base : NodeBase Cmd St Ext) : DRAMNode Cmd St Ext 0 := base

def node {d : Nat} (base : NodeBase Cmd St Ext) (children : List (DRAMNode Cmd St Ext d)) :
    DRAMNode Cmd St Ext (d + 1) :=
  NodeOf.mk base children

def base : {d : Nat} → DRAMNode Cmd St Ext d → NodeBase Cmd St Ext
  | 0, n => n
  | _ + 1, n => NodeOf.base n

/-- `m_child_nodes`. -/
def children {d : Nat} (n : DRAMNode Cmd St Ext (d + 1)) : List (DRAMNode Cmd St Ext d) :=
  NodeOf.children n

@[simp] theorem base_node {d : Nat} (b : NodeBase Cmd St Ext)
    (cs : List (DRAMNode Cmd St Ext d)) : (node b cs).base = b := rfl

@[simp] theorem children_node {d : Nat} (b : NodeBase Cmd St Ext)
    (cs : List (DRAMNode Cmd St Ext d)) : (node b cs).children = cs := rfl

@[simp] theorem base_bank (b : NodeBase Cmd St Ext) : (bank b).base = b := rfl

/-- The banks below a node, in the order of the nested loops over `m_child_nodes`. -/
def banks : (d : Nat) → DRAMNode Cmd St Ext d → List (NodeBase Cmd St Ext)
  | 0, n => [n.base]
  | d + 1, n => n.children.flatMap (banks d)

def mapBanks (f : NodeBase Cmd St Ext → NodeBase Cmd St Ext) :
    (d : Nat) → DRAMNode Cmd St Ext d → DRAMNode Cmd St Ext d
  | 0, n => bank (f n.base)
  | d + 1, n => node n.base (n.children.map (mapBanks f d))

end DRAMNode

/-- `ActionFunc_t`: what issuing a command does to the subtree it is registered at. -/
abbrev ActionFunc (Cmd St Ext : Type) (d : Nat) :=
  DRAMNode Cmd St Ext d → AddrVec → Int → DRAMNode Cmd St Ext d

/-- `PreqFunc_t`: the prerequisite of a command; `none` is the return value `-1`.
The first argument lists the ancestors, nearest first (`m_parent_node`). -/
abbrev PreqFunc (Cmd St Ext : Type) (d : Nat) :=
  List (NodeBase Cmd St Ext) → DRAMNode Cmd St Ext d → AddrVec → Int → Option Cmd

/-- What a DRAM model `T` provides to its node tree. -/
structure DRAMSpec (Cmd St Ext : Type) where
  /-- the id of a command: its position in `m_commands` -/
  commandId : Cmd → Nat
  /-- the command of id `1`, which `get_preq_command` returns as `true` -/
  commandOne : Cmd
  commandScopes : Cmd → Nat
  /-- `m_levels["bank"]`; a channel is a node of this depth -/
  bankLevel : Nat
  timingCons : Nat → Cmd → List (TimingConsEntry Cmd)
  initStates : Nat → St
  initExt : Ext
  actions : (d : Nat) → Cmd → Option (ActionFunc Cmd St Ext d)
  preqs : (d : Nat) → Cmd → Option (PreqFunc Cmd St Ext d)

namespace DRAMSpec

variable [DecidableEq Cmd] (spec : DRAMSpec Cmd St Ext)

/-- How many issues of `cmd` the history of a node at `level` keeps. -/
def historyWindow (level : Nat) (cmd : Cmd) : Nat :=
  (spec.timingCons level cmd).foldl (fun window t => max window t.window) 0

def level (d : Nat) : Nat := spec.bankLevel - d

def newBase (level : Nat) (id : Int) : NodeBase Cmd St Ext where
  nodeId := id
  state := spec.initStates level
  cmdReadyClk := fun _ => -1
  cmdHistory := fun cmd => List.replicate (spec.historyWindow level cmd) (-1)
  rowState := []
  ext := spec.initExt

/-- The constructor of `DRAMNodeBase`: a node with all levels below it;
`count` is `m_organization.count`. -/
def newNode (count : Nat → Int) : (d : Nat) → Int → DRAMNode Cmd St Ext d
  | 0, id => .bank (spec.newBase (spec.level 0) id)
  | d + 1, id =>
      .node (spec.newBase (spec.level (d + 1)) id)
        ((List.range (count (spec.level d)).toNat).map fun i : Nat => newNode count d i)

/-- The action registered for a command at the level of a node, if any. -/
def runAction {d : Nat} (cmd : Cmd) (addrVec : AddrVec) (clk : Int)
    (n : DRAMNode Cmd St Ext d) : DRAMNode Cmd St Ext d :=
  match spec.actions d cmd with
  | some action => action n addrVec clk
  | none => n

def updateStates (cmd : Cmd) (addrVec : AddrVec) (clk : Int) :
    (d : Nat) → DRAMNode Cmd St Ext d → DRAMNode Cmd St Ext d
  | 0, n => spec.runAction cmd addrVec clk n
  | d + 1, n =>
      let m := spec.runAction cmd addrVec clk n
      if spec.level (d + 1) = spec.commandScopes cmd then m
      else
        let childId := addrVec.at (spec.level d)
        if childId < 0 then m
        else
          .node m.base (m.children.modify childId.toNat (updateStates cmd addrVec clk d))

/-- `m_cmd_ready_clk[t.cmd] = max(m_cmd_ready_clk[t.cmd], future)`. -/
def raiseReady (ready : Cmd → Int) (cmd : Cmd) (future : Int) : Cmd → Int :=
  fun c => if c = cmd then max (ready c) future else ready c

def updateSibling (level : Nat) (cmd : Cmd) (clk : Int) (b : NodeBase Cmd St Ext) :
    NodeBase Cmd St Ext :=
  { b with
    cmdReadyClk := (spec.timingCons level cmd).foldl
      (fun ready t => if t.sibling then raiseReady ready t.cmd (clk + t.val) else ready)
      b.cmdReadyClk }

/-- `m_cmd_history[cmd].pop_back(); push_front(clk)`, when a history is kept. -/
def pushHistory (history : Cmd → List Int) (cmd : Cmd) (clk : Int) : Cmd → List Int :=
  fun c => if c = cmd ∧ history c ≠ [] then clk :: (history c).dropLast else history c

def updateTarget (level : Nat) (cmd : Cmd) (clk : Int) (b : NodeBase Cmd St Ext) :
    NodeBase Cmd St Ext :=
  let history := pushHistory b.cmdHistory cmd clk
  { b with
    cmdHistory := history
    cmdReadyClk := (spec.timingCons level cmd).foldl
      (fun ready t =>
        if t.sibling then ready
        else
          let past := (history cmd).getD (t.window - 1) (-1)
          if past < 0 then ready else raiseReady ready t.cmd (past + t.val))
      b.cmdReadyClk }

def updateTiming (cmd : Cmd) (addrVec : AddrVec) (clk : Int) :
    (d : Nat) → DRAMNode Cmd St Ext d → DRAMNode Cmd St Ext d
  | 0, n =>
      if n.base.nodeId ≠ addrVec.at (spec.level 0) then
        .bank (spec.updateSibling (spec.level 0) cmd clk n.base)
      else .bank (spec.updateTarget (spec.level 0) cmd clk n.base)
  | d + 1, n =>
      if n.base.nodeId ≠ addrVec.at (spec.level (d + 1)) then
        .node (spec.updateSibling (spec.level (d + 1)) cmd clk n.base) n.children
      else
        .node (spec.updateTarget (spec.level (d + 1)) cmd clk n.base)
          (n.children.map (updateTiming cmd addrVec clk d))

/-- The prerequisite registered for a command at the level of a node, if any. -/
def ownPreq {d : Nat} (up : List (NodeBase Cmd St Ext)) (cmd : Cmd) (addrVec : AddrVec)
    (clk : Int) (n : DRAMNode Cmd St Ext d) : Option Cmd :=
  match spec.preqs d cmd with
  | some preq => preq up n addrVec clk
  | none => none

/-- `get_preq_command`.  Where the walk ends at a node without children the
source returns `true`, which its callers read as the command of id `1`.  An
address beyond the children fails an assertion of the source; the walk then
stops with the command itself. -/
def getPreqCommand (cmd : Cmd) (addrVec : AddrVec) (clk : Int) :
    (d : Nat) → List (NodeBase Cmd St Ext) → DRAMNode Cmd St Ext d → Cmd
  | 0, up, n => (spec.ownPreq up cmd addrVec clk n).getD spec.commandOne
  | d + 1, up, n =>
      match spec.ownPreq up cmd addrVec clk n with
      | some preq => preq
      | none =>
          if n.children.isEmpty then spec.commandOne
          else
            let childId := addrVec.at (spec.level d)
            if childId < 0 then cmd
            else
              match n.children[childId.toNat]? with
              | some child => getPreqCommand cmd addrVec clk d (n.base :: up) child
              | none => cmd

/-- The test of `check_ready` at one node. -/
def readyAt (cmd : Cmd) (clk : Int) (b : NodeBase Cmd St Ext) : Bool :=
  !(b.cmdReadyClk cmd != -1 && decide (clk < b.cmdReadyClk cmd))

/-- `check_ready`.  At a wildcard the source returns the command id as a `bool`.
An address beyond the children fails an assertion of the source: not ready. -/
def checkReady (cmd : Cmd) (addrVec : AddrVec) (clk : Int) :
    (d : Nat) → DRAMNode Cmd St Ext d → Bool
  | 0, n => readyAt cmd clk n.base
  | d + 1, n =>
      readyAt cmd clk n.base &&
        (decide (spec.level (d + 1) = spec.commandScopes cmd) || n.children.isEmpty ||
          let childId := addrVec.at (spec.level d)
          if childId < 0 then spec.commandId cmd != 0
          else
            match n.children[childId.toNat]? with
            | some child => checkReady cmd addrVec clk d child
            | none => false)

end DRAMSpec

end AimSimulator.Dram
