import AimSimulator.Lib.Runs
import Mathlib.Algebra.Group.Nat.Defs
/-!
# The activity cycles of recorded command traces

`parse_command_trace` of `scripts/aim_analysis/ramulator.py` and
`trace_based_activity_cycles` of `scripts/cellar_power_calculator.py`.  A trace file is the
list of the entries on its lines, and an exception is its message.  The totals are whole
numbers of cycles.
-/

namespace AimSimulator.Analysis

structure CommandEvent where
  clock : Int
  command : String
  address : List Int
  deriving DecidableEq, Repr

def parseCommandTrace (path : String) (events : List CommandEvent) :
    Except String (List CommandEvent) :=
  if events = [] then .error s!"No issued commands found in {path}" else .ok events

/-- The activities whose cycles are totalled beside the standby cycles. -/
inductive Activity
  | ACT | PRE | RD | WR | PIM
  deriving DecidableEq, Repr

structure Totals where
  actStbyCycles : Int := 0
  preStbyCycles : Int := 0
  cycles : Activity → Int := fun _ => 0

/-- `totals[f"{activity}_cycles"] += cycles`. -/
def Totals.add (totals : Totals) (activity : Activity) (cycles : Int) : Totals :=
  { totals with
    cycles := fun a => if a = activity then totals.cycles a + cycles else totals.cycles a }

@[simp] theorem Totals.cycles_add (totals : Totals) (activity : Activity) (cycles : Int)
    (a : Activity) :
    (totals.add activity cycles).cycles a =
      if a = activity then totals.cycles a + cycles else totals.cycles a := rfl

structure TraceSpec where
  tracePrefix : String
  dramImpl : String
  nRAS : Int
  nRC : Int

def andNot (a b : Nat) : Nat := a ^^^ (a &&& b)

@[simp] theorem testBit_andNot (a b i : Nat) :
    (andNot a b).testBit i = (a.testBit i && !b.testBit i) := by
  rw [andNot, Nat.testBit_xor, Nat.testBit_and]
  cases a.testBit i <;> simp

structure Replay where
  totals : Totals
  openBanks : Nat := 0
  previousClock : Int := 0
  previousActivities : List (Activity × Int) := []

namespace TraceSpec

variable (spec : TraceSpec)

def allBankCount : Nat := if spec.dramImpl = "GDDR6" then 16 else 8

def bankgroupIndex : Nat := if spec.dramImpl = "GDDR6" then 1 else 2

def bankIndex : Nat := if spec.dramImpl = "GDDR6" then 2 else 3

def useIdd0Split : Bool := spec.dramImpl = "LPDDR4" || spec.dramImpl = "LPDDR4X"

def dynamicCycles : Activity → Int
  | .ACT => spec.nRAS
  | .PRE => spec.nRC - spec.nRAS
  | _ => 0

def allBankMask : Nat := 2 ^ spec.allBankCount - 1

def accountInterval (totals : Totals) (cycles : Int) (openBanks : Nat)
    (previousActivities : List (Activity × Int)) : Except String Totals :=
  if cycles < 0 then .error s!"Command trace is not monotonic: {spec.tracePrefix}"
  else
    let totals :=
      if openBanks ≠ 0 then { totals with actStbyCycles := totals.actStbyCycles + cycles }
      else { totals with preStbyCycles := totals.preStbyCycles + cycles }
    .ok (previousActivities.foldl (fun totals (activity, scale) =>
      totals.add activity (scale * cycles)) totals)

def maskForBank (address : List Int) : Except String Nat :=
  match address[spec.bankIndex]? with
  | none => .error "tuple index out of range"
  | some bank =>
      if 0 ≤ bank ∧ bank < spec.allBankCount then .ok (1 <<< bank.toNat)
      else .error s!"Invalid bank {bank} in TraceRecorder entry for {spec.tracePrefix}"

def maskForBankgroup (address : List Int) : Except String Nat :=
  match address[spec.bankgroupIndex]? with
  | none => .error "tuple index out of range"
  | some bankgroup =>
      if bankgroup < 0 ∨ bankgroup * 4 + 4 > spec.allBankCount then
        .error s!"Invalid bank group {bankgroup} in TraceRecorder entry for {spec.tracePrefix}"
      else .ok (((1 <<< 4) - 1) <<< (bankgroup * 4).toNat)

/-- The dynamic cycles of an activation or a precharge of `banks` banks: a fixed window each
under the split, and otherwise the interval up to the next event. -/
def charge (activity : Activity) (banks : Int) (r : Replay) : Replay :=
  if spec.useIdd0Split then
    { r with totals := r.totals.add activity (banks * spec.dynamicCycles activity) }
  else { r with previousActivities := r.previousActivities ++ [(activity, banks)] }

/-- The first chain of branches in the loop: the commands that open and close banks. -/
def openAndClose (r : Replay) (command : String) (address : List Int) : Except String Replay :=
  if command = "ACT16" ∨ command = "ACT8-2" then
    .ok (spec.charge .ACT spec.allBankCount { r with openBanks := spec.allBankMask })
  else if command = "ACT4" ∨ command = "ACT4-2" then
    (spec.maskForBankgroup address).map fun mask =>
      spec.charge .ACT 4 { r with openBanks := r.openBanks ||| mask }
  else if command = "ACT" ∨ command = "ACT-2" then
    (spec.maskForBank address).map fun mask =>
      spec.charge .ACT 1 { r with openBanks := r.openBanks ||| mask }
  else if command ∈ ["PREA", "WRA16", "WRA8"] then
    .ok (spec.charge .PRE spec.allBankCount { r with openBanks := 0 })
  else if command = "PRE4" then
    (spec.maskForBankgroup address).map fun mask =>
      spec.charge .PRE 4 { r with openBanks := andNot r.openBanks mask }
  else if command ∈ ["PRE", "RDA", "WRA"] then
    (spec.maskForBank address).map fun mask =>
      spec.charge .PRE 1 { r with openBanks := andNot r.openBanks mask }
  else if command = "REFab" then .ok { r with openBanks := 0 }
  else .ok r

/-- The other chains of branches: the activities of the data path. -/
def dataActivities (command : String) : List (Activity × Int) :=
  let reads : List (Activity × Int) :=
    if command ∈ ["RD", "RDA", "RDCP", "RDMAC16", "RDAF16", "RDMAC8", "RDAF8"] then [(.RD, 1)]
    else if command ∈ ["AF16", "AF8"] then [(.RD, spec.allBankCount)]
    else []
  let writes : List (Activity × Int) :=
    if command ∈ ["WR", "WRA", "WRCP", "WRMAC16", "WRMAC8"] then [(.WR, 1)]
    else if command ∈ ["WRA16", "WRA8"] then [(.WR, spec.allBankCount)]
    else []
  let macs : List (Activity × Int) :=
    if command ∈ ["MAC", "MAC16", "MAC8"] then [(.PIM, 1)] else []
  reads ++ writes ++ macs

def replayEvent (r : Replay) (event : CommandEvent) : Except String Replay := do
  let totals ← spec.accountInterval r.totals (event.clock - r.previousClock) r.openBanks
    r.previousActivities
  let r ← spec.openAndClose { r with totals, previousActivities := [] } event.command
    event.address
  return { r with
    previousClock := event.clock
    previousActivities := r.previousActivities ++ spec.dataActivities event.command }

def replayFile (memorySystemCycles : Int) (totals : Totals)
    (file : String × List CommandEvent) : Except String Totals := do
  let issued ← parseCommandTrace file.1 file.2
  if issued = [] then return totals
  let r ← issued.foldlM spec.replayEvent { totals }
  spec.accountInterval r.totals (memorySystemCycles - r.previousClock) r.openBanks
    r.previousActivities

def traceBasedActivityCycles (memorySystemCycles : Int)
    (traceFiles : List (String × List CommandEvent)) : Except String Totals :=
  if traceFiles = [] then
    .error (s!"No TraceRecorder files found for {spec.tracePrefix}. " ++
      "Run Ramulator with the TraceRecorder plugin.")
  else if spec.useIdd0Split ∧ (spec.nRAS ≤ 0 ∨ spec.nRC - spec.nRAS ≤ 0) then
    .error s!"Invalid ACT/PRE timing window in resolved timing for {spec.tracePrefix}"
  else traceFiles.foldlM (spec.replayFile memorySystemCycles) {}

end TraceSpec

/-- Bank groups of GDDR6 are charged until the next event. -/
example : (TraceSpec.traceBasedActivityCycles ⟨"commands", "GDDR6", 7, 18⟩ 60
    [("commands.ch0",
      [⟨10, "ACT4", [0, 1, -1, 0, 0]⟩, ⟨20, "MAC", [0, 1, 0, 0, 0]⟩,
        ⟨50, "PRE4", [0, 1, -1, 0, 0]⟩])]).toOption.map
      (fun totals => (totals.cycles .ACT, totals.cycles .PRE)) = some (4 * 10, 4 * 10) := by
  decide +kernel

end AimSimulator.Analysis
