import AimSimulator.Dram.Device
import AimSimulator.Dram.Lambdas
/-!
# The standard device models

`DDR3.cpp`, `DDR4.cpp`, `DDR4-VRR.cpp`, `HBM.cpp`, `HBM2.cpp` and `HBM3.cpp` under `dram/impl`
register the same actions and prerequisites, up to the level that `PREA` and `REFab` stand at.
They differ in their levels, in the refresh commands they add and in their timing tables.  The
values of the timing parameters are an argument `V`.
-/

namespace AimSimulator.Dram.Standard

inductive Impl
  | DDR3 | DDR4 | DDR4VRR | HBM | HBM2 | HBM3
  deriving DecidableEq, Repr

/-- The commands of all classes; `commands` says which ones a class has. -/
inductive Cmd
  | ACT | PRE | PREA | RD | WR | RDA | WRA | REFab | VRR | REFsb | RFMab | RFMsb
  deriving DecidableEq, Repr

/-- `m_states`; the HBM classes have no `PowerUp`. -/
inductive St
  | Opened | Closed | PowerUp | NA
  deriving DecidableEq, Repr

inductive Timing
  | rate | nBL | nCL | nRCD | nRCDRD | nRCDWR | nRP | nRAS | nRC | nWR | nRTP | nRTPS | nRTPL
  | nCWL | nCCD | nCCDS | nCCDL | nRRD | nRRDS | nRRDL | nWTR | nWTRS | nWTRL | nRTW | nFAW
  | nRFC | nRFCSB | nREFI | nREFISB | nRREFD | nVRR | nCS | tCK_ps
  deriving DecidableEq, Repr

def commands : Impl → List Cmd
  | .DDR3 | .DDR4 => [.ACT, .PRE, .PREA, .RD, .WR, .RDA, .WRA, .REFab]
  | .DDR4VRR => [.ACT, .PRE, .PREA, .RD, .WR, .RDA, .WRA, .REFab, .VRR]
  | .HBM | .HBM2 => [.ACT, .PRE, .PREA, .RD, .WR, .RDA, .WRA, .REFab, .REFsb]
  | .HBM3 => [.ACT, .PRE, .PREA, .RD, .WR, .RDA, .WRA, .REFab, .REFsb, .RFMab, .RFMsb]

/-! ## Levels -/

/-- `m_levels["bank"]`; the row and the column follow. -/
def bank : Impl → Nat
  | .DDR3 | .HBM => 2
  | .DDR4 | .DDR4VRR | .HBM2 | .HBM3 => 3

/-- The level that `PREA` and `REFab` stand at: the rank, or the channel of an HBM class. -/
def group : Impl → Nat
  | .DDR3 | .DDR4 | .DDR4VRR => 1
  | .HBM | .HBM2 | .HBM3 => 0

def commandScopes (impl : Impl) : Cmd → Nat
  | .ACT => bank impl + 1
  | .PRE | .VRR | .REFsb | .RFMsb => bank impl
  | .PREA | .REFab | .RFMab => group impl
  | .RD | .WR | .RDA | .WRA => bank impl + 2

def commandMeta : Cmd → DRAMCommandMeta
  | .ACT => { isOpening := true }
  | .PRE | .PREA => { isClosing := true }
  | .RD | .WR => { isAccessing := true }
  | .RDA | .WRA => { isClosing := true, isAccessing := true }
  | .REFab | .VRR | .REFsb | .RFMab | .RFMsb => { isRefreshing := true }

def requestTranslations : Impl → ReqType → Option Cmd
  | _, .Read => some .RD
  | _, .Write => some .WR
  | _, .RefAllBank => some .REFab
  | .DDR4VRR, .RefSingleBank => some .VRR
  | .HBM, .RefSingleBank | .HBM2, .RefSingleBank | .HBM3, .RefSingleBank => some .REFsb
  | .HBM3, .AIM => some .RFMab
  | .HBM3, .MAX => some .RFMsb
  | _, _ => none

/-! ## Timing -/

/-- The initializer of `populate_timingcons` in `DDR3.cpp`. -/
def ddr3Table : List (TimingConsInitializer Cmd Timing) :=
  let channel := 0
  let rank := 1
  let bank := 2
  [ { level := channel, preceding := [.RD, .RDA], following := [.RD, .RDA],
      latency := fun V => V .nBL },
    { level := channel, preceding := [.WR, .WRA], following := [.WR, .WRA],
      latency := fun V => V .nBL },
    -- CAS <-> CAS
    { level := rank, preceding := [.RD, .RDA], following := [.RD, .RDA],
      latency := fun V => V .nCCD },
    { level := rank, preceding := [.WR, .WRA], following := [.WR, .WRA],
      latency := fun V => V .nCCD },
    { level := rank, preceding := [.RD, .RDA], following := [.WR, .WRA],
      latency := fun V => V .nCL + V .nBL + 2 - V .nCWL },
    { level := rank, preceding := [.WR, .WRA], following := [.RD, .RDA],
      latency := fun V => V .nCWL + V .nBL + V .nWTR },
    -- CAS <-> CAS between sibling ranks
    { level := rank, preceding := [.RD, .RDA], following := [.RD, .RDA, .WR, .WRA],
      latency := fun V => V .nBL + V .nCS, isSibling := true },
    { level := rank, preceding := [.WR, .WRA], following := [.RD, .RDA],
      latency := fun V => V .nCL + V .nBL + V .nCS - V .nCWL, isSibling := true },
    -- CAS <-> PREab
    { level := rank, preceding := [.RD], following := [.PREA], latency := fun V => V .nRTP },
    { level := rank, preceding := [.WR], following := [.PREA],
      latency := fun V => V .nCWL + V .nBL + V .nWR },
    -- RAS <-> RAS
    { level := rank, preceding := [.ACT], following := [.ACT], latency := fun V => V .nRRD },
    { level := rank, preceding := [.ACT], following := [.ACT], latency := fun V => V .nFAW,
      window := 4 },
    { level := rank, preceding := [.ACT], following := [.PREA], latency := fun V => V .nRAS },
    { level := rank, preceding := [.PREA], following := [.ACT], latency := fun V => V .nRP },
    -- RAS <-> REF
    { level := rank, preceding := [.ACT], following := [.REFab], latency := fun V => V .nRC },
    { level := rank, preceding := [.PRE, .PREA], following := [.REFab],
      latency := fun V => V .nRP },
    { level := rank, preceding := [.RDA], following := [.REFab],
      latency := fun V => V .nRP + V .nRTP },
    { level := rank, preceding := [.WRA], following := [.REFab],
      latency := fun V => V .nCWL + V .nBL + V .nWR + V .nRP },
    { level := rank, preceding := [.REFab], following := [.ACT], latency := fun V => V .nRFC },
    { level := bank, preceding := [.ACT], following := [.ACT], latency := fun V => V .nRC },
    { level := bank, preceding := [.ACT], following := [.RD, .RDA, .WR, .WRA],
      latency := fun V => V .nRCD },
    { level := bank, preceding := [.ACT], following := [.PRE], latency := fun V => V .nRAS },
    { level := bank, preceding := [.PRE], following := [.ACT], latency := fun V => V .nRP },
    { level := bank, preceding := [.RD], following := [.PRE], latency := fun V => V .nRTP },
    { level := bank, preceding := [.WR], following := [.PRE],
      latency := fun V => V .nCWL + V .nBL + V .nWR },
    { level := bank, preceding := [.RDA], following := [.ACT],
      latency := fun V => V .nRTP + V .nRP },
    { level := bank, preceding := [.WRA], following := [.ACT],
      latency := fun V => V .nCWL + V .nBL + V .nWR + V .nRP } ]

/-- The initializer of `populate_timingcons` in `DDR4.cpp` and, with `VRR`, in `DDR4-VRR.cpp`. -/
def ddr4Table (vrr : Bool) : List (TimingConsInitializer Cmd Timing) :=
  let channel := 0
  let rank := 1
  let bankgroup := 2
  let bank := 3
  let acts := if vrr then [.ACT, .VRR] else [.ACT]
  [ { level := channel, preceding := [.RD, .RDA], following := [.RD, .RDA],
      latency := fun V => V .nBL },
    { level := channel, preceding := [.WR, .WRA], following := [.WR, .WRA],
      latency := fun V => V .nBL },
    -- CAS <-> CAS
    { level := rank, preceding := [.RD, .RDA], following := [.RD, .RDA],
      latency := fun V => V .nCCDS },
    { level := rank, preceding := [.WR, .WRA], following := [.WR, .WRA],
      latency := fun V => V .nCCDS },
    { level := rank, preceding := [.RD, .RDA], following := [.WR, .WRA],
      latency := fun V => V .nCL + V .nBL + 2 - V .nCWL },
    { level := rank, preceding := [.WR, .WRA], following := [.RD, .RDA],
      latency := fun V => V .nCWL + V .nBL + V .nWTRS },
    -- CAS <-> CAS between sibling ranks
    { level := rank, preceding := [.RD, .RDA], following := [.RD, .RDA, .WR, .WRA],
      latency := fun V => V .nBL + V .nCS, isSibling := true },
    { level := rank, preceding := [.WR, .WRA], following := [.RD, .RDA],
      latency := fun V => V .nCL + V .nBL + V .nCS - V .nCWL, isSibling := true },
    -- CAS <-> PREab
    { level := rank, preceding := [.RD], following := [.PREA], latency := fun V => V .nRTP },
    { level := rank, preceding := [.WR], following := [.PREA],
      latency := fun V => V .nCWL + V .nBL + V .nWR },
    -- RAS <-> RAS
    { level := rank, preceding := acts, following := acts, latency := fun V => V .nRRDS },
    { level := rank, preceding := [.ACT], following := [.ACT], latency := fun V => V .nFAW,
      window := 4 },
    { level := rank, preceding := [.ACT], following := [.PREA], latency := fun V => V .nRAS },
    { level := rank, preceding := [.PREA], following := [.ACT], latency := fun V => V .nRP },
    -- RAS <-> REF
    { level := rank, preceding := [.ACT], following := [.REFab], latency := fun V => V .nRC } ] ++
  (if vrr then
    [ { level := rank, preceding := [.VRR], following := [.REFab],
        latency := fun V => V .nVRR } ]
  else []) ++
  [ { level := rank, preceding := [.PRE, .PREA], following := [.REFab],
      latency := fun V => V .nRP },
    { level := rank, preceding := [.RDA], following := [.REFab],
      latency := fun V => V .nRP + V .nRTP },
    { level := rank, preceding := [.WRA], following := [.REFab],
      latency := fun V => V .nCWL + V .nBL + V .nWR + V .nRP },
    { level := rank, preceding := [.REFab], following := acts, latency := fun V => V .nRFC },
    -- CAS <-> CAS
    { level := bankgroup, preceding := [.RD, .RDA], following := [.RD, .RDA],
      latency := fun V => V .nCCDL },
    { level := bankgroup, preceding := [.WR, .WRA], following := [.WR, .WRA],
      latency := fun V => V .nCCDL },
    { level := bankgroup, preceding := [.WR, .WRA], following := [.RD, .RDA],
      latency := fun V => V .nCWL + V .nBL + V .nWTRL },
    { level := bankgroup, preceding := acts, following := acts, latency := fun V => V .nRRDL },
    { level := bank, preceding := [.ACT], following := acts, latency := fun V => V .nRC } ] ++
  (if vrr then
    [ { level := bank, preceding := acts, following := acts, latency := fun V => V .nVRR } ]
  else []) ++
  [ { level := bank, preceding := [.ACT], following := [.RD, .RDA, .WR, .WRA],
      latency := fun V => V .nRCD },
    { level := bank, preceding := [.ACT], following := [.PRE], latency := fun V => V .nRAS },
    { level := bank, preceding := [.PRE], following := acts, latency := fun V => V .nRP },
    { level := bank, preceding := [.RD], following := [.PRE], latency := fun V => V .nRTP },
    { level := bank, preceding := [.WR], following := [.PRE],
      latency := fun V => V .nCWL + V .nBL + V .nWR },
    { level := bank, preceding := [.RDA], following := acts,
      latency := fun V => V .nRTP + V .nRP },
    { level := bank, preceding := [.WRA], following := acts,
      latency := fun V => V .nCWL + V .nBL + V .nWR + V .nRP } ]

/-- The initializer of `populate_timingcons` in `HBM.cpp`, `HBM2.cpp` and `HBM3.cpp`.  The
array timings stand at the level `array`, above `bankgroup`; `ref` are the refreshes of a
channel and `refsb` those of a bank. -/
def hbmTable (array bankgroup bank : Nat) (ref refsb : List Cmd) :
    List (TimingConsInitializer Cmd Timing) :=
  let channel := 0
  [ -- 2-cycle ACT command
    { level := channel, preceding := [.ACT], following := [.ACT, .PRE, .PREA] ++ ref ++ refsb,
      latency := fun _ => 2 },
    -- RAS <-> RAS
    { level := array, preceding := [.ACT], following := [.ACT], latency := fun V => V .nRRDS },
    { level := array, preceding := [.ACT], following := [.ACT], latency := fun V => V .nFAW,
      window := 4 },
    { level := array, preceding := [.ACT], following := refsb,
      latency := fun V => V .nRRDS + 1 },
    { level := array, preceding := refsb, following := refsb, latency := fun V => V .nRREFD },
    { level := array, preceding := refsb, following := [.ACT],
      latency := fun V => V .nRREFD - 1 },
    -- CAS <-> CAS
    { level := array, preceding := [.RD, .RDA], following := [.RD, .RDA],
      latency := fun V => V .nBL },
    { level := array, preceding := [.WR, .WRA], following := [.WR, .WRA],
      latency := fun V => V .nBL },
    { level := array, preceding := [.RD, .RDA], following := [.RD, .RDA],
      latency := fun V => V .nCCDS },
    { level := array, preceding := [.WR, .WRA], following := [.WR, .WRA],
      latency := fun V => V .nCCDS },
    { level := array, preceding := [.RD, .RDA], following := [.WR, .WRA],
      latency := fun V => V .nCL + V .nBL + 2 - V .nCWL },
    { level := array, preceding := [.WR, .WRA], following := [.RD, .RDA],
      latency := fun V => V .nCWL + V .nBL + V .nWTRS },
    -- CAS <-> PREab
    { level := array, preceding := [.RD], following := [.PREA], latency := fun V => V .nRTPS },
    { level := array, preceding := [.WR], following := [.PREA],
      latency := fun V => V .nCWL + V .nBL + V .nWR },
    -- RAS <-> RAS
    { level := array, preceding := [.ACT], following := [.ACT], latency := fun V => V .nRRDS },
    { level := array, preceding := [.ACT], following := [.ACT], latency := fun V => V .nFAW,
      window := 4 },
    { level := array, preceding := [.ACT], following := [.PREA], latency := fun V => V .nRAS },
    { level := array, preceding := [.PREA], following := [.ACT], latency := fun V => V .nRP },
    -- RAS <-> REF
    { level := array, preceding := [.ACT], following := ref, latency := fun V => V .nRC },
    { level := array, preceding := [.PRE, .PREA], following := ref, latency := fun V => V .nRP },
    { level := array, preceding := [.RDA], following := ref,
      latency := fun V => V .nRP + V .nRTPS },
    { level := array, preceding := [.WRA], following := ref,
      latency := fun V => V .nCWL + V .nBL + V .nWR + V .nRP },
    { level := array, preceding := ref, following := .ACT :: refsb,
      latency := fun V => V .nRFC },
    -- CAS <-> CAS
    { level := bankgroup, preceding := [.RD, .RDA], following := [.RD, .RDA],
      latency := fun V => V .nCCDL },
    { level := bankgroup, preceding := [.WR, .WRA], following := [.WR, .WRA],
      latency := fun V => V .nCCDL },
    { level := bankgroup, preceding := [.WR, .WRA], following := [.RD, .RDA],
      latency := fun V => V .nCWL + V .nBL + V .nWTRL },
    { level := bankgroup, preceding := [.ACT], following := [.ACT],
      latency := fun V => V .nRRDL },
    { level := bankgroup, preceding := [.ACT], following := refsb,
      latency := fun V => V .nRRDL + 1 },
    { level := bankgroup, preceding := refsb, following := [.ACT],
      latency := fun V => V .nRRDL - 1 },
    { level := bank, preceding := [.RD], following := [.PRE], latency := fun V => V .nRTPS },
    { level := bank, preceding := [.ACT], following := [.ACT], latency := fun V => V .nRC },
    { level := bank, preceding := [.ACT], following := [.RD, .RDA],
      latency := fun V => V .nRCDRD },
    { level := bank, preceding := [.ACT], following := [.WR, .WRA],
      latency := fun V => V .nRCDWR },
    { level := bank, preceding := [.ACT], following := [.PRE], latency := fun V => V .nRAS },
    { level := bank, preceding := [.PRE], following := [.ACT], latency := fun V => V .nRP },
    { level := bank, preceding := [.RD], following := [.PRE], latency := fun V => V .nRTPL },
    { level := bank, preceding := [.WR], following := [.PRE],
      latency := fun V => V .nCWL + V .nBL + V .nWR },
    { level := bank, preceding := [.RDA], following := .ACT :: refsb,
      latency := fun V => V .nRTPL + V .nRP },
    { level := bank, preceding := [.WRA], following := .ACT :: refsb,
      latency := fun V => V .nCWL + V .nBL + V .nWR + V .nRP } ]

def timingConsTable : Impl → List (TimingConsInitializer Cmd Timing)
  | .DDR3 => ddr3Table
  | .DDR4 => ddr4Table false
  | .DDR4VRR => ddr4Table true
  | .HBM => hbmTable 0 1 2 [.REFab] [.REFsb]
  | .HBM2 => hbmTable 1 2 3 [.REFab] [.REFsb]
  | .HBM3 => hbmTable 1 2 3 [.REFab, .RFMab] [.REFsb, .RFMsb]

/-! ## Actions and prerequisites -/

def groupDepth (impl : Impl) : Nat := bank impl - group impl

/-- `set_actions`; `Rank::PREab` and `Channel::PREab` close every bank below their node. -/
def actions (impl : Impl) : (d : Nat) → Cmd → Option (ActionFunc Cmd St Unit d)
  | 0 => fun
    | .ACT => some (Action.Bank.ACT (bank impl + 1) .Opened)
    | .PRE | .RDA | .WRA => some (Action.Bank.PRE .Closed)
    | _ => none
  | d + 1 => fun
    | .PREA => if d + 1 = groupDepth impl then some (Action.closeBanks .Closed) else none
    | _ => none

def preqs (impl : Impl) : (d : Nat) → Cmd → Option (PreqFunc Cmd St Unit d)
  | 0 => fun
    | .RD => some (Preq.Bank.RequireRowOpen (bank impl + 1) .Closed .Opened .ACT .PRE .RD)
    | .WR => some (Preq.Bank.RequireRowOpen (bank impl + 1) .Closed .Opened .ACT .PRE .WR)
    | .VRR => some (Preq.Bank.RequireBankClosed .Closed .Opened .PRE .VRR)
    | .REFsb => some (Preq.Bank.RequireBankClosed .Closed .Opened .PRE .REFsb)
    | _ => none
  | d + 1 => fun
    | .REFab =>
        if d + 1 = groupDepth impl then some (Preq.RequireAllBanksClosed .Closed .PREA .REFab)
        else none
    | _ => none

def initStates (impl : Impl) (level : Nat) : St :=
  if level = bank impl then .Closed
  else if level = 1 ∧ group impl = 1 then .PowerUp
  else .NA

/-! ## The models -/

/-- What `IDRAM` shows to the AiM controller alone.  These classes set none of it, and no other
component reads it. -/
structure AimLookups where
  commandLatencies : Cmd → Int
  aimRequestTranslations : Opcode → Option Cmd
  tmod : Cmd

/-- `get_level_size("rank")`; `-1` without a rank level. -/
def numRanks (impl : Impl) (count : Nat → Int) : Int := if group impl = 1 then count 1 else -1

/-- The model of a class, with its organisation and its timing values.  Its `issue_command`
keeps no open-row mask. -/
def model (impl : Impl) (aim : AimLookups) (count : Nat → Int) (V : Timing → Int) :
    DRAMModel Cmd St Unit where
  commandId := fun cmd => (commands impl).idxOf cmd
  commandOne := .PRE
  commandScopes := commandScopes impl
  bankLevel := bank impl
  timingCons := populateTimingcons V (timingConsTable impl)
  initStates := initStates impl
  initExt := ()
  actions := actions impl
  preqs := preqs impl
  commandMeta := commandMeta
  commandLatencies := aim.commandLatencies
  requestTranslations := requestTranslations impl
  aimRequestTranslations := aim.aimRequestTranslations
  tmod := aim.tmod
  numRanks := numRanks impl count
  nREFI := V .nREFI
  openRowsAfter := fun _ _ openRows => openRows

end AimSimulator.Dram.Standard
