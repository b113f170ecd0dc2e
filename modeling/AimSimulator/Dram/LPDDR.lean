import AimSimulator.Dram.Device
import AimSimulator.Dram.Lambdas
/-!
# The LPDDR4 and LPDDR5 device models

`dram/impl/LPDDR4.cpp` and `dram/impl/LPDDR5.cpp` are one model twice: the second
names its all-bank commands with `16` for `8`, adds the bank-group entries of the
timing table, sets the whole open-row mask on an all-bank activation and has its
own presets.  The commands carry the names of the first; `ACT_1` is `"ACT-1"`.
-/

namespace AimSimulator.Dram.LPDDR

inductive Generation
  | LPDDR4 | LPDDR5
  deriving DecidableEq, Repr

/-- `m_commands`; the id of a command is its position. -/
inductive Cmd
  | ACT_1 | ACT_2 | PRE | PREA | CASRD | CASWR | CASWRGB | CASWRMAC8 | CASRDMAC8 | CASRDAF8
  | CASWRA8 | RD | WR | RDA | WRA | REFab | REFpb | RFMab | RFMpb | ACT4_1 | ACT8_1 | ACT4_2
  | ACT8_2 | PRE4 | MAC | MAC8 | AF8 | EWMUL8 | RDCP | WRCP | WRGB | RDMAC8 | RDAF8 | WRMAC8
  | WRA8 | TMOD | SYNC | EOC | UNKNOWN
  deriving DecidableEq, Repr

/-- `m_states`. -/
inductive St
  | PreOpened | Opened | Closed | PowerUp | NA
  deriving DecidableEq, Repr

/-- `m_timings`. -/
inductive Timing
  | rate | nBL | nCL | nRCD | nRCDRDMAC | nRCDEWMUL | nRCDRDAF | nRCDRDCP | nRCDWRCP | nRPab
  | nRPpb | nRAS | nRC | nWR | nRTP | nCWL | nCCD | nRRD | nWTRS | nWTRL | nFAW | nPPD |
  nRFCab | nRFCpb | nREFI | nPBR2PBR | nPBR2ACT | nCS | nCLREG | nCLGB | nCWLREG | nCWLGB |
  nWPRE | nMODCH | tCK_ps
  deriving DecidableEq, Repr

/-! ## Organisation -/

/-- The levels `m_levels` that stand in the tables. -/
abbrev channel : Nat := 0
abbrev rank : Nat := 1
abbrev bankgroup : Nat := 2
abbrev bank : Nat := 3
abbrev row : Nat := 4
abbrev column : Nat := 5

def orgPresets : Generation → List (String × Organization)
  | .LPDDR4 =>
      [ ("LPDDR4_2Gb_x16", ⟨2048, 16, [1, 1, 4, 4, 8192, 1024]⟩),
        ("LPDDR4_4Gb_x16", ⟨4096, 16, [1, 1, 4, 4, 16384, 1024]⟩),
        ("LPDDR4_8Gb_x16", ⟨8192, 16, [1, 1, 4, 4, 32768, 1024]⟩),
        ("LPDDR4_AiM_org", ⟨4096, 16, [32, 1, 1, 8, 32768, 1024]⟩) ]
  | .LPDDR5 =>
      [ ("LPDDR5_2Gb_x16", ⟨2048, 16, [1, 1, 4, 4, 8192, 1024]⟩),
        ("LPDDR5_4Gb_x16", ⟨4096, 16, [1, 1, 4, 4, 16384, 1024]⟩),
        ("LPDDR5_8Gb_x16", ⟨8192, 16, [1, 1, 4, 4, 32768, 1024]⟩),
        ("LPDDR5_16Gb_x16", ⟨16384, 16, [1, 1, 4, 4, 65536, 1024]⟩),
        ("LPDDR5_32Gb_x16", ⟨32768, 16, [1, 1, 4, 4, 131072, 1024]⟩),
        ("LPDDR5_AiM_org", ⟨32768, 16, [32, 1, 4, 4, 131072, 1024]⟩) ]

/-- `m_command_scopes`; `UNKNOWN` has no entry and keeps level `0`. -/
def commandScopes : Cmd → Nat
  | .PREA | .CASRD | .CASWR | .CASWRGB | .CASWRMAC8 | .CASRDMAC8 | .CASRDAF8 | .CASWRA8
  | .REFab | .REFpb | .RFMab | .RFMpb | .ACT8_1 | .ACT8_2 | .MAC8 | .AF8 | .EWMUL8 | .WRGB
  | .RDMAC8 | .RDAF8 | .WRMAC8 | .WRA8 | .TMOD | .SYNC | .EOC => rank
  | .ACT4_1 | .ACT4_2 | .PRE4 => bankgroup
  | .PRE => bank
  | .ACT_1 | .ACT_2 => row
  | .RD | .WR | .RDA | .WRA | .MAC | .RDCP | .WRCP => column
  | .UNKNOWN => channel

def commandMeta : Cmd → DRAMCommandMeta
  | .ACT_2 | .ACT4_2 | .ACT8_2 => { isOpening := true }
  | .PRE | .PREA | .PRE4 => { isClosing := true }
  | .RD | .WR | .MAC | .MAC8 | .EWMUL8 | .RDCP | .WRCP => { isAccessing := true }
  | .RDA | .WRA | .WRA8 => { isClosing := true, isAccessing := true }
  | .REFab | .REFpb | .RFMab | .RFMpb => { isRefreshing := true }
  | .ACT_1 | .CASRD | .CASWR | .CASWRGB | .CASWRMAC8 | .CASRDMAC8 | .CASRDAF8 | .CASWRA8
  | .ACT4_1 | .ACT8_1 | .AF8 | .WRGB | .RDMAC8 | .RDAF8 | .WRMAC8 | .TMOD | .SYNC | .EOC
  | .UNKNOWN => {}

/-! ## Requests -/

def requestTranslations : ReqType → Option Cmd
  | .Read => some .RD
  | .Write => some .WR
  | .RefAllBank => some .REFab
  | .RefSingleBank => some .REFpb
  | .AIM | .MAX => none

/-- `m_aim_request_translations`, indexed by the opcode of a request.  The table
names `ISR_SYNC` before `ISR_EOC`, the enumeration the other way round. -/
def aimRequestTranslations : Opcode → Option Cmd
  | .MIN => some .UNKNOWN
  | .ISR_WR_SBK => some .WR
  | .ISR_WR_GB => some .WRGB
  | .ISR_WR_BIAS => some .WRMAC8
  | .ISR_WR_AFLUT => some .UNKNOWN
  | .ISR_RD_MAC => some .RDMAC8
  | .ISR_RD_AF => some .RDAF8
  | .ISR_RD_SBK => some .RD
  | .ISR_COPY_BKGB => some .RDCP
  | .ISR_COPY_GBBK => some .WRCP
  | .ISR_MAC_SBK => some .MAC
  | .ISR_MAC_ABK => some .MAC8
  | .ISR_AF => some .AF8
  | .ISR_EWMUL => some .EWMUL8
  | .ISR_EWADD => some .UNKNOWN
  | .ISR_WR_ABK => some .WRA8
  | .ISR_EOC => some .SYNC
  | .ISR_SYNC => some .EOC
  | .MAX => some .UNKNOWN

/-! ## Timing -/

def commandLatencies (V : Timing → Int) : Cmd → Int
  | .WR => V .nCWL + V .nBL
  | .WRGB => V .nCWLGB + V .nBL
  | .WRMAC8 => V .nCWLREG + V .nBL
  | .RDMAC8 | .RDAF8 => V .nCLREG + V .nBL
  | .RD => V .nCL + V .nBL
  | .RDCP | .WRCP | .MAC | .MAC8 | .AF8 | .EWMUL8 | .SYNC | .EOC => 1
  | .WRA8 => V .nCWL + V .nBL + V .nRPab
  | .ACT_1 | .ACT_2 | .PRE | .PREA | .CASRD | .CASWR | .CASWRGB | .CASWRMAC8 | .CASRDMAC8
  | .CASRDAF8 | .CASWRA8 | .RDA | .WRA | .REFab | .REFpb | .RFMab | .RFMpb | .ACT4_1 | .ACT8_1
  | .ACT4_2 | .ACT8_2 | .PRE4 | .TMOD | .UNKNOWN => -1

def rankTimingCons : List (TimingConsInitializer Cmd Timing) :=
  [
    -- CAS <-> CAS
    { level := channel, preceding := [.RD, .RDA, .RDMAC8, .RDAF8],
      following := [.RD, .RDA, .RDMAC8, .RDAF8], latency := fun V => V .nBL },
    { level := channel, preceding := [.WR, .WRA, .WRA8, .WRGB, .WRMAC8],
      following := [.WR, .WRA, .WRA8, .WRGB, .WRMAC8], latency := fun V => V .nBL },
    -- CAS <-> CAS
    { level := rank, preceding := [.RD, .RDA, .MAC, .MAC8, .RDCP, .RDMAC8, .RDAF8],
      following := [.RD, .RDA, .MAC, .MAC8, .RDCP, .RDMAC8, .RDAF8],
      latency := fun V => V .nCCD },
    { level := rank, preceding := [.WR, .WRA, .WRA8, .WRGB, .WRCP, .WRMAC8],
      following := [.WR, .WRA, .WRA8, .WRGB, .WRCP, .WRMAC8], latency := fun V => V .nCCD },
    { level := rank, preceding := [.RD, .RDA, .MAC, .RDCP, .RDMAC8, .RDAF8, .MAC8, .EWMUL8],
      following := [.RDMAC8, .RDAF8, .MAC8, .EWMUL8], latency := fun V => V .nCCD },
    { level := rank, preceding := [.RDMAC8, .RDAF8, .MAC8, .EWMUL8],
      following := [.RD, .RDA, .MAC, .RDCP, .RDMAC8, .RDAF8, .MAC8, .EWMUL8],
      latency := fun V => V .nCCD },
    { level := rank, preceding := [.WR, .WRA, .WRCP, .WRA8, .WRMAC8, .EWMUL8],
      following := [.WRA8, .WRMAC8, .EWMUL8], latency := fun V => V .nCCD },
    { level := rank, preceding := [.WRA8, .WRMAC8, .EWMUL8],
      following := [.WR, .WRA, .WRCP, .WRA8, .WRMAC8, .EWMUL8], latency := fun V => V .nCCD },
    -- RD <-> WR
    { level := rank, preceding := [.RD, .RDA], following := [.WR, .WRA],
      latency := fun V => V .nCL + V .nBL + 2 - V .nCWL },
    { level := rank, preceding := [.RD, .RDA], following := [.WRA8],
      latency := fun V => V .nCL + V .nBL + 2 - V .nCWL },
    { level := rank, preceding := [.RDMAC8, .RDAF8], following := [.WR, .WRA],
      latency := fun V => V .nCLREG + V .nBL + 2 - V .nCWL },
    { level := rank, preceding := [.RDMAC8, .RDAF8], following := [.WRA8],
      latency := fun V => V .nCLREG + V .nBL + 2 - V .nCWL },
    { level := rank, preceding := [.RD, .RDA], following := [.WRGB],
      latency := fun V => V .nCL + V .nBL + 2 - V .nCWLGB },
    { level := rank, preceding := [.RD, .RDA], following := [.WRMAC8],
      latency := fun V => V .nCL + V .nBL + 2 - V .nCWLREG },
    { level := rank, preceding := [.RDMAC8, .RDAF8], following := [.WRGB],
      latency := fun V => V .nCLREG + V .nBL + 2 - V .nCWLGB },
    { level := rank, preceding := [.RDMAC8, .RDAF8], following := [.WRMAC8],
      latency := fun V => V .nCLREG + V .nBL + 2 - V .nCWLREG },
    -- WR <-> RD
    { level := rank, preceding := [.WR, .WRA], following := [.RD, .RDA, .RDMAC8, .RDAF8],
      latency := fun V => V .nCWL + V .nBL + V .nWTRS },
    { level := rank, preceding := [.WRA8], following := [.RD, .RDA, .RDMAC8, .RDAF8],
      latency := fun V => V .nCWL + V .nBL + V .nWTRS },
    { level := rank, preceding := [.WRGB], following := [.RD, .RDA, .RDMAC8, .RDAF8],
      latency := fun V => V .nCWLGB + V .nBL + V .nWTRS },
    { level := rank, preceding := [.WRMAC8], following := [.RD, .RDA, .RDMAC8, .RDAF8],
      latency := fun V => V .nCWLREG + V .nBL + V .nWTRS },
    { level := rank, preceding := [.WR, .WRA], following := [.RDMAC8, .RDAF8],
      latency := fun V => V .nCWL + V .nBL + V .nWTRL },
    { level := rank, preceding := [.WRA8], following := [.RD, .RDA, .RDMAC8, .RDAF8],
      latency := fun V => V .nCWL + V .nBL + V .nWTRL },
    { level := rank, preceding := [.WRMAC8], following := [.RD, .RDA, .RDMAC8, .RDAF8],
      latency := fun V => V .nCWLREG + V .nBL + V .nWTRL },
    -- CAS <-> CAS
    { level := rank, preceding := [.RD, .RDA], following := [.RD, .RDA, .WR, .WRA],
      latency := fun V => V .nBL + V .nCS, isSibling := true },
    { level := rank, preceding := [.WR, .WRA], following := [.RD, .RDA],
      latency := fun V => V .nCL + V .nBL + V .nCS - V .nCWL, isSibling := true },
    -- CAS <-> PREab
    { level := rank, preceding := [.RD, .RDCP, .MAC, .MAC8, .AF8, .EWMUL8],
      following := [.PREA], latency := fun V => V .nRTP },
    { level := rank, preceding := [.MAC8, .AF8, .EWMUL8], following := [.PRE, .PRE4],
      latency := fun V => V .nRTP },
    { level := rank, preceding := [.WR, .WRCP], following := [.PREA],
      latency := fun V => V .nCWL + V .nBL + V .nWR },
    { level := rank, preceding := [.EWMUL8], following := [.PRE, .PRE4, .PREA],
      latency := fun V => V .nCWL + V .nWR },
    -- RAS <-> RAS
    { level := rank, preceding := [.ACT_1, .ACT4_1], following := [.ACT_1, .ACT4_1, .REFpb],
      latency := fun V => V .nRRD },
    { level := rank, preceding := [.ACT_1, .ACT4_1, .ACT8_1], following := [.ACT8_1],
      latency := fun V => V .nRRD },
    { level := rank, preceding := [.ACT8_1], following := [.ACT_1, .ACT4_1, .ACT8_1, .REFpb],
      latency := fun V => V .nRRD },
    { level := rank, preceding := [.ACT_1, .ACT4_1, .ACT8_1], following := [.ACT8_1],
      latency := fun V => V .nRC },
    { level := rank, preceding := [.ACT8_1], following := [.ACT_1, .ACT4_1, .ACT8_1, .REFpb],
      latency := fun V => V .nRC },
    { level := rank, preceding := [.ACT_1, .ACT4_1, .ACT8_1], following := [.PREA],
      latency := fun V => V .nRAS },
    { level := rank, preceding := [.ACT8_1], following := [.PRE, .PRE4],
      latency := fun V => V .nRAS },
    { level := rank, preceding := [.PRE], following := [.ACT8_1], latency := fun V => V .nRPpb },
    { level := rank, preceding := [.PRE4, .PREA], following := [.ACT_1, .ACT4_1, .ACT8_1],
      latency := fun V => V .nRPab },
    { level := rank, preceding := [.ACT8_1], following := [.RD, .RDA, .WR, .WRA],
      latency := fun V => V .nRCD },
    { level := rank, preceding := [.ACT8_1], following := [.MAC],
      latency := fun V => V .nRCDRDMAC },
    { level := rank, preceding := [.ACT8_1], following := [.RDCP],
      latency := fun V => V .nRCDRDCP },
    { level := rank, preceding := [.ACT8_1], following := [.WRCP],
      latency := fun V => V .nRCDWRCP },
    { level := rank, preceding := [.ACT_1, .ACT4_1, .ACT8_1], following := [.MAC8],
      latency := fun V => V .nRCDRDMAC },
    { level := rank, preceding := [.ACT_1, .ACT4_1, .ACT8_1], following := [.AF8],
      latency := fun V => V .nRCDRDAF },
    { level := rank, preceding := [.ACT_1, .ACT4_1, .ACT8_1], following := [.EWMUL8],
      latency := fun V => V .nRCDEWMUL },
    { level := rank, preceding := [.ACT_1, .ACT4_1, .ACT8_1], following := [.WRA8],
      latency := fun V => V .nRCD },
    { level := rank, preceding := [.RDA], following := [.ACT8_1],
      latency := fun V => V .nRTP + V .nRPpb },
    { level := rank, preceding := [.WRA], following := [.ACT8_1],
      latency := fun V => V .nCWL + V .nBL + V .nWR + V .nRPpb },
    { level := rank, preceding := [.WRA8], following := [.ACT_1, .ACT4_1, .ACT8_1],
      latency := fun V => V .nCWL + V .nBL + V .nWR + V .nRPab },
    -- RAS <-> REF
    { level := rank, preceding := [.REFpb], following := [.REFpb],
      latency := fun V => V .nPBR2PBR },
    { level := rank, preceding := [.ACT_1, .ACT4_1, .ACT8_1], following := [.REFpb],
      latency := fun V => V .nPBR2ACT },
    { level := rank, preceding := [.ACT_1, .ACT4_1, .ACT8_1], following := [.REFab],
      latency := fun V => V .nRC },
    { level := rank, preceding := [.ACT8_1], following := [.REFpb], latency := fun V => V .nRC },
    { level := rank, preceding := [.PRE], following := [.REFab], latency := fun V => V .nRPpb },
    { level := rank, preceding := [.PREA], following := [.REFab, .REFpb],
      latency := fun V => V .nRPab },
    { level := rank, preceding := [.PRE4], following := [.REFab], latency := fun V => V .nRPab },
    { level := rank, preceding := [.RDA], following := [.REFab],
      latency := fun V => V .nRPpb + V .nRTP },
    { level := rank, preceding := [.WRA], following := [.REFab],
      latency := fun V => V .nCWL + V .nBL + V .nWR + V .nRPpb },
    { level := rank, preceding := [.WRA8], following := [.REFpb, .REFab],
      latency := fun V => V .nCWL + V .nBL + V .nWR + V .nRPab },
    { level := rank, preceding := [.REFab],
      following := [.REFab, .REFpb, .ACT_1, .ACT4_1, .ACT8_1], latency := fun V => V .nRFCab },
    { level := rank, preceding := [.REFpb], following := [.ACT8_1],
      latency := fun V => V .nRFCpb },
    { level := rank, preceding := [.TMOD],
      following := [.ACT_1, .ACT_2, .PRE, .PREA, .CASRD, .CASWR, .CASWRGB, .CASWRMAC8,
        .CASRDMAC8, .CASRDAF8, .CASWRA8, .RD, .WR, .RDA, .WRA, .REFab, .REFpb, .RFMab, .RFMpb,
        .ACT8_1, .ACT4_1, .ACT8_2, .ACT4_2, .PRE4, .MAC, .MAC8, .AF8, .EWMUL8, .RDCP, .WRCP,
        .WRGB, .RDMAC8, .RDAF8, .WRMAC8, .WRA8, .SYNC, .EOC], latency := fun V => V .nMODCH } ]

def bankgroupTimingCons : List (TimingConsInitializer Cmd Timing) :=
  [
    -- CAS <-> CAS
    { level := bankgroup, preceding := [.RD, .RDA, .MAC, .RDCP],
      following := [.RD, .RDA, .MAC, .RDCP], latency := fun V => V .nCCD },
    { level := bankgroup, preceding := [.WR, .WRA, .WRCP], following := [.WR, .WRA, .WRCP],
      latency := fun V => V .nCCD },
    -- WR <-> RD
    { level := bankgroup, preceding := [.WR, .WRA], following := [.RD, .RDA],
      latency := fun V => V .nCWL + V .nBL + V .nWTRL },
    -- CAS <-> PRE4
    { level := bankgroup, preceding := [.RD, .RDCP, .MAC], following := [.PRE],
      latency := fun V => V .nRTP },
    { level := bankgroup, preceding := [.WR, .WRCP], following := [.PRE4],
      latency := fun V => V .nCWL + V .nBL + V .nWR },
    -- RAS <-> RAS
    { level := bankgroup, preceding := [.ACT_1, .ACT4_1], following := [.ACT_1, .ACT4_1],
      latency := fun V => V .nRRD },
    { level := bankgroup, preceding := [.ACT4_1], following := [.ACT_1, .ACT4_1],
      latency := fun V => V .nRC },
    { level := bankgroup, preceding := [.ACT_1, .ACT4_1], following := [.ACT4_1],
      latency := fun V => V .nRC },
    { level := bankgroup, preceding := [.ACT_1, .ACT4_1], following := [.PRE4],
      latency := fun V => V .nRAS },
    { level := bankgroup, preceding := [.ACT4_1], following := [.PRE],
      latency := fun V => V .nRAS },
    { level := bankgroup, preceding := [.PRE], following := [.ACT4_1],
      latency := fun V => V .nRPpb },
    { level := bankgroup, preceding := [.PRE4], following := [.ACT_1, .ACT4_1],
      latency := fun V => V .nRPab },
    { level := bankgroup, preceding := [.RDA], following := [.ACT4_1],
      latency := fun V => V .nRTP + V .nRPpb },
    { level := bankgroup, preceding := [.WRA], following := [.ACT4_1],
      latency := fun V => V .nCWL + V .nBL + V .nWR + V .nRPpb },
    -- RAS <-> REFpb
    { level := bankgroup, preceding := [.ACT4_1], following := [.REFpb],
      latency := fun V => V .nRC },
    { level := bankgroup, preceding := [.PRE4], following := [.REFpb],
      latency := fun V => V .nRPab },
    { level := bankgroup, preceding := [.REFpb], following := [.ACT4_1],
      latency := fun V => V .nRFCpb },
    -- CAS <-> RAS
    { level := bankgroup, preceding := [.ACT4_1], following := [.MAC],
      latency := fun V => V .nRCDRDMAC },
    { level := bankgroup, preceding := [.ACT4_1], following := [.RDCP],
      latency := fun V => V .nRCDRDCP },
    { level := bankgroup, preceding := [.ACT4_1], following := [.RD, .RDA],
      latency := fun V => V .nRCD },
    { level := bankgroup, preceding := [.ACT4_1], following := [.WRCP],
      latency := fun V => V .nRCDWRCP },
    { level := bankgroup, preceding := [.ACT4_1], following := [.WR, .WRA],
      latency := fun V => V .nRCD } ]

def bankTimingCons : List (TimingConsInitializer Cmd Timing) :=
  [
    -- CAS <-> RAS
    { level := bank, preceding := [.ACT_1], following := [.RD, .RDA, .WR, .WRA],
      latency := fun V => V .nRCD },
    { level := bank, preceding := [.ACT_1], following := [.MAC],
      latency := fun V => V .nRCDRDMAC },
    { level := bank, preceding := [.ACT_1], following := [.RDCP],
      latency := fun V => V .nRCDRDCP },
    { level := bank, preceding := [.ACT_1], following := [.WRCP],
      latency := fun V => V .nRCDWRCP },
    { level := bank, preceding := [.RD, .RDCP, .MAC], following := [.PRE],
      latency := fun V => V .nRTP },
    { level := bank, preceding := [.WR, .WRCP], following := [.PRE],
      latency := fun V => V .nCWL + V .nBL + V .nWR },
    -- RAS <-> RAS
    { level := bank, preceding := [.ACT_1], following := [.ACT_1], latency := fun V => V .nRC },
    { level := bank, preceding := [.ACT_1], following := [.PRE], latency := fun V => V .nRAS },
    { level := bank, preceding := [.PRE], following := [.PRE], latency := fun V => V .nRPpb },
    { level := bank, preceding := [.PRE], following := [.ACT_1], latency := fun V => V .nRPpb },
    { level := bank, preceding := [.RDA], following := [.ACT_1],
      latency := fun V => V .nRTP + V .nRPpb },
    { level := bank, preceding := [.WRA], following := [.ACT_1],
      latency := fun V => V .nCWL + V .nBL + V .nWR + V .nRPpb },
    -- RAS <-> REFpb
    { level := bank, preceding := [.ACT_1], following := [.REFpb], latency := fun V => V .nRC },
    { level := bank, preceding := [.PRE], following := [.REFpb], latency := fun V => V .nRPpb },
    { level := bank, preceding := [.RDA], following := [.REFpb],
      latency := fun V => V .nRTP + V .nRPpb },
    { level := bank, preceding := [.WRA], following := [.REFpb],
      latency := fun V => V .nCWL + V .nBL + V .nWR + V .nRPpb },
    { level := bank, preceding := [.REFpb], following := [.ACT_1],
      latency := fun V => V .nRFCpb } ]

def timingConsTable : Generation → List (TimingConsInitializer Cmd Timing)
  | .LPDDR4 => rankTimingCons ++ bankTimingCons
  | .LPDDR5 => rankTimingCons ++ bankgroupTimingCons ++ bankTimingCons

def timingVals (values : List Int) (t : Timing) : Int := values.getD t.ctorIdx (-1)

def aimTiming : Generation → List Int
  | .LPDDR4 =>
      [ 3200, 4, 20, 29, 49, 25, 79, 59, 49, 34, 29, 68, 101, 29, 12, 11, 6, 16, 16, 16, 64,
        2, -1, -1, -1, -1, -1, 2, 0, 1, 1, 1, 1, 32, 625 ]
  | .LPDDR5 =>
      [ 6400, 4, 20, 15, 56, 25, 86, 66, 48, 17, 15, 34, 30, 28, 4, 11, 4, 4, 5, 10, 16, 2,
        -1, -1, -1, -1, -1, 2, 0, 1, 1, 1, 1, 32, 1250 ]

/-- `set_timing_vals` from a preset.  The refresh timings, looked up by the density and rounded
to cycles, are taken as they are; the clock is that of the rate. -/
def setTimingVals (preset : List Int) (nRFCab nRFCpb nPBR2PBR nPBR2ACT nREFI : Int)
    (t : Timing) : Int :=
  match t with
  | .tCK_ps => (1000000 : Int).tdiv ((timingVals preset .rate).tdiv 2)
  | .nRFCab => nRFCab
  | .nRFCpb => nRFCpb
  | .nPBR2PBR => nPBR2PBR
  | .nPBR2ACT => nPBR2ACT
  | .nREFI => nREFI
  | .nCLREG => 0
  | .nCLGB | .nCWLREG | .nCWLGB | .nWPRE => 1
  | _ => timingVals preset t

/-- The timings of `LPDDR4_AiM_timing` for a density of 4 Gb, and of `LPDDR5_AiM_timing` for one
of 2 Gb. -/
def aimVals : Generation → Timing → Int
  | .LPDDR4 => setTimingVals (aimTiming .LPDDR4) 288 144 144 13 6250
  | .LPDDR5 => setTimingVals (aimTiming .LPDDR5) 417 193 193 26 12520

/-! ## Actions -/

/-- `node->m_final_synced_cycle = cycle`. -/
def setFinalSyncedCycle (cycle : Int) (node : DRAMNode Cmd St Int 2) : DRAMNode Cmd St Int 2 :=
  .node { node.base with ext := cycle } node.children

/-- `ACTION_DEF(OP)`: the action of the CAS form of `op`. -/
def casAction (V : Timing → Int) (op : Cmd) : ActionFunc Cmd St Int 2 :=
  fun node _ clk => setFinalSyncedCycle (clk + commandLatencies V op + 1) node

def syncAction (V : Timing → Int) (op : Cmd) : ActionFunc Cmd St Int 2 :=
  fun node _ clk => setFinalSyncedCycle (clk + commandLatencies V op) node

def actions (V : Timing → Int) : (d : Nat) → Cmd → Option (ActionFunc Cmd St Int d)
  | 3 => fun
    | .ACT8_2 => some (Action.Channel.ACTab row .Opened)
    | _ => none
  | 2 => fun
    | .PREA => some (Action.Rank.PREab .Closed)
    | .ACT8_1 => some (Action.openBanks row .PreOpened)
    | .CASRD => some (casAction V .RD)
    | .CASWR => some (casAction V .WR)
    | .CASWRGB => some (casAction V .WRGB)
    | .CASWRMAC8 => some (casAction V .WRMAC8)
    | .CASRDMAC8 => some (casAction V .RDMAC8)
    | .CASRDAF8 => some (casAction V .RDAF8)
    | .CASWRA8 => some (casAction V .WRA8)
    | .RD => some (syncAction V .RD)
    | .WR => some (syncAction V .WR)
    | .WRGB => some (syncAction V .WRGB)
    | .WRMAC8 => some (syncAction V .WRMAC8)
    | .RDMAC8 => some (syncAction V .RDMAC8)
    | .RDAF8 => some (syncAction V .RDAF8)
    | .WRA8 => some (syncAction V .WRA8)
    | _ => none
  | 1 => fun
    | .ACT4_1 => some (Action.openBanks row .PreOpened)
    | .ACT4_2 => some (Action.BankGroup.ACT4b row .Opened)
    | .PRE4 => some (Action.BankGroup.PRE4b .Closed)
    | _ => none
  | 0 => fun
    | .ACT_1 => some (Action.openBanks row .PreOpened)
    | .ACT_2 => some (Action.Bank.ACT row .Opened)
    | .PRE => some (Action.Bank.PRE .Closed)
    | .RDA => some (Action.Bank.PRE .Closed)
    | .WRA => some (Action.Bank.PRE .Closed)
    | _ => none
  | _ => fun _ => none

/-! ## Prerequisites -/

/-- The common part of `PREQ_BANK_ACT_SYNC_DEF` and `PREQ_BANK_ACT_DEF`; `hit` is the
answer for a bank opened with the row.  In any other state the source exits. -/
def preqBankAct (hit : List (NodeBase Cmd St Int) → Int → Cmd) : PreqFunc Cmd St Int 0 :=
  fun up node addrVec clk =>
    match node.base.state with
    | .Closed => some .ACT_1
    | .PreOpened => some .ACT_2
    | .Opened => if node.base.hasRow (addrVec.at row) then some (hit up clk) else some .PRE
    | .PowerUp | .NA => some (hit up clk)

/-- `rank->m_final_synced_cycle < clk`. -/
def needsSync (rank : NodeBase Cmd St Int) (clk : Int) : Bool := decide (rank.ext < clk)

/-- `PREQ_BANK_ACT_SYNC_DEF`; the rank is the parent of the parent of the bank. -/
def preqBankActSync (op casOp : Cmd) : PreqFunc Cmd St Int 0 :=
  preqBankAct fun up clk =>
    if (up[1]?).any fun rank => needsSync rank clk then casOp else op

/-- `PREQ_BANK_ACT_DEF`. -/
def preqBankActPlain (op : Cmd) : PreqFunc Cmd St Int 0 := preqBankAct fun _ _ => op

/-- `PREQ_RANK_ACT_DEF`. -/
def preqRankAct (op : Cmd) : PreqFunc Cmd St Int 2 :=
  fun _ node addrVec _ =>
    if (node.banks 2).any fun bank =>
        bank.state = .Opened && !bank.hasRow (addrVec.at row) then some .PREA
    else if (node.banks 2).any fun bank => bank.state = .Closed then some .ACT8_1
    else if (node.banks 2).any fun bank => bank.state = .PreOpened then some .ACT8_2
    else some op

/-- `PREQ_RANK_SYNC_DEF`. -/
def preqRankSync (op casOp : Cmd) : PreqFunc Cmd St Int 2 :=
  fun _ node _ clk => some (if needsSync node.base clk then casOp else op)

/-- The lambda of `REFpb`, also used for `RFMpb`.  Its `switch` is over the state of the
rank node, not of the bank found. -/
def preqPerBank (banksPerBankgroup : Int) (cmd : Cmd) : PreqFunc Cmd St Int 2 :=
  fun _ node addrVec _ =>
    let targetId := addrVec.at bankgroup
    let found := node.children.any fun bg => bg.children.any fun bank =>
      let flatBankid := bank.base.nodeId + bg.base.nodeId * banksPerBankgroup
      flatBankid = targetId || flatBankid = targetId + 8
    if found && (node.base.state = .PreOpened || node.base.state = .Opened) then some .PRE
    else some cmd

/-- `set_preqs`.  `PREQ_RANK_SYNC_DEF(WRA8)` replaces the rank activation registered
first. -/
def preqs (banksPerBankgroup : Int) : (d : Nat) → Cmd → Option (PreqFunc Cmd St Int d)
  | 2 => fun
    | .REFab => some (Preq.RequireAllBanksClosed .Closed .PREA .REFab)
    | .RFMab => some (Preq.RequireAllBanksClosed .Closed .PREA .RFMab)
    | .REFpb => some (preqPerBank banksPerBankgroup .REFpb)
    | .RFMpb => some (preqPerBank banksPerBankgroup .RFMpb)
    | .MAC8 => some (preqRankAct .MAC8)
    | .AF8 => some (preqRankAct .AF8)
    | .EWMUL8 => some (preqRankAct .EWMUL8)
    | .WRGB => some (preqRankSync .WRGB .CASWRGB)
    | .WRMAC8 => some (preqRankSync .WRMAC8 .CASWRMAC8)
    | .RDMAC8 => some (preqRankSync .RDMAC8 .CASRDMAC8)
    | .RDAF8 => some (preqRankSync .RDAF8 .CASRDAF8)
    | .WRA8 => some (preqRankSync .WRA8 .CASWRA8)
    | _ => none
  | 0 => fun
    | .RD => some (preqBankActSync .RD .CASRD)
    | .WR => some (preqBankActSync .WR .CASWR)
    | .RDA => some (preqBankActSync .RDA .CASRD)
    | .WRA => some (preqBankActSync .WRA .CASWR)
    | .RDCP => some (preqBankActPlain .RDCP)
    | .WRCP => some (preqBankActPlain .WRCP)
    | .MAC => some (preqBankActPlain .MAC)
    | _ => none
  | _ => fun _ => none

/-! ## The open-row mask -/

/-- The bits of the four banks that the source counts to a bank group. -/
def bankgroupBits (bankgroupId : Int) : BitVec 16 :=
  bankBit (bankgroupId * 4) ||| bankBit (bankgroupId * 4 + 1) |||
    bankBit (bankgroupId * 4 + 2) ||| bankBit (bankgroupId * 4 + 3)

/-- The mask that `ACT8-2` of LPDDR4 builds over all banks of the organisation. -/
def openMask (numBanks : Nat) : BitVec 16 :=
  (List.range numBanks).foldl (fun mask (bankId : Nat) => mask ||| bankBit bankId) 0

def openRowsAfter (gen : Generation) (count : Nat → Int) (cmd : Cmd) (addrVec : AddrVec)
    (openRows : BitVec 16) : BitVec 16 :=
  match cmd with
  | .WRA8 | .PREA => 0
  | .PRE4 => openRows &&& ~~~ bankgroupBits (addrVec.at bankgroup)
  | .PRE | .RDA | .WRA => openRows &&& ~~~ bankBit (addrVec.at bank)
  | .ACT8_2 =>
      match gen with
      | .LPDDR4 => openMask (count bankgroup * count bank).toNat
      | .LPDDR5 => 0xFFFF
  | .ACT4_2 => openRows ||| bankgroupBits (addrVec.at bankgroup)
  | .ACT_2 => openRows ||| bankBit (addrVec.at bank)
  | _ => openRows

def initStates (level : Nat) : St :=
  if level = bank then .Closed else if level = rank then .PowerUp else .NA

/-- The model of a generation with the level sizes `count` and timing values `V`. -/
def model (gen : Generation) (count : Nat → Int) (V : Timing → Int) :
    DRAMModel Cmd St Int where
  commandId := Cmd.ctorIdx
  commandOne := .ACT_2
  commandScopes := commandScopes
  bankLevel := bank
  timingCons := populateTimingcons V (timingConsTable gen)
  initStates := initStates
  initExt := -1
  actions := actions V
  preqs := preqs (count bank)
  commandMeta := commandMeta
  commandLatencies := commandLatencies V
  requestTranslations := requestTranslations
  aimRequestTranslations := aimRequestTranslations
  tmod := .TMOD
  numRanks := count rank
  nREFI := V .nREFI
  openRowsAfter := openRowsAfter gen count

end AimSimulator.Dram.LPDDR
