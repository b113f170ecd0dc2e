import AimSimulator.Dram.Device
import AimSimulator.Dram.Lambdas
/-!
# The GDDR6 device model

`dram/impl/GDDR6.cpp`: organisation, commands, translations, timing table, actions
and prerequisites.  The values of the timing parameters are an argument `V`.
-/

namespace AimSimulator.Dram.GDDR6

/-- `m_commands`; the id of a command is its position. -/
inductive Cmd
  | ACT | PREA | PRE | RD | WR | RDA | WRA | REFab | REFpb | ACT4 | ACT16 | PRE4 | MAC
  | MAC16 | AF16 | EWMUL16 | RDCP | WRCP | WRGB | RDMAC16 | RDAF16 | WRMAC16 | WRA16 | TMOD
  | SYNC | EOC | UNKNOWN
  deriving DecidableEq, Repr

/-- `m_states`. -/
inductive St
  | Opened | Closed | PowerUp | NA
  deriving DecidableEq, Repr

/-- `m_timings`. -/
inductive Timing
  | rate | nBL | nCL | nRCDRD | nRCDRDMAC | nRCDEWMUL | nRCDRDAF | nRCDRDCP | nRCDWR
  | nRCDWRCP | nRP | nRAS | nRC | nWR | nRTP | nCWL | nCCDS | nCCDL | nRRDS | nRRDL | nWTRS
  | nWTRL | nFAW | nRFC | nREFI | nRREFD | nRFCpb | nCLREG | nCLGB | nCWLREG | nCWLGB | nWPRE
  | nMODCH | tCK_ps
  deriving DecidableEq, Repr

/-! ## Organisation -/

/-- The levels `m_levels` that stand in the tables. -/
abbrev channel : Nat := 0
abbrev bankgroup : Nat := 1
abbrev bank : Nat := 2
abbrev row : Nat := 3
abbrev column : Nat := 4

def orgPresets : List (String × Organization) :=
  [ ("GDDR6_8Gb_x8", ⟨8192, 8, [2, 4, 4, 16384, 2048]⟩),
    ("GDDR6_8Gb_x16", ⟨8192, 16, [2, 4, 4, 16384, 1024]⟩),
    ("GDDR6_16Gb_x8", ⟨16384, 8, [2, 4, 4, 32768, 2048]⟩),
    ("GDDR6_16Gb_x16", ⟨16384, 16, [2, 4, 4, 16384, 2048]⟩),
    ("GDDR6_32Gb_x8", ⟨32768, 8, [2, 4, 4, 65536, 2048]⟩),
    ("GDDR6_32Gb_x16", ⟨32768, 16, [2, 4, 4, 32768, 2048]⟩),
    ("GDDR6_AiM_org", ⟨131072, 16, [32, 4, 4, 16384, 1024]⟩) ]

/-- `m_command_scopes`; `UNKNOWN` has no entry and keeps level `0`. -/
def commandScopes : Cmd → Nat
  | .REFab | .ACT16 | .PREA | .MAC16 | .AF16 | .EWMUL16 | .WRGB | .RDMAC16 | .RDAF16
  | .WRMAC16 | .WRA16 | .TMOD | .SYNC | .EOC | .UNKNOWN => channel
  | .ACT4 | .PRE4 => bankgroup
  | .REFpb | .PRE => bank
  | .ACT => row
  | .RD | .WR | .RDA | .WRA | .MAC | .RDCP | .WRCP => column

def commandMeta : Cmd → DRAMCommandMeta
  | .ACT | .ACT4 | .ACT16 => { isOpening := true }
  | .PREA | .PRE | .PRE4 => { isClosing := true }
  | .RD | .WR | .MAC | .MAC16 | .EWMUL16 | .RDCP | .WRCP => { isAccessing := true }
  | .RDA | .WRA | .WRA16 => { isClosing := true, isAccessing := true }
  | .REFab | .REFpb => { isRefreshing := true }
  | .AF16 | .WRGB | .RDMAC16 | .RDAF16 | .WRMAC16 | .TMOD | .SYNC | .EOC | .UNKNOWN => {}

/-! ## Requests -/

def requestTranslations : ReqType → Option Cmd
  | .Read => some .RD
  | .Write => some .WR
  | .RefAllBank => some .REFab
  | .RefSingleBank => some .PRE
  | .AIM | .MAX => none

/-- `m_aim_request_translations`, indexed by the opcode of a request.  The table
names `ISR_SYNC` before `ISR_EOC`, the enumeration the other way round. -/
def aimRequestTranslations : Opcode → Option Cmd
  | .MIN => some .UNKNOWN
  | .ISR_WR_SBK => some .WR
  | .ISR_WR_GB => some .WRGB
  | .ISR_WR_BIAS => some .WRMAC16
  | .ISR_WR_AFLUT => some .UNKNOWN
  | .ISR_RD_MAC => some .RDMAC16
  | .ISR_RD_AF => some .RDAF16
  | .ISR_RD_SBK => some .RD
  | .ISR_COPY_BKGB => some .RDCP
  | .ISR_COPY_GBBK => some .WRCP
  | .ISR_MAC_SBK => some .MAC
  | .ISR_MAC_ABK => some .MAC16
  | .ISR_AF => some .AF16
  | .ISR_EWMUL => some .EWMUL16
  | .ISR_EWADD => some .UNKNOWN
  | .ISR_WR_ABK => some .WRA16
  | .ISR_EOC => some .SYNC
  | .ISR_SYNC => some .EOC
  | .MAX => some .UNKNOWN

/-! ## Timing -/

def commandLatencies (V : Timing → Int) : Cmd → Int
  | .WR => V .nCWL + V .nBL
  | .WRGB => V .nCWLGB + V .nBL
  | .WRMAC16 => V .nCWLREG + V .nBL
  | .RDMAC16 | .RDAF16 => V .nCLREG + V .nBL
  | .RD => V .nCL + V .nBL
  | .RDCP | .WRCP | .MAC | .MAC16 | .AF16 | .EWMUL16 | .SYNC | .EOC => 1
  | .WRA16 => V .nCWL + V .nBL + V .nRP
  | .ACT | .PREA | .PRE | .RDA | .WRA | .REFab | .REFpb | .ACT4 | .ACT16 | .PRE4 | .TMOD
  | .UNKNOWN => -1

def timingConsTable : List (TimingConsInitializer Cmd Timing) :=
  [
    -- CAS <-> CAS
    { level := channel, preceding := [.RD, .RDA, .RDMAC16, .RDAF16],
      following := [.RD, .RDA, .RDMAC16, .RDAF16], latency := fun V => V .nBL },
    { level := channel, preceding := [.WR, .WRA, .WRA16, .WRGB, .WRMAC16],
      following := [.WR, .WRA, .WRA16, .WRGB, .WRMAC16], latency := fun V => V .nBL },
    -- CAS <-> CAS
    { level := channel, preceding := [.RD, .RDA, .MAC, .MAC16, .RDCP, .RDMAC16, .RDAF16],
      following := [.RD, .RDA, .MAC, .MAC16, .RDCP, .RDMAC16, .RDAF16],
      latency := fun V => V .nCCDS },
    { level := channel, preceding := [.WR, .WRA, .WRA16, .WRGB, .WRCP, .WRMAC16],
      following := [.WR, .WRA, .WRA16, .WRGB, .WRCP, .WRMAC16], latency := fun V => V .nCCDS },
    { level := channel,
      preceding := [.RD, .RDA, .MAC, .RDCP, .RDMAC16, .RDAF16, .MAC16, .EWMUL16],
      following := [.RDMAC16, .RDAF16, .MAC16, .EWMUL16], latency := fun V => V .nCCDL },
    { level := channel, preceding := [.RDMAC16, .RDAF16, .MAC16, .EWMUL16],
      following := [.RD, .RDA, .MAC, .RDCP, .RDMAC16, .RDAF16, .MAC16, .EWMUL16],
      latency := fun V => V .nCCDL },
    { level := channel, preceding := [.WR, .WRA, .WRCP, .WRA16, .WRMAC16, .EWMUL16],
      following := [.WRA16, .WRMAC16, .EWMUL16], latency := fun V => V .nCCDL },
    { level := channel, preceding := [.WRA16, .WRMAC16, .EWMUL16],
      following := [.WR, .WRA, .WRCP, .WRA16, .WRMAC16, .EWMUL16],
      latency := fun V => V .nCCDL },
    -- RD <-> WR
    { level := channel, preceding := [.RD, .RDA], following := [.WR, .WRA],
      latency := fun V => V .nCL + V .nBL + 3 - V .nCWL + V .nWPRE },
    { level := channel, preceding := [.RD, .RDA], following := [.WRA16],
      latency := fun V => V .nCL + V .nBL + 3 - V .nCWL + V .nWPRE },
    { level := channel, preceding := [.RDMAC16, .RDAF16], following := [.WR, .WRA],
      latency := fun V => V .nCLREG + V .nBL + 3 - V .nCWL + V .nWPRE },
    { level := channel, preceding := [.RDMAC16, .RDAF16], following := [.WRA16],
      latency := fun V => V .nCLREG + V .nBL + 3 - V .nCWL + V .nWPRE },
    { level := channel, preceding := [.RD, .RDA], following := [.WRGB],
      latency := fun V => V .nCL + V .nBL + 3 - V .nCWLGB + V .nWPRE },
    { level := channel, preceding := [.RD, .RDA], following := [.WRMAC16],
      latency := fun V => V .nCL + V .nBL + 3 - V .nCWLREG + V .nWPRE },
    { level := channel, preceding := [.RDMAC16, .RDAF16], following := [.WRGB],
      latency := fun V => V .nCLREG + V .nBL + 3 - V .nCWLGB + V .nWPRE },
    { level := channel, preceding := [.RDMAC16, .RDAF16], following := [.WRMAC16],
      latency := fun V => V .nCLREG + V .nBL + 3 - V .nCWLREG + V .nWPRE },
    -- WR <-> RD
    { level := channel, preceding := [.WR, .WRA], following := [.RD, .RDA, .RDMAC16, .RDAF16],
      latency := fun V => V .nCWL + V .nBL + V .nWTRS },
    { level := channel, preceding := [.WRA16], following := [.RD, .RDA, .RDMAC16, .RDAF16],
      latency := fun V => V .nCWL + V .nBL + V .nWTRS },
    { level := channel, preceding := [.WRGB], following := [.RD, .RDA, .RDMAC16, .RDAF16],
      latency := fun V => V .nCWLGB + V .nBL + V .nWTRS },
    { level := channel, preceding := [.WRMAC16], following := [.RD, .RDA, .RDMAC16, .RDAF16],
      latency := fun V => V .nCWLREG + V .nBL + V .nWTRS },
    { level := channel, preceding := [.WR, .WRA], following := [.RDMAC16, .RDAF16],
      latency := fun V => V .nCWL + V .nBL + V .nWTRL },
    { level := channel, preceding := [.WRA16], following := [.RD, .RDA, .RDMAC16, .RDAF16],
      latency := fun V => V .nCWL + V .nBL + V .nWTRL },
    { level := channel, preceding := [.WRMAC16], following := [.RD, .RDA, .RDMAC16, .RDAF16],
      latency := fun V => V .nCWLREG + V .nBL + V .nWTRL },
    -- CAS <-> PREA
    { level := channel, preceding := [.RD, .RDCP, .MAC, .MAC16, .AF16, .EWMUL16],
      following := [.PREA], latency := fun V => V .nRTP },
    { level := channel, preceding := [.MAC16, .AF16, .EWMUL16], following := [.PRE, .PRE4],
      latency := fun V => V .nRTP },
    { level := channel, preceding := [.WR, .WRCP], following := [.PREA],
      latency := fun V => V .nCWL + V .nBL + V .nWR },
    { level := channel, preceding := [.EWMUL16], following := [.PRE, .PRE4, .PREA],
      latency := fun V => V .nCWL + V .nWR },
    -- RAS <-> RAS
    { level := channel, preceding := [.ACT, .ACT4], following := [.ACT, .ACT4],
      latency := fun V => V .nRRDS },
    { level := channel, preceding := [.ACT, .ACT4, .ACT16], following := [.ACT16],
      latency := fun V => V .nRRDL },
    { level := channel, preceding := [.ACT16], following := [.ACT, .ACT4, .ACT16],
      latency := fun V => V .nRRDL },
    { level := channel, preceding := [.ACT, .ACT4, .ACT16], following := [.ACT16],
      latency := fun V => V .nRC },
    { level := channel, preceding := [.ACT16], following := [.ACT, .ACT4, .ACT16],
      latency := fun V => V .nRC },
    { level := channel, preceding := [.ACT, .ACT4, .ACT16], following := [.PREA],
      latency := fun V => V .nRAS },
    { level := channel, preceding := [.ACT16], following := [.PRE, .PRE4],
      latency := fun V => V .nRAS },
    { level := channel, preceding := [.PRE, .PRE4, .PREA], following := [.ACT16],
      latency := fun V => V .nRP },
    { level := channel, preceding := [.PREA], following := [.ACT, .ACT4, .ACT16],
      latency := fun V => V .nRP },
    { level := channel, preceding := [.ACT, .ACT4, .ACT16], following := [.MAC16],
      latency := fun V => V .nRCDRDMAC },
    { level := channel, preceding := [.ACT, .ACT4, .ACT16], following := [.AF16],
      latency := fun V => V .nRCDRDAF },
    { level := channel, preceding := [.ACT, .ACT4, .ACT16], following := [.EWMUL16],
      latency := fun V => V .nRCDEWMUL },
    { level := channel, preceding := [.ACT16], following := [.MAC],
      latency := fun V => V .nRCDRDMAC },
    { level := channel, preceding := [.ACT16], following := [.RDCP],
      latency := fun V => V .nRCDRDCP },
    { level := channel, preceding := [.ACT16], following := [.RD, .RDA],
      latency := fun V => V .nRCDRD },
    { level := channel, preceding := [.ACT, .ACT4, .ACT16], following := [.WRA16],
      latency := fun V => V .nRCDWR },
    { level := channel, preceding := [.ACT16], following := [.WRCP],
      latency := fun V => V .nRCDWRCP },
    { level := channel, preceding := [.ACT16], following := [.WR, .WRA],
      latency := fun V => V .nRCDWR },
    { level := channel, preceding := [.RDA], following := [.ACT16],
      latency := fun V => V .nRTP + V .nRP },
    { level := channel, preceding := [.WRA], following := [.ACT16],
      latency := fun V => V .nCWL + V .nBL + V .nWR + V .nRP },
    { level := channel, preceding := [.WRA16], following := [.ACT, .ACT4, .ACT16],
      latency := fun V => V .nCWL + V .nBL + V .nWR + V .nRP },
    -- RAS <-> REF
    { level := channel, preceding := [.ACT, .ACT4, .ACT16], following := [.REFab],
      latency := fun V => V .nRC },
    { level := channel, preceding := [.PRE, .PRE4, .PREA], following := [.REFab],
      latency := fun V => V .nRP },
    { level := channel, preceding := [.RDA], following := [.REFab],
      latency := fun V => V .nRTP + V .nRP },
    { level := channel, preceding := [.WRA], following := [.REFab],
      latency := fun V => V .nCWL + V .nBL + V .nWR + V .nRP },
    { level := channel, preceding := [.WRA16], following := [.REFpb, .REFab],
      latency := fun V => V .nCWL + V .nBL + V .nWR + V .nRP },
    { level := channel, preceding := [.REFab], following := [.ACT, .ACT4, .ACT16],
      latency := fun V => V .nRFC },
    -- RAS <-> REFpb
    { level := channel, preceding := [.ACT, .ACT4, .ACT16], following := [.REFpb],
      latency := fun V => V .nRRDL },
    { level := channel, preceding := [.ACT16], following := [.REFpb],
      latency := fun V => V .nRC },
    { level := channel, preceding := [.PREA], following := [.REFpb],
      latency := fun V => V .nRP },
    { level := channel, preceding := [.REFpb], following := [.ACT16],
      latency := fun V => V .nRFCpb },
    { level := channel, preceding := [.REFpb], following := [.ACT, .ACT4, .ACT16],
      latency := fun V => V .nRREFD },
    { level := channel, preceding := [.PREA], following := [.PRE, .PRE4, .PREA],
      latency := fun V => V .nRP },
    { level := channel, preceding := [.PRE, .PRE4], following := [.PREA],
      latency := fun V => V .nRP },
    { level := channel, preceding := [.TMOD],
      following := [.ACT, .PREA, .PRE, .RD, .WR, .RDA, .WRA, .REFab, .REFpb, .ACT4, .ACT16,
        .PRE4, .MAC, .MAC16, .AF16, .EWMUL16, .RDCP, .WRCP, .WRGB, .RDMAC16, .RDAF16,
        .WRMAC16, .WRA16, .SYNC, .EOC], latency := fun V => V .nMODCH },
    -- CAS <-> CAS
    { level := bankgroup, preceding := [.RD, .RDA, .MAC, .RDCP],
      following := [.RD, .RDA, .MAC, .RDCP], latency := fun V => V .nCCDL },
    { level := bankgroup, preceding := [.WR, .WRA, .WRCP], following := [.WR, .WRA, .WRCP],
      latency := fun V => V .nCCDL },
    -- WR <-> RD
    { level := bankgroup, preceding := [.WR, .WRA], following := [.RD, .RDA],
      latency := fun V => V .nCWL + V .nBL + V .nWTRL },
    -- CAS <-> PRE4
    { level := bankgroup, preceding := [.RD, .RDCP, .MAC], following := [.PRE4],
      latency := fun V => V .nRTP },
    { level := bankgroup, preceding := [.WR, .WRCP], following := [.PRE4],
      latency := fun V => V .nCWL + V .nBL + V .nWR },
    -- RAS <-> RAS
    { level := bankgroup, preceding := [.ACT, .ACT4], following := [.ACT, .ACT4],
      latency := fun V => V .nRRDL },
    { level := bankgroup, preceding := [.ACT, .ACT4], following := [.ACT4],
      latency := fun V => V .nRC },
    { level := bankgroup, preceding := [.ACT4], following := [.ACT, .ACT4],
      latency := fun V => V .nRC },
    { level := bankgroup, preceding := [.ACT, .ACT4], following := [.PRE4],
      latency := fun V => V .nRAS },
    { level := bankgroup, preceding := [.ACT4], following := [.PRE],
      latency := fun V => V .nRAS },
    { level := bankgroup, preceding := [.PRE, .PRE4], following := [.ACT4],
      latency := fun V => V .nRP },
    { level := bankgroup, preceding := [.PRE4], following := [.ACT],
      latency := fun V => V .nRP },
    { level := bankgroup, preceding := [.RDA], following := [.ACT4],
      latency := fun V => V .nRTP + V .nRP },
    { level := bankgroup, preceding := [.WRA], following := [.ACT4],
      latency := fun V => V .nCWL + V .nBL + V .nWR + V .nRP },
    -- RAS <-> REFpb
    { level := bankgroup, preceding := [.ACT4], following := [.REFpb],
      latency := fun V => V .nRC },
    { level := bankgroup, preceding := [.PRE4], following := [.REFpb],
      latency := fun V => V .nRP },
    { level := bankgroup, preceding := [.REFpb], following := [.ACT4],
      latency := fun V => V .nRFCpb },
    -- CAS <-> RAS
    { level := bankgroup, preceding := [.ACT4], following := [.MAC],
      latency := fun V => V .nRCDRDMAC },
    { level := bankgroup, preceding := [.ACT4], following := [.RDCP],
      latency := fun V => V .nRCDRDCP },
    { level := bankgroup, preceding := [.ACT4], following := [.RD, .RDA],
      latency := fun V => V .nRCDRD },
    { level := bankgroup, preceding := [.ACT4], following := [.WRCP],
      latency := fun V => V .nRCDWRCP },
    { level := bankgroup, preceding := [.ACT4], following := [.WR, .WRA],
      latency := fun V => V .nRCDWR },
    { level := channel, preceding := [.PRE4], following := [.PRE, .PRE4],
      latency := fun V => V .nRP },
    { level := channel, preceding := [.PRE], following := [.PRE4], latency := fun V => V .nRP },
    -- CAS <-> RAS
    { level := bank, preceding := [.ACT], following := [.MAC],
      latency := fun V => V .nRCDRDMAC },
    { level := bank, preceding := [.ACT], following := [.RDCP],
      latency := fun V => V .nRCDRDCP },
    { level := bank, preceding := [.ACT], following := [.RD, .RDA],
      latency := fun V => V .nRCDRD },
    { level := bank, preceding := [.ACT], following := [.WRCP],
      latency := fun V => V .nRCDWRCP },
    { level := bank, preceding := [.ACT], following := [.WR, .WRA],
      latency := fun V => V .nRCDWR },
    { level := bank, preceding := [.RD, .RDCP, .MAC], following := [.PRE],
      latency := fun V => V .nRTP },
    { level := bank, preceding := [.WR, .WRCP], following := [.PRE],
      latency := fun V => V .nCWL + V .nBL + V .nWR },
    -- RAS <-> RAS
    { level := bank, preceding := [.ACT], following := [.ACT], latency := fun V => V .nRC },
    { level := bank, preceding := [.ACT], following := [.PRE], latency := fun V => V .nRAS },
    { level := bank, preceding := [.PRE], following := [.ACT], latency := fun V => V .nRP },
    { level := bank, preceding := [.PRE], following := [.PRE], latency := fun V => V .nRP },
    { level := bank, preceding := [.RDA], following := [.ACT],
      latency := fun V => V .nRTP + V .nRP },
    { level := bank, preceding := [.WRA], following := [.ACT],
      latency := fun V => V .nCWL + V .nBL + V .nWR + V .nRP },
    -- RAS <-> REFpb
    { level := bank, preceding := [.ACT], following := [.REFpb], latency := fun V => V .nRC },
    { level := bank, preceding := [.PRE], following := [.REFpb], latency := fun V => V .nRP },
    { level := bank, preceding := [.RDA], following := [.REFpb],
      latency := fun V => V .nRTP + V .nRP },
    { level := bank, preceding := [.WRA], following := [.REFpb],
      latency := fun V => V .nCWL + V .nBL + V .nWR + V .nRP },
    { level := bank, preceding := [.REFpb], following := [.ACT], latency := fun V => V .nRFCpb } ]

def timingVals (values : List Int) (t : Timing) : Int := values.getD t.ctorIdx (-1)

def aimTiming : List Int :=
  [ 2000, 2, 50, 36, 56, 25, 86, 66, 28, 48, 32, 54, 89, 33, 12, 6, 2, 2, 11, 11, 9, 11, 42,
    210, 105, 21, 3333, 0, 1, 1, 1, 1, 32, 500 ]

def timingPresets : List (String × List Int) :=
  [ ("GDDR6_2000_1350mV_double",
      [ 2000, 8, 24, 26, 26, 26, 26, 30, 16, 16, 26, 53, 79, 26, 4, 6, 4, 6, 7, 7, 9, 11, 28,
        210, 105, 14, 3333, 0, 1, 1, 1, 1, 32, 570 ]),
    ("GDDR6_2000_1250mV_double",
      [ 2000, 8, 24, 30, 30, 30, 30, 30, 19, 19, 30, 60, 89, 30, 4, 6, 4, 6, 11, 11, 9, 11, 42,
        210, 105, 21, 3333, 0, 1, 1, 1, 1, 32, 570 ]),
    ("GDDR6_2000_1350mV_quad",
      [ 2000, 4, 24, 26, 26, 26, 26, 30, 16, 16, 26, 53, 79, 26, 4, 6, 4, 6, 7, 7, 9, 11, 28,
        210, 105, 14, 3333, 0, 1, 1, 1, 1, 32, 570 ]),
    ("GDDR6_2000_1250mV_quad",
      [ 2000, 4, 24, 30, 30, 30, 30, 30, 19, 19, 30, 60, 89, 30, 4, 6, 4, 6, 11, 11, 9, 11, 42,
        210, 105, 21, 3333, 0, 1, 1, 1, 1, 32, 570 ]),
    ("GDDR6_AiM_timing", aimTiming) ]

def secondaryTiming (dq rate x8 x16 preset : Int) : Int :=
  if rate = 2000 then if dq = 8 then x8 else if dq = 16 then x16 else preset else preset

/-- `set_timing_vals` from a preset.  `nRFC` and `nREFI` are rounded from floating point
values and taken as they are. -/
def setTimingVals (preset : List Int) (dq nRFC nREFI : Int) (t : Timing) : Int :=
  let value := timingVals preset t
  let rate := timingVals preset .rate
  match t with
  | .nRRDS => secondaryTiming dq rate 4 5 value
  | .nRRDL => secondaryTiming dq rate 5 6 value
  | .nFAW => secondaryTiming dq rate 20 28 value
  | .nRFC => nRFC
  | .nREFI => nREFI
  | .nCLREG => 0
  | .nCLGB | .nCWLREG | .nCWLGB | .nWPRE => 1
  | _ => value

/-! ## Actions and prerequisites -/

def actions : (d : Nat) → Cmd → Option (ActionFunc Cmd St Unit d)
  | 2 => fun
    | .WRA16 => some (Action.Channel.PREab .Closed)
    | .PREA => some (Action.Channel.PREab .Closed)
    | .ACT16 => some (Action.Channel.ACTab row .Opened)
    | _ => none
  | 1 => fun
    | .PRE4 => some (Action.BankGroup.PRE4b .Closed)
    | .ACT4 => some (Action.BankGroup.ACT4b row .Opened)
    | _ => none
  | 0 => fun
    | .ACT => some (Action.Bank.ACT row .Opened)
    | .PRE => some (Action.Bank.PRE .Closed)
    | .RDA => some (Action.Bank.PRE .Closed)
    | .WRA => some (Action.Bank.PRE .Closed)
    | _ => none
  | _ => fun _ => none

/-- `Preq::Bank::RequireRowOpen<GDDR6>`. -/
def requireRowOpen (cmd : Cmd) : PreqFunc Cmd St Unit 0 :=
  Preq.Bank.RequireRowOpen row .Closed .Opened .ACT .PRE cmd

/-- `Preq::Channel::RequireAllRowsOpen<GDDR6>`. -/
def requireAllRowsOpen (cmd : Cmd) : PreqFunc Cmd St Unit 2 :=
  Preq.Channel.RequireAllRowsOpen row .Closed .PREA .ACT16 cmd

def preqs : (d : Nat) → Cmd → Option (PreqFunc Cmd St Unit d)
  | 2 => fun
    | .REFab => some (Preq.RequireAllBanksClosed .Closed .PREA .REFab)
    | .WRA16 => some (requireAllRowsOpen .WRA16)
    | .MAC16 => some (requireAllRowsOpen .MAC16)
    | .AF16 => some (requireAllRowsOpen .AF16)
    | .EWMUL16 => some (requireAllRowsOpen .EWMUL16)
    | _ => none
  | 0 => fun
    | .RD => some (requireRowOpen .RD)
    | .WR => some (requireRowOpen .WR)
    | .RDA => some (requireRowOpen .RDA)
    | .WRA => some (requireRowOpen .WRA)
    | .RDCP => some (requireRowOpen .RDCP)
    | .WRCP => some (requireRowOpen .WRCP)
    | .MAC => some (requireRowOpen .MAC)
    | _ => none
  | _ => fun _ => none

/-! ## The open-row mask -/

/-- The bits of the four banks that the source counts to a bank group. -/
def bankgroupBits (bankgroupId : Int) : BitVec 16 :=
  bankBit (bankgroupId * 4) ||| bankBit (bankgroupId * 4 + 1) |||
    bankBit (bankgroupId * 4 + 2) ||| bankBit (bankgroupId * 4 + 3)

def openRowsAfter (cmd : Cmd) (addrVec : AddrVec) (openRows : BitVec 16) : BitVec 16 :=
  match cmd with
  | .WRA16 | .PREA => 0
  | .PRE4 => openRows &&& ~~~ bankgroupBits (addrVec.at bankgroup)
  | .PRE | .RDA | .WRA => openRows &&& ~~~ bankBit (addrVec.at bank)
  | .ACT16 => 0xFFFF
  | .ACT4 => openRows ||| bankgroupBits (addrVec.at bankgroup)
  | .ACT => openRows ||| bankBit (addrVec.at bank)
  | _ => openRows

def initStates (level : Nat) : St := if level = bank then .Closed else .NA

def model (V : Timing → Int) : DRAMModel Cmd St Unit where
  commandId := Cmd.ctorIdx
  commandOne := .PREA
  commandScopes := commandScopes
  bankLevel := bank
  timingCons := populateTimingcons V timingConsTable
  initStates := initStates
  initExt := ()
  actions := actions
  preqs := preqs
  commandMeta := commandMeta
  commandLatencies := commandLatencies V
  requestTranslations := requestTranslations
  aimRequestTranslations := aimRequestTranslations
  tmod := .TMOD
  numRanks := -1
  nREFI := V .nREFI
  openRowsAfter := openRowsAfter

def x16Organization : Organization := ⟨8192, 16, [2, 4, 4, 16384, 1024]⟩

/-- The timings of the preset `GDDR6_AiM_timing` for `GDDR6_8Gb_x16`: a refresh takes 360 ns and
is due every 7800 ns. -/
def aimVals : Timing → Int := setTimingVals aimTiming 16 720 15600

abbrev aimModel : DRAMModel Cmd St Unit := model aimVals

/-- A device of the organisation `GDDR6_8Gb_x16`. -/
def x16Device : aimModel.Dev := aimModel.createNodes x16Organization.countAt

end AimSimulator.Dram.GDDR6
