import Mathlib.Data.Int.Bitwise
import Mathlib.Logic.Function.Basic
import AimSimulator.Lib.MisraGries
import AimSimulator.Lib.Runs
import AimSimulator.Plugin.Activation
/-!
# Hydra

`dram_controller/impl/plugin/hydra.cpp`.  The plugin needs the command `VRR`, so its device
is the one of `DDR4-VRR.cpp`, with the levels channel, rank, bank group, bank, row and
column.  The random index and the order in which an `unordered_map` iterates are an argument
of `update`.  `none` is an exception of the source, a division by zero, a shift by a
negative number, an overflow of `int` in `setup` or an index outside a table.
-/

namespace AimSimulator.Plugin

open MisraGries Pending

/-- `m_rcc_policy`; any other string throws at the first eviction. -/
inductive RCCPolicy
  | RANDOM | MIN_COUNT | undefined
  deriving DecidableEq, Repr

/-- The sizes of the device and the parameters of the plugin. -/
structure HydraConfig where
  numChannels : Nat := 1
  numRanks : Nat
  numBankgroups : Nat
  numBanks : Nat
  numRows : Nat
  numColumns : Nat
  trackingThreshold : Nat
  groupThreshold : Nat
  rowGroupSize : Nat := 128
  resetPeriodClk : Nat
  rccNumPerRank : Nat := 4096
  rccPolicy : RCCPolicy := .RANDOM

def HydraConfig.levels (c : HydraConfig) : Levels where
  rank := 1
  bank := 3
  row := 4
  count := [c.numChannels, c.numRanks, c.numBankgroups, c.numBanks, c.numRows, c.numColumns]

def HydraConfig.numBanksPerRank (c : HydraConfig) : Nat := c.numBankgroups * c.numBanks

/-- What `setup` computes about the counters that are stored in the rows of a bank. -/
structure RctLayout where
  numCls : Nat
  counterBits : Nat
  totalRctClSize : Nat
  totalRctRowSize : Nat
  rctPerRow : Nat
  rctPerCl : Nat
  deriving DecidableEq

/-- `ceil(log2(n))`. -/
def ceilLog2 (n : Nat) : Nat := if n ≤ 1 then 0 else (n - 1).log2 + 1

def counterBits (trackingThreshold : Nat) : Nat := (ceilLog2 trackingThreshold + 7) / 8 * 8

/-- The layout of the counters.  No `float` of the division by `m_num_cls` is rounded over an
integer, since `m_total_rct_cl_size` is below `2^22`. -/
def rctLayout (numRows numColumns trackingThreshold : Nat) : Option RctLayout :=
  let numCls := numColumns / 8
  let counterBits := counterBits trackingThreshold
  let totalRctClSize := numRows * counterBits / 512
  if trackingThreshold = 0 ∨ counterBits = 0 ∨ numCls = 0 ∨ numRows * counterBits ≥ 2 ^ 31 ∨
      numCls * 512 ≥ 2 ^ 31 then none
  else
    some
      { numCls, counterBits, totalRctClSize
        totalRctRowSize := (totalRctClSize + numCls - 1) / numCls
        rctPerRow := numCls * 512 / counterBits
        rctPerCl := 512 / counterBits }

def RctLayout.generateRowColId (layout : RctLayout) (rowId : Int) : Int × Int :=
  (rowId.tdiv layout.rctPerRow,
    ((rowId.tmod layout.rctPerRow * layout.counterBits).tdiv 512) <<< (3 : Nat))

structure HydraParams extends HydraConfig, RctLayout where
  rowAddressBits : Nat
  bankAddressBits : Nat
  gctIndexBits : Nat
  rccIndexBits : Nat
  rccTagRowBits : Int
  rccTagBits : Int
  groupRctClSize : Nat

def HydraConfig.setup (c : HydraConfig) : Option HydraParams :=
  let gctEntriesPerBank := c.numRows / c.rowGroupSize
  let rccSetNum := c.rccNumPerRank / 16
  if c.numRows = 0 ∨ c.numBanksPerRank = 0 ∨ c.rowGroupSize = 0 ∨ gctEntriesPerBank = 0 ∨
      rccSetNum = 0 ∨ c.rowGroupSize * counterBits c.trackingThreshold ≥ 2 ^ 31 then none
  else
    (rctLayout c.numRows c.numColumns c.trackingThreshold).map fun layout =>
      { c, layout with
        rowAddressBits := c.numRows.log2
        bankAddressBits := c.numBanksPerRank.log2
        gctIndexBits := gctEntriesPerBank.log2
        rccIndexBits := rccSetNum.log2
        rccTagRowBits := c.numRows.log2 - rccSetNum.log2
        rccTagBits := c.numRows.log2 - rccSetNum.log2 + c.numBanksPerRank.log2
        groupRctClSize := c.rowGroupSize * layout.counterBits / 512 }

structure GCTEntry where
  groupCount : Nat := 0
  initialized : Bool := false

/-- The state.  The tables are indexed by flat bank id, the cache by rank and set. -/
structure Hydra where
  clk : Int := -1
  groupCountTable : Nat → AList fun _ : Nat => GCTEntry := fun _ => ∅
  rowCountTable : Nat → Table Nat := fun _ => ∅
  rowCountCache : Nat → Nat → Table Int := fun _ _ => ∅
  rctCountTable : Nat → Table Nat := fun _ => ∅

/-- The requests that `update` sends to the controller, under the names they have there. -/
inductive HydraRequest
  | vrr | rctInit | rctWrite | rctRead
  deriving DecidableEq, Repr

abbrev Sent := List (HydraRequest × AddrVec)

def toUint (x : Int) : Nat := (BitVec.ofInt 32 x).toNat

def toInt (x : Int) : Int := (BitVec.ofInt 32 x).toInt

/-- What `update` computes from the address of an activation. -/
structure HydraAccess where
  addrVec : AddrVec
  flatBankId : Nat
  rankId : Nat
  rowId : Nat
  gctIndex : Nat
  rccIndex : Nat
  rccTag : Int

namespace HydraParams

variable (p : HydraParams)

def gctIndex (rowId : Nat) : Nat := rowId >>> (p.rowAddressBits - p.gctIndexBits)

def rccIndex (rowId : Nat) : Nat := rowId &&& (1 <<< p.rccIndexBits - 1)

def rccTag (bankId rowId : Nat) : Nat :=
  rowId >>> (p.rowAddressBits - p.rccTagRowBits).toNat ||| bankId <<< p.rccTagRowBits.toNat % 2 ^ 32

def access (v : AddrVec) : Option HydraAccess :=
  let flatBankId := p.levels.flatBankId v
  let rankId := toUint (v.at 1)
  let rowId := toUint (v.at 4)
  if flatBankId < 0 ∨ flatBankId ≥ p.numRanks * p.numBanksPerRank ∨ rankId ≥ p.numRanks ∨
      p.rccTagRowBits < 0 then none
  else
    some
      { addrVec := v, flatBankId := flatBankId.toNat, rankId, rowId
        gctIndex := p.gctIndex rowId
        rccIndex := p.rccIndex rowId
        rccTag := p.rccTag (flatBankId.toNat % p.numBanksPerRank) rowId }

/-- An address in the table of the counters, for the other components of another address. -/
def rctAddrVec (v : AddrVec) (rowId : Int) : AddrVec :=
  (v.set 4 (p.generateRowColId rowId).1).set 5 (p.generateRowColId rowId).2

def evictedRowId (tagToEvict : Int) (rccIndex : Nat) : Int :=
  Int.lor (Int.land tagToEvict ((1 : Int) <<< p.rccTagRowBits.toNat - 1) <<< p.rccIndexBits) rccIndex

def evictedBankId (tagToEvict : Int) : Int := tagToEvict >>> p.rccTagRowBits.toNat

def evictedEntryAddrVec (v : AddrVec) (tagToEvict : Int) (rccIndex : Nat) : AddrVec :=
  p.rctAddrVec
    ((v.set 2 ((p.evictedBankId tagToEvict).tdiv p.numBanks)).set 3
      ((p.evictedBankId tagToEvict).tmod p.numBanks))
    (p.evictedRowId tagToEvict rccIndex)

end HydraParams

namespace Hydra

variable (p : HydraParams)

def resets (s : Hydra) : Bool := (s.clk + 1) % p.resetPeriodClk = 0

def advance (s : Hydra) : Hydra :=
  if s.resets p then { clk := s.clk + 1 } else { s with clk := s.clk + 1 }

def setRctTable (s : Hydra) (flatBankId : Nat) (table : Table Nat) : Hydra :=
  { s with rctCountTable := Function.update s.rctCountTable flatBankId table }

def countRct (s : Hydra) (a : HydraAccess) : Hydra × Sent :=
  let table := s.rctCountTable a.flatBankId
  let count := (table.lookup a.rowId).getD 0 + 1
  if count ≥ p.trackingThreshold then
    (s.setRctTable a.flatBankId (table.erase a.rowId), [(.vrr, a.addrVec)])
  else (s.setRctTable a.flatBankId (table.insert a.rowId count), [])

def group (s : Hydra) (flatBankId gctIndex : Nat) : GCTEntry :=
  ((s.groupCountTable flatBankId).lookup gctIndex).getD {}

def setGroup (s : Hydra) (flatBankId gctIndex : Nat) (entry : GCTEntry) : Hydra :=
  { s with
    groupCountTable := Function.update s.groupCountTable flatBankId
      ((s.groupCountTable flatBankId).insert gctIndex entry) }

def initGroup (s : Hydra) (a : HydraAccess) : Hydra × Sent :=
  if (s.group a.flatBankId a.gctIndex).initialized then (s, [])
  else
    let s := s.setGroup a.flatBankId a.gctIndex
      { s.group a.flatBankId a.gctIndex with initialized := true }
    let start := a.gctIndex * p.rowGroupSize
    ({ s with
      rowCountTable := Function.update s.rowCountTable a.flatBankId
        ((List.range p.rowGroupSize).foldl
          (fun table i => table.insert (start + i) p.groupThreshold)
          (s.rowCountTable a.flatBankId)) },
      (List.range p.groupRctClSize).map fun i =>
        (.rctInit, p.rctAddrVec a.addrVec ((start + i * p.rctPerCl : Nat) : Int)))

def getTagToEvict (s : Hydra) (rankId rccIndex choice : Nat) : Option Int :=
  let entries := (s.rowCountCache rankId rccIndex).entries
  match p.rccPolicy with
  | .RANDOM => (pick entries choice).map Sigma.fst
  | .MIN_COUNT =>
      (pick (entries.filter fun e => entries.all fun e' => e.2 ≤ e'.2) choice).map Sigma.fst
  | .undefined => none

def setCache (s : Hydra) (rankId rccIndex : Nat) (set : Table Int) : Hydra :=
  { s with
    rowCountCache := Function.update s.rowCountCache rankId
      (Function.update (s.rowCountCache rankId) rccIndex set) }

def setRowCount (s : Hydra) (flatBankId rowId count : Nat) : Hydra :=
  { s with
    rowCountTable := Function.update s.rowCountTable flatBankId
      ((s.rowCountTable flatBankId).insert rowId count) }

/-- A full set of the cache evicts an entry; the variable that holds its tag is an `int`. -/
def makeRoom (s : Hydra) (a : HydraAccess) (choice : Nat) : Option (Hydra × Sent) :=
  let set := s.rowCountCache a.rankId a.rccIndex
  if set.entries.length = 16 then
    (s.getTagToEvict p a.rankId a.rccIndex choice).map fun tag =>
      let tagToEvict := toInt tag
      (s.setCache a.rankId a.rccIndex (set.erase tagToEvict),
        [(.rctWrite, p.evictedEntryAddrVec a.addrVec tagToEvict a.rccIndex)])
  else some (s, [])

def rowCount (s : Hydra) (flatBankId rowId : Nat) : Nat :=
  ((s.rowCountTable flatBankId).lookup rowId).getD 0

/-- Counting in the cache and in the table; a row that is not in the cache is read first. -/
def countRow (s : Hydra) (a : HydraAccess) (choice : Nat) : Option (Hydra × Sent) :=
  match (s.rowCountCache a.rankId a.rccIndex).lookup a.rccTag with
  | none =>
      (s.makeRoom p a choice).map fun (s, sent) =>
        let count := s.rowCount a.flatBankId a.rowId + 1
        let s := s.setRowCount a.flatBankId a.rowId count
        (s.setCache a.rankId a.rccIndex ((s.rowCountCache a.rankId a.rccIndex).insert a.rccTag count),
          sent ++ [(.rctRead, p.rctAddrVec a.addrVec (a.addrVec.at 4))])
  | some count =>
      let s := s.setCache a.rankId a.rccIndex
        ((s.rowCountCache a.rankId a.rccIndex).insert a.rccTag (count + 1))
      some (s.setRowCount a.flatBankId a.rowId (s.rowCount a.flatBankId a.rowId + 1), [])

/-- A row whose cached counter reaches the threshold is refreshed. -/
def checkThreshold (s : Hydra) (a : HydraAccess) : Hydra × Sent :=
  let set := s.rowCountCache a.rankId a.rccIndex
  if (set.lookup a.rccTag).getD 0 ≥ p.trackingThreshold then
    ((s.setCache a.rankId a.rccIndex (set.insert a.rccTag 0)).setRowCount a.flatBankId a.rowId 0,
      [(.vrr, a.addrVec)])
  else (s, [])

def activate (s : Hydra) (a : HydraAccess) (choice : Nat) : Option (Hydra × Sent) :=
  if a.rowId < p.totalRctRowSize then some (s.countRct p a)
  else
    let entry := s.group a.flatBankId a.gctIndex
    if entry.groupCount ≥ p.groupThreshold then
      let (s, init) := s.initGroup p a
      (s.countRow p a choice).map fun (s, count) =>
        let (s, check) := s.checkThreshold p a
        (s, init ++ count ++ check)
    else
      some (s.setGroup a.flatBankId a.gctIndex
        { entry with groupCount := entry.groupCount + 1 }, [])

def update (s : Hydra) (request : Option Issued) (choice : Nat) : Option (Hydra × Sent) :=
  if p.resetPeriodClk = 0 then none
  else
    match p.levels.activation request with
    | some v => (p.access v).bind fun a => (s.advance p).activate p a choice
    | none => some (s.advance p, [])

end Hydra

end AimSimulator.Plugin
