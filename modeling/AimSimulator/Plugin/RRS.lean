import Mathlib.Data.List.AList
import AimSimulator.Plugin.Activation
/-!
# Randomized row swap

`dram_controller/impl/plugin/rrs.cpp` with the row indirection table of
`addr_mapper/impl/rit.cpp`, for one bank.  The hash maps of the source iterate in an
unspecified order and the random generator is not modelled: what a loop over a map finds
first and what is drawn are arguments of `update`.  `none` is an `exit` of the source or a
search that has not ended with the draws given.
-/

namespace AimSimulator.Plugin

structure RITEntry where
  dstRow : Nat
  lock : Bool

abbrev RIT := AList fun _ : Nat => RITEntry

abbrev HRT := AList fun _ : Nat => Nat

structure RRSParams where
  numHrtEntries : Nat
  numRitEntries : Nat
  rssThreshold : Nat
  resetPeriodClk : Nat

/-- The state for one bank.  `swaps` are the swaps issued so far; `bank` is the data of each
physical row, named by the row it was in at first. -/
structure RRS where
  clk : Nat := 0
  hotRowTracker : HRT := ∅
  spilloverCounter : Nat := 0
  rit : RIT := ∅
  swaps : List (Nat × Nat) := []
  bank : Nat → Nat := id

/-- What is left open by the source: the rows that are drawn, and which of the fitting
entries of a map its loop finds first. -/
structure Choices where
  draws : List Nat := []
  evict : Nat := 0
  unswap : Nat := 0

namespace RIT

/-- `check_rit`; `none` is `-1`. -/
def check (rit : RIT) (row : Nat) : Option Nat := (rit.lookup row).map RITEntry.dstRow

/-- `is_rit_locked`. -/
def isLocked (rit : RIT) (row : Nat) : Bool := (rit.lookup row).any RITEntry.lock

def applyIndirection (rit : RIT) (row : Nat) : Nat := (rit.check row).getD row

def unlock (rit : RIT) : RIT where
  entries := rit.entries.map fun e => ⟨e.1, { e.2 with lock := false }⟩
  nodupKeys := by
    have hkeys : (rit.entries.map Sigma.fst).Nodup := rit.nodupKeys
    rw [List.NodupKeys, List.keys, List.map_map]
    exact hkeys

def insertEntry (p : RRSParams) (rit : RIT) (srcRow dstRow : Nat) : Option RIT :=
  let rit' := (rit.insert srcRow ⟨dstRow, true⟩).insert dstRow ⟨srcRow, true⟩
  if rit'.entries.length > p.numRitEntries then none else some rit'

def removeEntry (rit : RIT) (srcRow dstRow : Nat) : RIT := (rit.erase srcRow).erase dstRow

/-- `get_unswap_pair`: an unlocked entry with neither row in the exclusion list. -/
def getUnswapPair (rit : RIT) (exclusionList : HRT) (choice : Nat) : Option (Nat × Nat) :=
  (pick (rit.entries.filter fun e => !e.2.lock && (exclusionList.lookup e.1).isNone &&
    (exclusionList.lookup e.2.dstRow).isNone) choice).map fun e => (e.1, e.2.dstRow)

end RIT

namespace RRS

variable (p : RRSParams)

/-- The start of `update`: the clock, and the reset at the end of a period. -/
def advance (s : RRS) : RRS :=
  if (s.clk + 1) % p.resetPeriodClk = 0 then
    { s with clk := s.clk + 1, hotRowTracker := ∅, spilloverCounter := 0, rit := s.rit.unlock }
  else { s with clk := s.clk + 1 }

/-- Counting an activation, with the counter of the row; `none` where `update` returns. -/
def track (s : RRS) (row choice : Nat) : RRS × Option Nat :=
  match s.hotRowTracker.lookup row with
  | some count =>
      ({ s with hotRowTracker := s.hotRowTracker.insert row (count + 1) }, some (count + 1))
  | none =>
      if s.hotRowTracker.entries.length < p.numHrtEntries then
        ({ s with hotRowTracker := s.hotRowTracker.insert row 1 }, some 1)
      else
        match pick (s.hotRowTracker.entries.filter fun e => e.2 = s.spilloverCounter) choice with
        | some toRemove =>
            ({ s with
              hotRowTracker :=
                (s.hotRowTracker.erase toRemove.1).insert row (s.spilloverCounter + 1) },
              some (s.spilloverCounter + 1))
        | none => ({ s with spilloverCounter := s.spilloverCounter + 1 }, none)

/-- `get_rand_row`: the first draw that is in no table and not the row itself, with the
draws after it. -/
def getRandRow (s : RRS) (row : Nat) : List Nat → Option (Nat × List Nat)
  | [] => none
  | randRow :: draws =>
      if (s.hotRowTracker.lookup randRow).isNone && (s.rit.check randRow).isNone &&
          randRow != row then
        some (randRow, draws)
      else getRandRow s row draws

/-- `issue_swap`: both rows are read into buffers and written to each other's place. -/
def issueSwap (s : RRS) (srcRow dstRow : Nat) : RRS :=
  let buffer0 := s.bank srcRow
  let buffer1 := s.bank dstRow
  { s with
    swaps := s.swaps ++ [(srcRow, dstRow)]
    bank := Function.update (Function.update s.bank dstRow buffer0) srcRow buffer1 }

def ritInsertEntry (s : RRS) (srcRow dstRow : Nat) : Option RRS :=
  (s.rit.insertEntry p srcRow dstRow).map fun rit => { s with rit }

def ritRemoveEntry (s : RRS) (srcRow dstRow : Nat) : RRS :=
  { s with rit := s.rit.removeEntry srcRow dstRow }

def makeRoom (s : RRS) (choice : Nat) : Option RRS :=
  if s.rit.entries.length ≥ p.numRitEntries then
    (s.rit.getUnswapPair s.hotRowTracker choice).map fun pair =>
      (s.issueSwap pair.1 pair.2).ritRemoveEntry pair.1 pair.2
  else some s

/-- The branch for a row that was swapped in the current period: both rows of its pair get
new places. -/
def reswap (s : RRS) (row prevSwappedRow : Nat) (ch : Choices) : Option RRS :=
  (s.makeRoom p ch.unswap).bind fun s =>
    (s.getRandRow row ch.draws).bind fun (dstRow0, draws) =>
      (s.getRandRow row draws).bind fun (dstRow1, _) =>
        ((((s.ritRemoveEntry row prevSwappedRow).issueSwap row dstRow0).issueSwap
          prevSwappedRow dstRow1).ritInsertEntry p row dstRow1).bind fun s =>
            s.ritInsertEntry p prevSwappedRow dstRow0

/-- The branch for a row that was swapped in an earlier period. -/
def unswapAndSwap (s : RRS) (row prevSwappedRow : Nat) (ch : Choices) : Option RRS :=
  (s.getRandRow row ch.draws).bind fun (dstRow, _) =>
    (((s.issueSwap row prevSwappedRow).ritRemoveEntry row prevSwappedRow).issueSwap
      row dstRow).ritInsertEntry p row dstRow

def swap (s : RRS) (row : Nat) (ch : Choices) : Option RRS :=
  (s.makeRoom p ch.unswap).bind fun s =>
    (s.getRandRow row ch.draws).bind fun (dstRow, _) =>
      (s.issueSwap row dstRow).ritInsertEntry p row dstRow

/-- What `update` does for a row whose counter reached a multiple of the threshold. -/
def swapHotRow (s : RRS) (row : Nat) (ch : Choices) : Option RRS :=
  match s.rit.check row with
  | some prevSwappedRow =>
      if s.rit.isLocked row then s.reswap p row prevSwappedRow ch
      else s.unswapAndSwap p row prevSwappedRow ch
  | none => s.swap p row ch

/-- `update`; `row` is the row of an activation in this bank, if there is one. -/
def update (s : RRS) (row : Option Nat) (ch : Choices) : Option RRS :=
  match row with
  | none => some (s.advance p)
  | some row =>
      match (s.advance p).track p row ch.evict with
      | (s', some count) =>
          if count % p.rssThreshold = 0 then s'.swapHotRow p row ch else some s'
      | (s', none) => some s'

end RRS

end AimSimulator.Plugin
