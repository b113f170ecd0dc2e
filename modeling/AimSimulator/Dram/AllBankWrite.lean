import AimSimulator.Dram.GDDR6Rows
import AimSimulator.Dram.LPDDRRows
/-!
# All-bank writes

What an all-bank write with precharge is for: it is issued when every bank of its target is
open at the row of the request, and leaves every bank of the target closed.  GDDR6 does both.
In LPDDR the registrations for the sync window replace those for the rows, so `WRA8` neither
waits for the rows nor closes a bank.
-/

namespace AimSimulator.Dram

section

variable {Cmd St Ext : Type} [DecidableEq Cmd]

structure DRAMModel.AllBankWrite (model : DRAMModel Cmd St Ext) (write : Cmd) (rowLevel : Nat)
    (closed opened : St) (dev : model.Dev) (addrVec : AddrVec) : Prop where
  ready : model.getPreqCommand dev write addrVec = write → ∀ ch path r,
    model.InScope write addrVec ch path → model.rowsAt dev ch path = some r →
      r.1 = opened ∧ r.hasRow (addrVec.at rowLevel) = true
  closes : ∀ ch path r, model.InScope write addrVec ch path →
    model.rowsAt (model.issueCommand dev write addrVec) ch path = some r → r = (closed, [])

inductive DRAMModel.Issued (model : DRAMModel Cmd St Ext) (count : Nat → Int) :
    model.Dev → Prop
  | start : Issued model count (model.createNodes count)
  | tick {dev : model.Dev} : Issued model count dev → Issued model count (model.tick dev)
  | issue {dev : model.Dev} (cmd : Cmd) (addrVec : AddrVec) :
      Issued model count dev → Issued model count (model.issueCommand dev cmd addrVec)

end

/-! ## GDDR6 -/

namespace GDDR6

variable {V : Timing → Int} {count : Nat → Int} {dev : (model V).Dev} {addrVec : AddrVec}

theorem issued_states (h : (model V).Issued count dev) {ch : Nat} {path : List Nat}
    {r : BankRows St} (hr : (model V).rowsAt dev ch path = some r) :
    r.1 = .Closed ∨ r.1 = .Opened := by
  induction h generalizing r with
  | start =>
      rw [(model V).rowsAt_createNodes hr]
      exact .inl rfl
  | tick _ ih => exact ih hr
  | @issue dev cmd addrVec _ ih =>
      rw [(model V).rowsAt_issueCommand (actsBy V)] at hr
      obtain ⟨old, hold, rfl⟩ := Option.map_eq_some_iff.mp hr
      split
      · refine DRAMSpec.touch_induct (model V).toDRAMSpec (P := fun r => r.1 = .Closed ∨ r.1 = .Opened)
          ?_ (ih hold)
        intro d r hstate
        match d with
        | 0 | 1 | 2 => cases cmd <;> first | exact hstate | exact .inl rfl | exact .inr rfl
        | _ + 3 => exact hstate
      · exact ih hold

theorem wra16_ready (h : (model V).Issued count dev)
    (hpreq : (model V).getPreqCommand dev .WRA16 addrVec = .WRA16) {ch : Nat} {path : List Nat}
    {r : BankRows St} (hch : addrVec.at 0 = ch) (hr : (model V).rowsAt dev ch path = some r) :
    r.1 = .Opened ∧ r.hasRow (addrVec.at row) = true := by
  cases hc : (model V).channelOf dev addrVec with
  | none =>
      rw [(model V).channelOf_eq hch] at hc
      rw [DRAMModel.rowsAt, hc] at hr
      cases hr
  | some c =>
      have hr' := (rowsAt_channel hc hch).mp hr
      by_cases hother : (c.banks 2).any (fun b =>
          decide (b.state ≠ St.Closed) && !b.hasRow (addrVec.at row)) = true
      · rw [getPreqCommand_channel (a := Cmd.PREA) rfl hc (if_pos hother)] at hpreq
        cases hpreq
      · by_cases hclosed : (c.banks 2).any (fun b => decide (b.state = St.Closed)) = true
        · rw [getPreqCommand_channel (a := Cmd.ACT16) rfl hc
            ((if_neg hother).trans (if_pos hclosed))] at hpreq
          cases hpreq
        · have hopen : r.1 ≠ .Closed := fun hstate => hclosed ((DRAMNode.any_banks fun r =>
            decide (r.1 = St.Closed)).mpr ⟨path, r, hr', decide_eq_true hstate⟩)
          refine ⟨(issued_states h hr).resolve_left hopen, ?_⟩
          cases hrow : r.hasRow (addrVec.at row) with
          | true => rfl
          | false =>
              refine absurd ((DRAMNode.any_banks fun r =>
                decide (r.1 ≠ St.Closed) && !r.hasRow (addrVec.at row)).mpr
                  ⟨path, r, hr', ?_⟩) hother
              simp [hopen, hrow]

theorem wra16_correct (h : (model V).Issued count dev) (addrVec : AddrVec) :
    (model V).AllBankWrite .WRA16 row .Closed .Opened dev addrVec := by
  constructor
  · intro hpreq ch path r hscope hr
    exact wra16_ready h hpreq hscope.1 hr
  · intro ch path r hscope hr
    rw [(model V).rowsAt_issueCommand (actsBy V)] at hr
    obtain ⟨old, hold, rfl⟩ := Option.map_eq_some_iff.mp hr
    obtain ⟨g, b, rfl⟩ := path_cases hold
    rw [if_pos hscope.1]
    show (model V).touch rowAction .WRA16 addrVec bank [g, b] old = _
    have hwide : channel = commandScopes .WRA16 := rfl
    rw [touch_bank, if_pos (Or.inl hwide)]
    rfl

end GDDR6

/-! ## LPDDR4 and LPDDR5 -/

namespace LPDDR

variable {gen : Generation} {count : Nat → Int} {V : Timing → Int}
  {dev : (model gen count V).Dev} {addrVec : AddrVec}

theorem wra8_preq {node : DRAMNode Cmd St Int 2} (hrank : rankOf dev addrVec = some node) :
    (model gen count V).getPreqCommand dev .WRA8 addrVec =
      if needsSync node.base dev.clk then .CASWRA8 else .WRA8 :=
  have hpreq : (model gen count V).preqs 2 .WRA8 = some (preqRankSync .WRA8 .CASWRA8) := rfl
  getPreqCommand_rank hrank rfl hpreq fun _ => rfl

theorem rowsAt_wra8 (ch : Nat) (path : List Nat) :
    (model gen count V).rowsAt ((model gen count V).issueCommand dev .WRA8 addrVec) ch path =
      (model gen count V).rowsAt dev ch path := by
  rw [(model gen count V).rowsAt_issueCommand (actsBy gen count V)]
  refine Eq.trans (congrArg (fun f => Option.map f _) (funext fun r => ?_)) Option.map_id'
  split
  · refine DRAMSpec.touch_induct (model gen count V).toDRAMSpec (P := fun r' => r' = r) ?_ rfl
    rintro d r' rfl
    match d with
    | 0 | 1 | 2 | 3 | _ + 4 => rfl
  · rfl

theorem exists_inScope {node : DRAMNode Cmd St Int 2} (hrank : rankOf dev addrVec = some node)
    (hbanks : node.banks 2 ≠ []) : ∃ ch path r,
      (model gen count V).InScope .WRA8 addrVec ch path ∧
        (model gen count V).rowsAt dev ch path = some r := by
  obtain ⟨c, hc, hchild⟩ := Option.bind_eq_some_iff.mp hrank
  split at hchild
  · cases hchild
  · next hwild =>
      obtain ⟨b, hb⟩ := List.exists_mem_of_ne_nil _ hbanks
      obtain ⟨path, hpath⟩ := DRAMNode.mem_banks.mp hb
      have hch : 0 ≤ addrVec.at 0 := by
        unfold DRAMModel.channelOf at hc
        split at hc
        · cases hc
        · omega
      have hch' : addrVec.at 0 = (addrVec.at 0).toNat := by omega
      refine ⟨(addrVec.at 0).toNat, (addrVec.at rank).toNat :: path, b.rows, ⟨hch', ?_⟩, ?_⟩
      · intro level hlevel
        have hzero : level = 0 := Nat.lt_one_iff.mp hlevel
        subst hzero
        have hrk : ¬ addrVec.at 1 < 0 := hwild
        have hcast : addrVec.at 1 = (addrVec.at 1).toNat := by omega
        simpa using hcast
      · rw [(model gen count V).channelOf_eq hch'] at hc
        rw [DRAMModel.rowsAt, hc]
        show (show DRAMNode Cmd St Int 3 from c).rowsAt 3 _ = _
        rw [DRAMNode.rowsAt_cons, hchild]
        show node.rowsAt 2 path = _
        rw [DRAMNode.rowsAt, hpath]
        rfl

theorem wra8_correct_iff {node : DRAMNode Cmd St Int 2} (hrank : rankOf dev addrVec = some node)
    (hbanks : node.banks 2 ≠ []) :
    (model gen count V).AllBankWrite .WRA8 row .Closed .Opened dev addrVec ↔
      needsSync node.base dev.clk = true ∧
        ∀ ch path r, (model gen count V).InScope .WRA8 addrVec ch path →
          (model gen count V).rowsAt dev ch path = some r → r = (.Closed, []) := by
  constructor
  · rintro ⟨hready, hcloses⟩
    have hclosed : ∀ ch path r, (model gen count V).InScope .WRA8 addrVec ch path →
        (model gen count V).rowsAt dev ch path = some r → r = (.Closed, []) := by
      intro ch path r hscope hr
      exact hcloses ch path r hscope ((rowsAt_wra8 ch path).trans hr)
    refine ⟨?_, hclosed⟩
    cases hsync : needsSync node.base dev.clk with
    | true => rfl
    | false =>
        rw [wra8_preq hrank, hsync] at hready
        obtain ⟨ch, path, r, hscope, hr⟩ := exists_inScope hrank hbanks
        have hopen := (hready rfl ch path r hscope hr).1
        rw [hclosed ch path r hscope hr] at hopen
        cases hopen
  · rintro ⟨hsync, hclosed⟩
    constructor
    · intro hpreq
      rw [wra8_preq hrank, hsync] at hpreq
      cases hpreq
    · intro ch path r hscope hr
      rw [rowsAt_wra8] at hr
      exact hclosed ch path r hscope hr

abbrev aimModel : DRAMModel Cmd St Int :=
  model .LPDDR4 (Organization.countAt ⟨4096, 16, [32, 1, 1, 8, 32768, 1024]⟩)
    (aimVals .LPDDR4)

def aimDevice : aimModel.Dev :=
  aimModel.createNodes (Organization.countAt ⟨4096, 16, [32, 1, 1, 8, 32768, 1024]⟩)

end LPDDR

/-! ## All three models -/

/-- An all-bank write is always correct in GDDR6, and in LPDDR4 and LPDDR5 if and only if its
rank must sync first and has no bank to close. -/
theorem allBankWrite_correct (V : GDDR6.Timing → Int) (gen : LPDDR.Generation)
    (W : LPDDR.Timing → Int) (count : Nat → Int) :
    (∀ (dev : (GDDR6.model V).Dev) (addrVec : AddrVec), (GDDR6.model V).Issued count dev →
      (GDDR6.model V).AllBankWrite .WRA16 GDDR6.row .Closed .Opened dev addrVec) ∧
    ∀ (dev : (LPDDR.model gen count W).Dev) (addrVec : AddrVec)
      (node : DRAMNode LPDDR.Cmd LPDDR.St Int 2), LPDDR.rankOf dev addrVec = some node →
        node.banks 2 ≠ [] →
          ((LPDDR.model gen count W).AllBankWrite .WRA8 LPDDR.row .Closed .Opened dev addrVec ↔
            LPDDR.needsSync node.base dev.clk = true ∧
              ∀ ch path r, (LPDDR.model gen count W).InScope .WRA8 addrVec ch path →
                (LPDDR.model gen count W).rowsAt dev ch path = some r → r = (.Closed, [])) :=
  ⟨fun _ addrVec h => GDDR6.wra16_correct h addrVec,
    fun _ _ _ hrank hbanks => LPDDR.wra8_correct_iff hrank hbanks⟩

/-- A GDDR6 device whose banks an `ACT16` has opened, and a fresh LPDDR4 device. -/
theorem allBankWrite_fresh :
    let opened := GDDR6.aimModel.issueCommand GDDR6.x16Device .ACT16 [0, -1, -1, 3, 0]
    GDDR6.aimModel.getPreqCommand opened .WRA16 [0, -1, -1, 3, 0] = .WRA16 ∧
      GDDR6.aimModel.rowsAt opened 0 [0, 0] = some (.Opened, [(3, .Opened)]) ∧
      GDDR6.aimModel.AllBankWrite .WRA16 GDDR6.row .Closed .Opened opened [0, -1, -1, 3, 0] ∧
      LPDDR.aimModel.AllBankWrite .WRA8 LPDDR.row .Closed .Opened LPDDR.aimDevice
        [0, 0, -1, -1, 3, 0] := by
  refine ⟨by decide +kernel, by decide +kernel,
    (allBankWrite_correct _ .LPDDR4 (LPDDR.aimVals .LPDDR4) _).1 _ _ (.issue _ _ .start), ?_⟩
  obtain ⟨node, hnode⟩ := Option.isSome_iff_exists.mp
    (show (LPDDR.rankOf LPDDR.aimDevice [0, 0, -1, -1, 3, 0]).isSome = true by decide +kernel)
  have hnode' : ((LPDDR.rankOf LPDDR.aimDevice [0, 0, -1, -1, 3, 0]).all fun node =>
      !(node.banks 2).isEmpty && LPDDR.needsSync node.base 0) = true := by decide +kernel
  rw [hnode] at hnode'
  obtain ⟨hbanks, hsync⟩ := Bool.and_eq_true_iff.mp hnode'
  refine ((allBankWrite_correct GDDR6.aimVals _ _ _).2 _ _ node hnode
    ?_).mpr ⟨hsync, ?_⟩
  · rintro hnil
    rw [hnil] at hbanks
    cases hbanks
  · exact fun ch path r _ hr => LPDDR.aimModel.rowsAt_createNodes hr

/-- After the `CASWRA8` of an all-bank write the write is its own prerequisite, with every
bank closed. -/
theorem wra8_on_closed :
    LPDDR.aimModel.getPreqCommand
        (LPDDR.aimModel.issueCommand LPDDR.aimDevice .CASWRA8 [0, 0, -1, -1, 3, 0])
        .WRA8 [0, 0, -1, -1, 3, 0] = .WRA8 ∧
      ¬ LPDDR.aimModel.AllBankWrite .WRA8 LPDDR.row .Closed .Opened
        (LPDDR.aimModel.issueCommand LPDDR.aimDevice .CASWRA8 [0, 0, -1, -1, 3, 0])
        [0, 0, -1, -1, 3, 0] := by
  have hpreq : LPDDR.aimModel.getPreqCommand
      (LPDDR.aimModel.issueCommand LPDDR.aimDevice .CASWRA8 [0, 0, -1, -1, 3, 0])
      .WRA8 [0, 0, -1, -1, 3, 0] = .WRA8 := by decide +kernel
  have hrows : LPDDR.aimModel.rowsAt
      (LPDDR.aimModel.issueCommand LPDDR.aimDevice .CASWRA8 [0, 0, -1, -1, 3, 0]) 0 [0, 0, 0] =
        some (.Closed, []) := by decide +kernel
  refine ⟨hpreq, fun ⟨hready, _⟩ => ?_⟩
  have hopen := (hready hpreq 0 [0, 0, 0] _ ⟨rfl, fun level hlevel => ?_⟩ hrows).1
  · cases hopen
  · have hzero : level = 0 := Nat.lt_one_iff.mp hlevel
    subst hzero
    rfl

end AimSimulator.Dram
