import AimSimulator.Dram.Shape
import AimSimulator.Dram.ReadyClocks
import AimSimulator.Dram.GDDR6Timing
/-!
# The activation of all banks waits longest

Where every constraint on one command has a stronger one at the channel on another, no node
of the tree is ready later for the first than the channel is for the second.  In GDDR6
`ACT16` stands so above `ACT`.
-/

namespace AimSimulator.Dram

section

variable {Cmd St Ext : Type}

def DRAMNode.ReadyBy (cmd : Cmd) (bound : Int) : (d : Nat) → DRAMNode Cmd St Ext d → Prop
  | 0, n => n.base.cmdReadyClk cmd ≤ bound
  | d + 1, n => n.base.cmdReadyClk cmd ≤ bound ∧ ∀ child ∈ n.children, ReadyBy cmd bound d child

namespace DRAMNode.ReadyBy

variable {cmd : Cmd} {bound bound' : Int} {d : Nat} {n : DRAMNode Cmd St Ext d}

theorem base (h : n.ReadyBy cmd bound d) : n.base.cmdReadyClk cmd ≤ bound := by
  cases d with
  | zero => exact h
  | succ d => exact h.1

theorem mono (h : n.ReadyBy cmd bound d) (hle : bound ≤ bound') : n.ReadyBy cmd bound' d := by
  induction d with
  | zero => exact Int.le_trans h hle
  | succ d ih => exact ⟨Int.le_trans h.1 hle, fun child hchild => ih (h.2 child hchild)⟩

theorem mapBanks {f : NodeBase Cmd St Ext → NodeBase Cmd St Ext} (hf : DRAMSpec.KeepsClocks f)
    (h : n.ReadyBy cmd bound d) : (n.mapBanks f d).ReadyBy cmd bound d := by
  induction d with
  | zero =>
      show (f n.base).cmdReadyClk cmd ≤ bound
      rw [hf.cmdReadyClk]
      exact h
  | succ d ih =>
      refine ⟨h.1, fun child hchild => ?_⟩
      obtain ⟨old, hold, rfl⟩ := List.mem_map.mp hchild
      exact ih (h.2 old hold)

end DRAMNode.ReadyBy

namespace DRAMSpec

variable [DecidableEq Cmd] (spec : DRAMSpec Cmd St Ext) {cmd pCmd : Cmd} {bound bound' clk : Int}
  {addrVec : AddrVec}

omit [DecidableEq Cmd] in
/-- Every action updates the banks below its node, and no clock. -/
def ActsOnBanks : Prop :=
  ∀ {d : Nat} {cmd : Cmd} {action : ActionFunc Cmd St Ext d}, spec.actions d cmd = some action →
    ∃ f : AddrVec → NodeBase Cmd St Ext → NodeBase Cmd St Ext,
      (∀ addrVec, KeepsClocks (f addrVec)) ∧
        action = fun node addrVec _ => node.mapBanks (f addrVec) d

/-- Every constraint of the table on a command has window one and is, with a latency that is
no less, one at the channel on the other command. -/
def Dominated (cmd cmdAll : Cmd) : Prop :=
  ∀ level pCmd, ∀ t ∈ spec.timingCons level pCmd, t.cmd = cmd → t.window = 1 ∧
    ∃ t' ∈ spec.timingCons 0 pCmd, t'.cmd = cmdAll ∧ t'.window = 1 ∧ t'.sibling = false ∧
      t.val ≤ t'.val

/-! ## A bound on ready clocks -/

variable (hentries : ∀ level, ∀ t ∈ spec.timingCons level pCmd, t.cmd = cmd →
  t.window = 1 ∧ clk + t.val ≤ bound)

include hentries

theorem updateTiming_readyBy {d : Nat} {n : DRAMNode Cmd St Ext d}
    (h : n.ReadyBy cmd bound d) :
    (spec.updateTiming pCmd addrVec clk d n).ReadyBy cmd bound d := by
  induction d with
  | zero =>
      rw [updateTiming]
      split
      · exact spec.updateSibling_le (hentries _) h
      · exact spec.updateTarget_le (hentries _) h
  | succ d ih =>
      rw [updateTiming]
      split
      · exact ⟨spec.updateSibling_le (hentries _) h.1, h.2⟩
      · refine ⟨spec.updateTarget_le (hentries _) h.1, fun child hchild => ?_⟩
        obtain ⟨old, hold, rfl⟩ := List.mem_map.mp hchild
        exact ih (h.2 old hold)

omit hentries in
theorem le_updateTiming (c : Cmd) {d : Nat} (n : DRAMNode Cmd St Ext d) :
    n.base.cmdReadyClk c ≤ (spec.updateTiming pCmd addrVec clk d n).base.cmdReadyClk c := by
  cases d with
  | zero =>
      rw [updateTiming]
      split
      · exact spec.le_updateSibling c _
      · exact spec.le_updateTarget c _
  | succ d =>
      rw [updateTiming]
      split
      · exact spec.le_updateSibling c _
      · exact spec.le_updateTarget c _

omit hentries in
theorem NodeTiming.base {count : Nat → Int} {d : Nat} {n : DRAMNode Cmd St Ext d}
    {history : List (Issue Cmd)} (h : spec.NodeTiming count d n history) :
    spec.BaseTiming (spec.level d) n.base history := by
  cases d with
  | zero => exact h
  | succ d => exact h.1

omit hentries [DecidableEq Cmd]

theorem runAction_ready (hact : spec.ActsOnBanks) {d : Nat} (n : DRAMNode Cmd St Ext d) :
    (spec.runAction pCmd addrVec clk n).base.cmdReadyClk = n.base.cmdReadyClk ∧
      (n.ReadyBy cmd bound d → (spec.runAction pCmd addrVec clk n).ReadyBy cmd bound d) := by
  unfold runAction
  split
  · next action haction =>
      obtain ⟨f, hf, rfl⟩ := hact haction
      refine ⟨?_, fun h => h.mapBanks (hf addrVec)⟩
      cases d with
      | zero => exact (hf addrVec).cmdReadyClk n.base
      | succ d => rfl
  · exact ⟨rfl, id⟩

theorem updateStates_cmdReadyClk (hact : spec.ActsOnBanks) {d : Nat} (n : DRAMNode Cmd St Ext d) :
    (spec.updateStates pCmd addrVec clk d n).base.cmdReadyClk = n.base.cmdReadyClk := by
  have hrun : (spec.runAction pCmd addrVec clk n).base.cmdReadyClk = n.base.cmdReadyClk :=
    (@runAction_ready _ _ _ spec pCmd pCmd 0 clk addrVec hact _ n).1
  cases d with
  | zero => exact hrun
  | succ d =>
      rw [updateStates]
      dsimp only
      split
      · exact hrun
      · split <;> exact hrun

theorem updateStates_readyBy (hact : spec.ActsOnBanks) {d : Nat} {n : DRAMNode Cmd St Ext d}
    (h : n.ReadyBy cmd bound d) :
    (spec.updateStates pCmd addrVec clk d n).ReadyBy cmd bound d := by
  induction d with
  | zero => exact (spec.runAction_ready hact n).2 h
  | succ d ih =>
      have hrun : (spec.runAction pCmd addrVec clk n).ReadyBy cmd bound (d + 1) :=
        (spec.runAction_ready hact n).2 h
      rw [updateStates]
      dsimp only
      split
      · exact hrun
      · split
        · exact hrun
        · refine ⟨hrun.1, fun child hchild => ?_⟩
          obtain ⟨j, hj⟩ := List.mem_iff_getElem?.mp hchild
          rw [DRAMNode.children_node, List.getElem?_modify] at hj
          obtain ⟨old, hold, rfl⟩ := Option.map_eq_some_iff.mp hj
          have hchild := hrun.2 old (List.mem_of_getElem? hold)
          split
          · exact ih hchild
          · exact hchild

theorem checkReady_of_readyBy {d : Nat} {n : DRAMNode Cmd St Ext d} {b : NodeBase Cmd St Ext}
    (hb : spec.addressed addrVec d n = some b) (h : n.ReadyBy cmd bound d) (hle : bound ≤ clk) :
    spec.checkReady cmd addrVec clk d n = true := by
  have hready : ∀ {b : NodeBase Cmd St Ext}, b.cmdReadyClk cmd ≤ bound →
      readyAt cmd clk b = true := by
    intro b hbound
    simp only [readyAt, Bool.not_eq_true', Bool.and_eq_false_iff, decide_eq_false_iff_not]
    exact .inr (by omega)
  induction d with
  | zero => exact hready h
  | succ d ih =>
      rw [addressed_succ] at hb
      split at hb
      · cases hb
      · next hwild =>
          obtain ⟨child, hchild, hb⟩ := Option.bind_eq_some_iff.mp hb
          rw [checkReady, hready h.1]
          dsimp only
          rw [if_neg hwild, hchild]
          dsimp only
          rw [ih hb (h.2 child (List.mem_of_getElem? hchild))]
          simp

end DRAMSpec

/-! ## Devices -/

namespace DRAMModel

variable [DecidableEq Cmd] {model : DRAMModel Cmd St Ext} {count : Nat → Int} {cmd cmdAll : Cmd}

/-- No node of a channel is ready for `cmd` later than the channel for `cmdAll`. -/
def ReadyLast (model : DRAMModel Cmd St Ext) (cmd cmdAll : Cmd) (dev : model.Dev) : Prop :=
  ∀ (i : Nat) c, dev.channels[i]? = some c →
    c.ReadyBy cmd (c.base.cmdReadyClk cmdAll) model.bankLevel

omit [DecidableEq Cmd] in
theorem createNodes_readyLast : model.ReadyLast cmd cmdAll (model.createNodes count) := by
  have hfresh : ∀ (d : Nat) (id : Int), (model.newNode count d id).ReadyBy cmd (-1) d := by
    intro d
    induction d with
    | zero => exact fun _ => Int.le_refl _
    | succ d ih =>
        refine fun id => ⟨Int.le_refl _, fun child hchild => ?_⟩
        obtain ⟨i, -, rfl⟩ := List.mem_map.mp hchild
        exact ih i
  intro i c hc
  rw [createNodes, List.getElem?_map] at hc
  obtain ⟨j, -, rfl⟩ := Option.map_eq_some_iff.mp hc
  have hbase : ∀ (d : Nat) (id : Int), (model.newNode count d id).base.cmdReadyClk cmdAll = -1 := by
    intro d id
    cases d <;> rfl
  rw [hbase]
  exact hfresh _ _

theorem issueCommand_readyLast (hact : model.ActsOnBanks) (hkeep : model.ActionsKeepTiming count)
    (hwin : model.WindowsPositive) (hdom : model.Dominated cmd cmdAll)
    {s : IssueRun model.Dev Cmd} (hs : model.DeviceTiming count s)
    (h : model.ReadyLast cmd cmdAll s.dev) (pCmd : Cmd) (addrVec : AddrVec) :
    model.ReadyLast cmd cmdAll (model.issueCommand s.dev pCmd addrVec) := by
  have hnew := issueCommand_deviceTiming hkeep hwin hs pCmd addrVec
  intro i c hc
  obtain ⟨hid, htiming⟩ := hnew.channels i c hc
  dsimp only at hc htiming
  unfold issueCommand at hc
  split at hc
  · exact h i c hc
  · next hneg =>
      dsimp only at hc
      rw [List.getElem?_modify] at hc
      obtain ⟨old, hold, heq⟩ := Option.map_eq_some_iff.mp hc
      split at heq
      · next hi =>
          subst heq
          have hi' : (i : Int) = addrVec.at 0 := by omega
          rw [atLevel_cons, if_pos hi'] at htiming
          have hbase := DRAMSpec.NodeTiming.base model.toDRAMSpec htiming
          rw [level_bankLevel] at hbase
          refine model.updateStates_readyBy hact (model.updateTiming_readyBy ?_ ?_)
          · intro level t ht hcmd
            obtain ⟨hwindow, t', ht', rfl, hwindow', hsib, hle⟩ := hdom level pCmd t ht hcmd
            have hlater := hbase.ready pCmd t' ht' hsib ⟨s.dev.clk, pCmd, addrVec⟩ (by
              rw [hwindow', issuesOf_cons_self ⟨s.dev.clk, pCmd, addrVec⟩]
              rfl)
            exact ⟨hwindow, Int.le_trans (Int.add_le_add_left hle _) hlater⟩
          · refine (h i old hold).mono ?_
            rw [model.updateStates_cmdReadyClk hact]
            exact model.le_updateTiming cmdAll old
      · subst heq
        exact h i old hold

end DRAMModel

end

/-! ## GDDR6 -/

namespace GDDR6

variable {V : Timing → Int}

theorem actsOnBanks (V : Timing → Int) : (model V).ActsOnBanks := actions_mapBanks

/-- An entry of the channel that constrains `ACT16` where another one constrains `ACT`. -/
structure Covers (V : Timing → Int) (ts ts' : TimingConsInitializer Cmd Timing) : Prop where
  mem : ts' ∈ timingConsTable
  fits : ts'.level = channel ∧ .ACT16 ∈ ts'.following ∧ ts'.window = 1 ∧ ts'.isSibling = false ∧
    ∀ pCmd ∈ ts.preceding, pCmd ∈ ts'.preceding
  latency : ts.latency V ≤ ts'.latency V

def actEntries : List (TimingConsInitializer Cmd Timing) :=
  timingConsTable.filter fun ts =>
    .ACT ∈ ts.following ∧ ¬ (ts.level = channel ∧ .ACT16 ∈ ts.following)

theorem exists_covers (h : V .nRRDS ≤ V .nRC) {ts : TimingConsInitializer Cmd Timing}
    (hts : ts ∈ timingConsTable) (hact : .ACT ∈ ts.following) : ∃ ts', Covers V ts ts' := by
  have hwindow : ∀ ts ∈ timingConsTable, ts.window = 1 ∧ ts.isSibling = false := by decide
  by_cases hself : ts.level = channel ∧ .ACT16 ∈ ts.following
  · exact ⟨ts, hts, ⟨hself.1, hself.2, (hwindow ts hts).1, (hwindow ts hts).2, fun _ h => h⟩,
      Int.le_refl _⟩
  · have hlist : actEntries =
      [ { level := channel, preceding := [.ACT, .ACT4], following := [.ACT, .ACT4],
          latency := fun V => V .nRRDS },
        { level := bankgroup, preceding := [.ACT, .ACT4], following := [.ACT, .ACT4],
          latency := fun V => V .nRRDL },
        { level := bankgroup, preceding := [.ACT4], following := [.ACT, .ACT4],
          latency := fun V => V .nRC },
        { level := bankgroup, preceding := [.PRE4], following := [.ACT],
          latency := fun V => V .nRP },
        { level := bank, preceding := [.ACT], following := [.ACT], latency := fun V => V .nRC },
        { level := bank, preceding := [.PRE], following := [.ACT], latency := fun V => V .nRP },
        { level := bank, preceding := [.RDA], following := [.ACT],
          latency := fun V => V .nRTP + V .nRP },
        { level := bank, preceding := [.WRA], following := [.ACT],
          latency := fun V => V .nCWL + V .nBL + V .nWR + V .nRP },
        { level := bank, preceding := [.REFpb], following := [.ACT],
          latency := fun V => V .nRFCpb } ] := rfl
    have hmem : ts ∈ actEntries := List.mem_filter.mpr ⟨hts, decide_eq_true ⟨hact, hself⟩⟩
    rw [hlist] at hmem
    simp only [List.mem_cons, List.not_mem_nil, or_false] at hmem
    rcases hmem with rfl | rfl | rfl | rfl | rfl | rfl | rfl | rfl | rfl
    · exact ⟨_, List.mem_of_getElem? (i := 30) rfl, by decide, h⟩
    · exact ⟨_, List.mem_of_getElem? (i := 28) rfl, by decide, Int.le_refl _⟩
    · exact ⟨_, List.mem_of_getElem? (i := 30) rfl, by decide, Int.le_refl _⟩
    · exact ⟨_, List.mem_of_getElem? (i := 34) rfl, by decide, Int.le_refl _⟩
    · exact ⟨_, List.mem_of_getElem? (i := 30) rfl, by decide, Int.le_refl _⟩
    · exact ⟨_, List.mem_of_getElem? (i := 34) rfl, by decide, Int.le_refl _⟩
    · exact ⟨_, List.mem_of_getElem? (i := 45) rfl, by decide, Int.le_refl _⟩
    · exact ⟨_, List.mem_of_getElem? (i := 46) rfl, by decide, Int.le_refl _⟩
    · exact ⟨_, List.mem_of_getElem? (i := 57) rfl, by decide, Int.le_refl _⟩

/-- `ACT16` waits at least as long as `ACT`, whatever precedes them. -/
theorem dominated (h : V .nRRDS ≤ V .nRC) : (model V).Dominated .ACT .ACT16 := by
  intro level pCmd t ht hcmd
  have hwindow : ∀ ts ∈ timingConsTable, ts.window = 1 := by decide
  obtain ⟨ts, hts, rfl, hpre, f, hf, rfl⟩ := mem_populateTimingcons.mp ht
  have hact : .ACT ∈ ts.following := hcmd ▸ hf
  obtain ⟨ts', hmem, ⟨hlevel, hfollowing, hone, hsibling, hsub⟩, hle⟩ := exists_covers h hts hact
  refine ⟨hwindow ts hts, ⟨.ACT16, ts'.latency V, ts'.window, ts'.isSibling⟩, ?_, rfl, hone,
    hsibling, hle⟩
  exact mem_populateTimingcons.mpr ⟨ts', hmem, hlevel, hsub pCmd hpre, _, hfollowing, rfl⟩

theorem presets_nRRDS_le_nRC {preset : String} {values : List Int}
    (h : timingPresets.lookup preset = some values) (dq nRFC nREFI : Int) :
    setTimingVals values dq nRFC nREFI .nRRDS ≤ setTimingVals values dq nRFC nREFI .nRC := by
  have hvals : ∀ preset ∈ timingPresets, timingVals preset.2 .rate = 2000 ∧
      timingVals preset.2 .nRRDS ≤ timingVals preset.2 .nRC ∧
        5 ≤ timingVals preset.2 .nRC := by decide
  obtain ⟨before, after, heq, -⟩ := List.lookup_eq_some_iff.mp h
  obtain ⟨hrate, hle, hfive⟩ :=
    hvals (preset, values) (heq ▸ List.mem_append_right _ List.mem_cons_self)
  dsimp only at hrate hle hfive
  show secondaryTiming dq (timingVals values .rate) 4 5 (timingVals values .nRRDS) ≤
    timingVals values .nRC
  rw [secondaryTiming, if_pos hrate]
  split
  · omega
  · split
    · exact hfive
    · exact hle

end GDDR6

end AimSimulator.Dram
