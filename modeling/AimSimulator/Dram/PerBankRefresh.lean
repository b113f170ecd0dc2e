import AimSimulator.Dram.LPDDRRows
import AimSimulator.Dram.LPDDRTiming
import AimSimulator.Dram.ReadyClocks
/-!
# The per-bank refresh of LPDDR4 and LPDDR5

`REFpb` is a command of the rank: its prerequisite looks at the state of the rank node, and
`check_ready` stops there.  The states of the banks that it refreshes and the clocks below the
rank are never asked.
-/

namespace AimSimulator.Dram.LPDDR

variable {gen : Generation} {count : Nat → Int} {V : Timing → Int}

/-! ## The states of the refreshed banks -/

def flatBankid (count : Nat → Int) (bankgroupId bankId : Int) : Int :=
  bankId + bankgroupId * count bank

/-- The two banks that a refresh of the bank `id` is for. -/
def Refreshed (count : Nat → Int) (id bankgroupId bankId : Int) : Prop :=
  flatBankid count bankgroupId bankId = id ∨ flatBankid count bankgroupId bankId = id + 8

instance (count : Nat → Int) (id bankgroupId bankId : Int) :
    Decidable (Refreshed count id bankgroupId bankId) := inferInstanceAs (Decidable (_ ∨ _))

/-- The refreshed banks of the rank that an address names are closed. -/
def TargetsClosed (dev : (model gen count V).Dev) (addrVec : AddrVec) (id : Int) : Prop :=
  ∀ node, rankOf dev addrVec = some node → ∀ bg ∈ node.children, ∀ b ∈ bg.children,
    Refreshed count id bg.base.nodeId b.base.nodeId → b.base.state = .Closed

/-- A rank that is open itself and has a bank with the id in the address. -/
def RankAnswers (count : Nat → Int) (addrVec : AddrVec) (node : DRAMNode Cmd St Int 2) : Prop :=
  (∃ bg ∈ node.children, ∃ b ∈ bg.children,
    Refreshed count (addrVec.at bankgroup) bg.base.nodeId b.base.nodeId) ∧
  (node.base.state = .PreOpened ∨ node.base.state = .Opened)

theorem preqPerBank_cases (cmd : Cmd) (node : DRAMNode Cmd St Int 2) (addrVec : AddrVec)
    (clk : Int) :
    (RankAnswers count addrVec node ∧
      ∀ up, preqPerBank (count bank) cmd up node addrVec clk = some .PRE) ∨
    (¬ RankAnswers count addrVec node ∧
      ∀ up, preqPerBank (count bank) cmd up node addrVec clk = some cmd) := by
  have htest : ((node.children.any fun bg => bg.children.any fun b =>
        decide (b.base.nodeId + bg.base.nodeId * count bank = addrVec.at bankgroup) ||
          decide (b.base.nodeId + bg.base.nodeId * count bank = addrVec.at bankgroup + 8)) &&
      (decide (node.base.state = .PreOpened) || decide (node.base.state = .Opened))) = true ↔
      RankAnswers count addrVec node := by
    simp only [Bool.and_eq_true, List.any_eq_true, Bool.or_eq_true, decide_eq_true_eq,
      RankAnswers, Refreshed, flatBankid]
  by_cases h : RankAnswers count addrVec node
  · exact .inl ⟨h, fun _ => if_pos (htest.mpr h)⟩
  · exact .inr ⟨h, fun _ => if_neg (mt htest.mp h)⟩

theorem getPreqCommand_refpb {dev : (model gen count V).Dev} {addrVec : AddrVec}
    {node : DRAMNode Cmd St Int 2} (hrank : rankOf dev addrVec = some node) :
    (model gen count V).getPreqCommand dev .REFpb addrVec ≠ .REFpb ↔
      RankAnswers count addrVec node := by
  have hnone : (model gen count V).preqs 3 .REFpb = none := rfl
  rcases preqPerBank_cases .REFpb node addrVec dev.clk with ⟨hanswers, h⟩ | ⟨hanswers, h⟩
  · rw [getPreqCommand_rank hrank hnone rfl h]
    exact ⟨fun _ => hanswers, fun _ => by decide⟩
  · rw [getPreqCommand_rank hrank hnone rfl h]
    exact ⟨fun hne => absurd rfl hne, fun hopen => absurd hopen hanswers⟩

/-- A refresh that is its own prerequisite finds its banks closed, exactly where they are
closed or the rank itself is open. -/
theorem refpb_closed_iff (dev : (model gen count V).Dev) (addrVec : AddrVec) (id : Int) :
    ((model gen count V).getPreqCommand dev .REFpb addrVec = .REFpb →
        TargetsClosed dev addrVec id) ↔
      (∃ node, rankOf dev addrVec = some node ∧ RankAnswers count addrVec node) ∨
        TargetsClosed dev addrVec id := by
  cases hrank : rankOf dev addrVec with
  | none =>
      have hvacuous : TargetsClosed dev addrVec id := by
        intro node hnode
        rw [hrank] at hnode
        cases hnode
      exact ⟨fun _ => .inr hvacuous, fun _ _ => hvacuous⟩
  | some node =>
      have hanswers : (∃ n, some node = some n ∧ RankAnswers count addrVec n) ↔
          RankAnswers count addrVec node := by
        constructor
        · rintro ⟨n, hn, h⟩
          obtain rfl := Option.some.inj hn
          exact h
        · exact fun h => ⟨node, rfl, h⟩
      rw [hanswers, ← getPreqCommand_refpb hrank]
      exact Decidable.imp_iff_not_or

/-! ## The clocks of the refreshed banks -/

/-- The commands so far respect every constraint on `REFpb` at the levels of a bank, were it
issued now. -/
def RespectsRefreshCons (s : IssueRun (model gen count V).Dev Cmd) (target : AddrVec) : Prop :=
  ∀ ts ∈ timingConsTable gen, .REFpb ∈ ts.following → ∀ e ∈ s.history, e.cmd ∈ ts.preceding →
    (∀ i, i ≤ ts.level → e.addrVec.at i = target.at i) → e.clk + ts.latency V ≤ s.dev.clk

structure RefreshTarget (count : Nat → Int) (addrVec : AddrVec) (id : Int) (target : AddrVec) :
    Prop where
  channel : target.at channel = addrVec.at channel
  rank : target.at rank = addrVec.at rank
  named : NamesNode count bank target
  refreshed : Refreshed count id (target.at bankgroup) (target.at bank)

theorem refpb_entries (gen : Generation) : ∀ ts ∈ timingConsTable gen, .REFpb ∈ ts.following →
    ts.level ≤ bank ∧ ts.window = 1 ∧ ts.isSibling = false := by
  cases gen <;> decide

theorem refpb_singleIssue : (model gen count V).SingleIssue .REFpb := by
  intro level pCmd t ht hcmd
  obtain ⟨ts, hts, -, -, f, hf, rfl⟩ := mem_populateTimingcons.mp ht
  obtain rfl : f = .REFpb := hcmd
  exact (refpb_entries gen ts hts hf).2

theorem actionsKeepExact {cmd : Cmd} : (model gen count V).ActionsKeepExact cmd := by
  intro d pCmd action h n addrVec clk history hx
  rcases actions_keep h with ⟨f, hf, rfl⟩ | ⟨rfl, cycle, rfl⟩
  · exact DRAMSpec.mapBanks_nodeExact (hf addrVec) hx
  · exact hx

theorem respectsRefreshCons_iff {s : IssueRun (model gen count V).Dev Cmd} {target : AddrVec} :
    RespectsRefreshCons s target ↔ ∀ level, level ≤ (model gen count V).bankLevel →
      (model gen count V).Meets level .REFpb s.dev.clk (issuesTo 0 level target s.history) := by
  have hto : ∀ level (e : Issue Cmd), e ∈ issuesTo 0 level target s.history ↔
      e ∈ s.history ∧ ∀ i, i ≤ level → e.addrVec.at i = target.at i := by
    intro level e
    simp [issuesTo]
  constructor
  · intro h level _ e he t ht hcmd
    obtain ⟨ts, hts, rfl, hp, f, hf, rfl⟩ := mem_populateTimingcons.mp ht
    obtain rfl : f = .REFpb := hcmd
    obtain ⟨he, haddr⟩ := (hto _ e).mp he
    exact h ts hts hf e he hp haddr
  · intro h ts hts hf e he hp haddr
    refine h ts.level (refpb_entries gen ts hts hf).1 e ((hto _ e).mpr ⟨he, haddr⟩)
      ⟨.REFpb, ts.latency V, ts.window, ts.isSibling⟩ ?_ rfl
    exact mem_populateTimingcons.mpr ⟨ts, hts, rfl, hp, _, hf, rfl⟩

/-- A refresh that `check_ready` accepts is guarded exactly where the check, carried on to the
banks it refreshes, would accept it; and one that is its own prerequisite exactly where those
banks are closed. -/
theorem refpb_guarded_iff :
    (∀ (dev : (model gen count V).Dev) (addrVec : AddrVec) (id : Int),
      ((model gen count V).getPreqCommand dev .REFpb addrVec = .REFpb →
          TargetsClosed dev addrVec id) ↔
        (∃ node, rankOf dev addrVec = some node ∧ RankAnswers count addrVec node) ∨
          TargetsClosed dev addrVec id) ∧
    ∀ s, Runs.Reachable (fun s => s = ⟨(model gen count V).createNodes count, []⟩)
        (fun s op t => (model gen count V).stepDevice s op = some t) (fun _ _ => True) s →
      ∀ (addrVec : AddrVec) (id : Int),
        ((model gen count V).checkReady s.dev .REFpb addrVec = true →
            ∀ target, RefreshTarget count addrVec id target → RespectsRefreshCons s target) ↔
          ((model gen count V).checkReady s.dev .REFpb addrVec = true →
            ∀ target, RefreshTarget count addrVec id target →
              (model gen count V).readyPath s.dev .REFpb target = true) := by
  refine ⟨refpb_closed_iff, fun s hr addrVec id => ?_⟩
  have hs : (model gen count V).ExactTiming count .REFpb s :=
    DRAMModel.reachable_exactTiming refpb_singleIssue (actionsKeepTiming gen count V count)
      actionsKeepExact (windowsPositive gen count V) hr
  have hiff : ∀ target, RefreshTarget count addrVec id target →
      (RespectsRefreshCons s target ↔
        (model gen count V).readyPath s.dev .REFpb target = true) := by
    intro target htarget
    rw [respectsRefreshCons_iff, hs.readyPath_iff htarget.named]
  constructor
  · intro h hready target htarget
    exact (hiff target htarget).mp (h hready target htarget)
  · intro h hready target htarget
    exact (hiff target htarget).mpr (h hready target htarget)

/-! ## A refresh of an open bank -/

def x16Of4Gb : Nat → Int := Organization.countAt ⟨4096, 16, [1, 1, 4, 4, 16384, 1024]⟩

/-- The model of this organisation with `LPDDR4_AiM_timing`. -/
abbrev modelOf4Gb : DRAMModel Cmd St Int := model .LPDDR4 x16Of4Gb (aimVals .LPDDR4)

/-- The activation of row 5 of the first bank, and its precharge after `nRAS`. -/
def openAndClose : List (DeviceOp Cmd) :=
  [.issue .ACT_1 [0, 0, 0, 0, 5, 0], .tick, .issue .ACT_2 [0, 0, 0, 0, 5, 0]] ++
    List.replicate 67 .tick ++ [.issue .PRE [0, 0, 0, 0, 5, 0]]

/-- The check accepts a refresh 29 clocks after the precharge, and then nothing is missing. -/
theorem refpb_guarded_iff_precharged :
    ∃ s : IssueRun modelOf4Gb.Dev Cmd,
      modelOf4Gb.checkReady s.dev .REFpb [0, 0, 0, 0, -1, -1] = true ∧
      modelOf4Gb.readyPath s.dev .REFpb [0, 0, 0, 0, -1, -1] = true ∧
      ((modelOf4Gb.checkReady s.dev .REFpb [0, 0, 0, 0, -1, -1] = true →
          ∀ target, RefreshTarget x16Of4Gb [0, 0, 0, 0, -1, -1] 0 target →
            RespectsRefreshCons s target) ↔
        (modelOf4Gb.checkReady s.dev .REFpb [0, 0, 0, 0, -1, -1] = true →
          ∀ target, RefreshTarget x16Of4Gb [0, 0, 0, 0, -1, -1] 0 target →
            modelOf4Gb.readyPath s.dev .REFpb target = true)) := by
  have hrun : ((Runs.replay modelOf4Gb.stepDevice (fun _ _ => true)
      ⟨modelOf4Gb.createNodes x16Of4Gb, []⟩ (openAndClose ++ List.replicate 33 .tick)).any
        fun s => modelOf4Gb.checkReady s.dev .REFpb [0, 0, 0, 0, -1, -1] &&
          modelOf4Gb.readyPath s.dev .REFpb [0, 0, 0, 0, -1, -1]) = true := by decide +kernel
  obtain ⟨s, hs, htest⟩ := Option.any_eq_true _ _ |>.mp hrun
  obtain ⟨hready, hpath⟩ := Bool.and_eq_true _ _ |>.mp htest
  exact ⟨s, hready, hpath, refpb_guarded_iff.2 s
    (Runs.replay_reachable (fun _ _ _ => trivial) (.start rfl) hs) [0, 0, 0, 0, -1, -1] 0⟩

/-- Sixteen clocks after the activation of a bank its refresh is its own prerequisite and is
accepted, with the bank open and `nRC` not over. -/
theorem refpb_of_open_bank :
    ∃ s : IssueRun modelOf4Gb.Dev Cmd,
      Runs.Reachable (fun s => s = ⟨modelOf4Gb.createNodes x16Of4Gb, []⟩)
        (fun s op t => modelOf4Gb.stepDevice s op = some t) (fun _ _ => True) s ∧
      (modelOf4Gb.getPreqCommand s.dev .REFpb [0, 0, 0, 0, -1, -1] = .REFpb ∧
        ¬ TargetsClosed s.dev [0, 0, 0, 0, -1, -1] 0) ∧
      modelOf4Gb.checkReady s.dev .REFpb [0, 0, 0, 0, -1, -1] = true ∧
        ∃ target, RefreshTarget x16Of4Gb [0, 0, 0, 0, -1, -1] 0 target ∧
          ¬ RespectsRefreshCons s target := by
  have hrun : ((Runs.replay modelOf4Gb.stepDevice (fun _ _ => true)
      ⟨modelOf4Gb.createNodes x16Of4Gb, []⟩
      ([.issue .ACT_1 [0, 0, 0, 0, 5, 0], .tick, .issue .ACT_2 [0, 0, 0, 0, 5, 0]] ++
        List.replicate 15 .tick)).any fun s =>
      (decide (s.dev.clk = 16) && s.history.any fun e => decide (e.clk = 0 ∧ e.cmd = .ACT_1 ∧
          e.addrVec = [0, 0, 0, 0, 5, 0])) &&
        (decide (modelOf4Gb.getPreqCommand s.dev .REFpb [0, 0, 0, 0, -1, -1] = .REFpb) &&
          modelOf4Gb.checkReady s.dev .REFpb [0, 0, 0, 0, -1, -1]) &&
        (rankOf s.dev [0, 0, 0, 0, -1, -1]).any fun node => node.children.any fun bg =>
          bg.children.any fun b => decide (Refreshed x16Of4Gb 0 bg.base.nodeId b.base.nodeId ∧
            b.base.state ≠ .Closed)) = true := by decide +kernel
  obtain ⟨s, hs, htest⟩ := Option.any_eq_true _ _ |>.mp hrun
  simp only [Bool.and_eq_true, List.any_eq_true, Option.any_eq_true, decide_eq_true_eq] at htest
  obtain ⟨⟨⟨hclk, e, he, he0, hact, haddr⟩, hpreq, hready⟩, node, hrank, bg, hbg, b, hb, hid,
    hopen⟩ := htest
  refine ⟨s, Runs.replay_reachable (fun _ _ _ => trivial) (.start rfl) hs,
    ⟨hpreq, fun hclosed => hopen (hclosed node hrank bg hbg b hb hid)⟩, hready,
    [0, 0, 0, 0, 5, 0], ⟨rfl, rfl, by unfold NamesNode; decide, .inl rfl⟩, fun hrespects => ?_⟩
  have hnRC := hrespects
    { level := bank, preceding := [.ACT_1], following := [.REFpb], latency := fun V => V .nRC }
    (List.mem_append_right _ (List.mem_of_getElem? (i := 12) rfl)) List.mem_cons_self e he
    (by rw [hact]; exact List.mem_cons_self) (by rw [haddr]; exact fun _ _ => rfl)
  rw [hclk, he0] at hnRC
  exact absurd hnRC (by decide)

end AimSimulator.Dram.LPDDR
