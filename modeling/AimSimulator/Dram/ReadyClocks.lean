import AimSimulator.Dram.Timing
/-!
# Exact ready clocks

Where each constraint on a command counts from one issue at the node itself, the ready clock
of a node is exactly the latest that its constraints demand.  The nodes on the path of an
address are then ready at a clock exactly when the clock meets every constraint on that path.
-/

namespace AimSimulator.Dram

namespace DRAMSpec

variable {Cmd St Ext : Type} [DecidableEq Cmd] (spec : DRAMSpec Cmd St Ext) {count : Nat → Int}
  {cmd pCmd : Cmd} {bound clk : Int} {level : Nat}

/-! ## A bound on the ready clock of one node -/

omit [DecidableEq Cmd] in
theorem foldl_raise_le {Entry : Type} {raise : (Cmd → Int) → Entry → Cmd → Int}
    {entries : List Entry}
    (hraise : ∀ t ∈ entries, ∀ ready : Cmd → Int, ready cmd ≤ bound → raise ready t cmd ≤ bound)
    {ready : Cmd → Int} (h : ready cmd ≤ bound) : entries.foldl raise ready cmd ≤ bound := by
  induction entries generalizing ready with
  | nil => exact h
  | cons t ts ih =>
      exact ih (fun u hu => hraise u (List.mem_cons_of_mem t hu))
        (hraise t List.mem_cons_self ready h)

theorem raiseReady_le {ready : Cmd → Int} (h : ready cmd ≤ bound) {c : Cmd} {future : Int}
    (hfuture : c = cmd → future ≤ bound) : raiseReady ready c future cmd ≤ bound := by
  unfold raiseReady
  split
  · next heq => exact Int.max_le.mpr ⟨h, hfuture heq.symm⟩
  · exact h

section

variable (hentries : ∀ t ∈ spec.timingCons level pCmd, t.cmd = cmd →
  t.window = 1 ∧ clk + t.val ≤ bound)

include hentries

theorem updateSibling_le {b : NodeBase Cmd St Ext} (h : b.cmdReadyClk cmd ≤ bound) :
    (spec.updateSibling level pCmd clk b).cmdReadyClk cmd ≤ bound := by
  refine foldl_raise_le (fun t ht ready hready => ?_) h
  split
  · exact raiseReady_le hready fun hcmd => (hentries t ht hcmd).2
  · exact hready

theorem updateTarget_le {b : NodeBase Cmd St Ext} (h : b.cmdReadyClk cmd ≤ bound) :
    (spec.updateTarget level pCmd clk b).cmdReadyClk cmd ≤ bound := by
  refine foldl_raise_le (fun t ht ready hready => ?_) h
  dsimp only
  split
  · exact hready
  · split
    · exact hready
    · next hpast =>
        refine raiseReady_le hready fun hcmd => ?_
        obtain ⟨hwindow, hle⟩ := hentries t ht hcmd
        rw [hwindow] at hpast ⊢
        -- with window one the constraint counts from this very issue
        unfold pushHistory at hpast ⊢
        split
        · exact hle
        · next hnil =>
            rw [if_neg hnil] at hpast
            rw [not_and, Decidable.not_not] at hnil
            rw [hnil rfl] at hpast
            exact absurd (show (-1 : Int) < 0 by decide) hpast

end

theorem le_updateSibling (c : Cmd) (b : NodeBase Cmd St Ext) :
    b.cmdReadyClk c ≤ (spec.updateSibling level pCmd clk b).cmdReadyClk c := by
  refine le_foldl_raise (fun ready t c => ?_) _ _ c
  split
  · exact le_raiseReady ..
  · exact Int.le_refl _

theorem le_updateTarget (c : Cmd) (b : NodeBase Cmd St Ext) :
    b.cmdReadyClk c ≤ (spec.updateTarget level pCmd clk b).cmdReadyClk c := by
  refine le_foldl_raise (fun ready t c => ?_) _ _ c
  dsimp only
  split
  · exact Int.le_refl _
  · split
    · exact Int.le_refl _
    · exact le_raiseReady ..

/-! ## The exact ready clock -/

/-- Each constraint on a command counts from one issue at the node itself. -/
def SingleIssue (cmd : Cmd) : Prop :=
  ∀ level pCmd, ∀ t ∈ spec.timingCons level pCmd, t.cmd = cmd → t.window = 1 ∧ t.sibling = false

/-- A clock meets every constraint at a level on a command, against the issues at a node. -/
def Meets (level : Nat) (cmd : Cmd) (clk : Int) (history : List (Issue Cmd)) : Prop :=
  ∀ e ∈ history, ∀ t ∈ spec.timingCons level e.cmd, t.cmd = cmd → e.clk + t.val ≤ clk

/-- A node is ready for a command exactly from the clock on that meets every constraint. -/
def BaseExact (cmd : Cmd) (level : Nat) (b : NodeBase Cmd St Ext) (history : List (Issue Cmd)) :
    Prop :=
  ∀ clk, 0 ≤ clk → (b.cmdReadyClk cmd ≤ clk ↔ spec.Meets level cmd clk history)

def NodeExact (cmd : Cmd) : (d : Nat) → DRAMNode Cmd St Ext d → List (Issue Cmd) → Prop
  | 0, n, history => spec.BaseExact cmd (spec.level 0) n.base history
  | d + 1, n, history =>
      spec.BaseExact cmd (spec.level (d + 1)) n.base history ∧
      ∀ (i : Nat) (child : DRAMNode Cmd St Ext d), n.children[i]? = some child →
        NodeExact cmd d child (atLevel (spec.level d) i history)

def ActionsKeepExact (cmd : Cmd) : Prop :=
  ∀ (d : Nat) (pCmd : Cmd) (action : ActionFunc Cmd St Ext d),
    spec.actions d pCmd = some action →
      ∀ (n : DRAMNode Cmd St Ext d) (addrVec : AddrVec) (clk : Int) (history : List (Issue Cmd)),
        spec.NodeExact cmd d n history → spec.NodeExact cmd d (action n addrVec clk) history

omit [DecidableEq Cmd] in
theorem newNode_nodeExact (d : Nat) (id : Int) :
    spec.NodeExact cmd d (spec.newNode count d id) [] := by
  have hbase : ∀ level id, spec.BaseExact cmd level (spec.newBase level id) [] := by
    intro level id clk hclk
    refine ⟨fun _ e he => (by cases he), fun _ => ?_⟩
    show (-1 : Int) ≤ clk
    omega
  induction d generalizing id with
  | zero => exact hbase _ id
  | succ d ih =>
      refine ⟨hbase _ id, fun i child hget => ?_⟩
      rw [newNode, DRAMNode.children_node, List.getElem?_map] at hget
      obtain ⟨j, -, rfl⟩ := Option.map_eq_some_iff.mp hget
      exact ih j

variable {spec}

theorem BaseExact.updateTarget (hsingle : spec.SingleIssue cmd) (hwin : spec.WindowsPositive)
    {b : NodeBase Cmd St Ext} {history : List (Issue Cmd)} (hx : spec.BaseExact cmd level b history)
    (hb : spec.BaseTiming level b history) {e : Issue Cmd} (hclk : ∀ x ∈ e :: history, 0 ≤ x.clk) :
    spec.BaseExact cmd level (spec.updateTarget level e.cmd e.clk b) (e :: history) := by
  intro clk h0
  constructor
  · intro hle x hx' t ht hcmd
    rcases List.mem_cons.mp hx' with rfl | hx'
    · -- the newest issue of its command is the one that a window of one counts from
      obtain ⟨hwindow, hsib⟩ := hsingle level x.cmd t ht hcmd
      refine Int.le_trans ?_ hle
      rw [← hcmd]
      refine (spec.updateTarget_baseTiming hwin hb x hclk).ready x.cmd t ht hsib x ?_
      rw [issuesOf_cons_self, hwindow]
      rfl
    · exact (hx clk h0).mp (Int.le_trans (spec.le_updateTarget cmd b) hle) x hx' t ht hcmd
  · intro hmeets
    refine spec.updateTarget_le (fun t ht hcmd => ?_)
      ((hx clk h0).mpr fun x hx' => hmeets x (List.mem_cons_of_mem e hx'))
    exact ⟨(hsingle level e.cmd t ht hcmd).1, hmeets e List.mem_cons_self t ht hcmd⟩

theorem BaseExact.updateSibling (hsingle : spec.SingleIssue cmd) {b : NodeBase Cmd St Ext}
    {history : List (Issue Cmd)} (hx : spec.BaseExact cmd level b history) :
    spec.BaseExact cmd level (spec.updateSibling level pCmd clk b) history := by
  intro now h0
  refine ⟨fun hle => (hx now h0).mp (Int.le_trans (spec.le_updateSibling cmd b) hle),
    fun hmeets => foldl_raise_le (fun t ht ready hready => ?_) ((hx now h0).mpr hmeets)⟩
  split
  · next hsib =>
      refine raiseReady_le hready fun hcmd => ?_
      rw [(hsingle level pCmd t ht hcmd).2] at hsib
      cases hsib
  · exact hready

theorem updateTiming_nodeExact (hsingle : spec.SingleIssue cmd) (hwin : spec.WindowsPositive)
    {e : Issue Cmd} {d : Nat} {n : DRAMNode Cmd St Ext d} {history : List (Issue Cmd)}
    (hclk : ∀ x ∈ e :: history, 0 ≤ x.clk) (hn : spec.NodeTiming count d n history)
    (hx : spec.NodeExact cmd d n history) :
    spec.NodeExact cmd d (spec.updateTiming e.cmd e.addrVec e.clk d n)
      (if n.base.nodeId = e.addrVec.at (spec.level d) then e :: history else history) := by
  induction d generalizing history with
  | zero =>
      rw [updateTiming]
      by_cases hid : n.base.nodeId = e.addrVec.at (spec.level 0)
      · rw [if_neg (not_not_intro hid), if_pos hid]
        exact BaseExact.updateTarget hsingle hwin hx hn hclk
      · rw [if_pos hid, if_neg hid]
        exact BaseExact.updateSibling hsingle hx
  | succ d ih =>
      obtain ⟨hbase, -, hchild⟩ := hn
      rw [updateTiming]
      by_cases hid : n.base.nodeId = e.addrVec.at (spec.level (d + 1))
      · rw [if_neg (not_not_intro hid), if_pos hid]
        refine ⟨hx.1.updateTarget hsingle hwin hbase hclk, fun i child hget => ?_⟩
        rw [DRAMNode.children_node, List.getElem?_map] at hget
        obtain ⟨old, hold, rfl⟩ := Option.map_eq_some_iff.mp hget
        obtain ⟨hi, hnode⟩ := hchild i old hold
        have hclk' : ∀ x ∈ e :: atLevel (spec.level d) i history, 0 ≤ x.clk := by
          intro x hx'
          rcases List.mem_cons.mp hx' with rfl | hx'
          · exact hclk x List.mem_cons_self
          · exact hclk x (List.mem_cons_of_mem _ (atLevel_subset hx'))
        have hnew := ih hclk' hnode (hx.2 i old hold)
        rw [hi] at hnew
        rw [atLevel_cons]
        exact hnew
      · rw [if_pos hid, if_neg hid]
        exact ⟨hx.1.updateSibling hsingle, hx.2⟩

omit [DecidableEq Cmd] in
theorem runAction_nodeExact (hact : spec.ActionsKeepExact cmd) {addrVec : AddrVec} {d : Nat}
    {n : DRAMNode Cmd St Ext d} {history : List (Issue Cmd)} (hx : spec.NodeExact cmd d n history) :
    spec.NodeExact cmd d (spec.runAction pCmd addrVec clk n) history := by
  unfold runAction
  split
  · next action heq => exact hact d pCmd action heq n addrVec clk history hx
  · exact hx

omit [DecidableEq Cmd] in
theorem updateStates_nodeExact (hact : spec.ActionsKeepExact cmd) {addrVec : AddrVec} {d : Nat}
    {n : DRAMNode Cmd St Ext d} {history : List (Issue Cmd)} (hx : spec.NodeExact cmd d n history) :
    spec.NodeExact cmd d (spec.updateStates pCmd addrVec clk d n) history := by
  induction d generalizing history with
  | zero => exact runAction_nodeExact hact hx
  | succ d ih =>
      have hrun : spec.NodeExact cmd (d + 1) (spec.runAction pCmd addrVec clk n) history :=
        runAction_nodeExact hact hx
      rw [updateStates]
      dsimp only
      split
      · exact hrun
      · split
        · exact hrun
        · refine ⟨hrun.1, fun i child hget => ?_⟩
          rw [DRAMNode.children_node, List.getElem?_modify] at hget
          obtain ⟨old, hold, rfl⟩ := Option.map_eq_some_iff.mp hget
          split
          · exact ih (hrun.2 i old hold)
          · exact hrun.2 i old hold

omit [DecidableEq Cmd] in
theorem mapBanks_nodeExact {f : NodeBase Cmd St Ext → NodeBase Cmd St Ext} (hf : KeepsClocks f)
    {d : Nat} {n : DRAMNode Cmd St Ext d} {history : List (Issue Cmd)}
    (hx : spec.NodeExact cmd d n history) : spec.NodeExact cmd d (n.mapBanks f d) history := by
  induction d generalizing history with
  | zero =>
      intro clk h0
      show (f n.base).cmdReadyClk cmd ≤ clk ↔ _
      rw [hf.cmdReadyClk]
      exact hx clk h0
  | succ d ih =>
      refine ⟨hx.1, fun i child hget => ?_⟩
      rw [DRAMNode.mapBanks, DRAMNode.children_node, List.getElem?_map] at hget
      obtain ⟨old, hold, rfl⟩ := Option.map_eq_some_iff.mp hget
      exact ih (hx.2 i old hold)

/-! ## The path of an address -/

def readyPath (spec : DRAMSpec Cmd St Ext) (cmd : Cmd) (addrVec : AddrVec) (clk : Int) :
    (d : Nat) → DRAMNode Cmd St Ext d → Bool
  | 0, n => readyAt cmd clk n.base
  | d + 1, n =>
      readyAt cmd clk n.base &&
        (n.children[(addrVec.at (spec.level d)).toNat]?).all (readyPath spec cmd addrVec clk d)

omit [DecidableEq Cmd] in
theorem readyAt_iff {b : NodeBase Cmd St Ext} (hclk : 0 ≤ clk) :
    readyAt cmd clk b = true ↔ b.cmdReadyClk cmd ≤ clk := by
  refine ⟨fun h => readyAt_le h hclk, fun h => ?_⟩
  simp only [readyAt, Bool.not_eq_true', Bool.and_eq_false_iff, decide_eq_false_iff_not]
  exact .inr (by omega)

theorem NodeExact.readyPath_iff (hclk : 0 ≤ clk) {addrVec : AddrVec} {d : Nat}
    (hd : d ≤ spec.bankLevel) {n : DRAMNode Cmd St Ext d} {history : List (Issue Cmd)}
    (hx : spec.NodeExact cmd d n history) (hn : spec.NodeTiming count d n history)
    (haddr : ∀ k, k < d → 0 ≤ addrVec.at (spec.level k) ∧
      addrVec.at (spec.level k) < count (spec.level k)) :
    spec.readyPath cmd addrVec clk d n = true ↔
      ∀ k, k ≤ d → spec.Meets (spec.level k) cmd clk
        (issuesTo (spec.level d + 1) (spec.level k) addrVec history) := by
  induction d generalizing history with
  | zero =>
      rw [readyPath, readyAt_iff hclk, hx clk hclk]
      constructor
      · intro h k hk
        obtain rfl := Nat.le_zero.mp hk
        rw [issuesTo_of_lt (Nat.lt_succ_self _)]
        exact h
      · intro h
        have := h 0 (Nat.le_refl 0)
        rwa [issuesTo_of_lt (Nat.lt_succ_self _)] at this
  | succ d ih =>
      obtain ⟨-, hlen, hchild⟩ := hn
      have hid := haddr d (Nat.lt_succ_self d)
      have hlevel : spec.level (d + 1) + 1 = spec.level d := by
        unfold level
        omega
      obtain ⟨child, hget⟩ : ∃ child, n.children[(addrVec.at (spec.level d)).toNat]? = some child :=
        ⟨_, List.getElem?_eq_getElem (by omega)⟩
      have hnode := (hchild _ child hget).2
      have hchildx := hx.2 _ child hget
      rw [Int.toNat_of_nonneg hid.1] at hnode hchildx
      have hrec := ih (by omega) hchildx hnode fun k hk => haddr k (Nat.lt_succ_of_lt hk)
      have hdown : ∀ k, k ≤ d → issuesTo (spec.level (d + 1) + 1) (spec.level k) addrVec history =
          issuesTo (spec.level d + 1) (spec.level k) addrVec
            (atLevel (spec.level d) (addrVec.at (spec.level d)) history) := by
        intro k hk
        rw [hlevel, issuesTo_atLevel]
        unfold level
        omega
      rw [readyPath, Bool.and_eq_true, readyAt_iff hclk, hx.1 clk hclk, hget, Option.all_some, hrec]
      constructor
      · rintro ⟨hroot, hbelow⟩ k hk
        rcases Nat.eq_or_lt_of_le hk with rfl | hk
        · rw [issuesTo_of_lt (Nat.lt_succ_self _)]
          exact hroot
        · rw [hdown k (by omega)]
          exact hbelow k (by omega)
      · intro h
        refine ⟨?_, fun k hk => ?_⟩
        · have := h (d + 1) (Nat.le_refl _)
          rwa [issuesTo_of_lt (Nat.lt_succ_self _)] at this
        · rw [← hdown k hk]
          exact h k (by omega)

end DRAMSpec

/-! ## Runs of a device -/

namespace DRAMModel

variable {Cmd St Ext : Type} [DecidableEq Cmd] {model : DRAMModel Cmd St Ext} {count : Nat → Int}
  {cmd : Cmd}

omit [DecidableEq Cmd] in
def readyPath (model : DRAMModel Cmd St Ext) (dev : model.Dev) (cmd : Cmd) (addrVec : AddrVec) :
    Bool :=
  (model.channelOf dev addrVec).any (model.toDRAMSpec.readyPath cmd addrVec dev.clk _)

/-- All channels of the organisation, each exact for a command against its issues. -/
structure ExactTiming (model : DRAMModel Cmd St Ext) (count : Nat → Int) (cmd : Cmd)
    (s : IssueRun model.Dev Cmd) : Prop extends model.DeviceTiming count s where
  numChannels : s.dev.channels.length = (count 0).toNat
  exact : ∀ (i : Nat) channel, s.dev.channels[i]? = some channel →
    model.NodeExact cmd model.bankLevel channel (atLevel 0 i s.history)

theorem createNodes_exactTiming : model.ExactTiming count cmd ⟨model.createNodes count, []⟩ := by
  refine ⟨createNodes_deviceTiming, by simp [createNodes], fun i channel hget => ?_⟩
  simp only [createNodes, List.getElem?_map] at hget
  obtain ⟨j, -, rfl⟩ := Option.map_eq_some_iff.mp hget
  exact model.newNode_nodeExact _ _

theorem issueCommand_exactTiming (hsingle : model.SingleIssue cmd)
    (hact : model.ActionsKeepTiming count) (hexact : model.ActionsKeepExact cmd)
    (hwin : model.WindowsPositive) {s : IssueRun model.Dev Cmd}
    (hs : model.ExactTiming count cmd s) (pCmd : Cmd) (addrVec : AddrVec) :
    model.ExactTiming count cmd
      ⟨model.issueCommand s.dev pCmd addrVec, ⟨s.dev.clk, pCmd, addrVec⟩ :: s.history⟩ := by
  refine ⟨issueCommand_deviceTiming hact hwin hs.toDeviceTiming pCmd addrVec, ?_, ?_⟩
  · unfold issueCommand
    split
    · exact hs.numChannels
    · rw [List.length_modify]
      exact hs.numChannels
  · intro i channel hget
    rw [atLevel_cons]
    unfold issueCommand at hget
    split at hget
    · next hneg =>
        rw [if_neg (by dsimp only; omega)]
        exact hs.exact i channel hget
    · next hneg =>
        dsimp only at hget ⊢
        rw [List.getElem?_modify] at hget
        obtain ⟨old, hold, rfl⟩ := Option.map_eq_some_iff.mp hget
        obtain ⟨hid, hnode⟩ := hs.channels i old hold
        by_cases hi : (addrVec.at 0).toNat = i
        · have hi' : (i : Int) = addrVec.at 0 := by omega
          rw [if_pos hi, if_pos hi']
          refine DRAMSpec.updateStates_nodeExact hexact ?_
          have hclk : ∀ x ∈ (⟨s.dev.clk, pCmd, addrVec⟩ : Issue Cmd) :: atLevel 0 i s.history,
              0 ≤ x.clk := by
            intro x hx
            rcases List.mem_cons.mp hx with rfl | hx
            · exact hs.clk_nonneg
            · exact hs.past_nonneg x (atLevel_subset hx)
          have hnew := DRAMSpec.updateTiming_nodeExact hsingle hwin hclk hnode (hs.exact i old hold)
          rw [level_bankLevel, if_pos (hid.trans hi')] at hnew
          exact hnew
        · rw [if_neg hi, if_neg (by omega)]
          exact hs.exact i old hold

theorem reachable_exactTiming (hsingle : model.SingleIssue cmd)
    (hact : model.ActionsKeepTiming count) (hexact : model.ActionsKeepExact cmd)
    (hwin : model.WindowsPositive) {guard : IssueRun model.Dev Cmd → DeviceOp Cmd → Prop}
    {s : IssueRun model.Dev Cmd}
    (hr : Runs.Reachable (fun s => s = ⟨model.createNodes count, []⟩)
      (fun s op t => model.stepDevice s op = some t) guard s) :
    model.ExactTiming count cmd s := by
  refine hr.invariant (I := fun s => model.ExactTiming count cmd s) ?_ ?_
  · rintro s rfl
    exact createNodes_exactTiming
  · rintro s op t hs - hstep
    cases op with
    | tick =>
        obtain rfl := Option.some.inj hstep
        refine ⟨⟨?_, hs.past_nonneg, hs.channels⟩, hs.numChannels, hs.exact⟩
        exact Int.le_trans hs.clk_nonneg (Int.le.intro 1 rfl)
    | issue pCmd addrVec =>
        rw [stepDevice] at hstep
        split at hstep
        · obtain rfl := Option.some.inj hstep
          exact issueCommand_exactTiming hsingle hact hexact hwin hs pCmd addrVec
        · cases hstep

theorem ExactTiming.readyPath_iff {s : IssueRun model.Dev Cmd} (hs : model.ExactTiming count cmd s)
    {addrVec : AddrVec} (haddr : NamesNode count model.bankLevel addrVec) :
    model.readyPath s.dev cmd addrVec = true ↔ ∀ level, level ≤ model.bankLevel →
      model.Meets level cmd s.dev.clk (issuesTo 0 level addrVec s.history) := by
  have h0 := haddr 0 (Nat.zero_le _)
  obtain ⟨channel, hget⟩ : ∃ channel, s.dev.channels[(addrVec.at 0).toNat]? = some channel :=
    ⟨_, List.getElem?_eq_getElem (by rw [hs.numChannels]; omega)⟩
  have hnode := (hs.channels _ channel hget).2
  have hx := hs.exact _ channel hget
  rw [Int.toNat_of_nonneg h0.1] at hnode hx
  have hlevel : ∀ k, k ≤ model.bankLevel → model.level (model.bankLevel - k) = k := by
    intro k hk
    unfold DRAMSpec.level
    omega
  have hto : ∀ k, issuesTo 0 k addrVec s.history =
      issuesTo (model.level model.bankLevel + 1) k addrVec
        (atLevel 0 (addrVec.at 0) s.history) := by
    intro k
    rw [level_bankLevel, issuesTo_atLevel (Nat.zero_le k)]
  rw [DRAMModel.readyPath, channelOf, if_neg (by omega), hget, Option.any_some,
    hx.readyPath_iff hs.clk_nonneg (Nat.le_refl _) hnode fun k _ => haddr _ (Nat.sub_le _ _)]
  constructor
  · intro h k hk
    have := h (model.bankLevel - k) (Nat.sub_le _ _)
    rwa [hlevel k hk, ← hto] at this
  · intro h k _
    rw [← hto]
    exact h _ (Nat.sub_le _ _)

end DRAMModel

end AimSimulator.Dram
