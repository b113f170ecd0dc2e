import Mathlib.Data.List.Forall2
import AimSimulator.Dram.Shape
/-!
# Constraints between siblings

An entry with `is_sibling` constrains the siblings of the node that a command hits.
`SiblingTiming` relates every node to the history of the commands that hit its parent, and
`RespectsEnforced` states what a table with sibling entries and windows demands of a history
as far as `check_ready` looks: down to the scope of the command that is checked.
-/

namespace AimSimulator.Dram

/-! ## Nodes with the same clocks -/

section SameClocks

variable {Cmd St Ext : Type}

structure NodeBase.SameClocks (b b' : NodeBase Cmd St Ext) : Prop where
  nodeId : b'.nodeId = b.nodeId
  cmdReadyClk : b'.cmdReadyClk = b.cmdReadyClk
  cmdHistory : b'.cmdHistory = b.cmdHistory

namespace DRAMNode

def SameClocks : (d : Nat) → DRAMNode Cmd St Ext d → DRAMNode Cmd St Ext d → Prop
  | 0, n, n' => n.base.SameClocks n'.base
  | d + 1, n, n' => n.base.SameClocks n'.base ∧ List.Forall₂ (SameClocks d) n.children n'.children

theorem SameClocks.base {d : Nat} {n n' : DRAMNode Cmd St Ext d} (h : SameClocks d n n') :
    n.base.SameClocks n'.base := by
  cases d with
  | zero => exact h
  | succ d => exact h.1

theorem SameClocks.refl (d : Nat) (n : DRAMNode Cmd St Ext d) : SameClocks d n n := by
  induction d with
  | zero => exact ⟨rfl, rfl, rfl⟩
  | succ d ih => exact ⟨⟨rfl, rfl, rfl⟩, List.forall₂_same.mpr fun child _ => ih child⟩

theorem SameClocks.trans {d : Nat} {n n' n'' : DRAMNode Cmd St Ext d} (h : SameClocks d n n')
    (h' : SameClocks d n' n'') : SameClocks d n n'' := by
  induction d with
  | zero =>
      exact ⟨h'.nodeId.trans h.nodeId, h'.cmdReadyClk.trans h.cmdReadyClk,
        h'.cmdHistory.trans h.cmdHistory⟩
  | succ d ih =>
      obtain ⟨hbase, hchildren⟩ := h
      obtain ⟨hbase', hchildren'⟩ := h'
      refine ⟨⟨hbase'.nodeId.trans hbase.nodeId, hbase'.cmdReadyClk.trans hbase.cmdReadyClk,
        hbase'.cmdHistory.trans hbase.cmdHistory⟩, ?_⟩
      generalize n.children = cs at hchildren
      generalize n'.children = cs' at hchildren hchildren'
      generalize n''.children = cs'' at hchildren'
      induction hchildren generalizing cs'' with
      | nil =>
          cases hchildren'
          exact .nil
      | cons hchild _ ih' =>
          cases hchildren' with
          | cons hchild' hrest' => exact .cons (ih hchild hchild') (ih' _ hrest')

theorem SameClocks.children {d : Nat} {n n' : DRAMNode Cmd St Ext (d + 1)}
    (h : SameClocks (d + 1) n n') :
    n'.children.length = n.children.length ∧
      ∀ (i : Nat) child', n'.children[i]? = some child' →
        ∃ child, n.children[i]? = some child ∧ SameClocks d child child' := by
  obtain ⟨-, hchildren⟩ := h
  refine ⟨hchildren.length_eq.symm, fun i child' hget => ?_⟩
  obtain ⟨hi', rfl⟩ := List.getElem?_eq_some_iff.mp hget
  have hi : i < n.children.length := by rw [hchildren.length_eq]; exact hi'
  exact ⟨_, List.getElem?_eq_getElem hi, hchildren.get hi hi'⟩

theorem sameClocks_mapBanks {f : NodeBase Cmd St Ext → NodeBase Cmd St Ext}
    (hf : ∀ b : NodeBase Cmd St Ext, b.SameClocks (f b)) (d : Nat) (n : DRAMNode Cmd St Ext d) :
    SameClocks d n (n.mapBanks f d) := by
  induction d with
  | zero => exact hf n.base
  | succ d ih =>
      refine ⟨⟨rfl, rfl, rfl⟩, ?_⟩
      rw [mapBanks, children_node, List.forall₂_map_right_iff]
      exact List.forall₂_same.mpr fun child _ => ih child

end DRAMNode

theorem sameClocks_openRow (opened : St) (row : Int) (b : NodeBase Cmd St Ext) :
    b.SameClocks (b.openRow opened row) := ⟨rfl, rfl, rfl⟩

theorem sameClocks_close (closed : St) (b : NodeBase Cmd St Ext) :
    b.SameClocks (b.close closed) := ⟨rfl, rfl, rfl⟩

end SameClocks

namespace DRAMSpec

variable {Cmd St Ext : Type} [DecidableEq Cmd] (spec : DRAMSpec Cmd St Ext) {count : Nat → Int}

def ActionsKeepClocks : Prop :=
  ∀ (d : Nat) (cmd : Cmd) (action : ActionFunc Cmd St Ext d), spec.actions d cmd = some action →
    ∀ (n : DRAMNode Cmd St Ext d) (addrVec : AddrVec) (clk : Int),
      DRAMNode.SameClocks d n (action n addrVec clk)

variable {spec}

theorem NodeTiming.congr {d : Nat} {n n' : DRAMNode Cmd St Ext d}
    (h : DRAMNode.SameClocks d n n') {history : List (Issue Cmd)}
    (hn : spec.NodeTiming count d n history) : spec.NodeTiming count d n' history := by
  induction d generalizing history with
  | zero => exact BaseTiming.congr hn h.cmdReadyClk h.cmdHistory
  | succ d ih =>
      obtain ⟨hbase, hlength, hchild⟩ := hn
      obtain ⟨hlength', hchild'⟩ := h.children
      refine ⟨hbase.congr h.base.cmdReadyClk h.base.cmdHistory, hlength'.trans hlength, ?_⟩
      intro i child' hget
      obtain ⟨child, hget, hsame⟩ := hchild' i child' hget
      obtain ⟨hid, hnode⟩ := hchild i child hget
      exact ⟨hsame.base.nodeId.trans hid, ih hsame hnode⟩

theorem ActionsKeepClocks.actionsKeepTiming (hact : spec.ActionsKeepClocks) :
    spec.ActionsKeepTiming count := by
  intro d cmd action h n addrVec clk
  have hsame := hact d cmd action h n addrVec clk
  exact ⟨hsame.base.nodeId, fun history hn => hn.congr hsame⟩

omit [DecidableEq Cmd] in
theorem ActionsKeepClocks.updateStates (hact : spec.ActionsKeepClocks) (cmd : Cmd)
    (addrVec : AddrVec) (clk : Int) (d : Nat) (n : DRAMNode Cmd St Ext d) :
    DRAMNode.SameClocks d n (spec.updateStates cmd addrVec clk d n) := by
  have hrun : ∀ {d : Nat} (n : DRAMNode Cmd St Ext d),
      DRAMNode.SameClocks d n (spec.runAction cmd addrVec clk n) := by
    intro d n
    unfold runAction
    split
    · next action heq => exact hact d cmd action heq n addrVec clk
    · exact .refl d n
  induction d with
  | zero => exact hrun n
  | succ d ih =>
      rw [DRAMSpec.updateStates]
      dsimp only
      split
      · exact hrun n
      · split
        · exact hrun n
        · refine (hrun n).trans ⟨⟨rfl, rfl, rfl⟩, ?_⟩
          rw [DRAMNode.children_node, List.forall₂_iff_get]
          refine ⟨(List.length_modify ..).symm, fun i hi hi' => ?_⟩
          rw [List.get_eq_getElem, List.get_eq_getElem, List.getElem_modify]
          split
          · exact ih _
          · exact .refl d _

variable (spec)

/-! ## The invariant -/

/-- The ready clocks of a node dominate what the commands at its siblings demand.  The history
is that of the commands that hit the parent. -/
def BaseSiblings (level : Nat) (b : NodeBase Cmd St Ext) (history : List (Issue Cmd)) : Prop :=
  ∀ cmd, ∀ t ∈ spec.timingCons level cmd, t.sibling = true →
    ∀ e ∈ issuesOf cmd history, e.addrVec.at level ≠ b.nodeId → e.clk + t.val ≤ b.cmdReadyClk t.cmd

/-- Every node of a subtree agrees with what the commands at its siblings demand. -/
def SiblingTiming : (d : Nat) → DRAMNode Cmd St Ext d → List (Issue Cmd) → Prop
  | 0, n, history => spec.BaseSiblings (spec.level 0) n.base history
  | d + 1, n, history =>
      spec.BaseSiblings (spec.level (d + 1)) n.base history ∧
      ∀ (i : Nat) (child : DRAMNode Cmd St Ext d), n.children[i]? = some child →
        SiblingTiming d child (atLevel (spec.level (d + 1)) n.base.nodeId history)

variable {spec}

theorem SiblingTiming.base {d : Nat} {n : DRAMNode Cmd St Ext d} {history : List (Issue Cmd)}
    (h : spec.SiblingTiming d n history) : spec.BaseSiblings (spec.level d) n.base history := by
  cases d with
  | zero => exact h
  | succ d => exact h.1

theorem BaseSiblings.mono {level : Nat} {b b' : NodeBase Cmd St Ext} {history : List (Issue Cmd)}
    (h : spec.BaseSiblings level b history) (hid : b'.nodeId = b.nodeId)
    (hready : ∀ cmd, b.cmdReadyClk cmd ≤ b'.cmdReadyClk cmd) :
    spec.BaseSiblings level b' history := by
  intro cmd t ht hsib e he hne
  rw [hid] at hne
  exact Int.le_trans (h cmd t ht hsib e he hne) (hready t.cmd)

theorem SiblingTiming.congr {d : Nat} {n n' : DRAMNode Cmd St Ext d}
    (h : DRAMNode.SameClocks d n n') {history : List (Issue Cmd)}
    (hn : spec.SiblingTiming d n history) : spec.SiblingTiming d n' history := by
  have hbase := hn.base.mono h.base.nodeId fun cmd =>
    Int.le_of_eq (congrFun h.base.cmdReadyClk cmd).symm
  induction d generalizing history with
  | zero => exact hbase
  | succ d ih =>
      refine ⟨hbase, fun i child' hget => ?_⟩
      obtain ⟨child, hget, hsame⟩ := h.children.2 i child' hget
      rw [h.base.nodeId]
      have hchild := hn.2 i child hget
      exact ih hsame hchild (hchild.base.mono hsame.base.nodeId fun cmd =>
        Int.le_of_eq (congrFun hsame.base.cmdReadyClk cmd).symm)

/-! ## What `update_timing` does to it -/

theorem updateSibling_raises (spec : DRAMSpec Cmd St Ext) (level : Nat) (cmd : Cmd) (clk : Int)
    (b : NodeBase Cmd St Ext) (c : Cmd) :
    b.cmdReadyClk c ≤ (spec.updateSibling level cmd clk b).cmdReadyClk c := by
  refine le_foldl_raise ?_ _ _ _
  intro ready t c
  split
  · exact le_raiseReady _ _ _ _
  · exact Int.le_refl _

theorem updateTarget_raises (spec : DRAMSpec Cmd St Ext) (level : Nat) (cmd : Cmd) (clk : Int)
    (b : NodeBase Cmd St Ext) (c : Cmd) :
    b.cmdReadyClk c ≤ (spec.updateTarget level cmd clk b).cmdReadyClk c := by
  refine le_foldl_raise ?_ _ _ _
  intro ready t c
  dsimp only
  split
  · exact Int.le_refl _
  · split
    · exact Int.le_refl _
    · exact le_raiseReady _ _ _ _

theorem BaseSiblings.updateSibling {level : Nat} {b : NodeBase Cmd St Ext}
    {history : List (Issue Cmd)} (h : spec.BaseSiblings level b history) (e : Issue Cmd) :
    spec.BaseSiblings level (spec.updateSibling level e.cmd e.clk b) (e :: history) := by
  intro cmd t ht hsib x hx hne
  by_cases hcmd : cmd = e.cmd
  · subst hcmd
    rw [issuesOf_cons_self] at hx
    rcases List.mem_cons.mp hx with rfl | hx
    · refine foldl_raise_of_mem ?_ ht (fun ready => ?_) b.cmdReadyClk
      · intro ready t c
        split
        · exact le_raiseReady _ _ _ _
        · exact Int.le_refl _
      · rw [if_pos hsib]
        exact raiseReady_self _ _ _
    · exact Int.le_trans (h _ t ht hsib x hx hne) (updateSibling_raises spec ..)
  · rw [issuesOf_cons_of_ne hcmd] at hx
    exact Int.le_trans (h cmd t ht hsib x hx hne) (updateSibling_raises spec ..)

/-- The target half of `update_timing`: the issue stands at no sibling. -/
theorem BaseSiblings.updateTarget {level : Nat} {b : NodeBase Cmd St Ext}
    {history : List (Issue Cmd)} (h : spec.BaseSiblings level b history) (e : Issue Cmd)
    (hid : b.nodeId = e.addrVec.at level) :
    spec.BaseSiblings level (spec.updateTarget level e.cmd e.clk b) (e :: history) := by
  intro cmd t ht hsib x hx hne
  have hold : x ∈ issuesOf cmd history := by
    by_cases hcmd : cmd = e.cmd
    · subst hcmd
      rw [issuesOf_cons_self] at hx
      rcases List.mem_cons.mp hx with rfl | hx
      · exact absurd hid.symm hne
      · exact hx
    · rwa [issuesOf_cons_of_ne hcmd] at hx
  exact Int.le_trans (h cmd t ht hsib x hold hne) (updateTarget_raises spec ..)

theorem SiblingTiming.updateTiming (e : Issue Cmd) {d : Nat} {n : DRAMNode Cmd St Ext d}
    {history : List (Issue Cmd)} (h : spec.SiblingTiming d n history) :
    spec.SiblingTiming d (spec.updateTiming e.cmd e.addrVec e.clk d n) (e :: history) := by
  induction d generalizing history with
  | zero =>
      rw [DRAMSpec.updateTiming]
      by_cases hid : n.base.nodeId = e.addrVec.at (spec.level 0)
      · rw [if_neg (not_not_intro hid)]
        exact BaseSiblings.updateTarget h e hid
      · rw [if_pos hid]
        exact BaseSiblings.updateSibling h e
  | succ d ih =>
      obtain ⟨hbase, hchild⟩ := h
      rw [DRAMSpec.updateTiming]
      by_cases hid : n.base.nodeId = e.addrVec.at (spec.level (d + 1))
      · rw [if_neg (not_not_intro hid)]
        refine ⟨hbase.updateTarget e hid, fun i child hget => ?_⟩
        rw [DRAMNode.children_node, List.getElem?_map] at hget
        obtain ⟨old, hold, rfl⟩ := Option.map_eq_some_iff.mp hget
        have hnew := ih (hchild i old hold)
        rw [DRAMNode.base_node, atLevel_cons]
        exact (if_pos hid).symm ▸ hnew
      · rw [if_pos hid]
        refine ⟨hbase.updateSibling e, fun i child hget => ?_⟩
        rw [DRAMNode.base_node, atLevel_cons]
        exact (if_neg hid).symm ▸ hchild i child hget

theorem newNode_siblingTiming (spec : DRAMSpec Cmd St Ext) (count : Nat → Int) (d : Nat)
    (id : Int) : spec.SiblingTiming d (spec.newNode count d id) [] := by
  induction d generalizing id with
  | zero => exact fun _ _ _ _ e he => absurd he List.not_mem_nil
  | succ d ih =>
      refine ⟨fun _ _ _ _ e he => absurd he List.not_mem_nil, fun i child hget => ?_⟩
      rw [newNode, DRAMNode.children_node, List.getElem?_map] at hget
      obtain ⟨j, -, rfl⟩ := Option.map_eq_some_iff.mp hget
      exact ih _

/-! ## What `check_ready` implies -/

/-- A command that passes `check_ready` respects the sibling entries of every node on its path
down to its scope. -/
theorem checkReady_siblings {cmd : Cmd} {addrVec : AddrVec} {clk : Int} (hclk : 0 ≤ clk)
    {d : Nat} (hd : d ≤ spec.bankLevel) {n : DRAMNode Cmd St Ext d}
    {history parent : List (Issue Cmd)} (hn : spec.NodeTiming count d n history)
    (hs : spec.SiblingTiming d n parent) (hid : n.base.nodeId = addrVec.at (spec.level d))
    (hready : spec.checkReady cmd addrVec clk d n = true) {k : Nat} (hk : k ≤ d)
    (hscope : spec.level k ≤ spec.commandScopes cmd)
    (haddr : ∀ i, spec.level d < i → i ≤ spec.level k →
      0 ≤ addrVec.at i ∧ addrVec.at i < count i)
    {pCmd : Cmd} {t : TimingConsEntry Cmd} (ht : t ∈ spec.timingCons (spec.level k) pCmd)
    (hsib : t.sibling = true) (hcmd : t.cmd = cmd) {e : Issue Cmd} (he : e ∈ issuesOf pCmd parent)
    (hpath : ∀ i, spec.level d ≤ i → i < spec.level k → e.addrVec.at i = addrVec.at i)
    (hne : e.addrVec.at (spec.level k) ≠ addrVec.at (spec.level k)) : e.clk + t.val ≤ clk := by
  have hroot : k = d → e.clk + t.val ≤ clk := by
    rintro rfl
    have hbound := hs.base pCmd t ht hsib e he (by rw [hid]; exact hne)
    have hle := readyAt_le (spec.checkReady_readyAt hready) hclk
    rw [hcmd] at hbound
    omega
  induction d generalizing history parent with
  | zero => exact hroot (by omega)
  | succ d ih =>
      rcases Nat.eq_or_lt_of_le hk with rfl | hk'
      · exact hroot rfl
      · obtain ⟨-, hlen, hchild⟩ := hn
        have hlevel : spec.level (d + 1) + 1 = spec.level d := by
          unfold level
          omega
        have hle : spec.level d ≤ spec.level k := by
          unfold level
          omega
        have hnamed := haddr (spec.level d) (by omega) hle
        obtain ⟨child, hget, hready'⟩ :=
          spec.checkReady_child count hlen (by omega) hnamed hready
        obtain ⟨hchildId, hnode⟩ := hchild _ child hget
        have hs' := hs.2 _ child hget
        have hid' : child.base.nodeId = addrVec.at (spec.level d) := by omega
        have he' : e ∈ issuesOf pCmd
            (atLevel (spec.level (d + 1)) n.base.nodeId parent) := by
          refine List.mem_filter.mpr ⟨List.mem_filter.mpr ⟨issuesOf_subset he, ?_⟩,
            (List.mem_filter.mp he).2⟩
          rw [decide_eq_true_eq, hid]
          exact hpath _ (Nat.le_refl _) (by omega)
        refine ih (by omega) hnode hs' hid' hready' (by omega)
          (fun i h1 h2 => haddr i (by omega) h2) he' (fun i h1 h2 => hpath i (by omega) h2) ?_
        rintro rfl
        have hbound := hs'.base pCmd t ht hsib e he' (by rw [hid']; exact hne)
        have hle := readyAt_le (spec.checkReady_readyAt hready') hclk
        rw [hcmd] at hbound
        omega

end DRAMSpec

/-! ## Runs -/

/-- The earlier issues that an entry sets against a command: the `window`-th latest of its
preceding command at the same node, or every one at a sibling of that node. -/
def TimingConsInitializer.Against {Cmd Timing : Type} [DecidableEq Cmd]
    (ts : TimingConsInitializer Cmd Timing) (addrVec : AddrVec) (pCmd : Cmd)
    (earlier : List (Issue Cmd)) (e : Issue Cmd) : Prop :=
  if ts.isSibling then
    e ∈ issuesOf pCmd earlier ∧ (∀ i, i < ts.level → e.addrVec.at i = addrVec.at i) ∧
      e.addrVec.at ts.level ≠ addrVec.at ts.level
  else (issuesOf pCmd (issuesTo 0 ts.level addrVec earlier))[ts.window - 1]? = some e

def TimingConsInitializer.Respected {Cmd Timing : Type} [DecidableEq Cmd] (V : Timing → Int)
    (count : Nat → Int) (ts : TimingConsInitializer Cmd Timing) (f : Issue Cmd)
    (earlier : List (Issue Cmd)) : Prop :=
  f.cmd ∈ ts.following → NamesNode count ts.level f.addrVec →
    ∀ p ∈ ts.preceding, ∀ e, ts.Against f.addrVec p earlier e → e.clk + ts.latency V ≤ f.clk

/-- Every command of a history respects every entry that stands at or above its scope. -/
def RespectsEnforced {Cmd Timing : Type} [DecidableEq Cmd] (V : Timing → Int) (count : Nat → Int)
    (scopes : Cmd → Nat) (table : List (TimingConsInitializer Cmd Timing))
    (history : List (Issue Cmd)) : Prop :=
  ∀ later f earlier, history = later ++ f :: earlier →
    ∀ ts ∈ table, ts.level ≤ scopes f.cmd → ts.Respected V count f earlier

/-- What the entries of a table must satisfy to be looked at: they stand at a level with nodes,
their windows are positive, and channels have no sibling constraints. -/
structure EntriesFit {Cmd Timing : Type} (bankLevel : Nat)
    (table : List (TimingConsInitializer Cmd Timing)) : Prop where
  level : ∀ {ts}, ts ∈ table → ts.level ≤ bankLevel
  window : ∀ {ts}, ts ∈ table → 1 ≤ ts.window
  below : ∀ {ts}, ts ∈ table → ts.isSibling = true → 0 < ts.level

theorem EntriesFit.windowsPositive {Cmd St Ext Timing : Type} [DecidableEq Cmd]
    {spec : DRAMSpec Cmd St Ext} {V : Timing → Int}
    {table : List (TimingConsInitializer Cmd Timing)} (h : EntriesFit spec.bankLevel table)
    (htable : spec.timingCons = populateTimingcons V table) : spec.WindowsPositive := by
  intro level cmd t ht
  rw [htable] at ht
  obtain ⟨ts, hts, -, -, f, -, rfl⟩ := mem_populateTimingcons.mp ht
  exact h.window hts

namespace DRAMModel

variable {Cmd St Ext Timing : Type} [DecidableEq Cmd] {model : DRAMModel Cmd St Ext}
  {count : Nat → Int} {V : Timing → Int} {table : List (TimingConsInitializer Cmd Timing)}

def DeviceSiblings (s : IssueRun model.Dev Cmd) : Prop :=
  ∀ (i : Nat) channel, s.dev.channels[i]? = some channel →
    model.SiblingTiming model.bankLevel channel (atLevel 0 i s.history)

theorem createNodes_deviceSiblings : DeviceSiblings ⟨model.createNodes count, []⟩ := by
  intro i channel hget
  simp only [createNodes, List.getElem?_map] at hget
  obtain ⟨j, -, rfl⟩ := Option.map_eq_some_iff.mp hget
  exact DRAMSpec.newNode_siblingTiming _ _ _ _

theorem issueCommand_deviceSiblings (hact : model.ActionsKeepClocks)
    {s : IssueRun model.Dev Cmd} (hs : DeviceSiblings s) (cmd : Cmd) (addrVec : AddrVec) :
    DeviceSiblings
      ⟨model.issueCommand s.dev cmd addrVec, ⟨s.dev.clk, cmd, addrVec⟩ :: s.history⟩ := by
  intro i channel hget
  rw [atLevel_cons]
  dsimp only at hget ⊢
  unfold issueCommand at hget
  by_cases hneg : addrVec.at 0 < 0
  · rw [if_pos hneg] at hget
    rw [if_neg (by omega)]
    exact hs i channel hget
  · rw [if_neg hneg] at hget
    dsimp only at hget
    rw [List.getElem?_modify] at hget
    obtain ⟨old, hold, heq⟩ := Option.map_eq_some_iff.mp hget
    by_cases hi : (addrVec.at 0).toNat = i
    · rw [if_pos hi] at heq
      subst heq
      rw [if_pos (by omega)]
      have hnew := (hs i old hold).updateTiming ⟨s.dev.clk, cmd, addrVec⟩
      exact hnew.congr (hact.updateStates cmd addrVec s.dev.clk _ _)
    · rw [if_neg hi] at heq
      subst heq
      rw [if_neg (by omega)]
      exact hs i old hold

theorem checkReady_respected (htable : model.timingCons = populateTimingcons V table)
    {s : IssueRun model.Dev Cmd} (hs : model.DeviceTiming count s) (hsib : DeviceSiblings s)
    {cmd : Cmd} {addrVec : AddrVec} (hready : model.checkReady s.dev cmd addrVec = true)
    (hfits : EntriesFit model.bankLevel table) {ts : TimingConsInitializer Cmd Timing}
    (hts : ts ∈ table)
    (hscope : ts.level ≤ model.commandScopes cmd) :
    ts.Respected V count ⟨s.dev.clk, cmd, addrVec⟩ s.history := by
  intro hf hnode p hp e he
  unfold TimingConsInitializer.Against at he
  split at he
  · next hsibling =>
      obtain ⟨he, hpath, hne⟩ := he
      have hid := hnode 0 (Nat.zero_le _)
      unfold checkReady channelOf at hready
      dsimp only at hid hready hne hpath
      rw [if_neg (by omega)] at hready
      split at hready
      · next channel hget =>
          obtain ⟨hchannel, htiming⟩ := hs.channels _ channel hget
          have hsiblings := hsib _ channel hget
          rw [Int.toNat_of_nonneg hid.1] at hchannel hsiblings
          have hbank := hfits.level hts
          have hk : model.level (model.bankLevel - ts.level) = ts.level := by
            unfold DRAMSpec.level
            omega
          have ht : (⟨cmd, ts.latency V, ts.window, ts.isSibling⟩ : TimingConsEntry Cmd) ∈
              model.timingCons (model.level (model.bankLevel - ts.level)) p := by
            rw [hk, htable]
            exact mem_populateTimingcons.mpr ⟨ts, hts, rfl, hp, cmd, hf, rfl⟩
          have hbelow := hfits.below hts hsibling
          have he' : e ∈ issuesOf p (atLevel 0 (addrVec.at 0) s.history) := by
            refine List.mem_filter.mpr ⟨List.mem_filter.mpr ⟨issuesOf_subset he, ?_⟩,
              (List.mem_filter.mp he).2⟩
            exact decide_eq_true (hpath 0 hbelow)
          refine DRAMSpec.checkReady_siblings hs.clk_nonneg (Nat.le_refl _) htiming hsiblings ?_
            hready (Nat.sub_le _ _) (by rw [hk]; exact hscope) (fun i _ h2 => hnode i (by omega)) ht
            hsibling rfl he' (fun i _ h2 => hpath i (by omega)) (by rw [hk]; exact hne)
          rw [level_bankLevel]
          exact hchannel
      · exact absurd hready Bool.false_ne_true
  · next hplain =>
      exact checkReady_entry htable hs hready hts (by simpa using hplain) hf (hfits.level hts) hscope
        hnode hp he

/-! ### The invariant of a run -/

/-- The issues of a run, most recent first, with none after the clock of the device. -/
structure Chronological (s : IssueRun model.Dev Cmd) : Prop where
  past : ∀ e ∈ s.history, e.clk ≤ s.dev.clk
  descending : s.history.Pairwise fun e e' => e'.clk ≤ e.clk

omit [DecidableEq Cmd] in
theorem Chronological.tick {s : IssueRun model.Dev Cmd} (hs : Chronological s) :
    Chronological ⟨model.tick s.dev, s.history⟩ :=
  ⟨fun e he => Int.le_trans (hs.past e he) (Int.le_add_one (Int.le_refl _)), hs.descending⟩

theorem Chronological.issue {s : IssueRun model.Dev Cmd} (hs : Chronological s) (cmd : Cmd)
    (addrVec : AddrVec) : Chronological
      ⟨model.issueCommand s.dev cmd addrVec, ⟨s.dev.clk, cmd, addrVec⟩ :: s.history⟩ := by
  refine ⟨fun e he => ?_, List.pairwise_cons.mpr ⟨hs.past, hs.descending⟩⟩
  rw [issueCommand_clk]
  rcases List.mem_cons.mp he with rfl | he
  · exact Int.le_refl _
  · exact hs.past e he

/-- A device agrees with the history of its issues, and the history respects the table. -/
structure Timed (model : DRAMModel Cmd St Ext) (V : Timing → Int) (count : Nat → Int)
    (table : List (TimingConsInitializer Cmd Timing)) (s : IssueRun model.Dev Cmd) : Prop where
  timing : model.DeviceTiming count s
  siblings : DeviceSiblings s
  chronological : Chronological s
  respects : RespectsEnforced V count model.commandScopes table s.history

namespace Timed

theorem createNodes : Timed model V count table ⟨model.createNodes count, []⟩ := by
  refine ⟨createNodes_deviceTiming, createNodes_deviceSiblings,
    ⟨fun e he => absurd he List.not_mem_nil, .nil⟩, ?_⟩
  intro later f earlier heq
  simp at heq

theorem tick {s : IssueRun model.Dev Cmd} (hs : Timed model V count table s) :
    Timed model V count table ⟨model.tick s.dev, s.history⟩ :=
  ⟨hs.timing.tick, hs.siblings, hs.chronological.tick, hs.respects⟩

theorem issue (hact : model.ActionsKeepClocks)
    (htable : model.timingCons = populateTimingcons V table)
    (hfits : EntriesFit model.bankLevel table) {s : IssueRun model.Dev Cmd}
    (hs : Timed model V count table s) {cmd : Cmd} {addrVec : AddrVec}
    (hready : model.checkReady s.dev cmd addrVec = true) :
    Timed model V count table
      ⟨model.issueCommand s.dev cmd addrVec, ⟨s.dev.clk, cmd, addrVec⟩ :: s.history⟩ := by
  refine ⟨issueCommand_deviceTiming hact.actionsKeepTiming (hfits.windowsPositive htable)
    hs.timing cmd addrVec, issueCommand_deviceSiblings hact hs.siblings cmd addrVec,
    hs.chronological.issue cmd addrVec, ?_⟩
  intro later f earlier heq
  cases later with
  | nil =>
      obtain ⟨rfl, rfl⟩ := List.cons_eq_cons.mp heq
      exact fun ts hts hscope =>
        checkReady_respected htable hs.timing hs.siblings hready hfits hts hscope
  | cons x later =>
      obtain ⟨-, heq⟩ := List.cons_eq_cons.mp heq
      exact hs.respects later f earlier heq

end Timed

def Checked (model : DRAMModel Cmd St Ext) (s : IssueRun model.Dev Cmd) : DeviceOp Cmd → Prop
  | .tick => True
  | .issue cmd addrVec => model.checkReady s.dev cmd addrVec = true

instance (s : IssueRun model.Dev Cmd) (op : DeviceOp Cmd) : Decidable (Checked model s op) :=
  match op with
  | .tick => inferInstanceAs (Decidable True)
  | .issue _ _ => inferInstanceAs (Decidable (_ = true))

theorem reachable_timed (hact : model.ActionsKeepClocks)
    (htable : model.timingCons = populateTimingcons V table)
    (hfits : EntriesFit model.bankLevel table) {s : IssueRun model.Dev Cmd}
    (hr : Runs.Reachable (fun s => s = ⟨model.createNodes count, []⟩)
      (fun s op t => model.stepDevice s op = some t) (Checked model) s) :
    Timed model V count table s := by
  refine hr.invariant (I := Timed model V count table) ?_ ?_
  · rintro s rfl
    exact .createNodes
  · rintro s op t hs hchecked hstep
    cases op with
    | tick =>
        obtain rfl := Option.some.inj hstep
        exact hs.tick
    | issue cmd addrVec =>
        rw [stepDevice] at hstep
        split at hstep
        · obtain rfl := Option.some.inj hstep
          exact hs.issue hact htable hfits hchecked
        · cases hstep

end DRAMModel

/-! ## Windows of a history -/

section Windows

variable {Cmd Timing : Type} [DecidableEq Cmd] {V : Timing → Int} {count : Nat → Int}
  {scopes : Cmd → Nat} {table : List (TimingConsInitializer Cmd Timing)}

omit [DecidableEq Cmd] in
theorem RespectsEnforced.tail [DecidableEq Cmd] {e : Issue Cmd} {history : List (Issue Cmd)}
    (h : RespectsEnforced V count scopes table (e :: history)) :
    RespectsEnforced V count scopes table history :=
  fun later f earlier heq => h (e :: later) f earlier (by rw [heq]; rfl)

/-- An entry between commands of one kind keeps the issues at a node its latency apart, `window`
issues on. -/
theorem RespectsEnforced.apart {history : List (Issue Cmd)}
    (h : RespectsEnforced V count scopes table history) {ts : TimingConsInitializer Cmd Timing}
    (hts : ts ∈ table) {cmd : Cmd} (hp : cmd ∈ ts.preceding) (hf : cmd ∈ ts.following)
    (hsib : ts.isSibling = false) (hwin : 1 ≤ ts.window) (hscope : ts.level ≤ scopes cmd)
    {addrVec : AddrVec} (hnode : NamesNode count ts.level addrVec) (i : Nat) {a b : Issue Cmd}
    (ha : (issuesOf cmd (issuesTo 0 ts.level addrVec history))[i]? = some a)
    (hb : (issuesOf cmd (issuesTo 0 ts.level addrVec history))[i + ts.window]? = some b) :
    b.clk + ts.latency V ≤ a.clk := by
  induction history generalizing i with
  | nil => simp [issuesOf, issuesTo] at ha
  | cons e history ih =>
      by_cases he : e.cmd = cmd ∧ ∀ i, i ≤ ts.level → 0 ≤ i → e.addrVec.at i = addrVec.at i
      · obtain ⟨rfl, hat⟩ := he
        have hcons : issuesOf e.cmd (issuesTo 0 ts.level addrVec (e :: history)) =
            e :: issuesOf e.cmd (issuesTo 0 ts.level addrVec history) := by
          have hto : issuesTo 0 ts.level addrVec (e :: history) =
              e :: issuesTo 0 ts.level addrVec history :=
            List.filter_cons_of_pos (by exact decide_eq_true hat)
          rw [hto, issuesOf_cons_self]
        rw [hcons] at ha hb
        cases i with
        | zero =>
            obtain rfl := Option.some.inj ha
            have hsame : issuesTo 0 ts.level e.addrVec history =
                issuesTo 0 ts.level addrVec history := by
              refine List.filter_congr fun x _ => decide_eq_decide.mpr ?_
              exact forall_congr' fun i => forall_congr' fun hi => forall_congr' fun h0 => by
                rw [hat i hi h0]
            refine h [] e history rfl ts hts hscope hf ?_ e.cmd hp b ?_
            · intro i hi
              rw [hat i hi (Nat.zero_le i)]
              exact hnode i hi
            · unfold TimingConsInitializer.Against
              rw [if_neg (by simp [hsib]), hsame]
              have hpos : 0 + ts.window = ts.window - 1 + 1 := by omega
              rw [hpos, List.getElem?_cons_succ] at hb
              exact hb
        | succ i =>
            rw [Nat.add_right_comm, List.getElem?_cons_succ] at hb
            exact ih h.tail i ha hb
      · have hskip : issuesOf cmd (issuesTo 0 ts.level addrVec (e :: history)) =
            issuesOf cmd (issuesTo 0 ts.level addrVec history) := by
          unfold issuesOf issuesTo
          rw [List.filter_filter, List.filter_filter, List.filter_cons_of_neg]
          rw [Bool.and_eq_true, decide_eq_true_eq, decide_eq_true_eq]
          exact he
        rw [hskip] at ha hb
        exact ih h.tail i ha hb

end Windows

end AimSimulator.Dram
