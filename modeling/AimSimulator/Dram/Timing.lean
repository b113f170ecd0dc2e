import AimSimulator.Lib.Runs
import AimSimulator.Dram.Device
import AimSimulator.Dram.Lambdas
/-!
# Timing soundness of the device tree

The tree keeps one ready clock per node and command.  `NodeTiming` relates every
node to the history of the commands that hit it: its ready clocks dominate each
entry of its timing table, and its deques hold the latest issues.  `update_timing`
extends the history by one issue, actions leave the clocks alone, and `check_ready`
then implies every entry at or above the scope of a command.
-/

namespace AimSimulator.Dram

structure Issue (Cmd : Type) where
  clk : Int
  cmd : Cmd
  addrVec : AddrVec

/-! ## Histories -/

section History

variable {Cmd : Type}

def issuesOf [DecidableEq Cmd] (cmd : Cmd) (history : List (Issue Cmd)) : List (Issue Cmd) :=
  history.filter fun e => e.cmd = cmd

/-- The part of a history whose address has `id` at `level`. -/
def atLevel (level : Nat) (id : Int) (history : List (Issue Cmd)) : List (Issue Cmd) :=
  history.filter fun e => e.addrVec.at level = id

/-- The part of a history whose address agrees with `addrVec` on the levels `lo..hi`. -/
def issuesTo (lo hi : Nat) (addrVec : AddrVec) (history : List (Issue Cmd)) :
    List (Issue Cmd) :=
  history.filter fun e => ∀ i, i ≤ hi → lo ≤ i → e.addrVec.at i = addrVec.at i

theorem issuesOf_cons_self [DecidableEq Cmd] (e : Issue Cmd) (history : List (Issue Cmd)) :
    issuesOf e.cmd (e :: history) = e :: issuesOf e.cmd history := by
  simp [issuesOf]

theorem issuesOf_cons_of_ne [DecidableEq Cmd] {e : Issue Cmd} {cmd : Cmd} (hne : cmd ≠ e.cmd)
    (history : List (Issue Cmd)) : issuesOf cmd (e :: history) = issuesOf cmd history := by
  simp [issuesOf, Ne.symm hne]

theorem issuesOf_subset [DecidableEq Cmd] {cmd : Cmd} {history : List (Issue Cmd)} {e : Issue Cmd}
    (he : e ∈ issuesOf cmd history) : e ∈ history :=
  (List.mem_filter.mp he).1

theorem atLevel_cons (level : Nat) (id : Int) (e : Issue Cmd) (history : List (Issue Cmd)) :
    atLevel level id (e :: history) =
      if id = e.addrVec.at level then e :: atLevel level id history
      else atLevel level id history := by
  by_cases h : id = e.addrVec.at level
  · simp [atLevel, h]
  · simp [atLevel, h, Ne.symm h]

theorem atLevel_subset {level : Nat} {id : Int} {history : List (Issue Cmd)} {e : Issue Cmd}
    (he : e ∈ atLevel level id history) : e ∈ history :=
  (List.mem_filter.mp he).1

theorem issuesTo_of_lt {lo hi : Nat} (h : hi < lo) (addrVec : AddrVec)
    (history : List (Issue Cmd)) : issuesTo lo hi addrVec history = history := by
  unfold issuesTo
  rw [List.filter_eq_self]
  intro e _
  rw [decide_eq_true_eq]
  intro i h1 h2
  omega

theorem issuesTo_atLevel {lo hi : Nat} (h : lo ≤ hi) (addrVec : AddrVec)
    (history : List (Issue Cmd)) :
    issuesTo lo hi addrVec history =
      issuesTo (lo + 1) hi addrVec (atLevel lo (addrVec.at lo) history) := by
  unfold issuesTo atLevel
  rw [List.filter_filter]
  apply List.filter_congr
  intro e _
  rw [← Bool.decide_and, decide_eq_decide]
  constructor
  · intro hall
    exact ⟨fun i h1 h2 => hall i h1 (by omega), hall lo h (Nat.le_refl _)⟩
  · rintro ⟨hrest, hlo⟩ i h1 h2
    rcases Nat.eq_or_lt_of_le h2 with rfl | h2
    · exact hlo
    · exact hrest i h1 h2

end History

namespace DRAMSpec

variable {Cmd St Ext : Type} [DecidableEq Cmd] (spec : DRAMSpec Cmd St Ext)
  (count : Nat → Int)

/-- The clocks of a node against the history of the commands that hit it. -/
structure BaseTiming (level : Nat) (b : NodeBase Cmd St Ext) (history : List (Issue Cmd)) :
    Prop where
  ready : ∀ cmd, ∀ t ∈ spec.timingCons level cmd, t.sibling = false →
    ∀ e, (issuesOf cmd history)[t.window - 1]? = some e → e.clk + t.val ≤ b.cmdReadyClk t.cmd
  past : ∀ cmd, b.cmdHistory cmd =
    ((issuesOf cmd history).map Issue.clk ++
      List.replicate (spec.historyWindow level cmd) (-1)).take (spec.historyWindow level cmd)

/-- Every node of a subtree agrees with the part of the history that hit it, and
the tree has the shape of the organisation. -/
def NodeTiming : (d : Nat) → DRAMNode Cmd St Ext d → List (Issue Cmd) → Prop
  | 0, n, history => spec.BaseTiming (spec.level 0) n.base history
  | d + 1, n, history =>
      spec.BaseTiming (spec.level (d + 1)) n.base history ∧
      n.children.length = (count (spec.level d)).toNat ∧
      ∀ (i : Nat) (child : DRAMNode Cmd St Ext d), n.children[i]? = some child →
        child.base.nodeId = i ∧ NodeTiming d child (atLevel (spec.level d) i history)

/-- Actions touch neither the clocks nor the shape of a subtree. -/
def ActionsKeepTiming : Prop :=
  ∀ (d : Nat) (cmd : Cmd) (action : ActionFunc Cmd St Ext d),
    spec.actions d cmd = some action →
      ∀ (n : DRAMNode Cmd St Ext d) (addrVec : AddrVec) (clk : Int),
        (action n addrVec clk).base.nodeId = n.base.nodeId ∧
        ∀ history, spec.NodeTiming count d n history →
          spec.NodeTiming count d (action n addrVec clk) history

def WindowsPositive : Prop :=
  ∀ level cmd, ∀ t ∈ spec.timingCons level cmd, 1 ≤ t.window

/-! ## Ready clocks and histories of one node -/

theorem le_raiseReady (ready : Cmd → Int) (cmd : Cmd) (future : Int) (c : Cmd) :
    ready c ≤ raiseReady ready cmd future c := by
  unfold raiseReady
  split <;> omega

theorem raiseReady_self (ready : Cmd → Int) (cmd : Cmd) (future : Int) :
    future ≤ raiseReady ready cmd future cmd := by
  rw [raiseReady, if_pos rfl]
  omega

section Fold

omit [DecidableEq Cmd]

variable {Entry : Type} {raise : (Cmd → Int) → Entry → Cmd → Int}
  (hmono : ∀ ready t c, ready c ≤ raise ready t c)

include hmono

theorem le_foldl_raise (entries : List Entry) (ready : Cmd → Int) (c : Cmd) :
    ready c ≤ entries.foldl raise ready c := by
  induction entries generalizing ready with
  | nil => exact Int.le_refl _
  | cons t ts ih => exact Int.le_trans (hmono ready t c) (ih (raise ready t))

theorem foldl_raise_of_mem {entries : List Entry} {t : Entry} {c : Cmd} {bound : Int}
    (ht : t ∈ entries) (hbound : ∀ ready, bound ≤ raise ready t c) (ready : Cmd → Int) :
    bound ≤ entries.foldl raise ready c := by
  induction entries generalizing ready with
  | nil => cases ht
  | cons u us ih =>
      rcases List.mem_cons.mp ht with rfl | ht
      · exact Int.le_trans (hbound ready) (le_foldl_raise hmono us _ c)
      · exact ih ht _

end Fold

omit [DecidableEq Cmd] in
theorem window_le_foldl (entries : List (TimingConsEntry Cmd)) (window : Nat) :
    window ≤ entries.foldl (fun w t => max w t.window) window ∧
      ∀ t ∈ entries, t.window ≤ entries.foldl (fun w t => max w t.window) window := by
  induction entries generalizing window with
  | nil => simp
  | cons u us ih =>
      obtain ⟨hle, hmem⟩ := ih (max window u.window)
      refine ⟨by rw [List.foldl_cons]; omega, ?_⟩
      intro t ht
      rcases List.mem_cons.mp ht with rfl | ht
      · rw [List.foldl_cons]
        omega
      · exact hmem t ht

omit [DecidableEq Cmd] in
theorem window_le_historyWindow {level : Nat} {cmd : Cmd} {t : TimingConsEntry Cmd}
    (ht : t ∈ spec.timingCons level cmd) : t.window ≤ spec.historyWindow level cmd :=
  (window_le_foldl _ 0).2 t ht

theorem pushHistory_past {level : Nat} {b : NodeBase Cmd St Ext} {history : List (Issue Cmd)}
    (hb : spec.BaseTiming level b history) (e : Issue Cmd) (cmd : Cmd) :
    pushHistory b.cmdHistory e.cmd e.clk cmd =
      ((issuesOf cmd (e :: history)).map Issue.clk ++
        List.replicate (spec.historyWindow level cmd) (-1)).take
          (spec.historyWindow level cmd) := by
  unfold pushHistory
  rw [hb.past cmd]
  by_cases hcmd : cmd = e.cmd
  · subst hcmd
    rw [issuesOf_cons_self]
    cases hw : spec.historyWindow level e.cmd with
    | zero => simp
    | succ w =>
        have hlen : w + 1 ≤ ((issuesOf e.cmd history).map Issue.clk ++
            List.replicate (w + 1) (-1)).length := by
          simp only [List.length_append, List.length_replicate]
          omega
        rw [if_pos ⟨rfl, List.ne_nil_of_length_pos (by rw [List.length_take]; omega)⟩]
        rw [List.dropLast_eq_take, List.length_take, List.take_take, List.map_cons,
          List.cons_append, List.take_succ_cons]
        congr 2
        omega
  · rw [if_neg (fun h => hcmd h.1), issuesOf_cons_of_ne hcmd]

theorem updateTarget_baseTiming {level : Nat} {b : NodeBase Cmd St Ext}
    {history : List (Issue Cmd)} (hwin : spec.WindowsPositive)
    (hb : spec.BaseTiming level b history) (e : Issue Cmd)
    (hclk : ∀ x ∈ e :: history, 0 ≤ x.clk) :
    spec.BaseTiming level (spec.updateTarget level e.cmd e.clk b) (e :: history) := by
  refine ⟨?_, fun cmd => spec.pushHistory_past hb e cmd⟩
  have hmono : ∀ (ready : Cmd → Int) (t : TimingConsEntry Cmd) (c : Cmd), ready c ≤
      (if t.sibling then ready
       else
        let past := (pushHistory b.cmdHistory e.cmd e.clk e.cmd).getD (t.window - 1) (-1)
        if past < 0 then ready else raiseReady ready t.cmd (past + t.val)) c := by
    intro ready t c
    dsimp only
    split
    · exact Int.le_refl _
    · split
      · exact Int.le_refl _
      · exact le_raiseReady _ _ _ _
  intro cmd t ht hsib x hx
  by_cases hcmd : cmd = e.cmd
  · subst hcmd
    -- the deque holds the clock of `x` at index `t.window - 1`
    have hw : t.window - 1 < spec.historyWindow level e.cmd := by
      have h1 := hwin level e.cmd t ht
      have h2 := spec.window_le_historyWindow ht
      omega
    have hpast : (pushHistory b.cmdHistory e.cmd e.clk e.cmd).getD (t.window - 1) (-1) =
        x.clk := by
      rw [spec.pushHistory_past hb, List.getD_eq_getElem?_getD, List.getElem?_take_of_lt hw,
        List.getElem?_append_left, List.getElem?_map, hx]
      · rfl
      · obtain ⟨hlt, -⟩ := List.getElem?_eq_some_iff.mp hx
        simpa using hlt
    have hpos : 0 ≤ x.clk :=
      hclk x (issuesOf_subset (List.mem_of_getElem? hx))
    refine foldl_raise_of_mem hmono ht (fun ready => ?_) b.cmdReadyClk
    dsimp only
    rw [hsib, if_neg (by simp), hpast, if_neg (by omega)]
    exact raiseReady_self _ _ _
  · rw [issuesOf_cons_of_ne hcmd] at hx
    exact Int.le_trans (hb.ready cmd t ht hsib x hx) (le_foldl_raise hmono _ _ _)

theorem updateSibling_baseTiming {level : Nat} {b : NodeBase Cmd St Ext}
    {history : List (Issue Cmd)} (hb : spec.BaseTiming level b history) (cmd : Cmd)
    (clk : Int) : spec.BaseTiming level (spec.updateSibling level cmd clk b) history := by
  refine ⟨?_, hb.past⟩
  intro c t ht hsib x hx
  refine Int.le_trans (hb.ready c t ht hsib x hx) (le_foldl_raise ?_ _ _ _)
  intro ready t c
  split
  · exact le_raiseReady _ _ _ _
  · exact Int.le_refl _

/-! ## The recursion over the tree -/

theorem updateTiming_nodeId (cmd : Cmd) (addrVec : AddrVec) (clk : Int) (d : Nat)
    (n : DRAMNode Cmd St Ext d) :
    (spec.updateTiming cmd addrVec clk d n).base.nodeId = n.base.nodeId := by
  cases d with
  | zero =>
      rw [updateTiming]
      split <;> rfl
  | succ d =>
      rw [updateTiming]
      split <;> rfl

theorem updateTiming_nodeTiming (hwin : spec.WindowsPositive) (e : Issue Cmd) (d : Nat)
    (n : DRAMNode Cmd St Ext d) (history : List (Issue Cmd))
    (hclk : ∀ x ∈ e :: history, 0 ≤ x.clk) (hn : spec.NodeTiming count d n history) :
    spec.NodeTiming count d (spec.updateTiming e.cmd e.addrVec e.clk d n)
      (if n.base.nodeId = e.addrVec.at (spec.level d) then e :: history else history) := by
  induction d generalizing history with
  | zero =>
      rw [updateTiming]
      by_cases hid : n.base.nodeId = e.addrVec.at (spec.level 0)
      · rw [if_neg (not_not_intro hid), if_pos hid]
        exact spec.updateTarget_baseTiming hwin hn e hclk
      · rw [if_pos hid, if_neg hid]
        exact spec.updateSibling_baseTiming hn e.cmd e.clk
  | succ d ih =>
      obtain ⟨hbase, hlen, hchild⟩ := hn
      rw [updateTiming]
      by_cases hid : n.base.nodeId = e.addrVec.at (spec.level (d + 1))
      · rw [if_neg (not_not_intro hid), if_pos hid]
        refine ⟨spec.updateTarget_baseTiming hwin hbase e hclk, ?_, ?_⟩
        · rw [DRAMNode.children_node, List.length_map, hlen]
        · intro i child hget
          rw [DRAMNode.children_node, List.getElem?_map] at hget
          obtain ⟨old, hold, rfl⟩ := Option.map_eq_some_iff.mp hget
          obtain ⟨hi, hold⟩ := hchild i old hold
          refine ⟨by rw [updateTiming_nodeId, hi], ?_⟩
          have hclk' : ∀ x ∈ e :: atLevel (spec.level d) i history, 0 ≤ x.clk := by
            intro x hx
            rcases List.mem_cons.mp hx with rfl | hx
            · exact hclk x (List.mem_cons_self ..)
            · exact hclk x (List.mem_cons_of_mem _ (atLevel_subset hx))
          have hnew := ih old _ hclk' hold
          rw [hi] at hnew
          rw [atLevel_cons]
          exact hnew
      · rw [if_pos hid, if_neg hid]
        exact ⟨spec.updateSibling_baseTiming hbase e.cmd e.clk, hlen, hchild⟩

theorem runAction_nodeTiming (hact : spec.ActionsKeepTiming count) (cmd : Cmd)
    (addrVec : AddrVec) (clk : Int) {d : Nat} (n : DRAMNode Cmd St Ext d) :
    (spec.runAction cmd addrVec clk n).base.nodeId = n.base.nodeId ∧
      ∀ history, spec.NodeTiming count d n history →
        spec.NodeTiming count d (spec.runAction cmd addrVec clk n) history := by
  unfold runAction
  split
  · next action heq => exact hact d cmd action heq n addrVec clk
  · exact ⟨rfl, fun _ h => h⟩

theorem updateStates_nodeTiming (hact : spec.ActionsKeepTiming count) (cmd : Cmd)
    (addrVec : AddrVec) (clk : Int) (d : Nat) (n : DRAMNode Cmd St Ext d) :
    (spec.updateStates cmd addrVec clk d n).base.nodeId = n.base.nodeId ∧
      ∀ history, spec.NodeTiming count d n history →
        spec.NodeTiming count d (spec.updateStates cmd addrVec clk d n) history := by
  induction d with
  | zero => exact spec.runAction_nodeTiming count hact cmd addrVec clk n
  | succ d ih =>
      obtain ⟨hid, hrun⟩ := spec.runAction_nodeTiming count hact cmd addrVec clk n
      rw [updateStates]
      dsimp only
      split
      · exact ⟨hid, hrun⟩
      · split
        · exact ⟨hid, hrun⟩
        · refine ⟨hid, fun history hn => ?_⟩
          obtain ⟨hbase, hlen, hchild⟩ := hrun history hn
          refine ⟨hbase, by rw [DRAMNode.children_node, List.length_modify, hlen], ?_⟩
          intro i child hget
          rw [DRAMNode.children_node, List.getElem?_modify] at hget
          obtain ⟨old, hold, heq⟩ := Option.map_eq_some_iff.mp hget
          obtain ⟨hi, hnode⟩ := hchild i old hold
          subst heq
          split
          · exact ⟨by rw [(ih old).1, hi], (ih old).2 _ hnode⟩
          · exact ⟨hi, hnode⟩

omit [DecidableEq Cmd] in
theorem newNode_nodeId (d : Nat) (id : Int) : (spec.newNode count d id).base.nodeId = id := by
  cases d <;> rfl

theorem newBase_baseTiming (level : Nat) (id : Int) :
    spec.BaseTiming level (spec.newBase level id) [] := by
  refine ⟨fun cmd t _ _ e he => ?_, fun cmd => ?_⟩
  · simp [issuesOf] at he
  · simp [issuesOf, newBase]

theorem newNode_nodeTiming (d : Nat) (id : Int) :
    spec.NodeTiming count d (spec.newNode count d id) [] := by
  induction d generalizing id with
  | zero => exact spec.newBase_baseTiming _ id
  | succ d ih =>
      refine ⟨spec.newBase_baseTiming _ id, ?_, ?_⟩
      · simp [newNode]
      · intro i child hget
        rw [newNode, DRAMNode.children_node, List.getElem?_map] at hget
        obtain ⟨j, hj, rfl⟩ := Option.map_eq_some_iff.mp hget
        obtain ⟨-, rfl⟩ := List.getElem?_eq_some_iff.mp hj
        rw [List.getElem_range] at *
        exact ⟨spec.newNode_nodeId count d i, ih i⟩

/-! ## Actions that leave the clocks alone -/

/-- An update of a bank that touches neither its clocks nor its id. -/
structure KeepsClocks (f : NodeBase Cmd St Ext → NodeBase Cmd St Ext) : Prop where
  nodeId : ∀ b, (f b).nodeId = b.nodeId
  cmdReadyClk : ∀ b, (f b).cmdReadyClk = b.cmdReadyClk
  cmdHistory : ∀ b, (f b).cmdHistory = b.cmdHistory

theorem BaseTiming.congr {spec : DRAMSpec Cmd St Ext} {level : Nat}
    {b b' : NodeBase Cmd St Ext} {history : List (Issue Cmd)}
    (hb : spec.BaseTiming level b history) (hready : b'.cmdReadyClk = b.cmdReadyClk)
    (hpast : b'.cmdHistory = b.cmdHistory) : spec.BaseTiming level b' history := by
  refine ⟨?_, ?_⟩
  · rw [hready]
    exact hb.ready
  · rw [hpast]
    exact hb.past

omit [DecidableEq Cmd] in
theorem mapBanks_nodeId {f : NodeBase Cmd St Ext → NodeBase Cmd St Ext}
    (hf : KeepsClocks f) (d : Nat) (n : DRAMNode Cmd St Ext d) :
    (n.mapBanks f d).base.nodeId = n.base.nodeId := by
  cases d with
  | zero => exact hf.nodeId n.base
  | succ d => rfl

theorem mapBanks_nodeTiming {f : NodeBase Cmd St Ext → NodeBase Cmd St Ext}
    (hf : KeepsClocks f) (d : Nat) (n : DRAMNode Cmd St Ext d) (history : List (Issue Cmd))
    (hn : spec.NodeTiming count d n history) :
    spec.NodeTiming count d (n.mapBanks f d) history := by
  induction d generalizing history with
  | zero => exact BaseTiming.congr hn (hf.cmdReadyClk _) (hf.cmdHistory _)
  | succ d ih =>
      obtain ⟨hbase, hlen, hchild⟩ := hn
      refine ⟨hbase, ?_, ?_⟩
      · rw [DRAMNode.mapBanks, DRAMNode.children_node, List.length_map, hlen]
      · intro i child hget
        rw [DRAMNode.mapBanks, DRAMNode.children_node, List.getElem?_map] at hget
        obtain ⟨old, hold, rfl⟩ := Option.map_eq_some_iff.mp hget
        obtain ⟨hid, hnode⟩ := hchild i old hold
        exact ⟨by rw [mapBanks_nodeId hf, hid], ih old _ hnode⟩

omit [DecidableEq Cmd] in
theorem openRow_keepsClocks (opened : St) (row : Int) :
    @KeepsClocks Cmd _ Ext (NodeBase.openRow opened row) :=
  ⟨fun _ => rfl, fun _ => rfl, fun _ => rfl⟩

omit [DecidableEq Cmd] in
theorem close_keepsClocks (closed : St) :
    @KeepsClocks Cmd _ Ext (NodeBase.close closed) :=
  ⟨fun _ => rfl, fun _ => rfl, fun _ => rfl⟩

/-! ## Soundness of `check_ready` -/

omit [DecidableEq Cmd] in
theorem readyAt_le {cmd : Cmd} {clk : Int} {b : NodeBase Cmd St Ext}
    (h : readyAt cmd clk b = true) (hclk : 0 ≤ clk) : b.cmdReadyClk cmd ≤ clk := by
  simp only [readyAt, Bool.not_eq_true', Bool.and_eq_false_iff, bne_eq_false_iff_eq,
    decide_eq_false_iff_not] at h
  -- the sentinel `-1` lies below every clock
  rcases h with h | h <;> omega

omit [DecidableEq Cmd] in
theorem checkReady_readyAt {cmd : Cmd} {addrVec : AddrVec} {clk : Int} {d : Nat}
    {n : DRAMNode Cmd St Ext d} (h : spec.checkReady cmd addrVec clk d n = true) :
    readyAt cmd clk n.base = true := by
  cases d with
  | zero => exact h
  | succ d =>
      rw [checkReady, Bool.and_eq_true] at h
      exact h.1

omit [DecidableEq Cmd] in
theorem checkReady_child {cmd : Cmd} {addrVec : AddrVec} {clk : Int} {d : Nat}
    {n : DRAMNode Cmd St Ext (d + 1)}
    (hlen : n.children.length = (count (spec.level d)).toNat)
    (hscope : spec.level (d + 1) ≠ spec.commandScopes cmd)
    (haddr : 0 ≤ addrVec.at (spec.level d) ∧
      addrVec.at (spec.level d) < count (spec.level d))
    (h : spec.checkReady cmd addrVec clk (d + 1) n = true) :
    ∃ child, n.children[(addrVec.at (spec.level d)).toNat]? = some child ∧
      spec.checkReady cmd addrVec clk d child = true := by
  have hlt : (addrVec.at (spec.level d)).toNat < n.children.length := by omega
  have hne : n.children.isEmpty = false := by
    rw [List.isEmpty_eq_false_iff]
    exact List.ne_nil_of_length_pos (by omega)
  rw [checkReady, Bool.and_eq_true] at h
  have hrec := h.2
  rw [hne, decide_eq_false hscope, Bool.false_or, Bool.false_or] at hrec
  dsimp only at hrec
  rw [if_neg (by omega), List.getElem?_eq_getElem hlt] at hrec
  exact ⟨_, List.getElem?_eq_getElem hlt, hrec⟩

theorem checkReady_root {cmd : Cmd} {addrVec : AddrVec} {clk : Int} (hclk : 0 ≤ clk)
    {d : Nat} {n : DRAMNode Cmd St Ext d} {history : List (Issue Cmd)}
    (hb : spec.BaseTiming (spec.level d) n.base history)
    (hready : spec.checkReady cmd addrVec clk d n = true)
    {pCmd : Cmd} {t : TimingConsEntry Cmd} (ht : t ∈ spec.timingCons (spec.level d) pCmd)
    (hsib : t.sibling = false) (hcmd : t.cmd = cmd) {e : Issue Cmd}
    (he : (issuesOf pCmd history)[t.window - 1]? = some e) : e.clk + t.val ≤ clk := by
  have h1 := hb.ready pCmd t ht hsib e he
  have h2 := readyAt_le (spec.checkReady_readyAt hready) hclk
  rw [hcmd] at h1
  omega

/-- A command that passes `check_ready` at a node respects the entries of every node
on its path down to the scope of the command. -/
theorem checkReady_sound {cmd : Cmd} {addrVec : AddrVec} {clk : Int} (hclk : 0 ≤ clk)
    {d : Nat} (hd : d ≤ spec.bankLevel) {n : DRAMNode Cmd St Ext d}
    {history : List (Issue Cmd)} (hn : spec.NodeTiming count d n history)
    (hready : spec.checkReady cmd addrVec clk d n = true) {k : Nat} (hk : k ≤ d)
    (hscope : spec.level k ≤ spec.commandScopes cmd)
    (haddr : ∀ i, spec.level d < i → i ≤ spec.level k →
      0 ≤ addrVec.at i ∧ addrVec.at i < count i)
    {pCmd : Cmd} {t : TimingConsEntry Cmd} (ht : t ∈ spec.timingCons (spec.level k) pCmd)
    (hsib : t.sibling = false) (hcmd : t.cmd = cmd) {e : Issue Cmd}
    (he : (issuesOf pCmd (issuesTo (spec.level d + 1) (spec.level k) addrVec history))[
      t.window - 1]? = some e) : e.clk + t.val ≤ clk := by
  induction d generalizing history with
  | zero =>
      obtain rfl : k = 0 := by omega
      rw [issuesTo_of_lt (Nat.lt_succ_self _)] at he
      exact spec.checkReady_root hclk hn hready ht hsib hcmd he
  | succ d ih =>
      obtain ⟨hbase, hlen, hchild⟩ := hn
      rcases Nat.eq_or_lt_of_le hk with rfl | hk'
      · rw [issuesTo_of_lt (Nat.lt_succ_self _)] at he
        exact spec.checkReady_root hclk hbase hready ht hsib hcmd he
      · have hlevel : spec.level (d + 1) + 1 = spec.level d := by
          unfold level
          omega
        have hle : spec.level d ≤ spec.level k := by
          unfold level
          omega
        have hid := haddr (spec.level d) (by omega) hle
        obtain ⟨child, hget, hready'⟩ :=
          spec.checkReady_child count hlen (by omega) hid hready
        obtain ⟨-, hnode⟩ := hchild _ child hget
        rw [Int.toNat_of_nonneg hid.1] at hnode
        rw [hlevel, issuesTo_atLevel hle] at he
        exact ih (by omega) hnode hready' (by omega)
          (fun i h1 h2 => haddr i (by omega) h2) he

end DRAMSpec

/-! ## Runs of `issue_command` -/

/-- A device together with every issue so far, most recent first. -/
structure IssueRun (Dev Cmd : Type) where
  dev : Dev
  history : List (Issue Cmd)

/-- What can happen to a device: its clock advances, or a command is issued. -/
inductive DeviceOp (Cmd : Type)
  | tick
  | issue (cmd : Cmd) (addrVec : AddrVec)

def NamesNode (count : Nat → Int) (level : Nat) (addrVec : AddrVec) : Prop :=
  ∀ i, i ≤ level → 0 ≤ addrVec.at i ∧ addrVec.at i < count i

/-- Every constraint of the table holds in a history: an issue of a following command
at a node comes no earlier than the latency after the `window`-th latest issue of the
preceding command at the same node. -/
def RespectsTimingCons {Cmd Timing : Type} [DecidableEq Cmd] (V : Timing → Int)
    (count : Nat → Int) (table : List (TimingConsInitializer Cmd Timing))
    (history : List (Issue Cmd)) : Prop :=
  ∀ later f earlier, history = later ++ f :: earlier →
    ∀ ts ∈ table, f.cmd ∈ ts.following → NamesNode count ts.level f.addrVec →
      ∀ p ∈ ts.preceding, ∀ e,
        (issuesOf p (issuesTo 0 ts.level f.addrVec earlier))[ts.window - 1]? = some e →
          e.clk + ts.latency V ≤ f.clk

theorem RespectsTimingCons.nil {Cmd Timing : Type} [DecidableEq Cmd] (V : Timing → Int)
    (count : Nat → Int) (table : List (TimingConsInitializer Cmd Timing)) :
    RespectsTimingCons V count table [] := by
  intro later f earlier h
  simp at h

theorem RespectsTimingCons.cons {Cmd Timing : Type} [DecidableEq Cmd] {V : Timing → Int}
    {count : Nat → Int} {table : List (TimingConsInitializer Cmd Timing)}
    {f : Issue Cmd} {history : List (Issue Cmd)}
    (h : RespectsTimingCons V count table history)
    (hf : ∀ ts ∈ table, f.cmd ∈ ts.following → NamesNode count ts.level f.addrVec →
      ∀ p ∈ ts.preceding, ∀ e,
        (issuesOf p (issuesTo 0 ts.level f.addrVec history))[ts.window - 1]? = some e →
          e.clk + ts.latency V ≤ f.clk) :
    RespectsTimingCons V count table (f :: history) := by
  intro later g earlier heq
  cases later with
  | nil =>
      obtain ⟨rfl, rfl⟩ := List.cons_eq_cons.mp heq
      exact hf
  | cons x later =>
      obtain ⟨-, heq⟩ := List.cons_eq_cons.mp heq
      exact h later g earlier heq

theorem mem_populateTimingcons {Cmd Timing : Type} [DecidableEq Cmd] {V : Timing → Int}
    {table : List (TimingConsInitializer Cmd Timing)} {level : Nat} {pCmd : Cmd}
    {t : TimingConsEntry Cmd} :
    t ∈ populateTimingcons V table level pCmd ↔
      ∃ ts ∈ table, ts.level = level ∧ pCmd ∈ ts.preceding ∧
        ∃ f ∈ ts.following, t = ⟨f, ts.latency V, ts.window, ts.isSibling⟩ := by
  unfold populateTimingcons
  rw [List.mem_flatMap]
  constructor
  · rintro ⟨ts, hts, ht⟩
    split at ht
    · next hlevel =>
        rw [List.mem_flatMap] at ht
        obtain ⟨p, hp, ht⟩ := ht
        split at ht
        · next heq =>
            obtain ⟨f, hf, rfl⟩ := List.mem_map.mp ht
            exact ⟨ts, hts, hlevel, heq ▸ hp, f, hf, rfl⟩
        · cases ht
    · cases ht
  · rintro ⟨ts, hts, hlevel, hp, f, hf, rfl⟩
    refine ⟨ts, hts, ?_⟩
    rw [if_pos hlevel, List.mem_flatMap]
    refine ⟨pCmd, hp, ?_⟩
    rw [if_pos rfl]
    exact List.mem_map.mpr ⟨f, hf, rfl⟩

namespace DRAMModel

variable {Cmd St Ext Timing : Type} [DecidableEq Cmd] (model : DRAMModel Cmd St Ext)
  (count : Nat → Int)

/-- One step of a device: a command is issued when it passes `check_ready`; the mode
change is issued unchecked. -/
def stepDevice (s : IssueRun model.Dev Cmd) : DeviceOp Cmd → Option (IssueRun model.Dev Cmd)
  | .tick => some { s with dev := model.tick s.dev }
  | .issue cmd addrVec =>
      if cmd = model.tmod ∨ model.checkReady s.dev cmd addrVec = true then
        some ⟨model.issueCommand s.dev cmd addrVec, ⟨s.dev.clk, cmd, addrVec⟩ :: s.history⟩
      else none

/-- One step of a device that is issued any command, whether it passes `check_ready` or not. -/
def stepUnchecked (s : IssueRun model.Dev Cmd) : DeviceOp Cmd → Option (IssueRun model.Dev Cmd)
  | .tick => some { s with dev := model.tick s.dev }
  | .issue cmd addrVec =>
      some ⟨model.issueCommand s.dev cmd addrVec, ⟨s.dev.clk, cmd, addrVec⟩ :: s.history⟩

structure DeviceTiming (s : IssueRun model.Dev Cmd) : Prop where
  clk_nonneg : 0 ≤ s.dev.clk
  past_nonneg : ∀ e ∈ s.history, 0 ≤ e.clk
  channels : ∀ (i : Nat) channel, s.dev.channels[i]? = some channel →
    channel.base.nodeId = i ∧
      model.NodeTiming count model.bankLevel channel (atLevel 0 i s.history)

/-- What the entries of a table must satisfy for readiness to be sound: they stand at or
above the scope of what they constrain, and never constrain the unchecked mode change. -/
def TableFits (table : List (TimingConsInitializer Cmd Timing)) : Prop :=
  ∀ ts ∈ table, ts.level ≤ model.bankLevel ∧ 1 ≤ ts.window ∧ ts.isSibling = false ∧
    ∀ f ∈ ts.following, ts.level ≤ model.commandScopes f ∧ f ≠ model.tmod

variable {model count} {V : Timing → Int} {table : List (TimingConsInitializer Cmd Timing)}

omit [DecidableEq Cmd] in
theorem level_bankLevel : model.level model.bankLevel = 0 := Nat.sub_self _

theorem createNodes_deviceTiming :
    model.DeviceTiming count ⟨model.createNodes count, []⟩ := by
  refine ⟨Int.le_refl _, by simp, ?_⟩
  intro i channel hget
  simp only [createNodes, List.getElem?_map] at hget
  obtain ⟨j, hj, rfl⟩ := Option.map_eq_some_iff.mp hget
  obtain ⟨-, rfl⟩ := List.getElem?_eq_some_iff.mp hj
  rw [List.getElem_range] at *
  exact ⟨model.newNode_nodeId count _ _, model.newNode_nodeTiming count _ _⟩

theorem issueCommand_deviceTiming (hact : model.ActionsKeepTiming count)
    (hwin : model.WindowsPositive) {s : IssueRun model.Dev Cmd}
    (hs : model.DeviceTiming count s) (cmd : Cmd) (addrVec : AddrVec) :
    model.DeviceTiming count
      ⟨model.issueCommand s.dev cmd addrVec, ⟨s.dev.clk, cmd, addrVec⟩ :: s.history⟩ := by
  have hpast : ∀ e ∈ (⟨s.dev.clk, cmd, addrVec⟩ : Issue Cmd) :: s.history, 0 ≤ e.clk := by
    intro e he
    rcases List.mem_cons.mp he with rfl | he
    · exact hs.clk_nonneg
    · exact hs.past_nonneg e he
  unfold issueCommand
  by_cases hneg : addrVec.at 0 < 0
  · rw [if_pos hneg]
    refine ⟨hs.clk_nonneg, hpast, fun i channel hget => ?_⟩
    rw [atLevel_cons, if_neg (by dsimp only; omega)]
    exact hs.channels i channel hget
  · rw [if_neg hneg]
    refine ⟨hs.clk_nonneg, hpast, fun i channel hget => ?_⟩
    dsimp only at hget
    rw [List.getElem?_modify] at hget
    obtain ⟨old, hold, heq⟩ := Option.map_eq_some_iff.mp hget
    obtain ⟨hid, hnode⟩ := hs.channels i old hold
    rw [atLevel_cons]
    dsimp only
    by_cases hi : (addrVec.at 0).toNat = i
    · rw [if_pos hi] at heq
      subst heq
      have hi' : (i : Int) = addrVec.at 0 := by omega
      rw [if_pos hi']
      obtain ⟨hid', hkeep⟩ := model.updateStates_nodeTiming count hact cmd addrVec s.dev.clk _
        (model.updateTiming cmd addrVec s.dev.clk _ old)
      refine ⟨by rw [hid', model.updateTiming_nodeId, hid], hkeep _ ?_⟩
      have hnew := model.updateTiming_nodeTiming count hwin ⟨s.dev.clk, cmd, addrVec⟩ _ old
        (atLevel 0 i s.history) ?_ hnode
      · rw [level_bankLevel, if_pos (by rw [hid]; exact hi')] at hnew
        exact hnew
      · intro x hx
        rcases List.mem_cons.mp hx with rfl | hx
        · exact hs.clk_nonneg
        · exact hs.past_nonneg x (atLevel_subset hx)
    · rw [if_neg hi] at heq
      subst heq
      rw [if_neg (by omega)]
      exact ⟨hid, hnode⟩

theorem checkReady_entry (htable : model.timingCons = populateTimingcons V table)
    {s : IssueRun model.Dev Cmd} (hs : model.DeviceTiming count s) {cmd : Cmd} {addrVec : AddrVec}
    (hready : model.checkReady s.dev cmd addrVec = true)
    {ts : TimingConsInitializer Cmd Timing} (hts : ts ∈ table) (hsib : ts.isSibling = false)
    (hf : cmd ∈ ts.following) (hlevel : ts.level ≤ model.bankLevel)
    (hscope : ts.level ≤ model.commandScopes cmd) (hnode : NamesNode count ts.level addrVec)
    {p : Cmd} (hp : p ∈ ts.preceding) {e : Issue Cmd}
    (he : (issuesOf p (issuesTo 0 ts.level addrVec s.history))[ts.window - 1]? = some e) :
    e.clk + ts.latency V ≤ s.dev.clk := by
  have hid := hnode 0 (Nat.zero_le _)
  unfold checkReady channelOf at hready
  rw [if_neg (by omega)] at hready
  split at hready
  · next channel hget =>
      obtain ⟨-, htiming⟩ := hs.channels _ channel hget
      rw [Int.toNat_of_nonneg hid.1] at htiming
      have hk : model.level (model.bankLevel - ts.level) = ts.level := by
        unfold DRAMSpec.level
        omega
      have ht : (⟨cmd, ts.latency V, ts.window, ts.isSibling⟩ : TimingConsEntry Cmd) ∈
          model.timingCons (model.level (model.bankLevel - ts.level)) p := by
        rw [hk, htable]
        exact mem_populateTimingcons.mpr ⟨ts, hts, rfl, hp, cmd, hf, rfl⟩
      rw [issuesTo_atLevel (Nat.zero_le _)] at he
      refine model.checkReady_sound count hs.clk_nonneg (Nat.le_refl _) htiming hready
        (Nat.sub_le _ _) (by rw [hk]; exact hscope) (fun i _ h2 => hnode i (by omega)) ht hsib
        rfl ?_
      rw [level_bankLevel, hk]
      exact he
  · exact absurd hready (by simp)

theorem checkReady_respects (htable : model.timingCons = populateTimingcons V table)
    (hfits : model.TableFits table) {s : IssueRun model.Dev Cmd}
    (hs : model.DeviceTiming count s) {cmd : Cmd} {addrVec : AddrVec}
    (hready : cmd = model.tmod ∨ model.checkReady s.dev cmd addrVec = true) :
    ∀ ts ∈ table, cmd ∈ ts.following → NamesNode count ts.level addrVec →
      ∀ p ∈ ts.preceding, ∀ e,
        (issuesOf p (issuesTo 0 ts.level addrVec s.history))[ts.window - 1]? = some e →
          e.clk + ts.latency V ≤ s.dev.clk := by
  intro ts hts hf hnode p hp e he
  obtain ⟨hlevel, -, hsib, hfollow⟩ := hfits ts hts
  obtain ⟨hscope, htmod⟩ := hfollow cmd hf
  exact checkReady_entry htable hs (hready.resolve_left htmod) hts hsib hf hlevel hscope hnode hp he

theorem reachable_respects (htable : model.timingCons = populateTimingcons V table)
    (hfits : model.TableFits table) (hact : model.ActionsKeepTiming count)
    {s : IssueRun model.Dev Cmd}
    (hr : Runs.Reachable (fun s => s = ⟨model.createNodes count, []⟩)
      (fun s op t => model.stepDevice s op = some t) (fun _ _ => True) s) :
    RespectsTimingCons V count table s.history := by
  have hwin : model.WindowsPositive := by
    intro level cmd t ht
    rw [htable] at ht
    obtain ⟨ts, hts, -, -, f, -, rfl⟩ := mem_populateTimingcons.mp ht
    exact (hfits ts hts).2.1
  suffices h : model.DeviceTiming count s ∧ RespectsTimingCons V count table s.history from h.2
  refine hr.invariant (I := fun s =>
    model.DeviceTiming count s ∧ RespectsTimingCons V count table s.history) ?_ ?_
  · rintro s rfl
    exact ⟨createNodes_deviceTiming, RespectsTimingCons.nil V count table⟩
  · rintro s op t ⟨htiming, hrespects⟩ - hstep
    cases op with
    | tick =>
        obtain rfl := Option.some.inj hstep
        refine ⟨⟨?_, htiming.past_nonneg, htiming.channels⟩, hrespects⟩
        have := htiming.clk_nonneg
        simp only [tick]
        omega
    | issue cmd addrVec =>
        rw [stepDevice] at hstep
        split at hstep
        · next hready =>
            obtain rfl := Option.some.inj hstep
            exact ⟨issueCommand_deviceTiming hact hwin htiming cmd addrVec,
              hrespects.cons (checkReady_respects htable hfits htiming hready)⟩
        · cases hstep

end DRAMModel

end AimSimulator.Dram
