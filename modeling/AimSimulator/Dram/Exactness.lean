import AimSimulator.Dram.ReadyClocks
import AimSimulator.Dram.Siblings
/-!
# Exactness of `check_ready`

The ready clock of a node is the latest that its timing table demands, windows and sibling
entries included: each issue raises it by what the window counts from and by what the siblings
ask for, and no later issue asks for less.  `check_ready` then passes a command exactly when
the command respects every entry at or above its scope.
-/

namespace AimSimulator.Dram

/-- The part of a history whose address agrees with `addrVec` on the levels from `lo` to below
`hi`: the issues to a node at `hi` and to its siblings. -/
def issuesAbove {Cmd : Type} (lo hi : Nat) (addrVec : AddrVec) (history : List (Issue Cmd)) :
    List (Issue Cmd) :=
  history.filter fun e => ∀ i, i < hi → lo ≤ i → e.addrVec.at i = addrVec.at i

section History

variable {Cmd : Type} {lo hi : Nat} {addrVec : AddrVec} {history : List (Issue Cmd)}

theorem issuesAbove_self : issuesAbove lo lo addrVec history = history := by
  refine List.filter_eq_self.mpr fun e _ => decide_eq_true fun i h1 h2 => ?_
  omega

theorem issuesAbove_atLevel (h : lo < hi) :
    issuesAbove lo hi addrVec history =
      issuesAbove (lo + 1) hi addrVec (atLevel lo (addrVec.at lo) history) := by
  unfold issuesAbove atLevel
  rw [List.filter_filter]
  refine List.filter_congr fun e _ => ?_
  rw [← Bool.decide_and, decide_eq_decide]
  constructor
  · intro hall
    exact ⟨fun i h1 h2 => hall i h1 (by omega), hall lo h (Nat.le_refl _)⟩
  · rintro ⟨hrest, hlo⟩ i h1 h2
    rcases Nat.eq_or_lt_of_le h2 with rfl | h2
    · exact hlo
    · exact hrest i h1 h2

theorem atLevel_atLevel {id : Int} :
    atLevel lo id (atLevel lo id history) = atLevel lo id history :=
  List.filter_eq_self.mpr fun _ he => (List.mem_filter.mp he).2

theorem atLevel_issuesAbove (h : lo ≤ hi) :
    atLevel hi (addrVec.at hi) (issuesAbove lo hi addrVec history) =
      issuesTo lo hi addrVec history := by
  unfold issuesAbove atLevel issuesTo
  rw [List.filter_filter]
  refine List.filter_congr fun e _ => ?_
  rw [← Bool.decide_and, decide_eq_decide]
  constructor
  · rintro ⟨hhi, hall⟩ i h1 h2
    rcases Nat.eq_or_lt_of_le h1 with rfl | h1
    · exact hhi
    · exact hall i h1 h2
  · intro hall
    exact ⟨hall hi (Nat.le_refl _) h, fun i h1 h2 => hall i (Nat.le_of_lt h1) h2⟩

end History

namespace DRAMSpec

variable {Cmd St Ext : Type} [DecidableEq Cmd] (spec : DRAMSpec Cmd St Ext) {count : Nat → Int}
  {level : Nat}

/-! ## What the entries of one node demand -/

/-- A clock is late enough for every entry at a level that constrains a command at the node
`id`, against the issues to the node and its siblings. -/
def MeetsAll (level : Nat) (id : Int) (cmd : Cmd) (clk : Int) (history : List (Issue Cmd)) :
    Prop :=
  ∀ pCmd, ∀ t ∈ spec.timingCons level pCmd, t.cmd = cmd →
    if t.sibling then
      ∀ e ∈ issuesOf pCmd history, e.addrVec.at level ≠ id → e.clk + t.val ≤ clk
    else
      ∀ e, (issuesOf pCmd (atLevel level id history))[t.window - 1]? = some e →
        e.clk + t.val ≤ clk

def BaseComplete (level : Nat) (b : NodeBase Cmd St Ext) (history : List (Issue Cmd)) : Prop :=
  ∀ cmd clk, 0 ≤ clk → spec.MeetsAll level b.nodeId cmd clk history → b.cmdReadyClk cmd ≤ clk

def NodeComplete : (d : Nat) → DRAMNode Cmd St Ext d → List (Issue Cmd) → Prop
  | 0, n, history => spec.BaseComplete (spec.level 0) n.base history
  | d + 1, n, history =>
      spec.BaseComplete (spec.level (d + 1)) n.base history ∧
      ∀ (i : Nat) (child : DRAMNode Cmd St Ext d), n.children[i]? = some child →
        NodeComplete d child (atLevel (spec.level (d + 1)) n.base.nodeId history)

variable {spec}

theorem NodeComplete.base {d : Nat} {n : DRAMNode Cmd St Ext d} {history : List (Issue Cmd)}
    (h : spec.NodeComplete d n history) : spec.BaseComplete (spec.level d) n.base history := by
  cases d with
  | zero => exact h
  | succ d => exact h.1

theorem NodeComplete.congr {d : Nat} {n n' : DRAMNode Cmd St Ext d}
    (h : DRAMNode.SameClocks d n n') {history : List (Issue Cmd)}
    (hn : spec.NodeComplete d n history) : spec.NodeComplete d n' history := by
  have hbase : spec.BaseComplete (spec.level d) n'.base history := by
    intro cmd clk h0 hmeets
    rw [h.base.cmdReadyClk]
    rw [h.base.nodeId] at hmeets
    exact hn.base cmd clk h0 hmeets
  induction d generalizing history with
  | zero => exact hbase
  | succ d ih =>
      refine ⟨hbase, fun i child' hget => ?_⟩
      obtain ⟨child, hget, hsame⟩ := h.children.2 i child' hget
      rw [h.base.nodeId]
      have hchild := hn.2 i child hget
      refine ih hsame hchild fun cmd clk h0 hmeets => ?_
      rw [hsame.base.cmdReadyClk]
      rw [hsame.base.nodeId] at hmeets
      exact hchild.base cmd clk h0 hmeets

theorem newNode_complete (d : Nat) (id : Int) :
    spec.NodeComplete d (spec.newNode count d id) [] := by
  have hbase : ∀ level id, spec.BaseComplete level (spec.newBase level id) [] := by
    intro level id cmd clk h0 _
    show (-1 : Int) ≤ clk
    omega
  induction d generalizing id with
  | zero => exact hbase _ id
  | succ d ih =>
      refine ⟨hbase _ id, fun i child hget => ?_⟩
      rw [newNode, DRAMNode.children_node, List.getElem?_map] at hget
      obtain ⟨j, -, rfl⟩ := Option.map_eq_some_iff.mp hget
      exact ih j

/-! ## What `update_timing` does to it -/

theorem window_advances {cmd : Cmd} {e x : Issue Cmd} {history : List (Issue Cmd)}
    (hdesc : (e :: history).Pairwise fun a b => b.clk ≤ a.clk) {w : Nat}
    (hx : (issuesOf cmd history)[w]? = some x) :
    ∃ y, (issuesOf cmd (e :: history))[w]? = some y ∧ x.clk ≤ y.clk := by
  by_cases hcmd : cmd = e.cmd
  · subst hcmd
    rw [issuesOf_cons_self]
    have hsorted : (e :: issuesOf e.cmd history).Pairwise fun a b => b.clk ≤ a.clk := by
      rw [← issuesOf_cons_self]
      exact hdesc.filter _
    obtain ⟨hw, rfl⟩ := List.getElem?_eq_some_iff.mp hx
    have hlt : w < (e :: issuesOf e.cmd history).length := by
      rw [List.length_cons]
      omega
    refine ⟨_, List.getElem?_eq_getElem hlt, ?_⟩
    exact (List.pairwise_iff_getElem.mp hsorted) w (w + 1) hlt
      (by rw [List.length_cons]; omega) (Nat.lt_succ_self w)
  · rw [issuesOf_cons_of_ne hcmd]
    exact ⟨x, hx, Int.le_refl _⟩

theorem MeetsAll.tail {id : Int} {cmd : Cmd} {clk : Int} {e : Issue Cmd}
    {history : List (Issue Cmd)} (hdesc : (e :: history).Pairwise fun a b => b.clk ≤ a.clk)
    (h : spec.MeetsAll level id cmd clk (e :: history)) : spec.MeetsAll level id cmd clk history := by
  intro pCmd t ht hcmd
  have hall := h pCmd t ht hcmd
  split at hall
  · next hsib =>
      rw [if_pos hsib]
      refine fun x hx => hall x ?_
      exact List.mem_filter.mpr ⟨List.mem_cons_of_mem e (issuesOf_subset hx),
        (List.mem_filter.mp hx).2⟩
  · next hsib =>
      rw [if_neg hsib]
      intro x hx
      rw [atLevel_cons] at hall
      split at hall
      · have hdesc' : (e :: atLevel level id history).Pairwise fun a b => b.clk ≤ a.clk := by
          refine List.pairwise_cons.mpr ⟨fun x hx => ?_, ?_⟩
          · exact List.rel_of_pairwise_cons hdesc (atLevel_subset hx)
          · exact (List.pairwise_cons.mp hdesc).2.filter _
        obtain ⟨y, hy, hle⟩ := window_advances hdesc' hx
        have := hall y hy
        omega
      · exact hall x hx

theorem BaseComplete.updateTarget {b : NodeBase Cmd St Ext} {history : List (Issue Cmd)}
    (h : spec.BaseComplete level b history)
    (hb : spec.BaseTiming level b (atLevel level b.nodeId history)) {e : Issue Cmd}
    (hdesc : (e :: history).Pairwise fun a b => b.clk ≤ a.clk)
    (hid : b.nodeId = e.addrVec.at level) :
    spec.BaseComplete level (spec.updateTarget level e.cmd e.clk b) (e :: history) := by
  intro cmd clk h0 hmeets
  have hmeets : spec.MeetsAll level b.nodeId cmd clk (e :: history) := hmeets
  refine foldl_raise_le (fun t ht ready hready => ?_) (h cmd clk h0 (hmeets.tail hdesc))
  dsimp only
  split
  · exact hready
  · next hsib =>
      split
      · exact hready
      · next hpast =>
          refine raiseReady_le hready fun hcmd => ?_
          have hall := hmeets e.cmd t ht hcmd
          rw [if_neg hsib, atLevel_cons, if_pos hid] at hall
          rw [spec.pushHistory_past hb, List.getD_eq_getElem?_getD] at hpast ⊢
          -- the deque holds a clock at the end of the window, and the issue it stems from
          cases hget : (issuesOf e.cmd (e :: atLevel level b.nodeId history))[t.window - 1]? with
          | none =>
              refine absurd (?_ : _ < (0 : Int)) hpast
              have hlen := List.getElem?_eq_none_iff.mp hget
              rw [List.getElem?_take]
              split
              · rw [List.getElem?_append_right (by rw [List.length_map]; exact hlen),
                  List.getElem?_replicate]
                split <;> exact (by decide : (-1 : Int) < 0)
              · exact (by decide : (-1 : Int) < 0)
          | some x =>
              have hx := hall x hget
              rw [List.getElem?_take] at hpast ⊢
              split at hpast
              · next hw =>
                  obtain ⟨hlt, -⟩ := List.getElem?_eq_some_iff.mp hget
                  rw [if_pos hw, List.getElem?_append_left (by rw [List.length_map]; exact hlt),
                    List.getElem?_map, hget]
                  exact hx
              · exact absurd (by decide : (-1 : Int) < 0) hpast

theorem BaseComplete.updateSibling {b : NodeBase Cmd St Ext} {history : List (Issue Cmd)}
    (h : spec.BaseComplete level b history) {e : Issue Cmd}
    (hdesc : (e :: history).Pairwise fun a b => b.clk ≤ a.clk)
    (hid : b.nodeId ≠ e.addrVec.at level) :
    spec.BaseComplete level (spec.updateSibling level e.cmd e.clk b) (e :: history) := by
  intro cmd clk h0 hmeets
  have hmeets : spec.MeetsAll level b.nodeId cmd clk (e :: history) := hmeets
  refine foldl_raise_le (fun t ht ready hready => ?_) (h cmd clk h0 (hmeets.tail hdesc))
  split
  · next hsib =>
      refine raiseReady_le hready fun hcmd => ?_
      have hall := hmeets e.cmd t ht hcmd
      rw [if_pos hsib, issuesOf_cons_self] at hall
      exact hall e List.mem_cons_self fun heq => hid heq.symm
  · exact hready

theorem NodeComplete.updateTiming {d : Nat} {n : DRAMNode Cmd St Ext d}
    {history : List (Issue Cmd)} (h : spec.NodeComplete d n history)
    (hn : spec.NodeTiming count d n (atLevel (spec.level d) n.base.nodeId history))
    {e : Issue Cmd} (hdesc : (e :: history).Pairwise fun a b => b.clk ≤ a.clk) :
    spec.NodeComplete d (spec.updateTiming e.cmd e.addrVec e.clk d n) (e :: history) := by
  induction d generalizing history with
  | zero =>
      rw [DRAMSpec.updateTiming]
      by_cases hid : n.base.nodeId = e.addrVec.at (spec.level 0)
      · rw [if_neg (not_not_intro hid)]
        exact BaseComplete.updateTarget h hn hdesc hid
      · rw [if_pos hid]
        exact BaseComplete.updateSibling h hdesc hid
  | succ d ih =>
      obtain ⟨hbase, hchild⟩ := h
      obtain ⟨htiming, -, hnodes⟩ := hn
      rw [DRAMSpec.updateTiming]
      by_cases hid : n.base.nodeId = e.addrVec.at (spec.level (d + 1))
      · rw [if_neg (not_not_intro hid)]
        refine ⟨hbase.updateTarget htiming hdesc hid, fun i child hget => ?_⟩
        rw [DRAMNode.children_node, List.getElem?_map] at hget
        obtain ⟨old, hold, rfl⟩ := Option.map_eq_some_iff.mp hget
        obtain ⟨hi, hnode⟩ := hnodes i old hold
        rw [← hi] at hnode
        have hnew := ih (hchild i old hold) hnode <| by
          refine List.pairwise_cons.mpr ⟨fun x hx => ?_, ?_⟩
          · exact List.rel_of_pairwise_cons hdesc (atLevel_subset hx)
          · exact (List.pairwise_cons.mp hdesc).2.filter _
        rw [DRAMNode.base_node, atLevel_cons]
        exact (if_pos hid).symm ▸ hnew
      · rw [if_pos hid]
        refine ⟨hbase.updateSibling hdesc hid, fun i child hget => ?_⟩
        rw [DRAMNode.base_node, atLevel_cons]
        exact (if_neg hid).symm ▸ hchild i child hget

/-! ## The walk of `check_ready` -/

/-- A walk of `check_ready` that starts at the level `lo` and ends at the level `last`: at the
scope of its command, at the bank or above a wildcard. -/
structure WalkEnds (spec : DRAMSpec Cmd St Ext) (count : Nat → Int) (cmd : Cmd)
    (addrVec : AddrVec) (lo last : Nat) : Prop where
  start : lo ≤ last
  scope : last ≤ spec.commandScopes cmd
  bank : last ≤ spec.bankLevel
  names : ∀ i, i ≤ last → lo ≤ i → 0 ≤ addrVec.at i ∧ addrVec.at i < count i
  ends : last = spec.commandScopes cmd ∨ last = spec.bankLevel ∨
    addrVec.at (last + 1) < 0 ∧ spec.commandId cmd ≠ 0

omit [DecidableEq Cmd] in
theorem WalkEnds.down {cmd : Cmd} {addrVec : AddrVec} {lo last : Nat}
    (h : spec.WalkEnds count cmd addrVec lo last) (hlt : lo < last) :
    spec.WalkEnds count cmd addrVec (lo + 1) last :=
  ⟨hlt, h.scope, h.bank, fun i h1 h2 => h.names i h1 (by omega), h.ends⟩

theorem NodeComplete.checkReady {cmd : Cmd} {addrVec : AddrVec} {clk : Int} (hclk : 0 ≤ clk)
    {last d : Nat} (hd : d ≤ spec.bankLevel) {n : DRAMNode Cmd St Ext d}
    {history : List (Issue Cmd)} (h : spec.NodeComplete d n history)
    (hn : spec.NodeTiming count d n (atLevel (spec.level d) n.base.nodeId history))
    (hid : n.base.nodeId = addrVec.at (spec.level d))
    (hwalk : spec.WalkEnds count cmd addrVec (spec.level d) last)
    (hmeets : ∀ k, spec.level d ≤ k → k ≤ last →
      spec.MeetsAll k (addrVec.at k) cmd clk (issuesAbove (spec.level d) k addrVec history)) :
    spec.checkReady cmd addrVec clk d n = true := by
  have hroot : readyAt cmd clk n.base = true := by
    rw [readyAt_iff hclk]
    refine h.base cmd clk hclk ?_
    have := hmeets _ (Nat.le_refl _) hwalk.start
    rwa [issuesAbove_self, ← hid] at this
  induction d generalizing history with
  | zero => exact hroot
  | succ d ih =>
      have hlevel : spec.level (d + 1) + 1 = spec.level d := by
        unfold level
        omega
      obtain ⟨-, hlen, hnodes⟩ := hn
      rw [DRAMSpec.checkReady, hroot, Bool.true_and, Bool.or_eq_true, Bool.or_eq_true,
        decide_eq_true_eq]
      rcases Nat.eq_or_lt_of_le hwalk.start with hlast | hlast
      · -- the walk ends at this very node
        rcases hwalk.ends with hscope | hbank | ⟨hneg, hcmd⟩
        · exact .inl (.inl (hlast.trans hscope))
        · unfold level at hlast
          omega
        · refine .inr ?_
          rw [← hlevel, hlast, if_pos hneg]
          exact bne_iff_ne.mpr hcmd
      · refine .inr ?_
        have hnamed := hwalk.names (spec.level d) (by omega) (by omega)
        obtain ⟨child, hget⟩ :
            ∃ child, n.children[(addrVec.at (spec.level d)).toNat]? = some child :=
          ⟨_, List.getElem?_eq_getElem (by omega)⟩
        rw [if_neg (by omega), hget]
        obtain ⟨hchildId, hnode⟩ := hnodes _ child hget
        rw [Int.toNat_of_nonneg hnamed.1] at hchildId hnode
        rw [← hchildId] at hnode
        have hchild := h.2 _ child hget
        have hdown := hwalk.down hlast
        rw [hlevel] at hdown
        have hbelow : ∀ k, spec.level d ≤ k → k ≤ last →
            spec.MeetsAll k (addrVec.at k) cmd clk (issuesAbove (spec.level d) k addrVec
              (atLevel (spec.level (d + 1)) n.base.nodeId history)) := by
          intro k h1 h2
          rw [hid, ← hlevel, ← issuesAbove_atLevel (by omega)]
          exact hmeets k (by omega) h2
        refine ih (by omega) hchild hnode hchildId hdown hbelow ?_
        rw [readyAt_iff hclk]
        refine hchild.base cmd clk hclk ?_
        have := hbelow _ (Nat.le_refl _) hdown.start
        rwa [issuesAbove_self, ← hchildId] at this

end DRAMSpec

/-! ## Runs -/

namespace DRAMModel

variable {Cmd St Ext Timing : Type} [DecidableEq Cmd] {model : DRAMModel Cmd St Ext}
  {count : Nat → Int} {V : Timing → Int} {table : List (TimingConsInitializer Cmd Timing)}

/-- The channels of the organisation, each of which asks for no more than the table. -/
structure DeviceExact (model : DRAMModel Cmd St Ext) (count : Nat → Int)
    (s : IssueRun model.Dev Cmd) : Prop where
  timing : model.DeviceTiming count s
  siblings : DeviceSiblings s
  chronological : Chronological s
  numChannels : s.dev.channels.length = (count 0).toNat
  complete : ∀ (i : Nat) channel, s.dev.channels[i]? = some channel →
    model.NodeComplete model.bankLevel channel (atLevel 0 i s.history)

theorem createNodes_deviceExact : model.DeviceExact count ⟨model.createNodes count, []⟩ := by
  refine ⟨createNodes_deviceTiming, createNodes_deviceSiblings,
    ⟨fun e he => absurd he List.not_mem_nil, .nil⟩, by simp [createNodes], fun i channel hget => ?_⟩
  simp only [createNodes, List.getElem?_map] at hget
  obtain ⟨j, -, rfl⟩ := Option.map_eq_some_iff.mp hget
  exact DRAMSpec.newNode_complete _ _

theorem DeviceExact.issue (hact : model.ActionsKeepClocks) (hwin : model.WindowsPositive)
    {s : IssueRun model.Dev Cmd} (hs : model.DeviceExact count s) (cmd : Cmd)
    (addrVec : AddrVec) : model.DeviceExact count
      ⟨model.issueCommand s.dev cmd addrVec, ⟨s.dev.clk, cmd, addrVec⟩ :: s.history⟩ := by
  refine ⟨issueCommand_deviceTiming hact.actionsKeepTiming hwin hs.timing cmd addrVec,
    issueCommand_deviceSiblings hact hs.siblings cmd addrVec, hs.chronological.issue cmd addrVec,
    ?_, ?_⟩
  · unfold issueCommand
    split
    · exact hs.numChannels
    · rw [List.length_modify]
      exact hs.numChannels
  · intro i channel hget
    rw [atLevel_cons]
    dsimp only at hget ⊢
    unfold issueCommand at hget
    by_cases hneg : addrVec.at 0 < 0
    · rw [if_pos hneg] at hget
      rw [if_neg (by omega)]
      exact hs.complete i channel hget
    · rw [if_neg hneg] at hget
      dsimp only at hget
      rw [List.getElem?_modify] at hget
      obtain ⟨old, hold, rfl⟩ := Option.map_eq_some_iff.mp hget
      by_cases hi : (addrVec.at 0).toNat = i
      · rw [if_pos hi, if_pos (by omega)]
        obtain ⟨hid, hnode⟩ := hs.timing.channels i old hold
        have hsame : atLevel 0 i s.history =
            atLevel (model.level model.bankLevel) old.base.nodeId (atLevel 0 i s.history) := by
          rw [level_bankLevel, hid, atLevel_atLevel]
        rw [hsame] at hnode
        have hdesc : ((⟨s.dev.clk, cmd, addrVec⟩ : Issue Cmd) :: atLevel 0 i s.history).Pairwise
            fun a b => b.clk ≤ a.clk := by
          refine List.pairwise_cons.mpr ⟨fun x hx => ?_, hs.chronological.descending.filter _⟩
          exact hs.chronological.past x (atLevel_subset hx)
        have hnew := (hs.complete i old hold).updateTiming hnode hdesc
        exact hnew.congr (hact.updateStates cmd addrVec s.dev.clk _ _)
      · rw [if_neg hi, if_neg (by omega)]
        exact hs.complete i old hold

/-- In every run of a device, whatever commands it is issued, the ready clocks are exact. -/
theorem reachable_deviceExact (hact : model.ActionsKeepClocks) (hwin : model.WindowsPositive)
    {guard : IssueRun model.Dev Cmd → DeviceOp Cmd → Prop} {s : IssueRun model.Dev Cmd}
    (hr : Runs.Reachable (fun s => s = ⟨model.createNodes count, []⟩)
      (fun s op t => model.stepUnchecked s op = some t) guard s) : model.DeviceExact count s := by
  refine hr.invariant (I := fun s => model.DeviceExact count s) ?_ ?_
  · rintro s rfl
    exact createNodes_deviceExact
  · rintro s op t hs - hstep
    cases op with
    | tick =>
        obtain rfl := Option.some.inj hstep
        exact ⟨hs.timing.tick, hs.siblings, hs.chronological.tick, hs.numChannels, hs.complete⟩
    | issue cmd addrVec =>
        obtain rfl := Option.some.inj hstep
        exact hs.issue hact hwin cmd addrVec

theorem meetsAll_of_respected (htable : model.timingCons = populateTimingcons V table)
    {history : List (Issue Cmd)} {cmd : Cmd} {addrVec : AddrVec} {clk : Int} {k : Nat}
    (hnode : NamesNode count k addrVec)
    (h : ∀ ts ∈ table, ts.level = k → ts.Respected V count ⟨clk, cmd, addrVec⟩ history) :
    model.MeetsAll k (addrVec.at k) cmd clk
      (issuesAbove 0 k addrVec (atLevel 0 (addrVec.at 0) history)) := by
  intro pCmd t ht hcmd
  rw [htable] at ht
  obtain ⟨ts, hts, rfl, hp, f, hf, rfl⟩ := mem_populateTimingcons.mp ht
  obtain rfl : f = cmd := hcmd
  have hall := h ts hts rfl hf hnode pCmd hp
  unfold TimingConsInitializer.Against at hall
  dsimp only at hall ⊢
  split
  · next hsib =>
      intro e he hne
      refine hall e ?_
      rw [if_pos hsib]
      obtain ⟨hmem, hpath⟩ := List.mem_filter.mp (issuesOf_subset he)
      exact ⟨List.mem_filter.mpr ⟨atLevel_subset hmem, (List.mem_filter.mp he).2⟩,
        fun i hi => of_decide_eq_true hpath i hi (Nat.zero_le i), hne⟩
  · next hsib =>
      intro e he
      refine hall e ?_
      rw [if_neg hsib, issuesTo_atLevel (Nat.zero_le _)]
      rw [atLevel_issuesAbove (Nat.zero_le _), issuesTo_atLevel (Nat.zero_le _),
        atLevel_atLevel] at he
      exact he

/-- `check_ready` passes a command exactly when it respects every entry at or above its scope
against the history so far. -/
theorem DeviceExact.checkReady_iff (htable : model.timingCons = populateTimingcons V table)
    (hfits : EntriesFit model.bankLevel table) {s : IssueRun model.Dev Cmd}
    (hs : model.DeviceExact count s) {cmd : Cmd} {addrVec : AddrVec} {last : Nat}
    (hwalk : model.WalkEnds count cmd addrVec 0 last) :
    model.checkReady s.dev cmd addrVec = true ↔
      ∀ ts ∈ table, ts.level ≤ model.commandScopes cmd →
        ts.Respected V count ⟨s.dev.clk, cmd, addrVec⟩ s.history := by
  refine ⟨fun hready ts hts hscope =>
    checkReady_respected htable hs.timing hs.siblings hready hfits hts hscope, fun h => ?_⟩
  have hnode : NamesNode count last addrVec := fun i hi => hwalk.names i hi (Nat.zero_le i)
  have hzero := hnode 0 (Nat.zero_le last)
  obtain ⟨channel, hget⟩ : ∃ channel, s.dev.channels[(addrVec.at 0).toNat]? = some channel :=
    ⟨_, List.getElem?_eq_getElem (by rw [hs.numChannels]; omega)⟩
  obtain ⟨hid, htiming⟩ := hs.timing.channels _ channel hget
  have hcomplete := hs.complete _ channel hget
  rw [Int.toNat_of_nonneg hzero.1] at hid htiming hcomplete
  unfold checkReady channelOf
  rw [if_neg (by omega), hget]
  refine DRAMSpec.NodeComplete.checkReady hs.timing.clk_nonneg (Nat.le_refl _) hcomplete ?_ ?_
    (level_bankLevel.symm ▸ hwalk) fun k _ hk => ?_
  · rw [level_bankLevel, hid, atLevel_atLevel]
    exact htiming
  · rw [level_bankLevel, hid]
  · have hscope := hwalk.scope
    rw [level_bankLevel]
    exact meetsAll_of_respected htable (fun i hi => hnode i (Nat.le_trans hi hk))
      fun ts hts hlevel => h ts hts (by omega)

end DRAMModel

end AimSimulator.Dram
