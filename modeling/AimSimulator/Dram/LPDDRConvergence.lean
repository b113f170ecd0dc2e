import AimSimulator.Dram.AllBankWrite
import AimSimulator.Dram.Convergence
import AimSimulator.Dram.LPDDRRows
/-!
# Prerequisites converge in LPDDR4 and LPDDR5

The activations of a request take the bank, or all banks of the rank, from any combination of
states to the row; what follows is one `CAS` command, if the sync deadline of the rank is over
by then.
-/

namespace AimSimulator.Dram

section

variable {Cmd St Ext : Type} [DecidableEq Cmd] (spec : DRAMSpec Cmd St Ext) (cmd : Cmd)
  (addrVec : AddrVec) (clk : Int)

theorem DRAMSpec.ext_updateTiming {d : Nat} (n : DRAMNode Cmd St Ext d) :
    (spec.updateTiming cmd addrVec clk d n).base.ext = n.base.ext := by
  cases d <;> rw [updateTiming] <;> split <;> rfl

theorem DRAMSpec.child_updateTiming {d : Nat} {n : DRAMNode Cmd St Ext (d + 1)} {i : Nat}
    {child : DRAMNode Cmd St Ext d} (h : n.children[i]? = some child) :
    ∃ child', (spec.updateTiming cmd addrVec clk (d + 1) n).children[i]? = some child' ∧
      child'.base.ext = child.base.ext := by
  rw [updateTiming]
  split
  · exact ⟨child, h, rfl⟩
  · refine ⟨spec.updateTiming cmd addrVec clk d child, ?_, spec.ext_updateTiming _ _ _ child⟩
    rw [DRAMNode.children_node, List.getElem?_map, h]
    rfl

omit [DecidableEq Cmd] in
theorem DRAMSpec.base_updateStates {d : Nat} (n : DRAMNode Cmd St Ext (d + 1)) :
    (spec.updateStates cmd addrVec clk (d + 1) n).base =
      (spec.runAction cmd addrVec clk n).base := by
  rw [updateStates]
  dsimp only
  split
  · rfl
  · split <;> rfl

omit [DecidableEq Cmd] in
theorem DRAMSpec.child_updateStates {d : Nat} {n : DRAMNode Cmd St Ext (d + 1)}
    {child : DRAMNode Cmd St Ext d} (hscope : spec.level (d + 1) ≠ spec.commandScopes cmd)
    (hwild : ¬ addrVec.at (spec.level d) < 0)
    (h : (spec.runAction cmd addrVec clk n).children[(addrVec.at (spec.level d)).toNat]? =
      some child) :
    (spec.updateStates cmd addrVec clk (d + 1) n).children[(addrVec.at (spec.level d)).toNat]? =
      some (spec.updateStates cmd addrVec clk d child) := by
  rw [updateStates]
  dsimp only
  rw [if_neg hscope, if_neg hwild, DRAMNode.children_node, List.getElem?_modify, h]
  simp only [if_true, Option.map_eq_map, Option.map_some]

end

namespace LPDDR

variable {gen : Generation} {sizes : Nat → Int} {V : Timing → Int}
  {dev : (model gen sizes V).Dev} {addrVec : AddrVec} {final cmd : Cmd}

/-- A request is served by at most `PRE`, `ACT-1`, `ACT-2` and a `CAS` command, or by `PREA`,
`ACT8-1`, `ACT8-2`, and its final command. -/
def Converges (dev : (model gen sizes V).Dev) (final : Cmd) (addrVec : AddrVec) : Prop :=
  ∃ cmds, (model gen sizes V).Serves final addrVec dev cmds ∧
    ((∃ casOp ∈ [Cmd.CASRD, .CASWR, .CASWRGB, .CASWRMAC8, .CASRDMAC8, .CASRDAF8, .CASWRA8],
        cmds.Sublist [.PRE, .ACT_1, .ACT_2, casOp]) ∨
      cmds.Sublist [.PREA, .ACT8_1, .ACT8_2])

/-! ## The sync deadline -/

def casForm : Cmd → Option Cmd
  | .RD => some .CASRD
  | .WR => some .CASWR
  | .WRGB => some .CASWRGB
  | .WRMAC8 => some .CASWRMAC8
  | .RDMAC8 => some .CASRDMAC8
  | .RDAF8 => some .CASRDAF8
  | .WRA8 => some .CASWRA8
  | _ => none

/-- The answer where nothing but the deadline is left to test. -/
def synced (final : Cmd) (clk deadline : Int) : Cmd :=
  match casForm final with
  | some casOp => if deadline < clk then casOp else final
  | none => final

theorem runAction_rank (cmd : Cmd) (addrVec : AddrVec) (clk : Int) {n : DRAMNode Cmd St Int 3}
    {i : Nat} {node : DRAMNode Cmd St Int 2} (h : n.children[i]? = some node) :
    ∃ node' : DRAMNode Cmd St Int 2,
      ((model gen sizes V).runAction cmd addrVec clk n).children[i]? = some node' ∧
        node'.base = node.base := by
  cases cmd with
  | ACT8_2 =>
      refine ⟨node.mapBanks (NodeBase.openRow .Opened (addrVec.at row)) 2, ?_, rfl⟩
      show (n.children.map _)[i]? = _
      rw [List.getElem?_map, h]
      rfl
  | _ => exact ⟨node, h, rfl⟩

theorem rankOf_serve {node : DRAMNode Cmd St Int 2} (hrank : rankOf dev addrVec = some node)
    (hcmd : cmd ≠ .UNKNOWN) : ∃ node' mid : DRAMNode Cmd St Int 2,
      rankOf ((model gen sizes V).serve addrVec dev cmd) addrVec = some node' ∧
        mid.base.ext = node.base.ext ∧
          node'.base = ((model gen sizes V).runAction cmd addrVec dev.clk mid).base := by
  obtain ⟨c, hc, hchild⟩ := Option.bind_eq_some_iff.mp hrank
  split at hchild
  · cases hchild
  · next hwild =>
      obtain ⟨timed, htimed, htimedExt⟩ := DRAMSpec.child_updateTiming
        (model gen sizes V).toDRAMSpec cmd addrVec dev.clk hchild
      obtain ⟨mid, hmid, hmidBase⟩ := @runAction_rank gen sizes V cmd addrVec dev.clk _ _ _ htimed
      have hscope : (model gen sizes V).level 3 ≠ commandScopes cmd := by
        cases cmd <;> first | exact absurd rfl hcmd | exact nofun
      refine ⟨(model gen sizes V).updateStates cmd addrVec dev.clk 2 mid, mid, ?_,
        hmidBase ▸ htimedExt, DRAMSpec.base_updateStates _ _ _ _ mid⟩
      rw [rankOf, DRAMModel.channelOf_serve, hc, Option.map_some, Option.bind_some, if_neg hwild]
      exact DRAMSpec.child_updateStates _ cmd addrVec dev.clk hscope hwild hmid

theorem clk_serve : ((model gen sizes V).serve addrVec dev cmd).clk = dev.clk + 1 := by
  show ((model gen sizes V).issueCommand dev cmd addrVec).clk + 1 = _
  rw [DRAMModel.issueCommand_clk]

theorem casForm_serve {casOp : Cmd} (hcas : casForm final = some casOp)
    {node : DRAMNode Cmd St Int 2} (hrank : rankOf dev addrVec = some node) :
    ∃ node', rankOf ((model gen sizes V).serve addrVec dev casOp) addrVec = some node' ∧
      node'.base.ext = dev.clk + commandLatencies V final + 1 := by
  have hdefined : casOp ≠ .UNKNOWN := by
    rintro rfl
    cases final <;> cases hcas
  obtain ⟨node', mid, hnode', -, hbase⟩ := rankOf_serve hrank hdefined
  refine ⟨node', hnode', ?_⟩
  rw [hbase]
  cases final <;> cases hcas <;> rfl

section

/-- A stage of a request in which nothing but the deadline is left to test. -/
structure SyncStage (final : Cmd) (addrVec : AddrVec)
    (I : Int → (model gen sizes V).Dev → Prop) : Prop where
  answer : ∀ {deadline dev}, I deadline dev →
    (model gen sizes V).getPreqCommand dev final addrVec = synced final dev.clk deadline
  serve : ∀ {deadline dev casOp}, I deadline dev → casForm final = some casOp →
    I (dev.clk + commandLatencies V final + 1) ((model gen sizes V).serve addrVec dev casOp)

variable {I : Int → (model gen sizes V).Dev → Prop} {deadline : Int} {casOp : Cmd}

theorem casForm_ne (hcas : casForm final = some casOp) : casOp ≠ final := by
  rintro rfl
  cases casOp <;> cases hcas

theorem SyncStage.serves (hstage : SyncStage final addrVec I) (h : I deadline dev)
    (hintime : casForm final ≠ none → commandLatencies V final < 0 → ¬ deadline < dev.clk) :
    (model gen sizes V).Serves final addrVec dev [] ∨
      ∃ casOp, casForm final = some casOp ∧
        (model gen sizes V).Serves final addrVec dev [casOp] := by
  have hanswer := hstage.answer h
  unfold synced at hanswer
  cases hcas : casForm final with
  | none =>
      rw [hcas] at hanswer
      exact .inl (.done hanswer)
  | some casOp =>
      rw [hcas] at hanswer
      dsimp only at hanswer
      by_cases hlate : deadline < dev.clk
      · rw [if_pos hlate] at hanswer
        have hlatency : 0 ≤ commandLatencies V final :=
          Int.not_lt.mp fun hneg => hintime (hcas ▸ nofun) hneg hlate
        have hnext := hstage.answer (hstage.serve h hcas)
        rw [synced, hcas, clk_serve] at hnext
        dsimp only at hnext
        rw [if_neg (by omega)] at hnext
        exact .inr ⟨casOp, rfl, .step hanswer (casForm_ne hcas) (.done hnext)⟩
      · rw [if_neg hlate] at hanswer
        exact .inl (.done hanswer)

theorem SyncStage.not_serves (hstage : SyncStage final addrVec I) (h : I deadline dev)
    (hcas : casForm final = some casOp) (hlatency : commandLatencies V final < 0)
    (hlate : deadline < dev.clk) (cmds : List Cmd) :
    ¬ (model gen sizes V).Serves final addrVec dev cmds := by
  have hanswer : ∀ {deadline} {dev : (model gen sizes V).Dev}, I deadline dev →
      deadline < dev.clk → (model gen sizes V).getPreqCommand dev final addrVec = casOp := by
    intro deadline dev h hlate
    rw [hstage.answer h, synced, hcas]
    exact if_pos hlate
  refine Prompting.not_leads (I := fun dev => ∃ deadline, I deadline dev ∧ deadline < dev.clk)
    ?_ ?_ ⟨deadline, h, hlate⟩ cmds
  · rintro dev ⟨deadline, h, hlate⟩
    rw [hanswer h hlate]
    exact casForm_ne hcas
  · rintro dev ⟨deadline, h, hlate⟩
    rw [hanswer h hlate]
    refine ⟨_, hstage.serve h hcas, ?_⟩
    rw [clk_serve]
    omega

end

/-! ## One bank -/

def activations (x : Int) (r : BankRows St) : List Cmd :=
  match r.1 with
  | .Closed => [.ACT_1, .ACT_2]
  | .PreOpened => [.ACT_2]
  | .Opened => if r.hasRow x then [] else [.PRE, .ACT_1, .ACT_2]
  | .PowerUp | .NA => []

/-- What a request for a row of one bank depends on: the rows of the bank that is addressed and
the deadline of its rank. -/
structure BankStage (addrVec : AddrVec) (r : BankRows St) (deadline : Int)
    (dev : (model gen sizes V).Dev) : Prop where
  rows : ∃ b, (model gen sizes V).addressed dev addrVec = some b ∧ b.rows = r
  syncs : ∃ node, rankOf dev addrVec = some node ∧ node.base.ext = deadline

theorem exists_rank {b : NodeBase Cmd St Int}
    (hb : (model gen sizes V).addressed dev addrVec = some b) :
    ∃ node, rankOf dev addrVec = some node := by
  obtain ⟨ch, path, hnames, hr⟩ := (model gen sizes V).exists_names hb
  obtain ⟨k, g, i, rfl⟩ := path_cases hr
  exact rankOf_isSome hnames.1 (names_at hnames).1 hr

theorem getPreqCommand_addressed (hnone : ∀ k, 0 < k → (model gen sizes V).preqs k final = none)
    {node : DRAMNode Cmd St Int 2} (hrank : rankOf dev addrVec = some node)
    {b : NodeBase Cmd St Int} (hb : (model gen sizes V).addressed dev addrVec = some b) :
    ∃ up : List (NodeBase Cmd St Int), up[1]? = some node.base ∧
      (model gen sizes V).getPreqCommand dev final addrVec =
        ((model gen sizes V).ownPreq up final addrVec dev.clk (.bank b)).getD .ACT_2 := by
  obtain ⟨(c : DRAMNode Cmd St Int 3), hc, hnode⟩ := Option.bind_eq_some_iff.mp hrank
  rw [DRAMModel.addressed, hc] at hb
  replace hb : (model gen sizes V).toDRAMSpec.addressed addrVec 3 c = some b := hb
  rw [DRAMSpec.addressed_succ] at hb
  rw [DRAMModel.getPreqCommand, hc]
  split at hb
  · cases hb
  · next hk =>
      rw [show (model gen sizes V).level 2 = rank from rfl] at hb hk
      rw [if_neg hk] at hnode
      rw [hnode, Option.bind_some, DRAMSpec.addressed_succ] at hb
      split at hb
      · cases hb
      · next hg =>
          obtain ⟨group, hgroup, hb⟩ := Option.bind_eq_some_iff.mp hb
          rw [DRAMSpec.addressed_succ] at hb
          split at hb
          · cases hb
          · next hbank =>
              obtain ⟨leaf, hleaf, hb⟩ := Option.bind_eq_some_iff.mp hb
              obtain rfl : leaf = b := Option.some.inj hb
              refine ⟨[group.base, node.base, c.base], rfl, ?_⟩
              calc _ = (model gen sizes V).toDRAMSpec.getPreqCommand final addrVec dev.clk 2 _ node :=
                    DRAMSpec.getPreqCommand_child _ (hnone 3 (by decide)) hk hnode
                _ = (model gen sizes V).toDRAMSpec.getPreqCommand final addrVec dev.clk 1 _ group :=
                    DRAMSpec.getPreqCommand_child _ (hnone 2 (by decide)) hg hgroup
                _ = (model gen sizes V).toDRAMSpec.getPreqCommand final addrVec dev.clk 0 _ leaf :=
                    DRAMSpec.getPreqCommand_child _ (hnone 1 (by decide)) hbank hleaf
                _ = _ := rfl

theorem bankAccess_hit (hfinal : final ∈ bankAccesses) :
    ∃ hit, (model gen sizes V).preqs 0 final = some (preqBankAct hit) ∧
      ∀ (up : List (NodeBase Cmd St Int)) (clk : Int) (node : NodeBase Cmd St Int),
        up[1]? = some node → hit up clk = synced final clk node.ext := by
  simp only [bankAccesses, List.mem_cons, List.not_mem_nil, or_false] at hfinal
  rcases hfinal with rfl | rfl | rfl | rfl | rfl
  case inl | inr.inl =>
    refine ⟨_, rfl, fun up clk node hup => ?_⟩
    rw [hup]
    simp [synced, casForm, needsSync]
  all_goals exact ⟨_, rfl, fun _ _ _ _ => rfl⟩

theorem BankStage.answer (hfinal : final ∈ bankAccesses) {r : BankRows St} {deadline : Int}
    (h : BankStage addrVec r deadline dev) :
    (model gen sizes V).getPreqCommand dev final addrVec =
      match r.1 with
      | .Closed => .ACT_1
      | .PreOpened => .ACT_2
      | .Opened =>
          if r.hasRow (addrVec.at row) then synced final dev.clk deadline else .PRE
      | .PowerUp | .NA => synced final dev.clk deadline := by
  obtain ⟨⟨b, hb, rfl⟩, node, hnode, rfl⟩ := h
  obtain ⟨hnone, -⟩ := @bankAccess_preqs gen sizes V _ hfinal
  obtain ⟨hit, hpreq, hhit⟩ := @bankAccess_hit gen sizes V _ hfinal
  obtain ⟨up, hup, heq⟩ := getPreqCommand_addressed hnone hnode hb
  rw [heq, DRAMSpec.ownPreq, hpreq]
  dsimp only [preqBankAct, DRAMNode.base_bank]
  rw [hhit up dev.clk _ hup, hasRow_rows, show b.rows.1 = b.state from rfl]
  cases b.state with
  | Opened =>
      dsimp only
      by_cases hrow : b.hasRow (addrVec.at row) = true
      · exact (congrArg (Option.getD · _) (if_pos hrow)).trans (if_pos hrow).symm
      · exact (congrArg (Option.getD · _) (if_neg hrow)).trans (if_neg hrow).symm
  | _ => rfl

def bankEffect (cmd : Cmd) (x : Int) (r : BankRows St) : BankRows St :=
  match cmd with
  | .PRE => r.close .Closed
  | .ACT_1 => r.openRow .PreOpened x
  | .ACT_2 => r.openRow .Opened x
  | _ => r

theorem BankStage.rows_serve {r : BankRows St} {deadline : Int}
    (h : BankStage addrVec r deadline dev)
    (hcmd : cmd ∈ [Cmd.PRE, .ACT_1, .ACT_2, .CASRD, .CASWR]) :
    ∃ b, (model gen sizes V).addressed ((model gen sizes V).serve addrVec dev cmd) addrVec =
      some b ∧ b.rows = bankEffect cmd (addrVec.at row) r := by
  obtain ⟨⟨b, hb, rfl⟩, -⟩ := h
  obtain ⟨ch, path, hnames, hr⟩ := (model gen sizes V).exists_names hb
  obtain ⟨k, g, i, rfl⟩ := path_cases hr
  obtain ⟨hk, hg, hi⟩ := names_at hnames
  have hserved := @DRAMModel.rowsAt_addressed _ _ _ (model gen sizes V)
    ((model gen sizes V).serve addrVec dev cmd) _ _ _ hnames
  rw [DRAMModel.rowsAt_serve (actsBy gen sizes V) hnames.1, hr] at hserved
  obtain ⟨b', hb', hrows⟩ := Option.map_eq_some_iff.mp hserved.symm
  refine ⟨b', hb', hrows.trans ((touch_bank cmd addrVec k g i b.rows).trans ?_)⟩
  simp only [List.mem_cons, List.not_mem_nil, or_false] at hcmd
  rcases hcmd with rfl | rfl | rfl | rfl | rfl <;> simp [rowEffect, bankEffect, hk, hg, hi]

theorem BankStage.activate {r : BankRows St} {deadline : Int}
    (h : BankStage addrVec r deadline dev) (cmd : Cmd) (hcmd : cmd ∈ [Cmd.PRE, .ACT_1, .ACT_2]) :
    BankStage addrVec (bankEffect cmd (addrVec.at row) r) deadline
      ((model gen sizes V).serve addrVec dev cmd) := by
  refine ⟨h.rows_serve (List.mem_append_left [Cmd.CASRD, .CASWR] hcmd), ?_⟩
  obtain ⟨node, hnode, rfl⟩ := h.syncs
  simp only [List.mem_cons, List.not_mem_nil, or_false] at hcmd
  have hdefined : cmd ≠ .UNKNOWN := by rcases hcmd with rfl | rfl | rfl <;> exact nofun
  obtain ⟨node', mid, hnode', hext, hbase⟩ := rankOf_serve hnode hdefined
  refine ⟨node', hnode', ?_⟩
  rw [hbase, ← hext]
  rcases hcmd with rfl | rfl | rfl <;> rfl

def Ready (x : Int) (r : BankRows St) : Prop := activations x r = []

theorem syncStage_bank (hfinal : final ∈ bankAccesses) {r : BankRows St}
    (hready : Ready (addrVec.at row) r) :
    @SyncStage gen sizes V final addrVec (BankStage addrVec r) := by
  constructor
  · intro deadline dev h
    rw [h.answer hfinal]
    unfold Ready activations at hready
    cases hstate : r.1 with
    | Opened =>
        rw [hstate] at hready
        dsimp only at hready ⊢
        split at hready
        · next hrow => exact if_pos hrow
        · cases hready
    | Closed | PreOpened =>
        rw [hstate] at hready
        cases hready
    | PowerUp | NA => rfl
  · intro deadline dev casOp h hcas
    have hcasOp : casOp = .CASRD ∨ casOp = .CASWR := by
      simp only [bankAccesses, List.mem_cons, List.not_mem_nil, or_false] at hfinal
      rcases hfinal with rfl | rfl | rfl | rfl | rfl <;> cases hcas
      · exact .inl rfl
      · exact .inr rfl
    obtain ⟨node, hnode, -⟩ := h.syncs
    refine ⟨?_, casForm_serve hcas hnode⟩
    rcases hcasOp with rfl | rfl
    · exact h.rows_serve (by decide)
    · exact h.rows_serve (by decide)

/-- The commands that open a bank are what is asked for, one each clock. -/
def OpensBy (final : Cmd) (addrVec : AddrVec) (deadline : Int) (dev : (model gen sizes V).Dev)
    (cmds : List Cmd) : Prop :=
  ∃ dev' r',
    Prompting.Follows (fun dev => (model gen sizes V).getPreqCommand dev final addrVec)
      ((model gen sizes V).serve addrVec) final dev cmds dev' ∧
    BankStage addrVec r' deadline dev' ∧ Ready (addrVec.at row) r' ∧
    dev'.clk = dev.clk + cmds.length

section

variable {r : BankRows St} {deadline : Int}

theorem OpensBy.of_ready (h : BankStage addrVec r deadline dev) (hready : Ready (addrVec.at row) r) :
    OpensBy final addrVec deadline dev [] :=
  ⟨dev, r, .refl, h, hready, (Int.add_zero _).symm⟩

theorem OpensBy.step (hanswer : (model gen sizes V).getPreqCommand dev final addrVec = cmd)
    (hne : cmd ≠ final) {cmds : List Cmd}
    (h : OpensBy final addrVec deadline ((model gen sizes V).serve addrVec dev cmd) cmds) :
    OpensBy final addrVec deadline dev (cmd :: cmds) := by
  obtain ⟨dev', r', hfollows, hstage, hready, hclk⟩ := h
  refine ⟨dev', r', .step hanswer hne hfollows, hstage, hready, ?_⟩
  rw [hclk, clk_serve, List.length_cons]
  omega

theorem BankStage.opens_preOpened (h : BankStage addrVec r deadline dev)
    (hfinal : final ∈ bankAccesses) (hstate : r.1 = .PreOpened) :
    OpensBy final addrVec deadline dev [.ACT_2] := by
  have hne : Cmd.ACT_2 ≠ final := by
    rintro rfl
    exact absurd hfinal (by decide)
  have hanswer := h.answer hfinal
  rw [hstate] at hanswer
  refine .step hanswer hne (.of_ready (h.activate .ACT_2 (by decide)) ?_)
  simp [Ready, activations, bankEffect, BankRows.openRow, BankRows.hasRow]

theorem BankStage.opens_closed (h : BankStage addrVec r deadline dev)
    (hfinal : final ∈ bankAccesses) (hstate : r.1 = .Closed) :
    OpensBy final addrVec deadline dev [.ACT_1, .ACT_2] := by
  have hne : Cmd.ACT_1 ≠ final := by
    rintro rfl
    exact absurd hfinal (by decide)
  have hanswer := h.answer hfinal
  rw [hstate] at hanswer
  exact .step hanswer hne ((h.activate .ACT_1 (by decide)).opens_preOpened hfinal rfl)

theorem BankStage.opens_other (h : BankStage addrVec r deadline dev)
    (hfinal : final ∈ bankAccesses) (hstate : r.1 = .Opened)
    (hrow : ¬ r.hasRow (addrVec.at row) = true) :
    OpensBy final addrVec deadline dev [.PRE, .ACT_1, .ACT_2] := by
  have hne : Cmd.PRE ≠ final := by
    rintro rfl
    exact absurd hfinal (by decide)
  have hanswer := h.answer hfinal
  rw [hstate] at hanswer
  exact .step (hanswer.trans (if_neg hrow)) hne
    ((h.activate .PRE (by decide)).opens_closed hfinal rfl)

theorem BankStage.opens (h : BankStage addrVec r deadline dev) (hfinal : final ∈ bankAccesses) :
    OpensBy final addrVec deadline dev (activations (addrVec.at row) r) := by
  unfold activations
  split
  · next hstate => exact h.opens_closed hfinal hstate
  · next hstate => exact h.opens_preOpened hfinal hstate
  · next hstate =>
      split
      · next hrow =>
          refine .of_ready h ?_
          rw [Ready, activations, hstate]
          exact if_pos hrow
      · next hrow => exact h.opens_other hfinal hstate hrow
  · next hstate => exact .of_ready h (by rw [Ready, activations, hstate])
  · next hstate => exact .of_ready h (by rw [Ready, activations, hstate])

end

/-- A request for a row of one bank is served unless its latency is negative and the deadline is
over when the bank is open. -/
theorem bankAccess_converges_iff (hfinal : final ∈ bankAccesses) {b : NodeBase Cmd St Int}
    (hb : (model gen sizes V).addressed dev addrVec = some b) {node : DRAMNode Cmd St Int 2}
    (hnode : rankOf dev addrVec = some node) :
    Converges dev final addrVec ↔ (casForm final ≠ none → commandLatencies V final < 0 →
      ¬ node.base.ext < dev.clk + (activations (addrVec.at row) b.rows).length) := by
  have hstage : BankStage addrVec b.rows node.base.ext dev := ⟨⟨b, hb, rfl⟩, node, hnode, rfl⟩
  obtain ⟨dev', r', hfollows, hstage', hready, hclk⟩ := hstage.opens hfinal
  have hsync := @syncStage_bank gen sizes V addrVec final hfinal r' hready
  rw [← hclk]
  constructor
  · intro ⟨cmds, hserves, _⟩ hcas hlatency hlate
    obtain ⟨rest, -, hrest⟩ := hfollows.leads_iff.mp hserves
    obtain ⟨casOp, hcasOp⟩ := Option.ne_none_iff_exists'.mp hcas
    exact hsync.not_serves hstage' hcasOp hlatency hlate rest hrest
  · intro hintime
    have hsublist : (activations (addrVec.at row) b.rows).Sublist [.PRE, .ACT_1, .ACT_2] := by
      unfold activations
      split
      · decide
      · decide
      · split <;> decide
      · decide
      · decide
    rcases hsync.serves hstage' hintime with hdone | ⟨casOp, hcas, hdone⟩
    · refine ⟨_, hfollows.leads_iff.mpr ⟨[], rfl, hdone⟩, .inl ⟨.CASRD, by decide, ?_⟩⟩
      rw [List.append_nil]
      exact hsublist.trans (List.sublist_append_left _ [Cmd.CASRD])
    · refine ⟨_, hfollows.leads_iff.mpr ⟨[casOp], rfl, hdone⟩, .inl ⟨casOp, ?_, ?_⟩⟩
      · cases final <;> cases hcas <;> decide
      · exact hsublist.append (List.Sublist.refl [casOp])

/-! ## The rank -/

theorem syncStage_rank {casOp : Cmd} (hcas : casForm final = some casOp)
    (hpreq : (model gen sizes V).preqs 2 final = some (preqRankSync final casOp))
    (hnone : (model gen sizes V).preqs 3 final = none) :
    @SyncStage gen sizes V final addrVec fun deadline dev =>
      ∃ node, rankOf dev addrVec = some node ∧ node.base.ext = deadline := by
  constructor
  · rintro deadline dev ⟨node, hnode, rfl⟩
    refine getPreqCommand_rank hnode hnone hpreq fun up => ?_
    unfold preqRankSync synced needsSync
    rw [hcas]
    simp only [decide_eq_true_eq]
  · rintro deadline dev casOp ⟨node, hnode, -⟩ hcas
    exact casForm_serve hcas hnode

theorem rankSync_converges_iff {casOp : Cmd} (hcas : casForm final = some casOp)
    (hpreq : (model gen sizes V).preqs 2 final = some (preqRankSync final casOp))
    (hnone : (model gen sizes V).preqs 3 final = none) {node : DRAMNode Cmd St Int 2}
    (hnode : rankOf dev addrVec = some node) :
    Converges dev final addrVec ↔
      (commandLatencies V final < 0 → ¬ node.base.ext < dev.clk) := by
  have hsync := @syncStage_rank gen sizes V addrVec final casOp hcas hpreq hnone
  constructor
  · intro ⟨cmds, hserves, _⟩ hlatency hlate
    exact hsync.not_serves ⟨node, hnode, rfl⟩ hcas hlatency hlate cmds hserves
  · intro hintime
    rcases hsync.serves ⟨node, hnode, rfl⟩ fun _ => hintime with hdone | ⟨casOp', hcas', hdone⟩
    · exact ⟨[], hdone, .inr (List.nil_sublist _)⟩
    · refine ⟨_, hdone, .inl ⟨casOp', ?_, List.sublist_append_right [Cmd.PRE, .ACT_1, .ACT_2] _⟩⟩
      cases final <;> cases hcas' <;> decide

theorem exists_rankRows {node : DRAMNode Cmd St Int 2} (hnode : rankOf dev addrVec = some node)
    {ch k : Nat} (hch : addrVec.at channel = ch) (hk : addrVec.at rank = k)
    {P : BankRows St → Prop} (h : ∃ path r, node.rowsAt 2 path = some r ∧ P r) :
    ∃ g i r, (model gen sizes V).rowsAt dev ch [k, g, i] = some r ∧ P r := by
  obtain ⟨path, r, hr, hholds⟩ := h
  obtain ⟨b, hb, -⟩ := Option.map_eq_some_iff.mp hr
  have hlength := DRAMNode.length_of_bankAt hb
  match path, hlength with
  | [g, i], _ => exact ⟨g, i, r, (rowsAt_rank hnode hch hk).trans hr, hholds⟩

theorem rank_serve {ch k g i : Nat} (hch : addrVec.at channel = ch) {r' : BankRows St}
    (hr' : (model gen sizes V).rowsAt ((model gen sizes V).serve addrVec dev cmd) ch [k, g, i] =
      some r') : ∃ r, r' = rowEffect cmd addrVec k g i r := by
  rw [DRAMModel.rowsAt_serve (actsBy gen sizes V) hch] at hr'
  obtain ⟨r, -, rfl⟩ := Option.map_eq_some_iff.mp hr'
  exact ⟨r, touch_bank cmd addrVec k g i r⟩

theorem rankAccess_preqs (hfinal : final ∈ rankAccesses) :
    (model gen sizes V).preqs 2 final = some (preqRankAct final) ∧
      (model gen sizes V).preqs 3 final = none := by
  simp only [rankAccesses, List.mem_cons, List.not_mem_nil, or_false] at hfinal
  rcases hfinal with rfl | rfl | rfl <;> exact ⟨rfl, rfl⟩

theorem rankAccess_answer (hfinal : final ∈ rankAccesses)
    {node : DRAMNode Cmd St Int 2} (hnode : rankOf dev addrVec = some node)
    {ch k : Nat} (hch : addrVec.at channel = ch) (hk : addrVec.at rank = k) :
    ((model gen sizes V).getPreqCommand dev final addrVec = .PREA ∧ ∃ g i r,
      (model gen sizes V).rowsAt dev ch [k, g, i] = some r ∧ r.1 = .Opened ∧
        r.hasRow (addrVec.at row) = false) ∨
    ((model gen sizes V).getPreqCommand dev final addrVec = .ACT8_1 ∧ ∃ g i r,
      (model gen sizes V).rowsAt dev ch [k, g, i] = some r ∧ r.1 = .Closed) ∨
    ((model gen sizes V).getPreqCommand dev final addrVec = .ACT8_2 ∧ ∃ g i r,
      (model gen sizes V).rowsAt dev ch [k, g, i] = some r ∧ r.1 = .PreOpened) ∨
    (model gen sizes V).getPreqCommand dev final addrVec = final := by
  obtain ⟨hpreq, hnone⟩ := @rankAccess_preqs gen sizes V final hfinal
  obtain ⟨a, ha, hanswer⟩ := preqRankAct_cases final node addrVec
  rw [getPreqCommand_rank hnode hnone hpreq fun up => ha up dev.clk]
  rcases hanswer with ⟨rfl, h⟩ | ⟨-, ⟨rfl, h⟩ | ⟨-, ⟨rfl, h⟩ | ⟨rfl, -⟩⟩⟩
  · exact .inl ⟨rfl, exists_rankRows hnode hch hk h⟩
  · exact .inr (.inl ⟨rfl, exists_rankRows hnode hch hk h⟩)
  · exact .inr (.inr (.inl ⟨rfl, exists_rankRows hnode hch hk h⟩))
  · exact .inr (.inr (.inr rfl))

theorem rank_cases (hvalid : (model gen sizes V).ValidAddr dev addrVec) :
    (∃ ch k node, addrVec.at channel = (ch : Nat) ∧ addrVec.at rank = (k : Nat) ∧
      rankOf dev addrVec = some node) ∨
    (rankOf dev addrVec = none ∧ ∀ final, (model gen sizes V).preqs 3 final = none →
      (model gen sizes V).getPreqCommand dev final addrVec = final) := by
  obtain ⟨ch, hch⟩ := hvalid.exists_at
  obtain ⟨(c : DRAMNode Cmd St Int 3), hc, hvalid⟩ := hvalid
  obtain ⟨hchildren, hchild⟩ : c.children ≠ [] ∧ _ := hvalid
  by_cases hwild : addrVec.at rank < 0
  · refine .inr ⟨?_, fun final hnone => ?_⟩
    · rw [rankOf, hc]
      exact if_pos hwild
    · have hown : (model gen sizes V).ownPreq [] final addrVec dev.clk c = none :=
        DRAMSpec.ownPreq_eq_none hnone [] c
      rw [DRAMModel.getPreqCommand, hc]
      refine (DRAMSpec.getPreqCommand_silent hown).trans ?_
      rw [if_neg hchildren, DRAMSpec.childAt,
        if_pos (show addrVec.at ((model gen sizes V).level 2) < 0 from hwild)]
  · obtain ⟨node, hnode, -⟩ := hchild.resolve_left hwild
    refine .inl ⟨ch, (addrVec.at rank).toNat, node, hch, by omega, ?_⟩
    rw [rankOf, hc]
    exact hnode

section

variable {node : DRAMNode Cmd St Int 2} {ch k : Nat}

theorem act8_2_serves (hfinal : final ∈ rankAccesses) (hch : addrVec.at channel = ch)
    (hk : addrVec.at rank = k) (hnode : rankOf dev addrVec = some node) :
    (model gen sizes V).Serves final addrVec
      ((model gen sizes V).serve addrVec dev .ACT8_2) [] := by
  obtain ⟨node', -, hnode', -⟩ := @rankOf_serve gen sizes V dev addrVec .ACT8_2 node hnode nofun
  refine .done ?_
  rcases rankAccess_answer hfinal hnode' hch hk with ⟨-, g, i, r', hr', -, hrow⟩ |
    ⟨-, g, i, r', hr', hstate⟩ | ⟨-, g, i, r', hr', hstate⟩ | hdone
  · obtain ⟨r, rfl⟩ := rank_serve hch hr'
    simp [rowEffect, BankRows.openRow, BankRows.hasRow] at hrow
  · obtain ⟨r, rfl⟩ := rank_serve hch hr'
    simp [rowEffect, BankRows.openRow] at hstate
  · obtain ⟨r, rfl⟩ := rank_serve hch hr'
    simp [rowEffect, BankRows.openRow] at hstate
  · exact hdone

theorem act8_1_serves (hfinal : final ∈ rankAccesses) (hch : addrVec.at channel = ch)
    (hk : addrVec.at rank = k) (hnode : rankOf dev addrVec = some node) :
    ∃ cmds, (model gen sizes V).Serves final addrVec
      ((model gen sizes V).serve addrVec dev .ACT8_1) cmds ∧ cmds.Sublist [.ACT8_2] := by
  have hne : Cmd.ACT8_2 ≠ final := by
    rintro rfl
    exact absurd hfinal (by decide)
  obtain ⟨node', -, hnode', -⟩ := @rankOf_serve gen sizes V dev addrVec .ACT8_1 node hnode nofun
  rcases rankAccess_answer hfinal hnode' hch hk with ⟨-, g, i, r', hr', hstate, -⟩ |
    ⟨-, g, i, r', hr', hstate⟩ | ⟨hact, -⟩ | hdone
  · obtain ⟨r, rfl⟩ := rank_serve hch hr'
    simp [rowEffect, hk, BankRows.openRow] at hstate
  · obtain ⟨r, rfl⟩ := rank_serve hch hr'
    simp [rowEffect, hk, BankRows.openRow] at hstate
  · exact ⟨_, .step hact hne (act8_2_serves hfinal hch hk hnode'), List.Sublist.refl _⟩
  · exact ⟨[], .done hdone, List.nil_sublist _⟩

theorem prea_serves (hfinal : final ∈ rankAccesses) (hch : addrVec.at channel = ch)
    (hk : addrVec.at rank = k) (hnode : rankOf dev addrVec = some node) :
    ∃ cmds, (model gen sizes V).Serves final addrVec
      ((model gen sizes V).serve addrVec dev .PREA) cmds ∧ cmds.Sublist [.ACT8_1, .ACT8_2] := by
  have hne : Cmd.ACT8_1 ≠ final := by
    rintro rfl
    exact absurd hfinal (by decide)
  obtain ⟨node', -, hnode', -⟩ := @rankOf_serve gen sizes V dev addrVec .PREA node hnode nofun
  rcases rankAccess_answer hfinal hnode' hch hk with ⟨-, g, i, r', hr', hstate, -⟩ | ⟨hact, -⟩ |
    ⟨-, g, i, r', hr', hstate⟩ | hdone
  · obtain ⟨r, rfl⟩ := rank_serve hch hr'
    simp [rowEffect, hk, BankRows.close] at hstate
  · obtain ⟨cmds, hserves, hsublist⟩ := act8_1_serves hfinal hch hk hnode'
    exact ⟨_, .step hact hne hserves, hsublist.cons_cons _⟩
  · obtain ⟨r, rfl⟩ := rank_serve hch hr'
    simp [rowEffect, hk, BankRows.close] at hstate
  · exact ⟨[], .done hdone, List.nil_sublist _⟩

end

theorem rankAccess_converges (hfinal : final ∈ rankAccesses)
    (hvalid : (model gen sizes V).ValidAddr dev addrVec) : Converges dev final addrVec := by
  have hne : Cmd.PREA ≠ final ∧ Cmd.ACT8_1 ≠ final ∧ Cmd.ACT8_2 ≠ final := by
    refine ⟨?_, ?_, ?_⟩ <;> rintro rfl <;> exact absurd hfinal (by decide)
  rcases rank_cases hvalid with ⟨ch, k, node, hch, hk, hnode⟩ | ⟨-, hdone⟩
  · rcases rankAccess_answer hfinal hnode hch hk with ⟨hprea, -⟩ | ⟨hact, -⟩ | ⟨hact, -⟩ | hdone
    · obtain ⟨cmds, hserves, hsublist⟩ := prea_serves hfinal hch hk hnode
      exact ⟨_, .step hprea hne.1 hserves, .inr (hsublist.cons_cons _)⟩
    · obtain ⟨cmds, hserves, hsublist⟩ := act8_1_serves hfinal hch hk hnode
      exact ⟨_, .step hact hne.2.1 hserves, .inr ((hsublist.cons_cons _).cons _)⟩
    · exact ⟨_, .step hact hne.2.2 (act8_2_serves hfinal hch hk hnode),
        .inr (.cons _ (.cons _ (List.Sublist.refl _)))⟩
    · exact ⟨[], .done hdone, .inr (List.nil_sublist _)⟩
  · exact ⟨[], .done (hdone final (rankAccess_preqs hfinal).2), .inr (List.nil_sublist _)⟩

theorem refresh_converges (hvalid : (model gen sizes V).ValidAddr dev addrVec) :
    Converges dev .REFab addrVec := by
  have hanswer : ∀ {dev : (model gen sizes V).Dev} {node : DRAMNode Cmd St Int 2},
      rankOf dev addrVec = some node → (model gen sizes V).getPreqCommand dev .REFab addrVec =
        if (node.banks 2).any fun b => !decide (b.state = .Closed) then .PREA else .REFab := by
    intro dev node hnode
    refine @getPreqCommand_rank gen sizes V dev addrVec node hnode .REFab rfl
      (Preq.RequireAllBanksClosed .Closed .PREA .REFab) rfl _ fun up => ?_
    unfold Preq.RequireAllBanksClosed
    rw [← List.not_all_eq_any_not]
    cases (node.banks 2).all fun b => decide (b.state = .Closed) <;> rfl
  rcases rank_cases hvalid with ⟨ch, k, node, hch, hk, hnode⟩ | ⟨-, hdone⟩
  · by_cases hopen : ((node.banks 2).any fun b => !decide (b.state = .Closed)) = true
    · obtain ⟨node', -, hnode', -⟩ := @rankOf_serve gen sizes V dev addrVec .PREA node hnode nofun
      refine ⟨[.PREA], .step ((hanswer hnode).trans (if_pos hopen)) nofun
        (.done ((hanswer hnode').trans (if_neg fun hopen' => ?_))),
        .inr (.cons_cons _ (List.nil_sublist _))⟩
      have hsome := (DRAMNode.any_banks (n := node')
        fun r : BankRows St => !decide (r.1 = St.Closed)).mp hopen'
      obtain ⟨g, i, r', hr', htest⟩ := exists_rankRows hnode' hch hk hsome
      obtain ⟨r, rfl⟩ := rank_serve hch hr'
      simp [rowEffect, hk, BankRows.close] at htest
    · exact ⟨[], .done ((hanswer hnode).trans (if_neg hopen)), .inr (List.nil_sublist _)⟩
  · exact ⟨[], .done (hdone .REFab rfl), .inr (List.nil_sublist _)⟩

/-! ## The ranks stay powered up -/

theorem actionsKeepInner : (model gen sizes V).ActionsKeepInner := by
  intro d cmd addrVec clk n h
  match d with
  | 0 => trivial
  | 1 | 2 | 3 =>
      cases cmd <;> first | exact h | exact DRAMSpec.mapBanks_innerInit h
  | _ + 4 => exact h

theorem issued_innerInit {count : Nat → Int} (h : (model gen sizes V).Issued count dev) :
    (model gen sizes V).InnerInit dev := by
  induction h with
  | start => exact DRAMModel.createNodes_innerInit _ count
  | tick _ ih => exact ih
  | issue cmd addrVec _ ih =>
      exact DRAMModel.issueCommand_innerInit _ actionsKeepInner ih cmd addrVec

theorem rank_state (hdev : (model gen sizes V).InnerInit dev) {node : DRAMNode Cmd St Int 2}
    (hnode : rankOf dev addrVec = some node) : node.base.state = .PowerUp := by
  obtain ⟨(c : DRAMNode Cmd St Int 3), hc, hchild⟩ := Option.bind_eq_some_iff.mp hnode
  split at hchild
  · cases hchild
  · unfold DRAMModel.channelOf at hc
    split at hc
    · cases hc
    · exact ((hdev c (List.mem_of_getElem? hc)).2 node (List.mem_of_getElem? hchild)).1

/-- A refresh of one bank of a rank never waits: its prerequisite looks at the state of the
rank. -/
theorem refpb_converges (hvalid : (model gen sizes V).ValidAddr dev addrVec)
    (hdev : (model gen sizes V).InnerInit dev) : Converges dev .REFpb addrVec := by
  refine ⟨[], .done ?_, .inr (List.nil_sublist _)⟩
  rcases rank_cases hvalid with ⟨ch, k, node, hch, hk, hnode⟩ | ⟨-, hdone⟩
  · refine @getPreqCommand_rank gen sizes V dev addrVec node hnode .REFpb rfl
      (preqPerBank (sizes bank) .REFpb) rfl _ fun up => ?_
    have hstate := rank_state hdev hnode
    unfold preqPerBank
    simp [hstate]
  · exact hdone .REFpb rfl

/-! ## The condition -/

/-- The sync deadline of the rank is over when the banks are ready for the final command. -/
def Late (dev : (model gen sizes V).Dev) (final : Cmd) (addrVec : AddrVec) : Prop :=
  match final with
  | .RD | .WR => ∃ node b, rankOf dev addrVec = some node ∧
      (model gen sizes V).addressed dev addrVec = some b ∧
        node.base.ext < dev.clk + (activations (addrVec.at row) b.rows).length
  | .WRGB | .WRMAC8 | .RDMAC8 | .RDAF8 | .WRA8 =>
      ∃ node, rankOf dev addrVec = some node ∧ node.base.ext < dev.clk
  | _ => False

theorem converges_of_no_bank (hvalid : (model gen sizes V).ValidAddr dev addrVec)
    (hnone : ∀ k, 0 < k → (model gen sizes V).preqs k final = none)
    (hbank : (model gen sizes V).addressed dev addrVec = none) : Converges dev final addrVec :=
  ⟨[], .done (hvalid.getPreqCommand hnone hbank), .inr (List.nil_sublist _)⟩

theorem bankAccess_converges_iff_late (hfinal : final ∈ bankAccesses)
    (hvalid : (model gen sizes V).ValidAddr dev addrVec)
    (hlate : ∀ {node b}, rankOf dev addrVec = some node →
      (model gen sizes V).addressed dev addrVec = some b → (Late dev final addrVec ↔
        casForm final ≠ none ∧
          node.base.ext < dev.clk + (activations (addrVec.at row) b.rows).length))
    (hnoBank : (model gen sizes V).addressed dev addrVec = none → ¬ Late dev final addrVec) :
    Converges dev final addrVec ↔
      (commandLatencies V final < 0 → ¬ Late dev final addrVec) := by
  cases hbank : (model gen sizes V).addressed dev addrVec with
  | none =>
      have hnone := (@bankAccess_preqs gen sizes V _ hfinal).1
      exact ⟨fun _ _ => hnoBank hbank, fun _ => converges_of_no_bank hvalid hnone hbank⟩
  | some b =>
      obtain ⟨node, hnode⟩ := exists_rank hbank
      rw [bankAccess_converges_iff hfinal hbank hnode, hlate hnode hbank]
      exact ⟨fun h hlatency ⟨hcas, hover⟩ => h hcas hlatency hover,
        fun h hcas hlatency hover => h hlatency ⟨hcas, hover⟩⟩

theorem late_bank_iff {node : DRAMNode Cmd St Int 2} {b : NodeBase Cmd St Int}
    (hfinal : final = .RD ∨ final = .WR) (hnode : rankOf dev addrVec = some node)
    (hb : (model gen sizes V).addressed dev addrVec = some b) :
    Late dev final addrVec ↔ casForm final ≠ none ∧
      node.base.ext < dev.clk + (activations (addrVec.at row) b.rows).length := by
  have hiff : (∃ node b, rankOf dev addrVec = some node ∧
      (model gen sizes V).addressed dev addrVec = some b ∧
        node.base.ext < dev.clk + (activations (addrVec.at row) b.rows).length) ↔
      node.base.ext < dev.clk + (activations (addrVec.at row) b.rows).length := by
    constructor
    · rintro ⟨node', b', hnode', hb', hover⟩
      obtain rfl := Option.some.inj (hnode.symm.trans hnode')
      obtain rfl := Option.some.inj (hb.symm.trans hb')
      exact hover
    · exact fun hover => ⟨node, b, hnode, hb, hover⟩
  rcases hfinal with rfl | rfl
  · exact hiff.trans (and_iff_right nofun).symm
  · exact hiff.trans (and_iff_right nofun).symm

theorem rankSync_converges_iff_late {casOp : Cmd} (hcas : casForm final = some casOp)
    (hpreq : (model gen sizes V).preqs 2 final = some (preqRankSync final casOp))
    (hnone : (model gen sizes V).preqs 3 final = none)
    (hlate : Late dev final addrVec ↔
      ∃ node, rankOf dev addrVec = some node ∧ node.base.ext < dev.clk)
    (hvalid : (model gen sizes V).ValidAddr dev addrVec) :
    Converges dev final addrVec ↔
      (commandLatencies V final < 0 → ¬ Late dev final addrVec) := by
  rw [hlate]
  rcases rank_cases hvalid with ⟨ch, k, node, hch, hk, hnode⟩ | ⟨hno, hdone⟩
  · rw [rankSync_converges_iff hcas hpreq hnone hnode]
    constructor
    · rintro h hlatency ⟨node', hnode', hover⟩
      obtain rfl := Option.some.inj (hnode.symm.trans hnode')
      exact h hlatency hover
    · exact fun h hlatency hover => h hlatency ⟨node, hnode, hover⟩
  · constructor
    · rintro - - ⟨node, hnode, -⟩
      rw [hno] at hnode
      cases hnode
    · exact fun _ => ⟨[], .done (hdone final hnone), .inr (List.nil_sublist _)⟩

theorem silent_converges_iff (hvalid : (model gen sizes V).ValidAddr dev addrVec)
    (hnone : ∀ d, (model gen sizes V).preqs d final = none) (hne : final ≠ .ACT_2)
    (hlate : ¬ Late dev final addrVec) :
    Converges dev final addrVec ↔
      ((∃ d, (preqs (sizes bank) d final).isSome) ∨
        (model gen sizes V).addressed dev addrVec = none) ∧
      (commandLatencies V final < 0 → ¬ Late dev final addrVec) := by
  constructor
  · intro ⟨cmds, hserves, _⟩
    refine ⟨.inr ?_, fun _ => hlate⟩
    cases hbank : (model gen sizes V).addressed dev addrVec with
    | none => rfl
    | some b =>
        exact absurd hserves
          (DRAMModel.not_serves_of_silent (actsBy gen sizes V) hnone hne ⟨b, hbank⟩ cmds)
  · rintro ⟨⟨d, hd⟩ | hbank, -⟩
    · rw [show preqs (sizes bank) d final = none from hnone d] at hd
      cases hd
    · exact converges_of_no_bank hvalid (fun k _ => hnone k) hbank

/-- A request is served in the end exactly when its final command has a prerequisite function at
some level, or its address names no bank; and, with a negative latency, when it needs no `CAS`
command. -/
theorem converges_iff_hasPreq (hfinal : IsFinal final)
    (hvalid : (model gen sizes V).ValidAddr dev addrVec)
    (hdev : (model gen sizes V).InnerInit dev) :
    Converges dev final addrVec ↔
      ((∃ d, (preqs (sizes bank) d final).isSome) ∨
        (model gen sizes V).addressed dev addrVec = none) ∧
      (commandLatencies V final < 0 → ¬ Late dev final addrVec) := by
  have hnoBank : (model gen sizes V).addressed dev addrVec = none → ∀ {p : NodeBase Cmd St Int →
      DRAMNode Cmd St Int 2 → Prop}, ¬ ∃ node b, rankOf dev addrVec = some node ∧
        (model gen sizes V).addressed dev addrVec = some b ∧ p b node := by
    rintro hbank p ⟨node, b, -, hb, -⟩
    rw [hbank] at hb
    cases hb
  cases final with
  | RD =>
      rw [and_iff_right (.inl ⟨0, rfl⟩)]
      exact bankAccess_converges_iff_late (by decide) hvalid (late_bank_iff (.inl rfl))
        fun hbank => hnoBank hbank
  | WR =>
      rw [and_iff_right (.inl ⟨0, rfl⟩)]
      exact bankAccess_converges_iff_late (by decide) hvalid (late_bank_iff (.inr rfl))
        fun hbank => hnoBank hbank
  | RDCP | WRCP | MAC =>
      rw [and_iff_right (.inl ⟨0, rfl⟩)]
      exact bankAccess_converges_iff_late (by decide) hvalid
        (fun _ _ => ⟨False.elim, fun h => h.1 rfl⟩) fun _ => id
  | MAC8 | AF8 | EWMUL8 =>
      exact ⟨fun _ => ⟨.inl ⟨2, rfl⟩, fun _ => id⟩,
        fun _ => rankAccess_converges (by decide) hvalid⟩
  | REFab => exact ⟨fun _ => ⟨.inl ⟨2, rfl⟩, fun _ => id⟩, fun _ => refresh_converges hvalid⟩
  | REFpb => exact ⟨fun _ => ⟨.inl ⟨2, rfl⟩, fun _ => id⟩, fun _ => refpb_converges hvalid hdev⟩
  | WRGB | WRMAC8 | RDMAC8 | RDAF8 | WRA8 =>
      rw [and_iff_right (.inl ⟨2, rfl⟩)]
      exact rankSync_converges_iff_late rfl rfl rfl Iff.rfl hvalid
  | SYNC | EOC | UNKNOWN =>
      refine silent_converges_iff hvalid (fun d => ?_) nofun id
      rcases d with _ | _ | _ | _ <;> rfl
  | _ =>
      rcases hfinal with ⟨type, h⟩ | ⟨op, h⟩
      · cases type <;> cases h
      · cases op <;> cases h

end LPDDR

/-! ## The devices -/

/-- From every combination of bank states a request of GDDR6, LPDDR4 or LPDDR5 gets to its final
command exactly when that command has a prerequisite function or the address names no bank; and,
in LPDDR4 and LPDDR5 with a negative latency, when the sync deadline is not over by then. -/
theorem prerequisites_converge_iff (addrVec : AddrVec) :
    (∀ V (dev : (GDDR6.model V).Dev) (final : GDDR6.Cmd), GDDR6.IsFinal final →
      (GDDR6.model V).ValidAddr dev addrVec →
        (GDDR6.Converges dev final addrVec ↔
          (∃ d, (GDDR6.preqs d final).isSome) ∨
            (GDDR6.model V).addressed dev addrVec = none)) ∧
    ∀ gen sizes V (dev : (LPDDR.model gen sizes V).Dev) (final : LPDDR.Cmd), LPDDR.IsFinal final →
      (LPDDR.model gen sizes V).ValidAddr dev addrVec → (LPDDR.model gen sizes V).InnerInit dev →
        (LPDDR.Converges dev final addrVec ↔
          ((∃ d, (LPDDR.preqs (sizes LPDDR.bank) d final).isSome) ∨
            (LPDDR.model gen sizes V).addressed dev addrVec = none) ∧
          (LPDDR.commandLatencies V final < 0 → ¬ LPDDR.Late dev final addrVec)) :=
  ⟨fun _ _ _ => GDDR6.converges_iff_hasPreq, fun _ _ _ _ _ => LPDDR.converges_iff_hasPreq⟩

/-- A read of a new GDDR6 device, and a read of a new LPDDR4 device. -/
theorem prerequisites_converge_iff_read :
    GDDR6.Converges GDDR6.x16Device .RD [0, 1, 2, 7, 0] ∧
    LPDDR.Converges ((LPDDR.model .LPDDR4
        (Organization.countAt ⟨4096, 16, [1, 1, 4, 4, 16384, 1024]⟩)
        (LPDDR.aimVals .LPDDR4)).createNodes
      (Organization.countAt ⟨4096, 16, [1, 1, 4, 4, 16384, 1024]⟩)) .RD [0, 0, 1, 2, 7, 0] := by
  constructor
  · refine ((prerequisites_converge_iff _).1 _ _ _ (.inl ⟨.Read, rfl⟩) ?_).mpr (.inl ⟨0, rfl⟩)
    exact ⟨_, rfl, List.cons_ne_nil _ _, .inr ⟨_, rfl, List.cons_ne_nil _ _,
      .inr ⟨_, rfl, trivial⟩⟩⟩
  · refine ((prerequisites_converge_iff _).2 _ _ _ _ _ (.inl ⟨.Read, rfl⟩) ?_
      (DRAMModel.createNodes_innerInit _ _)).mpr ⟨.inl ⟨0, rfl⟩, fun h => absurd h (by decide)⟩
    exact ⟨_, rfl, List.cons_ne_nil _ _, .inr ⟨_, rfl, List.cons_ne_nil _ _,
      .inr ⟨_, rfl, List.cons_ne_nil _ _, .inr ⟨_, rfl, trivial⟩⟩⟩⟩

/-- The request `PREsb` of GDDR6 for a bank is not served: the prerequisite of `PRE`, which has
none, is `PREA` for ever. -/
theorem precharge_request_diverges :
    GDDR6.IsFinal .PRE ∧
      GDDR6.aimModel.ValidAddr GDDR6.x16Device [0, 1, 2, 7, 0] ∧
      ¬ GDDR6.Converges GDDR6.x16Device .PRE [0, 1, 2, 7, 0] := by
  refine ⟨.inl ⟨.RefSingleBank, rfl⟩, ⟨_, rfl, List.cons_ne_nil _ _, .inr ⟨_, rfl,
    List.cons_ne_nil _ _, .inr ⟨_, rfl, trivial⟩⟩⟩, ?_⟩
  intro ⟨cmds, hserves, _⟩
  have hnone : ∀ d, GDDR6.aimModel.preqs d .PRE = none := by rintro (_ | _ | _ | _) <;> rfl
  have hne : GDDR6.Cmd.PRE ≠ GDDR6.aimModel.commandOne := nofun
  exact DRAMModel.not_serves_of_silent (GDDR6.actsBy _) hnone hne ⟨_, rfl⟩ cmds hserves

end AimSimulator.Dram
