import AimSimulator.Lib.Prompting
import AimSimulator.Dram.GDDR6Rows
import AimSimulator.Dram.PreqWalk
/-!
# Prerequisites converge

A request is served by issuing what `get_preq_command` returns, one command each clock, until
it returns the final command of the request.
-/

namespace AimSimulator.Dram

/-! ## Serving a request -/

section

variable {Cmd St Ext : Type}

namespace DRAMSpec

variable (spec : DRAMSpec Cmd St Ext)

/-- An address of the tree below a node: each component is a wildcard or the index of a child,
down to the first wildcard or to a bank. -/
def ValidBelow (addrVec : AddrVec) : (d : Nat) → DRAMNode Cmd St Ext d → Prop
  | 0, _ => True
  | d + 1, n =>
      n.children ≠ [] ∧ (addrVec.at (spec.level d) < 0 ∨
        ∃ child, spec.childAt addrVec n = some child ∧ ValidBelow addrVec d child)

variable {spec} {cmd : Cmd} {addrVec : AddrVec} {clk : Int}

/-- Without a bank that the address names, and without prerequisites above the banks, the walk
ends at a wildcard. -/
theorem ValidBelow.getPreqCommand {d : Nat} {up : List (NodeBase Cmd St Ext)}
    {n : DRAMNode Cmd St Ext d} (h : spec.ValidBelow addrVec d n)
    (hnone : ∀ k, 0 < k → k ≤ d → spec.preqs k cmd = none)
    (hbank : spec.addressed addrVec d n = none) :
    spec.getPreqCommand cmd addrVec clk d up n = cmd := by
  induction d generalizing up with
  | zero => cases hbank
  | succ d ih =>
      obtain ⟨hchildren, hchild⟩ := h
      have hown : spec.ownPreq up cmd addrVec clk n = none :=
        ownPreq_eq_none (hnone (d + 1) (Nat.succ_pos d) (Nat.le_refl _)) up n
      rw [getPreqCommand_silent hown, if_neg hchildren]
      rcases hchild with hwild | ⟨child, hchild, hbelow⟩
      · rw [childAt, if_pos hwild]
      · rw [hchild]
        refine ih hbelow (fun k hpos hle => hnone k hpos (Nat.le_succ_of_le hle)) ?_
        rw [addressed_succ] at hbank
        rw [childAt] at hchild
        split at hchild
        · cases hchild
        · next hwild =>
            rw [if_neg hwild, hchild] at hbank
            exact hbank

/-! ### The nodes above the banks -/

variable (spec) in
/-- The nodes above the banks are in the states that they are created in. -/
def InnerInit : (d : Nat) → DRAMNode Cmd St Ext d → Prop
  | 0, _ => True
  | d + 1, n =>
      n.base.state = spec.initStates (spec.level (d + 1)) ∧ ∀ child ∈ n.children, InnerInit d child

variable (spec) in
def ActionsKeepInner : Prop :=
  ∀ (d : Nat) (cmd : Cmd) (addrVec : AddrVec) (clk : Int) (n : DRAMNode Cmd St Ext d),
    spec.InnerInit d n → spec.InnerInit d (spec.runAction cmd addrVec clk n)

theorem mapBanks_innerInit {f : NodeBase Cmd St Ext → NodeBase Cmd St Ext} {d : Nat}
    {n : DRAMNode Cmd St Ext d} (h : spec.InnerInit d n) : spec.InnerInit d (n.mapBanks f d) := by
  induction d with
  | zero => trivial
  | succ d ih =>
      refine ⟨h.1, fun child hchild => ?_⟩
      obtain ⟨old, hold, rfl⟩ := List.mem_map.mp hchild
      exact ih (h.2 old hold)

theorem newNode_innerInit [DecidableEq Cmd] (count : Nat → Int) (d : Nat) (id : Int) :
    spec.InnerInit d (spec.newNode count d id) := by
  induction d generalizing id with
  | zero => trivial
  | succ d ih =>
      refine ⟨rfl, fun child hchild => ?_⟩
      obtain ⟨i, -, rfl⟩ := List.mem_map.mp hchild
      exact ih i

theorem updateTiming_innerInit [DecidableEq Cmd] {d : Nat} {n : DRAMNode Cmd St Ext d}
    (h : spec.InnerInit d n) : spec.InnerInit d (spec.updateTiming cmd addrVec clk d n) := by
  induction d with
  | zero => trivial
  | succ d ih =>
      rw [updateTiming]
      split
      · exact h
      · refine ⟨h.1, fun child hchild => ?_⟩
        obtain ⟨old, hold, rfl⟩ := List.mem_map.mp hchild
        exact ih (h.2 old hold)

theorem updateStates_innerInit (hact : spec.ActionsKeepInner) {d : Nat}
    {n : DRAMNode Cmd St Ext d} (h : spec.InnerInit d n) :
    spec.InnerInit d (spec.updateStates cmd addrVec clk d n) := by
  induction d with
  | zero => trivial
  | succ d ih =>
      have hrun := hact (d + 1) cmd addrVec clk n h
      rw [updateStates]
      dsimp only
      split
      · exact hrun
      · split
        · exact hrun
        · refine ⟨hrun.1, fun child hchild => ?_⟩
          rw [DRAMNode.children_node] at hchild
          obtain ⟨j, hj⟩ := List.mem_iff_getElem?.mp hchild
          rw [List.getElem?_modify] at hj
          obtain ⟨old, hold, rfl⟩ := Option.map_eq_some_iff.mp hj
          have hinner := hrun.2 old (List.mem_of_getElem? hold)
          split
          · exact ih hinner
          · exact hinner

end DRAMSpec

namespace DRAMModel

variable [DecidableEq Cmd] (model : DRAMModel Cmd St Ext)

/-- A device in some combination of states of its banks: the nodes above them are in the states
that they are created in. -/
def InnerInit (dev : model.Dev) : Prop :=
  ∀ c ∈ dev.channels, model.toDRAMSpec.InnerInit model.bankLevel c

theorem createNodes_innerInit (count : Nat → Int) : model.InnerInit (model.createNodes count) := by
  intro c hc
  obtain ⟨i, -, rfl⟩ := List.mem_map.mp hc
  exact DRAMSpec.newNode_innerInit count model.bankLevel i

theorem issueCommand_innerInit (hact : model.ActionsKeepInner) {dev : model.Dev}
    (h : model.InnerInit dev) (cmd : Cmd) (addrVec : AddrVec) :
    model.InnerInit (model.issueCommand dev cmd addrVec) := by
  unfold issueCommand
  split
  · exact h
  · intro c hc
    obtain ⟨j, hj⟩ := List.mem_iff_getElem?.mp hc
    rw [List.getElem?_modify] at hj
    obtain ⟨old, hold, rfl⟩ := Option.map_eq_some_iff.mp hj
    have hinner := h old (List.mem_of_getElem? hold)
    split
    · exact DRAMSpec.updateStates_innerInit hact (DRAMSpec.updateTiming_innerInit hinner)
    · exact hinner

def serve (addrVec : AddrVec) (dev : model.Dev) (cmd : Cmd) : model.Dev :=
  model.tick (model.issueCommand dev cmd addrVec)

/-- The commands that are issued for a request before its final command is returned. -/
abbrev Serves (final : Cmd) (addrVec : AddrVec) (dev : model.Dev) (cmds : List Cmd) : Prop :=
  Prompting.Leads (fun dev => model.getPreqCommand dev final addrVec) (model.serve addrVec) final
    dev cmds

def ValidAddr (dev : model.Dev) (addrVec : AddrVec) : Prop :=
  ∃ c, model.channelOf dev addrVec = some c ∧ model.ValidBelow addrVec model.bankLevel c

variable {model} {addrVec : AddrVec} {dev : model.Dev} {final cmd : Cmd}

theorem channelOf_serve (cmd : Cmd) : model.channelOf (model.serve addrVec dev cmd) addrVec =
    (model.channelOf dev addrVec).map fun c =>
      model.updateStates cmd addrVec dev.clk _ (model.updateTiming cmd addrVec dev.clk _ c) := by
  unfold channelOf
  split
  · rfl
  · next hch =>
      show (model.issueCommand dev cmd addrVec).channels[(addrVec.at 0).toNat]? = _
      rw [issueCommand, if_neg hch, List.getElem?_modify]
      cases dev.channels[(addrVec.at 0).toNat]? with
      | none => rfl
      | some c => simp only [if_true, Option.map_eq_map, Option.map_some]

theorem rowsAt_serve {f : DRAMSpec.RowAction Cmd St} (hf : model.ActsBy f) {ch : Nat}
    (hch : addrVec.at 0 = ch) (path : List Nat) :
    model.rowsAt (model.serve addrVec dev cmd) ch path =
      (model.rowsAt dev ch path).map (model.touch f cmd addrVec model.bankLevel path) := by
  refine (model.rowsAt_issueCommand hf dev cmd addrVec ch path).trans ?_
  simp only [hch, if_true]

omit [DecidableEq Cmd] in
theorem ValidAddr.exists_at (h : model.ValidAddr dev addrVec) :
    ∃ ch : Nat, addrVec.at 0 = ch := by
  obtain ⟨c, hc, -⟩ := h
  exact model.exists_channel hc

omit [DecidableEq Cmd] in
theorem ValidAddr.getPreqCommand (h : model.ValidAddr dev addrVec)
    (hnone : ∀ k, 0 < k → model.preqs k final = none)
    (hbank : model.addressed dev addrVec = none) :
    model.getPreqCommand dev final addrVec = final := by
  obtain ⟨c, hc, hbelow⟩ := h
  rw [addressed, hc] at hbank
  rw [DRAMModel.getPreqCommand, hc]
  exact hbelow.getPreqCommand (fun k hpos _ => hnone k hpos) hbank

theorem addressed_serve {f : DRAMSpec.RowAction Cmd St} (hf : model.ActsBy f)
    (h : ∃ b, model.addressed dev addrVec = some b) (cmd : Cmd) :
    ∃ b, model.addressed (model.serve addrVec dev cmd) addrVec = some b := by
  obtain ⟨b, hb⟩ := h
  obtain ⟨ch, path, hnames, hrows⟩ := model.exists_names hb
  have hserved := @rowsAt_addressed _ _ _ model (model.serve addrVec dev cmd) _ _ _ hnames
  rw [rowsAt_serve hf hnames.1, hrows] at hserved
  obtain ⟨b', hb', -⟩ := Option.map_eq_some_iff.mp hserved.symm
  exact ⟨b', hb'⟩

theorem not_serves_of_silent {f : DRAMSpec.RowAction Cmd St} (hf : model.ActsBy f)
    (hnone : ∀ k, model.preqs k final = none) (hne : final ≠ model.commandOne)
    (hbank : ∃ b, model.addressed dev addrVec = some b) (cmds : List Cmd) :
    ¬ model.Serves final addrVec dev cmds := by
  refine Prompting.not_leads (I := fun dev => ∃ b, model.addressed dev addrVec = some b)
    (fun dev hdev => ?_) (fun dev hdev => addressed_serve hf hdev _) hbank cmds
  obtain ⟨b, hb⟩ := hdev
  rcases model.getPreqCommand_bank (fun k _ => hnone k) dev addrVec with
    ⟨b', up, -, heq⟩ | ⟨hno, -⟩
  · rw [heq, DRAMSpec.ownPreq_eq_none (hnone 0)]
    exact Ne.symm hne
  · rw [hb] at hno
    cases hno

end DRAMModel

end

/-! ## GDDR6 -/

namespace GDDR6

variable {V : Timing → Int} {dev : (model V).Dev} {addrVec : AddrVec} {final cmd : Cmd}

/-- A request is served by at most `PRE`, `ACT` or `PREA`, `ACT16` and its final command. -/
def Converges (dev : (model V).Dev) (final : Cmd) (addrVec : AddrVec) : Prop :=
  ∃ cmds, (model V).Serves final addrVec dev cmds ∧
    (cmds.Sublist [.PRE, .ACT] ∨ cmds.Sublist [.PREA, .ACT16])

def bankAccesses : List Cmd := [.RD, .WR, .RDCP, .WRCP, .MAC]

def allBankAccesses : List Cmd := [.WRA16, .MAC16, .AF16, .EWMUL16]

theorem bankAccess_preqs (hfinal : final ∈ bankAccesses) :
    (∀ k, 0 < k → preqs k final = none) ∧ preqs 0 final = some (requireRowOpen final) := by
  simp only [bankAccesses, List.mem_cons, List.not_mem_nil, or_false] at hfinal
  rcases hfinal with rfl | rfl | rfl | rfl | rfl
  all_goals
    refine ⟨fun k hk => ?_, rfl⟩
    match k with
    | 1 | 2 => rfl
    | _ + 3 => rfl

theorem names_at {ch g b : Nat} (h : (model V).Names addrVec ch [g, b]) :
    addrVec.at bankgroup = g ∧ addrVec.at bank = b := by
  obtain ⟨hgroup, hg⟩ := h.at_succ (show 0 < bank by decide)
  obtain ⟨hbank, hb⟩ := h.at_succ (show 1 < bank by decide)
  obtain rfl : g = (addrVec.at bankgroup).toNat := Option.some.inj hg
  obtain rfl : b = (addrVec.at bank).toNat := Option.some.inj hb
  exact ⟨(Int.toNat_of_nonneg hgroup).symm, (Int.toNat_of_nonneg hbank).symm⟩

theorem bankAccess_answer (hfinal : final ∈ bankAccesses) {ch : Nat} {path : List Nat}
    (hnames : (model V).Names addrVec ch path) {r : BankRows St}
    (hr : (model V).rowsAt dev ch path = some r) :
    (model V).getPreqCommand dev final addrVec =
      if r.1 = .Closed then .ACT
      else if r.1 = .Opened then if r.hasRow (addrVec.at row) then final else .PRE
      else final := by
  obtain ⟨hnone, hbank⟩ := bankAccess_preqs hfinal
  have hrows := @DRAMModel.rowsAt_addressed _ _ _ (model V) dev _ _ _ hnames
  rw [hr] at hrows
  obtain ⟨b, hb, rfl⟩ := Option.map_eq_some_iff.mp hrows.symm
  rcases (model V).getPreqCommand_bank hnone dev addrVec with ⟨b', up, hb', heq⟩ | ⟨hno, -⟩
  · obtain rfl := Option.some.inj (hb.symm.trans hb')
    have hanswer : requireRowOpen final up (.bank b) addrVec dev.clk =
        some (if b.state = .Closed then .ACT
          else if b.state = .Opened then if b.hasRow (addrVec.at row) then final else .PRE
          else final) := by
      unfold requireRowOpen Preq.Bank.RequireRowOpen
      rw [DRAMNode.base_bank, apply_ite some, apply_ite some, apply_ite some]
    rw [heq, DRAMSpec.ownPreq, show (model V).preqs 0 final = _ from hbank]
    exact congrArg (Option.getD · _) hanswer
  · rw [hb] at hno
    cases hno

theorem rowsAt_serve {ch g b : Nat} (hch : addrVec.at channel = ch) {r : BankRows St}
    (hr : (model V).rowsAt dev ch [g, b] = some r) :
    (model V).rowsAt ((model V).serve addrVec dev cmd) ch [g, b] =
      some (rowEffect cmd addrVec g b r) := by
  rw [DRAMModel.rowsAt_serve (actsBy V) hch, hr]
  exact congrArg some (touch_rowEffect (V := V) cmd addrVec g b r)

theorem bankAccess_converges (hfinal : final ∈ bankAccesses)
    (hvalid : (model V).ValidAddr dev addrVec) : Converges dev final addrVec := by
  cases hbank : (model V).addressed dev addrVec with
  | none =>
      exact ⟨[], .done (hvalid.getPreqCommand (bankAccess_preqs hfinal).1 hbank),
        .inl (List.nil_sublist _)⟩
  | some bank =>
      obtain ⟨ch, path, hnames, hr⟩ := (model V).exists_names hbank
      obtain ⟨g, b, rfl⟩ := path_cases hr
      obtain ⟨hg, hb⟩ := names_at hnames
      have hne : Cmd.ACT ≠ final ∧ Cmd.PRE ≠ final := by
        constructor <;> rintro rfl <;> exact absurd hfinal (by decide)
      have hopens : ∀ {dev : (model V).Dev} {r : BankRows St},
          (model V).rowsAt dev ch [g, b] = some r → r.1 = .Closed →
            (model V).Serves final addrVec dev [.ACT] := by
        intro dev r hr hclosed
        refine .step ((bankAccess_answer hfinal hnames hr).trans (if_pos hclosed)) hne.1 (.done ?_)
        rw [bankAccess_answer hfinal hnames (rowsAt_serve hnames.1 hr)]
        simp [rowEffect, hg, hb, BankRows.openRow, BankRows.hasRow]
      have hanswer := bankAccess_answer hfinal hnames hr
      by_cases hclosed : bank.rows.1 = .Closed
      · exact ⟨_, hopens hr hclosed, .inl (.cons _ (List.Sublist.refl _))⟩
      · rw [if_neg hclosed] at hanswer
        by_cases hother : bank.rows.1 = .Opened ∧ bank.rows.hasRow (addrVec.at row) = false
        · rw [if_pos hother.1, hother.2, if_neg Bool.false_ne_true] at hanswer
          refine ⟨_, .step hanswer hne.2 (hopens (rowsAt_serve hnames.1 hr) ?_),
            .inl (List.Sublist.refl _)⟩
          simp [rowEffect, hg, hb, BankRows.close]
        · refine ⟨[], .done (hanswer.trans ?_), .inl (List.nil_sublist _)⟩
          split
          · next hopen =>
              exact if_pos (Bool.not_eq_false _ ▸ fun h => hother ⟨hopen, h⟩)
          · rfl

/-! ### All banks -/

theorem allBanks_serve {ch : Nat} (hch : addrVec.at channel = ch) {path : List Nat}
    {r' : BankRows St}
    (hr' : (model V).rowsAt ((model V).serve addrVec dev cmd) ch path = some r') :
    ∃ g b r, (model V).rowsAt dev ch [g, b] = some r ∧ r' = rowEffect cmd addrVec g b r := by
  rw [DRAMModel.rowsAt_serve (actsBy V) hch] at hr'
  obtain ⟨r, hr, rfl⟩ := Option.map_eq_some_iff.mp hr'
  obtain ⟨g, b, rfl⟩ := path_cases hr
  exact ⟨g, b, r, hr, touch_rowEffect (V := V) cmd addrVec g b r⟩

theorem allBankAccess_converges (hfinal : final ∈ allBankAccesses)
    (hvalid : (model V).ValidAddr dev addrVec) : Converges dev final addrVec := by
  obtain ⟨ch, hch⟩ := hvalid.exists_at
  have hpreq : preqs 2 final = some (requireAllRowsOpen final) := by
    simp only [allBankAccesses, List.mem_cons, List.not_mem_nil, or_false] at hfinal
    rcases hfinal with rfl | rfl | rfl | rfl <;> rfl
  have hne : Cmd.PREA ≠ final ∧ Cmd.ACT16 ≠ final := by
    constructor <;> rintro rfl <;> exact absurd hfinal (by decide)
  have hanswer := fun {dev : (model V).Dev} {c} hc =>
    @requireAllRowsOpen_cases V dev final addrVec hpreq c hc ch hch
  have hserve : ∀ {dev : (model V).Dev} {c}, (model V).channelOf dev addrVec = some c → ∀ cmd,
      ∃ c', (model V).channelOf ((model V).serve addrVec dev cmd) addrVec = some c' := by
    intro dev c hc cmd
    exact ⟨_, by rw [DRAMModel.channelOf_serve, hc]; rfl⟩
  -- after the activation of all banks
  have hopen : ∀ {dev : (model V).Dev} {c}, (model V).channelOf dev addrVec = some c →
      (model V).Serves final addrVec ((model V).serve addrVec dev .ACT16) [] := by
    intro dev c hc
    obtain ⟨c', hc'⟩ := hserve hc .ACT16
    refine .done ?_
    rcases hanswer hc' with ⟨-, path, r', hr', -, hrow⟩ |
      ⟨-, ⟨-, path, r', hr', hclosed⟩ | ⟨hfinal, -⟩⟩
    · obtain ⟨g, b, r, -, rfl⟩ := allBanks_serve hch hr'
      simp [rowEffect, BankRows.openRow, BankRows.hasRow] at hrow
    · obtain ⟨g, b, r, -, rfl⟩ := allBanks_serve hch hr'
      simp [rowEffect, BankRows.openRow] at hclosed
    · exact hfinal
  obtain ⟨c, hc, -⟩ := hvalid
  rcases hanswer hc with ⟨hprea, -⟩ | ⟨-, ⟨hact, -⟩ | ⟨hdone, -⟩⟩
  · obtain ⟨c', hc'⟩ := hserve hc .PREA
    rcases hanswer hc' with ⟨-, path, r', hr', hother, -⟩ | ⟨-, ⟨hact, -⟩ | ⟨hdone, -⟩⟩
    · obtain ⟨g, b, r, -, rfl⟩ := allBanks_serve hch hr'
      exact absurd rfl hother
    · exact ⟨_, .step hprea hne.1 (.step hact hne.2 (hopen hc')), .inr (List.Sublist.refl _)⟩
    · exact ⟨_, .step hprea hne.1 (.done hdone), .inr (.cons_cons _ (List.nil_sublist _))⟩
  · exact ⟨_, .step hact hne.2 (hopen hc), .inr (.cons _ (List.Sublist.refl _))⟩
  · exact ⟨[], .done hdone, .inr (List.nil_sublist _)⟩

theorem refresh_converges (hvalid : (model V).ValidAddr dev addrVec) :
    Converges dev .REFab addrVec := by
  obtain ⟨ch, hch⟩ := hvalid.exists_at
  obtain ⟨c, hc, -⟩ := hvalid
  have hanswer : ∀ {dev : (model V).Dev} {c : DRAMNode Cmd St Unit 2},
      (model V).channelOf dev addrVec = some c →
        (model V).getPreqCommand dev .REFab addrVec =
          if (c.banks 2).all fun b => decide (b.state = .Closed) then .REFab else .PREA := by
    intro dev c hc
    refine @getPreqCommand_channel V dev .REFab addrVec
      (Preq.RequireAllBanksClosed .Closed .PREA .REFab) rfl c hc _ ?_
    unfold Preq.RequireAllBanksClosed
    rw [apply_ite some]
  by_cases hall : ((c.banks 2).all fun b => decide (b.state = .Closed)) = true
  · exact ⟨[], .done ((hanswer hc).trans (if_pos hall)), .inr (List.nil_sublist _)⟩
  · obtain ⟨c', hc'⟩ : ∃ c' : DRAMNode Cmd St Unit 2,
        (model V).channelOf ((model V).serve addrVec dev .PREA) addrVec = some c' :=
      ⟨_, by rw [DRAMModel.channelOf_serve, hc]; rfl⟩
    have hclosed : ((c'.banks 2).all fun b => decide (b.state = .Closed)) = true := by
      refine List.all_eq_true.mpr fun bank hbank => ?_
      obtain ⟨path, hpath⟩ := DRAMNode.mem_banks.mp hbank
      have hrows : c'.rowsAt 2 path = some bank.rows := by
        rw [DRAMNode.rowsAt, hpath]
        rfl
      obtain ⟨g, b, r, -, hr⟩ := allBanks_serve hch ((rowsAt_channel hc' hch).mpr hrows)
      exact decide_eq_true (congrArg Prod.fst hr)
    exact ⟨[.PREA], .step ((hanswer hc).trans (if_neg hall)) (by decide)
      (.done ((hanswer hc').trans (if_pos hclosed))), .inr (.cons_cons _ (List.nil_sublist _))⟩

/-- A request is served in the end exactly when its final command has a prerequisite function
at some level, or its address names no bank. -/
theorem converges_iff_hasPreq (hfinal : IsFinal final) (hvalid : (model V).ValidAddr dev addrVec) :
    Converges dev final addrVec ↔
      (∃ d, (preqs d final).isSome) ∨ (model V).addressed dev addrVec = none := by
  have hsilent : final ≠ .PREA → (∀ d, preqs d final = none) →
      (Converges dev final addrVec ↔
        (∃ d, (preqs d final).isSome) ∨ (model V).addressed dev addrVec = none) := by
    intro hne hnone
    constructor
    · intro ⟨cmds, hserves, _⟩
      cases hbank : (model V).addressed dev addrVec with
      | none => exact .inr rfl
      | some b =>
          exact absurd hserves
            (DRAMModel.not_serves_of_silent (actsBy V) hnone hne ⟨b, hbank⟩ cmds)
    · rintro (⟨d, hd⟩ | hbank)
      · rw [hnone d] at hd
        cases hd
      · exact ⟨[], .done (hvalid.getPreqCommand (fun k _ => hnone k) hbank),
          .inr (List.nil_sublist _)⟩
  cases final with
  | RD | WR | RDCP | WRCP | MAC =>
      exact ⟨fun _ => .inl ⟨0, rfl⟩, fun _ => bankAccess_converges (by decide) hvalid⟩
  | WRA16 | MAC16 | AF16 | EWMUL16 =>
      exact ⟨fun _ => .inl ⟨2, rfl⟩, fun _ => allBankAccess_converges (by decide) hvalid⟩
  | REFab => exact ⟨fun _ => .inl ⟨2, rfl⟩, fun _ => refresh_converges hvalid⟩
  | PRE | WRGB | WRMAC16 | RDMAC16 | RDAF16 | SYNC | EOC | UNKNOWN =>
      refine hsilent nofun ?_
      rintro (_ | _ | _ | _) <;> rfl
  | _ =>
      rcases hfinal with ⟨type, h⟩ | ⟨op, h⟩
      · cases type <;> cases h
      · cases op <;> cases h

end GDDR6

end AimSimulator.Dram
