import AimSimulator.Dram.BankRows
import AimSimulator.Dram.GDDR6
/-!
# What the prerequisite walk returns

`get_preq_command` descends along the address until a prerequisite answers, a level is a
wildcard, or a node has no children.  At such a node the source returns `true`, so the
walk gives the command of id `1` there and not the command it was asked for.
-/

namespace AimSimulator.Dram

namespace DRAMSpec

variable {Cmd St Ext : Type} (spec : DRAMSpec Cmd St Ext)

def childAt (addrVec : AddrVec) {d : Nat} (n : DRAMNode Cmd St Ext (d + 1)) :
    Option (DRAMNode Cmd St Ext d) :=
  if addrVec.at (spec.level d) < 0 then none else n.children[(addrVec.at (spec.level d)).toNat]?

/-- `a` is the answer of a prerequisite function on the path that the walk visits. -/
inductive Chosen (cmd : Cmd) (addrVec : AddrVec) (clk : Int) :
    (d : Nat) → List (NodeBase Cmd St Ext) → DRAMNode Cmd St Ext d → Cmd → Prop
  | here {d : Nat} {up : List (NodeBase Cmd St Ext)} {n : DRAMNode Cmd St Ext d} {a : Cmd}
      (answers : spec.ownPreq up cmd addrVec clk n = some a) : Chosen cmd addrVec clk d up n a
  | deeper {d : Nat} {up : List (NodeBase Cmd St Ext)} {n : DRAMNode Cmd St Ext (d + 1)}
      {child : DRAMNode Cmd St Ext d} {a : Cmd}
      (silent : spec.ownPreq up cmd addrVec clk n = none)
      (at_child : spec.childAt addrVec n = some child)
      (chosen : Chosen cmd addrVec clk d (n.base :: up) child a) :
      Chosen cmd addrVec clk (d + 1) up n a

/-- No node on the path down to the addressed bank has a prerequisite function. -/
def NoPreqOnPath (cmd : Cmd) (addrVec : AddrVec) : (d : Nat) → DRAMNode Cmd St Ext d → Prop
  | 0, _ => spec.preqs 0 cmd = none
  | d + 1, n =>
      spec.preqs (d + 1) cmd = none ∧
        ∀ child, spec.childAt addrVec n = some child → NoPreqOnPath cmd addrVec d child

/-- The path runs down to a node without children, and no prerequisite on it answers. -/
def LeafUnanswered (cmd : Cmd) (addrVec : AddrVec) (clk : Int) :
    (d : Nat) → List (NodeBase Cmd St Ext) → DRAMNode Cmd St Ext d → Prop
  | 0, up, n => spec.ownPreq up cmd addrVec clk n = none
  | d + 1, up, n =>
      spec.ownPreq up cmd addrVec clk n = none ∧
        (n.children = [] ∨ ∃ child, spec.childAt addrVec n = some child ∧
          LeafUnanswered cmd addrVec clk d (n.base :: up) child)

/-- The walk returns an answer of the path or the command itself, and the command itself
when no node of the path has a prerequisite function for it. -/
structure ReturnsCommand (cmd : Cmd) (addrVec : AddrVec) (clk : Int) (d : Nat)
    (up : List (NodeBase Cmd St Ext)) (n : DRAMNode Cmd St Ext d) : Prop where
  chosen_or_own : spec.Chosen cmd addrVec clk d up n (spec.getPreqCommand cmd addrVec clk d up n) ∨
    spec.getPreqCommand cmd addrVec clk d up n = cmd
  own : spec.NoPreqOnPath cmd addrVec d n → spec.getPreqCommand cmd addrVec clk d up n = cmd

variable {spec} {cmd : Cmd} {addrVec : AddrVec} {clk : Int}

theorem ownPreq_eq_none {d : Nat} (h : spec.preqs d cmd = none) (up : List (NodeBase Cmd St Ext))
    (n : DRAMNode Cmd St Ext d) : spec.ownPreq up cmd addrVec clk n = none := by
  rw [ownPreq, h]

/-- The walk above a node that does not answer: it ends there or goes on at the child. -/
theorem getPreqCommand_silent {d : Nat} {up : List (NodeBase Cmd St Ext)}
    {n : DRAMNode Cmd St Ext (d + 1)} (h : spec.ownPreq up cmd addrVec clk n = none) :
    spec.getPreqCommand cmd addrVec clk (d + 1) up n =
      if n.children = [] then spec.commandOne
      else
        match spec.childAt addrVec n with
        | some child => spec.getPreqCommand cmd addrVec clk d (n.base :: up) child
        | none => cmd := by
  rw [getPreqCommand, h, childAt]
  dsimp only
  simp only [List.isEmpty_iff]
  split
  · rfl
  · split <;> rfl

theorem NoPreqOnPath.not_chosen {d : Nat} {up : List (NodeBase Cmd St Ext)}
    {n : DRAMNode Cmd St Ext d} {a : Cmd} (h : spec.NoPreqOnPath cmd addrVec d n) :
    ¬ spec.Chosen cmd addrVec clk d up n a := by
  intro hchosen
  induction hchosen with
  | @here d _ _ _ answers =>
      have hnone : spec.preqs d cmd = none := by
        cases d with
        | zero => exact h
        | succ d => exact h.1
      rw [ownPreq_eq_none hnone] at answers
      cases answers
  | deeper _ at_child _ ih => exact ih (h.2 _ at_child)

theorem LeafUnanswered.getPreqCommand {d : Nat} {up : List (NodeBase Cmd St Ext)}
    {n : DRAMNode Cmd St Ext d} (h : spec.LeafUnanswered cmd addrVec clk d up n) :
    spec.getPreqCommand cmd addrVec clk d up n = spec.commandOne ∧
      ∀ a, ¬ spec.Chosen cmd addrVec clk d up n a := by
  induction d generalizing up with
  | zero =>
      have hsilent : spec.ownPreq up cmd addrVec clk n = none := h
      refine ⟨by rw [DRAMSpec.getPreqCommand, hsilent]; rfl, fun a hchosen => ?_⟩
      cases hchosen with
      | here answers =>
          rw [hsilent] at answers
          cases answers
  | succ d ih =>
      obtain ⟨hsilent, hleaf⟩ := h
      rw [getPreqCommand_silent hsilent]
      by_cases hempty : n.children = []
      · refine ⟨if_pos hempty, fun a hchosen => ?_⟩
        cases hchosen with
        | here answers =>
            rw [hsilent] at answers
            cases answers
        | deeper _ at_child _ =>
            rw [childAt, hempty] at at_child
            split at at_child <;> cases at_child
      · obtain ⟨child, hchild, hbelow⟩ := hleaf.resolve_left hempty
        obtain ⟨hone, hnone⟩ := ih hbelow
        rw [if_neg hempty, hchild]
        refine ⟨hone, fun a hchosen => ?_⟩
        cases hchosen with
        | here answers =>
            rw [hsilent] at answers
            cases answers
        | deeper _ at_child chosen =>
            obtain rfl := Option.some.inj (hchild.symm.trans at_child)
            exact hnone a chosen

/-- Where some node of the path answers, or the walk ends at a wildcard, it returns an answer of the
path or the command itself. -/
theorem getPreqCommand_answered {d : Nat} {up : List (NodeBase Cmd St Ext)}
    {n : DRAMNode Cmd St Ext d} (h : ¬ spec.LeafUnanswered cmd addrVec clk d up n) :
    spec.Chosen cmd addrVec clk d up n (spec.getPreqCommand cmd addrVec clk d up n) ∨
      spec.getPreqCommand cmd addrVec clk d up n = cmd := by
  induction d generalizing up with
  | zero =>
      cases hown : spec.ownPreq up cmd addrVec clk n with
      | none => exact absurd hown h
      | some a =>
          rw [spec.getPreqCommand_own hown]
          exact .inl (.here hown)
  | succ d ih =>
      cases hown : spec.ownPreq up cmd addrVec clk n with
      | some a =>
          rw [spec.getPreqCommand_own hown]
          exact .inl (.here hown)
      | none =>
          have hne : n.children ≠ [] := fun hempty => h ⟨hown, .inl hempty⟩
          rw [getPreqCommand_silent hown, if_neg hne]
          cases hchild : spec.childAt addrVec n with
          | none => exact .inr rfl
          | some child =>
              have hbelow : ¬ spec.LeafUnanswered cmd addrVec clk d (n.base :: up) child :=
                fun hleaf => h ⟨hown, .inr ⟨child, hchild, hleaf⟩⟩
              rcases ih hbelow with hchosen | hcmd
              · exact .inl (.deeper hown hchild hchosen)
              · exact .inr hcmd

variable (spec) in
/-- The walk returns a command as it should exactly when it does not end unanswered at a leaf,
or when it was asked for the command of id `1`. -/
theorem returnsCommand_iff (cmd : Cmd) (addrVec : AddrVec) (clk : Int) {d : Nat}
    (up : List (NodeBase Cmd St Ext)) (n : DRAMNode Cmd St Ext d) :
    spec.ReturnsCommand cmd addrVec clk d up n ↔
      (¬ spec.LeafUnanswered cmd addrVec clk d up n ∨ cmd = spec.commandOne) := by
  constructor
  · intro h
    by_cases hleaf : spec.LeafUnanswered cmd addrVec clk d up n
    · obtain ⟨hone, hnone⟩ := hleaf.getPreqCommand
      have hcmd := h.chosen_or_own.resolve_left (hnone _)
      exact .inr (hcmd.symm.trans hone)
    · exact .inl hleaf
  · intro h
    have hreturns : spec.Chosen cmd addrVec clk d up n
        (spec.getPreqCommand cmd addrVec clk d up n) ∨
          spec.getPreqCommand cmd addrVec clk d up n = cmd := by
      by_cases hleaf : spec.LeafUnanswered cmd addrVec clk d up n
      · rw [hleaf.getPreqCommand.1]
        exact .inr (h.resolve_left (not_not_intro hleaf)).symm
      · exact getPreqCommand_answered hleaf
    exact ⟨hreturns, fun hpath => hreturns.resolve_left hpath.not_chosen⟩

end DRAMSpec

namespace GDDR6

/-- The request `PREsb` to one bank of a new device: its command `PRE` has no prerequisite
function, and the walk turns it into `PREA`, the precharge of all banks. -/
theorem prea_for_pre :
    ¬ aimModel.ReturnsCommand .PRE [0, 1, 2, 7, 0] 0 2 []
      (aimModel.newNode x16Organization.countAt 2 0) := by
  intro h
  have hpath : aimModel.NoPreqOnPath .PRE [0, 1, 2, 7, 0] 2
      (aimModel.newNode x16Organization.countAt 2 0) :=
    ⟨rfl, fun _ _ => ⟨rfl, fun _ _ => rfl⟩⟩
  have hpre := h.own hpath
  have hprea : aimModel.toDRAMSpec.getPreqCommand .PRE [0, 1, 2, 7, 0] 0 2 []
      (aimModel.newNode x16Organization.countAt 2 0) = .PREA :=
    rfl
  rw [hprea] at hpre
  cases hpre

end GDDR6

end AimSimulator.Dram
