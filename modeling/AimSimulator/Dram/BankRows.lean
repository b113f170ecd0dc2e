import AimSimulator.Dram.Device
import AimSimulator.Dram.Lambdas
/-!
# The rows of the banks

A tree seen as its banks by path, and a bank as its state with its row map.  What a
command does to the rows of a bank is the composition of the row actions that
`update_states` meets on the way to it; `update_timing` does nothing to them.
-/

namespace AimSimulator.Dram

abbrev BankRows (St : Type) := St × List (Int × St)

variable {Cmd St Ext : Type}

def NodeBase.rows (b : NodeBase Cmd St Ext) : BankRows St := (b.state, b.rowState)

/-- `m_row_state.find(row) != m_row_state.end()`. -/
def BankRows.hasRow (r : BankRows St) (row : Int) : Bool := r.2.any fun e => e.1 == row

def BankRows.openRow (opened : St) (row : Int) (r : BankRows St) : BankRows St :=
  (opened, (row, opened) :: r.2.filter fun e => e.1 != row)

def BankRows.close (closed : St) (_ : BankRows St) : BankRows St := (closed, [])

@[simp] theorem rows_openRow (opened : St) (row : Int) (b : NodeBase Cmd St Ext) :
    (b.openRow opened row).rows = b.rows.openRow opened row := rfl

@[simp] theorem rows_close (closed : St) (b : NodeBase Cmd St Ext) :
    (b.close closed).rows = b.rows.close closed := rfl

@[simp] theorem hasRow_rows (b : NodeBase Cmd St Ext) (row : Int) :
    b.rows.hasRow row = b.hasRow row := rfl

/-! ## Banks by path -/

namespace DRAMNode

def bankAt : (d : Nat) → DRAMNode Cmd St Ext d → List Nat → Option (NodeBase Cmd St Ext)
  | 0, n, path => if path = [] then some n.base else none
  | _ + 1, _, [] => none
  | d + 1, n, i :: path => n.children[i]?.bind fun child => bankAt d child path

def rowsAt (d : Nat) (n : DRAMNode Cmd St Ext d) (path : List Nat) : Option (BankRows St) :=
  (n.bankAt d path).map NodeBase.rows

theorem rowsAt_cons {d : Nat} (n : DRAMNode Cmd St Ext (d + 1)) (i : Nat) (path : List Nat) :
    n.rowsAt (d + 1) (i :: path) = n.children[i]?.bind fun child => child.rowsAt d path := by
  rw [rowsAt, bankAt, Option.map_bind]
  rfl

theorem length_of_bankAt {d : Nat} {n : DRAMNode Cmd St Ext d} {path : List Nat}
    {b : NodeBase Cmd St Ext} (h : n.bankAt d path = some b) : path.length = d := by
  induction d generalizing path with
  | zero =>
      rw [bankAt] at h
      split at h
      · next hnil => rw [hnil]; rfl
      · cases h
  | succ d ih =>
      cases path with
      | nil => cases h
      | cons i path =>
          obtain ⟨child, -, hb⟩ := Option.bind_eq_some_iff.mp h
          rw [List.length_cons, ih hb]

theorem mem_banks {d : Nat} {n : DRAMNode Cmd St Ext d} {b : NodeBase Cmd St Ext} :
    b ∈ n.banks d ↔ ∃ path, n.bankAt d path = some b := by
  induction d with
  | zero =>
      rw [banks, List.mem_singleton]
      constructor
      · rintro rfl
        exact ⟨[], rfl⟩
      · rintro ⟨path, h⟩
        rw [bankAt] at h
        split at h
        · exact (Option.some.inj h).symm
        · cases h
  | succ d ih =>
      rw [banks, List.mem_flatMap]
      constructor
      · rintro ⟨child, hchild, hb⟩
        obtain ⟨i, hi, rfl⟩ := List.mem_iff_getElem.mp hchild
        obtain ⟨path, hpath⟩ := ih.mp hb
        refine ⟨i :: path, ?_⟩
        rw [bankAt, List.getElem?_eq_getElem hi]
        exact hpath
      · rintro ⟨path, h⟩
        cases path with
        | nil => cases h
        | cons i path =>
            obtain ⟨child, hchild, hb⟩ := Option.bind_eq_some_iff.mp h
            exact ⟨child, List.mem_of_getElem? hchild, ih.mpr ⟨path, hb⟩⟩

theorem any_banks {d : Nat} {n : DRAMNode Cmd St Ext d} (test : BankRows St → Bool) :
    ((n.banks d).any fun b => test b.rows) = true ↔
      ∃ path r, n.rowsAt d path = some r ∧ test r = true := by
  rw [List.any_eq_true]
  constructor
  · rintro ⟨b, hb, htest⟩
    obtain ⟨path, hpath⟩ := mem_banks.mp hb
    exact ⟨path, b.rows, by rw [rowsAt, hpath]; rfl, htest⟩
  · rintro ⟨path, r, hr, htest⟩
    obtain ⟨b, hb, rfl⟩ := Option.map_eq_some_iff.mp hr
    exact ⟨b, mem_banks.mpr ⟨path, hb⟩, htest⟩

theorem rowsAt_mapBanks {f : NodeBase Cmd St Ext → NodeBase Cmd St Ext}
    {g : BankRows St → BankRows St} (hf : ∀ b, (f b).rows = g b.rows) {d : Nat}
    (n : DRAMNode Cmd St Ext d) (path : List Nat) :
    (n.mapBanks f d).rowsAt d path = (n.rowsAt d path).map g := by
  induction d generalizing path with
  | zero =>
      rw [rowsAt, rowsAt, bankAt, bankAt]
      split
      · exact congrArg some (hf n.base)
      · rfl
  | succ d ih =>
      cases path with
      | nil => rfl
      | cons i path =>
          rw [rowsAt_cons, rowsAt_cons, mapBanks, children_node, List.getElem?_map]
          cases n.children[i]? with
          | none => rfl
          | some child => exact ih child path

end DRAMNode

namespace DRAMSpec

variable [DecidableEq Cmd] (spec : DRAMSpec Cmd St Ext)

/-! ## The updates of a command -/

theorem rowsAt_updateTiming (cmd : Cmd) (addrVec : AddrVec) (clk : Int) {d : Nat}
    (n : DRAMNode Cmd St Ext d) (path : List Nat) :
    (spec.updateTiming cmd addrVec clk d n).rowsAt d path = n.rowsAt d path := by
  induction d generalizing path with
  | zero =>
      rw [updateTiming]
      split <;> cases path <;> rfl
  | succ d ih =>
      cases path with
      | nil => rfl
      | cons i path =>
          rw [updateTiming]
          split
          · rfl
          · rw [DRAMNode.rowsAt_cons, DRAMNode.rowsAt_cons, DRAMNode.children_node,
              List.getElem?_map]
            cases n.children[i]? with
            | none => rfl
            | some child => exact ih child path

/-- What the action of a command at a depth does to the rows of the banks below. -/
abbrev RowAction (Cmd St : Type) := Nat → Cmd → AddrVec → BankRows St → BankRows St

/-- The actions of a model change rows by `f`. -/
def ActsBy (f : RowAction Cmd St) : Prop :=
  ∀ (d : Nat) (cmd : Cmd) (addrVec : AddrVec) (clk : Int) (n : DRAMNode Cmd St Ext d)
    (path : List Nat), (spec.runAction cmd addrVec clk n).rowsAt d path =
      (n.rowsAt d path).map (f d cmd addrVec)

/-- The row actions that `update_states` meets on the way to the bank at a path. -/
def touch (f : RowAction Cmd St) (cmd : Cmd) (addrVec : AddrVec) :
    Nat → List Nat → BankRows St → BankRows St
  | 0, _, r => f 0 cmd addrVec r
  | d + 1, [], r => f (d + 1) cmd addrVec r
  | d + 1, i :: path, r =>
      let r := f (d + 1) cmd addrVec r
      if spec.level (d + 1) = spec.commandScopes cmd ∨ addrVec.at (spec.level d) ≠ i then r
      else touch f cmd addrVec d path r

omit [DecidableEq Cmd] in
theorem touch_induct {f : RowAction Cmd St} {cmd : Cmd} {addrVec : AddrVec}
    {P : BankRows St → Prop} (hf : ∀ d r, P r → P (f d cmd addrVec r)) {d : Nat}
    {path : List Nat} {r : BankRows St} (h : P r) : P (spec.touch f cmd addrVec d path r) := by
  induction d generalizing path r with
  | zero => exact hf 0 r h
  | succ d ih =>
      cases path with
      | nil => exact hf (d + 1) r h
      | cons i path =>
          rw [touch]
          split
          · exact hf (d + 1) r h
          · exact ih (hf (d + 1) r h)

omit [DecidableEq Cmd] in
theorem rowsAt_updateStates {f : RowAction Cmd St} (hf : spec.ActsBy f) (cmd : Cmd)
    (addrVec : AddrVec) (clk : Int) {d : Nat} (n : DRAMNode Cmd St Ext d) (path : List Nat) :
    (spec.updateStates cmd addrVec clk d n).rowsAt d path =
      (n.rowsAt d path).map (spec.touch f cmd addrVec d path) := by
  induction d generalizing path with
  | zero => exact hf 0 cmd addrVec clk n path
  | succ d ih =>
      have hrun := hf (d + 1) cmd addrVec clk n path
      cases path with
      | nil => rfl
      | cons i path =>
          rw [updateStates]
          dsimp only
          by_cases hscope : spec.level (d + 1) = spec.commandScopes cmd
          · rw [if_pos hscope, hrun]
            simp only [touch, hscope, true_or, if_true]
          · rw [if_neg hscope]
            by_cases hwild : addrVec.at (spec.level d) < 0
            · have hne : addrVec.at (spec.level d) ≠ i := by omega
              rw [if_pos hwild, hrun]
              simp only [touch, hne, ne_eq, not_false_eq_true, or_true, if_true]
            · rw [if_neg hwild, DRAMNode.rowsAt_cons, DRAMNode.children_node,
                List.getElem?_modify]
              rw [DRAMNode.rowsAt_cons] at hrun
              by_cases hi : addrVec.at (spec.level d) = i
              · have hi' : (addrVec.at (spec.level d)).toNat = i := by omega
                rw [show (n.rowsAt (d + 1) (i :: path)).map
                    (spec.touch f cmd addrVec (d + 1) (i :: path)) =
                    ((n.rowsAt (d + 1) (i :: path)).map (f (d + 1) cmd addrVec)).map
                      (spec.touch f cmd addrVec d path) by
                  rw [Option.map_map]
                  refine congrArg (Option.map · _) (funext fun r => ?_)
                  simp [touch, hscope, hi]]
                rw [← hrun]
                cases (spec.runAction cmd addrVec clk n).children[i]? with
                | none => rfl
                | some child => simpa [hi'] using ih child path
              · have hi' : (addrVec.at (spec.level d)).toNat ≠ i := by omega
                rw [show (n.rowsAt (d + 1) (i :: path)).map
                    (spec.touch f cmd addrVec (d + 1) (i :: path)) =
                    (n.rowsAt (d + 1) (i :: path)).map (f (d + 1) cmd addrVec) by
                  refine congrArg (Option.map · _) (funext fun r => ?_)
                  simp [touch, hi]]
                rw [← hrun]
                cases (spec.runAction cmd addrVec clk n).children[i]? with
                | none => rfl
                | some child => simp [hi']

/-! ## The bank an address names -/

/-- The path that an address names below a node of depth `d`. -/
def pathOf (addrVec : AddrVec) : Nat → Option (List Nat)
  | 0 => some []
  | d + 1 =>
      if addrVec.at (spec.level d) < 0 then none
      else (pathOf addrVec d).map ((addrVec.at (spec.level d)).toNat :: ·)

omit [DecidableEq Cmd] in
theorem pathOf_getElem {a : AddrVec} {d : Nat} {path : List Nat}
    (h : spec.pathOf a d = some path) {k : Nat} (hk : k < d) :
    0 ≤ a.at (spec.level (d - 1 - k)) ∧
      path[k]? = some (a.at (spec.level (d - 1 - k))).toNat := by
  induction d generalizing path k with
  | zero => omega
  | succ d ih =>
      rw [pathOf] at h
      split at h
      · cases h
      · next hnamed =>
          obtain ⟨path, hpath, rfl⟩ := Option.map_eq_some_iff.mp h
          cases k with
          | zero => exact ⟨Int.not_lt.mp hnamed, rfl⟩
          | succ k =>
              rw [show d + 1 - 1 - (k + 1) = d - 1 - k by omega]
              exact ih hpath (Nat.lt_of_succ_lt_succ hk)

def addressed (addrVec : AddrVec) (d : Nat) (n : DRAMNode Cmd St Ext d) :
    Option (NodeBase Cmd St Ext) :=
  (spec.pathOf addrVec d).bind (n.bankAt d)

omit [DecidableEq Cmd] in
theorem addressed_succ (addrVec : AddrVec) (d : Nat) (n : DRAMNode Cmd St Ext (d + 1)) :
    spec.addressed addrVec (d + 1) n =
      if addrVec.at (spec.level d) < 0 then none
      else n.children[(addrVec.at (spec.level d)).toNat]?.bind (spec.addressed addrVec d) := by
  rw [addressed, pathOf]
  split
  · rfl
  · cases hchild : n.children[(addrVec.at (spec.level d)).toNat]? with
    | none => cases spec.pathOf addrVec d <;> simp [DRAMNode.bankAt, hchild]
    | some child => cases hpath : spec.pathOf addrVec d <;>
        simp [DRAMNode.bankAt, hchild, addressed, hpath]

omit [DecidableEq Cmd] in
/-- Where no prerequisite is registered above the banks, the one of the bank that is
addressed decides; without such a bank the command itself or the one of id `1` is
returned. -/
theorem getPreqCommand_bank {cmd : Cmd} {addrVec : AddrVec} {clk : Int} {d : Nat}
    (hnone : ∀ k, 0 < k → k ≤ d → spec.preqs k cmd = none) (up : List (NodeBase Cmd St Ext))
    (n : DRAMNode Cmd St Ext d) :
    (∃ b up', spec.addressed addrVec d n = some b ∧
      spec.getPreqCommand cmd addrVec clk d up n =
        (spec.ownPreq up' cmd addrVec clk (.bank b)).getD spec.commandOne) ∨
    (spec.addressed addrVec d n = none ∧
      (spec.getPreqCommand cmd addrVec clk d up n = cmd ∨
        spec.getPreqCommand cmd addrVec clk d up n = spec.commandOne)) := by
  induction d generalizing up with
  | zero => exact .inl ⟨n.base, up, rfl, rfl⟩
  | succ d ih =>
      have hown : spec.ownPreq up cmd addrVec clk n = none := by
        rw [ownPreq, hnone (d + 1) (by omega) (Nat.le_refl _)]
      rw [getPreqCommand, hown, addressed_succ]
      dsimp only
      by_cases hempty : n.children.isEmpty = true
      · rw [if_pos hempty, List.isEmpty_iff.mp hempty]
        exact .inr ⟨by simp, .inr rfl⟩
      · rw [if_neg hempty]
        by_cases hwild : addrVec.at (spec.level d) < 0
        · rw [if_pos hwild, if_pos hwild]
          exact .inr ⟨rfl, .inl rfl⟩
        · rw [if_neg hwild, if_neg hwild]
          cases n.children[(addrVec.at (spec.level d)).toNat]? with
          | none => exact .inr ⟨rfl, .inl rfl⟩
          | some child =>
              exact ih (fun k hpos hle => hnone k hpos (Nat.le_succ_of_le hle)) _ child

omit [DecidableEq Cmd] in
theorem getPreqCommand_child {cmd : Cmd} {addrVec : AddrVec} {clk : Int} {d : Nat}
    {up : List (NodeBase Cmd St Ext)} {n : DRAMNode Cmd St Ext (d + 1)}
    {child : DRAMNode Cmd St Ext d} (hnone : spec.preqs (d + 1) cmd = none)
    (hwild : ¬ addrVec.at (spec.level d) < 0)
    (hchild : n.children[(addrVec.at (spec.level d)).toNat]? = some child) :
    spec.getPreqCommand cmd addrVec clk (d + 1) up n =
      spec.getPreqCommand cmd addrVec clk d (n.base :: up) child := by
  have hown : spec.ownPreq up cmd addrVec clk n = none := by rw [ownPreq, hnone]
  have hempty : n.children.isEmpty = false := by
    cases hcs : n.children with
    | nil =>
        rw [hcs] at hchild
        cases hchild
    | cons _ _ => rfl
  rw [getPreqCommand, hown]
  dsimp only
  rw [hempty, if_neg Bool.false_ne_true, if_neg hwild, hchild]

omit [DecidableEq Cmd] in
theorem getPreqCommand_own {cmd a : Cmd} {addrVec : AddrVec} {clk : Int} {d : Nat}
    {up : List (NodeBase Cmd St Ext)} {n : DRAMNode Cmd St Ext d}
    (h : spec.ownPreq up cmd addrVec clk n = some a) :
    spec.getPreqCommand cmd addrVec clk d up n = a := by
  cases d with
  | zero => rw [getPreqCommand, h]; rfl
  | succ d => rw [getPreqCommand, h]

omit [DecidableEq Cmd] in
/-- What holds of a command, of the one of id `1` and of every registered answer holds of the
prerequisite. -/
theorem getPreqCommand_induct {cmd : Cmd} {addrVec : AddrVec} {clk : Int} {P : Cmd → Prop}
    (hcmd : P cmd) (hone : P spec.commandOne)
    (hown : ∀ k up (n : DRAMNode Cmd St Ext k) a, spec.ownPreq up cmd addrVec clk n = some a → P a)
    {d : Nat} (up : List (NodeBase Cmd St Ext)) (n : DRAMNode Cmd St Ext d) :
    P (spec.getPreqCommand cmd addrVec clk d up n) := by
  induction d generalizing up with
  | zero =>
      cases hanswer : spec.ownPreq up cmd addrVec clk n with
      | none => rwa [getPreqCommand, hanswer]
      | some a => exact spec.getPreqCommand_own hanswer ▸ hown 0 up n a hanswer
  | succ d ih =>
      cases hanswer : spec.ownPreq up cmd addrVec clk n with
      | some a => exact spec.getPreqCommand_own hanswer ▸ hown _ up n a hanswer
      | none =>
          rw [getPreqCommand, hanswer]
          dsimp only
          split
          · exact hone
          · split
            · exact hcmd
            · split
              · exact ih _ _
              · exact hcmd

/-! ## Addresses of one bank -/

/-- Two addresses that agree on the levels from the children of the root to the banks. -/
def SameBank (a a' : AddrVec) (d : Nat) : Prop :=
  ∀ k, k < d → a.at (spec.level k) = a'.at (spec.level k)

omit [DecidableEq Cmd] in
theorem SameBank.pathOf {a a' : AddrVec} {d : Nat} (h : spec.SameBank a a' d) :
    spec.pathOf a d = spec.pathOf a' d := by
  induction d with
  | zero => rfl
  | succ d ih =>
      rw [DRAMSpec.pathOf, DRAMSpec.pathOf, h d (Nat.lt_succ_self d),
        ih fun k hk => h k (Nat.lt_succ_of_lt hk)]

omit [DecidableEq Cmd] in
theorem SameBank.of_pathOf {a a' : AddrVec} {d : Nat} {path : List Nat}
    (h : spec.pathOf a d = some path) (h' : spec.pathOf a' d = some path) :
    spec.SameBank a a' d := by
  induction d generalizing path with
  | zero => exact fun k hk => absurd hk (Nat.not_lt_zero k)
  | succ d ih =>
      rw [DRAMSpec.pathOf] at h h'
      split at h
      · cases h
      · split at h'
        · cases h'
        · obtain ⟨rest, hrest, rfl⟩ := Option.map_eq_some_iff.mp h
          obtain ⟨rest', hrest', heq⟩ := Option.map_eq_some_iff.mp h'
          obtain ⟨hhead, rfl⟩ := List.cons.inj heq
          intro k hk
          rcases Nat.lt_succ_iff_lt_or_eq.mp hk with hk | rfl
          · exact ih hrest hrest' k hk
          · omega

omit [DecidableEq Cmd] in
theorem SameBank.checkReady {a a' : AddrVec} {d : Nat} (h : spec.SameBank a a' d) (cmd : Cmd)
    (clk : Int) (n : DRAMNode Cmd St Ext d) :
    spec.checkReady cmd a clk d n = spec.checkReady cmd a' clk d n := by
  induction d with
  | zero => rfl
  | succ d ih =>
      have hchild := fun child => ih (fun k hk => h k (Nat.lt_succ_of_lt hk)) child
      simp only [DRAMSpec.checkReady, h d (Nat.lt_succ_self d), hchild]

/-! ## Fresh banks -/

omit [DecidableEq Cmd] in
theorem rowsAt_newNode (count : Nat → Int) {d : Nat} (id : Int) {path : List Nat}
    {r : BankRows St} (h : (spec.newNode count d id).rowsAt d path = some r) :
    r = (spec.initStates (spec.level 0), []) := by
  induction d generalizing id path with
  | zero =>
      obtain ⟨b, hb, rfl⟩ := Option.map_eq_some_iff.mp h
      rw [DRAMNode.bankAt] at hb
      split at hb
      · rw [← Option.some.inj hb]
        rfl
      · cases hb
  | succ d ih =>
      cases path with
      | nil => cases h
      | cons i path =>
          rw [DRAMNode.rowsAt_cons, newNode, DRAMNode.children_node, List.getElem?_map] at h
          obtain ⟨child, hchild, hr⟩ := Option.bind_eq_some_iff.mp h
          obtain ⟨j, -, rfl⟩ := Option.map_eq_some_iff.mp hchild
          exact ih j hr

end DRAMSpec

/-! ## The banks of a device -/

namespace DRAMModel

variable [DecidableEq Cmd] (model : DRAMModel Cmd St Ext)

def rowsAt (dev : model.Dev) (channel : Nat) (path : List Nat) : Option (BankRows St) :=
  dev.channels[channel]?.bind fun c => c.rowsAt model.bankLevel path

def addressed (dev : model.Dev) (addrVec : AddrVec) : Option (NodeBase Cmd St Ext) :=
  (model.channelOf dev addrVec).bind (model.toDRAMSpec.addressed addrVec model.bankLevel)

def Names (addrVec : AddrVec) (channel : Nat) (path : List Nat) : Prop :=
  addrVec.at 0 = channel ∧ model.pathOf addrVec model.bankLevel = some path

/-- Whether a command is issued to all banks below a node that holds the bank at a path: the
address names that node down to the scope of the command. -/
def InScope (cmd : Cmd) (addrVec : AddrVec) (channel : Nat) (path : List Nat) : Prop :=
  addrVec.at 0 = channel ∧
    ∀ level, level < model.commandScopes cmd → path[level]?.any fun i => addrVec.at (level + 1) = i

omit [DecidableEq Cmd] in
theorem Names.at_succ {model : DRAMModel Cmd St Ext} {a : AddrVec} {channel : Nat} {path : List Nat}
    (h : model.Names a channel path) {k : Nat} (hk : k < model.bankLevel) :
    0 ≤ a.at (k + 1) ∧ path[k]? = some (a.at (k + 1)).toNat := by
  have hget := model.pathOf_getElem h.2 hk
  rwa [show model.level (model.bankLevel - 1 - k) = k + 1 by
    unfold DRAMSpec.level
    omega] at hget

omit [DecidableEq Cmd] in
theorem channelOf_eq {dev : model.Dev} {addrVec : AddrVec} {channel : Nat}
    (h : addrVec.at 0 = channel) : model.channelOf dev addrVec = dev.channels[channel]? := by
  rw [channelOf, if_neg (by omega), h, Int.toNat_natCast]

omit [DecidableEq Cmd] in
theorem exists_channel {dev : model.Dev} {addrVec : AddrVec}
    {c : DRAMNode Cmd St Ext model.bankLevel} (hc : model.channelOf dev addrVec = some c) :
    ∃ channel : Nat, addrVec.at 0 = channel := by
  unfold channelOf at hc
  split at hc
  · cases hc
  · exact ⟨(addrVec.at 0).toNat, by omega⟩

omit [DecidableEq Cmd] in
theorem rowsAt_addressed {dev : model.Dev} {addrVec : AddrVec} {channel : Nat} {path : List Nat}
    (h : model.Names addrVec channel path) :
    model.rowsAt dev channel path = (model.addressed dev addrVec).map NodeBase.rows := by
  rw [addressed, model.channelOf_eq h.1, rowsAt]
  cases dev.channels[channel]? with
  | none => rfl
  | some c => rw [Option.bind_some, Option.bind_some, DRAMSpec.addressed, h.2]; rfl

omit [DecidableEq Cmd] in
theorem exists_names {dev : model.Dev} {addrVec : AddrVec} {b : NodeBase Cmd St Ext}
    (hb : model.addressed dev addrVec = some b) : ∃ channel path,
      model.Names addrVec channel path ∧ model.rowsAt dev channel path = some b.rows := by
  obtain ⟨c, hc, hbank⟩ := Option.bind_eq_some_iff.mp hb
  obtain ⟨path, hpath, -⟩ := Option.bind_eq_some_iff.mp hbank
  obtain ⟨channel, hchannel⟩ := model.exists_channel hc
  have hnames : model.Names addrVec channel path := ⟨hchannel, hpath⟩
  refine ⟨channel, path, hnames, ?_⟩
  rw [model.rowsAt_addressed hnames, hb]
  rfl

omit [DecidableEq Cmd] in
theorem length_of_rowsAt {dev : model.Dev} {channel : Nat} {path : List Nat} {r : BankRows St}
    (h : model.rowsAt dev channel path = some r) : path.length = model.bankLevel := by
  obtain ⟨c, -, hr⟩ := Option.bind_eq_some_iff.mp h
  obtain ⟨b, hb, -⟩ := Option.map_eq_some_iff.mp hr
  exact DRAMNode.length_of_bankAt hb

omit [DecidableEq Cmd] in
theorem getPreqCommand_bank {cmd : Cmd} (hnone : ∀ k, 0 < k → model.preqs k cmd = none)
    (dev : model.Dev) (addrVec : AddrVec) :
    (∃ b up, model.addressed dev addrVec = some b ∧ model.getPreqCommand dev cmd addrVec =
      (model.ownPreq up cmd addrVec dev.clk (.bank b)).getD model.commandOne) ∨
    (model.addressed dev addrVec = none ∧ (model.getPreqCommand dev cmd addrVec = cmd ∨
      model.getPreqCommand dev cmd addrVec = model.commandOne)) := by
  rw [addressed, getPreqCommand]
  cases model.channelOf dev addrVec with
  | none => exact .inr ⟨rfl, .inl rfl⟩
  | some c => exact model.toDRAMSpec.getPreqCommand_bank (fun k hpos _ => hnone k hpos) [] c

omit [DecidableEq Cmd] in
theorem getPreqCommand_induct {cmd : Cmd} {addrVec : AddrVec} {dev : model.Dev} {P : Cmd → Prop}
    (hcmd : P cmd) (hone : P model.commandOne)
    (hown : ∀ k up (n : DRAMNode Cmd St Ext k) a,
      model.ownPreq up cmd addrVec dev.clk n = some a → P a) :
    P (model.getPreqCommand dev cmd addrVec) := by
  unfold getPreqCommand
  split
  · exact model.toDRAMSpec.getPreqCommand_induct hcmd hone hown [] _
  · exact hcmd

theorem rowsAt_issueCommand {f : DRAMSpec.RowAction Cmd St} (hf : model.ActsBy f)
    (dev : model.Dev) (cmd : Cmd) (addrVec : AddrVec) (channel : Nat) (path : List Nat) :
    model.rowsAt (model.issueCommand dev cmd addrVec) channel path =
      (model.rowsAt dev channel path).map fun r =>
        if addrVec.at 0 = channel then model.touch f cmd addrVec model.bankLevel path r else r := by
  unfold issueCommand rowsAt
  split
  · next hwild =>
      have hne : addrVec.at 0 ≠ channel := by omega
      simp [hne]
  · next hwild =>
      rw [List.getElem?_modify]
      cases hc : dev.channels[channel]? with
      | none => rfl
      | some c =>
          by_cases heq : addrVec.at 0 = channel
          · have heq' : (addrVec.at 0).toNat = channel := by omega
            simp only [heq', if_true, Option.map_eq_map, Option.map_some, Option.bind_some]
            rw [model.rowsAt_updateStates hf, model.rowsAt_updateTiming]
            simp only [heq, if_true]
          · have heq' : (addrVec.at 0).toNat ≠ channel := by omega
            simp [heq', heq]

omit [DecidableEq Cmd] in
theorem rowsAt_createNodes {count : Nat → Int} {channel : Nat} {path : List Nat}
    {r : BankRows St} (h : model.rowsAt (model.createNodes count) channel path = some r) :
    r = (model.initStates (model.level 0), []) := by
  obtain ⟨c, hc, hr⟩ := Option.bind_eq_some_iff.mp h
  rw [createNodes, List.getElem?_map] at hc
  obtain ⟨j, -, rfl⟩ := Option.map_eq_some_iff.mp hc
  exact model.rowsAt_newNode count j hr

end DRAMModel

end AimSimulator.Dram
