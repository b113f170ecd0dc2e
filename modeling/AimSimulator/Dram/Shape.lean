import AimSimulator.Dram.BankRows
import AimSimulator.Dram.Timing
/-!
# The shape of a device

A device that agrees with a history has the banks of its organisation and no others, and
the walk for a prerequisite ends at a registered one or returns the command itself.
-/

namespace AimSimulator.Dram

variable {Cmd St Ext : Type} [DecidableEq Cmd]

namespace DRAMSpec

variable (spec : DRAMSpec Cmd St Ext) {count : Nat → Int}

omit [DecidableEq Cmd] in
/-- The paths of the banks below a node of depth `d`. -/
def paths (count : Nat → Int) : Nat → List (List Nat)
  | 0 => [[]]
  | d + 1 =>
      (List.range (count (spec.level d)).toNat).flatMap fun i =>
        (paths count d).map (i :: ·)

omit [DecidableEq Cmd] in
theorem length_paths_succ (d : Nat) : (spec.paths count (d + 1)).length =
    (count (spec.level d)).toNat * (spec.paths count d).length := by
  rw [paths, List.length_flatMap]
  simp [List.map_const']

theorem mem_paths {d : Nat} {n : DRAMNode Cmd St Ext d} {history : List (Issue Cmd)}
    (hn : spec.NodeTiming count d n history) {path : List Nat} {b : NodeBase Cmd St Ext}
    (hb : n.bankAt d path = some b) : path ∈ spec.paths count d := by
  induction d generalizing path history with
  | zero =>
      rw [DRAMNode.bankAt] at hb
      split at hb
      · next hnil => exact List.mem_singleton.mpr hnil
      · cases hb
  | succ d ih =>
      obtain ⟨-, hlength, hchild⟩ := hn
      cases path with
      | nil => cases hb
      | cons i path =>
          obtain ⟨child, hget, hb⟩ := Option.bind_eq_some_iff.mp hb
          have hi := (List.getElem?_eq_some_iff.mp hget).1
          rw [hlength] at hi
          rw [paths, List.mem_flatMap]
          exact ⟨i, List.mem_range.mpr hi,
            List.mem_map_of_mem (ih (hchild i child hget).2 hb)⟩

omit [DecidableEq Cmd] in
theorem mem_paths_cons {d i : Nat} {path : List Nat} : i :: path ∈ spec.paths count (d + 1) ↔
    i < (count (spec.level d)).toNat ∧ path ∈ spec.paths count d := by
  simp [paths, List.mem_flatMap]

theorem exists_bankAt {d : Nat} {n : DRAMNode Cmd St Ext d} {history : List (Issue Cmd)}
    (hn : spec.NodeTiming count d n history) {path : List Nat}
    (hpath : path ∈ spec.paths count d) : ∃ b, n.bankAt d path = some b := by
  induction d generalizing path history with
  | zero => exact ⟨n.base, if_pos (List.mem_singleton.mp hpath)⟩
  | succ d ih =>
      obtain ⟨-, hlength, hchild⟩ := hn
      cases path with
      | nil => simp [paths] at hpath
      | cons i path =>
          obtain ⟨hi, hpath⟩ := spec.mem_paths_cons.mp hpath
          obtain ⟨child, hget⟩ : ∃ child, n.children[i]? = some child :=
            ⟨_, List.getElem?_eq_getElem (by omega)⟩
          obtain ⟨b, hb⟩ := ih (hchild i child hget).2 hpath
          exact ⟨b, by rw [DRAMNode.bankAt, hget]; exact hb⟩

theorem children_isEmpty {d : Nat} {n : DRAMNode Cmd St Ext (d + 1)} {history : List (Issue Cmd)}
    (hn : spec.NodeTiming count (d + 1) n history) (hpos : 0 < count (spec.level d)) :
    n.children.isEmpty = false := by
  obtain ⟨-, hlength, -⟩ := hn
  rw [List.isEmpty_eq_false_iff]
  exact List.ne_nil_of_length_pos (by omega)

/-- Where prerequisites are registered at the banks only, the bank that is addressed decides,
and without such a bank the command itself is returned. -/
theorem getPreqCommand_shaped {cmd : Cmd} {addrVec : AddrVec} {clk : Int} {d : Nat}
    (hnone : ∀ k, 0 < k → k ≤ d → spec.preqs k cmd = none)
    (hpos : ∀ k, k < d → 0 < count (spec.level k)) (up : List (NodeBase Cmd St Ext))
    {n : DRAMNode Cmd St Ext d} {history : List (Issue Cmd)}
    (hn : spec.NodeTiming count d n history) :
    (∃ b up', spec.addressed addrVec d n = some b ∧
      spec.getPreqCommand cmd addrVec clk d up n =
        (spec.ownPreq up' cmd addrVec clk (.bank b)).getD spec.commandOne) ∨
    (spec.addressed addrVec d n = none ∧ spec.getPreqCommand cmd addrVec clk d up n = cmd) := by
  induction d generalizing up history with
  | zero => exact .inl ⟨n.base, up, rfl, rfl⟩
  | succ d ih =>
      have hown : spec.ownPreq up cmd addrVec clk n = none := by
        rw [ownPreq, hnone (d + 1) (Nat.succ_pos d) (Nat.le_refl _)]
      rw [getPreqCommand, hown, addressed_succ]
      dsimp only
      rw [spec.children_isEmpty hn (hpos d (Nat.lt_succ_self d)), if_neg Bool.false_ne_true]
      by_cases hwild : addrVec.at (spec.level d) < 0
      · rw [if_pos hwild, if_pos hwild]
        exact .inr ⟨rfl, rfl⟩
      · rw [if_neg hwild, if_neg hwild]
        cases hchild : n.children[(addrVec.at (spec.level d)).toNat]? with
        | none => exact .inr ⟨rfl, rfl⟩
        | some child =>
            exact ih (fun k hk hle => hnone k hk (Nat.le_succ_of_le hle))
              (fun k hk => hpos k (Nat.lt_succ_of_lt hk)) _ (hn.2.2 _ child hchild).2

/-- Where some depth always has a prerequisite, the walk returns the command itself or what
a registered prerequisite answers. -/
theorem getPreqCommand_answer {cmd : Cmd} {addrVec : AddrVec} {clk : Int} {P : Cmd → Prop}
    (hcmd : P cmd)
    (hown : ∀ k up (n : DRAMNode Cmd St Ext k) a, spec.ownPreq up cmd addrVec clk n = some a → P a)
    {stop : Nat} (hstop : ∀ up (n : DRAMNode Cmd St Ext stop),
      spec.ownPreq up cmd addrVec clk n ≠ none) {d : Nat} (hd : stop ≤ d)
    (hpos : ∀ k, k < d → 0 < count (spec.level k)) (up : List (NodeBase Cmd St Ext))
    {n : DRAMNode Cmd St Ext d} {history : List (Issue Cmd)}
    (hn : spec.NodeTiming count d n history) :
    P (spec.getPreqCommand cmd addrVec clk d up n) := by
  induction d generalizing up history with
  | zero =>
      obtain rfl := Nat.le_zero.mp hd
      obtain ⟨a, ha⟩ := Option.ne_none_iff_exists'.mp (hstop up n)
      rw [spec.getPreqCommand_own ha]
      exact hown 0 up n a ha
  | succ d ih =>
      cases hanswer : spec.ownPreq up cmd addrVec clk n with
      | some a =>
          rw [spec.getPreqCommand_own hanswer]
          exact hown _ up n a hanswer
      | none =>
          have hlt : stop ≠ d + 1 := by
            rintro rfl
            exact hstop up n hanswer
          rw [getPreqCommand, hanswer]
          dsimp only
          rw [spec.children_isEmpty hn (hpos d (Nat.lt_succ_self d)), if_neg Bool.false_ne_true]
          split
          · exact hcmd
          · cases hchild : n.children[(addrVec.at (spec.level d)).toNat]? with
            | none => exact hcmd
            | some child =>
                exact ih (by omega) (fun k hk => hpos k (Nat.lt_succ_of_lt hk)) _
                  (hn.2.2 _ child hchild).2

end DRAMSpec

namespace DRAMModel

variable {model : DRAMModel Cmd St Ext} {count : Nat → Int} {s : IssueRun model.Dev Cmd}

theorem DeviceTiming.channelOf (hs : model.DeviceTiming count s) {addrVec : AddrVec}
    {c : DRAMNode Cmd St Ext model.bankLevel} (hc : model.channelOf s.dev addrVec = some c) :
    ∃ history, model.NodeTiming count model.bankLevel c history := by
  unfold DRAMModel.channelOf at hc
  split at hc
  · cases hc
  · exact ⟨_, (hs.channels _ c hc).2⟩

theorem DeviceTiming.named (hs : model.DeviceTiming count s) {addrVec : AddrVec}
    {b : NodeBase Cmd St Ext} (hb : model.addressed s.dev addrVec = some b) :
    ∃ path, model.pathOf addrVec model.bankLevel = some path ∧
      path ∈ model.paths count model.bankLevel := by
  obtain ⟨c, hc, hb⟩ := Option.bind_eq_some_iff.mp hb
  obtain ⟨path, hpath, hbank⟩ := Option.bind_eq_some_iff.mp hb
  obtain ⟨history, hn⟩ := hs.channelOf hc
  exact ⟨path, hpath, model.mem_paths hn hbank⟩

theorem DeviceTiming.rowsAt_isSome (hs : model.DeviceTiming count s) {ch : Nat} {path : List Nat} :
    (∃ r, model.rowsAt s.dev ch path = some r) ↔
      ch < s.dev.channels.length ∧ path ∈ model.paths count model.bankLevel := by
  constructor
  · rintro ⟨r, hr⟩
    obtain ⟨c, hc, hr⟩ := Option.bind_eq_some_iff.mp hr
    obtain ⟨b, hb, -⟩ := Option.map_eq_some_iff.mp hr
    exact ⟨(List.getElem?_eq_some_iff.mp hc).1, model.mem_paths (hs.channels ch c hc).2 hb⟩
  · rintro ⟨hch, hpath⟩
    obtain ⟨c, hc⟩ : ∃ c, s.dev.channels[ch]? = some c := ⟨_, List.getElem?_eq_getElem hch⟩
    obtain ⟨b, hb⟩ := model.exists_bankAt (hs.channels ch c hc).2 hpath
    exact ⟨b.rows, by rw [rowsAt, hc, Option.bind_some, DRAMNode.rowsAt, hb]; rfl⟩

theorem DeviceTiming.tick (hs : model.DeviceTiming count s) :
    model.DeviceTiming count ⟨model.tick s.dev, s.history⟩ :=
  ⟨Int.le_trans hs.clk_nonneg (Int.le.intro 1 rfl), hs.past_nonneg, hs.channels⟩

def SameBankAddr (model : DRAMModel Cmd St Ext) (a a' : AddrVec) : Prop :=
  a.at 0 = a'.at 0 ∧ model.SameBank a a' model.bankLevel

omit [DecidableEq Cmd] in
theorem SameBankAddr.of_pathOf {a a' : AddrVec} (h : a.at 0 = a'.at 0) {path : List Nat}
    (hpath : model.pathOf a model.bankLevel = some path)
    (hpath' : model.pathOf a' model.bankLevel = some path) : model.SameBankAddr a a' :=
  ⟨h, DRAMSpec.SameBank.of_pathOf model.toDRAMSpec hpath hpath'⟩

omit [DecidableEq Cmd] in
theorem SameBankAddr.channelOf {a a' : AddrVec} (h : model.SameBankAddr a a') (dev : model.Dev) :
    model.channelOf dev a = model.channelOf dev a' := by
  rw [DRAMModel.channelOf, DRAMModel.channelOf, h.1]

omit [DecidableEq Cmd] in
theorem SameBankAddr.addressed {a a' : AddrVec} (h : model.SameBankAddr a a') (dev : model.Dev) :
    model.addressed dev a = model.addressed dev a' := by
  unfold DRAMModel.addressed DRAMSpec.addressed
  rw [h.channelOf, h.2.pathOf]

omit [DecidableEq Cmd] in
theorem SameBankAddr.checkReady {a a' : AddrVec} (h : model.SameBankAddr a a') (dev : model.Dev)
    (cmd : Cmd) : model.checkReady dev cmd a = model.checkReady dev cmd a' := by
  unfold DRAMModel.checkReady
  rw [h.channelOf]
  cases model.channelOf dev a' with
  | none => rfl
  | some c => exact DRAMSpec.SameBank.checkReady model.toDRAMSpec h.2 cmd dev.clk c

end DRAMModel

end AimSimulator.Dram
