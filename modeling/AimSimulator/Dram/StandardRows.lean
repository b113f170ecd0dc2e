import Mathlib.Logic.Basic
import AimSimulator.Dram.BankRows
import AimSimulator.Dram.Shape
import AimSimulator.Dram.Standard
/-!
# The rows of the standard devices

The bank protocol in terms of the commands alone: which row a bank holds open after a history,
and which commands may follow.  The banks of a device hold what its history says, and the
command that a request is scheduled with may follow.
-/

namespace AimSimulator.Dram

theorem DRAMSpec.pathOf_of_agrees {Cmd St Ext : Type} (spec : DRAMSpec Cmd St Ext)
    {addrVec : AddrVec} {path : List Nat}
    (h : ∀ k : Nat, ∀ i ∈ path[k]?, addrVec.at (spec.level (path.length - 1 - k)) = (i : Int)) :
    spec.pathOf addrVec path.length = some path := by
  induction path with
  | nil => rfl
  | cons i path ih =>
      have hi : addrVec.at (spec.level path.length) = i := h 0 i rfl
      have hrest : spec.pathOf addrVec path.length = some path := by
        refine ih fun k j hj => ?_
        have hk := h (k + 1) j hj
        rwa [List.length_cons, show path.length + 1 - 1 - (k + 1) = path.length - 1 - k by omega]
          at hk
      rw [List.length_cons, DRAMSpec.pathOf, hi, if_neg (by omega), hrest]
      rfl

section Touch

variable {Cmd St Ext : Type} (spec : DRAMSpec Cmd St Ext) {f : DRAMSpec.RowAction Cmd St}
  {cmd : Cmd} {addrVec : AddrVec} {t : Nat}

theorem DRAMSpec.touch_below (hother : ∀ d, d ≠ t → f d cmd addrVec = id) {d : Nat} (hd : d < t)
    (path : List Nat) (r : BankRows St) : spec.touch f cmd addrVec d path r = r := by
  induction d generalizing path with
  | zero => exact congrFun (hother 0 (by omega)) r
  | succ d ih =>
      have hid : f (d + 1) cmd addrVec r = r := congrFun (hother (d + 1) (by omega)) r
      cases path with
      | nil => exact hid
      | cons i path =>
          rw [DRAMSpec.touch, hid]
          split
          · rfl
          · exact ih (by omega) path

/-- A command that acts at one depth, no higher than its scope, acts on the banks whose path its
address agrees with down to that depth. -/
theorem DRAMSpec.touch_single (hother : ∀ d, d ≠ t → f d cmd addrVec = id) {d : Nat}
    (hscope : ∀ k, t < k → k ≤ d → spec.level k ≠ spec.commandScopes cmd) (hd : t ≤ d)
    {path : List Nat} (hlength : path.length = d) (r : BankRows St) :
    spec.touch f cmd addrVec d path r =
      if ∀ k < d - t, ∀ i ∈ path[k]?, addrVec.at (spec.level (d - 1 - k)) = (i : Int) then
        f t cmd addrVec r
      else r := by
  induction d generalizing path with
  | zero =>
      obtain rfl : t = 0 := by omega
      rw [if_pos fun k hk => absurd hk (by omega)]
      rfl
  | succ d ih =>
      obtain ⟨i, path, rfl⟩ := List.exists_cons_of_length_eq_add_one hlength
      have hlength : path.length = d := Nat.succ.inj hlength
      rw [DRAMSpec.touch]
      by_cases hdepth : t = d + 1
      · rw [if_pos fun k hk => absurd hk (by omega), hdepth]
        split
        · rfl
        · exact spec.touch_below hother (by omega) path _
      · rw [show f (d + 1) cmd addrVec r = r from congrFun (hother (d + 1) (by omega)) r]
        by_cases hi : addrVec.at (spec.level d) = i
        · rw [if_neg (not_or.mpr ⟨hscope (d + 1) (by omega) (Nat.le_refl _), not_not_intro hi⟩),
            ih (fun k hk hkd => hscope k hk (Nat.le_succ_of_le hkd)) (by omega) hlength]
          refine if_congr ?_ rfl rfl
          constructor
          · intro h k hk j hj
            cases k with
            | zero =>
                obtain rfl := Option.some.inj hj
                exact hi
            | succ k =>
                rw [show d + 1 - 1 - (k + 1) = d - 1 - k by omega]
                exact h k (by omega) j hj
          · intro h k hk j hj
            have hk' := h (k + 1) (by omega) j hj
            rwa [show d + 1 - 1 - (k + 1) = d - 1 - k by omega] at hk'
        · rw [if_pos (.inr hi), if_neg fun h => hi (h 0 (by omega) i rfl)]

end Touch

namespace Standard

/-! ## The protocol -/

section

variable (impl : Impl)

/-- Whether a command is issued to the bank at a path: its address agrees with the path down to
the scope of the command. -/
def Reaches (cmd : Cmd) (addrVec : AddrVec) (ch : Nat) (path : List Nat) : Prop :=
  addrVec.at 0 = ch ∧
    ∀ level < commandScopes impl cmd, ∀ i ∈ path[level]?, addrVec.at (level + 1) = (i : Int)

instance (cmd : Cmd) (addrVec : AddrVec) (ch : Nat) (path : List Nat) :
    Decidable (Reaches impl cmd addrVec ch path) :=
  inferInstanceAs (Decidable (_ ∧ _))

abbrev row : Nat := bank impl + 1

def HasBank (count : Nat → Int) (path : List Nat) : Prop :=
  path.length = bank impl ∧ ∀ level : Nat, ∀ i ∈ path[level]?, (i : Int) < count (level + 1)

def openRow (ch : Nat) (path : List Nat) : List (Issue Cmd) → Option Int
  | [] => none
  | e :: earlier =>
      if Reaches impl e.cmd e.addrVec ch path then
        match e.cmd with
        | .ACT => some (e.addrVec.at (row impl))
        | .PRE | .PREA | .RDA | .WRA => none
        | _ => openRow ch path earlier
      else openRow ch path earlier

end

def Needs (cmd : Cmd) (x : Int) (o : Option Int) : Prop :=
  match cmd with
  | .ACT | .REFab | .VRR | .REFsb => o = none
  | .RD | .WR | .RDA | .WRA => o = some x
  | .PRE | .PREA | .RFMab | .RFMsb => True

/-- The state and the row map of a bank that holds a row open or none. -/
def rowsOf : Option Int → BankRows St
  | none => (.Closed, [])
  | some x => (.Opened, [(x, .Opened)])

def IsFinal (impl : Impl) (cmd : Cmd) : Prop := ∃ type, requestTranslations impl type = some cmd

variable {impl : Impl} {aim : AimLookups} {count : Nat → Int} {V : Timing → Int}

theorem IsFinal.cases {cmd : Cmd} (h : IsFinal impl cmd) :
    cmd = .RD ∨ cmd = .WR ∨ cmd = .REFab ∨ cmd = .VRR ∨ cmd = .REFsb ∨ cmd = .RFMab ∨
      cmd = .RFMsb := by
  obtain ⟨type, h⟩ := h
  revert h
  cases impl <;> cases type <;> rintro ⟨⟩ <;> decide

theorem HasBank.mem_paths {path : List Nat} (h : HasBank impl count path) :
    path ∈ (model impl aim count V).paths count (model impl aim count V).bankLevel := by
  have hpaths : ∀ path : List Nat, path.length ≤ bank impl →
      (∀ k : Nat, ∀ i ∈ path[k]?, (i : Int) < count (bank impl - path.length + k + 1)) →
        path ∈ (model impl aim count V).paths count path.length := by
    intro path
    induction path with
    | nil => exact fun _ _ => List.mem_singleton.mpr rfl
    | cons i path ih =>
        intro hle hlt
        have hlevel : (model impl aim count V).level path.length =
            bank impl - (i :: path).length + 0 + 1 := by
          show bank impl - path.length = _
          rw [List.length_cons] at hle ⊢
          omega
        refine (DRAMSpec.mem_paths_cons _).mpr ⟨?_, ih (Nat.le_of_succ_le hle) fun k j hj => ?_⟩
        · rw [hlevel]
          have hi := hlt 0 i rfl
          omega
        · have hk := hlt (k + 1) j hj
          rw [List.length_cons] at hle hk
          rwa [show bank impl - (path.length + 1) + (k + 1) + 1 =
            bank impl - path.length + k + 1 by omega] at hk
  have hmem := hpaths path (Nat.le_of_eq h.1) fun k i hi => by
    rw [h.1, Nat.sub_self, Nat.zero_add]
    exact h.2 k i hi
  rw [h.1] at hmem
  exact hmem

theorem Reaches.names {cmd : Cmd} {addrVec : AddrVec} {ch : Nat} {path : List Nat}
    (h : Reaches impl cmd addrVec ch path) (hscope : bank impl ≤ commandScopes impl cmd)
    (hlength : path.length = bank impl) : (model impl aim count V).Names addrVec ch path := by
  refine ⟨h.1, ?_⟩
  have hpath : (model impl aim count V).pathOf addrVec path.length = some path := by
    refine DRAMSpec.pathOf_of_agrees _ fun k i hi => ?_
    have hk := (List.getElem?_eq_some_iff.mp hi).1
    have hlevel : (model impl aim count V).level (path.length - 1 - k) = k + 1 := by
      show bank impl - (path.length - 1 - k) = k + 1
      omega
    rw [hlevel]
    exact h.2 k (by omega) i hi
  rw [hlength] at hpath
  exact hpath

/-! ## What a request is scheduled with -/

/-- A command may be issued to each bank of a device that it reaches. -/
def FindsRows (dev : (model impl aim count V).Dev) (cmd : Cmd) (addrVec : AddrVec) : Prop :=
  ∀ ch path o, Reaches impl cmd addrVec ch path →
    (model impl aim count V).rowsAt dev ch path = some (rowsOf o) →
      Needs cmd (addrVec.at (row impl)) o

theorem rowsOf_closed {o : Option Int} (h : (rowsOf o).1 = .Closed) : o = none := by
  cases o with
  | none => rfl
  | some x => cases h

section

variable {dev : (model impl aim count V).Dev} {addrVec : AddrVec}

theorem FindsRows.of_free {cmd : Cmd} (hneeds : ∀ x o, Needs cmd x o) :
    FindsRows dev cmd addrVec := fun _ _ o _ _ => hneeds _ o

/-- A command with a prerequisite at the banks only: its answer at the bank that is addressed,
and without such a bank the command, which reaches none, or a precharge. -/
theorem bankPreq_finds {cmd : Cmd} {preq : PreqFunc Cmd St Unit 0}
    (hbank : preqs impl 0 cmd = some preq) (hnone : ∀ k, 0 < k → preqs impl k cmd = none)
    (hscope : bank impl ≤ commandScopes impl cmd)
    (hanswer : ∀ up (b : NodeBase Cmd St Unit), ∃ a, preq up (.bank b) addrVec dev.clk = some a ∧
      (a = .PRE ∨ (a = cmd ∨ a = .ACT) ∧
        ∀ o, b.rows = rowsOf o → Needs a (addrVec.at (row impl)) o)) :
    FindsRows dev ((model impl aim count V).getPreqCommand dev cmd addrVec) addrVec := by
  have haddressed : ∀ {a ch path r}, bank impl ≤ commandScopes impl a →
      Reaches impl a addrVec ch path → (model impl aim count V).rowsAt dev ch path = some r →
        ((model impl aim count V).addressed dev addrVec).map NodeBase.rows = some r := by
    intro a ch path r hscope hreach hr
    have hlength := (model impl aim count V).length_of_rowsAt hr
    rw [← (model impl aim count V).rowsAt_addressed (hreach.names hscope hlength)]
    exact hr
  rcases (model impl aim count V).getPreqCommand_bank hnone dev addrVec with
    ⟨b, up, hb, heq⟩ | ⟨hnobank, heq | heq⟩
  · rw [heq, DRAMSpec.ownPreq, show (model impl aim count V).preqs 0 cmd = _ from hbank]
    obtain ⟨a, ha, hcases⟩ := hanswer up b
    dsimp only
    rw [ha]
    rcases hcases with rfl | ⟨hcmd, hneeds⟩
    · exact .of_free fun _ _ => trivial
    · intro ch path o hreach hr
      have hscope : bank impl ≤ commandScopes impl a := by
        rcases hcmd with rfl | rfl
        · exact hscope
        · exact Nat.le_succ (bank impl)
      have hrows := haddressed hscope hreach hr
      rw [hb] at hrows
      exact hneeds o (Option.some.inj hrows)
  · rw [heq]
    intro ch path o hreach hr
    have hrows := haddressed hscope hreach hr
    rw [hnobank] at hrows
    cases hrows
  · rw [heq]
    exact .of_free fun _ _ => trivial

/-- A read or a write gets its own command on an open row of its own, an activation on a closed
bank, and a precharge otherwise. -/
theorem requireRowOpen_finds {cmd : Cmd} (hcmd : cmd = .RD ∨ cmd = .WR) :
    FindsRows dev ((model impl aim count V).getPreqCommand dev cmd addrVec) addrVec := by
  have hanswer : ∀ up (b : NodeBase Cmd St Unit), ∃ a,
      Preq.Bank.RequireRowOpen (row impl) St.Closed .Opened Cmd.ACT .PRE cmd up (.bank b) addrVec
        dev.clk = some a ∧ (a = .PRE ∨ (a = cmd ∨ a = .ACT) ∧
          ∀ o, b.rows = rowsOf o → Needs a (addrVec.at (row impl)) o) := by
    intro up b
    unfold Preq.Bank.RequireRowOpen
    rw [DRAMNode.base_bank]
    split
    · next hclosed =>
        refine ⟨.ACT, rfl, .inr ⟨.inr rfl, fun o ho => rowsOf_closed ?_⟩⟩
        rw [← ho]
        exact hclosed
    · next hnotClosed =>
        split
        · split
          · next hrow =>
              refine ⟨cmd, rfl, .inr ⟨.inl rfl, fun o ho => ?_⟩⟩
              rw [← hasRow_rows, ho] at hrow
              have hopen : o = some (addrVec.at (row impl)) := by
                cases o with
                | none => simp [rowsOf, BankRows.hasRow] at hrow
                | some x => simpa [rowsOf, BankRows.hasRow] using hrow
              rcases hcmd with rfl | rfl <;> exact hopen
          · exact ⟨.PRE, rfl, .inl rfl⟩
        · next hnotOpened =>
            refine ⟨cmd, rfl, .inr ⟨.inl rfl, fun o ho => ?_⟩⟩
            have hstate : b.state = (rowsOf o).1 := congrArg Prod.fst ho
            cases o with
            | none => exact absurd hstate hnotClosed
            | some x => exact absurd hstate hnotOpened
  have hnone : ∀ k, 0 < k → preqs impl k cmd = none := by
    intro k hk
    obtain ⟨k, rfl⟩ := Nat.exists_eq_succ_of_ne_zero (Nat.ne_of_gt hk)
    rcases hcmd with rfl | rfl <;> rfl
  rcases hcmd with rfl | rfl
  · exact bankPreq_finds rfl hnone (Nat.le_add_right _ 2) hanswer
  · exact bankPreq_finds rfl hnone (Nat.le_add_right _ 2) hanswer

theorem requireBankClosed_finds {cmd : Cmd} (hcmd : cmd = .VRR ∨ cmd = .REFsb) :
    FindsRows dev ((model impl aim count V).getPreqCommand dev cmd addrVec) addrVec := by
  have hanswer : ∀ up (b : NodeBase Cmd St Unit), ∃ a,
      Preq.Bank.RequireBankClosed St.Closed .Opened Cmd.PRE cmd up (.bank b) addrVec dev.clk =
        some a ∧ (a = .PRE ∨ (a = cmd ∨ a = .ACT) ∧
          ∀ o, b.rows = rowsOf o → Needs a (addrVec.at (row impl)) o) := by
    intro up b
    have hclosed : (∀ o, b.rows = rowsOf o → o = none) →
        ∀ o, b.rows = rowsOf o → Needs cmd (addrVec.at (row impl)) o := by
      intro h o ho
      rcases hcmd with rfl | rfl <;> exact h o ho
    unfold Preq.Bank.RequireBankClosed
    rw [DRAMNode.base_bank]
    split
    · next hstate =>
        refine ⟨cmd, rfl, .inr ⟨.inl rfl, hclosed fun o ho => rowsOf_closed ?_⟩⟩
        rw [← ho]
        exact hstate
    · next hnotClosed =>
        split
        · exact ⟨.PRE, rfl, .inl rfl⟩
        · next hnotOpened =>
            refine ⟨cmd, rfl, .inr ⟨.inl rfl, hclosed fun o ho => ?_⟩⟩
            have hstate : b.state = (rowsOf o).1 := congrArg Prod.fst ho
            cases o with
            | none => rfl
            | some x => exact absurd hstate hnotOpened
  have hnone : ∀ k, 0 < k → preqs impl k cmd = none := by
    intro k hk
    obtain ⟨k, rfl⟩ := Nat.exists_eq_succ_of_ne_zero (Nat.ne_of_gt hk)
    rcases hcmd with rfl | rfl <;> rfl
  rcases hcmd with rfl | rfl
  · exact bankPreq_finds rfl hnone (Nat.le_refl _) hanswer
  · exact bankPreq_finds rfl hnone (Nat.le_refl _) hanswer

/-- Where the walk of a refresh of all banks ends with the refresh, every bank below the node
that its address names is closed. -/
theorem refab_walk {clk : Int} {d : Nat} (hd : groupDepth impl ≤ d)
    (up : List (NodeBase Cmd St Unit)) (n : DRAMNode Cmd St Unit d)
    (hwalk : (model impl aim count V).toDRAMSpec.getPreqCommand .REFab addrVec clk d up n = .REFab)
    {path : List Nat} {r : BankRows St} (hr : n.rowsAt d path = some r)
    (hagree : ∀ k < d - groupDepth impl, ∀ i ∈ path[k]?,
      addrVec.at ((model impl aim count V).level (d - 1 - k)) = (i : Int)) : r.1 = .Closed := by
  have hpos : 0 < groupDepth impl := by cases impl <;> decide
  induction d generalizing up path with
  | zero => omega
  | succ d ih =>
      rw [DRAMSpec.getPreqCommand, DRAMSpec.ownPreq] at hwalk
      have hpreq : (model impl aim count V).preqs (d + 1) .REFab =
          if d + 1 = groupDepth impl then some (Preq.RequireAllBanksClosed .Closed .PREA .REFab)
          else none := rfl
      rw [hpreq] at hwalk
      by_cases hgroup : d + 1 = groupDepth impl
      · rw [if_pos hgroup] at hwalk
        unfold Preq.RequireAllBanksClosed at hwalk
        dsimp only at hwalk
        split at hwalk
        · next hanswer =>
            split at hanswer
            · next hall =>
                obtain ⟨b, hb, rfl⟩ := Option.map_eq_some_iff.mp hr
                exact of_decide_eq_true
                  (List.all_eq_true.mp hall b (DRAMNode.mem_banks.mpr ⟨path, hb⟩))
            · obtain rfl := Option.some.inj hanswer
              cases hwalk
        · next hanswer => split at hanswer <;> cases hanswer
      · rw [if_neg hgroup] at hwalk
        dsimp only at hwalk
        cases path with
        | nil => cases hr
        | cons i path =>
            have hi : addrVec.at ((model impl aim count V).level d) = i :=
              hagree 0 (by omega) i rfl
            rw [DRAMNode.rowsAt_cons] at hr
            obtain ⟨child, hchild, hr⟩ := Option.bind_eq_some_iff.mp hr
            split at hwalk
            · cases hwalk
            · rw [hi, if_neg (by omega), Int.toNat_natCast, hchild] at hwalk
              refine ih (by omega) _ child hwalk hr fun k hk j hj => ?_
              have hk' := hagree (k + 1) (by omega) j hj
              rwa [show d + 1 - 1 - (k + 1) = d - 1 - k by omega] at hk'

theorem requireAllBanksClosed_finds :
    FindsRows dev ((model impl aim count V).getPreqCommand dev .REFab addrVec) addrVec := by
  have hcases : ∀ cmd, (model impl aim count V).getPreqCommand dev .REFab addrVec = cmd →
      cmd = .REFab ∨ ∀ x o, Needs cmd x o := by
    rintro cmd rfl
    refine (model impl aim count V).getPreqCommand_induct
      (P := fun cmd => cmd = .REFab ∨ ∀ x o, Needs cmd x o) (.inl rfl) (.inr fun _ _ => trivial) ?_
    intro k up n a ha
    cases k with
    | zero => cases ha
    | succ k =>
        have hpreq : (model impl aim count V).preqs (k + 1) .REFab =
            if k + 1 = groupDepth impl then some (Preq.RequireAllBanksClosed .Closed .PREA .REFab)
            else none := rfl
        rw [DRAMSpec.ownPreq, hpreq] at ha
        by_cases hgroup : k + 1 = groupDepth impl
        · rw [if_pos hgroup] at ha
          unfold Preq.RequireAllBanksClosed at ha
          dsimp only at ha
          split at ha <;> obtain rfl := Option.some.inj ha
          · exact .inl rfl
          · exact .inr fun _ _ => trivial
        · rw [if_neg hgroup] at ha
          cases ha
  rcases hcases _ rfl with hrefresh | hfree
  · rw [hrefresh]
    intro ch path o hreach hr
    obtain ⟨c, hc, hr⟩ := Option.bind_eq_some_iff.mp hr
    rw [DRAMModel.getPreqCommand, (model impl aim count V).channelOf_eq hreach.1, hc] at hrefresh
    refine rowsOf_closed (refab_walk (Nat.sub_le _ _) [] c hrefresh hr fun k hk i hi => ?_)
    have hgroup : group impl ≤ bank impl := by cases impl <;> decide
    have hk : k < bank impl - groupDepth impl := hk
    have hk' : k < group impl := by
      unfold groupDepth at hk
      omega
    have hlevel : (model impl aim count V).level (bank impl - 1 - k) = k + 1 := by
      show bank impl - (bank impl - 1 - k) = k + 1
      omega
    rw [hlevel]
    exact hreach.2 k hk' i hi
  · exact .of_free hfree

theorem noPreq_finds {cmd : Cmd} (hcmd : cmd = .RFMab ∨ cmd = .RFMsb) :
    FindsRows dev ((model impl aim count V).getPreqCommand dev cmd addrVec) addrVec := by
  have hfree : ∀ x o, Needs cmd x o := by
    rcases hcmd with rfl | rfl <;> exact fun _ _ => trivial
  refine .of_free ((model impl aim count V).getPreqCommand_induct
    (P := fun cmd => ∀ x o, Needs cmd x o) hfree (fun _ _ => trivial) fun k up n a ha => ?_)
  have hnone : (model impl aim count V).preqs k cmd = none := by
    rcases hcmd with rfl | rfl <;> cases k <;> rfl
  rw [DRAMSpec.ownPreq, hnone] at ha
  cases ha

theorem getPreqCommand_finds {cmd : Cmd} (hfinal : IsFinal impl cmd) :
    FindsRows dev ((model impl aim count V).getPreqCommand dev cmd addrVec) addrVec := by
  rcases hfinal.cases with rfl | rfl | rfl | rfl | rfl | rfl | rfl
  · exact requireRowOpen_finds (.inl rfl)
  · exact requireRowOpen_finds (.inr rfl)
  · exact requireAllBanksClosed_finds
  · exact requireBankClosed_finds (.inl rfl)
  · exact requireBankClosed_finds (.inr rfl)
  · exact noPreq_finds (.inl rfl)
  · exact noPreq_finds (.inr rfl)

end

/-! ## What a command does -/

def rowAction (impl : Impl) : DRAMSpec.RowAction Cmd St
  | 0, .ACT, addrVec => BankRows.openRow .Opened (addrVec.at (row impl))
  | 0, .PRE, _ | 0, .RDA, _ | 0, .WRA, _ => BankRows.close .Closed
  | d + 1, .PREA, _ => if d + 1 = groupDepth impl then BankRows.close .Closed else id
  | _, _, _ => id

theorem actsBy : (model impl aim count V).ActsBy (rowAction impl) := by
  have hopen : ∀ {d : Nat} (r : Int) (n : DRAMNode Cmd St Unit d) (path : List Nat),
      (n.mapBanks (NodeBase.openRow .Opened r) d).rowsAt d path =
        (n.rowsAt d path).map (BankRows.openRow .Opened r) :=
    fun r n path => DRAMNode.rowsAt_mapBanks (rows_openRow _ _) n path
  have hclose : ∀ {d : Nat} (n : DRAMNode Cmd St Unit d) (path : List Nat),
      (n.mapBanks (NodeBase.close .Closed) d).rowsAt d path =
        (n.rowsAt d path).map (BankRows.close .Closed) :=
    fun n path => DRAMNode.rowsAt_mapBanks (rows_close _) n path
  have hid : ∀ {d : Nat} (n : DRAMNode Cmd St Unit d) (path : List Nat),
      n.rowsAt d path = (n.rowsAt d path).map id := fun n path => Option.map_id'.symm
  intro d cmd addrVec clk n path
  cases d with
  | zero =>
      cases cmd with
      | ACT => exact hopen (addrVec.at (row impl)) n path
      | PRE | RDA | WRA => exact hclose n path
      | _ => exact hid n path
  | succ d =>
      cases cmd with
      | PREA =>
          have haction : (model impl aim count V).actions (d + 1) .PREA =
              if d + 1 = groupDepth impl then some (Action.closeBanks .Closed) else none := rfl
          unfold DRAMSpec.runAction
          rw [haction, rowAction]
          by_cases hgroup : d + 1 = groupDepth impl
          · rw [if_pos hgroup, if_pos hgroup]
            exact hclose n path
          · rw [if_neg hgroup, if_neg hgroup]
            exact hid n path
      | _ => exact hid n path

/-- What a command does to the rows of a bank that it reaches. -/
def rowEffect (impl : Impl) (cmd : Cmd) (addrVec : AddrVec) (r : BankRows St) : BankRows St :=
  match cmd with
  | .ACT => r.openRow .Opened (addrVec.at (row impl))
  | .PRE | .PREA | .RDA | .WRA => r.close .Closed
  | _ => r

theorem touch_rowEffect (cmd : Cmd) (addrVec : AddrVec) {path : List Nat}
    (hlength : path.length = bank impl) (r : BankRows St) :
    (model impl aim count V).touch (rowAction impl) cmd addrVec (bank impl) path r =
      if ∀ level < commandScopes impl cmd, ∀ i ∈ path[level]?, addrVec.at (level + 1) = (i : Int)
      then rowEffect impl cmd addrVec r else r := by
  -- the levels above the depth of an action, counted from the bank and from the channel
  have hagree : ∀ t, bank impl - t ≤ commandScopes impl cmd →
      (bank impl - t < commandScopes impl cmd → t = 0) →
      ((∀ k < bank impl - t, ∀ i ∈ path[k]?,
        addrVec.at ((model impl aim count V).level (bank impl - 1 - k)) = (i : Int)) ↔
      ∀ level < commandScopes impl cmd, ∀ i ∈ path[level]?,
        addrVec.at (level + 1) = (i : Int)) := by
    intro t hle hlt
    have hlevel : ∀ k, k < bank impl →
        (model impl aim count V).level (bank impl - 1 - k) = k + 1 := by
      intro k hk
      show bank impl - (bank impl - 1 - k) = k + 1
      omega
    constructor
    · intro h k hk i hi
      have hk' : k < bank impl := hlength ▸ (List.getElem?_eq_some_iff.mp hi).1
      rw [← hlevel k hk']
      exact h k (by omega) i hi
    · intro h k hk i hi
      rw [hlevel k (by omega)]
      exact h k (by omega) i hi
  have hgroup : 0 < groupDepth impl ∧ bank impl - groupDepth impl = group impl ∧
      groupDepth impl ≤ bank impl := by
    cases impl <;> decide
  have hbank : (∀ d, d ≠ 0 → rowAction impl d cmd addrVec = id) →
      bank impl ≤ commandScopes impl cmd →
      rowAction impl 0 cmd addrVec r = rowEffect impl cmd addrVec r →
      (model impl aim count V).touch (rowAction impl) cmd addrVec (bank impl) path r =
        if ∀ level < commandScopes impl cmd, ∀ i ∈ path[level]?,
          addrVec.at (level + 1) = (i : Int)
        then rowEffect impl cmd addrVec r else r := by
    intro hother hscope heffect
    rw [(model impl aim count V).touch_single hother ?_ (Nat.zero_le _) hlength, heffect]
    · exact if_congr (hagree 0 (by omega) fun _ => rfl) rfl rfl
    · intro d hd _ heq
      have heq : bank impl - d = commandScopes impl cmd := heq
      have hpos : 0 < bank impl := by cases impl <;> decide
      omega
  have hnot0 : ∀ {cmd : Cmd}, cmd ≠ .PREA → ∀ d, d ≠ 0 → rowAction impl d cmd addrVec = id := by
    intro cmd hcmd d hd
    obtain ⟨d, rfl⟩ := Nat.exists_eq_succ_of_ne_zero hd
    cases cmd <;> first | rfl | exact absurd rfl hcmd
  cases cmd with
  | ACT => exact hbank (hnot0 nofun) (Nat.le_succ _) rfl
  | PRE => exact hbank (hnot0 nofun) (Nat.le_refl _) rfl
  | RDA | WRA => exact hbank (hnot0 nofun) (Nat.le_add_right _ 2) rfl
  | PREA =>
      have hother : ∀ d, d ≠ groupDepth impl → rowAction impl d .PREA addrVec = id := by
        intro d hd
        cases d with
        | zero => rfl
        | succ d => exact if_neg hd
      have haction : rowAction impl (groupDepth impl) .PREA addrVec r = r.close .Closed := by
        obtain ⟨d, hd⟩ := Nat.exists_eq_succ_of_ne_zero (Nat.ne_of_gt hgroup.1)
        have hrow : rowAction impl (d + 1) .PREA addrVec =
          if d + 1 = groupDepth impl then BankRows.close .Closed else id := rfl
        rw [hd, hrow, if_pos hd.symm]
      rw [(model impl aim count V).touch_single hother ?_ hgroup.2.2 hlength, haction]
      · exact if_congr (hagree _ (Nat.le_of_eq hgroup.2.1)
          fun h => absurd h (by rw [hgroup.2.1]; exact Nat.lt_irrefl _)) rfl rfl
      · intro d hd hle heq
        have heq : bank impl - d = group impl := heq
        exact absurd (heq.trans hgroup.2.1.symm) (by omega)
  | _ =>
      refine Eq.trans (b := r) ?_ (by split <;> rfl)
      refine (model impl aim count V).touch_induct (P := fun r' => r' = r) ?_ rfl
      intro d r' hr'
      rw [← hr']
      cases d <;> rfl

theorem rowsAt_issueCommand (dev : (model impl aim count V).Dev) (cmd : Cmd) (addrVec : AddrVec)
    (ch : Nat) (path : List Nat) :
    (model impl aim count V).rowsAt ((model impl aim count V).issueCommand dev cmd addrVec) ch
        path =
      ((model impl aim count V).rowsAt dev ch path).map fun r =>
        if Reaches impl cmd addrVec ch path then rowEffect impl cmd addrVec r else r := by
  rw [(model impl aim count V).rowsAt_issueCommand actsBy]
  cases hr : (model impl aim count V).rowsAt dev ch path with
  | none => rfl
  | some r =>
      have hlength := (model impl aim count V).length_of_rowsAt hr
      rw [Option.map_some, Option.map_some,
        show (model impl aim count V).touch (rowAction impl) cmd addrVec
          (model impl aim count V).bankLevel path r = _ from
            touch_rowEffect cmd addrVec hlength r]
      by_cases hch : addrVec.at 0 = ch
      · rw [if_pos hch]
        exact congrArg some (if_congr (and_iff_right hch).symm rfl rfl)
      · rw [if_neg hch, if_neg (c := Reaches impl cmd addrVec ch path) fun h => hch h.1]

def RowsMatch (dev : (model impl aim count V).Dev) (history : List (Issue Cmd)) : Prop :=
  ∀ ch path r, (model impl aim count V).rowsAt dev ch path = some r →
    r = rowsOf (openRow impl ch path history)

theorem createNodes_rowsMatch :
    RowsMatch ((model impl aim count V).createNodes count) [] := by
  intro ch path r hr
  have hinit : initStates impl ((model impl aim count V).level 0) = .Closed := by
    cases impl <;> rfl
  rw [(model impl aim count V).rowsAt_createNodes hr]
  exact congrArg (·, []) hinit

theorem RowsMatch.issue {dev : (model impl aim count V).Dev} {history : List (Issue Cmd)}
    (h : RowsMatch dev history) {cmd : Cmd} {addrVec : AddrVec} (hfinds : FindsRows dev cmd addrVec)
    (clk : Int) :
    RowsMatch ((model impl aim count V).issueCommand dev cmd addrVec)
      (⟨clk, cmd, addrVec⟩ :: history) := by
  intro ch path r' hr'
  rw [rowsAt_issueCommand] at hr'
  obtain ⟨r, hr, rfl⟩ := Option.map_eq_some_iff.mp hr'
  have hrows := h ch path r hr
  rw [openRow]
  dsimp only
  by_cases hreach : Reaches impl cmd addrVec ch path
  · rw [if_pos hreach, if_pos hreach, hrows]
    cases cmd with
    | ACT =>
        have hclosed : openRow impl ch path history = none :=
          hfinds ch path _ hreach (hrows ▸ hr)
        rw [hclosed]
        rfl
    | PRE | PREA | RDA | WRA => rfl
    | _ => rfl
  · rw [if_neg hreach, if_neg hreach]
    exact hrows

end Standard

end AimSimulator.Dram
