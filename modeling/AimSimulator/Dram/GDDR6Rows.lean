import AimSimulator.Dram.BankRows
import AimSimulator.Dram.GDDR6
/-!
# The rows of GDDR6

A command that the prerequisites of a request lead to finds the rows it needs, and every
command that finds them leaves each bank closed or open with one row.
-/

namespace AimSimulator.Dram.GDDR6

def rowAction : DRAMSpec.RowAction Cmd St
  | 2, .WRA16, _ => BankRows.close .Closed
  | 2, .PREA, _ => BankRows.close .Closed
  | 2, .ACT16, addrVec => BankRows.openRow .Opened (addrVec.at row)
  | 1, .PRE4, _ => BankRows.close .Closed
  | 1, .ACT4, addrVec => BankRows.openRow .Opened (addrVec.at row)
  | 0, .ACT, addrVec => BankRows.openRow .Opened (addrVec.at row)
  | 0, .PRE, _ => BankRows.close .Closed
  | 0, .RDA, _ => BankRows.close .Closed
  | 0, .WRA, _ => BankRows.close .Closed
  | _, _, _ => id

theorem actsBy (V : Timing → Int) : (model V).ActsBy rowAction := by
  have hopen : ∀ {d : Nat} (r : Int) (n : DRAMNode Cmd St Unit d) (path : List Nat),
      (n.mapBanks (NodeBase.openRow .Opened r) d).rowsAt d path =
        (n.rowsAt d path).map (BankRows.openRow .Opened r) :=
    fun r n path => DRAMNode.rowsAt_mapBanks (rows_openRow _ _) n path
  have hclose : ∀ {d : Nat} (n : DRAMNode Cmd St Unit d) (path : List Nat),
      (n.mapBanks (NodeBase.close .Closed) d).rowsAt d path =
        (n.rowsAt d path).map (BankRows.close .Closed) :=
    fun n path => DRAMNode.rowsAt_mapBanks (rows_close _) n path
  have hid : ∀ {d : Nat} (n : DRAMNode Cmd St Unit d) (path : List Nat),
      n.rowsAt d path = (n.rowsAt d path).map id := fun n path => Option.map_id'.symm
  intro d cmd addrVec clk n path
  match d with
  | 0 =>
      cases cmd with
      | ACT => exact hopen (addrVec.at row) n path
      | PRE | RDA | WRA => exact hclose n path
      | _ => exact hid n path
  | 1 =>
      cases cmd with
      | ACT4 => exact hopen (addrVec.at row) n path
      | PRE4 => exact hclose n path
      | _ => exact hid n path
  | 2 =>
      cases cmd with
      | ACT16 => exact hopen (addrVec.at row) n path
      | PREA | WRA16 => exact hclose n path
      | _ => exact hid n path
  | _ + 3 => exact hid n path

/-! ## What a command finds -/

abbrev closedRows : BankRows St := (.Closed, [])

abbrev openRows (r : Int) : BankRows St := (.Opened, [(r, .Opened)])

def OneRow (r : BankRows St) : Prop := r = closedRows ∨ ∃ x, r = openRows x

def Needs (cmd : Cmd) (x : Int) (r : BankRows St) : Prop :=
  match cmd with
  | .RD | .WR | .RDCP | .WRCP | .MAC | .MAC16 | .AF16 | .EWMUL16 | .WRA16 => r = openRows x
  | .ACT | .REFab => r = closedRows
  | .ACT16 => r = closedRows ∨ r = openRows x
  | _ => True

variable {V : Timing → Int}

/-- Whether a command is issued to the bank at a path: its scope is the channel, or the
address names the bank. -/
def Reaches (V : Timing → Int) (cmd : Cmd) (addrVec : AddrVec) (ch : Nat) (path : List Nat) :
    Prop :=
  addrVec.at channel = ch ∧
    (commandScopes cmd = channel ∨ (model V).pathOf addrVec bank = some path)

structure FindsRows (dev : (model V).Dev) (cmd : Cmd) (addrVec : AddrVec) : Prop where
  needs : ∀ ch path r, Reaches V cmd addrVec ch path → (model V).rowsAt dev ch path = some r →
    Needs cmd (addrVec.at row) r
  notGroup : cmd ≠ .ACT4

def OneRowEach (dev : (model V).Dev) : Prop :=
  ∀ ch path r, (model V).rowsAt dev ch path = some r → OneRow r

def IsFinal (cmd : Cmd) : Prop :=
  (∃ type, requestTranslations type = some cmd) ∨ ∃ op, aimRequestTranslations op = some cmd

/-! ## The prerequisites -/

theorem FindsRows.of_free {dev : (model V).Dev} {cmd : Cmd} {addrVec : AddrVec}
    (hneeds : ∀ x r, Needs cmd x r) (hgroup : cmd ≠ .ACT4) : FindsRows dev cmd addrVec :=
  ⟨fun _ _ r _ _ => hneeds _ r, hgroup⟩

theorem not_reaches_channel {cmd : Cmd} {addrVec : AddrVec} {ch : Nat} {path : List Nat}
    (hscope : commandScopes cmd ≠ channel) (h : Reaches V cmd addrVec ch path) :
    (model V).Names addrVec ch path := ⟨h.1, h.2.resolve_left hscope⟩

/-- A request for one bank gets its own command on an open row of its own, an activation
on a closed bank, and a precharge otherwise. -/
theorem requireRowOpen_finds {dev : (model V).Dev} (hone : OneRowEach dev) {cmd : Cmd}
    {addrVec : AddrVec} (hcmd : cmd = .RD ∨ cmd = .WR ∨ cmd = .RDCP ∨ cmd = .WRCP ∨ cmd = .MAC) :
    FindsRows dev ((model V).getPreqCommand dev cmd addrVec) addrVec := by
  have hpreq : (model V).preqs 0 cmd = some (requireRowOpen cmd) := by
    rcases hcmd with rfl | rfl | rfl | rfl | rfl <;> rfl
  have hnone : ∀ k, 0 < k → (model V).preqs k cmd = none := by
    intro k hk
    rcases k with _ | _ | _ | k
    · exact absurd hk (Nat.lt_irrefl 0)
    · rfl
    · rcases hcmd with rfl | rfl | rfl | rfl | rfl <;> rfl
    · rfl
  have hscope : commandScopes cmd ≠ channel := by
    rcases hcmd with rfl | rfl | rfl | rfl | rfl <;> decide
  have hgroup : cmd ≠ .ACT4 := by
    rcases hcmd with rfl | rfl | rfl | rfl | rfl <;> decide
  rcases (model V).getPreqCommand_bank hnone dev addrVec with
    ⟨b, up, hb, heq⟩ | ⟨hnobank, heq | heq⟩
  · rw [heq, DRAMSpec.ownPreq, hpreq]
    have hrows : ∀ {ch path r}, (model V).Names addrVec ch path →
        (model V).rowsAt dev ch path = some r → r = b.rows ∧ OneRow b.rows := by
      intro ch path r hnames hr
      have haddressed := @DRAMModel.rowsAt_addressed _ _ _ (model V) dev _ _ _ hnames
      rw [hb, hr] at haddressed
      obtain rfl := Option.some.inj haddressed
      exact ⟨rfl, hone ch path _ hr⟩
    dsimp only [requireRowOpen, Preq.Bank.RequireRowOpen]
    split
    · next hclosed =>
        have hact : commandScopes .ACT ≠ channel := by decide
        refine ⟨fun ch path r hreach hr => ?_, by rintro ⟨⟩⟩
        obtain ⟨rfl, hclosed' | ⟨x, hopen⟩⟩ := hrows (not_reaches_channel hact hreach) hr
        · exact hclosed'
        · cases hclosed.symm.trans (congrArg Prod.fst hopen)
    · split
      · split
        · next hrow =>
            refine ⟨fun ch path r hreach hr => ?_, hgroup⟩
            obtain ⟨rfl, hclosed | ⟨x, hopen⟩⟩ := hrows (not_reaches_channel hscope hreach) hr
            · rw [← hasRow_rows, DRAMNode.base_bank, hclosed] at hrow
              simp [BankRows.hasRow] at hrow
            · rw [← hasRow_rows, DRAMNode.base_bank, hopen] at hrow
              have hx : x = addrVec.at row := by simpa [BankRows.hasRow] using hrow
              rw [hopen, hx]
              rcases hcmd with rfl | rfl | rfl | rfl | rfl <;> rfl
        · exact .of_free (fun _ _ => trivial) (by rintro ⟨⟩)
      · next hnotClosed hnotOpened =>
          refine ⟨fun ch path r hreach hr => ?_, hgroup⟩
          obtain ⟨rfl, hclosed | ⟨x, hopen⟩⟩ := hrows (not_reaches_channel hscope hreach) hr
          · exact absurd (congrArg Prod.fst hclosed) hnotClosed
          · exact absurd (congrArg Prod.fst hopen) hnotOpened
  · rw [heq]
    refine ⟨fun ch path r hreach hr => ?_, hgroup⟩
    have haddressed := @DRAMModel.rowsAt_addressed _ _ _ (model V) dev _ _ _
      (not_reaches_channel hscope hreach)
    rw [hnobank, hr] at haddressed
    cases haddressed
  · rw [heq]
    exact .of_free (fun _ _ => trivial) (by rintro ⟨⟩)

theorem getPreqCommand_channel {dev : (model V).Dev} {cmd : Cmd} {addrVec : AddrVec}
    {preq : PreqFunc Cmd St Unit 2} (hpreq : (model V).preqs 2 cmd = some preq)
    {c : DRAMNode Cmd St Unit 2} (hc : (model V).channelOf dev addrVec = some c) {a : Cmd}
    (hanswer : preq [] c addrVec dev.clk = some a) :
    (model V).getPreqCommand dev cmd addrVec = a := by
  rw [DRAMModel.getPreqCommand, hc]
  show (model V).toDRAMSpec.getPreqCommand cmd addrVec dev.clk 2 [] c = a
  rw [DRAMSpec.getPreqCommand, DRAMSpec.ownPreq, hpreq]
  dsimp only
  rw [hanswer]

theorem FindsRows.of_no_channel {dev : (model V).Dev} {cmd : Cmd} {addrVec : AddrVec}
    (hgroup : cmd ≠ .ACT4) (hc : (model V).channelOf dev addrVec = none) :
    FindsRows dev ((model V).getPreqCommand dev cmd addrVec) addrVec := by
  rw [DRAMModel.getPreqCommand, hc]
  refine ⟨fun ch path r hreach hr => ?_, hgroup⟩
  rw [(model V).channelOf_eq hreach.1] at hc
  rw [DRAMModel.rowsAt, hc] at hr
  cases hr

theorem rowsAt_channel {dev : (model V).Dev} {addrVec : AddrVec} {ch : Nat} {path : List Nat}
    {r : BankRows St} {c : DRAMNode Cmd St Unit 2}
    (hc : (model V).channelOf dev addrVec = some c) (hch : addrVec.at 0 = ch) :
    (model V).rowsAt dev ch path = some r ↔ c.rowsAt 2 path = some r := by
  rw [(model V).channelOf_eq hch] at hc
  rw [DRAMModel.rowsAt, hc]
  rfl

def HoldsOther (x : Int) (r : BankRows St) : Prop := r.1 ≠ .Closed ∧ r.hasRow x = false

/-- A request for all banks gets a precharge if some bank holds another row, an activation if
none does and some bank is closed, and its own command otherwise. -/
theorem requireAllRowsOpen_cases {dev : (model V).Dev} {cmd : Cmd} {addrVec : AddrVec}
    (hpreq : preqs 2 cmd = some (requireAllRowsOpen cmd)) {c : DRAMNode Cmd St Unit 2}
    (hc : (model V).channelOf dev addrVec = some c) {ch : Nat} (hch : addrVec.at channel = ch) :
    ((model V).getPreqCommand dev cmd addrVec = .PREA ∧ ∃ path r,
      (model V).rowsAt dev ch path = some r ∧ HoldsOther (addrVec.at row) r) ∨
    ((∀ path r, (model V).rowsAt dev ch path = some r → ¬ HoldsOther (addrVec.at row) r) ∧
      (((model V).getPreqCommand dev cmd addrVec = .ACT16 ∧ ∃ path r,
        (model V).rowsAt dev ch path = some r ∧ r.1 = .Closed) ∨
      ((model V).getPreqCommand dev cmd addrVec = cmd ∧ ∀ path r,
        (model V).rowsAt dev ch path = some r → r.1 ≠ .Closed))) := by
  have hanswer : ∀ {a}, requireAllRowsOpen cmd [] c addrVec dev.clk = some a →
      (model V).getPreqCommand dev cmd addrVec = a := getPreqCommand_channel hpreq hc
  have hany : ∀ test : BankRows St → Bool, ((c.banks 2).any fun b => test b.rows) = true ↔
      ∃ path r, (model V).rowsAt dev ch path = some r ∧ test r = true := by
    intro test
    rw [DRAMNode.any_banks test]
    simp only [rowsAt_channel hc hch]
  have hother := hany fun r => decide (r.1 ≠ .Closed) && !r.hasRow (addrVec.at row)
  have hclosed := hany fun r => decide (r.1 = .Closed)
  simp only [Bool.and_eq_true, decide_eq_true_eq, Bool.not_eq_true'] at hother hclosed
  by_cases hsome : ((c.banks 2).any fun b =>
      decide (b.state ≠ .Closed) && !b.hasRow (addrVec.at row)) = true
  · exact .inl ⟨hanswer (if_pos hsome), hother.mp hsome⟩
  · refine .inr ⟨fun path r hr hholds => hsome (hother.mpr ⟨path, r, hr, hholds⟩), ?_⟩
    by_cases hsomeClosed : ((c.banks 2).any fun b => decide (b.state = .Closed)) = true
    · exact .inl ⟨hanswer ((if_neg hsome).trans (if_pos hsomeClosed)), hclosed.mp hsomeClosed⟩
    · exact .inr ⟨hanswer ((if_neg hsome).trans (if_neg hsomeClosed)),
        fun path r hr hstate => hsomeClosed (hclosed.mpr ⟨path, r, hr, hstate⟩)⟩

theorem requireAllRowsOpen_finds {dev : (model V).Dev} (hone : OneRowEach dev) {cmd : Cmd}
    {addrVec : AddrVec}
    (hcmd : cmd = .WRA16 ∨ cmd = .MAC16 ∨ cmd = .AF16 ∨ cmd = .EWMUL16) :
    FindsRows dev ((model V).getPreqCommand dev cmd addrVec) addrVec := by
  have hpreq : (model V).preqs 2 cmd = some (requireAllRowsOpen cmd) := by
    rcases hcmd with rfl | rfl | rfl | rfl <;> rfl
  have hgroup : cmd ≠ .ACT4 := by rcases hcmd with rfl | rfl | rfl | rfl <;> decide
  cases hc : (model V).channelOf dev addrVec with
  | none => exact .of_no_channel hgroup hc
  | some c =>
      have hrow : ∀ r, OneRow r → ¬ HoldsOther (addrVec.at row) r →
          r = closedRows ∨ r = openRows (addrVec.at row) := by
        rintro r (rfl | ⟨x, rfl⟩) hholds
        · exact .inl rfl
        · by_cases hx : x = addrVec.at row
          · exact .inr (by rw [hx])
          · exact absurd ⟨nofun, by simp [BankRows.hasRow, hx]⟩ hholds
      obtain ⟨ch, hch⟩ := (model V).exists_channel hc
      rcases requireAllRowsOpen_cases hpreq hc hch with
        ⟨ha, -⟩ | ⟨hnoOther, ⟨ha, -⟩ | ⟨ha, hnoClosed⟩⟩ <;> rw [ha]
      · exact .of_free (fun _ _ => trivial) nofun
      · refine ⟨fun ch' path r hreach hr => ?_, nofun⟩
        obtain rfl : ch' = ch := Int.ofNat.inj (hreach.1.symm.trans hch)
        exact hrow r (hone ch' path r hr) (hnoOther path r hr)
      · refine ⟨fun ch' path r hreach hr => ?_, hgroup⟩
        obtain rfl : ch' = ch := Int.ofNat.inj (hreach.1.symm.trans hch)
        rcases hrow r (hone ch' path r hr) (hnoOther path r hr) with rfl | rfl
        · exact absurd rfl (hnoClosed path _ hr)
        · rcases hcmd with rfl | rfl | rfl | rfl <;> rfl

theorem requireAllBanksClosed_finds {dev : (model V).Dev} (hone : OneRowEach dev)
    {addrVec : AddrVec} : FindsRows dev ((model V).getPreqCommand dev .REFab addrVec) addrVec := by
  cases hc : (model V).channelOf dev addrVec with
  | none => exact .of_no_channel nofun hc
  | some c =>
      by_cases hall : ((c.banks 2).all fun b => decide (b.state = St.Closed)) = true
      · rw [getPreqCommand_channel (a := Cmd.REFab) rfl hc (if_pos hall)]
        refine ⟨fun ch path r hreach hr => ?_, nofun⟩
        obtain ⟨b, hb, rfl⟩ := Option.map_eq_some_iff.mp ((rowsAt_channel hc hreach.1).mp hr)
        have hstate := List.all_eq_true.mp hall b (DRAMNode.mem_banks.mpr ⟨path, hb⟩)
        rcases hone ch path _ hr with hclosed | ⟨x, hopen⟩
        · exact hclosed
        · exact absurd ((of_decide_eq_true hstate).symm.trans (congrArg Prod.fst hopen)) nofun
      · rw [getPreqCommand_channel (a := Cmd.PREA) rfl hc (if_neg hall)]
        exact .of_free (fun _ _ => trivial) nofun

theorem noPreq_finds {dev : (model V).Dev} {cmd : Cmd} {addrVec : AddrVec}
    (hnone : ∀ k, (model V).preqs k cmd = none) (hneeds : ∀ x r, Needs cmd x r)
    (hgroup : cmd ≠ .ACT4) : FindsRows dev ((model V).getPreqCommand dev cmd addrVec) addrVec := by
  rcases (model V).getPreqCommand_bank (fun k _ => hnone k) dev addrVec with
    ⟨b, up, -, heq⟩ | ⟨-, heq | heq⟩
  · rw [heq, DRAMSpec.ownPreq, hnone]
    exact .of_free (fun _ _ => trivial) (by rintro ⟨⟩)
  · rw [heq]
    exact .of_free hneeds hgroup
  · rw [heq]
    exact .of_free (fun _ _ => trivial) (by rintro ⟨⟩)

theorem getPreqCommand_finds {dev : (model V).Dev} (hone : OneRowEach dev) {cmd : Cmd}
    (hfinal : IsFinal cmd) (addrVec : AddrVec) :
    FindsRows dev ((model V).getPreqCommand dev cmd addrVec) addrVec := by
  cases cmd with
  | RD | WR | RDCP | WRCP | MAC => exact requireRowOpen_finds hone (by simp)
  | MAC16 | AF16 | EWMUL16 | WRA16 => exact requireAllRowsOpen_finds hone (by simp)
  | REFab => exact requireAllBanksClosed_finds hone
  | PRE | WRGB | RDMAC16 | RDAF16 | WRMAC16 | SYNC | EOC | UNKNOWN =>
      refine noPreq_finds (fun k => ?_) (fun _ _ => trivial) nofun
      match k with
      | 0 | 1 | 2 | _ + 3 => rfl
  | _ =>
      rcases hfinal with ⟨type, h⟩ | ⟨op, h⟩
      · cases type <;> cases h
      · cases op <;> cases h

/-! ## The effect of a command -/

theorem touch_bank (cmd : Cmd) (addrVec : AddrVec) (g b : Nat) (r : BankRows St) :
    (model V).touch rowAction cmd addrVec bank [g, b] r =
      if channel = commandScopes cmd ∨ addrVec.at bankgroup ≠ g then
        rowAction 2 cmd addrVec r
      else if bankgroup = commandScopes cmd ∨ addrVec.at bank ≠ b then
        rowAction 1 cmd addrVec (rowAction 2 cmd addrVec r)
      else rowAction 0 cmd addrVec (rowAction 1 cmd addrVec (rowAction 2 cmd addrVec r)) := rfl

/-- What a command does to the rows of the bank `b` of the bank group `g` of its channel. -/
def rowEffect (cmd : Cmd) (addrVec : AddrVec) (g b : Nat) (r : BankRows St) : BankRows St :=
  let inGroup := addrVec.at bankgroup = g
  let here := inGroup ∧ addrVec.at bank = b
  match cmd with
  | .ACT16 => r.openRow .Opened (addrVec.at row)
  | .WRA16 | .PREA => r.close .Closed
  | .ACT4 => if inGroup then r.openRow .Opened (addrVec.at row) else r
  | .PRE4 => if inGroup then r.close .Closed else r
  | .ACT => if here then r.openRow .Opened (addrVec.at row) else r
  | .PRE | .RDA | .WRA => if here then r.close .Closed else r
  | _ => r

theorem touch_rowEffect (cmd : Cmd) (addrVec : AddrVec) (g b : Nat) (r : BankRows St) :
    (model V).touch rowAction cmd addrVec bank [g, b] r = rowEffect cmd addrVec g b r := by
  have hchannel : channel ≠ bankgroup ∧ channel ≠ bank ∧ channel ≠ row ∧ channel ≠ column := by decide
  have hgroup : bankgroup ≠ bank ∧ bankgroup ≠ row ∧ bankgroup ≠ column := by decide
  rw [touch_bank]
  cases cmd with
  | ACT4 | PRE4 =>
      by_cases hg : addrVec.at bankgroup = g <;>
        simp [rowEffect, rowAction, commandScopes, hchannel, hg]
  | ACT | PRE | RDA | WRA =>
      by_cases hg : addrVec.at bankgroup = g <;> by_cases hb : addrVec.at bank = b <;>
        simp [rowEffect, rowAction, commandScopes, hchannel, hgroup, hg, hb]
  | _ => repeat' first | rfl | split

theorem path_cases {dev : (model V).Dev} {ch : Nat} {path : List Nat} {r : BankRows St}
    (h : (model V).rowsAt dev ch path = some r) : ∃ g b, path = [g, b] := by
  have hlength : path.length = 2 := (model V).length_of_rowsAt h
  match path, hlength with
  | [g, b], _ => exact ⟨g, b, rfl⟩

theorem pathOf_bank {addrVec : AddrVec} {g b : Nat} (hg : addrVec.at bankgroup = g)
    (hb : addrVec.at bank = b) : (model V).pathOf addrVec bank = some [g, b] := by
  show (if addrVec.at 1 < 0 then none else
    (if addrVec.at 2 < 0 then none else
      some [(addrVec.at 2).toNat]).map ((addrVec.at 1).toNat :: ·)) = _
  rw [hg, hb, if_neg (by omega), if_neg (by omega)]
  rfl

/-- What a command does to the rows of a bank: nothing, it closes the bank, or it opens it with
the row of its address. -/
theorem issueCommand_rows {dev : (model V).Dev} {cmd : Cmd} {addrVec : AddrVec} {ch : Nat}
    {path : List Nat} {r' : BankRows St}
    (h : (model V).rowsAt ((model V).issueCommand dev cmd addrVec) ch path = some r') :
    ∃ r, (model V).rowsAt dev ch path = some r ∧
      (r' = r ∨ r' = closedRows ∨
        (addrVec.at channel = ch ∧ r' = r.openRow .Opened (addrVec.at row) ∧
          (cmd = .ACT ∧ (model V).pathOf addrVec bank = some path ∨ cmd = .ACT16 ∨
            cmd = .ACT4))) := by
  rw [(model V).rowsAt_issueCommand (actsBy V)] at h
  obtain ⟨r, hr, rfl⟩ := Option.map_eq_some_iff.mp h
  obtain ⟨g, b, rfl⟩ := path_cases hr
  refine ⟨r, hr, ?_⟩
  split
  · next hch =>
      rw [show (model V).touch rowAction cmd addrVec (model V).bankLevel [g, b] r = _ from
        touch_bank cmd addrVec g b r]
      cases cmd with
      | ACT16 => exact .inr (.inr ⟨hch, if_pos (.inl rfl), .inr (.inl rfl)⟩)
      | ACT4 =>
          split
          · exact .inl rfl
          · split <;> exact .inr (.inr ⟨hch, rfl, .inr (.inr rfl)⟩)
      | ACT =>
          split
          · exact .inl rfl
          · next hg =>
              split
              · exact .inl rfl
              · next hb =>
                  rw [not_or, Decidable.not_not] at hg hb
                  exact .inr (.inr ⟨hch, rfl, .inl ⟨rfl, pathOf_bank hg.2 hb.2⟩⟩)
      | _ =>
          split
          · first | exact .inl rfl | exact .inr (.inl rfl)
          · split
            · first | exact .inl rfl | exact .inr (.inl rfl)
            · first | exact .inl rfl | exact .inr (.inl rfl)
  · exact .inl rfl

theorem issueCommand_oneRowEach {dev : (model V).Dev} (hone : OneRowEach dev) {cmd : Cmd}
    {addrVec : AddrVec} (hfinds : FindsRows dev cmd addrVec) :
    OneRowEach ((model V).issueCommand dev cmd addrVec) := by
  intro ch path r' hr'
  obtain ⟨r, hr, rfl | rfl | ⟨hch, rfl, ⟨rfl, hpath⟩ | rfl | rfl⟩⟩ := issueCommand_rows hr'
  · exact hone ch path _ hr
  · exact .inl rfl
  · rw [show r = closedRows from hfinds.needs ch path r ⟨hch, .inr hpath⟩ hr]
    exact .inr ⟨addrVec.at row, rfl⟩
  · refine .inr ⟨addrVec.at row, ?_⟩
    rcases hfinds.needs ch path r ⟨hch, .inl rfl⟩ hr with rfl | rfl
    · rfl
    · simp [BankRows.openRow]
  · exact absurd rfl hfinds.notGroup

end AimSimulator.Dram.GDDR6
