import AimSimulator.Dram.BankRows
import AimSimulator.Dram.LPDDR
/-!
# The rows of LPDDR4 and LPDDR5

What each action does to the rows of a bank.  The `CAS` commands and the commands that
follow them only move the sync window of their rank, `WRA8` included.
-/

namespace AimSimulator.Dram.LPDDR

def rowAction : DRAMSpec.RowAction Cmd St
  | 3, .ACT8_2, addrVec => BankRows.openRow .Opened (addrVec.at row)
  | 2, .PREA, _ => BankRows.close .Closed
  | 2, .ACT8_1, addrVec => BankRows.openRow .PreOpened (addrVec.at row)
  | 1, .ACT4_1, addrVec => BankRows.openRow .PreOpened (addrVec.at row)
  | 1, .ACT4_2, addrVec => BankRows.openRow .Opened (addrVec.at row)
  | 1, .PRE4, _ => BankRows.close .Closed
  | 0, .ACT_1, addrVec => BankRows.openRow .PreOpened (addrVec.at row)
  | 0, .ACT_2, addrVec => BankRows.openRow .Opened (addrVec.at row)
  | 0, .PRE, _ => BankRows.close .Closed
  | 0, .RDA, _ => BankRows.close .Closed
  | 0, .WRA, _ => BankRows.close .Closed
  | _, _, _ => id

theorem rowsAt_setFinalSyncedCycle (cycle : Int) (n : DRAMNode Cmd St Int 2) (path : List Nat) :
    (setFinalSyncedCycle cycle n).rowsAt 2 path = n.rowsAt 2 path := by
  cases path <;> rfl

theorem actsBy (gen : Generation) (count : Nat → Int) (V : Timing → Int) :
    (model gen count V).ActsBy rowAction := by
  have hopen : ∀ {d : Nat} (opened : St) (r : Int) (n : DRAMNode Cmd St Int d) (path : List Nat),
      (n.mapBanks (NodeBase.openRow opened r) d).rowsAt d path =
        (n.rowsAt d path).map (BankRows.openRow opened r) :=
    fun _ _ n path => DRAMNode.rowsAt_mapBanks (rows_openRow _ _) n path
  have hclose : ∀ {d : Nat} (n : DRAMNode Cmd St Int d) (path : List Nat),
      (n.mapBanks (NodeBase.close .Closed) d).rowsAt d path =
        (n.rowsAt d path).map (BankRows.close .Closed) :=
    fun n path => DRAMNode.rowsAt_mapBanks (rows_close _) n path
  have hid : ∀ {d : Nat} (n : DRAMNode Cmd St Int d) (path : List Nat),
      n.rowsAt d path = (n.rowsAt d path).map id := fun n path => Option.map_id'.symm
  have hsync : ∀ (cycle : Int) (n : DRAMNode Cmd St Int 2) (path : List Nat),
      (setFinalSyncedCycle cycle n).rowsAt 2 path = (n.rowsAt 2 path).map id :=
    fun cycle n path => (rowsAt_setFinalSyncedCycle cycle n path).trans (hid n path)
  intro d cmd addrVec clk n path
  match d with
  | 0 =>
      cases cmd with
      | ACT_1 => exact hopen .PreOpened (addrVec.at row) n path
      | ACT_2 => exact hopen .Opened (addrVec.at row) n path
      | PRE | RDA | WRA => exact hclose n path
      | _ => exact hid n path
  | 1 =>
      cases cmd with
      | ACT4_1 => exact hopen .PreOpened (addrVec.at row) n path
      | ACT4_2 => exact hopen .Opened (addrVec.at row) n path
      | PRE4 => exact hclose n path
      | _ => exact hid n path
  | 2 =>
      cases cmd with
      | PREA => exact hclose n path
      | ACT8_1 => exact hopen .PreOpened (addrVec.at row) n path
      | CASRD | CASWR | CASWRGB | CASWRMAC8 | CASRDMAC8 | CASRDAF8 | CASWRA8 =>
          exact hsync _ n path
      | RD | WR | WRGB | WRMAC8 | RDMAC8 | RDAF8 | WRA8 => exact hsync _ n path
      | _ => exact hid n path
  | 3 =>
      cases cmd with
      | ACT8_2 => exact hopen .Opened (addrVec.at row) n path
      | _ => exact hid n path
  | _ + 4 => exact hid n path

variable {gen : Generation} {sizes : Nat → Int} {V : Timing → Int}

/-! ## The effect of a command -/

/-- What a command does to the rows of the bank `b` of the bank group `g` of the rank `k` in its
channel. -/
def rowEffect (cmd : Cmd) (addrVec : AddrVec) (k g b : Nat) (r : BankRows St) : BankRows St :=
  let inRank := addrVec.at rank = k
  let inGroup := inRank ∧ addrVec.at bankgroup = g
  let here := inGroup ∧ addrVec.at bank = b
  match cmd with
  | .ACT8_2 => r.openRow .Opened (addrVec.at row)
  | .PREA => if inRank then r.close .Closed else r
  | .ACT8_1 => if inRank then r.openRow .PreOpened (addrVec.at row) else r
  | .ACT4_1 => if inGroup then r.openRow .PreOpened (addrVec.at row) else r
  | .ACT4_2 => if inGroup then r.openRow .Opened (addrVec.at row) else r
  | .PRE4 => if inGroup then r.close .Closed else r
  | .ACT_1 => if here then r.openRow .PreOpened (addrVec.at row) else r
  | .ACT_2 => if here then r.openRow .Opened (addrVec.at row) else r
  | .PRE | .RDA | .WRA => if here then r.close .Closed else r
  | _ => r

theorem touch_bank (cmd : Cmd) (addrVec : AddrVec) (k g b : Nat) (r : BankRows St) :
    (model gen sizes V).touch rowAction cmd addrVec bank [k, g, b] r =
      rowEffect cmd addrVec k g b r := by
  have hsteps : (model gen sizes V).touch rowAction cmd addrVec bank [k, g, b] r =
      if channel = commandScopes cmd ∨ addrVec.at rank ≠ k then rowAction 3 cmd addrVec r
      else if rank = commandScopes cmd ∨ addrVec.at bankgroup ≠ g then
        rowAction 2 cmd addrVec (rowAction 3 cmd addrVec r)
      else if bankgroup = commandScopes cmd ∨ addrVec.at bank ≠ b then
        rowAction 1 cmd addrVec (rowAction 2 cmd addrVec (rowAction 3 cmd addrVec r))
      else rowAction 0 cmd addrVec
        (rowAction 1 cmd addrVec (rowAction 2 cmd addrVec (rowAction 3 cmd addrVec r))) := rfl
  have hrank : rank ≠ bankgroup ∧ rank ≠ bank ∧ rank ≠ row ∧ rank ≠ column := by decide
  have hgroup : bankgroup ≠ bank ∧ bankgroup ≠ row ∧ bankgroup ≠ column := by decide
  rw [hsteps]
  cases cmd with
  | PREA | ACT8_1 =>
      by_cases hk : addrVec.at rank = k <;> simp [rowEffect, rowAction, commandScopes, hk]
  | ACT4_1 | ACT4_2 | PRE4 =>
      by_cases hk : addrVec.at rank = k <;> by_cases hg : addrVec.at bankgroup = g <;>
        simp [rowEffect, rowAction, commandScopes, hrank, hk, hg]
  | ACT_1 | ACT_2 | PRE | RDA | WRA =>
      by_cases hk : addrVec.at rank = k <;> by_cases hg : addrVec.at bankgroup = g <;>
        by_cases hb : addrVec.at bank = b <;>
          simp [rowEffect, rowAction, commandScopes, hrank, hgroup, hk, hg, hb]
  | _ => repeat' first | rfl | split

theorem path_cases {dev : (model gen sizes V).Dev} {ch : Nat} {path : List Nat} {r : BankRows St}
    (h : (model gen sizes V).rowsAt dev ch path = some r) : ∃ k g b, path = [k, g, b] := by
  have hlength : path.length = 3 := (model gen sizes V).length_of_rowsAt h
  match path, hlength with
  | [k, g, b], _ => exact ⟨k, g, b, rfl⟩

theorem rowsAt_issueCommand {dev : (model gen sizes V).Dev} {cmd : Cmd} {addrVec : AddrVec}
    {ch k g b : Nat} {r' : BankRows St}
    (h : (model gen sizes V).rowsAt ((model gen sizes V).issueCommand dev cmd addrVec) ch
      [k, g, b] = some r') :
    ∃ r, (model gen sizes V).rowsAt dev ch [k, g, b] = some r ∧
      r' = if addrVec.at channel = ch then rowEffect cmd addrVec k g b r else r := by
  rw [(model gen sizes V).rowsAt_issueCommand (actsBy gen sizes V)] at h
  obtain ⟨r, hr, rfl⟩ := Option.map_eq_some_iff.mp h
  refine ⟨r, hr, ?_⟩
  rw [← @touch_bank gen sizes V]
  rfl

/-! ## What a command finds -/

abbrev closedRows : BankRows St := (.Closed, [])

abbrev preOpenRows (x : Int) : BankRows St := (.PreOpened, [(x, .PreOpened)])

abbrev openRows (x : Int) : BankRows St := (.Opened, [(x, .Opened)])

/-- The rows of a bank whose activations are finished with the row they began with. -/
def OneRow (r : BankRows St) : Prop :=
  r = closedRows ∨ ∃ x, r = preOpenRows x ∨ r = openRows x

def Needs (cmd : Cmd) (x : Int) (r : BankRows St) : Prop :=
  match cmd with
  | .RD | .WR | .RDCP | .WRCP | .MAC | .MAC8 | .AF8 | .EWMUL8 => r = openRows x
  | .ACT_1 | .REFab => r = closedRows
  | .ACT_2 => r = preOpenRows x
  | .ACT8_1 => r = closedRows ∨ r = preOpenRows x ∨ r = openRows x
  | .ACT8_2 => r = preOpenRows x ∨ r = openRows x
  | _ => True

/-- Whether a command is issued to a bank of a channel: to all banks with `ACT8-2`, otherwise
when the address names the rank and, below the scope of a rank, also the bank. -/
def Reaches (cmd : Cmd) (addrVec : AddrVec) (ch k g b : Nat) : Prop :=
  addrVec.at channel = ch ∧ (cmd = .ACT8_2 ∨ (addrVec.at rank = k ∧
    (commandScopes cmd = rank ∨ (addrVec.at bankgroup = g ∧ addrVec.at bank = b))))

structure FindsRows (dev : (model gen sizes V).Dev) (cmd : Cmd) (addrVec : AddrVec) : Prop where
  needs : ∀ ch k g b r, Reaches cmd addrVec ch k g b →
    (model gen sizes V).rowsAt dev ch [k, g, b] = some r → Needs cmd (addrVec.at row) r
  notGroup : cmd ≠ .ACT4_1 ∧ cmd ≠ .ACT4_2

/-- Every bank of a device is closed, or holds the one row of its activation. -/
def OneRowEach (dev : (model gen sizes V).Dev) : Prop :=
  ∀ ch path r, (model gen sizes V).rowsAt dev ch path = some r → OneRow r

theorem issueCommand_oneRowEach {dev : (model gen sizes V).Dev} (hone : OneRowEach dev) {cmd : Cmd}
    {addrVec : AddrVec} (hfinds : FindsRows dev cmd addrVec) :
    OneRowEach ((model gen sizes V).issueCommand dev cmd addrVec) := by
  intro ch path r' hr'
  obtain ⟨k, g, b, rfl⟩ := path_cases hr'
  obtain ⟨r, hr, rfl⟩ := rowsAt_issueCommand hr'
  have hold := hone ch _ r hr
  have hpre : ∀ x, r = closedRows ∨ r = preOpenRows x ∨ r = openRows x →
      OneRow (r.openRow .PreOpened x) := by
    rintro x (rfl | rfl | rfl)
    · exact .inr ⟨x, .inl rfl⟩
    all_goals exact .inr ⟨x, .inl (by simp [BankRows.openRow])⟩
  have hopen : ∀ x, r = preOpenRows x ∨ r = openRows x → OneRow (r.openRow .Opened x) := by
    rintro x (rfl | rfl)
    all_goals exact .inr ⟨x, .inr (by simp [BankRows.openRow])⟩
  split
  · next hch =>
      unfold rowEffect
      dsimp only
      cases cmd with
      | ACT8_2 => exact hopen _ (hfinds.needs ch k g b r ⟨hch, .inl rfl⟩ hr)
      | ACT8_1 =>
          dsimp only
          split
          · next hk => exact hpre _ (hfinds.needs ch k g b r ⟨hch, .inr ⟨hk, .inl rfl⟩⟩ hr)
          · exact hold
      | ACT_1 =>
          dsimp only
          split
          · next hhere =>
              exact hpre _ (.inl (hfinds.needs ch k g b r
                ⟨hch, .inr ⟨hhere.1.1, .inr ⟨hhere.1.2, hhere.2⟩⟩⟩ hr))
          · exact hold
      | ACT_2 =>
          dsimp only
          split
          · next hhere =>
              exact hopen _ (.inl (hfinds.needs ch k g b r
                ⟨hch, .inr ⟨hhere.1.1, .inr ⟨hhere.1.2, hhere.2⟩⟩⟩ hr))
          · exact hold
      | ACT4_1 => exact absurd rfl hfinds.notGroup.1
      | ACT4_2 => exact absurd rfl hfinds.notGroup.2
      | PREA | PRE4 | PRE | RDA | WRA =>
          dsimp only
          split
          · exact .inl rfl
          · exact hold
      | _ => exact hold
  · exact hold

/-! ## The prerequisites -/

section

variable {dev : (model gen sizes V).Dev} {addrVec : AddrVec} {cmd : Cmd}

def rankOf (dev : (model gen sizes V).Dev) (addrVec : AddrVec) : Option (DRAMNode Cmd St Int 2) :=
  ((model gen sizes V).channelOf dev addrVec).bind fun c =>
    if addrVec.at rank < 0 then none
    else (show DRAMNode Cmd St Int 3 from c).children[(addrVec.at rank).toNat]?

theorem getPreqCommand_rank {node : DRAMNode Cmd St Int 2} (hrank : rankOf dev addrVec = some node)
    {cmd : Cmd} (hnone : (model gen sizes V).preqs 3 cmd = none)
    {preq : PreqFunc Cmd St Int 2} (hpreq : (model gen sizes V).preqs 2 cmd = some preq) {a : Cmd}
    (hanswer : ∀ up, preq up node addrVec dev.clk = some a) :
    (model gen sizes V).getPreqCommand dev cmd addrVec = a := by
  obtain ⟨c, hc, hchild⟩ := Option.bind_eq_some_iff.mp hrank
  split at hchild
  · cases hchild
  · next hwild =>
      rw [DRAMModel.getPreqCommand, hc]
      refine (DRAMSpec.getPreqCommand_child (d := 2) (model gen sizes V).toDRAMSpec hnone hwild
        hchild).trans ?_
      refine DRAMSpec.getPreqCommand_own (model gen sizes V).toDRAMSpec (d := 2) ?_
      rw [DRAMSpec.ownPreq, hpreq]
      exact hanswer _

theorem rowsAt_rank {node : DRAMNode Cmd St Int 2} (hrank : rankOf dev addrVec = some node)
    {ch k g b : Nat} (hch : addrVec.at channel = ch) (hk : addrVec.at rank = k) :
    (model gen sizes V).rowsAt dev ch [k, g, b] = node.rowsAt 2 [g, b] := by
  obtain ⟨c, hc, hchild⟩ := Option.bind_eq_some_iff.mp hrank
  rw [if_neg (by omega), show (addrVec.at rank).toNat = k by omega] at hchild
  rw [(model gen sizes V).channelOf_eq hch] at hc
  rw [DRAMModel.rowsAt, hc]
  show (show DRAMNode Cmd St Int 3 from c).rowsAt 3 _ = _
  rw [DRAMNode.rowsAt_cons, hchild]
  rfl

theorem rankOf_isSome {ch k g b : Nat} {r : BankRows St} (hch : addrVec.at channel = ch)
    (hk : addrVec.at rank = k) (hr : (model gen sizes V).rowsAt dev ch [k, g, b] = some r) :
    ∃ node, rankOf dev addrVec = some node := by
  obtain ⟨c, hc, hr⟩ := Option.bind_eq_some_iff.mp hr
  replace hr : (show DRAMNode Cmd St Int 3 from c).rowsAt 3 [k, g, b] = some r := hr
  rw [DRAMNode.rowsAt_cons] at hr
  obtain ⟨node, hnode, -⟩ := Option.bind_eq_some_iff.mp hr
  refine ⟨node, ?_⟩
  rw [rankOf, (model gen sizes V).channelOf_eq hch, hc, Option.bind_some, if_neg (by omega),
    show (addrVec.at rank).toNat = k by omega]
  exact hnode

theorem FindsRows.of_free (hneeds : ∀ x r, Needs cmd x r) (hgroup : cmd ≠ .ACT4_1 ∧ cmd ≠ .ACT4_2) :
    FindsRows dev cmd addrVec :=
  ⟨fun _ _ _ _ r _ _ => hneeds _ r, hgroup⟩

theorem FindsRows.of_no_rank (hrank : rankOf dev addrVec = none) (hall : cmd ≠ .ACT8_2)
    (hgroup : cmd ≠ .ACT4_1 ∧ cmd ≠ .ACT4_2) : FindsRows dev cmd addrVec := by
  refine ⟨fun ch k g b r ⟨hch, hreach⟩ hr => ?_, hgroup⟩
  obtain ⟨hk, -⟩ := hreach.resolve_left hall
  obtain ⟨node, hnode⟩ := rankOf_isSome hch hk hr
  rw [hrank] at hnode
  cases hnode

theorem noRank_preq (hnone : (model gen sizes V).preqs 3 cmd = none) {clk : Int}
    (c : DRAMNode Cmd St Int 3)
    (hrank : (if addrVec.at rank < 0 then none else c.children[(addrVec.at rank).toNat]?) = none) :
    (model gen sizes V).toDRAMSpec.getPreqCommand cmd addrVec clk 3 [] c = cmd ∨
      (model gen sizes V).toDRAMSpec.getPreqCommand cmd addrVec clk 3 [] c = .ACT_2 := by
  have hown : (model gen sizes V).ownPreq [] cmd addrVec clk c = none := by
    rw [DRAMSpec.ownPreq, hnone]
  have hlevel : (model gen sizes V).level 2 = rank := rfl
  rw [DRAMSpec.getPreqCommand, hown, hlevel]
  dsimp only
  split
  · exact .inr rfl
  · split
    · exact .inl rfl
    · next hwild =>
        rw [if_neg hwild] at hrank
        rw [hrank]
        exact .inl rfl

/-- A command whose prerequisite is registered at the ranks finds what it needs when every answer
does. -/
theorem rankPreq_finds (hnone : (model gen sizes V).preqs 3 cmd = none)
    {preq : PreqFunc Cmd St Int 2} (hpreq : (model gen sizes V).preqs 2 cmd = some preq)
    (hall : cmd ≠ .ACT8_2) (hgroup : cmd ≠ .ACT4_1 ∧ cmd ≠ .ACT4_2)
    (hanswer : ∀ node, rankOf dev addrVec = some node → ∃ a,
      (∀ up, preq up node addrVec dev.clk = some a) ∧ FindsRows dev a addrVec) :
    FindsRows dev ((model gen sizes V).getPreqCommand dev cmd addrVec) addrVec := by
  cases hrank : rankOf dev addrVec with
  | some node =>
      obtain ⟨a, ha, hfinds⟩ := hanswer node hrank
      rw [getPreqCommand_rank hrank hnone hpreq ha]
      exact hfinds
  | none =>
      have hplain : (model gen sizes V).getPreqCommand dev cmd addrVec = cmd ∨
          (model gen sizes V).getPreqCommand dev cmd addrVec = .ACT_2 := by
        unfold DRAMModel.getPreqCommand
        cases hc : (model gen sizes V).channelOf dev addrVec with
        | none => exact .inl rfl
        | some c =>
            rw [rankOf, hc, Option.bind_some] at hrank
            exact noRank_preq hnone c hrank
      rcases hplain with h | h <;> rw [h]
      · exact .of_no_rank hrank hall hgroup
      · exact .of_no_rank hrank nofun ⟨nofun, nofun⟩

/-! ## Requests that keep the rows of pre-opened banks -/

def bankAccesses : List Cmd := [.RD, .WR, .RDCP, .WRCP, .MAC]

def rankAccesses : List Cmd := [.MAC8, .AF8, .EWMUL8]

/-- Whether the activation `cmd` of a request with the final command `final` keeps the rows of the
banks that wait pre-opened: none of those it goes to has another row.  The `ACT-2` that every
undefined request gets needs such a bank, and `ACT8-2` opens the whole channel, which therefore
has one rank, or the row in every bank. -/
structure KeepsRows (dev : (model gen sizes V).Dev) (final cmd : Cmd) (addrVec : AddrVec) :
    Prop where
  bank : cmd = .ACT_2 → ∀ b ∈ (model gen sizes V).addressed dev addrVec,
    b.state = .PreOpened → b.hasRow (addrVec.at row) = true
  undefined : cmd = .ACT_2 → final = .UNKNOWN →
    ∀ b ∈ (model gen sizes V).addressed dev addrVec, b.state = .PreOpened
  rank : cmd = .ACT8_1 ∨ cmd = .ACT8_2 → ∀ node ∈ rankOf dev addrVec, ∀ b ∈ node.banks 2,
    b.state = .PreOpened → b.hasRow (addrVec.at row) = true
  oneRank : cmd = .ACT8_2 → ∀ c ∈ (model gen sizes V).channelOf dev addrVec,
    (show DRAMNode Cmd St Int 3 from c).children.length ≤ 1 ∨
      ∀ b ∈ (show DRAMNode Cmd St Int 3 from c).banks 3, b.hasRow (addrVec.at row) = true

instance (dev : (model gen sizes V).Dev) (final cmd : Cmd) (addrVec : AddrVec) :
    Decidable (KeepsRows dev final cmd addrVec) :=
  decidable_of_iff ((cmd = .ACT_2 → ∀ b ∈ (model gen sizes V).addressed dev addrVec,
      b.state = .PreOpened → b.hasRow (addrVec.at row) = true) ∧
    (cmd = .ACT_2 → final = .UNKNOWN →
      ∀ b ∈ (model gen sizes V).addressed dev addrVec, b.state = .PreOpened) ∧
    (cmd = .ACT8_1 ∨ cmd = .ACT8_2 → ∀ node ∈ rankOf dev addrVec, ∀ b ∈ node.banks 2,
      b.state = .PreOpened → b.hasRow (addrVec.at row) = true) ∧
    (cmd = .ACT8_2 → ∀ c ∈ (model gen sizes V).channelOf dev addrVec,
      (show DRAMNode Cmd St Int 3 from c).children.length ≤ 1 ∨
        ∀ b ∈ (show DRAMNode Cmd St Int 3 from c).banks 3, b.hasRow (addrVec.at row) = true))
    ⟨fun ⟨h₁, h₂, h₃, h₄⟩ => ⟨h₁, h₂, h₃, h₄⟩, fun ⟨h₁, h₂, h₃, h₄⟩ => ⟨h₁, h₂, h₃, h₄⟩⟩

theorem names_bank {ch k g b : Nat} (hch : addrVec.at channel = ch) (hk : addrVec.at rank = k)
    (hg : addrVec.at bankgroup = g) (hb : addrVec.at bank = b) :
    (model gen sizes V).Names addrVec ch [k, g, b] := by
  refine ⟨hch, ?_⟩
  show (if addrVec.at 1 < 0 then none else (if addrVec.at 2 < 0 then none else
    (if addrVec.at 3 < 0 then none else some [(addrVec.at 3).toNat]).map
      ((addrVec.at 2).toNat :: ·)).map ((addrVec.at 1).toNat :: ·)) = _
  rw [hk, hg, hb, if_neg (by omega), if_neg (by omega), if_neg (by omega)]
  rfl

theorem names_at {ch k g b : Nat} (h : (model gen sizes V).Names addrVec ch [k, g, b]) :
    addrVec.at rank = k ∧ addrVec.at bankgroup = g ∧ addrVec.at bank = b := by
  obtain ⟨hrank, hk⟩ := h.at_succ (show 0 < LPDDR.bank by decide)
  obtain ⟨hgroup, hg⟩ := h.at_succ (show 1 < LPDDR.bank by decide)
  obtain ⟨hbank, hb⟩ := h.at_succ (show 2 < LPDDR.bank by decide)
  obtain rfl : k = (addrVec.at rank).toNat := Option.some.inj hk
  obtain rfl : g = (addrVec.at bankgroup).toNat := Option.some.inj hg
  obtain rfl : b = (addrVec.at bank).toNat := Option.some.inj hb
  exact ⟨(Int.toNat_of_nonneg hrank).symm, (Int.toNat_of_nonneg hgroup).symm,
    (Int.toNat_of_nonneg hbank).symm⟩

theorem OneRow.of_hasRow {r : BankRows St} (h : OneRow r) {x : Int} (hx : r.hasRow x = true) :
    r = preOpenRows x ∨ r = openRows x := by
  rcases h with rfl | ⟨y, rfl | rfl⟩
  · cases hx
  all_goals
    have hy : y = x := by simpa [BankRows.hasRow] using hx
    rw [hy]
    simp

theorem preqBankAct_answer (hit : List (NodeBase Cmd St Int) → Int → Cmd)
    (up : List (NodeBase Cmd St Int)) (b : NodeBase Cmd St Int) (addrVec : AddrVec) (clk : Int) :
    (b.state = .PreOpened ∧ preqBankAct hit up (.bank b) addrVec clk = some .ACT_2) ∨
    (b.state ≠ .PreOpened ∧ ∃ a, preqBankAct hit up (.bank b) addrVec clk = some a ∧
      (a = .ACT_1 ∨ a = .PRE ∨ a = hit up clk)) := by
  unfold preqBankAct
  rw [DRAMNode.base_bank]
  cases b.state with
  | PreOpened => exact .inl ⟨rfl, rfl⟩
  | Closed => exact .inr ⟨nofun, _, rfl, .inl rfl⟩
  | Opened =>
      dsimp only
      split
      · exact .inr ⟨nofun, _, rfl, .inr (.inr rfl)⟩
      · exact .inr ⟨nofun, _, rfl, .inr (.inl rfl)⟩
  | PowerUp | NA => exact .inr ⟨nofun, _, rfl, .inr (.inr rfl)⟩

def ToBank (cmd : Cmd) : Prop :=
  commandScopes cmd ≠ rank ∧ cmd ≠ .ACT8_2 ∧ cmd ≠ .ACT4_1 ∧ cmd ≠ .ACT4_2

instance (cmd : Cmd) : Decidable (ToBank cmd) := inferInstanceAs (Decidable (_ ∧ _))

theorem FindsRows.of_bank (hto : ToBank cmd)
    (hneeds : ∀ b, (model gen sizes V).addressed dev addrVec = some b →
      Needs cmd (addrVec.at row) b.rows) : FindsRows dev cmd addrVec := by
  refine ⟨fun ch k g b r ⟨hch, hreach⟩ hr => ?_, hto.2.2⟩
  obtain ⟨hk, hbank⟩ := hreach.resolve_left hto.2.1
  obtain ⟨hg, hb⟩ := hbank.resolve_left hto.1
  have haddressed := @DRAMModel.rowsAt_addressed _ _ _ (model gen sizes V) dev _ _ _
    (names_bank hch hk hg hb)
  rw [hr] at haddressed
  obtain ⟨b, hb, rfl⟩ := Option.map_eq_some_iff.mp haddressed.symm
  exact hneeds b hb

theorem FindsRows.of_sync (h : cmd = .CASRD ∨ cmd = .CASWR) : FindsRows dev cmd addrVec := by
  rcases h with rfl | rfl <;> exact .of_free (fun _ _ => trivial) ⟨nofun, nofun⟩

theorem bankAccess_needs (hcmd : cmd ∈ bankAccesses) :
    ToBank cmd ∧ ∀ x, Needs cmd x (openRows x) := by
  simp only [bankAccesses, List.mem_cons, List.not_mem_nil, or_false] at hcmd
  rcases hcmd with rfl | rfl | rfl | rfl | rfl <;> exact ⟨by decide, fun _ => rfl⟩

/-- The prerequisite of a request for one bank: its answer on an open row is the command or its
sync form. -/
theorem bankAccess_preqs (hcmd : cmd ∈ bankAccesses) :
    (∀ k, 0 < k → (model gen sizes V).preqs k cmd = none) ∧
      ∃ hit : List (NodeBase Cmd St Int) → Int → Cmd,
        (model gen sizes V).preqs 0 cmd = some (preqBankAct hit) ∧
          ∀ up clk, hit up clk = cmd ∨ hit up clk = .CASRD ∨ hit up clk = .CASWR := by
  have hsync : ∀ (p : Bool) (op casOp : Cmd), casOp = .CASRD ∨ casOp = .CASWR →
      (if p then casOp else op) = op ∨ (if p then casOp else op) = .CASRD ∨
        (if p then casOp else op) = .CASWR := by
    rintro (_ | _) op casOp hcas
    · exact .inl rfl
    · exact .inr hcas
  simp only [bankAccesses, List.mem_cons, List.not_mem_nil, or_false] at hcmd
  refine ⟨fun k hk => ?_, ?_⟩
  · match k with
    | 1 => rfl
    | 2 | _ + 3 => rcases hcmd with rfl | rfl | rfl | rfl | rfl <;> rfl
  · rcases hcmd with rfl | rfl | rfl | rfl | rfl
    · exact ⟨_, rfl, fun up clk => hsync _ _ _ (.inl rfl)⟩
    · exact ⟨_, rfl, fun up clk => hsync _ _ _ (.inr rfl)⟩
    all_goals exact ⟨_, rfl, fun _ _ => .inl rfl⟩

theorem preqBankAct_finds {hit : List (NodeBase Cmd St Int) → Int → Cmd}
    {up : List (NodeBase Cmd St Int)} {clk : Int} {b : NodeBase Cmd St Int} {a : Cmd}
    (ha : preqBankAct hit up (.bank b) addrVec clk = some a)
    (hb : (model gen sizes V).addressed dev addrVec = some b) (hone : OneRow b.rows)
    (hkeeps : b.state = .PreOpened → b.hasRow (addrVec.at row) = true)
    (hhit : (b.rows = openRows (addrVec.at row) → FindsRows dev (hit up clk) addrVec)) :
    FindsRows dev a addrVec := by
  have hneeds : ∀ {c : Cmd}, ToBank c → Needs c (addrVec.at row) b.rows →
      FindsRows dev c addrVec := by
    refine fun hto hneeds => .of_bank hto fun b' hb' => ?_
    obtain rfl := Option.some.inj (hb.symm.trans hb')
    exact hneeds
  unfold preqBankAct at ha
  rw [DRAMNode.base_bank] at ha
  rcases hone with hclosed | ⟨x, hpre | hopen⟩
  · rw [show b.state = .Closed from congrArg Prod.fst hclosed] at ha
    exact Option.some.inj ha ▸ hneeds (by decide) hclosed
  · have hstate : b.state = .PreOpened := congrArg Prod.fst hpre
    have hrow : b.rows.hasRow (addrVec.at row) = true := hkeeps hstate
    rw [hpre] at hrow
    have hx : x = addrVec.at row := by simpa [BankRows.hasRow] using hrow
    rw [hstate] at ha
    exact Option.some.inj ha ▸ hneeds (by decide) (hx ▸ hpre)
  · have hstate : b.state = .Opened := congrArg Prod.fst hopen
    rw [hstate] at ha
    dsimp only at ha
    split at ha
    · next hrow =>
        replace hrow : b.rows.hasRow (addrVec.at row) = true := hrow
        rw [hopen] at hrow
        have hx : x = addrVec.at row := by simpa [BankRows.hasRow] using hrow
        exact Option.some.inj ha ▸ hhit (hx ▸ hopen)
    · exact Option.some.inj ha ▸ .of_free (fun _ _ => trivial) ⟨nofun, nofun⟩

/-- A request for one bank gets its own command or its sync form on an open row of its own,
`ACT-1` on a closed bank, `ACT-2` on a bank pre-opened with its row, and a precharge
otherwise. -/
theorem bankAccess_finds (hone : OneRowEach dev) (hcmd : cmd ∈ bankAccesses)
    (hkeeps : KeepsRows dev cmd ((model gen sizes V).getPreqCommand dev cmd addrVec) addrVec) :
    FindsRows dev ((model gen sizes V).getPreqCommand dev cmd addrVec) addrVec := by
  obtain ⟨hto, hneeds⟩ := bankAccess_needs hcmd
  obtain ⟨hnone, hit, hpreq, hhit⟩ := @bankAccess_preqs gen sizes V _ hcmd
  rcases (model gen sizes V).getPreqCommand_bank hnone dev addrVec with
    ⟨b, up, hb, heq⟩ | ⟨hnobank, heq | heq⟩
  · obtain ⟨ch, path, -, hrows⟩ := (model gen sizes V).exists_names hb
    have hownOpen : b.rows = openRows (addrVec.at row) →
        FindsRows dev (hit up dev.clk) addrVec := by
      intro hopen
      rcases hhit up dev.clk with h | h
      · rw [h]
        refine .of_bank hto fun b' hb' => ?_
        obtain rfl := Option.some.inj (hb.symm.trans hb')
        exact hopen ▸ hneeds _
      · exact .of_sync h
    obtain ⟨a, ha⟩ : ∃ a, preqBankAct hit up (.bank b) addrVec dev.clk = some a := by
      rcases preqBankAct_answer hit up b addrVec dev.clk with ⟨-, ha⟩ | ⟨-, a, ha, -⟩
      · exact ⟨_, ha⟩
      · exact ⟨a, ha⟩
    have hanswer : (model gen sizes V).getPreqCommand dev cmd addrVec = a := by
      rw [heq, DRAMSpec.ownPreq, hpreq]
      dsimp only
      rw [ha]
      rfl
    rw [hanswer] at hkeeps ⊢
    refine preqBankAct_finds ha hb (hone ch path _ hrows) (fun hstate => ?_) hownOpen
    rcases preqBankAct_answer hit up b addrVec dev.clk with ⟨-, ha'⟩ | ⟨hother, -⟩
    · exact hkeeps.bank (Option.some.inj (ha.symm.trans ha')) b hb hstate
    · exact absurd hstate hother
  · rw [heq]
    exact .of_bank hto fun b hb => by cases hnobank.symm.trans hb
  · rw [heq]
    exact .of_bank (show ToBank .ACT_2 by decide)
      fun b hb => by cases hnobank.symm.trans hb

theorem rowsAt_oneRank {node : DRAMNode Cmd St Int 2} (hnode : rankOf dev addrVec = some node)
    (hrank : ∀ c ∈ (model gen sizes V).channelOf dev addrVec,
      (show DRAMNode Cmd St Int 3 from c).children.length ≤ 1 ∨
        ∀ b ∈ (show DRAMNode Cmd St Int 3 from c).banks 3, b.hasRow (addrVec.at row) = true)
    {ch k g b : Nat} {r : BankRows St} (hch : addrVec.at channel = ch)
    (hr : (model gen sizes V).rowsAt dev ch [k, g, b] = some r) :
    node.rowsAt 2 [g, b] = some r ∨ r.hasRow (addrVec.at row) = true := by
  obtain ⟨c, hc, hr'⟩ := Option.bind_eq_some_iff.mp hr
  replace hr' : (show DRAMNode Cmd St Int 3 from c).rowsAt 3 [k, g, b] = some r := hr'
  rcases hrank c (((model gen sizes V).channelOf_eq hch).trans hc) with hlength | hheld
  · left
    rw [DRAMNode.rowsAt_cons] at hr'
    obtain ⟨child, hchild, -⟩ := Option.bind_eq_some_iff.mp hr'
    have hk := (List.getElem?_eq_some_iff.mp hchild).1
    obtain ⟨c', hc', hnode'⟩ := Option.bind_eq_some_iff.mp hnode
    rw [(model gen sizes V).channelOf_eq hch, hc] at hc'
    obtain rfl := Option.some.inj hc'
    split at hnode'
    · cases hnode'
    · have hk' := (List.getElem?_eq_some_iff.mp hnode').1
      exact (rowsAt_rank hnode hch (show addrVec.at rank = k by omega)).symm.trans hr
  · right
    obtain ⟨bank, hbank, rfl⟩ := Option.map_eq_some_iff.mp hr'
    exact (hasRow_rows _ _).trans (hheld bank (DRAMNode.mem_banks.mpr ⟨_, hbank⟩))

def HoldsOther (x : Int) (r : BankRows St) : Prop := r.1 = .Opened ∧ r.hasRow x = false

/-- A request for a whole rank gets a precharge if some bank is open with another row, the first
activation if none is and some bank is closed, the second if none is closed and some bank is
pre-opened, and its own command otherwise. -/
theorem preqRankAct_cases (op : Cmd) (node : DRAMNode Cmd St Int 2) (addrVec : AddrVec) :
    ∃ a, (∀ up clk, preqRankAct op up node addrVec clk = some a) ∧
      ((a = .PREA ∧ ∃ path r, node.rowsAt 2 path = some r ∧ HoldsOther (addrVec.at row) r) ∨
      ((∀ path r, node.rowsAt 2 path = some r → ¬ HoldsOther (addrVec.at row) r) ∧
        ((a = .ACT8_1 ∧ ∃ path r, node.rowsAt 2 path = some r ∧ r.1 = .Closed) ∨
        ((∀ path r, node.rowsAt 2 path = some r → r.1 ≠ .Closed) ∧
          ((a = .ACT8_2 ∧ ∃ path r, node.rowsAt 2 path = some r ∧ r.1 = .PreOpened) ∨
          (a = op ∧ ∀ path r, node.rowsAt 2 path = some r → r.1 ≠ .PreOpened)))))) := by
  have hother := DRAMNode.any_banks (n := node) fun r =>
    decide (r.1 = .Opened) && !r.hasRow (addrVec.at row)
  have hstate := fun s => DRAMNode.any_banks (n := node) fun r => decide (r.1 = s)
  simp only [Bool.and_eq_true, decide_eq_true_eq, Bool.not_eq_true'] at hother hstate
  by_cases hsome : ((node.banks 2).any fun b =>
      decide (b.state = .Opened) && !b.hasRow (addrVec.at row)) = true
  · exact ⟨_, fun _ _ => if_pos hsome, .inl ⟨rfl, hother.mp hsome⟩⟩
  · have hnoOther : ∀ path r, node.rowsAt 2 path = some r → ¬ HoldsOther (addrVec.at row) r :=
      fun path r hr hholds => hsome (hother.mpr ⟨path, r, hr, hholds⟩)
    by_cases hclosed : ((node.banks 2).any fun b => decide (b.state = .Closed)) = true
    · exact ⟨_, fun _ _ => (if_neg hsome).trans (if_pos hclosed),
        .inr ⟨hnoOther, .inl ⟨rfl, (hstate _).mp hclosed⟩⟩⟩
    · have hnoClosed : ∀ path r, node.rowsAt 2 path = some r → r.1 ≠ .Closed :=
        fun path r hr h => hclosed ((hstate _).mpr ⟨path, r, hr, h⟩)
      by_cases hpre : ((node.banks 2).any fun b => decide (b.state = .PreOpened)) = true
      · exact ⟨_, fun _ _ => (if_neg hsome).trans ((if_neg hclosed).trans (if_pos hpre)),
          .inr ⟨hnoOther, .inr ⟨hnoClosed, .inl ⟨rfl, (hstate _).mp hpre⟩⟩⟩⟩
      · exact ⟨_, fun _ _ => (if_neg hsome).trans ((if_neg hclosed).trans (if_neg hpre)),
          .inr ⟨hnoOther, .inr ⟨hnoClosed, .inr ⟨rfl,
            fun path r hr h => hpre ((hstate _).mpr ⟨path, r, hr, h⟩)⟩⟩⟩⟩

theorem rankAccess_finds (hone : OneRowEach dev) (hcmd : cmd ∈ rankAccesses)
    (hkeeps : KeepsRows dev cmd ((model gen sizes V).getPreqCommand dev cmd addrVec) addrVec) :
    FindsRows dev ((model gen sizes V).getPreqCommand dev cmd addrVec) addrVec := by
  have hcases : cmd = .MAC8 ∨ cmd = .AF8 ∨ cmd = .EWMUL8 := by simpa [rankAccesses] using hcmd
  have hfacts : (model gen sizes V).preqs 3 cmd = none ∧
      (model gen sizes V).preqs 2 cmd = some (preqRankAct cmd) ∧ cmd ≠ .ACT8_2 ∧
        (cmd ≠ .ACT4_1 ∧ cmd ≠ .ACT4_2) ∧ ∀ x, Needs cmd x (openRows x) := by
    rcases hcases with rfl | rfl | rfl <;>
      exact ⟨rfl, rfl, by decide, by decide, fun _ => rfl⟩
  obtain ⟨hnone, hpreq, hall, hgroup, hneeds⟩ := hfacts
  refine rankPreq_finds hnone hpreq hall hgroup fun node hnode => ?_
  obtain ⟨a, ha, hanswer⟩ := preqRankAct_cases cmd node addrVec
  rw [getPreqCommand_rank hnode hnone hpreq fun up => ha up dev.clk] at hkeeps
  -- the banks of the rank that are not open with another row
  have hheld : (a = .ACT8_1 ∨ a = .ACT8_2) → ∀ {g b : Nat} {r : BankRows St},
      node.rowsAt 2 [g, b] = some r → OneRow r → ¬ HoldsOther (addrVec.at row) r →
        r = closedRows ∨ r = preOpenRows (addrVec.at row) ∨ r = openRows (addrVec.at row) := by
    intro hact g b r hr honeRow hholds
    cases hrow : r.hasRow (addrVec.at row) with
    | true => exact .inr (honeRow.of_hasRow hrow)
    | false =>
        rcases honeRow with h | ⟨x, rfl | rfl⟩
        · exact .inl h
        · obtain ⟨bank, hbank, heq⟩ := Option.map_eq_some_iff.mp hr
          have hkept := hkeeps.rank hact node hnode bank (DRAMNode.mem_banks.mpr ⟨_, hbank⟩)
            (congrArg Prod.fst heq)
          rw [← hasRow_rows, heq, hrow] at hkept
          cases hkept
        · exact absurd ⟨rfl, hrow⟩ hholds
  have hreached : ∀ {c : Cmd} {ch k g b : Nat} {r : BankRows St}, c ≠ .ACT8_2 →
      Reaches c addrVec ch k g b → (model gen sizes V).rowsAt dev ch [k, g, b] = some r →
        node.rowsAt 2 [g, b] = some r ∧ OneRow r :=
    fun hne hreach hr => ⟨(rowsAt_rank hnode hreach.1 (hreach.2.resolve_left hne).1).symm.trans hr,
      hone _ _ _ hr⟩
  refine ⟨a, fun up => ha up dev.clk, ?_⟩
  rcases hanswer with ⟨rfl, -⟩ | ⟨hnoOther, ⟨rfl, -⟩ | ⟨hnoClosed, ⟨rfl, -⟩ | ⟨rfl, hnoPre⟩⟩⟩
  · exact .of_free (fun _ _ => trivial) ⟨nofun, nofun⟩
  · refine ⟨fun ch k g b r hreach hr => ?_, nofun, nofun⟩
    obtain ⟨hr', honeRow⟩ := hreached (c := .ACT8_1) nofun hreach hr
    exact hheld (.inl rfl) hr' honeRow (hnoOther _ r hr')
  · refine ⟨fun ch k g b r hreach hr => ?_, nofun, nofun⟩
    -- every bank of the channel is one of the rank, or has the row
    rcases rowsAt_oneRank hnode (hkeeps.oneRank rfl) hreach.1 hr with hr' | hrow
    · exact (hheld (.inr rfl) hr' (hone _ _ _ hr) (hnoOther _ r hr')).resolve_left fun h =>
        hnoClosed _ r hr' (congrArg Prod.fst h)
    · exact (hone _ _ _ hr).of_hasRow hrow
  · refine ⟨fun ch k g b r hreach hr => ?_, hgroup⟩
    obtain ⟨hr', honeRow⟩ := hreached hall hreach hr
    rcases honeRow with rfl | ⟨x, rfl | rfl⟩
    · exact absurd rfl (hnoClosed _ _ hr')
    · exact absurd rfl (hnoPre _ _ hr')
    · have hrow : BankRows.hasRow (openRows x) (addrVec.at row) = true :=
        Bool.not_eq_false _ |>.mp fun h => hnoOther _ _ hr' ⟨rfl, h⟩
      rcases (OneRow.of_hasRow (.inr ⟨x, .inr rfl⟩) hrow) with h | h
      · cases congrArg Prod.fst h
      · exact h ▸ hneeds _

theorem refresh_finds (hone : OneRowEach dev) :
    FindsRows dev ((model gen sizes V).getPreqCommand dev .REFab addrVec) addrVec := by
  refine rankPreq_finds rfl rfl nofun ⟨nofun, nofun⟩ fun node hnode => ?_
  by_cases hall : ((node.banks 2).all fun b => decide (b.state = St.Closed)) = true
  · refine ⟨.REFab, fun _ => if_pos hall, ⟨?_, nofun, nofun⟩⟩
    rintro ch k g b r ⟨hch, hreach⟩ hr
    obtain ⟨hk, -⟩ := hreach.resolve_left nofun
    have hr' := (rowsAt_rank hnode hch hk).symm.trans hr
    obtain ⟨bank, hbank, rfl⟩ := Option.map_eq_some_iff.mp hr'
    have hstate := of_decide_eq_true
      (List.all_eq_true.mp hall bank (DRAMNode.mem_banks.mpr ⟨_, hbank⟩))
    rcases hone ch _ _ hr with h | ⟨x, h | h⟩
    · exact h
    · exact absurd (hstate.symm.trans (congrArg Prod.fst h)) nofun
    · exact absurd (hstate.symm.trans (congrArg Prod.fst h)) nofun
  · exact ⟨.PREA, fun _ => if_neg hall, .of_free (fun _ _ => trivial) ⟨nofun, nofun⟩⟩

theorem rankSync_finds {casOp : Cmd} (hnone : (model gen sizes V).preqs 3 cmd = none)
    (hpreq : (model gen sizes V).preqs 2 cmd = some (preqRankSync cmd casOp))
    (hfree : ∀ c, c = cmd ∨ c = casOp → (∀ x r, Needs c x r) ∧
      c ≠ .ACT8_2 ∧ c ≠ .ACT4_1 ∧ c ≠ .ACT4_2) :
    FindsRows dev ((model gen sizes V).getPreqCommand dev cmd addrVec) addrVec := by
  have hfinds : ∀ c, c = cmd ∨ c = casOp → FindsRows dev c addrVec :=
    fun c hc => .of_free (hfree c hc).1 (hfree c hc).2.2
  obtain ⟨-, hall, hgroup⟩ := hfree cmd (.inl rfl)
  refine rankPreq_finds hnone hpreq hall hgroup fun node hnode => ?_
  cases hsync : needsSync node.base dev.clk with
  | true => exact ⟨casOp, fun _ => by rw [preqRankSync, hsync]; rfl, hfinds casOp (.inr rfl)⟩
  | false => exact ⟨cmd, fun _ => by rw [preqRankSync, hsync]; rfl, hfinds cmd (.inl rfl)⟩

def IsFinal (cmd : Cmd) : Prop :=
  (∃ type, requestTranslations type = some cmd) ∨ ∃ op, aimRequestTranslations op = some cmd

/-- An undefined request gets the command of id `1`, which is `ACT-2`, whatever its bank holds. -/
theorem undefined_finds (hone : OneRowEach dev)
    (hkeeps : KeepsRows dev .UNKNOWN ((model gen sizes V).getPreqCommand dev .UNKNOWN addrVec)
      addrVec) :
    FindsRows dev ((model gen sizes V).getPreqCommand dev .UNKNOWN addrVec) addrVec := by
  have hnone : ∀ k, (model gen sizes V).preqs k .UNKNOWN = none := by
    rintro (_ | _ | _ | _ | _) <;> rfl
  rcases (model gen sizes V).getPreqCommand_bank (fun k _ => hnone k) dev addrVec with
    ⟨b, up, hb, heq⟩ | ⟨hnobank, heq | heq⟩
  · have hact : (model gen sizes V).getPreqCommand dev .UNKNOWN addrVec = .ACT_2 := by
      rw [heq, DRAMSpec.ownPreq, hnone 0]
      rfl
    rw [hact] at hkeeps ⊢
    have hstate := hkeeps.undefined rfl rfl b hb
    have hrow := hkeeps.bank rfl b hb hstate
    obtain ⟨ch, path, -, hrows⟩ := (model gen sizes V).exists_names hb
    refine .of_bank (by decide) fun b' hb' => ?_
    obtain rfl := Option.some.inj (hb.symm.trans hb')
    rcases (hone ch path _ hrows).of_hasRow ((hasRow_rows _ _).trans hrow) with h | h
    · exact h
    · cases hstate.symm.trans (congrArg Prod.fst h)
  · rw [heq]
    exact .of_free (fun _ _ => trivial) (by decide)
  · rw [heq]
    exact .of_bank (show ToBank .ACT_2 by decide) fun b hb => by cases hnobank.symm.trans hb

/-- An activation that finds the rows it needs keeps those of the banks that wait pre-opened. -/
theorem FindsRows.keepsRows {act : Cmd} (h : FindsRows dev act addrVec) (final : Cmd) :
    KeepsRows dev final act addrVec := by
  have hbank : act = .ACT_2 → ∀ b ∈ (model gen sizes V).addressed dev addrVec,
      b.rows = preOpenRows (addrVec.at row) := by
    rintro rfl b hb
    obtain ⟨ch, path, hnames, hr⟩ := (model gen sizes V).exists_names hb
    obtain ⟨k, g, i, rfl⟩ := path_cases hr
    obtain ⟨hk, hg, hi⟩ := names_at hnames
    exact h.needs ch k g i _ ⟨hnames.1, .inr ⟨hk, .inr ⟨hg, hi⟩⟩⟩ hr
  have hrow : ∀ {b : NodeBase Cmd St Int}, b.rows = preOpenRows (addrVec.at row) ∨
      b.rows = openRows (addrVec.at row) → b.hasRow (addrVec.at row) = true := by
    intro b hb
    rw [← hasRow_rows]
    rcases hb with hb | hb <;> simp [hb, BankRows.hasRow]
  refine ⟨fun hact b hb _ => hrow (.inl (hbank hact b hb)),
    fun hact _ b hb => congrArg Prod.fst (hbank hact b hb), ?_, ?_⟩
  · intro hact node hnode b hb hstate
    obtain ⟨path, hb⟩ := DRAMNode.mem_banks.mp hb
    obtain ⟨c, hc, hchild⟩ := Option.bind_eq_some_iff.mp hnode
    obtain ⟨ch, hch⟩ := (model gen sizes V).exists_channel hc
    split at hchild
    · cases hchild
    · have hk : addrVec.at rank = ((addrVec.at rank).toNat : Nat) := by omega
      match path, DRAMNode.length_of_bankAt hb with
      | [g, i], _ =>
          have hr : (model gen sizes V).rowsAt dev ch [(addrVec.at rank).toNat, g, i] =
              some b.rows := (rowsAt_rank hnode hch hk).trans (by rw [DRAMNode.rowsAt, hb]; rfl)
          have hneeds := h.needs ch _ g i _ ⟨hch, .inr ⟨hk, .inl (by
            rcases hact with rfl | rfl <;> rfl)⟩⟩ hr
          refine hrow ?_
          rcases hact with rfl | rfl
          · refine hneeds.resolve_left fun hclosed => ?_
            cases hstate.symm.trans (congrArg Prod.fst hclosed)
          · exact hneeds
  · rintro rfl c hc
    refine .inr fun b hb => hrow ?_
    obtain ⟨path, hb⟩ := DRAMNode.mem_banks.mp hb
    obtain ⟨ch, hch⟩ := (model gen sizes V).exists_channel hc
    have hr : (model gen sizes V).rowsAt dev ch path = some b.rows := by
      rw [DRAMModel.rowsAt, ← (model gen sizes V).channelOf_eq hch, hc]
      exact congrArg (Option.map NodeBase.rows) hb
    obtain ⟨k, g, i, rfl⟩ := path_cases hr
    exact h.needs ch k g i _ ⟨hch, .inl rfl⟩ hr

/-- The command that a request is scheduled with finds the rows it needs, unless it activates a
bank that is pre-opened with another row. -/
theorem getPreqCommand_finds (hone : OneRowEach dev) (hfinal : IsFinal cmd)
    (hbarrier : cmd ≠ .SYNC ∧ cmd ≠ .EOC)
    (hkeeps : KeepsRows dev cmd ((model gen sizes V).getPreqCommand dev cmd addrVec) addrVec) :
    FindsRows dev ((model gen sizes V).getPreqCommand dev cmd addrVec) addrVec := by
  have hfree : ∀ {c c₁ c₂ : Cmd}, c = c₁ ∨ c = c₂ →
      ((∀ x r, Needs c₁ x r) ∧ c₁ ≠ .ACT8_2 ∧ c₁ ≠ .ACT4_1 ∧ c₁ ≠ .ACT4_2) →
        ((∀ x r, Needs c₂ x r) ∧ c₂ ≠ .ACT8_2 ∧ c₂ ≠ .ACT4_1 ∧ c₂ ≠ .ACT4_2) →
          (∀ x r, Needs c x r) ∧ c ≠ .ACT8_2 ∧ c ≠ .ACT4_1 ∧ c ≠ .ACT4_2 := by
    rintro c c₁ c₂ (rfl | rfl) h₁ h₂
    · exact h₁
    · exact h₂
  cases cmd with
  | RD | WR | RDCP | WRCP | MAC => exact bankAccess_finds hone (by decide) hkeeps
  | MAC8 | AF8 | EWMUL8 => exact rankAccess_finds hone (by decide) hkeeps
  | REFab => exact refresh_finds hone
  | WRGB | WRMAC8 | RDMAC8 | RDAF8 | WRA8 =>
      refine rankSync_finds rfl rfl fun c hc => hfree hc ?_ ?_
      all_goals exact ⟨fun _ _ => trivial, by decide⟩
  | REFpb =>
      refine rankPreq_finds rfl rfl nofun ⟨nofun, nofun⟩ fun node hnode => ?_
      have hpre : FindsRows dev .PRE addrVec := .of_free (fun _ _ => trivial) ⟨nofun, nofun⟩
      have href : FindsRows dev .REFpb addrVec := .of_free (fun _ _ => trivial) ⟨nofun, nofun⟩
      unfold preqPerBank
      dsimp only
      split
      · exact ⟨.PRE, fun _ => rfl, hpre⟩
      · exact ⟨.REFpb, fun _ => rfl, href⟩
  | UNKNOWN => exact undefined_finds hone hkeeps
  | SYNC => exact absurd rfl hbarrier.1
  | EOC => exact absurd rfl hbarrier.2
  | _ =>
      rcases hfinal with ⟨type, h⟩ | ⟨op, h⟩
      · cases type <;> cases h
      · cases op <;> cases h

end

end AimSimulator.Dram.LPDDR
