import AimSimulator.Dram.Shape
import AimSimulator.Dram.GDDR6
import AimSimulator.Dram.LPDDRRows
/-!
# Which requests open a bank

Among the conventional requests only reads and writes lead to a command that opens a bank.
It is the bank they address, and every read or write of that bank leads to the same command.
-/

namespace AimSimulator.Dram

/-! ## The law -/

section

variable {Cmd St Ext : Type} [DecidableEq Cmd]

namespace DRAMModel

def IsAccess (model : DRAMModel Cmd St Ext) (final : Cmd) : Prop :=
  model.requestTranslations .Read = some final ∨ model.requestTranslations .Write = some final

structure OpensBank (model : DRAMModel Cmd St Ext) (count : Nat → Int) : Prop where
  access : ∀ {s}, model.DeviceTiming count s → ∀ {type final addrVec},
    model.requestTranslations type = some final →
      (model.commandMeta (model.getPreqCommand s.dev final addrVec)).isOpening = true →
        model.IsAccess final ∧ ∃ b, model.addressed s.dev addrVec = some b
  shared : ∀ {s}, model.DeviceTiming count s → ∀ {final final' a a'},
    model.IsAccess final → model.IsAccess final' → model.SameBankAddr a a' →
      (model.commandMeta (model.getPreqCommand s.dev final a)).isOpening = true →
        model.getPreqCommand s.dev final' a' = model.getPreqCommand s.dev final a

variable {model : DRAMModel Cmd St Ext} {count : Nat → Int} {s : IssueRun model.Dev Cmd}

/-- The prerequisite of a command that has one at the banks only: what the bank that is
addressed answers, and the command itself without such a bank. -/
theorem DeviceTiming.getPreqCommand_bank (hs : model.DeviceTiming count s) {cmd : Cmd}
    (hnone : ∀ k, 0 < k → model.preqs k cmd = none)
    (hpos : ∀ k, k < model.bankLevel → 0 < count (model.level k)) (addrVec : AddrVec) :
    (∃ b up, model.addressed s.dev addrVec = some b ∧ model.getPreqCommand s.dev cmd addrVec =
      (model.ownPreq up cmd addrVec s.dev.clk (.bank b)).getD model.commandOne) ∨
    (model.addressed s.dev addrVec = none ∧ model.getPreqCommand s.dev cmd addrVec = cmd) := by
  unfold DRAMModel.addressed DRAMModel.getPreqCommand
  cases hc : model.channelOf s.dev addrVec with
  | none => exact .inr ⟨rfl, rfl⟩
  | some c =>
      obtain ⟨history, hn⟩ := hs.channelOf hc
      exact model.getPreqCommand_shaped (fun k hk _ => hnone k hk) hpos [] hn

/-- Where a prerequisite is always registered at some depth, the walk returns the command
itself or what a registered one answers. -/
theorem DeviceTiming.getPreqCommand_answer (hs : model.DeviceTiming count s) (cmd : Cmd)
    (addrVec : AddrVec) (stop : Nat) {P : Cmd → Prop} (hcmd : P cmd)
    (hown : ∀ k up (n : DRAMNode Cmd St Ext k) a,
      model.ownPreq up cmd addrVec s.dev.clk n = some a → P a)
    (hstop : ∀ up (n : DRAMNode Cmd St Ext stop),
      model.ownPreq up cmd addrVec s.dev.clk n ≠ none) (hle : stop ≤ model.bankLevel)
    (hpos : ∀ k, k < model.bankLevel → 0 < count (model.level k)) :
    P (model.getPreqCommand s.dev cmd addrVec) := by
  unfold DRAMModel.getPreqCommand
  cases hc : model.channelOf s.dev addrVec with
  | none => exact hcmd
  | some c =>
      obtain ⟨history, hn⟩ := hs.channelOf hc
      exact DRAMSpec.getPreqCommand_answer model.toDRAMSpec hcmd hown hstop hle hpos [] hn

end DRAMModel

end

/-! ## GDDR6 -/

namespace GDDR6

variable {V : Timing → Int} {count : Nat → Int}

theorem isAccess_cases {final : Cmd} (h : (model V).IsAccess final) :
    final = .RD ∨ final = .WR := by
  rcases h with h | h
  · exact .inl (Option.some.inj h).symm
  · exact .inr (Option.some.inj h).symm

theorem access_preqs {final : Cmd} (h : (model V).IsAccess final) :
    (∀ k, 0 < k → preqs k final = none) ∧ preqs 0 final = some (requireRowOpen final) := by
  rcases isAccess_cases h with rfl | rfl
  all_goals
    refine ⟨fun k hk => ?_, rfl⟩
    match k with
    | 1 | 2 => rfl
    | _ + 3 => rfl

theorem requireRowOpen_answer (cmd : Cmd) (up : List (NodeBase Cmd St Unit))
    (b : NodeBase Cmd St Unit) (addrVec : AddrVec) (clk : Int) :
    (b.state = .Closed ∧ requireRowOpen cmd up (.bank b) addrVec clk = some .ACT) ∨
    (b.state ≠ .Closed ∧ (requireRowOpen cmd up (.bank b) addrVec clk = some cmd ∨
      requireRowOpen cmd up (.bank b) addrVec clk = some .PRE)) := by
  by_cases hclosed : b.state = .Closed
  · exact .inl ⟨hclosed, if_pos hclosed⟩
  · have hopen : requireRowOpen cmd up (.bank b) addrVec clk =
        if b.state = .Opened then
          if b.hasRow (addrVec.at row) then some cmd else some .PRE
        else some cmd := if_neg hclosed
    refine .inr ⟨hclosed, ?_⟩
    rw [hopen]
    generalize b.hasRow (addrVec.at row) = hit
    by_cases hopened : b.state = .Opened
    · rw [if_pos hopened]
      cases hit
      · exact .inr rfl
      · exact .inl rfl
    · exact .inl (if_neg hopened)

theorem access_opening {dev : (model V).Dev} {final : Cmd} (hfinal : (model V).IsAccess final)
    (addrVec : AddrVec) :
    (∃ b, (model V).addressed dev addrVec = some b ∧ b.state = .Closed ∧
      (model V).getPreqCommand dev final addrVec = .ACT) ∨
    (∀ b, (model V).addressed dev addrVec = some b → b.state ≠ .Closed) ∧
      (commandMeta ((model V).getPreqCommand dev final addrVec)).isOpening = false := by
  obtain ⟨hnone, hbank⟩ := access_preqs hfinal
  have hplain : (commandMeta final).isOpening = false := by
    rcases isAccess_cases hfinal with rfl | rfl <;> rfl
  rcases (model V).getPreqCommand_bank hnone dev addrVec with
    ⟨b, up, hb, hpreq⟩ | ⟨hb, hpreq | hpreq⟩
  · rw [hpreq, hb, DRAMSpec.ownPreq, show (model V).preqs 0 final = _ from hbank]
    dsimp only
    rcases requireRowOpen_answer final up b addrVec dev.clk with
      ⟨hclosed, heq⟩ | ⟨hclosed, heq | heq⟩ <;> rw [heq]
    · exact .inl ⟨b, rfl, hclosed, rfl⟩
    · exact .inr ⟨fun b' hb' => Option.some.inj hb' ▸ hclosed, hplain⟩
    · exact .inr ⟨fun b' hb' => Option.some.inj hb' ▸ hclosed, rfl⟩
  · rw [hpreq, hb]
    exact .inr ⟨fun _ hb => (by cases hb), hplain⟩
  · rw [hpreq, hb]
    exact .inr ⟨fun _ hb => (by cases hb), rfl⟩

theorem length_paths : ((model V).paths count (model V).bankLevel).length =
    (count bankgroup).toNat * (count bank).toNat := by
  rw [show (model V).bankLevel = 1 + 1 from rfl, DRAMSpec.length_paths_succ,
    DRAMSpec.length_paths_succ]
  exact congrArg _ (Nat.mul_one _)

theorem opensBank (V : Timing → Int) (count : Nat → Int) : (model V).OpensBank count := by
  constructor
  · intro s hs type final addrVec hfinal hopen
    have haccess : (model V).IsAccess final →
        (model V).IsAccess final ∧ ∃ b, (model V).addressed s.dev addrVec = some b := by
      intro h
      rcases access_opening h addrVec with ⟨b, hb, -, -⟩ | ⟨-, hclosed⟩
      · exact ⟨h, b, hb⟩
      · exact absurd hopen (hclosed ▸ Bool.false_ne_true)
    cases type with
    | Read => exact haccess (.inl hfinal)
    | Write => exact haccess (.inr hfinal)
    | RefAllBank =>
        obtain rfl := (Option.some.inj hfinal).symm
        have hplain : (commandMeta ((model V).getPreqCommand s.dev .REFab addrVec)).isOpening =
            false := by
          refine (model V).getPreqCommand_induct
            (P := fun cmd => (commandMeta cmd).isOpening = false) rfl rfl fun k up n a ha => ?_
          match k with
          | 2 =>
              have ha : Preq.RequireAllBanksClosed St.Closed Cmd.PREA .REFab up n addrVec
                s.dev.clk = some a := ha
              unfold Preq.RequireAllBanksClosed at ha
              split at ha <;> obtain rfl := Option.some.inj ha <;> rfl
          | 0 | 1 | _ + 3 => cases ha
        exact absurd hopen (hplain ▸ Bool.false_ne_true)
    | RefSingleBank =>
        obtain rfl := (Option.some.inj hfinal).symm
        have hplain : (commandMeta ((model V).getPreqCommand s.dev .PRE addrVec)).isOpening =
            false := by
          refine (model V).getPreqCommand_induct
            (P := fun cmd => (commandMeta cmd).isOpening = false) rfl rfl fun k up n a ha => ?_
          match k with
          | 0 | 1 | 2 | _ + 3 => cases ha
        exact absurd hopen (hplain ▸ Bool.false_ne_true)
    | AIM | MAX => cases hfinal
  · intro s _ final final' a a' hfinal hfinal' hsame hopen
    rcases access_opening hfinal a with ⟨b, hb, hclosed, hact⟩ | ⟨-, hclosed⟩
    · rcases access_opening hfinal' a' with ⟨_, -, -, hact'⟩ | ⟨hopened, -⟩
      · rw [hact, hact']
      · exact absurd hclosed (hopened b (hsame.addressed s.dev ▸ hb))
    · exact absurd hopen (hclosed ▸ Bool.false_ne_true)

end GDDR6

/-! ## LPDDR4 and LPDDR5 -/

namespace LPDDR

variable {gen : Generation} {sizes : Nat → Int} {V : Timing → Int} {count : Nat → Int}
  {s : IssueRun (model gen sizes V).Dev Cmd}

theorem isAccess_cases {final : Cmd} (h : (model gen sizes V).IsAccess final) :
    ∃ casOp, (final = .RD ∧ casOp = .CASRD ∨ final = .WR ∧ casOp = .CASWR) ∧
      (∀ k, 0 < k → (model gen sizes V).preqs k final = none) ∧
        (model gen sizes V).preqs 0 final = some (preqBankActSync final casOp) := by
  have hcases : final = .RD ∨ final = .WR := h.imp (fun h => (Option.some.inj h).symm)
    fun h => (Option.some.inj h).symm
  rcases hcases with rfl | rfl
  · refine ⟨.CASRD, .inl ⟨rfl, rfl⟩, fun k hk => ?_, rfl⟩
    match k with
    | 1 | 2 => rfl
    | _ + 3 => rfl
  · refine ⟨.CASWR, .inr ⟨rfl, rfl⟩, fun k hk => ?_, rfl⟩
    match k with
    | 1 | 2 => rfl
    | _ + 3 => rfl

theorem access_opening (hs : (model gen sizes V).DeviceTiming count s)
    (hpos : ∀ k, k < 3 → 0 < count ((model gen sizes V).level k)) {final : Cmd}
    (hfinal : (model gen sizes V).IsAccess final) (addrVec : AddrVec) :
    (∃ b, (model gen sizes V).addressed s.dev addrVec = some b ∧ b.state = .PreOpened ∧
      (model gen sizes V).getPreqCommand s.dev final addrVec = .ACT_2) ∨
    (∀ b, (model gen sizes V).addressed s.dev addrVec = some b → b.state ≠ .PreOpened) ∧
      (commandMeta ((model gen sizes V).getPreqCommand s.dev final addrVec)).isOpening = false := by
  obtain ⟨casOp, hop, hnone, hbank⟩ := isAccess_cases hfinal
  have hplain : (commandMeta final).isOpening = false ∧ (commandMeta casOp).isOpening = false := by
    rcases hop with ⟨rfl, rfl⟩ | ⟨rfl, rfl⟩ <;> exact ⟨rfl, rfl⟩
  rcases hs.getPreqCommand_bank hnone hpos addrVec with ⟨b, up, hb, hpreq⟩ | ⟨hb, hpreq⟩
  · rw [hpreq, hb, DRAMSpec.ownPreq, hbank]
    dsimp only [preqBankActSync]
    rcases preqBankAct_answer _ up b addrVec s.dev.clk with ⟨hstate, heq⟩ | ⟨hstate, a, heq, ha⟩
    · rw [heq]
      exact .inl ⟨b, rfl, hstate, rfl⟩
    · rw [heq]
      refine .inr ⟨fun b' hb' => Option.some.inj hb' ▸ hstate, ?_⟩
      rcases ha with rfl | rfl | rfl
      · rfl
      · rfl
      · dsimp only [Option.getD_some]
        split
        · exact hplain.2
        · exact hplain.1
  · rw [hpreq, hb]
    exact .inr ⟨fun _ hb => (by cases hb), hplain.1⟩

theorem length_paths : ((model gen sizes V).paths count (model gen sizes V).bankLevel).length =
    (count rank).toNat * ((count bankgroup).toNat * (count bank).toNat) := by
  rw [show (model gen sizes V).bankLevel = 2 + 1 from rfl, DRAMSpec.length_paths_succ,
    DRAMSpec.length_paths_succ, DRAMSpec.length_paths_succ]
  exact congrArg _ (congrArg _ (Nat.mul_one _))

theorem opensBank (hpos : ∀ k, k < 3 → 0 < count ((model gen sizes V).level k)) :
    (model gen sizes V).OpensBank count := by
  constructor
  · intro s hs type final addrVec hfinal hopen
    -- a refresh never leads to an opening command
    have hrefresh : ∀ {cmd : Cmd} {preq : PreqFunc Cmd St Int 2},
        (commandMeta cmd).isOpening = false → (model gen sizes V).preqs 2 cmd = some preq →
          (∀ k, k ≠ 2 → (model gen sizes V).preqs k cmd = none) →
          (∀ up n, ∃ a, preq up n addrVec s.dev.clk = some a ∧ (a = cmd ∨ a = .PREA ∨ a = .PRE)) →
            (commandMeta ((model gen sizes V).getPreqCommand s.dev cmd addrVec)).isOpening =
              false := by
      intro cmd preq hcmd hpreq hnone hanswer
      refine hs.getPreqCommand_answer cmd addrVec 2
        (P := fun cmd => (commandMeta cmd).isOpening = false) hcmd ?_ ?_ (Nat.le_succ 2) hpos
      · intro k up n a ha
        by_cases hk : k = 2
        · subst hk
          rw [DRAMSpec.ownPreq, hpreq] at ha
          obtain ⟨x, hx, hcases⟩ := hanswer up n
          obtain rfl := Option.some.inj (hx.symm.trans ha)
          rcases hcases with rfl | rfl | rfl
          · exact hcmd
          · rfl
          · rfl
        · rw [DRAMSpec.ownPreq, hnone k hk] at ha
          cases ha
      · intro up n hnil
        rw [DRAMSpec.ownPreq, hpreq] at hnil
        obtain ⟨x, hx, -⟩ := hanswer up n
        cases hx.symm.trans hnil
    cases type with
    | Read =>
        rcases access_opening hs hpos (.inl hfinal) addrVec with ⟨b, hb, -, -⟩ | ⟨-, hclosed⟩
        · exact ⟨.inl hfinal, b, hb⟩
        · exact absurd hopen (hclosed ▸ Bool.false_ne_true)
    | Write =>
        rcases access_opening hs hpos (.inr hfinal) addrVec with ⟨b, hb, -, -⟩ | ⟨-, hclosed⟩
        · exact ⟨.inr hfinal, b, hb⟩
        · exact absurd hopen (hclosed ▸ Bool.false_ne_true)
    | RefAllBank =>
        obtain rfl := (Option.some.inj hfinal).symm
        refine absurd hopen (@hrefresh .REFab _ rfl rfl ?_ ?_ ▸ Bool.false_ne_true)
        · intro k hk
          rcases k with _ | _ | _ | k
          · rfl
          · rfl
          · exact absurd rfl hk
          · rfl
        · intro up n
          unfold Preq.RequireAllBanksClosed
          split
          · exact ⟨_, rfl, .inl rfl⟩
          · exact ⟨_, rfl, .inr (.inl rfl)⟩
    | RefSingleBank =>
        obtain rfl := (Option.some.inj hfinal).symm
        refine absurd hopen (@hrefresh .REFpb _ rfl rfl ?_ ?_ ▸ Bool.false_ne_true)
        · intro k hk
          rcases k with _ | _ | _ | k
          · rfl
          · rfl
          · exact absurd rfl hk
          · rfl
        · intro up n
          unfold preqPerBank
          dsimp only
          split
          · exact ⟨_, rfl, .inr (.inr rfl)⟩
          · exact ⟨_, rfl, .inl rfl⟩
    | AIM | MAX => cases hfinal
  · intro s hs final final' a a' hfinal hfinal' hsame hopen
    rcases access_opening hs hpos hfinal a with ⟨b, hb, hstate, hact⟩ | ⟨-, hplain⟩
    · rcases access_opening hs hpos hfinal' a' with ⟨_, -, -, hact'⟩ | ⟨hother, -⟩
      · rw [hact, hact']
      · exact absurd hstate (hother b (hsame.addressed s.dev ▸ hb))
    · exact absurd hopen (hplain ▸ Bool.false_ne_true)

end LPDDR

end AimSimulator.Dram
