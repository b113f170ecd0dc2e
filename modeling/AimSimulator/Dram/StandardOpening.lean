import Mathlib.Algebra.Group.Nat.Defs
import AimSimulator.Dram.Opening
import AimSimulator.Dram.Standard
/-!
# Which requests open a bank of a standard device

Reads and writes do, and those of one closed bank do it with one command.  Refreshes lead to
precharges alone.
-/

namespace AimSimulator.Dram.Standard

variable {impl : Impl} {aim : AimLookups} {count : Nat → Int} {V : Timing → Int}

theorem isAccess_cases {final : Cmd} (h : (model impl aim count V).IsAccess final) :
    final = .RD ∨ final = .WR := by
  rcases h with h | h
  · have h : requestTranslations impl .Read = some final := h
    rw [show requestTranslations impl .Read = some .RD by cases impl <;> rfl] at h
    exact .inl (Option.some.inj h).symm
  · have h : requestTranslations impl .Write = some final := h
    rw [show requestTranslations impl .Write = some .WR by cases impl <;> rfl] at h
    exact .inr (Option.some.inj h).symm

variable (impl) in
theorem access_preqs {final : Cmd} (h : final = .RD ∨ final = .WR) :
    (∀ k, 0 < k → preqs impl k final = none) ∧ preqs impl 0 final =
      some (Preq.Bank.RequireRowOpen (bank impl + 1) .Closed .Opened .ACT .PRE final) := by
  rcases h with rfl | rfl
  all_goals
    refine ⟨fun k hk => ?_, rfl⟩
    obtain ⟨k, rfl⟩ := Nat.exists_eq_succ_of_ne_zero (Nat.ne_of_gt hk)
    rfl

theorem requireRowOpen_answer (cmd : Cmd) (up : List (NodeBase Cmd St Unit))
    (b : NodeBase Cmd St Unit) (row : Nat) (addrVec : AddrVec) (clk : Int) :
    ∃ a, Preq.Bank.RequireRowOpen row St.Closed .Opened Cmd.ACT .PRE cmd up (.bank b) addrVec clk =
      some a ∧ (b.state = .Closed ∧ a = .ACT ∨ b.state ≠ .Closed ∧ (a = cmd ∨ a = .PRE)) := by
  unfold Preq.Bank.RequireRowOpen
  rw [DRAMNode.base_bank]
  split
  · next hclosed => exact ⟨_, rfl, .inl ⟨hclosed, rfl⟩⟩
  · next hclosed =>
      split
      · split
        · exact ⟨_, rfl, .inr ⟨hclosed, .inl rfl⟩⟩
        · exact ⟨_, rfl, .inr ⟨hclosed, .inr rfl⟩⟩
      · exact ⟨_, rfl, .inr ⟨hclosed, .inl rfl⟩⟩

theorem access_opening {dev : (model impl aim count V).Dev} {final : Cmd}
    (hfinal : final = .RD ∨ final = .WR) (addrVec : AddrVec) :
    (∃ b, (model impl aim count V).addressed dev addrVec = some b ∧ b.state = .Closed ∧
      (model impl aim count V).getPreqCommand dev final addrVec = .ACT) ∨
    (∀ b, (model impl aim count V).addressed dev addrVec = some b → b.state ≠ .Closed) ∧
      (commandMeta ((model impl aim count V).getPreqCommand dev final addrVec)).isOpening =
        false := by
  obtain ⟨hnone, hbank⟩ := access_preqs impl hfinal
  have hplain : (commandMeta final).isOpening = false := by
    rcases hfinal with rfl | rfl <;> rfl
  rcases (model impl aim count V).getPreqCommand_bank hnone dev addrVec with
    ⟨b, up, hb, hpreq⟩ | ⟨hb, hpreq | hpreq⟩
  · rw [hpreq, hb, DRAMSpec.ownPreq, show (model impl aim count V).preqs 0 final = _ from hbank]
    obtain ⟨a, ha, hcases⟩ := requireRowOpen_answer final up b (bank impl + 1) addrVec dev.clk
    dsimp only
    rw [ha]
    rcases hcases with ⟨hclosed, rfl⟩ | ⟨hclosed, rfl | rfl⟩
    · exact .inl ⟨b, rfl, hclosed, rfl⟩
    · exact .inr ⟨fun b' hb' => Option.some.inj hb' ▸ hclosed, hplain⟩
    · exact .inr ⟨fun b' hb' => Option.some.inj hb' ▸ hclosed, rfl⟩
  · rw [hpreq, hb]
    exact .inr ⟨fun _ hb => (by cases hb), hplain⟩
  · rw [hpreq, hb]
    exact .inr ⟨fun _ hb => (by cases hb), rfl⟩

theorem other_not_opening {dev : (model impl aim count V).Dev} {final : Cmd}
    (hfinal : final ≠ .RD ∧ final ≠ .WR) (hplain : (commandMeta final).isOpening = false)
    (addrVec : AddrVec) :
    (commandMeta ((model impl aim count V).getPreqCommand dev final addrVec)).isOpening =
      false := by
  refine (model impl aim count V).getPreqCommand_induct
    (P := fun cmd => (commandMeta cmd).isOpening = false) hplain rfl fun k up n a ha => ?_
  unfold DRAMSpec.ownPreq at ha
  split at ha
  · next preq hpreq =>
      have hpreq : preqs impl k final = some preq := hpreq
      have hclosed : ∀ cmd, (commandMeta cmd).isOpening = false →
          Preq.Bank.RequireBankClosed St.Closed .Opened Cmd.PRE cmd up
            (DRAMNode.bank n.base : DRAMNode Cmd St Unit 0) addrVec dev.clk = some a →
          (commandMeta a).isOpening = false := by
        intro cmd hcmd ha
        unfold Preq.Bank.RequireBankClosed at ha
        split at ha
        · exact Option.some.inj ha ▸ hcmd
        · split at ha
          · exact Option.some.inj ha ▸ rfl
          · exact Option.some.inj ha ▸ hcmd
      cases k with
      | zero =>
          cases final with
          | RD => exact absurd rfl hfinal.1
          | WR => exact absurd rfl hfinal.2
          | VRR | REFsb =>
              obtain rfl := Option.some.inj hpreq
              exact hclosed _ rfl ha
          | _ => cases hpreq
      | succ k =>
          cases final with
          | REFab =>
              have hpreq : (if k + 1 = groupDepth impl then
                some (Preq.RequireAllBanksClosed St.Closed Cmd.PREA .REFab) else none) =
                  some preq := hpreq
              split at hpreq
              · obtain rfl := Option.some.inj hpreq
                unfold Preq.RequireAllBanksClosed at ha
                split at ha <;> exact Option.some.inj ha ▸ rfl
              · cases hpreq
          | _ => cases hpreq
  · cases ha

theorem opensBank : (model impl aim count V).OpensBank count := by
  constructor
  · intro s hs type final addrVec hfinal hopen
    have hcases : ∀ impl type final, requestTranslations impl type = some final →
        (type = .Read ∨ type = .Write) ∧ (final = .RD ∨ final = .WR) ∨
          (final ≠ .RD ∧ final ≠ .WR) ∧ (commandMeta final).isOpening = false := by
      intro impl type
      cases impl <;> cases type <;> rintro final ⟨⟩ <;> decide
    rcases hcases impl type final hfinal with ⟨htype, haccess⟩ | ⟨hother, hplain⟩
    · rcases access_opening haccess addrVec with ⟨b, hb, -, -⟩ | ⟨-, hclosed⟩
      · refine ⟨?_, b, hb⟩
        rcases htype with rfl | rfl
        · exact .inl hfinal
        · exact .inr hfinal
      · exact absurd hopen (hclosed ▸ Bool.false_ne_true)
    · exact absurd hopen (other_not_opening hother hplain addrVec ▸ Bool.false_ne_true)
  · intro s _ final final' a a' hfinal hfinal' hsame hopen
    rcases access_opening (isAccess_cases hfinal) a with ⟨b, hb, hclosed, hact⟩ | ⟨-, hclosed⟩
    · rcases access_opening (isAccess_cases hfinal') a' with ⟨_, -, -, hact'⟩ | ⟨hopened, -⟩
      · rw [hact, hact']
      · exact absurd hclosed (hopened b (hsame.addressed s.dev ▸ hb))
    · exact absurd hopen (hclosed ▸ Bool.false_ne_true)

def banksPerChannel (impl : Impl) (count : Nat → Int) : Nat :=
  ((List.range' 1 (bank impl)).map fun level => (count level).toNat).prod

theorem length_paths : ((model impl aim count V).paths count (bank impl)).length =
    banksPerChannel impl count := by
  have hpaths : ∀ d, d ≤ bank impl →
      ((model impl aim count V).paths count d).length =
        ((List.range' (bank impl - d + 1) d).map fun level => (count level).toNat).prod := by
    intro d
    induction d with
    | zero => exact fun _ => rfl
    | succ d ih =>
        intro hd
        have hlevel : (model impl aim count V).level d = bank impl - (d + 1) + 1 := by
          show bank impl - d = _
          omega
        rw [DRAMSpec.length_paths_succ, ih (by omega), hlevel, List.range'_succ, List.map_cons,
          List.prod_cons, show bank impl - d + 1 = bank impl - (d + 1) + 1 + 1 by omega]
  have hall := hpaths (bank impl) (Nat.le_refl _)
  rw [Nat.sub_self] at hall
  exact hall

end AimSimulator.Dram.Standard
