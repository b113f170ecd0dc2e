import AimSimulator.AddrMapper.LinearMappers
import AimSimulator.Plugin.RowPairs
/-!
# The row swaps of several channels

`addr_mapper/impl/rit.cpp` with one `RRS` for each controller.  The mapper has one table of
indirection tables, indexed by the flattened rank and bank; the controllers all share it.
-/

namespace AimSimulator.Plugin

open AddrMapper Pairing

structure SwapConfig where
  params : RRSParams
  levels : Levels
  numBanks : Nat
  numRows : Nat

structure RRSPlugin where
  clk : Nat := 0
  hotRowTracker : Nat → HRT := fun _ => ∅
  spilloverCounter : Nat → Nat := fun _ => 0

/-- The plugins of all channels and `m_row_indirection_table`.  `init_rit` adds the tables of
`numBanks` banks for each controller; no flattened bank id reaches more than the first ones. -/
structure SwapSystem where
  rowIndirectionTable : Nat → RIT := fun _ => ∅
  plugins : Nat → RRSPlugin := fun _ => {}

/-- A call of `update` of the plugin of a channel. -/
structure SwapOp where
  channel : Nat
  request : Option Issued
  choices : Choices := {}

namespace SwapSystem

variable (cfg : SwapConfig)

def bank (s : SwapSystem) (channel flatBankId : Nat) : RRS where
  clk := (s.plugins channel).clk
  hotRowTracker := (s.plugins channel).hotRowTracker flatBankId
  spilloverCounter := (s.plugins channel).spilloverCounter flatBankId
  rit := s.rowIndirectionTable flatBankId

def setBanks (s : SwapSystem) (channel : Nat) (banks : Nat → RRS) : SwapSystem where
  rowIndirectionTable flatBankId := (banks flatBankId).rit
  plugins := Function.update s.plugins channel
    { clk := (s.plugins channel).clk + 1
      hotRowTracker := fun flatBankId => (banks flatBankId).hotRowTracker
      spilloverCounter := fun flatBankId => (banks flatBankId).spilloverCounter }

/-- `RRS::update` of the plugin of a channel; `none` is an index outside a table or what it is
for one bank. -/
def update (s : SwapSystem) (op : SwapOp) : Option SwapSystem :=
  let idle flatBankId := (s.bank op.channel flatBankId).advance cfg.params
  match cfg.levels.activation op.request with
  | none => some (s.setBanks op.channel idle)
  | some addrVec =>
      let flatBankId := cfg.levels.flatBankId addrVec
      let row := addrVec.at cfg.levels.row
      if 0 ≤ flatBankId ∧ flatBankId < cfg.numBanks ∧ 0 ≤ row then
        ((s.bank op.channel flatBankId.toNat).update cfg.params (some row.toNat) op.choices).map
          fun after => s.setBanks op.channel (Function.update idle flatBankId.toNat after)
      else none

def applyIndirection (s : SwapSystem) (addrVec : AddrVec) : AddrVec :=
  let srcRow := addrVec.at cfg.levels.row
  if srcRow < 0 then addrVec
  else
    match (s.rowIndirectionTable (cfg.levels.flatBankId addrVec).toNat).check srcRow.toNat with
    | some dstRow => addrVec.set cfg.levels.row dstRow
    | none => addrVec

/-- `apply` of the mappers with an indirection table. -/
def apply (s : SwapSystem) (m : LinearMapperBase) (mapper : LinearMapper) (req : Request) :
    Request :=
  { mapper.apply m req with addrVec := s.applyIndirection cfg (mapper.apply m req).addrVec }

/-! ## Tables of pairs -/

def bankOp (cfg : SwapConfig) (op : SwapOp) (flatBankId : Nat) : Option Nat × Choices :=
  ((cfg.levels.activation op.request).bind fun addrVec =>
    if (cfg.levels.flatBankId addrVec).toNat = flatBankId then some (addrVec.at cfg.levels.row).toNat
    else none, op.choices)

/-- The calls of the controllers: an activation is in the bank of a device, and the generator
gives numbers up to the number of rows. -/
def OfDevice (cfg : SwapConfig) (op : SwapOp) : Prop :=
  (∀ addrVec ∈ cfg.levels.activation op.request,
    0 ≤ cfg.levels.flatBankId addrVec ∧ cfg.levels.flatBankId addrVec < cfg.numBanks ∧
      0 ≤ addrVec.at cfg.levels.row ∧ addrVec.at cfg.levels.row < cfg.numRows) ∧
  ∀ draw ∈ op.choices.draws, draw ≤ cfg.numRows

instance (op : SwapOp) : Decidable (OfDevice cfg op) :=
  inferInstanceAs (Decidable ((∀ addrVec ∈ cfg.levels.activation op.request,
    _ ≤ _ ∧ _ < _ ∧ _ ≤ _ ∧ _ < _) ∧ ∀ draw ∈ op.choices.draws, _ ≤ _))

def DrawsRows (cfg : SwapConfig) (s : SwapSystem) (op : SwapOp) : Prop :=
  ∀ flatBankId,
    ((s.bank op.channel flatBankId).drawn cfg.params (bankOp cfg op flatBankId)).Nodup ∧
      ∀ row ∈ (s.bank op.channel flatBankId).drawn cfg.params (bankOp cfg op flatBankId),
        row < cfg.numRows

variable {cfg} {s s' : SwapSystem} {op : SwapOp}

theorem update_bank (h : s.update cfg op = some s') (flatBankId : Nat) :
    ∃ after, (s.bank op.channel flatBankId).update cfg.params (bankOp cfg op flatBankId).1
      (bankOp cfg op flatBankId).2 = some after ∧
      s'.rowIndirectionTable flatBankId = after.rit := by
  unfold update at h
  unfold bankOp
  dsimp only at h ⊢
  cases hact : cfg.levels.activation op.request with
  | none =>
      rw [hact] at h
      obtain rfl := Option.some.inj h
      exact ⟨_, rfl, rfl⟩
  | some addrVec =>
      rw [hact] at h
      dsimp only at h
      rw [Option.bind_some]
      split at h
      · obtain ⟨after, hafter, rfl⟩ := Option.map_eq_some_iff.mp h
        by_cases hbank : (cfg.levels.flatBankId addrVec).toNat = flatBankId
        · subst hbank
          rw [if_pos rfl]
          exact ⟨after, hafter, congrArg RRS.rit (Function.update_self _ _ _)⟩
        · rw [if_neg hbank]
          exact ⟨_, rfl, congrArg RRS.rit (Function.update_of_ne (Ne.symm hbank) _ _)⟩
      · cases h

theorem bankOp_row (hop : OfDevice cfg op) {flatBankId row : Nat}
    (h : (bankOp cfg op flatBankId).1 = some row) : row < cfg.numRows := by
  obtain ⟨addrVec, hact, hrow⟩ := Option.bind_eq_some_iff.mp h
  obtain ⟨-, -, hpos, hlt⟩ := hop.1 addrVec hact
  split at hrow
  · obtain rfl := Option.some.inj hrow
    omega
  · cases hrow

theorem drawn_of_ne {addrVec : AddrVec} (hact : cfg.levels.activation op.request = some addrVec)
    {b : Nat} (hb : (cfg.levels.flatBankId addrVec).toNat ≠ b) :
    (s.bank op.channel b).drawn cfg.params (bankOp cfg op b) = [] := by
  rw [bankOp, hact, Option.bind_some, if_neg hb]
  rfl

theorem DrawsRows.of_activation (addrVec : AddrVec)
    (hact : cfg.levels.activation op.request = some addrVec)
    (h : ((s.bank op.channel (cfg.levels.flatBankId addrVec).toNat).drawn cfg.params
        (bankOp cfg op (cfg.levels.flatBankId addrVec).toNat)).Nodup ∧
      ∀ row ∈ (s.bank op.channel (cfg.levels.flatBankId addrVec).toNat).drawn cfg.params
        (bankOp cfg op (cfg.levels.flatBankId addrVec).toNat), row < cfg.numRows) :
    DrawsRows cfg s op := by
  intro b
  by_cases hb : (cfg.levels.flatBankId addrVec).toNat = b
  · exact hb ▸ h
  · rw [drawn_of_ne hact hb]
    exact ⟨List.nodup_nil, nofun⟩

abbrev Run (cfg : SwapConfig) (guard : SwapSystem → SwapOp → Prop) : SwapSystem → Prop :=
  Runs.Reachable (Eq {}) (fun s op s' => s.update cfg op = some s')
    fun s op => OfDevice cfg op ∧ guard s op

theorem Run.within (h : Run cfg (DrawsRows cfg) s) (flatBankId : Nat) :
    Within cfg.numRows (s.rowIndirectionTable flatBankId).check := by
  refine h.invariant (I := fun s : SwapSystem =>
    ∀ b, Within cfg.numRows (s.rowIndirectionTable b).check) ?_ ?_ flatBankId
  · rintro s rfl b
    have hnone : ∀ row, (∅ : RIT).check row = none := fun row => by
      rw [RIT.check, AList.lookup_empty]
      rfl
    refine ⟨fun x y hxy => ?_, fun x y hxy => ?_⟩
    · cases (hnone x).symm.trans hxy
    · cases (hnone x).symm.trans hxy
  · rintro s op s' hs ⟨hop, hdraws⟩ hupdate b
    obtain ⟨after, hafter, htable⟩ := update_bank hupdate b
    rw [htable]
    exact RRS.update_within (hs b) (fun row hrow => bankOp_row hop hrow) hafter (hdraws b).1
      (hdraws b).2

/-- While the rows drawn for a bank are different rows of it, the table of each bank is a
permutation of its rows made of pairs, and a call keeps it so exactly when its draws are such. -/
theorem rit_involution (h : Run cfg (DrawsRows cfg) s) :
    (∀ b, PermutesRows cfg.numRows (s.rowIndirectionTable b).check) ∧
    ∀ op s', OfDevice cfg op → s.update cfg op = some s' →
      ((∀ b, PermutesRows cfg.numRows (s'.rowIndirectionTable b).check) ↔ DrawsRows cfg s op) := by
  refine ⟨fun b => (h.within b).permutesRows, fun op s' hop hupdate => ?_⟩
  refine forall_congr' fun b => ?_
  obtain ⟨after, hafter, htable⟩ := update_bank hupdate b
  rw [htable]
  exact RRS.update_permutesRows_iff (h.within b) (fun row hrow => bankOp_row hop hrow) hafter

/-! ## Two channels -/

/-- Two channels of `DDR4` with 16 banks of 16 rows, where every activation swaps. -/
def small : SwapConfig where
  params := ⟨4, 8, 1, 1000⟩
  levels := ⟨1, 3, 4, [2, 1, 4, 4, 16, 1024]⟩
  numBanks := 16
  numRows := 16

/-- Row 5 of the first bank of the first channel is activated. -/
def activateRow5 (draws : List Nat) : SwapOp where
  channel := 0
  request := some ⟨true, 4, [0, 0, 0, 0, 5, 0]⟩
  choices := { draws }

/-- Row 5 is swapped with row 9. -/
theorem rit_involution_row9 :
    ∃ s, (SwapSystem.update small {} (activateRow5 [9]) = some s) ∧
      ((s.rowIndirectionTable 0).check 5 = some 9) ∧
      ∀ b, PermutesRows 16 (s.rowIndirectionTable b).check := by
  have hrun : ((SwapSystem.update small {} (activateRow5 [9])).any fun s =>
      decide ((s.rowIndirectionTable 0).check 5 = some 9)) = true := by decide +kernel
  obtain ⟨s, hs, htest⟩ := Option.any_eq_true _ _ |>.mp hrun
  have hdraws : DrawsRows small {} (activateRow5 [9]) :=
    .of_activation [0, 0, 0, 0, 5, 0] rfl (by decide +kernel)
  have hreached : Run small (DrawsRows small) s := .next (.start rfl) ⟨by decide, hdraws⟩ hs
  exact ⟨s, hs, of_decide_eq_true htest, (rit_involution hreached).1⟩

/-- The generator gives 16, which is no row of the bank; or row 5 is swapped again and the
generator gives row 1 for both rows of its pair. -/
theorem rit_not_involution :
    (∃ s, Run small (fun _ _ => True) s ∧ (s.rowIndirectionTable 0).check 5 = some 16 ∧
      ¬ PermutesRows 16 (s.rowIndirectionTable 0).check) ∧
    ∃ s, Run small (fun _ _ => True) s ∧ (s.rowIndirectionTable 0).check 5 = some 1 ∧
      (s.rowIndirectionTable 0).check 1 = some 9 ∧
      ¬ PermutesRows 16 (s.rowIndirectionTable 0).check := by
  have hreach : ∀ {s : SwapSystem} (ops : List SwapOp),
      Runs.replay (SwapSystem.update small) (fun _ op => decide (OfDevice small op)) {} ops = some s →
        Run small (fun _ _ => True) s := fun ops hs =>
    Runs.replay_reachable (fun _ _ h => ⟨of_decide_eq_true h, trivial⟩) (.start rfl) hs
  constructor
  · have hrun : ((Runs.replay (SwapSystem.update small) (fun _ op => decide (OfDevice small op)) {}
        [activateRow5 [16]]).any fun s =>
          decide ((s.rowIndirectionTable 0).check 5 = some 16)) = true := by decide +kernel
    obtain ⟨s, hs, htest⟩ := Option.any_eq_true _ _ |>.mp hrun
    have hfive := of_decide_eq_true htest
    exact ⟨s, hreach _ hs, hfive, fun h => absurd (h.lt (by decide) hfive) (by decide)⟩
  · have hrun : ((Runs.replay (SwapSystem.update small) (fun _ op => decide (OfDevice small op)) {}
        [activateRow5 [9], activateRow5 [1, 1]]).any fun s =>
          decide ((s.rowIndirectionTable 0).check 5 = some 1) &&
            decide ((s.rowIndirectionTable 0).check 1 = some 9)) = true := by decide +kernel
    obtain ⟨s, hs, htest⟩ := Option.any_eq_true _ _ |>.mp hrun
    obtain ⟨hfive, hone⟩ := Bool.and_eq_true_iff.mp htest
    have hfive := of_decide_eq_true hfive
    have hone := of_decide_eq_true hone
    refine ⟨s, hreach _ hs, hfive, hone, fun h => ?_⟩
    have hpartner := (h.1 5 1 hfive).2
    rw [hone] at hpartner
    cases hpartner

end SwapSystem

end AimSimulator.Plugin
