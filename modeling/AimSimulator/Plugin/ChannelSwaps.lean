import Mathlib.Tactic.Tauto
import AimSimulator.Plugin.SharedTable
/-!
# Swaps and the addresses of other channels

The indirection tables are indexed by rank and bank only, so that a swap in one channel sends
the rows of the same bank of every other channel elsewhere, too.
-/

namespace AimSimulator.Plugin

open AddrMapper LinearMapperBase

theorem Levels.flatBankId_congr {lv : Levels} (hlevels : lv.rank ≤ lv.bank) {v w : AddrVec}
    (h : ∀ l, lv.rank ≤ l → l ≤ lv.bank → v.at l = w.at l) : lv.flatBankId v = lv.flatBankId w := by
  unfold flatBankId
  rw [h lv.bank hlevels (Nat.le_refl _)]
  have hmem : ∀ l ∈ (List.range' lv.rank (lv.bank - lv.rank)).reverse, v.at l = w.at l := by
    intro l hl
    obtain ⟨hle, hlt⟩ := List.mem_range'_1.mp (List.mem_reverse.mp hl)
    exact h l hle (by omega)
  generalize (List.range' lv.rank (lv.bank - lv.rank)).reverse = levels at hmem
  generalize (w.at lv.bank, (1 : Int)) = start
  induction levels generalizing start with
  | nil => rfl
  | cons l levels ih =>
      rw [List.foldl_cons, List.foldl_cons, hmem l List.mem_cons_self]
      exact ih (fun l hl => hmem l (List.mem_cons_of_mem _ hl)) _

namespace SwapSystem

/-- A device with several channels whose sizes are powers of two. -/
structure Regular (cfg : SwapConfig) (internalPrefetchSize : Nat) : Prop where
  powers : PowersOfTwo cfg.levels.count cfg.levels.row internalPrefetchSize
  rank : 0 < cfg.levels.rank
  bank : cfg.levels.rank ≤ cfg.levels.bank
  row : cfg.levels.bank < cfg.levels.row
  channels : 2 ≤ cfg.levels.count.getD 0 0

/-- The address of an activation is in the device, whatever its column. -/
def InDevice (cfg : SwapConfig) (op : SwapOp) : Prop :=
  ∀ addrVec ∈ cfg.levels.activation op.request, addrVec.length = cfg.levels.count.length ∧
    ∀ l ≤ cfg.levels.row, 0 ≤ addrVec.at l ∧ addrVec.at l < (cfg.levels.count.getD l 0 : Int)

/-- Whether a call swaps the activated row: its counter reaches a multiple of the threshold. -/
def Swaps (cfg : SwapConfig) (s : SwapSystem) (op : SwapOp) : Prop :=
  ∃ addrVec, cfg.levels.activation op.request = some addrVec ∧
    (s.bank op.channel (cfg.levels.flatBankId addrVec).toNat).hot cfg.params
      (bankOp cfg op (cfg.levels.flatBankId addrVec).toNat) = true

/-- The addresses of the other channels are mapped as before. -/
def Isolated (cfg : SwapConfig) (m : LinearMapperBase) (mapper : LinearMapper) (s s' : SwapSystem)
    (channel : Nat) : Prop :=
  ∀ req, m.Addressable req → (mapper.apply m req).addrVec.at 0 ≠ channel →
    s'.apply cfg m mapper req = s.apply cfg m mapper req

variable {cfg : SwapConfig} {s s' : SwapSystem} {op : SwapOp}

theorem bankOp_activated {addrVec : AddrVec}
    (hact : cfg.levels.activation op.request = some addrVec) :
    bankOp cfg op (cfg.levels.flatBankId addrVec).toNat =
      (some (addrVec.at cfg.levels.row).toNat, op.choices) := by
  rw [bankOp, hact, Option.bind_some, if_pos rfl]

theorem check_of_not_swaps (h : s.update cfg op = some s') (hswaps : ¬ Swaps cfg s op) (b : Nat) :
    (s'.rowIndirectionTable b).check = (s.rowIndirectionTable b).check := by
  obtain ⟨after, hafter, htable⟩ := update_bank h b
  rw [htable]
  rcases RRS.update_cases (bankOp cfg op b) hafter with
    ⟨-, hrit, -⟩ | ⟨row, s₁, hhot, hrow, -⟩
  · exact (congrArg RIT.check hrit).trans (RRS.check_advance _)
  · obtain ⟨addrVec, hact, hbank⟩ := Option.bind_eq_some_iff.mp hrow
    split at hbank
    · next hb =>
        subst hb
        exact absurd ⟨addrVec, hact, hhot⟩ hswaps
    · cases hbank

theorem applyIndirection_congr {addrVec : AddrVec}
    (h : ∀ b, (s'.rowIndirectionTable b).check = (s.rowIndirectionTable b).check) :
    s'.applyIndirection cfg addrVec = s.applyIndirection cfg addrVec := by
  unfold applyIndirection
  rw [h]

theorem at_applyIndirection {addrVec : AddrVec} (hlength : cfg.levels.row < addrVec.length)
    (hrow : 0 ≤ addrVec.at cfg.levels.row) :
    (s.applyIndirection cfg addrVec).at cfg.levels.row =
      Pairing.apply (s.rowIndirectionTable (cfg.levels.flatBankId addrVec).toNat).check
        (addrVec.at cfg.levels.row).toNat := by
  unfold applyIndirection Pairing.apply
  dsimp only
  rw [if_neg (Int.not_lt.mpr hrow)]
  cases (s.rowIndirectionTable (cfg.levels.flatBankId addrVec).toNat).check
      (addrVec.at cfg.levels.row).toNat with
  | none => rw [Option.getD_none, Int.toNat_of_nonneg hrow]
  | some dst => rw [at_set hlength, if_pos rfl, Option.getD_some]

theorem exists_other_channel {internalPrefetchSize : Nat} (hcfg : Regular cfg internalPrefetchSize)
    (channelWidth : Nat) (mapper : LinearMapper) (channel : Nat) {addrVec : AddrVec}
    (hlength : addrVec.length = cfg.levels.count.length)
    (hrange : ∀ l ≤ cfg.levels.row,
      0 ≤ addrVec.at l ∧ addrVec.at l < (cfg.levels.count.getD l 0 : Int)) :
    ∃ req, (setup cfg.levels.count cfg.levels.row internalPrefetchSize channelWidth).Addressable
        req ∧
      ∃ v : AddrVec, (mapper.apply (setup cfg.levels.count cfg.levels.row internalPrefetchSize
          channelWidth) req).addrVec = v ∧
        v.length = cfg.levels.count.length ∧ v.at 0 ≠ channel ∧
        ∀ l, 0 < l → l ≤ cfg.levels.row → v.at l = addrVec.at l := by
  have hpowers := hcfg.powers
  have hlevels := hpowers.row
  have hbelow : 0 < cfg.levels.row := hcfg.rank.trans_le (hcfg.bank.trans hcfg.row.le)
  have hchannels := hcfg.channels
  obtain ⟨other, hother, hne⟩ : ∃ other : Nat, other < 2 ∧ other ≠ channel := by
    by_cases hzero : channel = 0
    · exact ⟨1, by decide, by omega⟩
    · exact ⟨0, by decide, Ne.symm hzero⟩
  have hcol : cfg.levels.row + 1 < (addrVec.set 0 (other : Int)).length := by
    rw [List.length_set]
    omega
  have hat : ∀ l, AddrVec.at ((addrVec.set 0 (other : Int)).set (cfg.levels.row + 1) 0) l =
      if l = cfg.levels.row + 1 then 0 else if l = 0 then (other : Int) else addrVec.at l := by
    intro l
    rw [at_set hcol, at_set (by omega)]
  have hlengthV : ((addrVec.set 0 (other : Int)).set (cfg.levels.row + 1) 0).length =
      cfg.levels.count.length := by
    rw [List.length_set, List.length_set, hlength]
  have hinRange : (setup cfg.levels.count cfg.levels.row internalPrefetchSize channelWidth).InRange
      ((addrVec.set 0 (other : Int)).set (cfg.levels.row + 1) 0) := by
    refine ⟨hlengthV, fun l hl => ?_⟩
    have hl : l < cfg.levels.count.length := hl
    have hsize := two_pow_bits_setup hpowers channelWidth hl
    have hpos := Nat.two_pow_pos
      ((setup cfg.levels.count cfg.levels.row internalPrefetchSize channelWidth).bits l)
    have hbound : (2 : Int) ^
        (setup cfg.levels.count cfg.levels.row internalPrefetchSize channelWidth).bits l =
          (levelSize cfg.levels.count internalPrefetchSize l : Int) := by
      rw [← hsize, Nat.cast_pow]
      rfl
    rw [hat, hbound]
    by_cases hlast : l = cfg.levels.row + 1
    · rw [if_pos hlast]
      omega
    · have hinner : levelSize cfg.levels.count internalPrefetchSize l = cfg.levels.count.getD l 0 :=
        if_neg (by omega)
      rw [if_neg hlast, hinner]
      by_cases hfirst : l = 0
      · rw [if_pos hfirst, hfirst]
        omega
      · rw [if_neg hfirst]
        exact hrange l (by omega)
  obtain ⟨ws, fields, hstores⟩ := (setup_regular hpowers channelWidth).exists_stores mapper
  obtain ⟨req, hreq, happly⟩ := hstores.surj hinRange
  refine ⟨req, hreq, _, happly, hlengthV, ?_, fun l hpos hle => ?_⟩
  · rw [hat, if_neg (by omega), if_pos rfl]
    exact_mod_cast hne
  · rw [hat, if_neg (by omega), if_neg (by omega)]

/-- A call that swaps nothing leaves the addresses of the other channels mapped as before; where
the tables are pairings of the rows, no other call does. -/
theorem swap_isolated_iff {internalPrefetchSize : Nat} (hcfg : Regular cfg internalPrefetchSize)
    (channelWidth : Nat) (mapper : LinearMapper) (hop : InDevice cfg op)
    (h : s.update cfg op = some s') :
    let m := setup cfg.levels.count cfg.levels.row internalPrefetchSize channelWidth
    (¬ Swaps cfg s op → Isolated cfg m mapper s s' op.channel) ∧
    ((∀ b, Within cfg.numRows (s.rowIndirectionTable b).check) →
      Isolated cfg m mapper s s' op.channel → ¬ Swaps cfg s op) := by
  intro m
  constructor
  · intro hswaps req _ _
    unfold SwapSystem.apply
    rw [applyIndirection_congr (check_of_not_swaps h hswaps)]
  · rintro hwithin hisolated ⟨addrVec, hact, hhot⟩
    obtain ⟨hlength, hrange⟩ := hop addrVec hact
    obtain ⟨req, hreq, v, happly, hlengthV, hchannel, hsame⟩ :=
      exists_other_channel hcfg channelWidth mapper op.channel hlength hrange
    have hbelow : 0 < cfg.levels.row := hcfg.rank.trans_le (hcfg.bank.trans hcfg.row.le)
    have hbank : cfg.levels.flatBankId v = cfg.levels.flatBankId addrVec :=
      Levels.flatBankId_congr hcfg.bank fun l hle hge =>
        hsame l (hcfg.rank.trans_le hle) (hge.trans hcfg.row.le)
    have hrow := hsame cfg.levels.row hbelow (Nat.le_refl _)
    have hvector := congrArg Request.addrVec (hisolated req hreq (happly ▸ hchannel))
    have hvector : s'.applyIndirection cfg v = s.applyIndirection cfg v := happly ▸ hvector
    have hat := congrArg (fun w : AddrVec => w.at cfg.levels.row) hvector
    have hlevels := hcfg.powers.row
    have hv : cfg.levels.row < v.length := by omega
    have hpos : 0 ≤ v.at cfg.levels.row := hrow ▸ (hrange _ (Nat.le_refl _)).1
    rw [at_applyIndirection hv hpos, at_applyIndirection hv hpos, hbank, hrow] at hat
    obtain ⟨after, hafter, htable⟩ := update_bank h (cfg.levels.flatBankId addrVec).toNat
    rw [bankOp_activated hact] at hafter hhot
    rw [htable] at hat
    exact RRS.update_moves (hwithin _) hafter hhot (by exact_mod_cast hat)

theorem small_regular : Regular small 8 := by
  refine ⟨⟨?_, ⟨3, rfl⟩, rfl, by decide⟩, by decide, by decide, by decide, by decide⟩
  intro c hc
  have hcases : c = 2 ∨ c = 1 ∨ c = 4 ∨ c = 16 ∨ c = 1024 := by
    simp only [small, List.mem_cons, List.not_mem_nil, or_false] at hc
    tauto
  rcases hcases with rfl | rfl | rfl | rfl | rfl
  · exact ⟨1, by decide, rfl⟩
  · exact ⟨0, by decide, rfl⟩
  · exact ⟨2, by decide, rfl⟩
  · exact ⟨4, by decide, rfl⟩
  · exact ⟨10, by decide, rfl⟩

/-- The swap of row 5 in the first channel is seen in the second one. -/
theorem swap_isolated_row5 :
    ∃ s, (SwapSystem.update small {} (activateRow5 [9]) = some s) ∧
      ¬ Isolated small (setup [2, 1, 4, 4, 16, 1024] 4 8 64) .RoBaRaCoCh {} s 0 := by
  obtain ⟨s, hs⟩ : ∃ s, SwapSystem.update small {} (activateRow5 [9]) = some s :=
    Option.isSome_iff_exists.mp (by decide +kernel)
  have hop : InDevice small (activateRow5 [9]) := by
    intro addrVec hact
    obtain rfl := Option.some.inj hact
    decide
  have hstart : Run small (DrawsRows small) {} := .start rfl
  refine ⟨s, hs, fun hisolated => ?_⟩
  exact (swap_isolated_iff small_regular 64 .RoBaRaCoCh hop hs).2 hstart.within hisolated
    ⟨[0, 0, 0, 0, 5, 0], rfl, by decide +kernel⟩

/-- The plugin of the first channel swaps row 5 with row 9, and an address of the second channel
moves from row 5 to row 9 of its bank. -/
theorem swap_not_isolated :
    Swaps small {} (activateRow5 [9]) ∧
    ∃ s, Run small (fun _ _ => True) s ∧ (SwapSystem.update small {} (activateRow5 [9]) = some s) ∧
      ((({} : SwapSystem).apply small (setup [2, 1, 4, 4, 16, 1024] 4 8 64) .ChRaBaRoCo
        { addr := 2138112 }).addrVec = [1, 0, 0, 0, 5, 0]) ∧
      (s.apply small (setup [2, 1, 4, 4, 16, 1024] 4 8 64) .ChRaBaRoCo
        { addr := 2138112 }).addrVec = [1, 0, 0, 0, 9, 0] := by
  have hrun : ((SwapSystem.update small {} (activateRow5 [9])).any fun s =>
      decide ((s.apply small (setup [2, 1, 4, 4, 16, 1024] 4 8 64) .ChRaBaRoCo
        { addr := 2138112 }).addrVec = [1, 0, 0, 0, 9, 0])) = true := by decide +kernel
  obtain ⟨s, hs, htest⟩ := Option.any_eq_true _ _ |>.mp hrun
  refine ⟨⟨[0, 0, 0, 0, 5, 0], rfl, by decide +kernel⟩, s,
    .next (.start rfl) ⟨by decide, trivial⟩ hs, hs, by decide +kernel, ?_⟩
  exact of_decide_eq_true htest

end SwapSystem

end AimSimulator.Plugin
