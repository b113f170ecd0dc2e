import AimSimulator.Plugin.SharedTable
/-!
# The rows that are swapped

The random generator of `rrs.cpp` gives numbers from `0` to the number of rows, both
included.  A drawn row is written into the table and swapped, so that the rows of the tables
and of the requests exist exactly as long as no draw that is taken is the number of rows.
-/

namespace AimSimulator.Plugin

open Pairing

/-! ## Tables of existing rows -/

def RowsBelow (numRows : Nat) (t : Nat → Option Nat) : Prop :=
  ∀ a b, t a = some b → a < numRows ∧ b < numRows

section

variable {numRows : Nat} {t : Nat → Option Nat} {a b : Nat}

theorem RowsBelow.link (h : RowsBelow numRows t) (ha : a < numRows) (hb : b < numRows) :
    RowsBelow numRows (link t a b) := by
  intro x y hxy
  unfold Pairing.link at hxy
  split at hxy
  · next hx =>
      obtain rfl := Option.some.inj hxy
      exact ⟨hx ▸ hb, ha⟩
  · split at hxy
    · next hx =>
        obtain rfl := Option.some.inj hxy
        exact ⟨hx ▸ ha, hb⟩
    · exact h x y hxy

theorem RowsBelow.unlink (h : RowsBelow numRows t) (a b : Nat) :
    RowsBelow numRows (unlink t a b) := by
  intro x y hxy
  unfold Pairing.unlink at hxy
  split at hxy
  · cases hxy
  · exact h x y hxy

theorem link_ne_none {x : Nat} (a b : Nat) (h : t x ≠ none) : link t a b x ≠ none := by
  unfold Pairing.link
  split
  · nofun
  · split
    · nofun
    · exact h

end

/-! ## One bank -/

namespace RRS

variable {p : RRSParams} {s s' : RRS} {numRows : Nat}

/-- The rows of the table and of the swaps issued are rows of the bank. -/
structure InBank (numRows : Nat) (s : RRS) : Prop where
  table : RowsBelow numRows s.rit.check
  swaps : ∀ pair ∈ s.swaps, pair.1 < numRows ∧ pair.2 < numRows

theorem InBank.issueSwap (h : s.InBank numRows) {a b : Nat} (ha : a < numRows) (hb : b < numRows) :
    (s.issueSwap a b).InBank numRows := by
  refine ⟨h.table, fun pair hpair => ?_⟩
  rcases List.mem_append.mp hpair with hpair | hpair
  · exact h.swaps pair hpair
  · obtain rfl := List.mem_singleton.mp hpair
    exact ⟨ha, hb⟩

theorem InBank.ritRemoveEntry (h : s.InBank numRows) (a b : Nat) :
    (s.ritRemoveEntry a b).InBank numRows := by
  refine ⟨?_, h.swaps⟩
  change RowsBelow numRows (s.rit.removeEntry a b).check
  rw [RIT.check_removeEntry]
  exact h.table.unlink a b

theorem InBank.ritInsertEntry (h : s.InBank numRows) {a b : Nat} (ha : a < numRows)
    (hb : b < numRows) (hinsert : s.ritInsertEntry p a b = some s') : s'.InBank numRows := by
  refine ⟨check_ritInsertEntry hinsert ▸ h.table.link ha hb, ?_⟩
  obtain ⟨rit, -, rfl⟩ := Option.map_eq_some_iff.mp hinsert
  exact h.swaps

theorem InBank.makeRoom (h : s.InBank numRows) {choice : Nat}
    (hroom : s.makeRoom p choice = some s') : s'.InBank numRows := by
  unfold RRS.makeRoom at hroom
  split at hroom
  · obtain ⟨⟨a, b⟩, hpair, rfl⟩ := Option.map_eq_some_iff.mp hroom
    obtain ⟨ha, hb⟩ := h.table a b (RIT.getUnswapPair_spec hpair).1
    exact (h.issueSwap ha hb).ritRemoveEntry a b
  · exact Option.some.inj hroom ▸ h

theorem InBank.swapHotRow (h : s.InBank numRows) {row : Nat} {ch : Choices} (hrow : row < numRows)
    (hswap : s.swapHotRow p row ch = some s')
    (hdrawn : ∀ dst ∈ s.drawnFor p row ch, dst < numRows) : s'.InBank numRows := by
  rcases swapHotRow_cases hswap with
    ⟨s₁, dst, rest, -, hroom, -, hinsert, heq⟩ |
    ⟨prev, dst, rest, hentry, -, -, hinsert, heq⟩ |
    ⟨prev, s₁, dst0, draws, dst1, rest, s₂, hentry, -, hroom, -, -, hfirst, hsecond, heq⟩
  · have hdst : dst < numRows := hdrawn dst (heq ▸ List.mem_singleton_self _)
    exact ((h.makeRoom hroom).issueSwap hrow hdst).ritInsertEntry hrow hdst hinsert
  · have hdst : dst < numRows := hdrawn dst (heq ▸ List.mem_singleton_self _)
    have hprev := (h.table row prev hentry).2
    have hback := (h.issueSwap hrow hprev).ritRemoveEntry row prev
    exact (hback.issueSwap hrow hdst).ritInsertEntry hrow hdst hinsert
  · have hdst0 : dst0 < numRows := hdrawn dst0 (heq ▸ List.mem_cons_self)
    have hdst1 : dst1 < numRows :=
      hdrawn dst1 (heq ▸ List.mem_cons_of_mem _ (List.mem_singleton_self _))
    have hprev := (h.table row prev hentry).2
    have hmoved := (((h.makeRoom hroom).ritRemoveEntry row prev).issueSwap hrow hdst0).issueSwap
      hprev hdst1
    exact (hmoved.ritInsertEntry hrow hdst1 hfirst).ritInsertEntry hprev hdst0 hsecond

theorem swapHotRow_inserted {row : Nat} {ch : Choices} (hswap : s.swapHotRow p row ch = some s') :
    ∀ dst ∈ s.drawnFor p row ch, s'.rit.check dst ≠ none := by
  intro d hd
  rcases swapHotRow_cases hswap with
    ⟨s₁, dst, rest, -, -, -, hinsert, heq⟩ | ⟨prev, dst, rest, -, -, -, hinsert, heq⟩ |
    ⟨prev, s₁, dst0, draws, dst1, rest, s₂, -, -, -, -, -, hfirst, hsecond, heq⟩
  · obtain rfl := List.mem_singleton.mp (heq ▸ hd)
    rw [check_ritInsertEntry hinsert, link_right]
    nofun
  · obtain rfl := List.mem_singleton.mp (heq ▸ hd)
    rw [check_ritInsertEntry hinsert, link_right]
    nofun
  · rw [heq] at hd
    rw [check_ritInsertEntry hsecond]
    rcases List.mem_cons.mp hd with rfl | hd
    · rw [link_right]
      nofun
    · obtain rfl := List.mem_singleton.mp hd
      refine link_ne_none _ _ ?_
      rw [check_ritInsertEntry hfirst, link_right]
      nofun

/-- An update of a table of existing rows stays in the bank exactly when the rows it draws are
in the bank. -/
theorem update_inBank_iff {op : Option Nat × Choices} (h : s.InBank numRows)
    (hrow : ∀ row, op.1 = some row → row < numRows) (hupdate : s.update p op.1 op.2 = some s') :
    s'.InBank numRows ↔ ∀ dst ∈ s.drawn p op, dst < numRows := by
  rcases update_cases op hupdate with
    ⟨-, hrit, hswaps, hdrawn⟩ | ⟨row, s₁, -, hop, hrit, hswaps, -, hswap, hdrawn⟩
  · rw [hdrawn]
    have hcheck := (congrArg RIT.check hrit).trans (check_advance s)
    exact ⟨fun _ => nofun, fun _ => ⟨hcheck ▸ h.table, hswaps ▸ h.swaps⟩⟩
  · have hcheck := (congrArg RIT.check hrit).trans (check_advance s)
    have h₁ : s₁.InBank numRows := ⟨hcheck ▸ h.table, hswaps ▸ h.swaps⟩
    rw [hdrawn]
    constructor
    · intro h' dst hdst
      obtain ⟨partner, hpartner⟩ := Option.ne_none_iff_exists'.mp
        (swapHotRow_inserted hswap dst hdst)
      exact (h'.table dst partner hpartner).1
    · exact h₁.swapHotRow (hrow row hop) hswap

end RRS

/-! ## All banks -/

namespace SwapSystem

/-- The requests of `issue_swap`: both rows are read into buffers and written to each other's
place, one request for each eight columns. -/
def issueSwap (cfg : SwapConfig) (addrVec : AddrVec) (srcRow dstRow : Nat) : List Request :=
  [(srcRow, ReqType.Read), (dstRow, .Read), (dstRow, .Write), (srcRow, .Write)].flatMap
    fun (row, type) =>
      (List.range (cfg.levels.count.getD (cfg.levels.row + 1) 0 / 8)).map fun cl =>
        { addrVec := (addrVec.set cfg.levels.row row).set (cfg.levels.row + 1) ((cl * 8 : Nat) : Int)
          type }

/-- The requests that a call sends: those of the swaps it issues. -/
def requests (cfg : SwapConfig) (s : SwapSystem) (op : SwapOp) : List Request :=
  match cfg.levels.activation op.request with
  | none => []
  | some addrVec =>
      (((s.bank op.channel (cfg.levels.flatBankId addrVec).toNat).update cfg.params
        (some (addrVec.at cfg.levels.row).toNat) op.choices).map RRS.swaps).getD [] |>.flatMap
          fun pair => issueSwap cfg addrVec pair.1 pair.2

/-- A call leaves only existing rows in the tables, and sends requests to existing rows only. -/
structure ExistingRows (cfg : SwapConfig) (s : SwapSystem) (op : SwapOp) (s' : SwapSystem) : Prop where
  tables : ∀ b, RowsBelow cfg.numRows (s'.rowIndirectionTable b).check
  requests : ∀ req ∈ s.requests cfg op,
    0 ≤ req.addrVec.at cfg.levels.row ∧ req.addrVec.at cfg.levels.row < cfg.numRows

def DrawsExisting (cfg : SwapConfig) (s : SwapSystem) (op : SwapOp) : Prop :=
  ∀ b, ∀ row ∈ (s.bank op.channel b).drawn cfg.params (bankOp cfg op b), row < cfg.numRows

variable {cfg : SwapConfig} {s s' : SwapSystem} {op : SwapOp}

theorem issueSwap_row {addrVec : AddrVec} (hrow : 0 ≤ addrVec.at cfg.levels.row) {src dst : Nat}
    {req : Request} (h : req ∈ issueSwap cfg addrVec src dst) :
    req.addrVec.at cfg.levels.row = src ∨ req.addrVec.at cfg.levels.row = dst := by
  have hlength : cfg.levels.row < addrVec.length := by
    by_contra hge
    rw [AddrVec.at, List.getD_eq_default _ _ (Nat.le_of_not_lt hge)] at hrow
    exact absurd hrow (by decide)
  obtain ⟨⟨row, type⟩, hpair, hreq⟩ := List.mem_flatMap.mp h
  obtain ⟨cl, -, rfl⟩ := List.mem_map.mp hreq
  have hat : AddrVec.at ((addrVec.set cfg.levels.row (row : Int)).set (cfg.levels.row + 1)
      ((cl * 8 : Nat) : Int)) cfg.levels.row = row := by
    rw [AddrVec.at, List.getD_eq_getElem?_getD, List.getElem?_set_ne (by omega),
      List.getElem?_set_self hlength, Option.getD_some]
  rw [hat]
  simp only [List.mem_cons, Prod.mk.injEq, List.not_mem_nil, or_false] at hpair
  rcases hpair with ⟨rfl, -⟩ | ⟨rfl, -⟩ | ⟨rfl, -⟩ | ⟨rfl, -⟩
  · exact .inl rfl
  · exact .inr rfl
  · exact .inr rfl
  · exact .inl rfl

theorem bank_inBank (h : ∀ b, RowsBelow cfg.numRows (s.rowIndirectionTable b).check)
    (channel b : Nat) : (s.bank channel b).InBank cfg.numRows := ⟨h b, nofun⟩

theorem update_existingRows_iff (h : ∀ b, RowsBelow cfg.numRows (s.rowIndirectionTable b).check)
    (hop : OfDevice cfg op) (hupdate : s.update cfg op = some s') :
    ExistingRows cfg s op s' ↔ DrawsExisting cfg s op := by
  constructor
  · intro hrows b
    obtain ⟨after, hafter, htable⟩ := update_bank hupdate b
    rcases RRS.update_cases (bankOp cfg op b) hafter with
      ⟨-, -, -, hdrawn⟩ | ⟨row, s₁, -, -, -, -, -, hswap, hdrawn⟩
    · rw [hdrawn]
      nofun
    · rw [hdrawn]
      intro dst hdst
      obtain ⟨partner, hpartner⟩ := Option.ne_none_iff_exists'.mp
        (RRS.swapHotRow_inserted hswap dst hdst)
      exact (hrows.tables b dst partner (htable ▸ hpartner)).1
  · intro hdraws
    have hbanks : ∀ b after, (s.bank op.channel b).update cfg.params (bankOp cfg op b).1
        (bankOp cfg op b).2 = some after → after.InBank cfg.numRows := fun b after hafter =>
      (RRS.update_inBank_iff (bank_inBank h op.channel b) (fun row hrow => bankOp_row hop hrow)
        hafter).mpr (hdraws b)
    refine ⟨fun b => ?_, fun req hreq => ?_⟩
    · obtain ⟨after, hafter, htable⟩ := update_bank hupdate b
      exact htable ▸ (hbanks b after hafter).table
    · unfold SwapSystem.requests at hreq
      split at hreq
      · cases hreq
      · next addrVec hact =>
          obtain ⟨pair, hpair, hreq⟩ := List.mem_flatMap.mp hreq
          obtain ⟨after, hafter, -⟩ :=
            update_bank hupdate (cfg.levels.flatBankId addrVec).toNat
          have hbank : bankOp cfg op (cfg.levels.flatBankId addrVec).toNat =
              (some (addrVec.at cfg.levels.row).toNat, op.choices) := by
            rw [bankOp, hact, Option.bind_some, if_pos rfl]
          have hin := hbanks _ after hafter
          rw [hbank] at hafter
          rw [hafter] at hpair
          obtain ⟨hsrc, hdst⟩ := hin.swaps pair hpair
          rcases issueSwap_row (hop.1 addrVec hact).2.2.1 hreq with hat | hat
          · rw [hat]
            omega
          · rw [hat]
            omega

/-- While the rows that are drawn exist, the tables hold existing rows only, and the next call
keeps to existing rows exactly when the rows it draws exist. -/
theorem swaps_existing_rows (h : Run cfg (DrawsExisting cfg) s) :
    (∀ b, RowsBelow cfg.numRows (s.rowIndirectionTable b).check) ∧
    ∀ op s', OfDevice cfg op → s.update cfg op = some s' →
      (ExistingRows cfg s op s' ↔ DrawsExisting cfg s op) := by
  have htables : ∀ b, RowsBelow cfg.numRows (s.rowIndirectionTable b).check := by
    refine h.invariant (I := fun s : SwapSystem =>
      ∀ b, RowsBelow cfg.numRows (s.rowIndirectionTable b).check) ?_ ?_
    · rintro s rfl b x y hxy
      rw [show ((∅ : RIT).check x) = none by rw [RIT.check, AList.lookup_empty]; rfl] at hxy
      cases hxy
    · rintro s op s' hs ⟨hop, hdraws⟩ hupdate
      exact ((update_existingRows_iff hs hop hupdate).mpr hdraws).tables
  exact ⟨htables, fun op s' => update_existingRows_iff htables⟩

/-- Row 5 is swapped with row 15, the last row of the bank. -/
theorem swaps_existing_rows_last :
    ∃ s, (SwapSystem.update small {} (activateRow5 [15]) = some s) ∧
      ExistingRows small {} (activateRow5 [15]) s := by
  obtain ⟨s, hs⟩ : ∃ s, SwapSystem.update small {} (activateRow5 [15]) = some s :=
    Option.isSome_iff_exists.mp (by decide +kernel)
  have hdraws : DrawsExisting small {} (activateRow5 [15]) := by
    intro b
    by_cases hb : 0 = b
    · subst hb
      decide +kernel
    · rw [drawn_of_ne (s := {}) (show small.levels.activation (activateRow5 [15]).request =
        some [0, 0, 0, 0, 5, 0] from rfl) hb]
      nofun
  exact ⟨s, hs, ((swaps_existing_rows (.start rfl)).2 _ s (by decide) hs).mpr hdraws⟩

/-- The generator gives 16, the number of rows: row 5 is swapped with row 16. -/
theorem swaps_missing_row :
    ∃ s, Run small (fun _ _ => True) s ∧
      (SwapSystem.update small {} (activateRow5 [16]) = some s) ∧
      (s.rowIndirectionTable 0).check 5 = some 16 ∧
      (∃ req ∈ ({} : SwapSystem).requests small (activateRow5 [16]),
        req.type = .Write ∧ req.addrVec.at 4 = 16) ∧
      ¬ ExistingRows small {} (activateRow5 [16]) s := by
  have hrun : ((SwapSystem.update small {} (activateRow5 [16])).any fun s =>
      decide ((s.rowIndirectionTable 0).check 5 = some 16)) = true := by decide +kernel
  obtain ⟨s, hs, htest⟩ := Option.any_eq_true _ _ |>.mp hrun
  have hfive := of_decide_eq_true htest
  refine ⟨s, .next (.start rfl) ⟨by decide, trivial⟩ hs, hs, hfive, by decide +kernel, fun h => ?_⟩
  exact absurd (h.tables 0 5 16 hfive).2 (by decide)

end SwapSystem

end AimSimulator.Plugin
