import AimSimulator.Plugin.RowSwap
/-!
# The indirection table as a pairing

An update keeps the table of a bank a pairing of the rows of the bank exactly when the rows it
draws are different rows of the bank.
-/

namespace AimSimulator.Plugin

open Pairing

/-! ## Tables of pairs of rows -/

structure Within (numRows : Nat) (t : Nat → Option Nat) : Prop where
  paired : Paired t
  rows : ∀ a b, t a = some b → a < numRows

def PermutesRows (numRows : Nat) (t : Nat → Option Nat) : Prop :=
  (∀ row dst, t row = some dst → dst ≠ row ∧ t dst = some row) ∧
    Set.BijOn (apply t) {row | row < numRows} {row | row < numRows}

/-- The rows that an update swaps, those it draws for them, and the tables before and after. -/
inductive Relinked (row : Nat) (t : Nat → Option Nat) : List Nat → (Nat → Option Nat) → Prop
  | one {dst : Nat} : t row = none → t dst = none → dst ≠ row → Relinked row t [dst] (link t row dst)
  | again {prev dst : Nat} : t row = some prev → t dst = none → dst ≠ row →
      Relinked row t [dst] (link (unlink t row prev) row dst)
  | two {prev dst0 dst1 : Nat} : t row = some prev → t dst0 = none → t dst1 = none →
      dst0 ≠ row → dst1 ≠ row →
      Relinked row t [dst0, dst1] (link (link (unlink t row prev) row dst1) prev dst0)

variable {numRows row : Nat} {t t' : Nat → Option Nat} {rows : List Nat}

theorem Within.permutesRows (h : Within numRows t) : PermutesRows numRows t := by
  refine ⟨fun a b hab => ⟨(h.paired.ne hab).symm, h.paired.symm hab⟩, h.paired.bijOn_iff.mpr ?_⟩
  exact fun a _ b hab => h.rows b a (h.paired.symm hab)

theorem Within.unlink (h : Within numRows t) {a b : Nat} (hab : t a = some b) :
    Within numRows (unlink t a b) := by
  refine ⟨h.paired.unlink hab, fun x y hxy => ?_⟩
  unfold Pairing.unlink at hxy
  split at hxy
  · cases hxy
  · exact h.rows x y hxy

theorem Within.link (h : Within numRows t) {a b : Nat} (ha : t a = none) (hb : t b = none)
    (hne : a ≠ b) (hrowa : a < numRows) (hrowb : b < numRows) : Within numRows (link t a b) := by
  refine ⟨h.paired.link ha hb hne, fun x y hxy => ?_⟩
  unfold Pairing.link at hxy
  split at hxy
  · next hx => rwa [hx]
  · split at hxy
    · next hx => rwa [hx]
    · exact h.rows x y hxy

theorem PermutesRows.lt (h : PermutesRows numRows t) {a b : Nat} (ha : a < numRows)
    (hab : t a = some b) : b < numRows := by
  have hmem := h.2.mapsTo ha
  rwa [apply, hab] at hmem

theorem unlink_left (t : Nat → Option Nat) (a b : Nat) : unlink t a b a = none := if_pos (.inr rfl)

theorem unlink_right (t : Nat → Option Nat) (a b : Nat) : unlink t a b b = none := if_pos (.inl rfl)

theorem unlink_eq_none {x : Nat} (a b : Nat) (hx : t x = none) : unlink t a b x = none := by
  rw [unlink, hx, ite_self]

theorem link_left {a b : Nat} (hne : a ≠ b) : link t a b a = some b := by
  rw [link, if_neg hne, if_pos rfl]

theorem link_right (t : Nat → Option Nat) (a b : Nat) : link t a b b = some a := if_pos rfl

theorem link_of_ne {a b x : Nat} (ha : x ≠ a) (hb : x ≠ b) : link t a b x = t x := by
  rw [link, if_neg hb, if_neg ha]

theorem Relinked.within (h : Relinked row t rows t') (ht : Within numRows t)
    (hrow : row < numRows) (hnodup : rows.Nodup) (hrows : ∀ d ∈ rows, d < numRows) :
    Within numRows t' := by
  cases h with
  | one hfree hdst hne => exact ht.link hfree hdst hne.symm hrow (hrows _ List.mem_cons_self)
  | again hprev hdst hne =>
      exact (ht.unlink hprev).link (unlink_left _ _ _) (unlink_eq_none _ _ hdst) hne.symm hrow
        (hrows _ List.mem_cons_self)
  | @two prev dst0 dst1 hprev hdst0 hdst1 hne0 hne1 =>
      have hback := ht.paired.symm hprev
      have hprev0 : prev ≠ dst0 := by rintro rfl; rw [hdst0] at hback; cases hback
      have hprev1 : prev ≠ dst1 := by rintro rfl; rw [hdst1] at hback; cases hback
      have hdistinct : dst0 ≠ dst1 := by
        have hmem := (List.nodup_cons.mp hnodup).1
        exact fun heq => hmem (List.mem_singleton.mpr heq)
      have hfirst := (ht.unlink hprev).link (unlink_left _ _ _) (unlink_eq_none _ _ hdst1)
        hne1.symm hrow (hrows _ (List.mem_cons_of_mem _ List.mem_cons_self))
      refine hfirst.link ?_ ?_ hprev0 (ht.rows prev row hback) (hrows _ List.mem_cons_self)
      · rw [link_of_ne (ht.paired.ne hprev).symm hprev1]
        exact unlink_right _ _ _
      · rw [link_of_ne hne0 hdistinct]
        exact unlink_eq_none _ _ hdst0

theorem Relinked.of_permutesRows (h : Relinked row t rows t') (ht : Within numRows t)
    (hrow : row < numRows) (ht' : PermutesRows numRows t') :
    rows.Nodup ∧ ∀ d ∈ rows, d < numRows := by
  cases h with
  | one _ _ hne | again _ _ hne =>
      refine ⟨List.nodup_singleton _, fun d hd => ?_⟩
      rw [List.mem_singleton.mp hd]
      exact ht'.lt hrow (link_left hne.symm)
  | @two prev dst0 dst1 hprev hdst0 hdst1 hne0 hne1 =>
      have hback := ht.paired.symm hprev
      have hprev0 : prev ≠ dst0 := by rintro rfl; rw [hdst0] at hback; cases hback
      have hrowprev := ht.paired.ne hprev
      have hat : link (link (unlink t row prev) row dst1) prev dst0 row = some dst1 := by
        rw [link_of_ne hrowprev hne0.symm, link_left hne1.symm]
      have hlt0 := ht'.lt (ht.rows prev row hback) (link_left hprev0)
      have hlt1 := ht'.lt hrow hat
      have hdistinct : dst0 ≠ dst1 := by
        rintro rfl
        have hpartner := (ht'.1 row dst0 hat).2
        rw [link_right] at hpartner
        exact hrowprev (Option.some.inj hpartner).symm
      refine ⟨?_, ?_⟩
      · simp [hdistinct]
      · intro d hd
        simp only [List.mem_cons, List.not_mem_nil, or_false] at hd
        rcases hd with rfl | rfl
        · exact hlt0
        · exact hlt1

/-! ## Updates -/

namespace RRS

variable {p : RRSParams} {s s' : RRS}

def drawnFor (p : RRSParams) (s : RRS) (row : Nat) (ch : Choices) : List Nat :=
  match s.rit.check row with
  | some _ =>
      if s.rit.isLocked row then
        ((s.makeRoom p ch.unswap).bind fun s =>
          (s.getRandRow row ch.draws).bind fun dst0 =>
            (s.getRandRow row dst0.2).map fun dst1 => [dst0.1, dst1.1]).getD []
      else ((s.getRandRow row ch.draws).map fun dst => [dst.1]).getD []
  | none =>
      ((s.makeRoom p ch.unswap).bind fun s =>
        (s.getRandRow row ch.draws).map fun dst => [dst.1]).getD []

def drawn (p : RRSParams) (s : RRS) (op : Option Nat × Choices) : List Nat :=
  match op.1 with
  | none => []
  | some row =>
      match (s.advance p).track p row op.2.evict with
      | (s', some count) =>
          if count % p.rssThreshold = 0 then s'.drawnFor p row op.2 else []
      | (_, none) => []

theorem makeRoom_within {choice : Nat} (h : Within numRows s.rit.check)
    (hroom : s.makeRoom p choice = some s') :
    Within numRows s'.rit.check ∧
      ∀ row, s.hotRowTracker.lookup row ≠ none → s'.rit.check row = s.rit.check row := by
  unfold makeRoom at hroom
  split at hroom
  · obtain ⟨⟨a, b⟩, hpair, rfl⟩ := Option.map_eq_some_iff.mp hroom
    obtain ⟨hab, ha, hb⟩ := RIT.getUnswapPair_spec hpair
    have hcheck := s.rit.check_removeEntry a b
    refine ⟨?_, fun row hrow => ?_⟩
    · change Within numRows (s.rit.removeEntry a b).check
      rw [hcheck]
      exact h.unlink hab
    · change (s.rit.removeEntry a b).check row = s.rit.check row
      rw [hcheck, unlink, if_neg]
      rintro (rfl | rfl)
      · exact hrow hb
      · exact hrow ha
  · obtain rfl := Option.some.inj hroom
    exact ⟨h, fun _ _ => rfl⟩

/-- What a swap of a hot row does: the swaps it issues and the entries it removes and inserts,
with the rows drawn for it. -/
theorem swapHotRow_cases {ch : Choices} (hswap : s.swapHotRow p row ch = some s') :
    (∃ s₁ dst rest, s.rit.check row = none ∧ s.makeRoom p ch.unswap = some s₁ ∧
      s₁.getRandRow row ch.draws = some (dst, rest) ∧
      (s₁.issueSwap row dst).ritInsertEntry p row dst = some s' ∧
      s.drawnFor p row ch = [dst]) ∨
    (∃ prev dst rest, s.rit.check row = some prev ∧ s.rit.isLocked row = false ∧
      s.getRandRow row ch.draws = some (dst, rest) ∧
      (((s.issueSwap row prev).ritRemoveEntry row prev).issueSwap row dst).ritInsertEntry p row
        dst = some s' ∧
      s.drawnFor p row ch = [dst]) ∨
    ∃ prev s₁ dst0 draws dst1 rest s₂, s.rit.check row = some prev ∧ s.rit.isLocked row = true ∧
      s.makeRoom p ch.unswap = some s₁ ∧ s₁.getRandRow row ch.draws = some (dst0, draws) ∧
      s₁.getRandRow row draws = some (dst1, rest) ∧
      (((s₁.ritRemoveEntry row prev).issueSwap row dst0).issueSwap prev dst1).ritInsertEntry p row
        dst1 = some s₂ ∧
      s₂.ritInsertEntry p prev dst0 = some s' ∧ s.drawnFor p row ch = [dst0, dst1] := by
  unfold swapHotRow at hswap
  unfold drawnFor
  cases hentry : s.rit.check row with
  | none =>
      rw [hentry] at hswap
      dsimp only at hswap ⊢
      obtain ⟨s₁, hroom, hswap⟩ := Option.bind_eq_some_iff.mp hswap
      obtain ⟨⟨dst, rest⟩, hdraw, hinsert⟩ := Option.bind_eq_some_iff.mp hswap
      refine .inl ⟨s₁, dst, rest, rfl, hroom, hdraw, hinsert, ?_⟩
      rw [hroom, Option.bind_some, hdraw, Option.map_some, Option.getD_some]
  | some prev =>
      rw [hentry] at hswap
      dsimp only at hswap ⊢
      cases hlocked : s.rit.isLocked row with
      | false =>
          rw [hlocked, if_neg Bool.false_ne_true] at hswap
          obtain ⟨⟨dst, rest⟩, hdraw, hinsert⟩ := Option.bind_eq_some_iff.mp hswap
          refine .inr (.inl ⟨prev, dst, rest, rfl, rfl, hdraw, hinsert, ?_⟩)
          rw [if_neg Bool.false_ne_true, hdraw, Option.map_some, Option.getD_some]
      | true =>
          rw [hlocked, if_pos rfl] at hswap
          obtain ⟨s₁, hroom, hswap⟩ := Option.bind_eq_some_iff.mp hswap
          obtain ⟨⟨dst0, draws⟩, hdraw0, hswap⟩ := Option.bind_eq_some_iff.mp hswap
          obtain ⟨⟨dst1, rest⟩, hdraw1, hswap⟩ := Option.bind_eq_some_iff.mp hswap
          obtain ⟨s₂, hfirst, hsecond⟩ := Option.bind_eq_some_iff.mp hswap
          refine .inr (.inr ⟨prev, s₁, dst0, draws, dst1, rest, s₂, rfl, rfl, hroom, hdraw0, hdraw1,
            hfirst, hsecond, ?_⟩)
          rw [if_pos rfl, hroom, Option.bind_some, hdraw0, Option.bind_some, hdraw1,
            Option.map_some, Option.getD_some]

theorem check_ritInsertEntry {a b : Nat} (h : s.ritInsertEntry p a b = some s') :
    s'.rit.check = link s.rit.check a b := by
  obtain ⟨rit, hrit, rfl⟩ := Option.map_eq_some_iff.mp h
  exact RIT.check_insertEntry hrit

theorem swapHotRow_relinked {ch : Choices} (h : Within numRows s.rit.check)
    (htracked : s.hotRowTracker.lookup row ≠ none) (hswap : s.swapHotRow p row ch = some s') :
    ∃ t, Within numRows t ∧ t row = s.rit.check row ∧
      Relinked row t (s.drawnFor p row ch) s'.rit.check := by
  rcases swapHotRow_cases hswap with
    ⟨s₁, dst, rest, hentry, hroom, hdraw, hinsert, hdrawn⟩ |
    ⟨prev, dst, rest, hentry, -, hdraw, hinsert, hdrawn⟩ |
    ⟨prev, s₁, dst0, draws, dst1, rest, s₂, hentry, -, hroom, hdraw0, hdraw1, hfirst, hsecond,
      hdrawn⟩
  · obtain ⟨h₁, hkept⟩ := makeRoom_within h hroom
    obtain ⟨-, hdst, hne⟩ := getRandRow_spec hdraw
    have hrow₁ := hkept row htracked
    refine ⟨s₁.rit.check, h₁, hrow₁, ?_⟩
    have hcheck : s'.rit.check = link s₁.rit.check row dst :=
      check_ritInsertEntry (s := s₁.issueSwap row dst) hinsert
    rw [hdrawn, hcheck]
    exact .one (hrow₁.trans hentry) hdst hne
  · obtain ⟨-, hdst, hne⟩ := getRandRow_spec hdraw
    have hcheck : s'.rit.check = link (unlink s.rit.check row prev) row dst :=
      (check_ritInsertEntry hinsert).trans
        (congrArg (fun t => link t row dst) (s.rit.check_removeEntry row prev))
    refine ⟨s.rit.check, h, rfl, ?_⟩
    rw [hdrawn, hcheck]
    exact .again hentry hdst hne
  · obtain ⟨h₁, hkept⟩ := makeRoom_within h hroom
    obtain ⟨-, hdst0, hne0⟩ := getRandRow_spec hdraw0
    obtain ⟨-, hdst1, hne1⟩ := getRandRow_spec hdraw1
    have hrow₁ := hkept row htracked
    refine ⟨s₁.rit.check, h₁, hrow₁, ?_⟩
    have hcheck : s'.rit.check = link (link (unlink s₁.rit.check row prev) row dst1) prev dst0 := by
      rw [check_ritInsertEntry hsecond, check_ritInsertEntry hfirst]
      exact congrArg (fun t => link (link t row dst1) prev dst0)
        (s₁.rit.check_removeEntry row prev)
    rw [hdrawn, hcheck]
    exact .two (hrow₁.trans hentry) hdst0 hdst1 hne0 hne1

/-- Whether the counter of the activated row reaches a multiple of the threshold. -/
def hot (p : RRSParams) (s : RRS) (op : Option Nat × Choices) : Bool :=
  op.1.any fun row =>
    ((s.advance p).track p row op.2.evict).2.any fun count => decide (count % p.rssThreshold = 0)

theorem check_advance (s : RRS) : (s.advance p).rit.check = s.rit.check := by
  unfold advance
  split
  · exact funext s.rit.check_unlock
  · rfl

theorem advance_swaps (s : RRS) : (s.advance p).swaps = s.swaps := by
  unfold advance
  split <;> rfl

/-- What an update does to the table: nothing but the reset, or then what `swapHotRow` does for a
hot row. -/
theorem update_cases (op : Option Nat × Choices) (hupdate : s.update p op.1 op.2 = some s') :
    (s.hot p op = false ∧ s'.rit = (s.advance p).rit ∧ s'.swaps = s.swaps ∧ s.drawn p op = []) ∨
      ∃ (row : Nat) (s₁ : RRS), s.hot p op = true ∧ op.1 = some row ∧
        s₁.rit = (s.advance p).rit ∧ s₁.swaps = s.swaps ∧
        s₁.hotRowTracker.lookup row ≠ none ∧ s₁.swapHotRow p row op.2 = some s' ∧
        s.drawn p op = s₁.drawnFor p row op.2 := by
  obtain ⟨row, ch⟩ := op
  cases row with
  | none =>
      obtain rfl := Option.some.inj hupdate
      exact .inl ⟨rfl, rfl, advance_swaps s, rfl⟩
  | some row =>
      obtain ⟨hrit, hswaps, htracked⟩ := track_spec (p := p) (s.advance p) row ch.evict
      dsimp only [update] at hupdate
      dsimp only [drawn, hot, Option.any_some]
      rw [advance_swaps] at hswaps
      generalize (s.advance p).track p row ch.evict = tracked at *
      obtain ⟨s₁, count⟩ := tracked
      cases count with
      | none =>
          obtain rfl := Option.some.inj hupdate
          exact .inl ⟨rfl, hrit, hswaps, rfl⟩
      | some count =>
          dsimp only at hupdate htracked ⊢
          split at hupdate
          · next hdue =>
              rw [if_pos hdue]
              exact .inr ⟨row, s₁, decide_eq_true hdue, rfl, hrit, hswaps, htracked nofun, hupdate,
                rfl⟩
          · next hdue =>
              obtain rfl := Option.some.inj hupdate
              rw [if_neg hdue]
              exact .inl ⟨decide_eq_false hdue, hrit, hswaps, rfl⟩

theorem update_relinked (op : Option Nat × Choices) (h : Within numRows s.rit.check)
    (hupdate : s.update p op.1 op.2 = some s') :
    (s.hot p op = false ∧ s'.rit.check = s.rit.check ∧ s.drawn p op = []) ∨
      ∃ row t, s.hot p op = true ∧ op.1 = some row ∧ Within numRows t ∧
        t row = s.rit.check row ∧ Relinked row t (s.drawn p op) s'.rit.check := by
  rcases update_cases op hupdate with
    ⟨hcold, hrit, -, hdrawn⟩ | ⟨row, s₁, hhot, hop, hrit, -, htracked, hswap, hdrawn⟩
  · exact .inl ⟨hcold, (congrArg RIT.check hrit).trans (check_advance s), hdrawn⟩
  · have hcheck := (congrArg RIT.check hrit).trans (check_advance s)
    obtain ⟨t, ht, hrow, hlinked⟩ := swapHotRow_relinked (hcheck ▸ h) htracked hswap
    exact .inr ⟨row, t, hhot, hop, ht, hrow.trans (congrFun hcheck row), hdrawn ▸ hlinked⟩

theorem update_within {op : Option Nat × Choices} (h : Within numRows s.rit.check)
    (hrow : ∀ row, op.1 = some row → row < numRows) (hupdate : s.update p op.1 op.2 = some s')
    (hnodup : (s.drawn p op).Nodup) (hrows : ∀ row ∈ s.drawn p op, row < numRows) :
    Within numRows s'.rit.check := by
  rcases update_relinked op h hupdate with ⟨-, hcheck, -⟩ | ⟨row, t, -, hop, ht, -, hlinked⟩
  · rwa [hcheck]
  · exact hlinked.within ht (hrow row hop) hnodup hrows

/-- An update keeps the table a permutation of the rows of the bank exactly when the rows it
draws are different rows of the bank. -/
theorem update_permutesRows_iff {op : Option Nat × Choices} (h : Within numRows s.rit.check)
    (hrow : ∀ row, op.1 = some row → row < numRows) (hupdate : s.update p op.1 op.2 = some s') :
    PermutesRows numRows s'.rit.check ↔
      (s.drawn p op).Nodup ∧ ∀ row ∈ s.drawn p op, row < numRows := by
  constructor
  · intro hpermutes
    rcases update_relinked op h hupdate with ⟨-, -, hdrawn⟩ | ⟨row, t, -, hop, ht, -, hlinked⟩
    · rw [hdrawn]
      exact ⟨List.nodup_nil, nofun⟩
    · exact hlinked.of_permutesRows ht (hrow row hop) hpermutes
  · rintro ⟨hnodup, hrows⟩
    exact (update_within h hrow hupdate hnodup hrows).permutesRows

theorem update_moves {row : Nat} {ch : Choices} (h : Within numRows s.rit.check)
    (hupdate : s.update p (some row) ch = some s') (hhot : s.hot p (some row, ch) = true) :
    apply s'.rit.check row ≠ apply s.rit.check row := by
  rcases update_relinked (some row, ch) h hupdate with
    ⟨hcold, -⟩ | ⟨row', t, -, hop, ht, hrow, hlinked⟩
  · rw [hhot] at hcold
    cases hcold
  · obtain rfl : row = row' := Option.some.inj hop
    rw [apply, apply, ← hrow]
    generalize s.drawn p (some row, ch) = rows at hlinked
    generalize s'.rit.check = t' at hlinked
    cases hlinked with
    | one hfree _ hne =>
        rw [link_left hne.symm, hfree]
        exact hne
    | @again prev dst hprev hdst hne =>
        rw [link_left hne.symm, hprev, Option.getD_some, Option.getD_some]
        rintro rfl
        rw [ht.paired.symm hprev] at hdst
        cases hdst
    | @two prev dst0 dst1 hprev _ hdst1 hne0 hne1 =>
        rw [link_of_ne (ht.paired.ne hprev) hne0.symm, link_left hne1.symm, hprev, Option.getD_some,
          Option.getD_some]
        rintro rfl
        rw [ht.paired.symm hprev] at hdst1
        cases hdst1

end RRS

end AimSimulator.Plugin
