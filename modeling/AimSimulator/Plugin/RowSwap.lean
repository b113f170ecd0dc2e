import AimSimulator.Lib.Pairing
import AimSimulator.Lib.Runs
import AimSimulator.Plugin.RRS
/-!
# The indirection table and the data

While the indirection table is a table of disjoint pairs, it is the composition of the
swaps that were issued.  Swapping a row in and swapping a pair back keep it so; a row that
is swapped again within its period does not.
-/

namespace AimSimulator.Plugin

open Pairing

/-- The composition of swaps, applied to the identity placement of logical rows. -/
def placement (swaps : List (Nat × Nat)) : Equiv.Perm Nat :=
  swaps.foldl (fun place pair => place.trans (Equiv.swap pair.1 pair.2)) (Equiv.refl Nat)

theorem placement_concat (swaps : List (Nat × Nat)) (a b row : Nat) :
    placement (swaps ++ [(a, b)]) row = Equiv.swap a b (placement swaps row) := by
  rw [placement, List.foldl_append]
  rfl

/-! ## The table as a pairing -/

namespace RIT

theorem check_unlock (rit : RIT) (row : Nat) : rit.unlock.check row = rit.check row := by
  have hlookup : ∀ l : List (Sigma fun _ : Nat => RITEntry),
      (List.dlookup row (l.map fun e => (⟨e.1, { e.2 with lock := false }⟩ :
        Sigma fun _ : Nat => RITEntry))).map RITEntry.dstRow =
          (List.dlookup row l).map RITEntry.dstRow := by
    intro l
    induction l with
    | nil => rfl
    | cons e l ih =>
        obtain ⟨key, entry⟩ := e
        by_cases hkey : row = key
        · subst hkey
          simp
        · rw [List.map_cons, List.dlookup_cons_ne _ _ hkey, List.dlookup_cons_ne _ _ hkey]
          exact ih
  exact hlookup rit.entries

theorem check_insertEntry {p : RRSParams} {rit rit' : RIT} {a b : Nat}
    (h : rit.insertEntry p a b = some rit') : rit'.check = link rit.check a b := by
  unfold insertEntry at h
  dsimp only at h
  split at h
  · cases h
  · obtain rfl := Option.some.inj h
    funext row
    unfold check link
    by_cases hb : row = b
    · rw [if_pos hb, hb, AList.lookup_insert]
      rfl
    · rw [if_neg hb, AList.lookup_insert_ne hb]
      by_cases ha : row = a
      · rw [if_pos ha, ha, AList.lookup_insert]
        rfl
      · rw [if_neg ha, AList.lookup_insert_ne ha]

theorem check_removeEntry (rit : RIT) (a b : Nat) :
    (rit.removeEntry a b).check = unlink rit.check a b := by
  funext row
  unfold removeEntry check unlink
  by_cases hb : row = b
  · rw [if_pos (.inl hb), hb, AList.lookup_erase]
    rfl
  · rw [AList.lookup_erase_ne hb]
    by_cases ha : row = a
    · rw [if_pos (.inr ha), ha, AList.lookup_erase]
      rfl
    · rw [if_neg (not_or.mpr ⟨hb, ha⟩), AList.lookup_erase_ne ha]

theorem getUnswapPair_spec {rit : RIT} {exclusionList : HRT} {choice : Nat} {a b : Nat}
    (h : rit.getUnswapPair exclusionList choice = some (a, b)) :
    rit.check a = some b ∧ exclusionList.lookup a = none ∧ exclusionList.lookup b = none := by
  obtain ⟨e, he, heq⟩ := Option.map_eq_some_iff.mp h
  obtain ⟨rfl, rfl⟩ := Prod.mk.inj heq
  have hmem := List.mem_of_getElem? he
  simp only [List.mem_filter, Bool.and_eq_true, Option.isNone_iff_eq_none] at hmem
  obtain ⟨hmem, ⟨-, hfst⟩, hsnd⟩ := hmem
  refine ⟨?_, hfst, hsnd⟩
  rw [check, AList.mem_lookup_iff.mpr hmem]
  rfl

end RIT

/-! ## Steps that keep table and data together -/

namespace RRS

variable {p : RRSParams} {s s' : RRS}

def Matches (s : RRS) : Prop := ∀ row, s.rit.applyIndirection row = placement s.swaps row

/-- The table is a pairing, and is the composition of the swaps. -/
structure Tracks (s : RRS) : Prop where
  paired : Paired s.rit.check
  tables : s.Matches

theorem Tracks.congr (h : s.Tracks) (hrit : s'.rit.check = s.rit.check)
    (hswaps : s'.swaps = s.swaps) : s'.Tracks := by
  refine ⟨by rw [hrit]; exact h.paired, fun row => ?_⟩
  rw [hswaps, RIT.applyIndirection, hrit]
  exact h.tables row

theorem Tracks.swapIn (h : s.Tracks) {a b : Nat} (ha : s.rit.check a = none)
    (hb : s.rit.check b = none) (hab : a ≠ b)
    (hinsert : (s.issueSwap a b).ritInsertEntry p a b = some s') : s'.Tracks := by
  obtain ⟨rit, hrit, rfl⟩ := Option.map_eq_some_iff.mp hinsert
  have hcheck : rit.check = link s.rit.check a b := RIT.check_insertEntry hrit
  refine ⟨?_, fun row => ?_⟩
  · dsimp only
    rw [hcheck]
    exact h.paired.link ha hb hab
  · show (rit.check row).getD row = placement (s.swaps ++ [(a, b)]) row
    rw [placement_concat, ← h.tables row, hcheck]
    exact h.paired.apply_link ha hb row

theorem Tracks.swapBack (h : s.Tracks) {a b : Nat} (hab : s.rit.check a = some b) :
    ((s.issueSwap a b).ritRemoveEntry a b).Tracks := by
  have hcheck : (s.rit.removeEntry a b).check = unlink s.rit.check a b := s.rit.check_removeEntry a b
  refine ⟨?_, fun row => ?_⟩
  · show Paired (s.rit.removeEntry a b).check
    rw [hcheck]
    exact h.paired.unlink hab
  · show ((s.rit.removeEntry a b).check row).getD row = placement (s.swaps ++ [(a, b)]) row
    rw [placement_concat, ← h.tables row, hcheck]
    exact h.paired.apply_unlink hab row

theorem getRandRow_spec {row dst : Nat} {draws rest : List Nat}
    (h : s.getRandRow row draws = some (dst, rest)) :
    s.hotRowTracker.lookup dst = none ∧ s.rit.check dst = none ∧ dst ≠ row := by
  induction draws with
  | nil => cases h
  | cons randRow draws ih =>
      rw [getRandRow] at h
      split at h
      · next htest =>
          obtain ⟨rfl, rfl⟩ := Prod.mk.inj (Option.some.inj h)
          simpa [and_assoc] using htest
      · exact ih h

theorem makeRoom_spec {choice : Nat} (h : s.Tracks) (hroom : s.makeRoom p choice = some s') :
    s'.Tracks ∧ s'.hotRowTracker = s.hotRowTracker ∧
      ∀ row, s.hotRowTracker.lookup row ≠ none → s'.rit.check row = s.rit.check row := by
  unfold makeRoom at hroom
  split at hroom
  · obtain ⟨⟨a, b⟩, hpair, rfl⟩ := Option.map_eq_some_iff.mp hroom
    obtain ⟨hab, ha, hb⟩ := RIT.getUnswapPair_spec hpair
    refine ⟨h.swapBack hab, rfl, fun row hrow => ?_⟩
    show (s.rit.removeEntry a b).check row = s.rit.check row
    rw [RIT.check_removeEntry, unlink, if_neg]
    rintro (rfl | rfl)
    · exact hrow hb
    · exact hrow ha
  · obtain rfl := Option.some.inj hroom
    exact ⟨h, rfl, fun _ _ => rfl⟩

theorem swap_tracks {row : Nat} {ch : Choices} (h : s.Tracks) (hrow : s.rit.check row = none)
    (htracked : s.hotRowTracker.lookup row ≠ none) (hswap : s.swap p row ch = some s') :
    s'.Tracks := by
  obtain ⟨s₁, hroom, hswap⟩ := Option.bind_eq_some_iff.mp hswap
  obtain ⟨⟨dst, draws⟩, hdraw, hswap⟩ := Option.bind_eq_some_iff.mp hswap
  obtain ⟨h₁, -, hkept⟩ := makeRoom_spec h hroom
  obtain ⟨-, hdst, hne⟩ := getRandRow_spec hdraw
  exact h₁.swapIn ((hkept row htracked).trans hrow) hdst hne.symm hswap

theorem unswapAndSwap_tracks {row prev : Nat} {ch : Choices} (h : s.Tracks)
    (hrow : s.rit.check row = some prev) (hswap : s.unswapAndSwap p row prev ch = some s') :
    s'.Tracks := by
  obtain ⟨⟨dst, draws⟩, hdraw, hswap⟩ := Option.bind_eq_some_iff.mp hswap
  obtain ⟨-, hdst, hne⟩ := getRandRow_spec hdraw
  have hcheck := s.rit.check_removeEntry row prev
  refine (h.swapBack hrow).swapIn ?_ ?_ hne.symm hswap
  · show (s.rit.removeEntry row prev).check row = none
    rw [hcheck]
    simp [unlink]
  · show (s.rit.removeEntry row prev).check dst = none
    rw [hcheck, unlink, hdst, ite_self]

/-- Swapping a pair of the current period again moves four rows around in a cycle, where the
table notes two pairs. -/
theorem reswap_not_matches {row prev : Nat} {ch : Choices} (h : s.Tracks)
    (hrow : s.rit.check row = some prev) (htracked : s.hotRowTracker.lookup row ≠ none)
    (hswap : s.reswap p row prev ch = some s') : ¬ s'.Matches := by
  obtain ⟨s₁, hroom, hswap⟩ := Option.bind_eq_some_iff.mp hswap
  obtain ⟨⟨dst0, draws⟩, hdraw0, hswap⟩ := Option.bind_eq_some_iff.mp hswap
  obtain ⟨⟨dst1, rest⟩, hdraw1, hswap⟩ := Option.bind_eq_some_iff.mp hswap
  obtain ⟨s₂, hfirst, hsecond⟩ := Option.bind_eq_some_iff.mp hswap
  obtain ⟨rit₂, hrit₂, rfl⟩ := Option.map_eq_some_iff.mp hfirst
  obtain ⟨rit₃, hrit₃, rfl⟩ := Option.map_eq_some_iff.mp hsecond
  obtain ⟨h₁, -, hkept⟩ := makeRoom_spec h hroom
  have hrow₁ := (hkept row htracked).trans hrow
  obtain ⟨-, hdst0, hne0⟩ := getRandRow_spec hdraw0
  obtain ⟨-, hdst1, hne1⟩ := getRandRow_spec hdraw1
  have hprev := h₁.paired.symm hrow₁
  have hnePrev := h₁.paired.ne hrow₁
  have hprev0 : prev ≠ dst0 := by rintro rfl; rw [hdst0] at hprev; cases hprev
  have hprev1 : prev ≠ dst1 := by rintro rfl; rw [hdst1] at hprev; cases hprev
  have hcheck : rit₃.check = link (link (unlink s₁.rit.check row prev) row dst1) prev dst0 := by
    rw [RIT.check_insertEntry hrit₃]
    dsimp only
    rw [RIT.check_insertEntry hrit₂]
    exact congrArg (fun t => link (link t row dst1) prev dst0) (s₁.rit.check_removeEntry row prev)
  have hplace : ∀ x, placement (s₁.swaps ++ [(row, dst0)] ++ [(prev, dst1)]) x =
      Equiv.swap prev dst1 (Equiv.swap row dst0 (apply s₁.rit.check x)) := by
    intro x
    rw [placement_concat, placement_concat, ← h₁.tables x]
    rfl
  intro hmatches
  -- the row drawn first holds the data of `row`, but the table gives `prev`
  by_cases hsame : dst0 = dst1
  · have hat : (rit₃.check prev).getD prev =
        placement (s₁.swaps ++ [(row, dst0)] ++ [(prev, dst1)]) prev := hmatches prev
    rw [hplace, hcheck, apply, hprev, Option.getD_some, Equiv.swap_apply_left, hsame,
      Equiv.swap_apply_right, link, if_neg (hsame ▸ hprev0), if_pos rfl] at hat
    exact hprev1 hat.symm
  · have hat : (rit₃.check dst0).getD dst0 =
        placement (s₁.swaps ++ [(row, dst0)] ++ [(prev, dst1)]) dst0 := hmatches dst0
    rw [hplace, hcheck, apply, hdst0, Option.getD_none, Equiv.swap_apply_right,
      Equiv.swap_apply_of_ne_of_ne hnePrev hne1.symm, link, if_pos rfl] at hat
    exact hnePrev hat.symm

/-! ## Updates -/

theorem advance_tracks (h : s.Tracks) : (s.advance p).Tracks := by
  unfold advance
  split
  · exact h.congr (funext s.rit.check_unlock) rfl
  · exact h.congr rfl rfl

theorem track_spec (s : RRS) (row choice : Nat) :
    (s.track p row choice).1.rit = s.rit ∧ (s.track p row choice).1.swaps = s.swaps ∧
      ((s.track p row choice).2 ≠ none →
        (s.track p row choice).1.hotRowTracker.lookup row ≠ none) := by
  unfold track
  split
  · exact ⟨rfl, rfl, fun _ => by simp⟩
  · split
    · exact ⟨rfl, rfl, fun _ => by simp⟩
    · split
      · exact ⟨rfl, rfl, fun _ => by simp⟩
      · exact ⟨rfl, rfl, fun h => absurd rfl h⟩

/-- Whether `update` swaps a row again that was swapped in the current period: its counter
reaches a multiple of the threshold while its entry in the table is locked. -/
def reswaps (p : RRSParams) (s : RRS) (op : Option Nat × Choices) : Bool :=
  op.1.any fun row =>
    (((s.advance p).track p row op.2.evict).2.any fun count => count % p.rssThreshold = 0) &&
      (s.advance p).rit.isLocked row

theorem isLocked_check {rit : RIT} {row : Nat} (h : rit.isLocked row = true) :
    ∃ dst, rit.check row = some dst := by
  obtain ⟨e, he, -⟩ := Option.any_eq_true .. |>.mp h
  exact ⟨e.dstRow, by rw [RIT.check, he]; rfl⟩

/-- An update that swaps no row again keeps table and data together; one that does takes
them apart. -/
theorem update_spec {op : Option Nat × Choices} (h : s.Tracks)
    (hupdate : s.update p op.1 op.2 = some s') :
    (s.reswaps p op = false → s'.Tracks) ∧ (s.reswaps p op = true → ¬ s'.Matches) := by
  obtain ⟨row, ch⟩ := op
  have hadvance : (s.advance p).Tracks := advance_tracks h
  cases row with
  | none =>
      obtain rfl := Option.some.inj hupdate
      exact ⟨fun _ => hadvance, nofun⟩
  | some row =>
      obtain ⟨hrit, hswaps, htracked⟩ := track_spec (p := p) (s.advance p) row ch.evict
      dsimp only [update] at hupdate
      dsimp only [reswaps, Option.any_some]
      rw [← hrit]
      generalize (s.advance p).track p row ch.evict = tracked at *
      obtain ⟨s₁, count⟩ := tracked
      have h₁ : s₁.Tracks := hadvance.congr (congrArg RIT.check hrit) hswaps
      cases count with
      | none =>
          obtain rfl := Option.some.inj hupdate
          exact ⟨fun _ => h₁, nofun⟩
      | some count =>
          dsimp only at hupdate htracked ⊢
          have htracked := htracked nofun
          split at hupdate
          · next hdue =>
              simp only [Option.any_some, hdue, decide_true, Bool.true_and]
              unfold swapHotRow at hupdate
              split at hupdate
              · next prev hprev =>
                  split at hupdate
                  · next hlocked =>
                      refine ⟨fun hfree => ?_, fun _ =>
                        reswap_not_matches h₁ hprev htracked hupdate⟩
                      rw [hlocked] at hfree
                      cases hfree
                  · next hfree =>
                      exact ⟨fun _ => unswapAndSwap_tracks h₁ hprev hupdate,
                        fun hlocked => absurd hlocked hfree⟩
              · next hnone =>
                  refine ⟨fun _ => swap_tracks h₁ hnone htracked hupdate, fun hlocked => ?_⟩
                  obtain ⟨dst, hdst⟩ := isLocked_check hlocked
                  rw [hnone] at hdst
                  cases hdst
          · next hdue =>
              obtain rfl := Option.some.inj hupdate
              simp only [Option.any_some, hdue, decide_false, Bool.false_and]
              exact ⟨fun _ => h₁, nofun⟩

/-! ## The data -/

/-- The data of each logical row is where the swaps placed the row. -/
def Stored (s : RRS) : Prop := ∀ row, s.bank (placement s.swaps row) = row

theorem Stored.issueSwap (h : s.Stored) (a b : Nat) : (s.issueSwap a b).Stored := by
  intro row
  have hrow := h row
  show Function.update (Function.update s.bank b (s.bank a)) a (s.bank b)
    (placement (s.swaps ++ [(a, b)]) row) = row
  rw [placement_concat, Equiv.swap_apply_def]
  split
  · next ha =>
      by_cases hab : b = a
      · rw [hab, Function.update_self, ← ha, hrow]
      · rw [Function.update_of_ne hab, Function.update_self, ← ha, hrow]
  · next ha =>
      split
      · next hb => rw [Function.update_self, ← hb, hrow]
      · next hb => rw [Function.update_of_ne ha, Function.update_of_ne hb, hrow]

theorem Stored.ritRemoveEntry (h : s.Stored) (a b : Nat) : (s.ritRemoveEntry a b).Stored := h

theorem ritInsertEntry_stored {a b : Nat} (h : s.Stored)
    (hinsert : s.ritInsertEntry p a b = some s') : s'.Stored := by
  obtain ⟨rit, -, rfl⟩ := Option.map_eq_some_iff.mp hinsert
  exact h

theorem makeRoom_stored {choice : Nat} (h : s.Stored) (hroom : s.makeRoom p choice = some s') :
    s'.Stored := by
  unfold makeRoom at hroom
  split at hroom
  · obtain ⟨⟨a, b⟩, -, rfl⟩ := Option.map_eq_some_iff.mp hroom
    exact (h.issueSwap a b).ritRemoveEntry a b
  · obtain rfl := Option.some.inj hroom
    exact h

theorem swapHotRow_stored {row : Nat} {ch : Choices} (h : s.Stored)
    (hswap : s.swapHotRow p row ch = some s') : s'.Stored := by
  unfold swapHotRow at hswap
  split at hswap
  · next prev hprev =>
    split at hswap
    · obtain ⟨s₁, hroom, hswap⟩ := Option.bind_eq_some_iff.mp hswap
      obtain ⟨⟨dst0, draws⟩, -, hswap⟩ := Option.bind_eq_some_iff.mp hswap
      obtain ⟨⟨dst1, rest⟩, -, hswap⟩ := Option.bind_eq_some_iff.mp hswap
      obtain ⟨s₂, hfirst, hsecond⟩ := Option.bind_eq_some_iff.mp hswap
      have h₁ : s₁.Stored := makeRoom_stored h hroom
      have hmoved := ((h₁.ritRemoveEntry row prev).issueSwap row dst0).issueSwap prev dst1
      exact ritInsertEntry_stored (ritInsertEntry_stored hmoved hfirst) hsecond
    · obtain ⟨⟨dst, draws⟩, -, hswap⟩ := Option.bind_eq_some_iff.mp hswap
      have hmoved := ((h.issueSwap row prev).ritRemoveEntry row prev).issueSwap row dst
      exact ritInsertEntry_stored hmoved hswap
  · obtain ⟨s₁, hroom, hswap⟩ := Option.bind_eq_some_iff.mp hswap
    obtain ⟨⟨dst, draws⟩, -, hswap⟩ := Option.bind_eq_some_iff.mp hswap
    exact ritInsertEntry_stored ((makeRoom_stored h hroom).issueSwap row dst) hswap

theorem update_stored {op : Option Nat × Choices} (h : s.Stored)
    (hupdate : s.update p op.1 op.2 = some s') : s'.Stored := by
  obtain ⟨row, ch⟩ := op
  have hadvance : (s.advance p).Stored := by
    unfold advance
    split <;> exact h
  cases row with
  | none =>
      obtain rfl := Option.some.inj hupdate
      exact hadvance
  | some row =>
      have htrack : ((s.advance p).track p row ch.evict).1.Stored := by
        unfold track
        split
        · exact hadvance
        · split
          · exact hadvance
          · split <;> exact hadvance
      dsimp only [update] at hupdate
      generalize (s.advance p).track p row ch.evict = tracked at *
      obtain ⟨s₁, count⟩ := tracked
      cases count with
      | none =>
          obtain rfl := Option.some.inj hupdate
          exact htrack
      | some count =>
          dsimp only at hupdate
          split at hupdate
          · exact swapHotRow_stored htrack hupdate
          · obtain rfl := Option.some.inj hupdate
            exact htrack

/-! ## Runs -/

/-- The states reached from the start by updates that all meet a guard. -/
abbrev Run (p : RRSParams) (guard : RRS → Option Nat × Choices → Prop) : RRS → Prop :=
  Runs.Reachable (fun s => s = {}) (fun s op t => s.update p op.1 op.2 = some t) guard

/-- The swaps move the data as they compose, whatever is swapped. -/
theorem run_stored {guard : RRS → Option Nat × Choices → Prop} (hr : Run p guard s) :
    s.Stored := by
  refine hr.invariant ?_ ?_
  · rintro s rfl row
    rfl
  · exact fun s op t h _ hupdate => update_stored h hupdate

theorem run_tracks (hr : Run p (fun s op => s.reswaps p op = false) s) : s.Tracks := by
  refine hr.invariant ?_ ?_
  · rintro s rfl
    exact ⟨fun a b hab => (nofun : (none : Option Nat) ≠ some b) hab |>.elim, fun row => rfl⟩
  · exact fun s op t h hg hupdate => (update_spec h hupdate).1 hg

/-- As long as no row is swapped again within a period the table is the composition of the
swaps, so that it sends each row to its data, and the next update keeps it so if and only if it
swaps no row again. -/
theorem run_matches (hr : Run p (fun s op => s.reswaps p op = false) s) :
    s.Matches ∧ (∀ row, s.bank (s.rit.applyIndirection row) = row) ∧
      ∀ op t, s.update p op.1 op.2 = some t → (t.Matches ↔ s.reswaps p op = false) := by
  have h := run_tracks hr
  refine ⟨h.tables, fun row => ?_, fun op t hupdate => ?_⟩
  · rw [h.tables row]
    exact run_stored hr row
  obtain ⟨hkept, hbroken⟩ := update_spec h hupdate
  constructor
  · intro hmatches
    cases hcase : s.reswaps p op with
    | false => rfl
    | true => exact absurd hmatches (hbroken hcase)
  · exact fun hfree => (hkept hfree).tables

/-- A run that swaps row 5 with row 9. -/
theorem run_matches_swap :
    ∃ s : RRS, s.swaps = [(5, 9)] ∧ ∀ row, s.rit.applyIndirection row = placement s.swaps row := by
  have hrun : ((Runs.replay (fun (s : RRS) op => s.update ⟨4, 8, 1, 1000⟩ op.1 op.2)
      (fun s op => !s.reswaps ⟨4, 8, 1, 1000⟩ op) {} [(some 5, { draws := [9] })]).any
        fun s => s.swaps = [(5, 9)]) = true := by
    decide +kernel
  obtain ⟨s, hs, hswaps⟩ := Option.any_eq_true .. |>.mp hrun
  exact ⟨s, of_decide_eq_true hswaps,
    (run_matches (Runs.replay_reachable (by simp) (.start rfl) hs)).1⟩

/-- Row 5 is swapped with row 9, and again in the same period with the draws 1 and 2: the
table then sends row 1 to row 9, but the swaps placed it in row 5. -/
theorem reswap_takes_apart :
    ∃ s : RRS, Run ⟨4, 8, 1, 1000⟩ (fun _ _ => True) s ∧
      s.swaps = [(5, 9), (5, 1), (9, 2)] ∧
      s.rit.applyIndirection 1 = 9 ∧ placement s.swaps 1 = 5 ∧ ¬ s.Matches := by
  have hrun : ((Runs.replay (fun (s : RRS) op => s.update ⟨4, 8, 1, 1000⟩ op.1 op.2)
      (fun _ _ => true) {}
        [(some 5, { draws := [9] }), (some 5, { draws := [1, 2] })]).any fun s =>
          s.swaps = [(5, 9), (5, 1), (9, 2)] && s.rit.applyIndirection 1 = 9) = true := by
    decide +kernel
  obtain ⟨s, hs, htest⟩ := Option.any_eq_true .. |>.mp hrun
  obtain ⟨hswaps, happly⟩ := Bool.and_eq_true_iff.mp htest
  have hswaps : s.swaps = [(5, 9), (5, 1), (9, 2)] := of_decide_eq_true hswaps
  have happly : s.rit.applyIndirection 1 = 9 := of_decide_eq_true happly
  have hplace : placement s.swaps 1 = 5 := by
    rw [hswaps]
    decide
  refine ⟨s, Runs.replay_reachable (fun _ _ _ => trivial) (.start rfl) hs, hswaps, happly,
    hplace, fun hmatches => ?_⟩
  have hat := hmatches 1
  rw [happly, hplace] at hat
  exact absurd hat (by decide)

end RRS

end AimSimulator.Plugin
