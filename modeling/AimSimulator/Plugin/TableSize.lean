import AimSimulator.Plugin.SharedTable
/-!
# The size of the indirection table

`update` of `rrs.cpp` tests whether the table of a bank is full before it inserts a pair of
entries, or two pairs behind the removal of one.  A table of disjoint pairs has an even number
of entries, so the test makes enough room for an even capacity; for an odd one it passes at
one entry below the capacity.
-/

namespace AimSimulator.Plugin

open Pairing

/-! ## The entries of a table -/

namespace RIT

/-- The table that `rit_insert_entry` makes, before it looks at the size. -/
def inserted (rit : RIT) (srcRow dstRow : Nat) : RIT :=
  (rit.insert srcRow ⟨dstRow, true⟩).insert dstRow ⟨srcRow, true⟩

def size (rit : RIT) : Nat := rit.entries.length

theorem insertEntry_eq (p : RRSParams) (rit : RIT) (a b : Nat) :
    rit.insertEntry p a b =
      if (rit.inserted a b).size > p.numRitEntries then none else some (rit.inserted a b) := rfl

theorem check_eq_none {rit : RIT} {a : Nat} : rit.check a = none ↔ a ∉ rit := by
  rw [check, Option.map_eq_none_iff, AList.lookup_eq_none]

theorem length_keys (rit : RIT) : rit.keys.length = rit.size := List.length_map ..

theorem size_insert {rit : RIT} {a : Nat} (h : a ∉ rit) (e : RITEntry) :
    size (AList.insert a e rit) = rit.size + 1 :=
  congrArg List.length (AList.entries_insert_of_notMem h)

theorem size_erase {rit : RIT} {a : Nat} (h : a ∈ rit) : size (AList.erase a rit) + 1 = rit.size := by
  have hkeys := congrArg List.length (AList.keys_erase a rit)
  rw [List.length_erase_of_mem (AList.mem_keys.mp h), length_keys, length_keys] at hkeys
  have hpos := List.length_pos_of_mem (AList.mem_keys.mp h)
  rw [length_keys] at hpos
  omega

theorem size_inserted {rit : RIT} {a b : Nat} (ha : rit.check a = none) (hb : rit.check b = none)
    (hne : a ≠ b) : (rit.inserted a b).size = rit.size + 2 := by
  have hb' : b ∉ AList.insert a ⟨b, true⟩ rit := by
    rw [AList.mem_insert]
    exact not_or.mpr ⟨hne.symm, check_eq_none.mp hb⟩
  calc (rit.inserted a b).size
    _ = size (AList.insert a ⟨b, true⟩ rit) + 1 := size_insert hb' _
    _ = rit.size + 2 := by rw [size_insert (check_eq_none.mp ha)]

theorem mem_of_check {rit : RIT} {a b : Nat} (h : rit.check a = some b) : a ∈ rit := by
  by_contra hnot
  rw [check_eq_none.mpr hnot] at h
  cases h

theorem size_removeEntry {rit : RIT} {a b : Nat} (h : Paired rit.check) (hab : rit.check a = some b) :
    (rit.removeEntry a b).size + 2 = rit.size := by
  have hb : b ∈ AList.erase a rit :=
    AList.mem_erase.mpr ⟨(h.ne hab).symm, mem_of_check (h.symm hab)⟩
  calc (rit.removeEntry a b).size + 2
    _ = size (AList.erase b (AList.erase a rit)) + 1 + 1 := rfl
    _ = size (AList.erase a rit) + 1 := by rw [size_erase hb]
    _ = rit.size := size_erase (mem_of_check hab)

theorem check_inserted (rit : RIT) (a b : Nat) : (rit.inserted a b).check = link rit.check a b :=
  check_insertEntry (p := ⟨0, (rit.inserted a b).size, 0, 0⟩)
    (if_neg (Nat.lt_irrefl _))

theorem size_unlock (rit : RIT) : rit.unlock.size = rit.size := List.length_map ..

end RIT

/-! ## The insertions of an update -/

namespace RRS

/-- The tables that the insertions of `swapHotRow` make, each before its size is looked at. -/
def insertionsFor (p : RRSParams) (s : RRS) (row : Nat) (ch : Choices) : List RIT :=
  match s.rit.check row with
  | some prevSwappedRow =>
      if s.rit.isLocked row then
        ((s.makeRoom p ch.unswap).bind fun s =>
          (s.getRandRow row ch.draws).bind fun dst0 =>
            (s.getRandRow row dst0.2).map fun dst1 =>
              let first := (s.rit.removeEntry row prevSwappedRow).inserted row dst1.1
              [first, first.inserted prevSwappedRow dst0.1]).getD []
      else
        ((s.getRandRow row ch.draws).map fun dst =>
          [(s.rit.removeEntry row prevSwappedRow).inserted row dst.1]).getD []
  | none =>
      ((s.makeRoom p ch.unswap).bind fun s =>
        (s.getRandRow row ch.draws).map fun dst => [s.rit.inserted row dst.1]).getD []

def insertions (p : RRSParams) (s : RRS) (op : Option Nat × Choices) : List RIT :=
  match op.1 with
  | none => []
  | some row =>
      match (s.advance p).track p row op.2.evict with
      | (s', some count) =>
          if count % p.rssThreshold = 0 then s'.insertionsFor p row op.2 else []
      | (_, none) => []

variable {p : RRSParams} {s s' : RRS} {row : Nat} {ch : Choices}

theorem ritInsertEntry_eq (s : RRS) (a b : Nat) :
    s.ritInsertEntry p a b =
      if (s.rit.inserted a b).size > p.numRitEntries then none
      else some { s with rit := s.rit.inserted a b } := by
  rw [ritInsertEntry, RIT.insertEntry_eq]
  split <;> rfl

/-- The cases of the insertions: none, one for a free row or a row of an earlier period, two for
a row of this period. -/
theorem insertionsFor_cases (p : RRSParams) (s : RRS) (row : Nat) (ch : Choices) :
    (s.insertionsFor p row ch = [] ∧ s.swapHotRow p row ch = none) ∨
    (∃ s₁ dst rest, s.rit.check row = none ∧ s.makeRoom p ch.unswap = some s₁ ∧
      s₁.getRandRow row ch.draws = some (dst, rest) ∧
      s.insertionsFor p row ch = [s₁.rit.inserted row dst] ∧ s.drawnFor p row ch = [dst] ∧
      s.swapHotRow p row ch = (s₁.issueSwap row dst).ritInsertEntry p row dst) ∨
    (∃ prev dst rest, s.rit.check row = some prev ∧ s.rit.isLocked row = false ∧
      s.getRandRow row ch.draws = some (dst, rest) ∧
      s.insertionsFor p row ch = [(s.rit.removeEntry row prev).inserted row dst] ∧
      s.drawnFor p row ch = [dst] ∧
      s.swapHotRow p row ch = (((s.issueSwap row prev).ritRemoveEntry row prev).issueSwap row
        dst).ritInsertEntry p row dst) ∨
    ∃ prev s₁ dst0 draws dst1 rest, s.rit.check row = some prev ∧ s.rit.isLocked row = true ∧
      s.makeRoom p ch.unswap = some s₁ ∧ s₁.getRandRow row ch.draws = some (dst0, draws) ∧
      s₁.getRandRow row draws = some (dst1, rest) ∧
      s.insertionsFor p row ch = [(s₁.rit.removeEntry row prev).inserted row dst1,
        ((s₁.rit.removeEntry row prev).inserted row dst1).inserted prev dst0] ∧
      s.drawnFor p row ch = [dst0, dst1] ∧
      s.swapHotRow p row ch = ((((s₁.ritRemoveEntry row prev).issueSwap row dst0).issueSwap prev
        dst1).ritInsertEntry p row dst1).bind fun s => s.ritInsertEntry p prev dst0 := by
  unfold insertionsFor swapHotRow drawnFor
  cases hentry : s.rit.check row with
  | none =>
      dsimp only
      unfold swap
      cases hroom : s.makeRoom p ch.unswap with
      | none => exact .inl ⟨rfl, rfl⟩
      | some s₁ =>
          rw [Option.bind_some, Option.bind_some, Option.bind_some]
          cases hdraw : s₁.getRandRow row ch.draws with
          | none => exact .inl ⟨rfl, rfl⟩
          | some dst => exact .inr (.inl ⟨s₁, dst.1, dst.2, rfl, rfl, hdraw, rfl, rfl, rfl⟩)
  | some prev =>
      dsimp only
      cases hlocked : s.rit.isLocked row with
      | false =>
          rw [if_neg Bool.false_ne_true, if_neg Bool.false_ne_true, if_neg Bool.false_ne_true]
          unfold unswapAndSwap
          cases hdraw : s.getRandRow row ch.draws with
          | none => exact .inl ⟨rfl, rfl⟩
          | some dst => exact .inr (.inr (.inl ⟨prev, dst.1, dst.2, rfl, rfl, rfl, rfl, rfl, rfl⟩))
      | true =>
          rw [if_pos rfl, if_pos rfl, if_pos rfl]
          unfold reswap
          cases hroom : s.makeRoom p ch.unswap with
          | none => exact .inl ⟨rfl, rfl⟩
          | some s₁ =>
              rw [Option.bind_some, Option.bind_some, Option.bind_some]
              cases hdraw0 : s₁.getRandRow row ch.draws with
              | none => exact .inl ⟨rfl, rfl⟩
              | some dst0 =>
                  obtain ⟨dst0, draws⟩ := dst0
                  rw [Option.bind_some, Option.bind_some, Option.bind_some]
                  cases hdraw1 : s₁.getRandRow row draws with
                  | none => exact .inl ⟨rfl, by dsimp only; rw [hdraw1]; rfl⟩
                  | some dst1 =>
                      exact .inr (.inr (.inr ⟨prev, s₁, dst0, draws, dst1.1, dst1.2, rfl, rfl, rfl,
                        hdraw0, hdraw1, rfl, rfl, by dsimp only; rw [hdraw1]; rfl⟩))

theorem ritInsertEntry_isSome {a b : Nat} :
    (∃ t, s.ritInsertEntry p a b = some t) ↔ (s.rit.inserted a b).size ≤ p.numRitEntries := by
  rw [ritInsertEntry_eq]
  split
  · next hover => exact ⟨fun ⟨_, h⟩ => (nomatch h), fun hle => absurd hle (Nat.not_le_of_lt hover)⟩
  · next hfit => exact ⟨fun _ => Nat.le_of_not_lt hfit, fun _ => ⟨_, rfl⟩⟩

theorem rit_ritInsertEntry {a b : Nat} (h : s.ritInsertEntry p a b = some s') :
    s'.rit = s.rit.inserted a b := by
  rw [ritInsertEntry_eq] at h
  split at h
  · cases h
  · exact Option.some.inj h ▸ rfl

/-- A swap ends without the exit of `rit_insert_entry` exactly when its insertions fit; its table
is then the one that the last insertion made. -/
theorem swapHotRow_insertions (p : RRSParams) (s : RRS) (row : Nat) (ch : Choices) :
    ((∃ t, s.swapHotRow p row ch = some t) ↔ s.insertionsFor p row ch ≠ [] ∧
      ∀ rit ∈ s.insertionsFor p row ch, rit.size ≤ p.numRitEntries) ∧
    ∀ t, s.swapHotRow p row ch = some t → t.rit ∈ s.insertionsFor p row ch := by
  rcases insertionsFor_cases p s row ch with
    ⟨hempty, hnone⟩ | ⟨s₁, dst, rest, -, -, -, hinserted, -, hswap⟩ |
    ⟨prev, dst, rest, -, -, -, hinserted, -, hswap⟩ |
    ⟨prev, s₁, dst0, draws, dst1, rest, -, -, -, -, -, hinserted, -, hswap⟩
  · rw [hempty, hnone]
    exact ⟨⟨fun ⟨_, h⟩ => (nomatch h), fun h => absurd rfl h.1⟩, nofun⟩
  · rw [hinserted, hswap, List.forall_mem_singleton, ritInsertEntry_isSome]
    refine ⟨(and_iff_right (List.cons_ne_nil _ _)).symm, fun t ht => ?_⟩
    exact List.mem_singleton.mpr (rit_ritInsertEntry (s := s₁.issueSwap row dst) ht)
  · rw [hinserted, hswap, List.forall_mem_singleton, ritInsertEntry_isSome]
    refine ⟨(and_iff_right (List.cons_ne_nil _ _)).symm, fun t ht => ?_⟩
    exact List.mem_singleton.mpr (rit_ritInsertEntry ht)
  · rw [hinserted, hswap]
    simp only [List.forall_mem_cons, List.not_mem_nil, false_implies, implies_true, and_true]
    rw [and_iff_right (List.cons_ne_nil _ _)]
    refine ⟨⟨fun ⟨t, ht⟩ => ?_, fun ⟨hfit1, hfit2⟩ => ?_⟩, fun t ht => ?_⟩
    · obtain ⟨s₂, hfirst, hsecond⟩ := Option.bind_eq_some_iff.mp ht
      have hfit2 := ritInsertEntry_isSome.mp ⟨t, hsecond⟩
      rw [rit_ritInsertEntry hfirst] at hfit2
      exact ⟨ritInsertEntry_isSome.mp ⟨s₂, hfirst⟩, hfit2⟩
    · obtain ⟨s₂, hfirst⟩ := ritInsertEntry_isSome (p := p) (a := row) (b := dst1)
        (s := ((s₁.ritRemoveEntry row prev).issueSwap row dst0).issueSwap prev dst1) |>.mpr hfit1
      rw [hfirst, Option.bind_some]
      refine ritInsertEntry_isSome.mpr ?_
      rw [rit_ritInsertEntry hfirst]
      exact hfit2
    · obtain ⟨s₂, hfirst, hsecond⟩ := Option.bind_eq_some_iff.mp ht
      have hlast := rit_ritInsertEntry hsecond
      rw [rit_ritInsertEntry hfirst] at hlast
      exact List.mem_cons_of_mem _ (List.mem_singleton.mpr hlast)

/-! ## Balanced tables -/

structure Balanced (capacity : Nat) (rit : RIT) : Prop where
  paired : Paired rit.check
  even : rit.size % 2 = 0
  le : rit.size ≤ capacity

/-- Making room leaves a pair of places free, unless the table is one entry below its capacity;
it keeps the entries of the rows in the tracker. -/
theorem makeRoom_size {choice : Nat} (h : Balanced p.numRitEntries s.rit)
    (hroom : s.makeRoom p choice = some s') :
    Balanced p.numRitEntries s'.rit ∧
      (s.rit.size + 1 ≠ p.numRitEntries → s'.rit.size + 2 ≤ p.numRitEntries) ∧
      (s.rit.size + 1 = p.numRitEntries → s'.rit.size = s.rit.size) ∧
      ∀ row, s.hotRowTracker.lookup row ≠ none → s'.rit.check row = s.rit.check row := by
  obtain ⟨hpaired, heven, hle⟩ := h
  unfold makeRoom at hroom
  change (if s.rit.size ≥ p.numRitEntries then _ else _) = _ at hroom
  split at hroom
  · next hfull =>
      obtain ⟨⟨a, b⟩, hpair, rfl⟩ := Option.map_eq_some_iff.mp hroom
      obtain ⟨hab, ha, hb⟩ := RIT.getUnswapPair_spec hpair
      have hcheck := s.rit.check_removeEntry a b
      have hsize : (s.rit.removeEntry a b).size + 2 = s.rit.size := RIT.size_removeEntry hpaired hab
      change Balanced _ (s.rit.removeEntry a b) ∧
        (_ → (s.rit.removeEntry a b).size + 2 ≤ p.numRitEntries) ∧
        (_ → (s.rit.removeEntry a b).size = s.rit.size) ∧ _
      refine ⟨⟨hcheck ▸ hpaired.unlink hab, by omega, by omega⟩, by omega, by omega,
        fun row hrow => ?_⟩
      change (s.rit.removeEntry a b).check row = s.rit.check row
      rw [hcheck, unlink, if_neg]
      rintro (rfl | rfl)
      · exact hrow hb
      · exact hrow ha
  · obtain rfl := Option.some.inj hroom
    exact ⟨⟨hpaired, heven, hle⟩, by omega, fun _ => rfl, fun _ _ => rfl⟩

/-- The insertions of a swap make tables of pairs when the rows drawn are different.  They fit
unless the table is one entry below its capacity and the row is free or of this period. -/
theorem insertionsFor_spec (h : Balanced p.numRitEntries s.rit)
    (htracked : s.hotRowTracker.lookup row ≠ none) (hnodup : (s.drawnFor p row ch).Nodup) :
    (∀ rit ∈ s.insertionsFor p row ch, Paired rit.check ∧ rit.size % 2 = 0) ∧
      (s.insertionsFor p row ch ≠ [] →
        ((∀ rit ∈ s.insertionsFor p row ch, rit.size ≤ p.numRitEntries) ↔
          (s.rit.check row = none ∨ s.rit.isLocked row = true →
            s.rit.size + 1 ≠ p.numRitEntries))) := by
  have heven := h.even
  have hle := h.le
  rcases insertionsFor_cases p s row ch with
    ⟨hempty, -⟩ | ⟨s₁, dst, rest, hentry, hroom, hdraw, hinserted, -, -⟩ |
    ⟨prev, dst, rest, hentry, hfree, hdraw, hinserted, -, -⟩ |
    ⟨prev, s₁, dst0, draws, dst1, rest, hentry, hlocked, hroom, hdraw0, hdraw1, hinserted, hdrawn,
      -⟩
  · rw [hempty]
    exact ⟨nofun, fun hne => absurd rfl hne⟩
  · -- a free row
    obtain ⟨⟨hpaired, heven₁, -⟩, hfits, hnot, hkept⟩ := makeRoom_size h hroom
    obtain ⟨-, hdst, hne⟩ := getRandRow_spec hdraw
    have hrow := (hkept row htracked).trans hentry
    have hsize := RIT.size_inserted hrow hdst hne.symm
    rw [hinserted, List.forall_mem_singleton, List.forall_mem_singleton, RIT.check_inserted]
    refine ⟨⟨hpaired.link hrow hdst hne.symm, by omega⟩, fun _ => ?_⟩
    constructor
    · intro hfit _ hone
      have hsame := hnot hone
      omega
    · intro hone
      have hfit := hfits (hone (.inl hentry))
      omega
  · -- a row of an earlier period: its pair is removed first
    obtain ⟨-, hdst, hne⟩ := getRandRow_spec hdraw
    have hcheck := s.rit.check_removeEntry row prev
    have hremoved := RIT.size_removeEntry h.paired hentry
    have hrow' : (s.rit.removeEntry row prev).check row = none := hcheck ▸ unlink_left _ _ _
    have hdst' : (s.rit.removeEntry row prev).check dst = none :=
      hcheck ▸ unlink_eq_none _ _ hdst
    have hsize := RIT.size_inserted hrow' hdst' hne.symm
    rw [hinserted, List.forall_mem_singleton, List.forall_mem_singleton, RIT.check_inserted]
    refine ⟨⟨?_, by omega⟩, fun _ => ⟨fun _ hcase => ?_, fun _ => by omega⟩⟩
    · exact Paired.link (hcheck ▸ h.paired.unlink hentry) hrow' hdst' hne.symm
    · rcases hcase with hnone | hlocked
      · rw [hentry] at hnone
        cases hnone
      · rw [hfree] at hlocked
        cases hlocked
  · -- a row of this period: its pair is removed and two pairs are inserted
    obtain ⟨⟨hpaired, heven₁, -⟩, hfits, hnot, hkept⟩ := makeRoom_size h hroom
    obtain ⟨-, hdst0, hne0⟩ := getRandRow_spec hdraw0
    obtain ⟨-, hdst1, hne1⟩ := getRandRow_spec hdraw1
    have hrow := (hkept row htracked).trans hentry
    have hback := hpaired.symm hrow
    have hprev0 : prev ≠ dst0 := by rintro rfl; rw [hdst0] at hback; cases hback
    have hprev1 : prev ≠ dst1 := by rintro rfl; rw [hdst1] at hback; cases hback
    have hdistinct : dst0 ≠ dst1 := by
      rw [hdrawn] at hnodup
      exact fun heq => (List.nodup_cons.mp hnodup).1 (List.mem_singleton.mpr heq)
    have hcheck := s₁.rit.check_removeEntry row prev
    have hremoved := RIT.size_removeEntry hpaired hrow
    have hrow' : (s₁.rit.removeEntry row prev).check row = none := hcheck ▸ unlink_left _ _ _
    have hdst1' : (s₁.rit.removeEntry row prev).check dst1 = none :=
      hcheck ▸ unlink_eq_none _ _ hdst1
    have hfirst : Paired ((s₁.rit.removeEntry row prev).inserted row dst1).check := by
      rw [RIT.check_inserted]
      exact Paired.link (hcheck ▸ hpaired.unlink hrow) hrow' hdst1' hne1.symm
    have hprev' : ((s₁.rit.removeEntry row prev).inserted row dst1).check prev = none := by
      rw [RIT.check_inserted, link_of_ne (hpaired.ne hrow).symm hprev1, hcheck]
      exact unlink_right _ _ _
    have hdst0' : ((s₁.rit.removeEntry row prev).inserted row dst1).check dst0 = none := by
      rw [RIT.check_inserted, link_of_ne hne0 hdistinct, hcheck]
      exact unlink_eq_none _ _ hdst0
    have hsize1 := RIT.size_inserted hrow' hdst1' hne1.symm
    have hsize2 := RIT.size_inserted hprev' hdst0' hprev0
    rw [hinserted]
    simp only [List.forall_mem_cons, List.not_mem_nil, false_implies, implies_true, and_true]
    refine ⟨⟨⟨hfirst, by omega⟩, ?_, by omega⟩, fun _ => ⟨?_, fun hone => ?_⟩⟩
    · rw [RIT.check_inserted]
      exact hfirst.link hprev' hdst0' hprev0
    · rintro ⟨-, hfit⟩ _ hone
      have hsame := hnot hone
      omega
    · have hfit := hfits (hone (.inr hlocked))
      omega

/-- Whether an update that swaps a row which is free, or was swapped in this period, finds the
table other than one entry below its capacity. -/
def Fits (p : RRSParams) (s : RRS) (op : Option Nat × Choices) : Prop :=
  ∀ row, op.1 = some row → s.hot p op = true →
    ((s.advance p).rit.check row = none ∨ (s.advance p).rit.isLocked row = true) →
      s.rit.size + 1 ≠ p.numRitEntries

theorem Balanced.fits (h : Balanced p.numRitEntries s.rit) (heven : p.numRitEntries % 2 = 0)
    (op : Option Nat × Choices) : s.Fits p op := by
  have hsize := h.even
  exact fun _ _ _ _ => by omega

theorem Balanced.advance (h : Balanced p.numRitEntries s.rit) :
    Balanced p.numRitEntries (s.advance p).rit ∧ (s.advance p).rit.size = s.rit.size := by
  have hsize : (s.advance p).rit.size = s.rit.size := by
    unfold RRS.advance
    split
    · exact s.rit.size_unlock
    · rfl
  exact ⟨⟨check_advance (p := p) s ▸ h.paired, hsize ▸ h.even, hsize ▸ h.le⟩, hsize⟩

theorem insertions_cases (p : RRSParams) (s : RRS) (op : Option Nat × Choices) :
    (s.insertions p op = [] ∧ s.drawn p op = [] ∧
      ∃ s', s.update p op.1 op.2 = some s' ∧ s'.rit = (s.advance p).rit) ∨
      ∃ (row : Nat) (s₁ : RRS), op.1 = some row ∧ s.hot p op = true ∧
        s₁.rit = (s.advance p).rit ∧ s₁.hotRowTracker.lookup row ≠ none ∧
        s.insertions p op = s₁.insertionsFor p row op.2 ∧
        s.drawn p op = s₁.drawnFor p row op.2 ∧
        s.update p op.1 op.2 = s₁.swapHotRow p row op.2 := by
  obtain ⟨row, ch⟩ := op
  cases row with
  | none => exact .inl ⟨rfl, rfl, _, rfl, rfl⟩
  | some row =>
      obtain ⟨hrit, -, htracked⟩ := track_spec (p := p) (s.advance p) row ch.evict
      dsimp only [update, insertions, drawn, hot, Option.any_some]
      generalize (s.advance p).track p row ch.evict = tracked at *
      obtain ⟨s₁, count⟩ := tracked
      cases count with
      | none => exact .inl ⟨rfl, rfl, s₁, rfl, hrit⟩
      | some count =>
          dsimp only at htracked ⊢
          by_cases hdue : count % p.rssThreshold = 0
          · rw [if_pos hdue, if_pos hdue, if_pos hdue]
            exact .inr ⟨row, s₁, rfl, decide_eq_true hdue, hrit, htracked nofun, rfl, rfl, rfl⟩
          · rw [if_neg hdue, if_neg hdue, if_neg hdue]
            exact .inl ⟨rfl, rfl, s₁, rfl, hrit⟩

theorem insertions_fit_iff {op : Option Nat × Choices} (h : Balanced p.numRitEntries s.rit)
    (hnodup : (s.drawn p op).Nodup) (hne : s.insertions p op ≠ []) :
    (∀ rit ∈ s.insertions p op, rit.size ≤ p.numRitEntries) ↔ s.Fits p op := by
  rcases insertions_cases p s op with
    ⟨hempty, -⟩ | ⟨row, s₁, hop, hhot, hrit, htracked, hinsertions, hdrawn, -⟩
  · exact absurd hempty hne
  · obtain ⟨hadvance, hsize⟩ := h.advance
    rw [hinsertions] at hne ⊢
    rw [hdrawn] at hnodup
    have hspec := (insertionsFor_spec (hrit ▸ hadvance) htracked hnodup).2 hne
    rw [hrit, hsize] at hspec
    rw [hspec]
    constructor
    · intro hfits row' hop' _
      obtain rfl := Option.some.inj (hop.symm.trans hop')
      exact hfits
    · exact fun hfits => hfits row hop hhot

theorem update_balanced {op : Option Nat × Choices} (h : Balanced p.numRitEntries s.rit)
    (hnodup : (s.drawn p op).Nodup) (hupdate : s.update p op.1 op.2 = some s') :
    Balanced p.numRitEntries s'.rit := by
  obtain ⟨hadvance, -⟩ := h.advance
  rcases insertions_cases p s op with
    ⟨-, -, t, ht, hrit⟩ | ⟨row, s₁, -, -, hrit, htracked, -, hdrawn, hswap⟩
  · obtain rfl := Option.some.inj (ht.symm.trans hupdate)
    exact hrit ▸ hadvance
  · rw [hdrawn] at hnodup
    rw [hswap] at hupdate
    obtain ⟨hends, hlast⟩ := swapHotRow_insertions p s₁ row op.2
    have hmem := hlast s' hupdate
    obtain ⟨hpaired, heven⟩ := (insertionsFor_spec (hrit ▸ hadvance) htracked hnodup).1 _ hmem
    exact ⟨hpaired, heven, (hends.mp ⟨s', hupdate⟩).2 _ hmem⟩

end RRS

/-! ## All banks -/

namespace SwapSystem

/-- The rows that a call draws for both rows of a pair are different. -/
def DrawsDistinct (cfg : SwapConfig) (s : SwapSystem) (op : SwapOp) : Prop :=
  ∀ b, ((s.bank op.channel b).drawn cfg.params (bankOp cfg op b)).Nodup

/-- Each insertion of a call leaves the table of its bank within the capacity. -/
def InsertionsFit (cfg : SwapConfig) (s : SwapSystem) (op : SwapOp) : Prop :=
  ∀ b, ∀ rit ∈ (s.bank op.channel b).insertions cfg.params (bankOp cfg op b),
    rit.size ≤ cfg.params.numRitEntries

instance (cfg : SwapConfig) (s : SwapSystem) (op : SwapOp) (b : Nat) :
    Decidable (∀ rit ∈ (s.bank op.channel b).insertions cfg.params (bankOp cfg op b),
      rit.size ≤ cfg.params.numRitEntries) :=
  inferInstanceAs (Decidable (∀ rit ∈ _, _ ≤ _))

def HasRoom (cfg : SwapConfig) (s : SwapSystem) (op : SwapOp) : Prop :=
  ∀ b, (s.bank op.channel b).insertions cfg.params (bankOp cfg op b) ≠ [] →
    (s.bank op.channel b).Fits cfg.params (bankOp cfg op b)

variable {cfg : SwapConfig} {s s' : SwapSystem} {op : SwapOp}

theorem Run.balanced (h : Run cfg (DrawsDistinct cfg) s) (b : Nat) :
    RRS.Balanced cfg.params.numRitEntries (s.rowIndirectionTable b) := by
  refine h.invariant (I := fun s : SwapSystem =>
    ∀ b, RRS.Balanced cfg.params.numRitEntries (s.rowIndirectionTable b)) ?_ ?_ b
  · rintro s rfl b
    refine ⟨fun x y hxy => ?_, rfl, Nat.zero_le _⟩
    rw [RIT.check_eq_none.mpr (AList.notMem_empty x)] at hxy
    cases hxy
  · rintro s op s' hs ⟨-, hdraws⟩ hupdate b
    obtain ⟨after, hafter, htable⟩ := update_bank hupdate b
    exact htable ▸ RRS.update_balanced (hs b) (hdraws b) hafter

/-- While the rows drawn for both rows of a pair are different, a call's insertions fit exactly
when it finds room for them; and they always fit where the capacity is even. -/
theorem insertions_fit (h : Run cfg (DrawsDistinct cfg) s) :
    (∀ b, (s.rowIndirectionTable b).size ≤ cfg.params.numRitEntries) ∧
    ∀ op, DrawsDistinct cfg s op →
      (InsertionsFit cfg s op ↔ HasRoom cfg s op) ∧
        (cfg.params.numRitEntries % 2 = 0 → InsertionsFit cfg s op) := by
  have hbalanced := h.balanced
  refine ⟨fun b => (hbalanced b).le, fun op hdraws => ?_⟩
  have hiff : InsertionsFit cfg s op ↔ HasRoom cfg s op := by
    refine forall_congr' fun b => ?_
    by_cases hempty : (s.bank op.channel b).insertions cfg.params (bankOp cfg op b) = []
    · rw [hempty]
      exact ⟨fun _ hne => absurd rfl hne, fun _ => nofun⟩
    · have hfit := RRS.insertions_fit_iff (s := s.bank op.channel b) (hbalanced b) (hdraws b) hempty
      exact ⟨fun hle _ => hfit.mp hle, fun hroom => hfit.mpr (hroom hempty)⟩
  refine ⟨hiff, fun heven => hiff.mpr fun b _ => ?_⟩
  exact RRS.Balanced.fits (s := s.bank op.channel b) (hbalanced b) heven _

def activateRow (row : Nat) (draws : List Nat) : SwapOp where
  channel := 0
  request := some ⟨true, 4, [0, 0, 0, 0, row, 0]⟩
  choices := { draws }

/-- Row 5 is swapped with row 9 in a table of eight entries. -/
theorem insertions_fit_eight : InsertionsFit small {} (activateRow 5 [9]) := by
  have hstart : Run small (DrawsDistinct small) {} := .start rfl
  refine ((insertions_fit hstart).2 _ fun b => ?_).2 (by decide)
  by_cases hb : 0 = b
  · subst hb
    decide +kernel
  · rw [drawn_of_ne (s := {}) (show small.levels.activation (activateRow 5 [9]).request =
      some [0, 0, 0, 0, 5, 0] from rfl) hb]
    exact List.nodup_nil

def withEntries (numRitEntries : Nat) : SwapConfig :=
  { small with params := { small.params with numRitEntries } }

/-- A table of three entries has two when another row is swapped, and is found not to be full;
a table of four entries has three after a swap that drew row 1 for both rows of a pair. -/
theorem rit_full :
    (∃ s, Run (withEntries 3) (fun _ _ => True) s ∧ OfDevice (withEntries 3) (activateRow 6 [10]) ∧
      ¬ InsertionsFit (withEntries 3) s (activateRow 6 [10])) ∧
    ∃ s, Run (withEntries 4) (fun _ _ => True) s ∧ OfDevice (withEntries 4) (activateRow 6 [10]) ∧
      ¬ InsertionsFit (withEntries 4) s (activateRow 6 [10]) := by
  have hreach : ∀ (n : Nat) (ops : List SwapOp),
      ((Runs.replay (SwapSystem.update (withEntries n))
        (fun _ op => decide (OfDevice (withEntries n) op)) {} ops).any fun s =>
          !decide (∀ rit ∈ (s.bank (activateRow 6 [10]).channel 0).insertions (withEntries n).params
            (bankOp (withEntries n) (activateRow 6 [10]) 0),
              rit.size ≤ (withEntries n).params.numRitEntries)) = true →
        ∃ s, Run (withEntries n) (fun _ _ => True) s ∧
          ¬ InsertionsFit (withEntries n) s (activateRow 6 [10]) := by
    intro n ops hrun
    obtain ⟨s, hs, htest⟩ := Option.any_eq_true _ _ |>.mp hrun
    rw [Bool.not_eq_true', decide_eq_false_iff_not] at htest
    exact ⟨s, Runs.replay_reachable (fun _ _ h => ⟨of_decide_eq_true h, trivial⟩) (.start rfl) hs,
      fun hfit => htest (hfit 0)⟩
  constructor
  · obtain ⟨s, hs, hover⟩ := hreach 3 [activateRow 5 [9]] (by decide +kernel)
    exact ⟨s, hs, by decide, hover⟩
  · obtain ⟨s, hs, hover⟩ := hreach 4 [activateRow 5 [9], activateRow 5 [1, 1]] (by decide +kernel)
    exact ⟨s, hs, by decide, hover⟩

end SwapSystem

end AimSimulator.Plugin
