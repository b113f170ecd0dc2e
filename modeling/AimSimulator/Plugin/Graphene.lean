import AimSimulator.Lib.MisraGries
import AimSimulator.Lib.Runs
import AimSimulator.Plugin.Activation
/-!
# Graphene

`dram_controller/impl/plugin/graphene.cpp`.  A table of `unordered_map` type iterates in an
unspecified order; which of the entries that equal the spillover counter its loop finds
first is an argument of `update`.
-/

namespace AimSimulator.Plugin

open MisraGries Pending

structure GrapheneParams where
  levels : Levels
  numTableEntries : Nat
  activationThreshold : Nat
  resetPeriodClk : Nat
  numRanks : Nat
  numBanksPerRank : Nat
  numRowsPerBank : Nat

/-- The state: for each bank its activation count table and its spillover counter. -/
structure Graphene where
  clk : Int := -1
  banks : List (Summary Int)

namespace Graphene

variable (p : GrapheneParams)

def initialTable : Table Int where
  entries := (List.range p.numTableEntries).map fun j : Nat => ⟨(j : Int) - p.numRowsPerBank, 0⟩
  nodupKeys := by
    rw [List.NodupKeys, List.keys, List.map_map]
    refine List.Nodup.map (fun i j hij => ?_) List.nodup_range
    simp only [Function.comp_apply] at hij
    omega

def setup : Graphene where
  banks := List.replicate (p.numBanksPerRank * p.numRanks) ⟨initialTable p, 0⟩

/-- The counters of a bank are cleared; its rows stay in the table. -/
def resetBank (b : Summary Int) : Summary Int where
  table :=
    { entries := b.table.entries.map fun e => ⟨e.1, 0⟩
      nodupKeys := by
        have hkeys : (b.table.entries.map Sigma.fst).Nodup := b.table.nodupKeys
        rw [List.NodupKeys, List.keys, List.map_map]
        exact hkeys }
  spillover := 0

def resets (s : Graphene) : Bool := (s.clk + 1) % p.resetPeriodClk = 0

def advance (s : Graphene) : Graphene where
  clk := s.clk + 1
  banks := if s.resets p then s.banks.map resetBank else s.banks

/-- An activation in a bank, and whether a victim-row refresh is requested. -/
def activate (b : Summary Int) (row : Int) (choice : Nat) : Summary Int × Bool :=
  match b.table.lookup row with
  | none =>
      match pick (b.table.entries.filter fun e => e.2 = b.spillover) choice with
      | some toRemove =>
          ({ b with table := (b.table.erase toRemove.1).insert row (toRemove.2 + 1) }, false)
      | none => ({ b with spillover := b.spillover + 1 }, false)
  | some count =>
      let b := { b with table := b.table.insert row (count + 1) }
      if count + 1 ≥ p.activationThreshold then
        ({ b with table := b.table.insert row b.spillover }, true)
      else (b, false)

/-- `update`: the state after it and the addresses of the refreshes it requests.  `none` where
the source divides by zero or leaves a table's bounds. -/
def update (s : Graphene) (request : Option Issued) (choice : Nat) :
    Option (Graphene × List AddrVec) :=
  if p.resetPeriodClk = 0 then none
  else
    match p.levels.activation request with
    | some v =>
        if p.levels.flatBankId v < 0 then none
        else
          ((s.advance p).banks[(p.levels.flatBankId v).toNat]?).map fun b =>
            let (b', vrr) := activate p b (v.at p.levels.row) choice
            ({ s.advance p with
              banks := (s.advance p).banks.set (p.levels.flatBankId v).toNat b' },
              if vrr then [v] else [])
    | none => some (s.advance p, [])

/-! ## One bank -/

/-- An activation observes its row, and a row whose count reaches the threshold is lowered
and refreshed. -/
theorem activate_spec (b : Summary Int) (row : Int) (choice : Nat) :
    ∃ b', Summary.Observe b row b' ∧
      ((activate p b row choice = (b', false) ∧
          ∀ c, b.table.lookup row = some c → c + 1 < p.activationThreshold) ∨
        (activate p b row choice = (b'.lower row, true) ∧
          ∃ c, b'.table.lookup row = some c)) := by
  unfold activate
  cases hrow : b.table.lookup row with
  | none =>
      dsimp only
      cases hpick : pick (b.table.entries.filter fun e => e.2 = b.spillover) choice with
      | some e =>
          obtain ⟨hmem, hcount⟩ := List.mem_filter.mp (pick_mem hpick)
          have hcount := of_decide_eq_true hcount
          have hlookup : b.table.lookup e.1 = some b.spillover := by
            rw [← hcount]
            exact Table.lookup_eq_some_iff.mpr hmem
          refine ⟨_, .replace hrow hlookup, .inl ⟨?_, nofun⟩⟩
          rw [← hcount]
      | none =>
          have hempty := pick_eq_none hpick
          refine ⟨_, .spill hrow fun y hy => ?_, .inl ⟨rfl, nofun⟩⟩
          have hfits := (List.filter_eq_nil_iff.mp hempty) _ (Table.lookup_eq_some_iff.mp hy)
          exact hfits (decide_eq_true rfl)
  | some count =>
      dsimp only
      refine ⟨_, .count hrow, ?_⟩
      split
      · exact .inr ⟨rfl, count + 1, AList.lookup_insert _⟩
      · next hlt =>
          refine .inl ⟨rfl, fun c hc => ?_⟩
          obtain rfl := Option.some.inj hc
          omega

structure Tracks (b : Summary Int) (log : List (Event Int)) : Prop where
  above : b.Above
  pending_le : ∀ row, pending row log ≤ b.estimate row
  length_eq : b.table.entries.length = p.numTableEntries
  total_le : b.total ≤ hits log
  small : hits log < (p.numTableEntries + 1) * (p.activationThreshold - 1) →
    ∀ row, b.estimate row < p.activationThreshold

namespace Tracks

variable {p} {b b' : Summary Int} {log : List (Event Int)} {row : Int}

theorem spillover_lt (h : Tracks p b log)
    (hfew : hits log < (p.numTableEntries + 1) * (p.activationThreshold - 1)) :
    b.spillover + 1 < p.activationThreshold := by
  have hspill := Summary.spillover_le_total h.above
  rw [h.length_eq] at hspill
  have hlt : (p.numTableEntries + 1) * b.spillover <
      (p.numTableEntries + 1) * (p.activationThreshold - 1) :=
    Nat.lt_of_le_of_lt (Nat.le_trans hspill h.total_le) hfew
  have := Nat.lt_of_mul_lt_mul_left hlt
  omega

theorem estimate_ne_lt (h : Tracks p b log) (hobs : Summary.Observe b row b')
    (hfew : hits log < (p.numTableEntries + 1) * (p.activationThreshold - 1)) {z : Int}
    (hz : z ≠ row) : b'.estimate z < p.activationThreshold := by
  have := hobs.estimate_ne_le hz
  have := h.small hfew z
  have := h.spillover_lt hfew
  omega

theorem observe (h : Tracks p b log) (hobs : Summary.Observe b row b')
    (hcount : ∀ c, b.table.lookup row = some c → c + 1 < p.activationThreshold) :
    Tracks p b' (.hit row :: log) := by
  refine ⟨hobs.above h.above, fun z => ?_, hobs.length_eq.trans h.length_eq, ?_,
    fun hfew z => ?_⟩
  · have hle := h.pending_le z
    by_cases hz : z = row
    · subst hz
      rw [pending_hit_self, hobs.estimate_self]
      omega
    · rw [pending_hit_ne (Ne.symm hz)]
      exact Nat.le_trans hle (hobs.estimate_ne hz)
  · have := h.total_le
    rw [hobs.total_eq, hits_hit]
    omega
  · rw [hits_hit] at hfew
    by_cases hz : z = row
    · subst hz
      rw [hobs.estimate_self]
      unfold Summary.estimate
      cases hz : b.table.lookup z with
      | none => exact h.spillover_lt (by omega)
      | some c => exact hcount c hz
    · exact h.estimate_ne_lt hobs (by omega) hz

theorem refresh (h : Tracks p b log) (hobs : Summary.Observe b row b') {c : Nat}
    (hrow : b'.table.lookup row = some c) :
    Tracks p (b'.lower row) (.clear row :: .hit row :: log) := by
  have habove := hobs.above h.above
  refine ⟨Summary.above_lower habove row, fun z => ?_, ?_, ?_, fun hfew z => ?_⟩
  · by_cases hz : z = row
    · subst hz
      rw [pending_clear_self]
      exact Nat.zero_le _
    · rw [pending_clear_ne (Ne.symm hz), pending_hit_ne (Ne.symm hz), Summary.estimate_lower_ne _ hz]
      exact Nat.le_trans (h.pending_le z) (hobs.estimate_ne hz)
  · rw [Summary.length_lower _ hrow, hobs.length_eq, h.length_eq]
  · have hlower := Summary.total_lower_le habove hrow
    have htotal := h.total_le
    rw [hobs.total_eq] at hlower
    rw [hits_clear, hits_hit]
    omega
  · rw [hits_clear, hits_hit] at hfew
    by_cases hz : z = row
    · subst hz
      have hspill := h.spillover_lt (by omega)
      rw [Summary.estimate_lower_self]
      cases hobs with
      | count => exact Nat.lt_of_succ_lt hspill
      | replace => exact Nat.lt_of_succ_lt hspill
      | spill => exact hspill
    · rw [Summary.estimate_lower_ne _ hz]
      exact h.estimate_ne_lt hobs (by omega) hz

end Tracks

/-! ## Runs -/

theorem Tracks.of_zero {t : Table Int} {log : List (Event Int)}
    (hzero : ∀ e ∈ t.entries, e.2 = 0) (hlength : t.entries.length = p.numTableEntries)
    (hpending : ∀ row, pending row log = 0) (hhits : hits log = 0) : Tracks p ⟨t, 0⟩ log := by
  have hestimate : ∀ row, Summary.estimate ⟨t, 0⟩ row = 0 := by
    intro row
    unfold Summary.estimate
    cases hrow : t.lookup row with
    | none => rfl
    | some c => exact hzero _ (Table.lookup_eq_some_iff.mp hrow)
  have hsum : t.sum = 0 := by
    rw [Table.sum, List.sum_eq_zero]
    intro c hc
    obtain ⟨e, he, rfl⟩ := List.mem_map.mp hc
    exact hzero e he
  refine ⟨fun _ _ _ => Nat.zero_le _, fun row => ?_, hlength, ?_, fun hfew row => ?_⟩
  · rw [hpending]
    exact Nat.zero_le _
  · rw [Summary.total, hsum]
    exact Nat.zero_le _
  · rw [hhits] at hfew
    rw [hestimate]
    have := Nat.pos_of_mul_pos_left hfew
    omega

theorem tracks_setup : Tracks p ⟨initialTable p, 0⟩ [] := by
  refine .of_zero p (fun e he => ?_) ?_ (fun _ => rfl) rfl
  · obtain ⟨j, -, rfl⟩ := List.mem_map.mp he
    rfl
  · rw [initialTable, List.length_map, List.length_range]

variable {p}

theorem Tracks.reset {b : Summary Int} {log : List (Event Int)} (h : Tracks p b log) :
    Tracks p (resetBank b) (.reset :: log) := by
  refine .of_zero p (fun e he => ?_) ?_ (fun _ => rfl) rfl
  · obtain ⟨e', -, rfl⟩ := List.mem_map.mp he
    rfl
  · rw [List.length_map]
    exact h.length_eq

structure Watched where
  plugin : Graphene
  log : Nat → List (Event Int)

/-- A call of `update`, and what it adds to the logs. -/
def Watched.step (p : GrapheneParams) (w : Watched) (call : Option Issued × Nat) :
    Option Watched :=
  (w.plugin.update p call.1 call.2).map fun (plugin, vrrs) =>
    { plugin, log := fun bank =>
        p.levels.watch (w.plugin.resets p) call.1 vrrs bank (w.log bank) }

/-- The states of all runs from `setup`. -/
abbrev Run (p : GrapheneParams) : Watched → Prop :=
  Runs.Reachable (Eq ⟨setup p, fun _ => []⟩)
    (fun w call w' => w.step p call = some w') (fun _ _ => True)

def AllTrack (p : GrapheneParams) (s : Graphene) (log : Nat → List (Event Int)) : Prop :=
  ∀ bank b, s.banks[bank]? = some b → Tracks p b (log bank)

theorem AllTrack.advance {s : Graphene} {log : Nat → List (Event Int)} (h : AllTrack p s log) :
    AllTrack p (s.advance p)
      (fun bank => if s.resets p then .reset :: log bank else log bank) := by
  intro bank b hb
  unfold Graphene.advance at hb
  dsimp only at hb ⊢
  split at hb
  · next hreset =>
      rw [List.getElem?_map] at hb
      obtain ⟨b', hb', rfl⟩ := Option.map_eq_some_iff.mp hb
      rw [if_pos hreset]
      exact (h bank b' hb').reset
  · next hreset =>
      rw [if_neg hreset]
      exact h bank b hb

theorem update_cases {s s' : Graphene} {request : Option Issued} {choice : Nat}
    {vrrs : List AddrVec} (h : s.update p request choice = some (s', vrrs)) :
    (p.levels.activation request = none ∧ s' = s.advance p ∧ vrrs = []) ∨
    ∃ v b, ∃ bank : Nat, p.levels.activation request = some v ∧
      p.levels.flatBankId v = bank ∧ (s.advance p).banks[bank]? = some b ∧
      s' = { s.advance p with
        banks := (s.advance p).banks.set bank (activate p b (v.at p.levels.row) choice).1 } ∧
      vrrs = if (activate p b (v.at p.levels.row) choice).2 then [v] else [] := by
  unfold update at h
  split at h
  · cases h
  · cases hact : p.levels.activation request with
    | none =>
        rw [hact] at h
        obtain ⟨rfl, rfl⟩ := Prod.mk.inj (Option.some.inj h)
        exact .inl ⟨rfl, rfl, rfl⟩
    | some v =>
        rw [hact] at h
        dsimp only at h
        split at h
        · cases h
        · next hnonneg =>
            obtain ⟨b, hb, heq⟩ := Option.map_eq_some_iff.mp h
            obtain ⟨rfl, rfl⟩ := Prod.mk.inj heq
            exact .inr ⟨v, b, _, rfl, (Int.toNat_of_nonneg (by omega)).symm, hb, rfl, rfl⟩

theorem AllTrack.update {s s' : Graphene} {request : Option Issued} {choice : Nat}
    {vrrs : List AddrVec} {log : Nat → List (Event Int)} (hs : AllTrack p s log)
    (h : s.update p request choice = some (s', vrrs)) :
    AllTrack p s' (fun bank => p.levels.watch (s.resets p) request vrrs bank (log bank)) := by
  have hadvance := hs.advance
  rcases update_cases h with ⟨hact, rfl, rfl⟩ | ⟨v, b, bank, hact, hflat, hb, rfl, rfl⟩
  · intro bank b hb
    change Tracks p b (p.levels.watch (s.resets p) request [] bank (log bank))
    rw [Levels.watch_none hact]
    exact hadvance bank b hb
  · intro bank' b' hb'
    change Tracks p b' (p.levels.watch (s.resets p) request _ bank' (log bank'))
    by_cases hbank : bank' = bank
    · subst hbank
      dsimp only at hb'
      rw [List.getElem?_set_self (List.getElem?_eq_some_iff.mp hb).1] at hb'
      obtain rfl := Option.some.inj hb'
      obtain ⟨b', hobs, ⟨heq, hcount⟩ | ⟨heq, c, hrow⟩⟩ :=
        activate_spec p b (v.at p.levels.row) choice
      · rw [heq, if_neg Bool.false_ne_true, Levels.watch_hit hact hflat]
        exact (hadvance bank' b hb).observe hobs hcount
      · rw [heq, if_pos rfl, Levels.watch_refresh hact hflat]
        exact (hadvance bank' b hb).refresh hobs hrow
    · dsimp only at hb'
      rw [List.getElem?_set_ne (Ne.symm hbank)] at hb'
      rw [Levels.watch_ne hact (by split <;> simp) (by omega)]
      exact hadvance bank' b' hb'

theorem allTrack_run {w : Watched} (h : Run p w) : AllTrack p w.plugin w.log := by
  refine h.invariant (I := fun w => AllTrack p w.plugin w.log) ?_ ?_
  · rintro w rfl bank b hb
    obtain rfl := List.eq_of_mem_replicate (List.mem_of_getElem? hb)
    exact tracks_setup p
  · intro w call w' hw _ hstep
    obtain ⟨⟨plugin, vrrs⟩, hupdate, rfl⟩ := Option.map_eq_some_iff.mp hstep
    exact hw.update hupdate

end Graphene

open Graphene in
/-- In every state of every run and for every bank: no counter is below the spillover
counter, each row was activated at most as often as its estimate says since its last
requested refresh or the reset, and while there are few activations no row reaches the
threshold. -/
theorem graphene_tracks {p : GrapheneParams} {w : Watched} (h : Run p w) {bank : Nat}
    {b : Summary Int} (hb : w.plugin.banks[bank]? = some b) :
    (∀ row count, b.table.lookup row = some count → b.spillover ≤ count) ∧
    (∀ row, pending row (w.log bank) ≤ (b.table.lookup row).getD b.spillover) ∧
    (hits (w.log bank) < (p.numTableEntries + 1) * (p.activationThreshold - 1) →
      ∀ row, pending row (w.log bank) < p.activationThreshold) := by
  have htracks := allTrack_run h bank b hb
  exact ⟨htracks.above, htracks.pending_le, fun hfew row =>
    Nat.lt_of_le_of_lt (htracks.pending_le row) (htracks.small hfew row)⟩

def ddr4Graphene : GrapheneParams where
  levels := { rank := 1, bank := 3, row := 4, count := [1, 1, 4, 4, 65536, 1024] }
  numTableEntries := 2
  activationThreshold := 3
  resetPeriodClk := 1000
  numRanks := 1
  numBanksPerRank := 16
  numRowsPerBank := 65536

open Graphene in
/-- The third activation of row 5 of a bank refreshes it, and a fourth one follows. -/
theorem graphene_tracks_row5 :
    ∃ w b, Run ddr4Graphene w ∧ w.plugin.banks[6]? = some b ∧ hits (w.log 6) = 5 ∧
      pending 5 (w.log 6) = 1 ∧ pending 5 (w.log 6) ≤ (b.table.lookup 5).getD b.spillover ∧
      ∀ row, pending row (w.log 6) < 3 := by
  have hrun : ((Runs.replay (Watched.step ddr4Graphene) (fun _ _ => true)
      ⟨setup ddr4Graphene, fun _ => []⟩
      [(some ⟨true, 4, [0, 0, 1, 2, 5, 0]⟩, 0), (none, 0),
        (some ⟨true, 4, [0, 0, 1, 2, 5, 3]⟩, 0), (some ⟨true, 4, [0, 0, 1, 2, 6, 0]⟩, 0),
        (some ⟨true, 4, [0, 0, 1, 2, 5, 0]⟩, 0), (some ⟨true, 4, [0, 0, 1, 2, 5, 0]⟩, 0)]).any
          fun w => w.plugin.banks[6]?.isSome ∧ hits (w.log 6) = 5 ∧
            pending 5 (w.log 6) = 1) = true := by
    decide +kernel
  obtain ⟨w, hw, htest⟩ := Option.any_eq_true .. |>.mp hrun
  obtain ⟨hb, hhits, hpending⟩ := of_decide_eq_true htest
  obtain ⟨b, hb⟩ := Option.isSome_iff_exists.mp hb
  have hr : Run ddr4Graphene w := Runs.replay_reachable (fun _ _ _ => trivial) (.start rfl) hw
  obtain ⟨-, hle, hfew⟩ := graphene_tracks hr hb
  exact ⟨w, b, hr, hb, hhits, hpending, hle 5, hfew (by rw [hhits]; decide)⟩

end AimSimulator.Plugin
