import AimSimulator.Lib.Runs
import AimSimulator.Plugin.RowTables
/-!
# OracleRH

`dram_controller/impl/plugin/oracle_rh.cpp`.  The first activation of a row inserts its count
without a look at the threshold.
-/

namespace AimSimulator.Plugin

open RankLevels

structure OracleRHParams where
  levels : RankLevels
  rhThreshold : Int

structure OracleRH where
  table : List (RowTable Int)

namespace OracleRH

variable (p : OracleRHParams)

def setup : OracleRH where
  table := List.replicate (p.levels.numBanksPerRank * p.levels.numRanks) ∅

/-- An activation in a bank, and whether a victim-row refresh is requested. -/
def activate (table : RowTable Int) (row : Int) : RowTable Int × Bool :=
  match table.lookup row with
  | some count =>
      if count + 1 ≥ p.rhThreshold then ((table.insert row (count + 1)).insert row 0, true)
      else (table.insert row (count + 1), false)
  | none => (table.insert row 1, false)

/-- The loop over the banks of a rank; `none` where it leaves the bounds of `m_table`. -/
def clearRank (table : List (RowTable Int)) (rank : Int) : Option (List (RowTable Int)) :=
  if rank < 0 ∨ table.length < (rank + 1) * (p.levels.numBanksPerRank : Int) then none
  else some (table.mapIdx fun bank t => if p.levels.InSlice rank bank then ∅ else t)

/-- `update`: the state after it and the addresses of the refreshes it requests.  `none` where
the source leaves the bounds of `m_table`. -/
def update (s : OracleRH) (request : Option IssuedCommand) : Option (OracleRH × List AddrVec) :=
  match request with
  | none => some (s, [])
  | some req =>
      if req.isOpening ∧ req.scope = p.levels.row then
        if p.levels.flatBankId req.addrVec < 0 then none
        else
          s.table[(p.levels.flatBankId req.addrVec).toNat]?.map fun table =>
            let (table, vrr) := activate p table (req.addrVec.at p.levels.row)
            (⟨s.table.set (p.levels.flatBankId req.addrVec).toNat table⟩,
              if vrr then [req.addrVec] else [])
      else if req.isRefreshing ∧ req.scope = p.levels.rank then
        (clearRank p s.table (req.addrVec.at p.levels.rank)).map fun table => (⟨table⟩, [])
      else some (s, [])

/-! ## One call -/

/-- What an activation makes of the count of its row, and whether it requests a refresh. -/
def activateCount : Option Int → Int × Bool
  | some count => if count + 1 ≥ p.rhThreshold then (0, true) else (count + 1, false)
  | none => (1, false)

variable {p}

theorem activate_spec (table : RowTable Int) (row : Int) :
    (activate p table row).1.lookup row = some (activateCount p (table.lookup row)).1 ∧
      (activate p table row).2 = (activateCount p (table.lookup row)).2 ∧
      ∀ other, other ≠ row → (activate p table row).1.lookup other = table.lookup other := by
  unfold activate
  cases hrow : table.lookup row with
  | none =>
      exact ⟨AList.lookup_insert _, rfl, fun other hne => AList.lookup_insert_ne hne⟩
  | some count =>
      dsimp only [activateCount]
      split
      · refine ⟨AList.lookup_insert _, rfl, fun other hne => ?_⟩
        rw [AList.lookup_insert_ne hne, AList.lookup_insert_ne hne]
      · exact ⟨AList.lookup_insert _, rfl, fun other hne => AList.lookup_insert_ne hne⟩

theorem entry_clearRank {table table' : List (RowTable Int)} {rank : Int} {v : AddrVec}
    (hv : p.levels.InRange v) (h : clearRank p table rank = some table') :
    p.levels.entry table' v =
      if v.at p.levels.rank = rank then none else p.levels.entry table v := by
  unfold clearRank at h
  split at h
  · cases h
  · rw [← Option.some.inj h, entry, entry, List.getElem?_mapIdx]
    by_cases hrank : v.at p.levels.rank = rank
    · rw [if_pos hrank]
      simp only [if_pos ((inSlice_flatBankId_iff hv).mpr hrank)]
      cases table[(p.levels.flatBankId v).toNat]? <;> rfl
    · rw [if_neg hrank]
      simp only [if_neg (mt (inSlice_flatBankId_iff hv).mp hrank)]
      cases table[(p.levels.flatBankId v).toNat]? <;> rfl

theorem update_spec {s s' : OracleRH} {request : Option IssuedCommand} {vrrs : List AddrVec}
    (hadmits : p.levels.Admits request) (h : s.update p request = some (s', vrrs)) :
    match p.levels.seen request with
    | .refresh rank => vrrs = [] ∧ ∀ v, p.levels.InRange v → p.levels.entry s'.table v =
        if v.at p.levels.rank = rank then none else p.levels.entry s.table v
    | .activation w =>
        vrrs = (if (activateCount p (p.levels.entry s.table w)).2 then [w] else []) ∧
        ∀ v, p.levels.InRange v → p.levels.entry s'.table v =
          if p.levels.rowKey v = p.levels.rowKey w then
            some (activateCount p (p.levels.entry s.table w)).1
          else p.levels.entry s.table v
    | .other => vrrs = [] ∧ s' = s := by
  have hdeeper : p.levels.rank ≠ p.levels.row := by
    have := p.levels.deeper
    rcases p.levels.nested with ⟨-, hbank⟩ | ⟨-, hbank⟩ <;> omega
  unfold update at h
  cases request with
  | none =>
      obtain ⟨rfl, rfl⟩ := Prod.mk.inj (Option.some.inj h)
      exact ⟨rfl, rfl⟩
  | some req =>
      dsimp only at h
      split at h
      · next hopens =>
          have hseen : p.levels.seen (some req) = .activation req.addrVec := by
            have hnot : ¬ (req.isRefreshing ∧ req.scope = p.levels.rank) := fun hrefreshes =>
              hdeeper (hrefreshes.2.symm.trans hopens.2)
            exact (if_neg hnot).trans (if_pos hopens)
          rw [hseen]
          split at h
          · cases h
          · obtain ⟨table, htable, heq⟩ := Option.map_eq_some_iff.mp h
            obtain ⟨rfl, rfl⟩ := Prod.mk.inj heq
            obtain ⟨hself, hvrr, hother⟩ :=
              activate_spec (p := p) table (req.addrVec.at p.levels.row)
            have hentry : p.levels.entry s.table req.addrVec =
                table.lookup (req.addrVec.at p.levels.row) := by
              rw [entry, htable, Option.bind_some]
            dsimp only
            rw [hentry, hvrr, ← hself]
            exact ⟨rfl, fun v hv => entry_set hv (hadmits _ hseen) htable hother⟩
      · next hopens =>
          split at h
          · next hrefreshes =>
              have hseen : p.levels.seen (some req) =
                  .refresh (req.addrVec.at p.levels.rank) := if_pos hrefreshes
              rw [hseen]
              obtain ⟨table, hclear, heq⟩ := Option.map_eq_some_iff.mp h
              obtain ⟨rfl, rfl⟩ := Prod.mk.inj heq
              exact ⟨rfl, fun v hv => entry_clearRank hv hclear⟩
          · next hrefreshes =>
              have hseen : p.levels.seen (some req) = .other :=
                (if_neg hrefreshes).trans (if_neg hopens)
              rw [hseen]
              obtain ⟨rfl, rfl⟩ := Prod.mk.inj (Option.some.inj h)
              exact ⟨rfl, rfl⟩

/-! ## Runs -/

structure Watched where
  plugin : OracleRH
  log : List Record := []

/-- A call of `update`, and what it adds to the log. -/
def Watched.step (p : OracleRHParams) (w : Watched) (request : Option IssuedCommand) :
    Option Watched :=
  (w.plugin.update p request).map fun (plugin, vrrs) =>
    { plugin, log := ⟨p.levels.seen request, vrrs⟩ :: w.log }

/-- The states of all runs from `setup`. -/
abbrev Run (p : OracleRHParams) : Watched → Prop :=
  Runs.Reachable (Eq ⟨setup p, []⟩) (fun w request w' => w.step p request = some w')
    fun _ request => p.levels.Admits request

/-- The activations of a row since the later of its last requested victim-row refresh and the
last refresh of its rank. -/
def count (lv : RankLevels) (v : AddrVec) : List Record → Int
  | [] => 0
  | r :: log =>
      match r.seen with
      | .refresh rank => if v.at lv.rank = rank then 0 else count lv v log
      | .activation _ =>
          if Record.requests lv v r then 0
          else if Record.activates lv v r then count lv v log + 1
          else count lv v log
      | .other => count lv v log

/-- The refreshes that a call should request after the calls of a log. -/
def expected (p : OracleRHParams) (log : List Record) : Seen → List AddrVec
  | .activation v => if count p.levels v log + 1 = p.rhThreshold then [v] else []
  | .refresh _ | .other => []

def Exact (p : OracleRHParams) : List Record → Prop
  | [] => True
  | r :: log => r.vrrs = expected p log r.seen ∧ Exact p log

instance (p : OracleRHParams) : ∀ log, Decidable (Exact p log)
  | [] => isTrue trivial
  | r :: log =>
      have : Decidable (Exact p log) := instDecidableExact p log
      inferInstanceAs (Decidable (r.vrrs = expected p log r.seen ∧ Exact p log))

structure Counts (p : OracleRHParams) (w : Watched) : Prop where
  entry : ∀ v, p.levels.InRange v →
    (p.levels.entry w.plugin.table v).getD 0 = count p.levels v w.log
  idle : (∀ r ∈ w.log, r.isActivation = false) → ∀ v, p.levels.InRange v →
    p.levels.entry w.plugin.table v = none
  small : 2 ≤ p.rhThreshold → ∀ v, p.levels.InRange v → count p.levels v w.log < p.rhThreshold

variable {w w' : Watched} {request : Option IssuedCommand}

theorem counts_setup : Counts p ⟨setup p, []⟩ := by
  have hnone : ∀ v, p.levels.entry (setup p).table v = none := entry_replicate _
  refine ⟨fun v _ => ?_, fun _ v _ => hnone v, fun hp v _ => ?_⟩
  · rw [hnone]
    rfl
  · change 0 < p.rhThreshold
    omega

theorem count_activation {lv : RankLevels} {u v : AddrVec} {log : List Record} {vrr : Bool}
    (hsame : lv.rowKey v = lv.rowKey u) :
    count lv v (⟨.activation u, if vrr then [u] else []⟩ :: log) =
      if vrr then 0 else count lv v log + 1 := by
  have hkeys : decide (lv.rowKey u = lv.rowKey v) = true := decide_eq_true hsame.symm
  cases vrr with
  | true =>
      have hrequests : Record.requests lv v ⟨.activation u, [u]⟩ = true := by
        rw [Record.requests, List.any_cons, hkeys]
        rfl
      exact if_pos hrequests
  | false =>
      have hactivates : Record.activates lv v ⟨.activation u, []⟩ = true := hkeys
      rw [count]
      dsimp only
      rw [if_neg Bool.false_ne_true, hactivates]
      rfl

theorem count_activation_ne {lv : RankLevels} {u v : AddrVec} {log : List Record} {vrr : Bool}
    (hother : lv.rowKey v ≠ lv.rowKey u) :
    count lv v (⟨.activation u, if vrr then [u] else []⟩ :: log) = count lv v log := by
  have hkeys : decide (lv.rowKey u = lv.rowKey v) = false := decide_eq_false (Ne.symm hother)
  have hrequests : Record.requests lv v ⟨.activation u, if vrr then [u] else []⟩ = false := by
    unfold Record.requests
    cases vrr with
    | true =>
        rw [if_pos rfl, List.any_cons, hkeys]
        rfl
    | false => rfl
  have hactivates : Record.activates lv v ⟨.activation u, if vrr then [u] else []⟩ = false := hkeys
  rw [count]
  dsimp only
  rw [hrequests, hactivates, if_neg Bool.false_ne_true, if_neg Bool.false_ne_true]

theorem Counts.step (hw : Counts p w) (hadmits : p.levels.Admits request)
    (h : w.step p request = some w') : Counts p w' := by
  obtain ⟨⟨plugin, vrrs⟩, hupdate, rfl⟩ := Option.map_eq_some_iff.mp h
  have hspec := update_spec hadmits hupdate
  cases hseen : p.levels.seen request with
  | other =>
      rw [hseen] at hspec
      obtain ⟨rfl, rfl⟩ := hspec
      exact ⟨hw.entry, fun hall => hw.idle fun r hr => hall r (List.mem_cons_of_mem _ hr), hw.small⟩
  | refresh rank =>
      rw [hseen] at hspec
      obtain ⟨rfl, hentry⟩ := hspec
      refine ⟨fun v hv => ?_, fun hall v hv => ?_, fun hp v hv => ?_⟩
      · rw [hentry v hv, count]
        dsimp only
        split
        · rfl
        · exact hw.entry v hv
      · rw [hentry v hv, hw.idle (fun r hr => hall r (List.mem_cons_of_mem _ hr)) v hv, ite_self]
      · rw [count]
        dsimp only
        split
        · omega
        · exact hw.small hp v hv
  | activation u =>
      rw [hseen] at hspec
      obtain ⟨rfl, hentry⟩ := hspec
      have hu := hadmits u hseen
      have hkey : ∀ v, p.levels.InRange v → p.levels.rowKey v = p.levels.rowKey u →
          count p.levels v w.log = count p.levels u w.log := by
        intro v hv hsame
        rw [← hw.entry v hv, ← hw.entry u hu, entry_congr hv hu hsame]
      have hcount := hw.entry u hu
      have hafter : (activateCount p (p.levels.entry w.plugin.table u)).1 =
          if (activateCount p (p.levels.entry w.plugin.table u)).2 then 0
          else count p.levels u w.log + 1 := by
        rw [← hcount]
        cases p.levels.entry w.plugin.table u with
        | none => rfl
        | some c =>
            dsimp only [activateCount, Option.getD_some]
            split <;> rfl
      refine ⟨fun v hv => ?_, fun hall => ?_, fun hp v hv => ?_⟩
      · dsimp only
        rw [hentry v hv]
        by_cases hsame : p.levels.rowKey v = p.levels.rowKey u
        · rw [if_pos hsame, count_activation hsame, hkey v hv hsame]
          exact hafter
        · rw [if_neg hsame, count_activation_ne hsame]
          exact hw.entry v hv
      · cases hall ⟨.activation u, _⟩ List.mem_cons_self
      · dsimp only
        by_cases hsame : p.levels.rowKey v = p.levels.rowKey u
        · rw [count_activation hsame, hkey v hv hsame, ← hafter]
          cases p.levels.entry w.plugin.table u with
          | none =>
              change 1 < p.rhThreshold
              omega
          | some c =>
              dsimp only [activateCount]
              split
              · dsimp only
                omega
              · dsimp only
                omega
        · rw [count_activation_ne hsame]
          exact hw.small hp v hv

theorem Counts.expected (hw : Counts p w) (hp : 2 ≤ p.rhThreshold)
    (hadmits : p.levels.Admits request) {plugin : OracleRH} {vrrs : List AddrVec}
    (h : w.plugin.update p request = some (plugin, vrrs)) :
    vrrs = OracleRH.expected p w.log (p.levels.seen request) := by
  have hspec := update_spec hadmits h
  cases hseen : p.levels.seen request with
  | other =>
      rw [hseen] at hspec
      exact hspec.1
  | refresh rank =>
      rw [hseen] at hspec
      exact hspec.1
  | activation u =>
      rw [hseen] at hspec
      have hu := hadmits u hseen
      have hcount := hw.entry u hu
      have hsmall := hw.small hp u hu
      rw [hspec.1]
      unfold OracleRH.expected
      dsimp only
      rw [← hcount] at hsmall ⊢
      generalize p.levels.entry w.plugin.table u = entry at hsmall ⊢
      cases entry with
      | none =>
          have hbelow : ¬ (0 + 1 = p.rhThreshold) := by omega
          exact (if_neg hbelow).symm
      | some c =>
          have hvrr : (activateCount p (some c)).2 = decide (c + 1 = p.rhThreshold) := by
            rw [Option.getD_some] at hsmall
            dsimp only [activateCount]
            split
            · exact (decide_eq_true (by omega)).symm
            · exact (decide_eq_false (by omega)).symm
          rw [hvrr, Option.getD_some]
          exact if_congr decide_eq_true_iff rfl rfl

/-- What a run keeps of its counts and of the requests in its log. -/
structure Tracks (p : OracleRHParams) (w : Watched) : Prop where
  counts : Counts p w
  exact : 2 ≤ p.rhThreshold → Exact p w.log
  idle : (∀ r ∈ w.log, r.isActivation = false) → Exact p w.log
  missed : p.rhThreshold = 1 → Exact p w.log → ∀ r ∈ w.log, r.isActivation = false

theorem Tracks.step (hw : Tracks p w) (hadmits : p.levels.Admits request)
    (h : w.step p request = some w') : Tracks p w' := by
  have hcounts := hw.counts.step hadmits h
  obtain ⟨⟨plugin, vrrs⟩, hupdate, rfl⟩ := Option.map_eq_some_iff.mp h
  have hspec := update_spec hadmits hupdate
  refine ⟨hcounts, fun hp => ⟨hw.counts.expected hp hadmits hupdate, hw.exact hp⟩,
    fun hall => ?_, fun hp hexact => ?_⟩
  · obtain ⟨hseen, hrest⟩ := List.forall_mem_cons.mp hall
    refine ⟨?_, hw.idle hrest⟩
    dsimp only
    cases hkind : p.levels.seen request with
    | other =>
        rw [hkind] at hspec
        exact hspec.1
    | refresh rank =>
        rw [hkind] at hspec
        exact hspec.1
    | activation u =>
        rw [hkind] at hseen
        cases hseen
  · obtain ⟨hnow, hrest⟩ := hexact
    have hidle := hw.missed hp hrest
    refine List.forall_mem_cons.mpr ⟨?_, hidle⟩
    cases hkind : p.levels.seen request with
    | other => rfl
    | refresh rank => rfl
    | activation u =>
        -- the first activation of the run inserts its row
        rw [hkind] at hspec
        have hu := hadmits u hkind
        have hnone := hw.counts.idle hidle u hu
        have hcount := hw.counts.entry u hu
        rw [hnone] at hcount
        dsimp only at hnow
        rw [hspec.1, hnone, hkind, expected, ← hcount, hp] at hnow
        cases hnow

end OracleRH

open OracleRH in
/-- A run requests a victim-row refresh exactly at the activations that reach the threshold
if and only if the threshold is two or more, or nothing was activated. -/
theorem oracle_exact_iff {p : OracleRHParams} (hp : 1 ≤ p.rhThreshold) {w : Watched}
    (h : Run p w) :
    Exact p w.log ↔ 2 ≤ p.rhThreshold ∨ ∀ r ∈ w.log, r.isActivation = false := by
  have htracks : Tracks p w := by
    refine h.invariant (I := Tracks p) ?_ fun w request w' hw hadmits hstep => hw.step hadmits hstep
    rintro w rfl
    exact ⟨counts_setup, fun _ => trivial, fun _ => trivial, fun _ _ r hr => nomatch hr⟩
  refine ⟨fun hexact => ?_, fun hcase => hcase.elim htracks.exact htracks.idle⟩
  by_cases htwo : 2 ≤ p.rhThreshold
  · exact .inl htwo
  · exact .inr (htracks.missed (by omega) hexact)

def OracleRH.replay (rhThreshold : Int) (requests : List (Option IssuedCommand)) :
    Option Watched :=
  Runs.replay (Watched.step ⟨ddr4Ranks, rhThreshold⟩)
    (fun _ request => decide (ddr4Ranks.Admits request)) ⟨setup ⟨ddr4Ranks, rhThreshold⟩, []⟩
    requests

open OracleRH in
theorem OracleRH.replay_run {rhThreshold : Int} {requests : List (Option IssuedCommand)}
    {w : Watched} (h : replay rhThreshold requests = some w) : Run ⟨ddr4Ranks, rhThreshold⟩ w :=
  Runs.replay_reachable (fun _ _ h => of_decide_eq_true h) (.start rfl) h

open OracleRH in
/-- A threshold of two, with a refresh of the rank between the first two activations. -/
theorem oracle_exact_iff_two : ∃ w, Run ⟨ddr4Ranks, 2⟩ w ∧
    w.log.map (·.vrrs.length) = [1, 0, 0, 0] ∧
    (Exact ⟨ddr4Ranks, 2⟩ w.log ↔
      (2 : Int) ≤ 2 ∨ ∀ r ∈ w.log, r.isActivation = false) := by
  have hrun : ((replay 2 [activateRow 1 2 3 5, refreshRank 1, activateRow 1 2 3 5,
      activateRow 1 2 3 5]).any fun w => w.log.map (·.vrrs.length) = [1, 0, 0, 0]) = true := by
    decide +kernel
  obtain ⟨w, hw, htest⟩ := Option.any_eq_true .. |>.mp hrun
  exact ⟨w, replay_run hw, of_decide_eq_true htest,
    oracle_exact_iff (p := ⟨ddr4Ranks, 2⟩) (by decide) (replay_run hw)⟩

open OracleRH in
/-- With a threshold of one, the first activation of a row requests nothing. -/
theorem first_activation_missed : ∃ w, Run ⟨ddr4Ranks, 1⟩ w ∧
    w.log.map (·.vrrs) = [[]] ∧ ¬ Exact ⟨ddr4Ranks, 1⟩ w.log := by
  have hrun : ((replay 1 [activateRow 1 2 3 5]).any fun w =>
      w.log.map (·.vrrs) = [[]] ∧ ¬ Exact ⟨ddr4Ranks, 1⟩ w.log) = true := by
    decide +kernel
  obtain ⟨w, hw, htest⟩ := Option.any_eq_true .. |>.mp hrun
  exact ⟨w, replay_run hw, of_decide_eq_true htest⟩

end AimSimulator.Plugin
