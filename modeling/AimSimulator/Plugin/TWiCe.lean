import AimSimulator.Lib.Runs
import AimSimulator.Plugin.RowTables
import Mathlib.Algebra.Order.Ring.Rat
import Mathlib.Tactic.Linarith
/-!
# TWiCe

`dram_controller/impl/plugin/twice.cpp`.  A row of a table is pruned at a refresh where its
count is low for its life.  What is forgotten then is paid by the refreshes that the row has
lived through.
-/

namespace AimSimulator.Plugin

open RankLevels

structure TwiCeEntry where
  actCount : Int := -1
  life : Int := -1
  deriving DecidableEq

/-- The parameters of the plugin, the `float` taken as exact, and what `setup` reads from the
device. -/
structure TWiCeParams where
  levels : RankLevels
  rhThreshold : Int
  pruningIntervalThreshold : ℚ

structure TWiCeIdeal where
  clk : Int := -1
  twiceTable : List (RowTable TwiCeEntry)

namespace TWiCeIdeal

variable (p : TWiCeParams)

def setup : TWiCeIdeal where
  twiceTable := List.replicate (p.levels.numRanks * p.levels.numBanksPerRank) ∅

def age (e : TwiCeEntry) : Option TwiCeEntry :=
  if e.actCount < e.life * p.pruningIntervalThreshold then none
  else some { e with life := e.life + 1 }

def refreshBank (table : RowTable TwiCeEntry) : RowTable TwiCeEntry where
  entries := table.entries.filterMap fun e => (age p e.2).map (Sigma.mk e.1)
  nodupKeys := by
    have hkeys := List.nodupKeys_iff_pairwise.mp table.nodupKeys
    refine List.nodupKeys_iff_pairwise.mpr (hkeys.filterMap _ fun e e' hne f hf f' hf' => ?_)
    obtain ⟨_, -, rfl⟩ := Option.map_eq_some_iff.mp hf
    obtain ⟨_, -, rfl⟩ := Option.map_eq_some_iff.mp hf'
    exact hne

/-- An activation in a bank, and whether a victim-row refresh is requested. -/
def activate (table : RowTable TwiCeEntry) (row : Int) : RowTable TwiCeEntry × Bool :=
  match table.lookup row with
  | none => (table.insert row ⟨1, 0⟩, false)
  | some e =>
      let e := { e with actCount := e.actCount + 1 }
      if e.actCount ≥ p.rhThreshold then ((table.insert row e).erase row, true)
      else (table.insert row e, false)

/-- `update`: the state after it and the addresses of the refreshes it requests.  `none` where
the source leaves the bounds of `m_twice_table`. -/
def update (s : TWiCeIdeal) (request : Option IssuedCommand) :
    Option (TWiCeIdeal × List AddrVec) :=
  let clk := s.clk + 1
  match p.levels.seen request with
  | .refresh _ => some ({ clk, twiceTable := s.twiceTable.map (refreshBank p) }, [])
  | .activation v =>
      if p.levels.flatBankId v < 0 then none
      else
        s.twiceTable[(p.levels.flatBankId v).toNat]?.map fun table =>
          let (table, vrr) := activate p table (v.at p.levels.row)
          ({ clk, twiceTable := s.twiceTable.set (p.levels.flatBankId v).toNat table },
            if vrr then [v] else [])
  | .other => some ({ s with clk }, [])

/-! ## One entry -/

/-- What a call makes of the entry of the activated row, and whether it requests a refresh. -/
def activateEntry : Option TwiCeEntry → Option TwiCeEntry × Bool
  | none => (some ⟨1, 0⟩, false)
  | some e =>
      if e.actCount + 1 ≥ p.rhThreshold then (none, true)
      else (some { e with actCount := e.actCount + 1 }, false)

variable {p}

theorem lookup_refreshBank (table : RowTable TwiCeEntry) (row : Int) :
    (refreshBank p table).lookup row = (table.lookup row).bind (age p) := by
  refine Option.ext fun e => ?_
  have hleft : (refreshBank p table).lookup row = some e ↔
      (⟨row, e⟩ : Σ _ : Int, TwiCeEntry) ∈ (refreshBank p table).entries :=
    List.mem_dlookup_iff (refreshBank p table).nodupKeys
  rw [hleft, Option.bind_eq_some_iff, refreshBank, List.mem_filterMap]
  refine ⟨fun ⟨⟨row', e'⟩, hmem, heq⟩ => ?_, fun ⟨e', he', hage⟩ => ?_⟩
  · obtain ⟨e'', hage, heq⟩ := Option.map_eq_some_iff.mp heq
    cases heq
    exact ⟨e', (List.mem_dlookup_iff table.nodupKeys).mpr hmem, hage⟩
  · refine ⟨⟨row, e'⟩, (List.mem_dlookup_iff table.nodupKeys).mp he', ?_⟩
    rw [hage]
    rfl

theorem activate_spec (table : RowTable TwiCeEntry) (row : Int) :
    ((activate p table row).1.lookup row, (activate p table row).2) =
        activateEntry p (table.lookup row) ∧
      ∀ other, other ≠ row → (activate p table row).1.lookup other = table.lookup other := by
  unfold activate
  cases hrow : table.lookup row with
  | none =>
      exact ⟨by rw [AList.lookup_insert]; rfl, fun other hne => AList.lookup_insert_ne hne⟩
  | some e =>
      dsimp only [activateEntry]
      split
      · refine ⟨by rw [AList.lookup_erase], fun other hne => ?_⟩
        rw [AList.lookup_erase_ne hne, AList.lookup_insert_ne hne]
      · exact ⟨by rw [AList.lookup_insert], fun other hne => AList.lookup_insert_ne hne⟩

theorem update_spec {s s' : TWiCeIdeal} {request : Option IssuedCommand} {vrrs : List AddrVec}
    (hadmits : p.levels.Admits request) (h : s.update p request = some (s', vrrs)) :
    match p.levels.seen request with
    | .refresh _ => vrrs = [] ∧ ∀ v,
        p.levels.entry s'.twiceTable v = (p.levels.entry s.twiceTable v).bind (age p)
    | .activation w =>
        vrrs = (if (activateEntry p (p.levels.entry s.twiceTable w)).2 then [w] else []) ∧
        ∀ v, p.levels.InRange v → p.levels.entry s'.twiceTable v =
          if p.levels.rowKey v = p.levels.rowKey w then
            (activateEntry p (p.levels.entry s.twiceTable w)).1
          else p.levels.entry s.twiceTable v
    | .other => vrrs = [] ∧ s'.twiceTable = s.twiceTable := by
  unfold update at h
  dsimp only at h
  cases hseen : p.levels.seen request with
  | refresh rank =>
      rw [hseen] at h
      obtain ⟨rfl, rfl⟩ := Prod.mk.inj (Option.some.inj h)
      refine ⟨rfl, fun v => ?_⟩
      unfold entry
      rw [List.getElem?_map]
      cases s.twiceTable[(p.levels.flatBankId v).toNat]? with
      | none => rfl
      | some table => exact lookup_refreshBank table _
  | activation w =>
      rw [hseen] at h
      dsimp only at h
      split at h
      · cases h
      · obtain ⟨table, htable, heq⟩ := Option.map_eq_some_iff.mp h
        obtain ⟨rfl, rfl⟩ := Prod.mk.inj heq
        obtain ⟨hself, hother⟩ := activate_spec (p := p) table (w.at p.levels.row)
        have hentry : p.levels.entry s.twiceTable w = table.lookup (w.at p.levels.row) := by
          rw [entry, htable, Option.bind_some]
        dsimp only
        rw [hentry, ← hself]
        exact ⟨rfl, fun v hv => entry_set hv (hadmits w hseen) htable hother⟩
  | other =>
      rw [hseen] at h
      obtain ⟨rfl, rfl⟩ := Prod.mk.inj (Option.some.inj h)
      exact ⟨rfl, rfl⟩

/-! ## Runs -/

/-- The plugin with the log of its calls, newest first, and for each row the refreshes of its
rank since it was last inserted. -/
structure Watched where
  plugin : TWiCeIdeal
  log : List Record := []
  ownRefreshes : AddrVec → Nat := fun _ => 0

/-- A call of `update`, and what it adds to the log. -/
def Watched.step (p : TWiCeParams) (w : Watched) (request : Option IssuedCommand) :
    Option Watched :=
  (w.plugin.update p request).map fun (plugin, vrrs) =>
    { plugin
      log := ⟨p.levels.seen request, vrrs⟩ :: w.log
      ownRefreshes := fun v =>
        match p.levels.seen request with
        | .refresh rank => if v.at p.levels.rank = rank then w.ownRefreshes v + 1 else w.ownRefreshes v
        | .activation u =>
            if p.levels.rowKey v = p.levels.rowKey u ∧
              p.levels.entry w.plugin.twiceTable v = none then 0 else w.ownRefreshes v
        | .other => w.ownRefreshes v }

/-- The states of the runs from `setup` whose calls meet a guard. -/
abbrev GuardedRun (p : TWiCeParams) (guard : Watched → Option IssuedCommand → Prop) :
    Watched → Prop :=
  Runs.Reachable (Eq ⟨setup p, [], fun _ => 0⟩) (fun w request w' => w.step p request = some w')
    fun w request => p.levels.Admits request ∧ guard w request

/-- The states of all runs from `setup`. -/
abbrev Run (p : TWiCeParams) : Watched → Prop := GuardedRun p fun _ _ => True

/-- The calls since the last one that requested a victim-row refresh for a row. -/
def sinceVrr (lv : RankLevels) (v : AddrVec) (log : List Record) : List Record :=
  log.takeWhile fun r => !Record.requests lv v r

/-- The activations of a row since its last requested victim-row refresh. -/
def activations (lv : RankLevels) (v : AddrVec) (log : List Record) : Nat :=
  (sinceVrr lv v log).countP (Record.activates lv v)

/-- The refresh commands since the last requested victim-row refresh of a row. -/
def refreshes (lv : RankLevels) (v : AddrVec) (log : List Record) : Nat :=
  (sinceVrr lv v log).countP fun r => r.seen matches .refresh _

/-! ## The loss bound -/

/-- The activations of a row are counted by its entry, or paid by the refreshes before the
entry was inserted. -/
def Paid (p : TWiCeParams) (activations refreshes : Nat) : Option TwiCeEntry → Prop
  | none => (activations : ℚ) ≤ p.pruningIntervalThreshold * refreshes
  | some e =>
      0 ≤ e.life ∧ e.actCount ≤ max (p.rhThreshold - 1) 1 ∧
        (activations : ℚ) ≤ e.actCount + p.pruningIntervalThreshold * (refreshes - e.life)

namespace Paid

variable {m n : Nat} {entry : Option TwiCeEntry}

theorem bound (hp : 0 ≤ p.pruningIntervalThreshold) (h : Paid p m n entry) :
    (m : ℚ) ≤ (max (p.rhThreshold - 1) 1 : Int) + p.pruningIntervalThreshold * n := by
  cases entry with
  | none =>
      have hone : (1 : ℚ) ≤ (max (p.rhThreshold - 1) 1 : Int) := by
        exact_mod_cast le_max_right (p.rhThreshold - 1) 1
      have hpaid : (m : ℚ) ≤ p.pruningIntervalThreshold * n := h
      linarith
  | some e =>
      obtain ⟨hlife, hcount, hpaid⟩ := h
      have hcount : (e.actCount : ℚ) ≤ (max (p.rhThreshold - 1) 1 : Int) := by
        exact_mod_cast hcount
      have hlife : (0 : ℚ) ≤ p.pruningIntervalThreshold * e.life :=
        mul_nonneg hp (by exact_mod_cast hlife)
      rw [mul_sub] at hpaid
      linarith

theorem age (hp : 0 ≤ p.pruningIntervalThreshold) (h : Paid p m n entry) :
    Paid p m (n + 1) (entry.bind (age p)) := by
  cases entry with
  | none =>
      have hpaid : (m : ℚ) ≤ p.pruningIntervalThreshold * n := h
      change (m : ℚ) ≤ p.pruningIntervalThreshold * (n + 1 : Nat)
      push_cast
      linarith
  | some e =>
      obtain ⟨hlife, hcount, hpaid⟩ := h
      rw [Option.bind_some, TWiCeIdeal.age]
      split
      · next hlow =>
          change (m : ℚ) ≤ p.pruningIntervalThreshold * (n + 1 : Nat)
          push_cast
          linarith
      · refine ⟨Int.le_add_one hlife, hcount, ?_⟩
        push_cast
        linarith

theorem activate (h : Paid p m n entry) (hnone : (activateEntry p entry).2 = false) :
    Paid p (m + 1) n (activateEntry p entry).1 := by
  cases entry with
  | none =>
      have hpaid : (m : ℚ) ≤ p.pruningIntervalThreshold * n := h
      refine ⟨Int.le_refl 0, le_max_right _ _, ?_⟩
      push_cast
      linarith
  | some e =>
      obtain ⟨hlife, hcount, hpaid⟩ := h
      unfold activateEntry at hnone ⊢
      dsimp only at hnone ⊢
      split at hnone
      · cases hnone
      · next hlt =>
          rw [if_neg hlt]
          refine ⟨hlife, Int.le_trans (by dsimp only; omega) (le_max_left _ _), ?_⟩
          push_cast
          linarith

theorem request (hrequest : (activateEntry p entry).2 = true) :
    Paid p 0 0 (activateEntry p entry).1 := by
  cases entry with
  | none => cases hrequest
  | some e =>
      unfold activateEntry at hrequest ⊢
      dsimp only at hrequest ⊢
      split at hrequest
      · next hge =>
          rw [if_pos hge]
          change ((0 : Nat) : ℚ) ≤ p.pruningIntervalThreshold * (0 : Nat)
          rw [Nat.cast_zero, mul_zero]
      · cases hrequest

end Paid

section

variable {lv : RankLevels} {v : AddrVec} {r : Record} {log : List Record}

theorem sinceVrr_request (h : Record.requests lv v r = true) : sinceVrr lv v (r :: log) = [] := by
  rw [sinceVrr, List.takeWhile_cons, h]
  rfl

theorem sinceVrr_cons (h : Record.requests lv v r = false) :
    sinceVrr lv v (r :: log) = r :: sinceVrr lv v log := by
  rw [sinceVrr, List.takeWhile_cons, h]
  rfl

theorem activations_cons (h : Record.requests lv v r = false) :
    activations lv v (r :: log) =
      activations lv v log + if Record.activates lv v r then 1 else 0 := by
  rw [activations, sinceVrr_cons h, List.countP_cons]
  rfl

theorem refreshes_cons (h : Record.requests lv v r = false) :
    refreshes lv v (r :: log) = refreshes lv v log + if r.seen matches .refresh _ then 1 else 0 := by
  rw [refreshes, sinceVrr_cons h, List.countP_cons]
  rfl

end

def AllPaid (p : TWiCeParams) (w : Watched) : Prop :=
  ∀ v, p.levels.InRange v → Paid p (activations p.levels v w.log) (refreshes p.levels v w.log)
    (p.levels.entry w.plugin.twiceTable v)

theorem AllPaid.step (hp : 0 ≤ p.pruningIntervalThreshold) {w w' : Watched}
    {request : Option IssuedCommand} (hw : AllPaid p w) (hadmits : p.levels.Admits request)
    (h : w.step p request = some w') : AllPaid p w' := by
  obtain ⟨⟨plugin, vrrs⟩, hupdate, rfl⟩ := Option.map_eq_some_iff.mp h
  have hspec := update_spec hadmits hupdate
  intro v hv
  have hpaid := hw v hv
  dsimp only
  cases hseen : p.levels.seen request with
  | refresh rank =>
      rw [hseen] at hspec
      obtain ⟨rfl, hentry⟩ := hspec
      rw [activations_cons rfl, refreshes_cons rfl, hentry]
      exact hpaid.age hp
  | other =>
      rw [hseen] at hspec
      obtain ⟨rfl, htable⟩ := hspec
      rw [activations_cons rfl, refreshes_cons rfl, htable]
      exact hpaid
  | activation u =>
      rw [hseen] at hspec
      obtain ⟨rfl, hentry⟩ := hspec
      rw [hentry v hv]
      by_cases hsame : p.levels.rowKey v = p.levels.rowKey u
      · rw [if_pos hsame, ← entry_congr hv (hadmits u hseen) hsame]
        cases hvrr : (activateEntry p (p.levels.entry w.plugin.twiceTable v)).2 with
        | true =>
            have hrequests : Record.requests p.levels v ⟨.activation u, [u]⟩ = true := by
              rw [Record.requests, List.any_cons, decide_eq_true hsame.symm]
              rfl
            rw [if_pos rfl, activations, refreshes, sinceVrr_request hrequests]
            exact .request hvrr
        | false =>
            have hactivates : Record.activates p.levels v ⟨.activation u, []⟩ = true :=
              decide_eq_true hsame.symm
            rw [if_neg Bool.false_ne_true, activations_cons rfl, refreshes_cons rfl, hactivates]
            exact hpaid.activate hvrr
      · have hother : p.levels.rowKey u ≠ p.levels.rowKey v := Ne.symm hsame
        have hrequests : Record.requests p.levels v ⟨.activation u,
            if (activateEntry p (p.levels.entry w.plugin.twiceTable u)).2 then [u] else []⟩ =
              false := by
          unfold Record.requests
          split
          · rw [List.any_cons, decide_eq_false hother]
            rfl
          · rfl
        have hactivates : ∀ vrrs, Record.activates p.levels v ⟨.activation u, vrrs⟩ = false :=
          fun _ => decide_eq_false hother
        rw [if_neg hsame, activations_cons hrequests, refreshes_cons hrequests, hactivates]
        exact hpaid

theorem allPaid_run (hp : 0 ≤ p.pruningIntervalThreshold) {w : Watched} (h : Run p w) :
    AllPaid p w := by
  refine h.invariant (I := AllPaid p) ?_ ?_
  · rintro w rfl v -
    rw [setup, entry_replicate]
    change ((0 : Nat) : ℚ) ≤ p.pruningIntervalThreshold * (0 : Nat)
    rw [Nat.cast_zero, mul_zero]
  · intro w request w' hw hguard hstep
    exact hw.step hp hguard.1 hstep

/-! ## The banks of other ranks -/

def SameElsewhere (p : TWiCeParams) (rank : Int) (s s' : TWiCeIdeal) : Prop :=
  ∀ bank : Nat, ¬ p.levels.InSlice rank bank → s'.twiceTable[bank]? = s.twiceTable[bank]?

def EmptyElsewhere (p : TWiCeParams) (rank : Int) (s : TWiCeIdeal) : Prop :=
  ∀ bank : Nat, ¬ p.levels.InSlice rank bank → ∀ table, s.twiceTable[bank]? = some table →
    table.entries = []

theorem EmptyElsewhere.entry_eq_none {rank : Int} {s : TWiCeIdeal} {v : AddrVec}
    (h : EmptyElsewhere p rank s) (hv : p.levels.InRange v) (hrank : v.at p.levels.rank ≠ rank) :
    p.levels.entry s.twiceTable v = none := by
  have hnot := mt (inSlice_flatBankId_iff hv).mp hrank
  unfold entry
  cases htable : s.twiceTable[(p.levels.flatBankId v).toNat]? with
  | none => rfl
  | some table =>
      refine List.dlookup_eq_none.mpr ?_
      rw [h _ hnot table htable]
      exact List.not_mem_nil

theorem age_ne_self (e : TwiCeEntry) : age p e ≠ some e := by
  unfold age
  split
  · exact nofun
  · intro h
    have hlife := congrArg TwiCeEntry.life (Option.some.inj h)
    dsimp only at hlife
    omega

theorem refreshBank_eq_self_iff {table : RowTable TwiCeEntry} :
    refreshBank p table = table ↔ table.entries = [] := by
  refine ⟨fun h => ?_, fun h => ?_⟩
  · cases hentries : table.entries with
    | nil => rfl
    | cons e rest =>
        have hlookup : table.lookup e.1 = some e.2 :=
          (List.mem_dlookup_iff table.nodupKeys).mpr (hentries ▸ List.mem_cons_self)
        have hage := lookup_refreshBank (p := p) table e.1
        rw [h, hlookup, Option.bind_some] at hage
        exact absurd hage.symm (age_ne_self e.2)
  · refine AList.ext ?_
    have hentries : (refreshBank p table).entries =
        table.entries.filterMap fun e => (age p e.2).map (Sigma.mk e.1) := rfl
    rw [hentries, h]
    rfl

theorem update_refresh {s : TWiCeIdeal} {request : Option IssuedCommand} {rank : Int}
    (hseen : p.levels.seen request = .refresh rank) :
    s.update p request =
      some (⟨s.clk + 1, s.twiceTable.map (refreshBank p)⟩, []) := by
  unfold update
  rw [hseen]

theorem sameElsewhere_iff {s s' : TWiCeIdeal} {request : Option IssuedCommand} {rank : Int}
    {vrrs : List AddrVec} (hseen : p.levels.seen request = .refresh rank)
    (h : s.update p request = some (s', vrrs)) :
    SameElsewhere p rank s s' ↔ EmptyElsewhere p rank s := by
  rw [update_refresh hseen] at h
  obtain ⟨rfl, -⟩ := Prod.mk.inj (Option.some.inj h)
  refine forall_congr' fun bank => imp_congr_right fun _ => ?_
  rw [List.getElem?_map]
  cases s.twiceTable[bank]? with
  | none => exact iff_of_true rfl nofun
  | some table =>
      rw [Option.map_some, Option.some.injEq, refreshBank_eq_self_iff]
      exact ⟨fun h table' heq => Option.some.inj heq ▸ h, fun h => h table rfl⟩

def RefreshesOnly (p : TWiCeParams) (w : Watched) (request : Option IssuedCommand) : Prop :=
  ∀ rank, p.levels.seen request = .refresh rank → EmptyElsewhere p rank w.plugin

def LivesCount (p : TWiCeParams) (w : Watched) : Prop :=
  ∀ v e, p.levels.InRange v → p.levels.entry w.plugin.twiceTable v = some e →
    e.life = w.ownRefreshes v

theorem LivesCount.step {w w' : Watched} {request : Option IssuedCommand} (hw : LivesCount p w)
    (hadmits : p.levels.Admits request) (honly : RefreshesOnly p w request)
    (h : w.step p request = some w') : LivesCount p w' := by
  obtain ⟨⟨plugin, vrrs⟩, hupdate, rfl⟩ := Option.map_eq_some_iff.mp h
  have hspec := update_spec hadmits hupdate
  intro v e hv he
  dsimp only at he ⊢
  cases hseen : p.levels.seen request with
  | other =>
      rw [hseen] at hspec
      rw [hspec.2] at he
      exact hw v e hv he
  | refresh rank =>
      rw [hseen] at hspec
      rw [hspec.2] at he
      obtain ⟨e', he', hage⟩ := Option.bind_eq_some_iff.mp he
      have hrank : v.at p.levels.rank = rank := by
        refine Classical.byContradiction fun hne => ?_
        rw [(honly rank hseen).entry_eq_none hv hne] at he'
        cases he'
      unfold age at hage
      split at hage
      · cases hage
      · obtain rfl := Option.some.inj hage
        dsimp only
        rw [if_pos hrank, hw v e' hv he']
        rfl
  | activation u =>
      rw [hseen] at hspec
      rw [hspec.2 v hv] at he
      by_cases hsame : p.levels.rowKey v = p.levels.rowKey u
      · rw [if_pos hsame, ← entry_congr hv (hadmits u hseen) hsame] at he
        dsimp only
        cases hold : p.levels.entry w.plugin.twiceTable v with
        | none =>
            rw [hold] at he
            obtain rfl := Option.some.inj he
            rw [if_pos ⟨hsame, rfl⟩]
            rfl
        | some e' =>
            rw [hold] at he
            have hlife := hw v e' hv hold
            rw [if_neg fun h => nomatch h.2]
            unfold activateEntry at he
            dsimp only at he
            split at he
            · cases he
            · rw [← Option.some.inj he]
              exact hlife
      · rw [if_neg hsame] at he
        dsimp only
        rw [if_neg fun h => hsame h.1]
        exact hw v e hv he

end TWiCeIdeal

open TWiCeIdeal in
/-- In every run the activations of a row since its last requested victim-row refresh exceed
what its entry may count by at most the pruning threshold for each refresh since then. -/
theorem twice_loss_bound {p : TWiCeParams} (hp : 0 ≤ p.pruningIntervalThreshold) {w : Watched}
    (h : Run p w) {v : AddrVec} (hv : p.levels.InRange v) :
    (activations p.levels v w.log : ℚ) ≤
      (max (p.rhThreshold - 1) 1 : Int) +
        p.pruningIntervalThreshold * refreshes p.levels v w.log :=
  (allPaid_run hp h v hv).bound hp

/-- A threshold of 3 activations, with 2 activations for each life. -/
def ddr4TWiCe : TWiCeParams := ⟨ddr4Ranks, 3, 2⟩

def TWiCeIdeal.replay (requests : List (Option IssuedCommand)) : Option Watched :=
  Runs.replay (Watched.step ddr4TWiCe) (fun _ request => decide (ddr4TWiCe.levels.Admits request))
    ⟨setup ddr4TWiCe, [], fun _ => 0⟩ requests

open TWiCeIdeal in
theorem TWiCeIdeal.replay_run {requests : List (Option IssuedCommand)} {w : Watched}
    (h : replay requests = some w) : Run ddr4TWiCe w :=
  Runs.replay_reachable (fun _ _ h => ⟨of_decide_eq_true h, trivial⟩) (.start rfl) h

open TWiCeIdeal in
/-- A row that is pruned at its second refresh: three activations after it go without a
request. -/
theorem twice_loss_bound_pruned : ∃ w, Run ddr4TWiCe w ∧
    activations ddr4Ranks [0, 1, 2, 3, 5, 0] w.log = 3 ∧
    (activations ddr4Ranks [0, 1, 2, 3, 5, 0] w.log : ℚ) ≤
      (max (3 - 1) 1 : Int) + 2 * refreshes ddr4Ranks [0, 1, 2, 3, 5, 0] w.log := by
  have hrun : ((replay [activateRow 1 2 3 5, refreshRank 1, refreshRank 1, activateRow 1 2 3 5,
      activateRow 1 2 3 5]).any fun w =>
        activations ddr4Ranks [0, 1, 2, 3, 5, 0] w.log = 3) = true := by
    decide +kernel
  obtain ⟨w, hw, htest⟩ := Option.any_eq_true .. |>.mp hrun
  exact ⟨w, replay_run hw, of_decide_eq_true htest,
    twice_loss_bound (p := ddr4TWiCe) (by decide) (replay_run hw) (by decide)⟩

open TWiCeIdeal in
/-- A refresh of one rank leaves the tables of the other ranks exactly where they are empty;
in every run whose refreshes all find them so, a life counts the refreshes of its own rank. -/
theorem twice_refresh_iff (p : TWiCeParams) :
    (∀ w, Run p w → ∀ request rank plugin vrrs, p.levels.seen request = .refresh rank →
      w.plugin.update p request = some (plugin, vrrs) →
        (SameElsewhere p rank w.plugin plugin ↔ EmptyElsewhere p rank w.plugin)) ∧
    ∀ w, GuardedRun p (RefreshesOnly p) w → LivesCount p w := by
  refine ⟨fun w _ request rank plugin vrrs hseen hupdate => sameElsewhere_iff hseen hupdate,
    fun w hw => hw.invariant (I := LivesCount p) ?_ ?_⟩
  · rintro w rfl v e - he
    rw [setup, entry_replicate] at he
    cases he
  · intro w request w' hw ⟨hadmits, honly⟩ hstep
    exact hw.step hadmits honly hstep

open TWiCeIdeal in
/-- One row of rank 1 in the table: a refresh of rank 1, and of rank 0. -/
theorem twice_refresh_iff_rank1 : ∃ w plugin plugin', Run ddr4TWiCe w ∧
    w.plugin.update ddr4TWiCe (refreshRank 1) = some (plugin, []) ∧
    w.plugin.update ddr4TWiCe (refreshRank 0) = some (plugin', []) ∧
    (SameElsewhere ddr4TWiCe 1 w.plugin plugin ↔ EmptyElsewhere ddr4TWiCe 1 w.plugin) ∧
    (SameElsewhere ddr4TWiCe 0 w.plugin plugin' ↔ EmptyElsewhere ddr4TWiCe 0 w.plugin) := by
  have hrun : (replay [activateRow 1 2 3 5]).isSome = true := by decide +kernel
  obtain ⟨w, hw⟩ := Option.isSome_iff_exists.mp hrun
  have hiff := (twice_refresh_iff ddr4TWiCe).1 w (replay_run hw)
  have hupdate := fun rank => @update_refresh ddr4TWiCe w.plugin (refreshRank rank) rank rfl
  exact ⟨w, _, _, replay_run hw, hupdate 1, hupdate 0, hiff _ _ _ _ rfl (hupdate 1),
    hiff _ _ _ _ rfl (hupdate 0)⟩

open TWiCeIdeal in
/-- A refresh of rank 0 is counted in the life of a row of rank 1, which is pruned at its
next refresh. -/
theorem refresh_ages_other_rank : ∃ w plugin, Run ddr4TWiCe w ∧
    w.plugin.update ddr4TWiCe (refreshRank 0) = some (plugin, []) ∧
    ddr4Ranks.entry w.plugin.twiceTable [0, 1, 2, 3, 5, 0] = some ⟨1, 0⟩ ∧
    ddr4Ranks.entry plugin.twiceTable [0, 1, 2, 3, 5, 0] = some ⟨1, 1⟩ ∧
    ¬ SameElsewhere ddr4TWiCe 0 w.plugin plugin := by
  have hrun : ((replay [activateRow 1 2 3 5]).any fun w =>
      ddr4Ranks.entry w.plugin.twiceTable [0, 1, 2, 3, 5, 0] = some ⟨1, 0⟩) = true := by
    decide +kernel
  obtain ⟨w, hw, htest⟩ := Option.any_eq_true .. |>.mp hrun
  have hentry := of_decide_eq_true htest
  have hupdate := @update_refresh ddr4TWiCe w.plugin (refreshRank 0) 0 rfl
  obtain ⟨-, hentries⟩ := update_spec (p := ddr4TWiCe) (by decide +kernel) hupdate
  have hentry' := hentries [0, 1, 2, 3, 5, 0]
  have hage : age ddr4TWiCe ⟨1, 0⟩ = some ⟨1, 1⟩ := by decide +kernel
  rw [show ddr4TWiCe.levels = ddr4Ranks from rfl, hentry, Option.bind_some, hage] at hentry'
  refine ⟨w, _, replay_run hw, hupdate, hentry, hentry', fun hsame => ?_⟩
  have hempty := (sameElsewhere_iff rfl hupdate).mp hsame
  have hnone := hempty.entry_eq_none (v := [0, 1, 2, 3, 5, 0]) (by decide) (by decide)
  cases hentry.symm.trans hnone

end AimSimulator.Plugin
