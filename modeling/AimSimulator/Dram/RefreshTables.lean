import AimSimulator.Dram.GDDR6
import AimSimulator.Dram.LPDDR
import AimSimulator.Lib.Excepts
import Mathlib.Logic.Function.Basic
import Mathlib.Algebra.Group.Int.Defs
/-!
# The organisation and the refresh timings

`set_organization` and `set_timing_vals` of GDDR6, LPDDR4 and LPDDR5.  The first accepts every
organisation whose density is the product of its sizes; the second has a column of its refresh
tables for some densities only, and no test that the density is one of them.
-/

namespace AimSimulator.Dram

open Excepts

/-- How the setup of a device ends before it is through: it throws, reads outside a table, or
divides by zero. -/
inductive SetupFault
  | configurationError (message : String)
  | outOfBounds (index : Int)
  | divisionByZero
  deriving DecidableEq, Repr

/-- The parameters of the group `org`; a size by its level. -/
structure OrgParams where
  preset : Option String := none
  dq : Option Int := none
  sizes : Nat → Option Int := fun _ => none
  density : Option Int := none

/-- The parameters of the group `timing`; `provided` is the number of cycles that the user gives
for a timing, in cycles or in nanoseconds. -/
structure TimingParams (Timing : Type) where
  preset : Option String := none
  rate : Option Int := none
  provided : Timing → Option Int := fun _ => none

structure DeviceTables (Timing : Type) where
  name : String
  numLevels : Nat
  orgPresets : List (String × Organization)
  /-- the levels whose sizes make up the density -/
  densityLevels : List Nat
  /-- `m_timings`, in order, with their names -/
  timings : List (Timing × String)
  timingPresets : List (String × List Int)
  timingVals : List Int → Timing → Int
  rate : Timing
  tCKps : Timing
  /-- what is derived from the preset, the rate and the organisation before the lookups -/
  derived : Organization → (Timing → Int) → Timing → Int
  /-- the densities with a column in the refresh tables -/
  densities : List Int
  /-- the refresh timings with their tables, in nanoseconds -/
  refreshTables : List (Timing × List Int)
  nREFI : Timing
  /-- `tREFI_BASE` -/
  tREFIBase : Int
  /-- the timings that are set last -/
  fixed : Timing → Option Int

/-- `JEDEC_rounding` of a whole number of nanoseconds; the clock is converted to `uint64_t`. -/
def jedecRounding (tNs tCKps : Int) : Except SetupFault Int :=
  if tCKps = 0 then .error .divisionByZero
  else .ok ((tNs * 1000 * 1000 / (BitVec.ofInt 64 tCKps).toNat + 974) / 1000)

/-- `table[index]`. -/
def tableAt (table : List Int) (index : Int) : Except SetupFault Int :=
  if index < 0 then .error (.outOfBounds index)
  else
    match table[index.toNat]? with
    | some value => .ok value
    | none => .error (.outOfBounds index)

namespace DeviceTables

variable {Timing : Type} [DecidableEq Timing] (d : DeviceTables Timing)

/-! ## `set_organization` -/

/-- The chip density in Mb that the sizes give, a `size_t`. -/
def calculatedDensity (org : Organization) : BitVec 64 :=
  (d.densityLevels.foldl (fun product level => product * BitVec.ofInt 64 (org.countAt level)) 1 *
    BitVec.ofInt 64 org.dq) >>> 20

def loadOrganization (params : OrgParams) : Except SetupFault Organization :=
  match params.preset with
  | none => .ok ⟨-1, -1, List.replicate d.numLevels (-1)⟩
  | some preset =>
      match d.orgPresets.lookup preset with
      | some org => .ok org
      | none => .error (.configurationError
          ("Unrecognized organization preset \"" ++ preset ++ "\" in " ++ d.name ++ "!"))

def overrideOrganization (params : OrgParams) (org : Organization) : Organization where
  density := params.density.getD org.density
  dq := params.dq.getD org.dq
  count := (List.range d.numLevels).map fun level => (params.sizes level).getD (org.countAt level)

def setOrganization (params : OrgParams) : Except SetupFault Organization := do
  let org ← d.loadOrganization params
  let org := d.overrideOrganization params org
  if BitVec.ofInt 64 org.density ≠ d.calculatedDensity org then
    .error (.configurationError ("Calculated " ++ d.name ++ " chip density " ++
      toString (d.calculatedDensity org).toNat ++ " Mb does not equal the provided density " ++
      toString org.density ++ " Mb!"))
  else return org

/-! ## `set_timing_vals` -/

def loadTiming (params : TimingParams Timing) : Except SetupFault (Timing → Int) :=
  match params.preset with
  | none => .ok fun _ => -1
  | some preset =>
      match d.timingPresets.lookup preset with
      | some values => .ok (d.timingVals values)
      | none => .error (.configurationError
          ("Unrecognized timing preset \"" ++ preset ++ "\" in " ++ d.name ++ "!"))

def loadRate (params : TimingParams Timing) (vals : Timing → Int) :
    Except SetupFault (Timing → Int) :=
  match params.rate with
  | none => .ok vals
  | some rate =>
      if params.preset.isSome then
        .error (.configurationError
          ("Cannot change the transfer rate of " ++ d.name ++ " when using a speed preset !"))
      else .ok (Function.update vals d.rate rate)

def densityId (density : Int) : Int :=
  match d.densities.idxOf? density with
  | some i => i
  | none => -1

def lookupTiming (id : Int) (vals : Timing → Int) (entry : Timing × List Int) :
    Except SetupFault (Timing → Int) := do
  let tNs ← tableAt entry.2 id
  let nCK ← jedecRounding tNs (vals d.tCKps)
  return Function.update vals entry.1 nCK

def overwrite (params : TimingParams Timing) (vals : Timing → Int) (t : Timing) : Int :=
  if t = d.rate ∨ t = d.tCKps then vals t else (params.provided t).getD (vals t)

def checkSpecified (vals : Timing → Int) : Except SetupFault Unit :=
  match d.timings.find? fun t => vals t.1 = -1 with
  | some t => .error (.configurationError
      ("In \"" ++ d.name ++ "\", timing " ++ t.2 ++ " is not specified!"))
  | none => .ok ()

/-- The part of `set_timing_vals` up to the secondary timings. -/
def loadVals (params : TimingParams Timing) : Except SetupFault (Timing → Int) := do
  let vals ← d.loadTiming params
  d.loadRate params vals

/-- The part of `set_timing_vals` from `nREFI` on. -/
def completeVals (params : TimingParams Timing) (vals : Timing → Int) :
    Except SetupFault (Timing → Int) := do
  let nREFI ← jedecRounding d.tREFIBase (vals d.tCKps)
  let vals := d.overwrite params (Function.update vals d.nREFI nREFI)
  d.checkSpecified vals
  return fun t => (d.fixed t).getD (vals t)

def setTimingVals (org : Organization) (params : TimingParams Timing) :
    Except SetupFault (Timing → Int) := do
  let vals ← d.loadVals params
  let vals ← d.refreshTables.foldlM (d.lookupTiming (d.densityId org.density)) (d.derived org vals)
  d.completeVals params vals

/-! ## The lookups -/

/-- What the setup relies on: each table has a column for every density, and the timings that
are looked up are neither derived from another one nor set last. -/
structure Fits : Prop where
  columns : ∀ entry ∈ d.refreshTables, entry.2.length = d.densities.length
  nonempty : d.refreshTables ≠ []
  distinct : (d.refreshTables.map (·.1)).Nodup
  nREFI : d.nREFI ∉ d.refreshTables.map (·.1) ∧ d.nREFI ≠ d.tCKps
  tCKps : d.tCKps ∉ d.refreshTables.map (·.1) ∧ d.fixed d.tCKps = none
  fixed : ∀ entry ∈ d.refreshTables, d.fixed entry.1 = none

def Rejected (params : TimingParams Timing) : Prop :=
  (∃ preset, params.preset = some preset ∧ d.timingPresets.lookup preset = none) ∨
    (params.preset.isSome ∧ params.rate.isSome)

/-- No table is read outside its bounds, and a refresh timing that the user leaves alone is a
rounded entry of its table. -/
def InRange (org : Organization) (params : TimingParams Timing) : Prop :=
  (∀ i, d.setTimingVals org params ≠ .error (.outOfBounds i)) ∧
    ∀ vals, d.setTimingVals org params = .ok vals →
      ∀ entry ∈ d.refreshTables, params.provided entry.1 = none →
        ∃ tNs ∈ entry.2, jedecRounding tNs (vals d.tCKps) = .ok (vals entry.1)

variable {d} {org : Organization} {params : TimingParams Timing}

omit [DecidableEq Timing] in
theorem densityId_of_mem {density : Int} (h : density ∈ d.densities) :
    0 ≤ d.densityId density ∧ (d.densityId density).toNat < d.densities.length := by
  obtain ⟨i, hi⟩ := Option.isSome_iff_exists.mp (List.isSome_idxOf?.mpr h)
  have hlt : i < d.densities.length := by
    obtain ⟨hlt, -⟩ := List.idxOf?_eq_some_iff.mp hi
    exact hlt
  rw [densityId, hi]
  exact ⟨Int.natCast_nonneg i, hlt⟩

omit [DecidableEq Timing] in
theorem densityId_of_not_mem {density : Int} (h : density ∉ d.densities) :
    d.densityId density = -1 := by
  rw [densityId, List.idxOf?_eq_none_iff.mpr h]

theorem tableAt_ok {table : List Int} {index : Int} (hnonneg : 0 ≤ index)
    (hlt : index.toNat < table.length) : ∃ value ∈ table, tableAt table index = .ok value := by
  refine ⟨table[index.toNat], List.getElem_mem hlt, ?_⟩
  rw [tableAt, if_neg (Int.not_lt.mpr hnonneg), List.getElem?_eq_getElem hlt]

theorem jedecRounding_bounds (tNs tCKps i : Int) :
    jedecRounding tNs tCKps ≠ .error (.outOfBounds i) := by
  unfold jedecRounding
  split <;> exact nofun

/-- In range, a lookup fails at most because of the clock, and sets the timing of its table. -/
theorem lookupTiming_cases {id : Int} (vals : Timing → Int) {entry : Timing × List Int}
    (hnonneg : 0 ≤ id) (hlt : id.toNat < entry.2.length) :
    ∃ tNs ∈ entry.2, d.lookupTiming id vals entry =
      (Function.update vals entry.1) <$> jedecRounding tNs (vals d.tCKps) := by
  obtain ⟨tNs, hmem, hat⟩ := tableAt_ok hnonneg hlt
  refine ⟨tNs, hmem, ?_⟩
  rw [lookupTiming, hat]
  rfl

/-- The lookups in range: none reads outside its table, and each timing is a rounded entry. -/
theorem lookups_inRange {id : Int} (hnonneg : 0 ≤ id) {l : List (Timing × List Int)}
    (hlt : ∀ entry ∈ l, id.toNat < entry.2.length) (hdistinct : (l.map (·.1)).Nodup)
    (htCK : d.tCKps ∉ l.map (·.1)) (vals : Timing → Int) :
    (∀ i, l.foldlM (d.lookupTiming id) vals ≠ .error (.outOfBounds i)) ∧
    ∀ vals', l.foldlM (d.lookupTiming id) vals = .ok vals' →
      (∀ t, t ∉ l.map (·.1) → vals' t = vals t) ∧
      ∀ entry ∈ l, ∃ tNs ∈ entry.2, jedecRounding tNs (vals d.tCKps) = .ok (vals' entry.1) := by
  induction l generalizing vals with
  | nil =>
      refine ⟨fun _ => nofun, fun vals' h => ?_⟩
      obtain rfl := Except.ok.inj h
      exact ⟨fun _ _ => rfl, fun _ h => (by cases h)⟩
  | cons entry l ih =>
      obtain ⟨hhead, htail⟩ := List.forall_mem_cons.mp hlt
      rw [List.map_cons, List.nodup_cons] at hdistinct
      rw [List.map_cons, List.mem_cons, not_or] at htCK
      obtain ⟨tNs, hmem, hlookup⟩ := lookupTiming_cases (d := d) vals hnonneg hhead
      rw [List.foldlM_cons, hlookup]
      cases hround : jedecRounding tNs (vals d.tCKps) with
      | error fault =>
          refine ⟨fun i h => ?_, fun _ h => (by cases h)⟩
          obtain rfl := Except.error.inj h
          exact jedecRounding_bounds _ _ _ hround
      | ok nCK =>
          have hclock : (Function.update vals entry.1 nCK) d.tCKps = vals d.tCKps :=
            Function.update_of_ne htCK.1 ..
          obtain ⟨hbounds, hvals⟩ := ih htail hdistinct.2 htCK.2 (Function.update vals entry.1 nCK)
          rw [hclock] at hvals
          refine ⟨hbounds, fun vals' h => ?_⟩
          obtain ⟨hothers, hentries⟩ := hvals vals' h
          refine ⟨fun t ht => ?_, List.forall_mem_cons.mpr ⟨⟨tNs, hmem, ?_⟩, hentries⟩⟩
          · rw [List.map_cons, List.mem_cons, not_or] at ht
            rw [hothers t ht.2, Function.update_of_ne ht.1]
          · rw [hothers _ hdistinct.1, Function.update_self, hround]

/-- With the sentinel for an index the first lookup reads before its table. -/
theorem lookups_of_neg {id : Int} (hneg : id < 0) {l : List (Timing × List Int)} (hne : l ≠ [])
    (vals : Timing → Int) : l.foldlM (d.lookupTiming id) vals = .error (.outOfBounds id) := by
  obtain ⟨entry, rest, rfl⟩ := List.exists_cons_of_ne_nil hne
  rw [List.foldlM_cons, lookupTiming, tableAt, if_pos hneg]
  rfl

theorem loadVals_cases (params : TimingParams Timing) :
    (d.Rejected params ∧ ∃ message, d.loadVals params = .error (.configurationError message)) ∨
      (¬ d.Rejected params ∧ ∃ vals, d.loadVals params = .ok vals) := by
  obtain ⟨preset, rate, provided⟩ := params
  cases preset with
  | none =>
      refine .inr ⟨fun h => ?_, ?_⟩
      · rcases h with ⟨_, h, _⟩ | ⟨h, _⟩ <;> cases h
      · cases rate with
        | none => exact ⟨_, rfl⟩
        | some rate => exact ⟨_, rfl⟩
  | some preset =>
      cases hlookup : d.timingPresets.lookup preset with
      | none =>
          refine .inl ⟨.inl ⟨preset, rfl, hlookup⟩,
            "Unrecognized timing preset \"" ++ preset ++ "\" in " ++ d.name ++ "!", ?_⟩
          simp only [loadVals, loadTiming, hlookup]
          rfl
      | some values =>
          cases rate with
          | some rate =>
              refine .inl ⟨.inr ⟨rfl, rfl⟩, "Cannot change the transfer rate of " ++ d.name ++
                " when using a speed preset !", ?_⟩
              simp only [loadVals, loadTiming, hlookup]
              rfl
          | none =>
              refine .inr ⟨fun h => ?_, d.timingVals values, ?_⟩
              · rcases h with ⟨name, hname, h⟩ | ⟨_, h⟩
                · obtain rfl := Option.some.inj hname
                  rw [hlookup] at h
                  cases h
                · cases h
              · simp only [loadVals, loadTiming, hlookup]
                rfl

theorem completeVals_bounds (vals : Timing → Int) (i : Int) :
    d.completeVals params vals ≠ .error (.outOfBounds i) := by
  intro h
  rcases bind_eq_error.mp h with h | ⟨_, _, h⟩
  · exact jedecRounding_bounds _ _ _ h
  · rcases bind_eq_error.mp h with h | ⟨_, _, h⟩
    · unfold checkSpecified at h
      split at h <;> cases h
    · cases h

theorem completeVals_keeps {vals final : Timing → Int}
    (h : d.completeVals params vals = .ok final) {t : Timing} (hnREFI : t ≠ d.nREFI)
    (hfixed : d.fixed t = none) (hprovided : t = d.tCKps ∨ params.provided t = none) :
    final t = vals t := by
  obtain ⟨nREFI, _, h⟩ := bind_eq_ok.mp h
  obtain ⟨_, _, h⟩ := bind_eq_ok.mp h
  obtain rfl := Except.ok.inj h
  show (d.fixed t).getD (d.overwrite params (Function.update vals d.nREFI nREFI) t) = vals t
  rw [hfixed, Option.getD_none, overwrite, Function.update_of_ne hnREFI]
  rcases hprovided with rfl | hnone
  · exact if_pos (.inr rfl)
  · rw [hnone, Option.getD_none, ite_self]

/-- The lookups are in range exactly when the density has a column, unless the configuration is
thrown out before them. -/
theorem inRange_iff (hfits : d.Fits) :
    d.InRange org params ↔ d.Rejected params ∨ org.density ∈ d.densities := by
  rcases d.loadVals_cases params with ⟨hrejected, message, hload⟩ | ⟨hrejected, vals, hload⟩
  · refine ⟨fun _ => .inl hrejected, fun _ => ?_⟩
    rw [InRange, setTimingVals, hload]
    exact ⟨fun _ => nofun, fun _ h => (by cases h)⟩
  · have hset : d.setTimingVals org params =
        d.refreshTables.foldlM (d.lookupTiming (d.densityId org.density)) (d.derived org vals) >>=
          d.completeVals params := by
      rw [setTimingVals, hload]
      rfl
    rw [InRange, hset]
    constructor
    · intro ⟨hbounds, _⟩
      refine .inr (Classical.byContradiction fun hdensity => hbounds (-1) ?_)
      rw [densityId_of_not_mem hdensity, lookups_of_neg (by decide) hfits.nonempty]
      rfl
    · rintro (hr | hdensity)
      · exact absurd hr hrejected
      obtain ⟨hnonneg, hlt⟩ := densityId_of_mem hdensity
      obtain ⟨hbounds, hvals⟩ := lookups_inRange (d := d) hnonneg
        (fun entry hentry => hfits.columns entry hentry ▸ hlt) hfits.distinct hfits.tCKps.1
        (d.derived org vals)
      refine ⟨fun i hfault => ?_, fun final hfinal entry hentry hprovided => ?_⟩
      · rcases bind_eq_error.mp hfault with hfault | ⟨_, _, hfault⟩
        · exact hbounds i hfault
        · exact completeVals_bounds _ _ hfault
      · obtain ⟨looked, hlooked, hfinal⟩ := bind_eq_ok.mp hfinal
        obtain ⟨hothers, hentries⟩ := hvals looked hlooked
        obtain ⟨tNs, hmem, hround⟩ := hentries entry hentry
        have hclock : final d.tCKps = d.derived org vals d.tCKps :=
          (completeVals_keeps hfinal (Ne.symm hfits.nREFI.2) hfits.tCKps.2 (.inl rfl)).trans
            (hothers _ hfits.tCKps.1)
        have hne : entry.1 ≠ d.nREFI := fun h => hfits.nREFI.1 (h ▸ List.mem_map_of_mem hentry)
        refine ⟨tNs, hmem, ?_⟩
        rw [hclock, hround,
          completeVals_keeps hfinal hne (hfits.fixed entry hentry) (.inr hprovided)]

end DeviceTables

/-! ## GDDR6 -/

namespace GDDR6

def timings : List (Timing × String) :=
  [ (.rate, "rate"), (.nBL, "nBL"), (.nCL, "nCL"), (.nRCDRD, "nRCDRD"),
    (.nRCDRDMAC, "nRCDRDMAC"), (.nRCDEWMUL, "nRCDEWMUL"), (.nRCDRDAF, "nRCDRDAF"),
    (.nRCDRDCP, "nRCDRDCP"), (.nRCDWR, "nRCDWR"), (.nRCDWRCP, "nRCDWRCP"), (.nRP, "nRP"),
    (.nRAS, "nRAS"), (.nRC, "nRC"), (.nWR, "nWR"), (.nRTP, "nRTP"), (.nCWL, "nCWL"),
    (.nCCDS, "nCCDS"), (.nCCDL, "nCCDL"), (.nRRDS, "nRRDS"), (.nRRDL, "nRRDL"),
    (.nWTRS, "nWTRS"), (.nWTRL, "nWTRL"), (.nFAW, "nFAW"), (.nRFC, "nRFC"), (.nREFI, "nREFI"),
    (.nRREFD, "nRREFD"), (.nRFCpb, "nRFCpb"), (.nCLREG, "nCLREG"), (.nCLGB, "nCLGB"),
    (.nCWLREG, "nCWLREG"), (.nCWLGB, "nCWLGB"), (.nWPRE, "nWPRE"), (.nMODCH, "nMODCH"),
    (.tCK_ps, "tCK_ps") ]

def aimTimings : Timing → Option Int
  | .nCLREG => some 0
  | .nCLGB | .nCWLREG | .nCWLGB | .nWPRE => some 1
  | _ => none

def secondaryTimings (org : Organization) (vals : Timing → Int) (t : Timing) : Int :=
  match t with
  | .nRRDS => secondaryTiming org.dq (vals .rate) 4 5 (vals t)
  | .nRRDL => secondaryTiming org.dq (vals .rate) 5 6 (vals t)
  | .nFAW => secondaryTiming org.dq (vals .rate) 20 28 (vals t)
  | _ => vals t

/-- The tables of GDDR6; of `tRFC_TABLE` only the row of the normal refresh is used. -/
def deviceTables : DeviceTables Timing where
  name := "GDDR6"
  numLevels := 5
  orgPresets := orgPresets
  densityLevels := [channel, bankgroup, bank, row, column]
  timings := timings
  timingPresets := timingPresets
  timingVals := timingVals
  rate := .rate
  tCKps := .tCK_ps
  derived := secondaryTimings
  densities := [4096, 8192, 16384]
  refreshTables := [(.nRFC, [260, 360, 550])]
  nREFI := .nREFI
  tREFIBase := 7800
  fixed := aimTimings

theorem deviceTables_fits : deviceTables.Fits where
  columns := by decide
  nonempty := by decide
  distinct := by decide
  nREFI := by decide
  tCKps := by decide
  fixed := by decide

theorem deviceTables_setTimingVals {org : Organization} {preset : String} {values : List Int}
    {vals : Timing → Int} (hpreset : timingPresets.lookup preset = some values)
    (h : deviceTables.setTimingVals org { preset := some preset } = .ok vals) :
    ∃ nRFC nREFI, vals = setTimingVals values org.dq nRFC nREFI := by
  have hload : deviceTables.loadVals { preset := some preset } = .ok (timingVals values) := by
    have hpreset' : deviceTables.timingPresets.lookup preset = some values := hpreset
    simp only [DeviceTables.loadVals, DeviceTables.loadTiming, hpreset']
    rfl
  rw [DeviceTables.setTimingVals, hload] at h
  obtain ⟨_, hvals, h⟩ := bind_eq_ok.mp h
  obtain rfl := Except.ok.inj hvals
  obtain ⟨_, hlooked, h⟩ := bind_eq_ok.mp h
  obtain ⟨_, hlookup, hnil⟩ := bind_eq_ok.mp hlooked
  obtain rfl := Except.ok.inj hnil
  obtain ⟨_, _, hlookup⟩ := bind_eq_ok.mp hlookup
  obtain ⟨nRFC, _, hlookup⟩ := bind_eq_ok.mp hlookup
  obtain rfl := Except.ok.inj hlookup
  obtain ⟨nREFI, _, h⟩ := bind_eq_ok.mp h
  obtain ⟨_, _, h⟩ := bind_eq_ok.mp h
  obtain rfl := Except.ok.inj h
  refine ⟨nRFC, nREFI, ?_⟩
  funext t
  cases t <;> rfl

theorem aimVals_setup (count : List Int) :
    deviceTables.setTimingVals ⟨8192, 16, count⟩ { preset := some "GDDR6_AiM_timing" } =
      .ok aimVals := by
  show deviceTables.setTimingVals ⟨8192, 16, []⟩ _ = _
  refine congrArg Except.ok (funext fun t => ?_)
  cases t <;> rfl

end GDDR6

/-! ## LPDDR4 and LPDDR5 -/

namespace LPDDR

def timings : List (Timing × String) :=
  [ (.rate, "rate"), (.nBL, "nBL"), (.nCL, "nCL"), (.nRCD, "nRCD"), (.nRCDRDMAC, "nRCDRDMAC"),
    (.nRCDEWMUL, "nRCDEWMUL"), (.nRCDRDAF, "nRCDRDAF"), (.nRCDRDCP, "nRCDRDCP"),
    (.nRCDWRCP, "nRCDWRCP"), (.nRPab, "nRPab"), (.nRPpb, "nRPpb"), (.nRAS, "nRAS"),
    (.nRC, "nRC"), (.nWR, "nWR"), (.nRTP, "nRTP"), (.nCWL, "nCWL"), (.nCCD, "nCCD"),
    (.nRRD, "nRRD"), (.nWTRS, "nWTRS"), (.nWTRL, "nWTRL"), (.nFAW, "nFAW"), (.nPPD, "nPPD"),
    (.nRFCab, "nRFCab"), (.nRFCpb, "nRFCpb"), (.nREFI, "nREFI"), (.nPBR2PBR, "nPBR2PBR"),
    (.nPBR2ACT, "nPBR2ACT"), (.nCS, "nCS"), (.nCLREG, "nCLREG"), (.nCLGB, "nCLGB"),
    (.nCWLREG, "nCWLREG"), (.nCWLGB, "nCWLGB"), (.nWPRE, "nWPRE"), (.nMODCH, "nMODCH"),
    (.tCK_ps, "tCK_ps") ]

def timingPresets : Generation → List (String × List Int)
  | .LPDDR4 =>
      [ ("LPDDR4_3200",
          [ 3200, 4, 20, 29, 0, 0, 0, 0, 0, 34, 29, 68, 101, 29, 12, 11, 6, 16, 16, 16, 64, 2,
            -1, -1, -1, -1, -1, 2, 0, 0, 0, 0, 0, 0, 625 ]),
        ("LPDDR4_AiM_timing", aimTiming .LPDDR4) ]
  | .LPDDR5 =>
      [ ("LPDDR5_6400",
          [ 6400, 4, 20, 15, 0, 0, 0, 0, 17, 17, 15, 34, 30, 28, 4, 11, 4, 4, 5, 10, 16, 2,
            -1, -1, -1, -1, -1, 2, 0, 0, 0, 0, 0, 0, 1250 ]),
        ("LPDDR5_AiM_timing", aimTiming .LPDDR5) ]

def aimTimings : Timing → Option Int
  | .nCLREG => some 0
  | .nCLGB | .nCWLREG | .nCWLGB | .nWPRE => some 1
  | _ => none

/-- `tCK_ps` from the rate; the quotient by zero is infinite and becomes the least `int`. -/
def clockOfRate (_ : Organization) (vals : Timing → Int) : Timing → Int :=
  let rate := (vals .rate).tdiv 2
  Function.update vals .tCK_ps (if rate = 0 then -2 ^ 31 else (1000000 : Int).tdiv rate)

def deviceTables (gen : Generation) : DeviceTables Timing where
  name := match gen with
    | .LPDDR4 => "LPDDR4"
    | .LPDDR5 => "LPDDR5"
  numLevels := 6
  orgPresets := orgPresets gen
  densityLevels := [bankgroup, bank, row, column]
  timings := timings
  timingPresets := timingPresets gen
  timingVals := timingVals
  rate := .rate
  tCKps := .tCK_ps
  derived := clockOfRate
  densities := [2048, 4096, 8192, 16384]
  refreshTables :=
    [ (.nRFCab, [130, 180, 210, 280]), (.nRFCpb, [60, 90, 120, 140]),
      (.nPBR2PBR, [60, 90, 90, 90]), (.nPBR2ACT, [8, 8, 8, 8]) ]
  nREFI := .nREFI
  tREFIBase := 3906
  fixed := aimTimings

theorem deviceTables_fits (gen : Generation) : (deviceTables gen).Fits where
  columns := by simp [deviceTables]
  nonempty := by simp [deviceTables]
  distinct := by simp [deviceTables]
  nREFI := by simp [deviceTables]
  tCKps := by simp [deviceTables, aimTimings]
  fixed := by simp [deviceTables, aimTimings]

theorem aimVals_setup (dq : Int) (count : List Int) :
    (deviceTables .LPDDR4).setTimingVals ⟨4096, dq, count⟩
        { preset := some "LPDDR4_AiM_timing" } = .ok (aimVals .LPDDR4) ∧
      (deviceTables .LPDDR5).setTimingVals ⟨2048, dq, count⟩
        { preset := some "LPDDR5_AiM_timing" } = .ok (aimVals .LPDDR5) := by
  constructor
  · show (deviceTables .LPDDR4).setTimingVals ⟨4096, 0, []⟩ _ = _
    refine congrArg Except.ok (funext fun t => ?_)
    cases t <;> rfl
  · show (deviceTables .LPDDR5).setTimingVals ⟨2048, 0, []⟩ _ = _
    refine congrArg Except.ok (funext fun t => ?_)
    cases t <;> rfl

end LPDDR

/-! ## The three devices -/

/-- `set_timing_vals` of GDDR6, LPDDR4 and LPDDR5 stays within its tables exactly when the density
that `set_organization` accepted has a column there, or the configuration is rejected first. -/
theorem refreshTimings_inRange_iff (orgParams : OrgParams) :
    (∀ org, GDDR6.deviceTables.setOrganization orgParams = .ok org → ∀ params,
      (GDDR6.deviceTables.InRange org params ↔
        GDDR6.deviceTables.Rejected params ∨ org.density ∈ [4096, 8192, 16384])) ∧
    ∀ gen org, (LPDDR.deviceTables gen).setOrganization orgParams = .ok org → ∀ params,
      ((LPDDR.deviceTables gen).InRange org params ↔
        (LPDDR.deviceTables gen).Rejected params ∨
          org.density ∈ [2048, 4096, 8192, 16384]) :=
  ⟨fun _ _ _ => DeviceTables.inRange_iff GDDR6.deviceTables_fits,
    fun gen _ _ _ => DeviceTables.inRange_iff (LPDDR.deviceTables_fits gen)⟩

/-- With a density of 8 Gb the refresh timing of GDDR6 is one of its table's. -/
theorem refreshTimings_inRange_iff_8Gb :
    GDDR6.deviceTables.setOrganization { preset := some "GDDR6_8Gb_x16" } =
        .ok ⟨8192, 16, [2, 4, 4, 16384, 1024]⟩ ∧
      GDDR6.deviceTables.InRange ⟨8192, 16, [2, 4, 4, 16384, 1024]⟩
        { preset := some "GDDR6_AiM_timing" } := by
  have horg : GDDR6.deviceTables.setOrganization { preset := some "GDDR6_8Gb_x16" } =
      .ok ⟨8192, 16, [2, 4, 4, 16384, 1024]⟩ := by
    rfl
  exact ⟨horg, ((refreshTimings_inRange_iff _).1 _ horg _).mpr (.inr (by decide))⟩

/-- The organisations of the accelerator pass the check of the density and read before a table. -/
theorem aimOrgs_outOfBounds :
    (GDDR6.deviceTables.setOrganization { preset := some "GDDR6_AiM_org" } =
        .ok ⟨131072, 16, [32, 4, 4, 16384, 1024]⟩ ∧
      ¬ GDDR6.deviceTables.InRange ⟨131072, 16, [32, 4, 4, 16384, 1024]⟩
        { preset := some "GDDR6_AiM_timing" }) ∧
    (LPDDR.deviceTables .LPDDR5).setOrganization { preset := some "LPDDR5_AiM_org" } =
        .ok ⟨32768, 16, [32, 1, 4, 4, 131072, 1024]⟩ ∧
      ¬ (LPDDR.deviceTables .LPDDR5).InRange ⟨32768, 16, [32, 1, 4, 4, 131072, 1024]⟩
        { preset := some "LPDDR5_AiM_timing" } := by
  refine ⟨⟨by rfl, fun h => h.1 (-1) ?_⟩, by rfl, fun h => h.1 (-1) ?_⟩ <;> rfl

end AimSimulator.Dram
