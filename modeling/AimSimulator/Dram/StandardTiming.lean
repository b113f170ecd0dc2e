import AimSimulator.Lib.Counting
import AimSimulator.Dram.Exactness
import AimSimulator.Dram.Standard
/-!
# Timing safety of the standard device models

A run whose commands pass `check_ready` respects the timing tables of DDR3, DDR4 and HBM.  In
HBM2 and HBM3 the all-bank commands stand at the channel, above the pseudochannel that their
timings are listed for, and `check_ready` never looks at those.
-/

namespace AimSimulator.Dram

namespace Standard

variable {impl : Impl} {aim : AimLookups} {count : Nat → Int} {V : Timing → Int}

/-! ## The tables -/

theorem actionsKeepClocks : (model impl aim count V).ActionsKeepClocks := by
  intro d cmd action h n addrVec clk
  have h : actions impl d cmd = some action := h
  cases d with
  | zero =>
      cases cmd <;> simp only [actions, Option.some.injEq, reduceCtorEq] at h <;> subst h
      case ACT => exact sameClocks_openRow _ _ _
      all_goals exact sameClocks_close _ _
  | succ d =>
      cases cmd <;> simp only [actions, reduceCtorEq] at h
      split at h
      · obtain rfl := Option.some.inj h
        exact DRAMNode.sameClocks_mapBanks (sameClocks_close _) _ n
      · cases h

theorem entriesFit (impl : Impl) : EntriesFit (bank impl) (timingConsTable impl) := by
  have h : ∀ impl, ∀ ts ∈ timingConsTable impl,
      ts.level ≤ bank impl ∧ 1 ≤ ts.window ∧ (ts.isSibling = true → 0 < ts.level) := by
    intro impl
    cases impl <;> decide
  exact ⟨fun hts => (h impl _ hts).1, fun hts => (h impl _ hts).2.1, fun hts => (h impl _ hts).2.2⟩

def Pseudochannels (impl : Impl) : Prop := impl = .HBM2 ∨ impl = .HBM3

instance (impl : Impl) : Decidable (Pseudochannels impl) :=
  inferInstanceAs (Decidable (_ ∨ _))

/-- The commands that close or refresh all banks of a rank or a channel. -/
def AllBank (cmd : Cmd) : Prop := cmd = .PREA ∨ cmd = .REFab ∨ cmd = .RFMab

instance (cmd : Cmd) : Decidable (AllBank cmd) := inferInstanceAs (Decidable (_ ∨ _ ∨ _))

/-- An entry stands at or above the scope of what follows it, but for the all-bank commands of
a class with pseudochannels. -/
theorem level_le_scope : ∀ ts ∈ timingConsTable impl, ∀ f ∈ ts.following,
    (Pseudochannels impl → AllBank f → ts.level = 0) → ts.level ≤ commandScopes impl f := by
  cases impl <;> decide

/-- The level that counts the activations of `nFAW`: the rank, the channel of an HBM or the
pseudochannel. -/
def arrayLevel : Impl → Nat
  | .HBM => 0
  | _ => 1

def actWindow (impl : Impl) : TimingConsInitializer Cmd Timing :=
  { level := arrayLevel impl, preceding := [.ACT], following := [.ACT],
    latency := fun V => V .nFAW, window := 4 }

theorem actWindow_mem (impl : Impl) : actWindow impl ∈ timingConsTable impl := by
  cases impl with
  | DDR3 | DDR4 | DDR4VRR => exact List.mem_of_getElem? (i := 11) rfl
  | HBM | HBM2 | HBM3 => exact List.mem_of_getElem? (i := 2) rfl

theorem arrayLevel_le (impl : Impl) : arrayLevel impl ≤ commandScopes impl .ACT := by
  cases impl <;> decide

/-! ## Runs of a device -/

section Runs

variable {s : IssueRun (model impl aim count V).Dev Cmd}

/-- Each command of a history respects each entry of the timing table; the all-bank commands of
a class with pseudochannels respect those of the channel. -/
def RespectsTable (impl : Impl) (count : Nat → Int) (V : Timing → Int)
    (history : List (Issue Cmd)) : Prop :=
  ∀ later f earlier, history = later ++ f :: earlier →
    ∀ ts ∈ timingConsTable impl, (Pseudochannels impl → AllBank f.cmd → ts.level = 0) →
      ts.Respected V count f earlier

/-- Every run whose commands pass `check_ready` respects the timing table, for every
organisation and every assignment of timing values. -/
theorem entries_respected
    (hr : Runs.Reachable (fun s => s = ⟨(model impl aim count V).createNodes count, []⟩)
      (fun s op t => (model impl aim count V).stepDevice s op = some t)
      (DRAMModel.Checked (model impl aim count V)) s) :
    RespectsTable impl count V s.history := by
  intro later f earlier heq ts hts hcovered hf
  have htimed := DRAMModel.reachable_timed actionsKeepClocks rfl (entriesFit impl) hr
  exact htimed.respects later f earlier heq ts hts (level_le_scope ts hts f.cmd hf hcovered) hf

/-- A read of one rank, and a read of its sibling once the data bus has been handed over. -/
theorem entries_respected_siblings :
    RespectsTable .DDR4 (fun _ => 2) (fun _ => 1)
      ((Runs.replay (model .DDR4 ⟨fun _ => 0, fun _ => none, .ACT⟩ (fun _ => 2)
          fun _ => 1).stepDevice
        (fun s op => decide (DRAMModel.Checked _ s op))
        ⟨(model .DDR4 ⟨fun _ => 0, fun _ => none, .ACT⟩ (fun _ => 2) fun _ => 1).createNodes
          fun _ => 2, []⟩
        [.issue .ACT [0, 0, 1, 1, 5, 0], .issue .ACT [0, 1, 1, 1, 5, 0], .tick,
          .issue .RD [0, 0, 1, 1, 5, 0], .tick, .tick, .issue .RD [0, 1, 1, 1, 5, 0]]).get
        (by decide +kernel)).history :=
  entries_respected (Runs.replay_reachable (fun _ _ h => of_decide_eq_true h) (.start rfl)
    (Option.some_get _).symm)

/-- No rank, channel or pseudochannel is activated a fifth time within `nFAW`. -/
theorem act_window
    (hr : Runs.Reachable (fun s => s = ⟨(model impl aim count V).createNodes count, []⟩)
      (fun s op t => (model impl aim count V).stepDevice s op = some t)
      (DRAMModel.Checked (model impl aim count V)) s)
    {addrVec : AddrVec} (hnode : NamesNode count (arrayLevel impl) addrVec) (t : Int) :
    (issuesOf .ACT (issuesTo 0 (arrayLevel impl) addrVec s.history)).countP
      (fun e => t ≤ e.clk ∧ e.clk < t + V .nFAW) ≤ 4 := by
  have htimed := DRAMModel.reachable_timed actionsKeepClocks rfl (entriesFit impl) hr
  refine Counting.countP_window_le ?_ (fun i a b ha hb => ?_) t
  · exact (htimed.chronological.descending.filter _).filter _
  · exact htimed.respects.apart (actWindow_mem impl) List.mem_cons_self List.mem_cons_self rfl
      (show 1 ≤ 4 by decide) (arrayLevel_le impl) hnode i ha hb

/-- Five banks of a rank are activated; the fifth waits for the window of the first to pass. -/
theorem act_window_ddr3 :
    (issuesOf .ACT (issuesTo 0 1 [0, 0]
      ((Runs.replay (model .DDR3 ⟨fun _ => 0, fun _ => none, .ACT⟩ (fun _ => 8)
          fun p => if p = .nFAW then 6 else 1).stepDevice
        (fun s op => decide (DRAMModel.Checked _ s op))
        ⟨(model .DDR3 ⟨fun _ => 0, fun _ => none, .ACT⟩ (fun _ => 8)
          fun p => if p = .nFAW then 6 else 1).createNodes fun _ => 8, []⟩
        [.issue .ACT [0, 0, 0, 5, 0], .tick, .issue .ACT [0, 0, 1, 5, 0], .tick,
          .issue .ACT [0, 0, 2, 5, 0], .tick, .issue .ACT [0, 0, 3, 5, 0], .tick, .tick, .tick,
          .issue .ACT [0, 0, 4, 5, 0]]).get (by decide +kernel)).history)).countP
      (fun e => 1 ≤ e.clk ∧ e.clk < 1 + 6) ≤ 4 :=
  @act_window .DDR3 ⟨fun _ => 0, fun _ => none, .ACT⟩ (fun _ => 8)
    (fun p => if p = .nFAW then 6 else 1) _
    (Runs.replay_reachable (fun _ _ h => of_decide_eq_true h) (.start rfl)
      (Option.some_get _).symm) _ (by unfold NamesNode; decide) 1

/-! ### Exact readiness -/

/-- In every run, checked or not, `check_ready` passes a command exactly when the command respects
every entry of the timing table at or above its scope against the whole history. -/
theorem ready_iff_respects {guard : IssueRun (model impl aim count V).Dev Cmd →
      DeviceOp Cmd → Prop}
    (hr : Runs.Reachable (fun s => s = ⟨(model impl aim count V).createNodes count, []⟩)
      (fun s op t => (model impl aim count V).stepUnchecked s op = some t) guard s)
    {cmd : Cmd} {addrVec : AddrVec} {last : Nat}
    (hwalk : (model impl aim count V).WalkEnds count cmd addrVec 0 last) :
    (model impl aim count V).checkReady s.dev cmd addrVec = true ↔
      ∀ ts ∈ timingConsTable impl, ts.level ≤ commandScopes impl cmd →
        ts.Respected V count ⟨s.dev.clk, cmd, addrVec⟩ s.history :=
  (DRAMModel.reachable_deviceExact actionsKeepClocks ((entriesFit impl).windowsPositive rfl)
    hr).checkReady_iff rfl (entriesFit impl) hwalk

/-- A read of the sibling rank while the data bus is held by a read that did not wait for `nRCD`. -/
theorem ready_iff_respects_siblings :
    let s := (Runs.replay (model .DDR4 ⟨fun _ => 0, fun _ => none, .ACT⟩ (fun _ => 2)
        fun _ => 1).stepUnchecked (fun _ _ => true)
      ⟨(model .DDR4 ⟨fun _ => 0, fun _ => none, .ACT⟩ (fun _ => 2) fun _ => 1).createNodes
        fun _ => 2, []⟩
      [.issue .ACT [0, 0, 1, 1, 5, 0], .issue .ACT [0, 1, 1, 1, 5, 0],
        .issue .RD [0, 0, 1, 1, 5, 0], .tick]).get (by decide +kernel)
    (model .DDR4 ⟨fun _ => 0, fun _ => none, .ACT⟩ (fun _ => 2) fun _ => 1).checkReady s.dev .RD
        [0, 1, 1, 1, 5, 0] = true ↔
      ∀ ts ∈ timingConsTable .DDR4, ts.level ≤ commandScopes .DDR4 .RD →
        ts.Respected (fun _ => 1) (fun _ => 2) ⟨s.dev.clk, .RD, [0, 1, 1, 1, 5, 0]⟩ s.history :=
  @ready_iff_respects .DDR4 ⟨fun _ => 0, fun _ => none, .ACT⟩ (fun _ => 2) (fun _ => 1) _
    (fun _ _ => True)
    (Runs.replay_reachable (fun _ _ _ => trivial) (.start rfl) (Option.some_get _).symm)
    .RD [0, 1, 1, 1, 5, 0] 3
    ⟨by decide, by decide, Nat.le_refl _, by decide, .inr (.inl rfl)⟩

/-! ### The all-bank commands of HBM2 and HBM3 -/

theorem channel_entries (ref refsb : List Cmd) :
    (hbmTable 1 2 3 ref refsb).filter (fun ts => ts.level = 0) =
      [{ level := 0, preceding := [.ACT], following := [.ACT, .PRE, .PREA] ++ ref ++ refsb,
         latency := fun _ => 2 }] := rfl

theorem channel_entry (himpl : Pseudochannels impl) {cmd : Cmd} (hcmd : AllBank cmd)
    (hhas : cmd ∈ commands impl) :
    ∃ following, cmd ∈ following ∧ ∀ ts : TimingConsInitializer Cmd Timing,
      ts ∈ timingConsTable impl ∧ ts.level = 0 ↔
        ts = { level := 0, preceding := [.ACT], following, latency := fun _ => 2 } := by
  obtain ⟨ref, refsb, htable, hfollows⟩ : ∃ ref refsb,
      timingConsTable impl = hbmTable 1 2 3 ref refsb ∧ cmd ∈ [.ACT, .PRE, .PREA] ++ ref ++ refsb := by
    rcases himpl with rfl | rfl
    · refine ⟨_, _, rfl, ?_⟩
      revert hhas
      rcases hcmd with rfl | rfl | rfl <;> decide
    · refine ⟨_, _, rfl, ?_⟩
      rcases hcmd with rfl | rfl | rfl <;> decide
  refine ⟨_, hfollows, fun ts => ?_⟩
  rw [htable, ← List.mem_singleton (a := ts), ← channel_entries, List.mem_filter,
    decide_eq_true_eq]

/-- In every run, an all-bank command of HBM2 or HBM3 is ready exactly when each `ACT` of its
channel is two cycles old: neither `nRAS` nor `nRC`, `nRP` or a write recovery holds it back. -/
theorem allBank_ready_iff (himpl : Pseudochannels impl) {cmd : Cmd} (hcmd : AllBank cmd)
    (hhas : cmd ∈ commands impl) {guard : IssueRun (model impl aim count V).Dev Cmd →
      DeviceOp Cmd → Prop}
    (hr : Runs.Reachable (fun s => s = ⟨(model impl aim count V).createNodes count, []⟩)
      (fun s op t => (model impl aim count V).stepUnchecked s op = some t) guard s)
    {addrVec : AddrVec} (hnode : NamesNode count 0 addrVec) :
    (model impl aim count V).checkReady s.dev cmd addrVec = true ↔
      ∀ e ∈ s.history, e.cmd = .ACT → e.addrVec.at 0 = addrVec.at 0 → e.clk + 2 ≤ s.dev.clk := by
  have hscope : commandScopes impl cmd = 0 := by
    rcases himpl with rfl | rfl <;> rcases hcmd with rfl | rfl | rfl <;> rfl
  have hwalk : (model impl aim count V).WalkEnds count cmd addrVec 0 0 :=
    ⟨Nat.le_refl 0, Nat.zero_le _, Nat.zero_le _, fun i hi _ => hnode i hi, .inl hscope.symm⟩
  obtain ⟨following, hfollows, hentry⟩ := channel_entry himpl hcmd hhas
  have hmem : ∀ e : Issue Cmd, e ∈ issuesOf .ACT (issuesTo 0 0 addrVec s.history) ↔
      e ∈ s.history ∧ e.cmd = .ACT ∧ e.addrVec.at 0 = addrVec.at 0 := by
    intro e
    rw [issuesTo_atLevel (Nat.le_refl 0), issuesTo_of_lt Nat.one_pos]
    unfold issuesOf atLevel
    rw [List.mem_filter, List.mem_filter, decide_eq_true_eq, decide_eq_true_eq, and_assoc,
      and_comm (a := e.addrVec.at 0 = _)]
  have hdesc : (issuesOf .ACT (issuesTo 0 0 addrVec s.history)).Pairwise
      fun a b => b.clk ≤ a.clk :=
    ((DRAMModel.reachable_deviceExact actionsKeepClocks ((entriesFit impl).windowsPositive rfl)
      hr).chronological.descending.filter _).filter _
  rw [ready_iff_respects hr hwalk, hscope]
  constructor
  · intro h e he hact hat
    obtain ⟨hts, hlevel⟩ := (hentry _).mpr rfl
    have hall := h _ hts (Nat.le_of_eq hlevel) hfollows hnode .ACT (List.mem_singleton_self _)
    -- the newest `ACT` of the channel bounds the others
    have hin := (hmem e).mpr ⟨he, hact, hat⟩
    unfold TimingConsInitializer.Against at hall
    cases hacts : issuesOf .ACT (issuesTo 0 0 addrVec s.history) with
    | nil =>
        rw [hacts] at hin
        cases hin
    | cons x rest =>
        have hle : x.clk + 2 ≤ s.dev.clk := hall x (by simp [hacts])
        rw [hacts] at hin hdesc
        rcases List.mem_cons.mp hin with rfl | hin
        · exact hle
        · exact Int.le_trans (Int.add_le_add_right (List.rel_of_pairwise_cons hdesc hin) 2) hle
  · intro h ts hts hlevel hf _ p hp e he
    obtain rfl := (hentry ts).mp ⟨hts, Nat.le_zero.mp hlevel⟩
    obtain rfl := List.mem_singleton.mp hp
    obtain ⟨hin, hact, hat⟩ := (hmem e).mp (List.mem_of_getElem? he)
    exact h e hin hact hat

/-- Two cycles after an `ACT` that `nRAS` keeps open for thirty. -/
theorem allBank_ready_iff_hbm2 :
    let s := (Runs.replay (model .HBM2 ⟨fun _ => 0, fun _ => none, .ACT⟩ (fun _ => 2)
        fun _ => 30).stepUnchecked (fun _ _ => true)
      ⟨(model .HBM2 ⟨fun _ => 0, fun _ => none, .ACT⟩ (fun _ => 2) fun _ => 30).createNodes
        fun _ => 2, []⟩ [.issue .ACT [0, 1, 1, 1, 5, 0], .tick, .tick]).get (by decide +kernel)
    (model .HBM2 ⟨fun _ => 0, fun _ => none, .ACT⟩ (fun _ => 2) fun _ => 30).checkReady s.dev .PREA
        [0, -1, -1, -1, -1, -1] = true ↔
      ∀ e ∈ s.history, e.cmd = .ACT → e.addrVec.at 0 = 0 → e.clk + 2 ≤ s.dev.clk :=
  @allBank_ready_iff .HBM2 ⟨fun _ => 0, fun _ => none, .ACT⟩ (fun _ => 2) (fun _ => 30) _
    (.inl rfl) .PREA (.inl rfl) (by decide) (fun _ _ => True)
    (Runs.replay_reachable (fun _ _ _ => trivial) (.start rfl) (Option.some_get _).symm) _
    (by unfold NamesNode; decide)

end Runs

end Standard

end AimSimulator.Dram
