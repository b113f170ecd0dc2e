import AimSimulator.Dram.GDDR6
import AimSimulator.Dram.Timing
/-!
# GDDR6 timing safety

The timing table of GDDR6 fits its command scopes, so a command that passes
`check_ready` respects every constraint that `populate_timingcons` builds.
-/

namespace AimSimulator.Dram.GDDR6

/-- No entry is a sibling constraint, stands below the scope of a following command or
constrains `TMOD`; every window is one. -/
theorem timingConsTable_fits (V : Timing → Int) : (model V).TableFits timingConsTable := by
  have h : ∀ ts ∈ timingConsTable, ts.level ≤ bank ∧ 1 ≤ ts.window ∧ ts.isSibling = false ∧
      ∀ f ∈ ts.following, ts.level ≤ commandScopes f ∧ f ≠ .TMOD := by
    decide
  exact h

theorem actions_mapBanks {d : Nat} {cmd : Cmd} {action : ActionFunc Cmd St Unit d}
    (h : actions d cmd = some action) :
    ∃ f : AddrVec → NodeBase Cmd St Unit → NodeBase Cmd St Unit,
      (∀ addrVec, DRAMSpec.KeepsClocks (f addrVec)) ∧
        action = fun node addrVec _ => node.mapBanks (f addrVec) d := by
  have hopen : ∀ addrVec : AddrVec, @DRAMSpec.KeepsClocks Cmd _ Unit
      (NodeBase.openRow St.Opened (addrVec.at row)) :=
    fun _ => DRAMSpec.openRow_keepsClocks _ _
  have hclose : ∀ _ : AddrVec, @DRAMSpec.KeepsClocks Cmd _ Unit
      (NodeBase.close St.Closed) :=
    fun _ => DRAMSpec.close_keepsClocks _
  match d with
  | 0 =>
      cases cmd <;> simp only [actions, Option.some.injEq, reduceCtorEq] at h <;> subst h
      · exact ⟨_, hopen, rfl⟩
      all_goals exact ⟨_, hclose, rfl⟩
  | 1 =>
      cases cmd <;> simp only [actions, Option.some.injEq, reduceCtorEq] at h <;> subst h
      · exact ⟨_, hopen, rfl⟩
      · exact ⟨_, hclose, rfl⟩
  | 2 =>
      cases cmd <;> simp only [actions, Option.some.injEq, reduceCtorEq] at h <;> subst h
      · exact ⟨_, hclose, rfl⟩
      · exact ⟨_, hopen, rfl⟩
      · exact ⟨_, hclose, rfl⟩
  | _ + 3 => simp [actions] at h

theorem actionsKeepTiming (V : Timing → Int) (count : Nat → Int) :
    (model V).ActionsKeepTiming count := by
  intro d cmd action h n addrVec clk
  obtain ⟨f, hf, rfl⟩ := actions_mapBanks h
  exact ⟨DRAMSpec.mapBanks_nodeId (hf addrVec) d n,
    fun history hn => (model V).mapBanks_nodeTiming count (hf addrVec) d n history hn⟩

theorem windowsPositive (V : Timing → Int) : (model V).WindowsPositive := by
  intro level cmd t ht
  obtain ⟨ts, hts, -, -, f, -, rfl⟩ := mem_populateTimingcons.mp ht
  exact (timingConsTable_fits V ts hts).2.1

/-- In every run of `issue_command` whose commands pass `check_ready` (`TMOD` may go
unchecked), every constraint entry is respected, for every organisation and every
assignment of timing values. -/
theorem timingCons_respected (V : Timing → Int) (count : Nat → Int)
    {s : IssueRun (model V).Dev Cmd}
    (hr : Runs.Reachable (fun s => s = ⟨(model V).createNodes count, []⟩)
      (fun s op t => (model V).stepDevice s op = some t) (fun _ _ => True) s) :
    RespectsTimingCons V count timingConsTable s.history :=
  DRAMModel.reachable_respects rfl (timingConsTable_fits V) (actionsKeepTiming V count) hr

/-- A run that activates a bank, reads it after the latency and then precharges it. -/
theorem timingCons_respected_act_rd :
    RespectsTimingCons (fun _ => 1) (fun _ => 2) timingConsTable
      ((Runs.replay (model fun _ => 1).stepDevice (fun _ _ => true)
        ⟨(model fun _ => 1).createNodes fun _ => 2, []⟩
        [.issue .ACT [0, 1, 1, 5, 0], .tick, .issue .RD [0, 1, 1, 5, 0], .tick, .tick, .tick,
          .issue .PRE [0, 1, 1, 5, 0]]).get (by decide +kernel)).history :=
  timingCons_respected (fun _ => 1) (fun _ => 2)
    (Runs.replay_reachable (fun _ _ _ => trivial) (.start rfl) (Option.some_get _).symm)

end AimSimulator.Dram.GDDR6
