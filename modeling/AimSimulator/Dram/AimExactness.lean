import AimSimulator.Dram.Exactness
import AimSimulator.Dram.GDDR6Timing
import AimSimulator.Dram.LPDDRTiming
/-!
# Exact readiness of the AiM device models

In every run of GDDR6, LPDDR4 or LPDDR5 a command passes `check_ready` exactly when the history
meets the timing table.  In GDDR6 that is the whole table; a per-bank refresh of LPDDR has the
scope of a rank, and passes over the entries of its bank.
-/

namespace AimSimulator.Dram

theorem DRAMSpec.KeepsClocks.sameClocks {Cmd St Ext : Type}
    {f : NodeBase Cmd St Ext → NodeBase Cmd St Ext} (hf : DRAMSpec.KeepsClocks f)
    (b : NodeBase Cmd St Ext) : b.SameClocks (f b) :=
  ⟨hf.nodeId b, hf.cmdReadyClk b, hf.cmdHistory b⟩

namespace GDDR6

variable {V : Timing → Int} {count : Nat → Int}

theorem actionsKeepClocks (V : Timing → Int) : (model V).ActionsKeepClocks := by
  intro d cmd action h n addrVec clk
  obtain ⟨f, hf, rfl⟩ := actions_mapBanks h
  exact DRAMNode.sameClocks_mapBanks (fun b => (hf addrVec).sameClocks b) d n

theorem entriesFit : EntriesFit bank timingConsTable := by
  refine ⟨fun hts => (timingConsTable_fits (fun _ => 0) _ hts).1,
    fun hts => (timingConsTable_fits (fun _ => 0) _ hts).2.1, fun hts hsib => ?_⟩
  rw [(timingConsTable_fits (fun _ => 0) _ hts).2.2.1] at hsib
  cases hsib

/-- In every run, whatever is issued unchecked, a command is ready exactly when it respects every
entry of the timing table against the whole history. -/
theorem gddr6_ready_iff {guard : IssueRun (model V).Dev Cmd → DeviceOp Cmd → Prop}
    {s : IssueRun (model V).Dev Cmd}
    (hr : Runs.Reachable (fun s => s = ⟨(model V).createNodes count, []⟩)
      (fun s op t => (model V).stepUnchecked s op = some t) guard s)
    {cmd : Cmd} {addrVec : AddrVec} {last : Nat}
    (hwalk : (model V).WalkEnds count cmd addrVec 0 last) :
    (model V).checkReady s.dev cmd addrVec = true ↔
      ∀ ts ∈ timingConsTable, ts.Respected V count ⟨s.dev.clk, cmd, addrVec⟩ s.history := by
  have hexact := DRAMModel.reachable_deviceExact (actionsKeepClocks V) (windowsPositive V) hr
  rw [hexact.checkReady_iff rfl entriesFit hwalk]
  constructor
  · intro h ts hts hf
    -- no entry stands below the scope of what follows it
    exact h ts hts ((timingConsTable_fits V ts hts).2.2.2 cmd hf).1 hf
  · exact fun h ts hts _ => h ts hts

/-- A multiply-accumulate over all banks, behind one that was issued with the activation. -/
theorem gddr6_ready_iff_mac16 :
    let s := (Runs.replay (model fun _ => 4).stepUnchecked (fun _ _ => true)
      ⟨(model fun _ => 4).createNodes fun _ => 2, []⟩
      [.issue .ACT16 [0, -1, -1, 5, 0], .issue .MAC16 [0, -1, -1, 5, 0], .tick, .tick]).get
        (by decide +kernel)
    (model fun _ => 4).checkReady s.dev .MAC16 [0, -1, -1, 5, 0] = true ↔
      ∀ ts ∈ timingConsTable, ts.Respected (fun _ => 4) (fun _ => 2)
        ⟨s.dev.clk, .MAC16, [0, -1, -1, 5, 0]⟩ s.history :=
  @gddr6_ready_iff (fun _ => 4) (fun _ => 2) (fun _ _ => True) _
    (Runs.replay_reachable (fun _ _ _ => trivial) (.start rfl) (Option.some_get _).symm)
    .MAC16 [0, -1, -1, 5, 0] 0 ⟨by decide, by decide, by decide, by decide, .inl rfl⟩

end GDDR6

namespace LPDDR

variable {gen : Generation} {sizes : Nat → Int} {V : Timing → Int} {count : Nat → Int}

theorem actionsKeepClocks (gen : Generation) (sizes : Nat → Int) (V : Timing → Int) :
    (model gen sizes V).ActionsKeepClocks := by
  intro d cmd action h n addrVec clk
  rcases actions_keep h with ⟨f, hf, rfl⟩ | ⟨rfl, cycle, rfl⟩
  · exact DRAMNode.sameClocks_mapBanks (fun b => (hf addrVec).sameClocks b) d n
  · exact ⟨⟨rfl, rfl, rfl⟩, List.forall₂_same.mpr fun child _ => .refl _ child⟩

theorem entriesFit (gen : Generation) : EntriesFit bank (timingConsTable gen) := by
  have h : ∀ gen, ∀ ts ∈ timingConsTable gen,
      ts.level ≤ bank ∧ 1 ≤ ts.window ∧ (ts.isSibling = true → 0 < ts.level) := by
    intro gen
    cases gen <;> decide
  exact ⟨fun hts => (h gen _ hts).1, fun hts => (h gen _ hts).2.1, fun hts => (h gen _ hts).2.2⟩

/-- An entry stands at or above the scope of what follows it, but for the per-bank refresh. -/
theorem level_le_scope : ∀ ts ∈ timingConsTable gen, ∀ f ∈ ts.following,
    (f = .REFpb → ts.level ≤ rank) → ts.level ≤ commandScopes f := by
  cases gen <;> decide

/-- In every run a command is ready exactly when it respects every entry of the timing table,
but that a per-bank refresh need not respect those of a bank group or a bank. -/
theorem lpddr_ready_iff
    {guard : IssueRun (model gen sizes V).Dev Cmd → DeviceOp Cmd → Prop}
    {s : IssueRun (model gen sizes V).Dev Cmd}
    (hr : Runs.Reachable (fun s => s = ⟨(model gen sizes V).createNodes count, []⟩)
      (fun s op t => (model gen sizes V).stepUnchecked s op = some t) guard s)
    {cmd : Cmd} {addrVec : AddrVec} {last : Nat}
    (hwalk : (model gen sizes V).WalkEnds count cmd addrVec 0 last) :
    (model gen sizes V).checkReady s.dev cmd addrVec = true ↔
      ∀ ts ∈ timingConsTable gen, (cmd = .REFpb → ts.level ≤ rank) →
        ts.Respected V count ⟨s.dev.clk, cmd, addrVec⟩ s.history := by
  have hexact := DRAMModel.reachable_deviceExact (actionsKeepClocks gen sizes V)
    (windowsPositive gen sizes V) hr
  rw [hexact.checkReady_iff rfl (entriesFit gen) hwalk]
  constructor
  · exact fun h ts hts hcovered hf => h ts hts (level_le_scope ts hts cmd hf hcovered) hf
  · intro h ts hts hscope
    refine h ts hts fun hcmd => ?_
    subst hcmd
    exact hscope

/-- A refresh of the bank that an activation has just begun to open. -/
theorem lpddr_ready_iff_refpb :
    let s := (Runs.replay (model .LPDDR5 (fun _ => 2) fun _ => 4).stepUnchecked (fun _ _ => true)
      ⟨(model .LPDDR5 (fun _ => 2) fun _ => 4).createNodes fun _ => 2, []⟩
      [.issue .ACT_1 [0, 0, 1, 1, 5, 0], .tick]).get (by decide +kernel)
    (model .LPDDR5 (fun _ => 2) fun _ => 4).checkReady s.dev .REFpb [0, 0, 1, 1, -1, -1] = true ↔
      ∀ ts ∈ timingConsTable .LPDDR5, (Cmd.REFpb = .REFpb → ts.level ≤ rank) →
        ts.Respected (fun _ => 4) (fun _ => 2) ⟨s.dev.clk, .REFpb, [0, 0, 1, 1, -1, -1]⟩
          s.history :=
  @lpddr_ready_iff .LPDDR5 (fun _ => 2) (fun _ => 4) (fun _ => 2) (fun _ _ => True) _
    (Runs.replay_reachable (fun _ _ _ => trivial) (.start rfl) (Option.some_get _).symm)
    .REFpb [0, 0, 1, 1, -1, -1] 1 ⟨by decide, by decide, by decide, by decide, .inl rfl⟩

end LPDDR

end AimSimulator.Dram
