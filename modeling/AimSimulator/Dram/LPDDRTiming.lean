import AimSimulator.Dram.LPDDR
import AimSimulator.Dram.Timing
/-!
# LPDDR4 and LPDDR5 and their clocks

The actions of LPDDR leave the ready clocks alone, so a device agrees with the history of
the commands that were issued to it.
-/

namespace AimSimulator.Dram.LPDDR

variable {V : Timing → Int} {count : Nat → Int}

theorem actions_keep {d : Nat} {cmd : Cmd} {action : ActionFunc Cmd St Int d}
    (h : actions V d cmd = some action) :
    (∃ f : AddrVec → NodeBase Cmd St Int → NodeBase Cmd St Int,
      (∀ addrVec, DRAMSpec.KeepsClocks (f addrVec)) ∧
        action = fun node addrVec _ => node.mapBanks (f addrVec) d) ∨
    ∃ hd : d = 2, ∃ cycle : Int → Int,
      action = hd ▸ fun node _ clk => setFinalSyncedCycle (cycle clk) node := by
  have hopen : ∀ (opened : St) (addrVec : AddrVec), @DRAMSpec.KeepsClocks Cmd _ Int
      (NodeBase.openRow opened (addrVec.at row)) :=
    fun _ _ => DRAMSpec.openRow_keepsClocks _ _
  have hclose : ∀ _ : AddrVec, @DRAMSpec.KeepsClocks Cmd _ Int (NodeBase.close St.Closed) :=
    fun _ => DRAMSpec.close_keepsClocks _
  match d with
  | 0 =>
      cases cmd <;> simp only [actions, Option.some.injEq, reduceCtorEq] at h <;> subst h
      · exact .inl ⟨_, hopen .PreOpened, rfl⟩
      · exact .inl ⟨_, hopen .Opened, rfl⟩
      all_goals exact .inl ⟨_, hclose, rfl⟩
  | 1 =>
      cases cmd <;> simp only [actions, Option.some.injEq, reduceCtorEq] at h <;> subst h
      · exact .inl ⟨_, hopen .PreOpened, rfl⟩
      · exact .inl ⟨_, hopen .Opened, rfl⟩
      · exact .inl ⟨_, hclose, rfl⟩
  | 2 =>
      cases cmd <;> simp only [actions, Option.some.injEq, reduceCtorEq] at h <;> subst h
      case PREA => exact .inl ⟨_, hclose, rfl⟩
      case ACT8_1 => exact .inl ⟨_, hopen .PreOpened, rfl⟩
      all_goals exact .inr ⟨rfl, _, rfl⟩
  | 3 =>
      cases cmd <;> simp only [actions, Option.some.injEq, reduceCtorEq] at h
      subst h
      exact .inl ⟨_, hopen .Opened, rfl⟩
  | _ + 4 => simp [actions] at h

theorem actionsKeepTiming (gen : Generation) (sizes : Nat → Int) (V : Timing → Int)
    (count : Nat → Int) : (model gen sizes V).ActionsKeepTiming count := by
  intro d cmd action h n addrVec clk
  rcases actions_keep h with ⟨f, hf, rfl⟩ | ⟨rfl, cycle, rfl⟩
  · exact ⟨DRAMSpec.mapBanks_nodeId (hf addrVec) d n,
      fun history hn => (model gen sizes V).mapBanks_nodeTiming count (hf addrVec) d n history hn⟩
  · exact ⟨rfl, fun history hn => ⟨hn.1.congr rfl rfl, hn.2⟩⟩

theorem windowsPositive (gen : Generation) (sizes : Nat → Int) (V : Timing → Int) :
    (model gen sizes V).WindowsPositive := by
  intro level cmd t ht
  obtain ⟨ts, hts, -, -, f, -, rfl⟩ := mem_populateTimingcons.mp ht
  have hwindows : ∀ gen, ∀ ts ∈ timingConsTable gen, 1 ≤ ts.window := by
    intro gen
    cases gen <;> decide
  exact hwindows gen ts hts

end AimSimulator.Dram.LPDDR
