import AimSimulator.Controller.RowState
import AimSimulator.Dram.AllBankWrite
/-!
# The rows of an LPDDR channel

An activation of LPDDR takes two commands, and between them its request stays in its buffer.
As long as no other request that wants another row of the bank is served then, each bank of the
device is closed, pre-opened with one row or open with one row, and every command finds the rows
it needs.
-/

namespace AimSimulator.Controller

open Dram Dram.LPDDR

variable {gen : Generation} {sizes : Nat → Int} {V : Timing → Int} {count : Nat → Int}
  {params : Params} {s : Chan (model gen sizes V).Dev Cmd}

/-- Whether the request that the next tick serves, if it activates banks, keeps the rows of those
that wait pre-opened. -/
def KeepsPreOpened (params : Params) (s : Chan (model gen sizes V).Dev Cmd) : Op → Prop
  | .tick => ∀ x ∈ s.ctl.nextCommand (model gen sizes V).idram params
      ((model gen sizes V).tick s.dev), ∀ final ∈ finalOf (model gen sizes V).idram x.1,
        KeepsRows ((model gen sizes V).tick s.dev) final x.2 x.1.addrVec
  | _ => True

instance (s : Chan (model gen sizes V).Dev Cmd) : DecidablePred (KeepsPreOpened params s)
  | .send _ | .prioritySend _ => isTrue trivial
  | .tick => inferInstanceAs (Decidable (∀ x ∈ s.ctl.nextCommand (model gen sizes V).idram params
      ((model gen sizes V).tick s.dev), ∀ final ∈ finalOf (model gen sizes V).idram x.1,
        KeepsRows ((model gen sizes V).tick s.dev) final x.2 x.1.addrVec))

theorem finalOf_not_barrier {req : Request} {final : Cmd}
    (hfinal : finalOf (model gen sizes V).idram req = some final)
    (hbarrier : req.opcode.isBarrier = false) : final ≠ .SYNC ∧ final ≠ .EOC := by
  unfold finalOf at hfinal
  split at hfinal
  · cases hop : req.opcode <;> rw [hop] at hfinal hbarrier
    case ISR_EOC | ISR_SYNC => cases hbarrier
    all_goals exact Option.some.inj hfinal ▸ by decide
  · cases htype : req.type with
    | AIM | MAX => rw [htype] at hfinal; cases hfinal
    | _ => rw [htype] at hfinal; exact Option.some.inj hfinal ▸ by decide

variable {guard : Chan (model gen sizes V).Dev Cmd → Op → Prop}

theorem issues_findsPreOpened
    (hr : Chan.Run (model gen sizes V).idram params ((model gen sizes V).createNodes count) guard s)
    {c₁ : AiMDRAMController Cmd} {sched : Scheduled Cmd} {cmd : Cmd}
    (hissues : AiMDRAMController.Issues (model gen sizes V).idram params s.ctl
      ((model gen sizes V).tick s.dev) c₁ sched cmd) (hkeeps : KeepsPreOpened params s .tick)
    (hone : OneRowEach ((model gen sizes V).tick s.dev)) :
    FindsRows ((model gen sizes V).tick s.dev) cmd sched.req.req.addrVec := by
  by_cases htmod : cmd = .TMOD
  · subst htmod
    exact .of_free (fun _ _ => trivial) ⟨nofun, nofun⟩
  · obtain ⟨hpreq, -⟩ := hissues.ready htmod
    have hfinal := Chan.picked_final hr hissues.next
    have hisFinal : IsFinal sched.req.finalCommand := finalOf_translated _ hfinal
    have hkept : KeepsRows ((model gen sizes V).tick s.dev) sched.req.finalCommand cmd
        sched.req.req.addrVec :=
      hkeeps _ hissues.nextCommand _ hfinal
    rw [hpreq] at hkept ⊢
    exact getPreqCommand_finds hone hisFinal (finalOf_not_barrier hfinal hissues.notBarrier) hkept

theorem run_preOpened_oneRowEach
    (hr : Chan.Run (model gen sizes V).idram params ((model gen sizes V).createNodes count)
      (KeepsPreOpened params) s) : OneRowEach s.dev := by
  refine Chan.dev_invariant (I := fun dev : (model gen sizes V).Dev => OneRowEach dev) ?_ ?_ ?_ hr
  · intro ch path r h
    exact .inl ((model gen sizes V).rowsAt_createNodes h)
  · exact fun dev hone => hone
  · intro s c₁ sched cmd hrun hkeeps hissues hone
    exact issueCommand_oneRowEach hone (issues_findsPreOpened hrun hissues hkeeps hone)

/-- In every run that keeps the rows of pre-opened banks each bank is closed, pre-opened with one
row or open with one; and the command of the next call finds the rows that it needs (`ACT-2` the
row of its address pre-opened, an access its row open) exactly when the call keeps them too. -/
theorem run_preOpened
    (hr : Chan.Run (model gen sizes V).idram params ((model gen sizes V).createNodes count)
      (KeepsPreOpened params) s) :
    OneRowEach s.dev ∧
      ∀ op t events q cmd, s.step (model gen sizes V).idram params op = some t →
        t.log = s.log ++ events → .issue q cmd ∈ events →
          (FindsRows s.dev cmd q.req.addrVec ↔ KeepsPreOpened params s op) := by
  have hone := run_preOpened_oneRowEach hr
  refine ⟨hone, fun op t events q cmd hstep hlog hissue => ?_⟩
  obtain ⟨c₁, sched, hissues, rfl, rfl, -⟩ := Chan.step_issue hstep hlog hissue
  rw [(SameRequest.stampIssue c₁.toQueues sched.req).req]
  constructor
  · rintro ⟨hneeds, hgroup⟩ x hx final -
    obtain rfl := Option.some.inj (hissues.nextCommand.symm.trans hx)
    have hfinds : FindsRows ((model gen sizes V).tick s.dev) cmd sched.req.req.addrVec :=
      ⟨hneeds, hgroup⟩
    exact hfinds.keepsRows final
  · intro hkeeps
    obtain ⟨hneeds, hgroup⟩ := issues_findsPreOpened hr hissues hkeeps hone
    exact ⟨hneeds, hgroup⟩

/-- A read that activates its bank in two commands and is served, while a write of another row of
the bank waits. -/
theorem preOpened_read :
    ∃ s : Chan aimModel.Dev Cmd, (issued s.log).map (·.2) = [.ACT_1, .ACT_2, .CASRD] ∧
      OneRowEach s.dev := by
  have hrun : ((Chan.replay aimModel.idram { channelId := 0 } aimDevice
      (fun s op => decide (KeepsPreOpened { channelId := 0 } s op))
      [.send { type := .Read, addrVec := [0, 0, 0, 0, 5, 0] },
        .send { type := .Write, addr := 1, addrVec := [0, 0, 0, 0, 6, 0] },
        .tick, .tick, .tick]).any fun s =>
        (issued s.log).map (·.2) = [.ACT_1, .ACT_2, .CASRD]) = true := by
    decide +kernel
  obtain ⟨s, hs, htest⟩ := Option.any_eq_true .. |>.mp hrun
  exact ⟨s, of_decide_eq_true htest,
    (run_preOpened (Chan.replay_run (fun _ _ hok => of_decide_eq_true hok) hs)).1⟩

/-- A write and then a read of another row of its bank: the write mode ends between `ACT-1` and
`ACT-2`, and the bank is open with the rows of both. -/
theorem two_rows_open :
    ∃ s : Chan aimModel.Dev Cmd,
      Chan.Run aimModel.idram { channelId := 0 } aimDevice (fun _ _ => True) s ∧
        aimModel.rowsAt s.dev 0 [0, 0, 0] =
          some (.Opened, [(1, .Opened), (2, .PreOpened)]) ∧ ¬ OneRowEach s.dev := by
  have hrun : ((Chan.replay aimModel.idram { channelId := 0 } aimDevice (fun _ _ => true)
      [.send { type := .Write, addrVec := [0, 0, 0, 0, 2, 0] }, .tick,
        .send { type := .Read, addr := 1, addrVec := [0, 0, 0, 0, 1, 0] }, .tick]).any fun s =>
        decide (aimModel.rowsAt s.dev 0 [0, 0, 0] =
          some (.Opened, [(1, .Opened), (2, .PreOpened)]))) = true := by
    decide +kernel
  obtain ⟨s, hs, htest⟩ := Option.any_eq_true .. |>.mp hrun
  have hrows := of_decide_eq_true htest
  refine ⟨s, Chan.replay_run (fun _ _ _ => trivial) hs, hrows, fun hone => ?_⟩
  rcases hone 0 _ _ hrows with h | ⟨x, h | h⟩ <;> cases h

end AimSimulator.Controller
