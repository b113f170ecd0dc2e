import AimSimulator.Controller.Device
import AimSimulator.Dram.GDDR6Rows
/-!
# The rows of a GDDR6 channel

Whatever a controller receives, each bank of its GDDR6 device is closed without a row or
open with exactly one, and every command it issues finds the rows it needs.
-/

namespace AimSimulator.Controller

open Dram Dram.GDDR6

/-! ## Where commands are issued -/

section

variable {Dev Cmd : Type} [DecidableEq Cmd] {iface : IDRAM Dev Cmd} {params : Params}

theorem Chan.step_issue {s t : Chan Dev Cmd} {op : Op} (hstep : s.step iface params op = some t)
    {events : List (Event Cmd)} (hlog : t.log = s.log ++ events) {q : Queued Cmd} {cmd : Cmd}
    (hissue : .issue q cmd ∈ events) :
    ∃ c₁ sched, AiMDRAMController.Issues iface params s.ctl (iface.tick s.dev) c₁ sched cmd ∧
      q = AiMDRAMController.stampIssue c₁.toQueues sched.req ∧ op = .tick ∧
        t.dev = iface.issueCommand (iface.tick s.dev) cmd sched.req.req.addrVec := by
  have hnone : ∀ {c : Queues Cmd} {events : List (Event Cmd)} {c' : Queues Cmd},
      QueueStep iface (fun _ _ _ => True) c events c' → .issue q cmd ∉ events :=
    fun h => mt mem_issued.mpr (h.issued ▸ List.not_mem_nil)
  cases op with
  | send req =>
      obtain ⟨⟨ok, ctl, events'⟩, hsent, rfl⟩ := Option.map_eq_some_iff.mp hstep
      obtain rfl := List.append_cancel_left hlog
      rcases @AiMDRAMController.send_step _ _ iface (fun _ _ _ => True) _ _ _ _ _
        (fun _ _ _ => trivial) hsent with ⟨-, rfl⟩ | h
      · cases hissue
      · exact absurd hissue (hnone h)
  | prioritySend req =>
      obtain ⟨⟨ok, ctl, events'⟩, hsent, rfl⟩ := Option.map_eq_some_iff.mp hstep
      obtain rfl := List.append_cancel_left hlog
      rcases @AiMDRAMController.prioritySend_step _ _ iface (fun _ _ _ => True) _ _ _ _ _
        trivial hsent with ⟨-, rfl⟩ | h
      · cases hissue
      · exact absurd hissue (hnone h)
  | tick =>
      obtain ⟨⟨ctl, dev, events'⟩, hticked, rfl⟩ := Option.map_eq_some_iff.mp hstep
      obtain rfl := List.append_cancel_left hlog
      rcases AiMDRAMController.tick_device hticked with
        ⟨-, -, hquiet⟩ | ⟨c₁, sched, cmd', hissues, rfl, -, hevents⟩
      · exact absurd (mem_issued.mpr hissue) (hquiet ▸ List.not_mem_nil)
      · have hmem := mem_issued.mpr hissue
        rw [hevents, List.mem_singleton] at hmem
        obtain ⟨rfl, rfl⟩ := Prod.mk.inj hmem
        exact ⟨c₁, sched, hissues, rfl, rfl, rfl⟩

end

/-! ## The invariant -/

variable {V : Timing → Int} {count : Nat → Int} {params : Params}
  {guard : Chan (model V).Dev Cmd → Op → Prop} {s : Chan (model V).Dev Cmd}

theorem issues_findsRows
    (hr : Chan.Run (model V).idram params ((model V).createNodes count) guard s)
    {c₁ : AiMDRAMController Cmd} {sched : Scheduled Cmd} {cmd : Cmd}
    (hissues : AiMDRAMController.Issues (model V).idram params s.ctl ((model V).tick s.dev)
      c₁ sched cmd) (hone : OneRowEach ((model V).tick s.dev)) :
    FindsRows ((model V).tick s.dev) cmd sched.req.req.addrVec := by
  by_cases htmod : cmd = .TMOD
  · subst htmod
    exact .of_free (fun _ _ => trivial) nofun
  · obtain ⟨hpreq, -⟩ := hissues.ready htmod
    have hfinal := Chan.picked_final hr hissues.next
    have hisFinal : IsFinal sched.req.finalCommand := finalOf_translated _ hfinal
    rw [hpreq]
    exact getPreqCommand_finds hone hisFinal _

theorem run_oneRowEach
    (hr : Chan.Run (model V).idram params ((model V).createNodes count) guard s) :
    OneRowEach s.dev := by
  refine Chan.dev_invariant (I := fun dev : (model V).Dev => OneRowEach dev) ?_ ?_ ?_ hr
  · intro ch path r h
    exact .inl ((model V).rowsAt_createNodes h)
  · exact fun dev hone => hone
  · intro s c₁ sched cmd hrun _ hissues hone
    exact issueCommand_oneRowEach hone (issues_findsRows hrun hissues hone)

/-- In every run of a controller over GDDR6 each bank is closed without a row or open with
one, and each command of the next call finds the rows that it needs. -/
theorem run_rowState
    (hr : Chan.Run (model V).idram params ((model V).createNodes count) guard s) :
    OneRowEach s.dev ∧
      ∀ op t events q cmd, s.step (model V).idram params op = some t →
        t.log = s.log ++ events → .issue q cmd ∈ events →
          FindsRows s.dev cmd q.req.addrVec := by
  have hone := run_oneRowEach hr
  refine ⟨hone, fun op t events q cmd hstep hlog hissue => ?_⟩
  obtain ⟨c₁, sched, hissues, rfl, -⟩ := Chan.step_issue hstep hlog hissue
  obtain ⟨hneeds, hgroup⟩ := issues_findsRows hr hissues hone
  rw [(SameRequest.stampIssue c₁.toQueues sched.req).req]
  exact ⟨hneeds, hgroup⟩

/-- A read that was just sent finds its bank closed when `ACT` is issued for it. -/
theorem rowState_read_act :
    ∃ (s : Chan aimModel.Dev Cmd) (q : Queued Cmd),
      q.req = { type := .Read, addrVec := [0, 1, 1, 5, 0] } ∧
        FindsRows s.dev .ACT q.req.addrVec := by
  have hrun : ((Chan.replay aimModel.idram { channelId := 0 } x16Device (fun _ _ => true)
      [.send { type := .Read, addrVec := [0, 1, 1, 5, 0] }]).any fun s =>
        (s.ctl.tick aimModel.idram { channelId := 0 } (aimModel.idram.tick s.dev)).any fun r =>
          (issued r.2.2).any fun i => decide (i.2 = .ACT ∧
            i.1.req = { type := .Read, addrVec := [0, 1, 1, 5, 0] })) = true := by
    decide +kernel
  obtain ⟨s, hs, htest⟩ := Option.any_eq_true .. |>.mp hrun
  obtain ⟨r, htick, htest⟩ := Option.any_eq_true .. |>.mp htest
  obtain ⟨⟨q, _⟩, hissued, htest⟩ := List.any_eq_true.mp htest
  obtain ⟨rfl, hreq⟩ := of_decide_eq_true htest
  have hstep : s.step aimModel.idram { channelId := 0 } .tick =
      some ⟨r.1, r.2.1, s.log ++ r.2.2⟩ := by
    rw [Chan.step, htick]
    rfl
  exact ⟨s, q, hreq, (run_rowState (Chan.replay_run (fun _ _ _ => trivial) hs)).2
    .tick _ _ q .ACT hstep rfl (mem_issued.mp hissued)⟩

end AimSimulator.Controller
