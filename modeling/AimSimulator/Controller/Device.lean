import AimSimulator.Controller.Conservation
/-!
# What a tick does to the device

A tick issues at most one command, for the request that the scheduler picked: the mode
change when the request needs the other register mode, and otherwise the command of the
request.
-/

namespace AimSimulator.Controller

open Dram

variable {Dev Cmd : Type} [DecidableEq Cmd] {iface : IDRAM Dev Cmd} {params : Params}

def issued (log : List (Event Cmd)) : List (Queued Cmd × Cmd) :=
  log.filterMap fun
    | .issue q cmd => some (q, cmd)
    | _ => none

omit [DecidableEq Cmd] in
@[simp] theorem issued_append (log log' : List (Event Cmd)) :
    issued (log ++ log') = issued log ++ issued log' := List.filterMap_append

omit [DecidableEq Cmd] in
@[simp] theorem mem_issued {log : List (Event Cmd)} {q : Queued Cmd} {cmd : Cmd} :
    (q, cmd) ∈ issued log ↔ .issue q cmd ∈ log := by
  rw [issued, List.mem_filterMap]
  constructor
  · rintro ⟨event, hevent, heq⟩
    cases event <;> simp only [reduceCtorEq, Option.some.injEq, Prod.mk.injEq] at heq
    obtain ⟨rfl, rfl⟩ := heq
    exact hevent
  · exact fun h => ⟨_, h, rfl⟩

omit [DecidableEq Cmd] in
theorem QueueStep.issued {admits : Queues Cmd → BufferId → Request → Prop} {c c' : Queues Cmd}
    {events : List (Event Cmd)} (h : QueueStep iface admits c events c') :
    Controller.issued events = [] := by
  cases h with
  | retire => simp [Controller.issued, List.filterMap_map]
  | _ => rfl

namespace AiMDRAMController

/-! ## What the stages of a tick change -/

/-- Two controllers that differ in their queues and their write mode only. -/
structure SameRest (c c' : AiMDRAMController Cmd) : Prop where
  isRegRWMode : c'.isRegRWMode = c.isRegRWMode
  refresh : c'.refresh = c.refresh
  stats : c'.stats = c.stats

namespace SameRest

omit [DecidableEq Cmd]

theorem refl (c : AiMDRAMController Cmd) : SameRest c c := ⟨rfl, rfl, rfl⟩

theorem trans {c₁ c₂ c₃ : AiMDRAMController Cmd} (h : SameRest c₁ c₂) (h' : SameRest c₂ c₃) :
    SameRest c₁ c₃ :=
  ⟨h'.isRegRWMode.trans h.isRegRWMode, h'.refresh.trans h.refresh, h'.stats.trans h.stats⟩

theorem enqueueTo {c c' : AiMDRAMController Cmd} {id : BufferId} {q : Queued Cmd} {ok : Bool}
    {events : List (Event Cmd)} (h : c.enqueueTo id q = (ok, c', events)) : SameRest c c' := by
  unfold AiMDRAMController.enqueueTo at h
  split at h <;> obtain ⟨-, rfl, -⟩ := h <;> exact ⟨rfl, rfl, rfl⟩

theorem prioritySend {c c' : AiMDRAMController Cmd} {req : Request} {ok : Bool}
    {events : List (Event Cmd)} (h : c.prioritySend iface req = some (ok, c', events)) :
    SameRest c c' := by
  obtain ⟨final, -, henqueue⟩ := Option.map_eq_some_iff.mp h
  exact enqueueTo henqueue

theorem send {c c' : AiMDRAMController Cmd} {req : Request} {ok : Bool}
    {events : List (Event Cmd)} (h : c.send iface req = some (ok, c', events)) :
    SameRest c c' := by
  unfold AiMDRAMController.send at h
  split at h
  · split at h
    · obtain ⟨-, rfl, -⟩ := Option.some.inj h
      exact refl _
    · obtain ⟨final, -, h⟩ := Option.map_eq_some_iff.mp h
      exact enqueueTo h
  · split at h
    · obtain ⟨-, rfl, -⟩ := Option.some.inj h
      exact refl _
    · obtain ⟨final, -, h⟩ := Option.bind_eq_some_iff.mp h
      split at h
      · split at h
        · obtain ⟨-, rfl, -⟩ := Option.some.inj h
          exact ⟨rfl, rfl, rfl⟩
        · exact enqueueTo (Option.some.inj h)
      · exact enqueueTo (Option.some.inj h)
      · cases h

theorem sendRefreshes {c c' : AiMDRAMController Cmd} {ranks : List Nat}
    {events : List (Event Cmd)} (h : c.sendRefreshes iface params ranks = some (c', events)) :
    SameRest c c' := by
  induction ranks generalizing c events with
  | nil =>
      obtain ⟨rfl, -⟩ := Option.some.inj h
      exact refl _
  | cons rank ranks ih =>
      obtain ⟨⟨ok, c₁, events₁⟩, hfirst, h⟩ := Option.bind_eq_some_iff.mp h
      dsimp only at h
      split at h
      · obtain ⟨⟨c₂, events₂⟩, hrest, heq⟩ := Option.map_eq_some_iff.mp h
        obtain ⟨rfl, rfl⟩ := Prod.mk.inj heq
        exact (prioritySend hfirst).trans (ih hrest)
      · cases h

theorem serveCompletedReqs (c : AiMDRAMController Cmd) : SameRest c c.serveCompletedReqs.1 := by
  have hreads : SameRest c c.serveReads.1 := by
    unfold serveReads
    split
    · split <;> exact ⟨rfl, rfl, rfl⟩
    · exact refl c
  exact hreads.trans ⟨rfl, rfl, rfl⟩

theorem scheduleRequest (c : AiMDRAMController Cmd) (dev : Dev) :
    SameRest c (c.scheduleRequest iface params dev).1 := by
  unfold AiMDRAMController.scheduleRequest
  split
  · exact refl c
  · split
    · exact refl c
    · split
      · split <;> exact refl c
      · unfold setWriteMode
        dsimp only
        split <;> split <;> exact ⟨rfl, rfl, rfl⟩

end SameRest

omit [DecidableEq Cmd] in
theorem prepare_stages {c c' : AiMDRAMController Cmd} {events : List (Event Cmd)}
    (h : c.prepare iface params = some (c', events)) :
    ∃ c₁ refreshed, SameRest c c₁ ∧ c₁.refreshTick iface params = some (c', refreshed) ∧
      events = { c with clk := c.clk + 1 }.serveCompletedReqs.2 ++ refreshed := by
  obtain ⟨⟨c₂, refreshed⟩, hrefreshed, heq⟩ := Option.map_eq_some_iff.mp h
  obtain ⟨rfl, rfl⟩ := Prod.mk.inj heq
  refine ⟨_, refreshed, ?_, hrefreshed, rfl⟩
  have hserved := SameRest.serveCompletedReqs { c with clk := c.clk + 1 }
  exact ⟨hserved.isRegRWMode, hserved.refresh, hserved.stats⟩

omit [DecidableEq Cmd] in
theorem refreshTick_mode {c c' : AiMDRAMController Cmd} {events : List (Event Cmd)}
    (h : c.refreshTick iface params = some (c', events)) :
    c'.isRegRWMode = c.isRegRWMode ∧ c'.stats = c.stats := by
  unfold refreshTick at h
  split at h
  · have hsent := SameRest.sendRefreshes h
    exact ⟨hsent.isRegRWMode, hsent.stats⟩
  · obtain ⟨rfl, -⟩ := Option.some.inj h
    exact ⟨rfl, rfl⟩

omit [DecidableEq Cmd] in
theorem prepare_mode {c c' : AiMDRAMController Cmd} {events : List (Event Cmd)}
    (h : c.prepare iface params = some (c', events)) :
    c'.isRegRWMode = c.isRegRWMode ∧ c'.stats = c.stats := by
  obtain ⟨c₁, refreshed, hsame, htick, -⟩ := prepare_stages h
  obtain ⟨hmode, hstats⟩ := refreshTick_mode htick
  exact ⟨hmode.trans hsame.isRegRWMode, hstats.trans hsame.stats⟩

omit [DecidableEq Cmd] in
theorem prepare_issued {c c' : AiMDRAMController Cmd} {events : List (Event Cmd)}
    (h : c.prepare iface params = some (c', events)) : issued events = [] :=
  @prepare_induct _ _ iface params (fun _ _ _ => True) (fun _ log => issued log = [])
    (fun _ _ _ _ hstep hlog => by rw [issued_append, hlog, hstep.issued]; rfl)
    c c' [] events (fun _ _ _ _ => trivial) h rfl

theorem tick_refresh {c c' : AiMDRAMController Cmd} {dev dev' : Dev} {events : List (Event Cmd)}
    (h : c.tick iface params dev = some (c', dev', events)) :
    ∃ c₁ prepared, c.prepare iface params = some (c₁, prepared) ∧ c'.refresh = c₁.refresh ∧
      accepted events = accepted prepared := by
  rw [tick] at h
  obtain ⟨⟨c₁, prepared⟩, hprep, h⟩ := Option.bind_eq_some_iff.mp h
  obtain ⟨⟨c₂, dev₂, served⟩, hserved, heq⟩ := Option.map_eq_some_iff.mp h
  simp only [Prod.mk.injEq] at heq
  obtain ⟨rfl, rfl, rfl⟩ := heq
  have hstandby : (c₂.countStandby iface params dev₂).refresh = c₂.refresh := by
    unfold countStandby
    split <;> rfl
  have hsched := (@SameRest.scheduleRequest _ _ iface params c₁ dev).refresh
  refine ⟨c₁, prepared, hprep, hstandby.trans ?_, ?_⟩
  · rw [← hsched]
    unfold serveScheduled at hserved
    split at hserved
    · split at hserved
      · obtain ⟨rfl, -⟩ := Option.some.inj hserved
        rfl
      · obtain ⟨requires, -, heq⟩ := Option.map_eq_some_iff.mp hserved
        obtain ⟨rfl, -⟩ := heq
        rfl
    · split at hserved <;> obtain ⟨rfl, -⟩ := Option.some.inj hserved <;> rfl
  · rw [accepted_append]
    unfold serveScheduled at hserved
    split at hserved
    · split at hserved
      · obtain ⟨-, -, rfl⟩ := Option.some.inj hserved
        exact List.append_nil _
      · obtain ⟨requires, -, heq⟩ := Option.map_eq_some_iff.mp hserved
        obtain ⟨-, -, rfl⟩ := heq
        exact List.append_nil _
    · split at hserved <;> obtain ⟨-, -, rfl⟩ := Option.some.inj hserved <;>
        exact List.append_nil _

/-! ## The command of a tick -/

variable (iface params) in
/-- The next tick of `c` over `dev` finds the queues of `c₁`, and issues a command for the
request of `s`. -/
structure Issues (c : AiMDRAMController Cmd) (dev : Dev) (c₁ : AiMDRAMController Cmd)
    (s : Scheduled Cmd) (cmd : Cmd) : Prop where
  next : c.nextScheduled iface params dev = some (c₁, s)
  notBarrier : s.req.req.opcode.isBarrier = false
  mode : ∃ requires, requiresRegRWMode s.req.req = some requires ∧
    cmd = if requires != c.isRegRWMode then iface.tmod else s.command

namespace Issues

variable {c c₁ : AiMDRAMController Cmd} {dev : Dev} {s : Scheduled Cmd} {cmd : Cmd}

omit [DecidableEq Cmd] in
theorem command (h : Issues iface params c dev c₁ s cmd) :
    cmd = iface.tmod ∨ cmd = s.command := by
  obtain ⟨requires, -, rfl⟩ := h.mode
  split
  · exact .inl rfl
  · exact .inr rfl

omit [DecidableEq Cmd] in
theorem picked (h : Issues iface params c dev c₁ s cmd) : Picked iface c₁.toQueues dev s :=
  nextScheduled_picked iface h.next

omit [DecidableEq Cmd] in
theorem prerequisite (h : Issues iface params c dev c₁ s cmd) :
    s.command = iface.getPreqCommand dev s.req.finalCommand s.req.req.addrVec ∧
      iface.checkReady dev s.command s.req.req.addrVec = true := by
  refine h.picked.command.resolve_left fun hbarrier => ?_
  rw [h.notBarrier] at hbarrier
  cases hbarrier.2

omit [DecidableEq Cmd] in
theorem ready (h : Issues iface params c dev c₁ s cmd) (hcmd : cmd ≠ iface.tmod) :
    cmd = iface.getPreqCommand dev s.req.finalCommand s.req.req.addrVec ∧
      iface.checkReady dev cmd s.req.req.addrVec = true := by
  obtain rfl := h.command.resolve_left hcmd
  exact h.prerequisite

end Issues

variable (iface params) in
def nextCommand (c : AiMDRAMController Cmd) (dev : Dev) : Option (Request × Cmd) :=
  (c.nextScheduled iface params dev).bind fun (_, s) =>
    if s.req.req.opcode.isBarrier then none
    else (requiresRegRWMode s.req.req).map fun requires =>
      (s.req.req, c.issuedCommand iface s requires)

omit [DecidableEq Cmd] in
theorem Issues.nextCommand {c c₁ : AiMDRAMController Cmd} {dev : Dev} {s : Scheduled Cmd}
    {cmd : Cmd} (h : Issues iface params c dev c₁ s cmd) :
    c.nextCommand iface params dev = some (s.req.req, cmd) := by
  obtain ⟨requires, hrequires, rfl⟩ := h.mode
  rw [AiMDRAMController.nextCommand, h.next, Option.bind_some]
  dsimp only
  rw [h.notBarrier, if_neg Bool.false_ne_true, hrequires]
  rfl

theorem tick_device {c c' : AiMDRAMController Cmd} {dev dev' : Dev} {events : List (Event Cmd)}
    (h : c.tick iface params dev = some (c', dev', events)) :
    (dev' = dev ∧ c'.isRegRWMode = c.isRegRWMode ∧ issued events = []) ∨
    ∃ c₁ s cmd, Issues iface params c dev c₁ s cmd ∧
      dev' = iface.issueCommand dev cmd s.req.req.addrVec ∧
      requiresRegRWMode s.req.req = some c'.isRegRWMode ∧
      issued events = [(stampIssue c₁.toQueues s.req, cmd)] := by
  rw [tick] at h
  obtain ⟨⟨c₁, prepared⟩, hprep, h⟩ := Option.bind_eq_some_iff.mp h
  obtain ⟨⟨c₂, dev₂, served⟩, hserved, heq⟩ := Option.map_eq_some_iff.mp h
  simp only [Prod.mk.injEq] at heq
  obtain ⟨rfl, rfl, rfl⟩ := heq
  have hstandby : (c₂.countStandby iface params dev₂).isRegRWMode = c₂.isRegRWMode := by
    unfold countStandby
    split <;> rfl
  have hmode : (c₁.scheduleRequest iface params dev).1.isRegRWMode = c.isRegRWMode :=
    (SameRest.scheduleRequest c₁ dev).isRegRWMode.trans (prepare_mode hprep).1
  have hprepared := prepare_issued hprep
  rw [hstandby]
  cases hsched : (c₁.scheduleRequest iface params dev).2 with
  | none =>
      left
      rw [hsched, serveScheduled] at hserved
      split at hserved <;>
        · obtain ⟨rfl, rfl, rfl⟩ := Option.some.inj hserved
          exact ⟨rfl, hmode, by rw [issued_append, hprepared]; rfl⟩
  | some s =>
      rw [hsched, serveScheduled] at hserved
      split at hserved
      · obtain ⟨rfl, rfl, rfl⟩ := Option.some.inj hserved
        exact .inl ⟨rfl, hmode, by rw [issued_append, hprepared]; rfl⟩
      · next hbarrier =>
          obtain ⟨requires, hrequires, heq⟩ := Option.map_eq_some_iff.mp hserved
          obtain ⟨rfl, rfl, rfl⟩ := heq
          have hqueues := scheduleRequest_toQueues iface params c₁ dev
          refine .inr ⟨c₁, s, _, ⟨?_, by simpa using hbarrier, requires, hrequires, rfl⟩,
            ?_, hrequires, ?_⟩
          · simp [nextScheduled, hprep, hsched]
          · rw [issuedCommand, hmode, (SameRequest.stampIssue _ s.req).req]
          · rw [issued_append, hprepared, issuedCommand, hmode, hqueues]
            rfl

theorem tick_issues {c c' c₁ : AiMDRAMController Cmd} {dev dev' : Dev} {s : Scheduled Cmd}
    {events : List (Event Cmd)} (h : c.tick iface params dev = some (c', dev', events))
    (hnext : c.nextScheduled iface params dev = some (c₁, s))
    (hbarrier : s.req.req.opcode.isBarrier = false) : issued events ≠ [] := by
  obtain ⟨c₂, prepared, c₃, served, hprep, hserved, -, rfl⟩ := tick_stages h
  obtain ⟨_, hprep', hsched⟩ := nextScheduled_cases iface hnext
  obtain ⟨rfl, -⟩ := Prod.mk.inj (Option.some.inj (hprep.symm.trans hprep'))
  rw [hsched, serveScheduled, if_neg (by rw [hbarrier]; exact Bool.false_ne_true)] at hserved
  obtain ⟨requires, -, heq⟩ := Option.map_eq_some_iff.mp hserved
  obtain ⟨rfl, -, rfl⟩ := heq
  rw [issued_append]
  exact List.append_ne_nil_of_right_ne_nil _ (List.cons_ne_nil _ _)

/-! ## What holds of every request -/

section

variable {P : Request → Prop} {c c' : AiMDRAMController Cmd}

omit [DecidableEq Cmd] in
theorem queueStep_requests {c c' : Queues Cmd} {events : List (Event Cmd)}
    (hstep : QueueStep iface (fun _ _ req => P req) c events c')
    (hall : ∀ q ∈ c.outstanding, P q.req) : ∀ q ∈ c'.outstanding, P q.req := by
  intro q hq
  rcases hstep.outstanding hq with hq | ⟨_, _, hadmits⟩
  · exact hall q hq
  · exact hadmits

omit [DecidableEq Cmd] in
theorem send_requests {req : Request} {ok : Bool} {events : List (Event Cmd)} (hreq : P req)
    (h : c.send iface req = some (ok, c', events)) (hall : ∀ q ∈ c.outstanding, P q.req) :
    ∀ q ∈ c'.outstanding, P q.req := by
  rcases @send_step _ _ iface (fun _ _ req => P req) _ _ _ _ _ (fun _ _ _ => hreq) h with
    ⟨rfl, -⟩ | hstep
  · exact hall
  · exact queueStep_requests hstep hall

omit [DecidableEq Cmd] in
theorem prioritySend_requests {req : Request} {ok : Bool} {events : List (Event Cmd)} (hreq : P req)
    (h : c.prioritySend iface req = some (ok, c', events)) (hall : ∀ q ∈ c.outstanding, P q.req) :
    ∀ q ∈ c'.outstanding, P q.req := by
  rcases @prioritySend_step _ _ iface (fun _ _ req => P req) _ _ _ _ _ hreq h with
    ⟨rfl, -⟩ | hstep
  · exact hall
  · exact queueStep_requests hstep hall

theorem tick_requests {dev dev' : Dev} {events : List (Event Cmd)}
    (hrefresh : c.RefreshDue → ∀ rank, rank < iface.numRanks.toNat →
      P (refreshRequest iface params rank))
    (h : c.tick iface params dev = some (c', dev', events)) (hall : ∀ q ∈ c.outstanding, P q.req) :
    ∀ q ∈ c'.outstanding, P q.req := by
  refine @tick_induct _ _ _ iface params (fun _ _ req => P req)
    (fun c _ => ∀ q ∈ c.outstanding, P q.req)
    (fun _ _ _ _ hstep hall => queueStep_requests hstep hall) _ _ _ _ [] _
    (fun hdue rank hrank _ => hrefresh hdue rank hrank) ?_ h hall
  intro c₁ sched hnext _ _ c' hall hserve q hq
  obtain ⟨q', hq', hsame⟩ := serve_outstanding hserve (nextScheduled_picked iface hnext).stands hq
  exact hsame.req ▸ hall q' hq'

omit [DecidableEq Cmd] in
theorem nextScheduled_requests {dev : Dev} {c₁ : AiMDRAMController Cmd} {sched : Scheduled Cmd}
    (hrefresh : c.RefreshDue → ∀ rank, rank < iface.numRanks.toNat →
      P (refreshRequest iface params rank))
    (hnext : c.nextScheduled iface params dev = some (c₁, sched))
    (hall : ∀ q ∈ c.outstanding, P q.req) : P sched.req.req := by
  obtain ⟨prepared, hprep, -⟩ := nextScheduled_cases iface hnext
  have hmem := List.mem_of_getElem? (nextScheduled_picked iface hnext).stands
  have hq := Queues.mem_outstanding.mpr (.inr (.inr ⟨_, hmem⟩))
  rcases prepare_outstanding hprep hq with hq | ⟨hdue, rank, hrank, hreq⟩
  · exact hall _ hq
  · exact hreq ▸ hrefresh hdue rank hrank

end

end AiMDRAMController

/-! ## Runs -/

namespace Chan

variable {dev₀ : Dev} {guard : Chan Dev Cmd → Op → Prop} {s : Chan Dev Cmd}

theorem picked_sound {c₁ : AiMDRAMController Cmd} {dev : Dev} {sched : Scheduled Cmd}
    (hr : Chan.Run iface params dev₀ guard s)
    (hnext : s.ctl.nextScheduled iface params dev = some (c₁, sched)) :
    ∃ log, Sound iface c₁.toQueues log := by
  obtain ⟨prepared, hprep, -⟩ := AiMDRAMController.nextScheduled_cases iface hnext
  exact ⟨_, @AiMDRAMController.prepare_induct _ _ iface params (fun _ _ _ => True)
    (fun c log => Sound iface c log) (fun _ _ _ _ hstep h => h.queueStep hstep)
    _ _ _ _ (fun _ _ _ _ => trivial) hprep (Chan.sound hr)⟩

theorem picked_final {c₁ : AiMDRAMController Cmd} {dev : Dev} {sched : Scheduled Cmd}
    (hr : Chan.Run iface params dev₀ guard s)
    (hnext : s.ctl.nextScheduled iface params dev = some (c₁, sched)) :
    finalOf iface sched.req.req = some sched.req.finalCommand := by
  obtain ⟨log, hsound⟩ := picked_sound hr hnext
  have hmem := List.mem_of_getElem? (AiMDRAMController.nextScheduled_picked iface hnext).stands
  exact hsound.final _ (.inl (Queues.mem_outstanding.mpr (.inr (.inr ⟨_, hmem⟩))))

/-- The rule for requests: what holds of those that are sent and of the refreshes that are due
holds of all outstanding ones, and of the one that is picked. -/
theorem requests {P : Request → Prop} (hsend : ∀ s req, guard s (.send req) → P req)
    (hprio : ∀ s req, guard s (.prioritySend req) → P req)
    (hrefresh : ∀ s, guard s .tick → s.ctl.RefreshDue → ∀ rank, rank < iface.numRanks.toNat →
      P (AiMDRAMController.refreshRequest iface params rank))
    (hr : Chan.Run iface params dev₀ guard s) :
    (∀ q ∈ s.ctl.outstanding, P q.req) ∧ ∀ {dev c₁ sched}, guard s .tick →
      s.ctl.nextScheduled iface params dev = some (c₁, sched) → P sched.req.req := by
  have hall : ∀ q ∈ s.ctl.outstanding, P q.req := by
    refine hr.invariant (I := fun s : Chan Dev Cmd => ∀ q ∈ s.ctl.outstanding, P q.req) ?_ ?_
    · rintro s rfl q hq
      cases hq
    · intro s op t hall hg hstep
      cases op with
      | send req =>
          obtain ⟨⟨ok, ctl, events⟩, hsent, rfl⟩ := Option.map_eq_some_iff.mp hstep
          exact AiMDRAMController.send_requests (hsend s req hg) hsent hall
      | prioritySend req =>
          obtain ⟨⟨ok, ctl, events⟩, hsent, rfl⟩ := Option.map_eq_some_iff.mp hstep
          exact AiMDRAMController.prioritySend_requests (hprio s req hg) hsent hall
      | tick =>
          obtain ⟨⟨ctl, dev, events⟩, htick, rfl⟩ := Option.map_eq_some_iff.mp hstep
          exact AiMDRAMController.tick_requests (hrefresh s hg) htick hall
  exact ⟨hall, fun hg hnext =>
    AiMDRAMController.nextScheduled_requests (hrefresh s hg) hnext hall⟩

/-- The run rule for devices: what the clock and every issued command preserve holds of the
device in every run. -/
theorem dev_invariant {I : Dev → Prop} (hinit : I dev₀) (htick : ∀ dev, I dev → I (iface.tick dev))
    (hissue : ∀ (s : Chan Dev Cmd) c₁ sched cmd, Chan.Run iface params dev₀ guard s →
      guard s .tick → AiMDRAMController.Issues iface params s.ctl (iface.tick s.dev) c₁ sched cmd →
        I (iface.tick s.dev) →
          I (iface.issueCommand (iface.tick s.dev) cmd sched.req.req.addrVec))
    (hr : Chan.Run iface params dev₀ guard s) : I s.dev := by
  refine (Runs.Reachable.invariant_with (I := fun s => Chan.Run iface params dev₀ guard s ∧ I s.dev)
    (fun _ h => h) ?_ ?_ hr).2
  · rintro s rfl
    exact ⟨.start rfl, hinit⟩
  · rintro s op t hrun hrun' ⟨-, hI⟩ hg hstep
    refine ⟨hrun', ?_⟩
    cases op with
    | send req =>
        obtain ⟨⟨ok, ctl, events⟩, -, rfl⟩ := Option.map_eq_some_iff.mp hstep
        exact hI
    | prioritySend req =>
        obtain ⟨⟨ok, ctl, events⟩, -, rfl⟩ := Option.map_eq_some_iff.mp hstep
        exact hI
    | tick =>
        obtain ⟨⟨ctl, dev, events⟩, hticked, rfl⟩ := Option.map_eq_some_iff.mp hstep
        rcases AiMDRAMController.tick_device hticked with
          ⟨rfl, -⟩ | ⟨c₁, sched, cmd, hissues, rfl, -⟩
        · exact htick _ hI
        · exact hissue s c₁ sched cmd hrun hg hissues (htick _ hI)

end Chan

end AimSimulator.Controller
