import AimSimulator.Lib.Runs
import AimSimulator.Controller.Schedule
/-!
# Runs of one controller

A channel is a controller with its device and the log of what happened so far.  Every
call is a sequence of small steps over the queues: `QueueStep` for what does not depend
on the scheduler, `ServeStep` for what happens to the request it picked.  An invariant
of the queues is proved on these steps and carried over whole runs by `Chan.invariant`.
-/

namespace AimSimulator.Controller

open Dram

structure Chan (Dev Cmd : Type) where
  ctl : AiMDRAMController Cmd
  dev : Dev
  log : List (Event Cmd) := []

inductive Op
  | send (req : Request)
  | prioritySend (req : Request)
  | tick

def Op.isPriority : Op → Bool
  | .prioritySend _ => true
  | _ => false

variable {Dev Cmd : Type} [DecidableEq Cmd] (iface : IDRAM Dev Cmd) (params : Params)

/-- One call.  The memory system advances the clock of the device before a controller
ticks. -/
def Chan.step (s : Chan Dev Cmd) : Op → Option (Chan Dev Cmd)
  | .send req =>
      (s.ctl.send iface req).map fun (_, ctl, events) =>
        { s with ctl, log := s.log ++ events }
  | .prioritySend req =>
      (s.ctl.prioritySend iface req).map fun (_, ctl, events) =>
        { s with ctl, log := s.log ++ events }
  | .tick =>
      (s.ctl.tick iface params (iface.tick s.dev)).map fun (ctl, dev, events) =>
        ⟨ctl, dev, s.log ++ events⟩

def Chan.init (dev : Dev) : Chan Dev Cmd where
  ctl := AiMDRAMController.init iface
  dev := dev

/-- The channels reached from a fresh controller by calls that all meet a guard. -/
abbrev Chan.Run (dev₀ : Dev) (guard : Chan Dev Cmd → Op → Prop) : Chan Dev Cmd → Prop :=
  Runs.Reachable (fun s => s = Chan.init iface dev₀)
    (fun s op t => s.step iface params op = some t) guard

/-- Calls from a fresh controller, each tested with `ok`. -/
def Chan.replay (dev₀ : Dev) (ok : Chan Dev Cmd → Op → Bool) (ops : List Op) :
    Option (Chan Dev Cmd) :=
  Runs.replay (Chan.step iface params) ok (Chan.init iface dev₀) ops

theorem Chan.replay_run {iface : IDRAM Dev Cmd} {params : Params} {dev₀ : Dev}
    {guard : Chan Dev Cmd → Op → Prop} {ok : Chan Dev Cmd → Op → Bool}
    (hok : ∀ s op, ok s op = true → guard s op) {ops : List Op} {s : Chan Dev Cmd}
    (h : Chan.replay iface params dev₀ ok ops = some s) : Chan.Run iface params dev₀ guard s :=
  Runs.replay_reachable hok (.start rfl) h

/-! ## Small steps -/

/-- The command a request ends with; `none` where the lookup throws. -/
def finalOf (req : Request) : Option Cmd :=
  if req.type = .AIM then iface.aimRequestTranslations req.opcode
  else iface.requestTranslations req.type

omit [DecidableEq Cmd] in
theorem finalOf_translated {req : Request} {final : Cmd} (h : finalOf iface req = some final) :
    (∃ type, iface.requestTranslations type = some final) ∨
      ∃ op, iface.aimRequestTranslations op = some final := by
  unfold finalOf at h
  split at h
  · exact .inr ⟨_, h⟩
  · exact .inl ⟨_, h⟩

namespace Queues

def push (c : Queues Cmd) (id : BufferId) (q : Queued Cmd) : Queues Cmd :=
  c.setBuffer id ⟨(c.bufferOf id).buffer ++ [q], (c.bufferOf id).maxSize⟩

/-- The acceptance test of `send` and `priority_send` for each buffer. -/
inductive Gate (c : Queues Cmd) (req : Request) : BufferId → Prop
  | priority : Gate c req .priority
  | aim : req.type = .AIM → c.readBuffer.buffer = [] → c.writeBuffer.buffer = [] →
      Gate c req .aim
  | read : req.type = .Read → c.aimBuffer.buffer = [] → Gate c req .read
  | write : req.type = .Write → c.aimBuffer.buffer = [] → Gate c req .write

end Queues

/-- The steps over the queues that do not depend on the scheduler.  `admits` is what is
known of the requests that reach a buffer. -/
inductive QueueStep (admits : Queues Cmd → BufferId → Request → Prop) :
    Queues Cmd → List (Event Cmd) → Queues Cmd → Prop
  | clock {c : Queues Cmd} : QueueStep admits c [] { c with clk := c.clk + 1 }
  | accept {c : Queues Cmd} {id : BufferId} {q : Queued Cmd} :
      q.seq = c.nextSeq → finalOf iface q.req = some q.finalCommand → admits c id q.req →
        c.Gate q.req id → (c.bufferOf id).size ≤ (c.bufferOf id).maxSize →
          QueueStep admits c [.accept q] { c.push id q with nextSeq := c.nextSeq + 1 }
  | forward {c : Queues Cmd} {q wreq : Queued Cmd} :
      q.seq = c.nextSeq → finalOf iface q.req = some q.finalCommand → admits c .read q.req →
        q.req.type = .Read → c.aimBuffer.buffer = [] → wreq ∈ c.writeBuffer.buffer →
          wreq.req.addr = q.req.addr → q.depart = c.clk + 1 →
            QueueStep admits c [.accept q, .forward q]
              { c with pendingReads := c.pendingReads ++ [q], nextSeq := c.nextSeq + 1 }
  | complete {c : Queues Cmd} {q : Queued Cmd} {rest : List (Queued Cmd)} :
      c.pendingReads = q :: rest → q.depart ≤ c.clk →
        (q.req.opcode.isBarrier = true → c.pendingWrites = []) →
          QueueStep admits c [.complete q] { c with pendingReads := rest }
  | retire {c : Queues Cmd} :
      QueueStep admits c ((c.pendingWrites.filter fun q => q.depart ≤ c.clk).map .retire)
        { c with pendingWrites := c.pendingWrites.filter fun q => c.clk < q.depart }

/-- What `tick` does to the request that was picked. -/
inductive ServeStep (c : Queues Cmd) (s : Scheduled Cmd) :
    List (Event Cmd) → Queues Cmd → Prop
  | barrier : s.req.req.opcode.isBarrier = true →
      ServeStep c s [.barrier { s.req with depart := c.clk }]
        (AiMDRAMController.serveBarrier c s)
  | issue {cmd : Cmd} : s.req.req.opcode.isBarrier = false →
      cmd = iface.tmod ∨ cmd = s.command →
        ServeStep c s [.issue (AiMDRAMController.stampIssue c s.req) cmd]
          (AiMDRAMController.moveIssued iface c s (AiMDRAMController.stampIssue c s.req) cmd)

/-! ## Calls as small steps -/

namespace AiMDRAMController

variable {iface params} {admits : Queues Cmd → BufferId → Request → Prop}

omit [DecidableEq Cmd] in
/-- A buffer that accepts a request takes a step; one that refuses changes nothing. -/
theorem enqueueTo_step {c c' : AiMDRAMController Cmd} {id : BufferId} {q : Queued Cmd}
    {ok : Bool} {events : List (Event Cmd)} (hseq : q.seq = c.nextSeq)
    (hfinal : finalOf iface q.req = some q.finalCommand) (hadmits : admits c.toQueues id q.req)
    (hgate : c.Gate q.req id) (h : c.enqueueTo id q = (ok, c', events)) :
    (c' = c ∧ events = []) ∨ QueueStep iface admits c.toQueues events c'.toQueues := by
  unfold enqueueTo at h
  split at h
  · next b heq =>
      obtain ⟨-, rfl, rfl⟩ := h
      unfold ReqBuffer.enqueue at heq
      split at heq
      · next hroom =>
          obtain rfl := Option.some.inj heq
          exact .inr (.accept hseq hfinal hadmits hgate hroom)
      · cases heq
  · obtain ⟨-, rfl, rfl⟩ := h
    exact .inl ⟨rfl, rfl⟩

omit [DecidableEq Cmd] in
theorem size_eq_zero {b : ReqBuffer Cmd} (h : ¬ b.size ≠ 0) : b.buffer = [] :=
  List.length_eq_zero_iff.mp (Decidable.not_not.mp h)

omit [DecidableEq Cmd] in
theorem send_step {c c' : AiMDRAMController Cmd} {req : Request} {ok : Bool}
    {events : List (Event Cmd)}
    (hadmits : ∀ id, c.Gate req id → id ≠ .priority → admits c.toQueues id req)
    (h : c.send iface req = some (ok, c', events)) :
    (c' = c ∧ events = []) ∨ QueueStep iface admits c.toQueues events c'.toQueues := by
  unfold send at h
  split at h
  · next htype =>
      split at h
      · obtain ⟨-, rfl, rfl⟩ := Option.some.inj h
        exact .inl ⟨rfl, rfl⟩
      · next hempty =>
          rw [not_or] at hempty
          obtain ⟨final, hfinal, h⟩ := Option.map_eq_some_iff.mp h
          have hgate : c.Gate req .aim :=
            .aim htype (size_eq_zero hempty.2) (size_eq_zero hempty.1)
          refine enqueueTo_step rfl ?_ (hadmits _ hgate (by simp)) hgate h
          rw [finalOf, if_pos htype, hfinal]
  · next htype =>
      split at h
      · obtain ⟨-, rfl, rfl⟩ := Option.some.inj h
        exact .inl ⟨rfl, rfl⟩
      · next haim =>
          obtain ⟨final, hfinal, h⟩ := Option.bind_eq_some_iff.mp h
          have hfinal : finalOf iface req = some final := by rw [finalOf, if_neg htype, hfinal]
          have haim := size_eq_zero haim
          split at h
          · next hread =>
              have hgate : c.Gate req .read := .read hread haim
              split at h
              · next hany =>
                  obtain ⟨-, rfl, rfl⟩ := Option.some.inj h
                  obtain ⟨wreq, hmem, haddr⟩ := List.any_eq_true.mp hany
                  exact .inr (.forward rfl hfinal (hadmits _ hgate (by simp)) hread haim hmem
                    (of_decide_eq_true haddr) rfl)
              · exact enqueueTo_step rfl hfinal (hadmits _ hgate (by simp)) hgate
                  (Option.some.inj h)
          · next hwrite =>
              have hgate : c.Gate req .write := .write hwrite haim
              exact enqueueTo_step rfl hfinal (hadmits _ hgate (by simp)) hgate
                (Option.some.inj h)
          · cases h

omit [DecidableEq Cmd] in
theorem prioritySend_step {c c' : AiMDRAMController Cmd} {req : Request} {ok : Bool}
    {events : List (Event Cmd)} (hadmits : admits c.toQueues .priority req)
    (h : c.prioritySend iface req = some (ok, c', events)) :
    (c' = c ∧ events = []) ∨ QueueStep iface admits c.toQueues events c'.toQueues := by
  obtain ⟨final, hfinal, h⟩ := Option.map_eq_some_iff.mp h
  refine enqueueTo_step rfl ?_ hadmits .priority h
  exact hfinal

def RefreshDue (c : AiMDRAMController Cmd) : Prop :=
  c.refresh.clk + 1 = c.refresh.nextRefreshCycle

instance (c : AiMDRAMController Cmd) : Decidable c.RefreshDue :=
  inferInstanceAs (Decidable (c.refresh.clk + 1 = c.refresh.nextRefreshCycle))

theorem tick_stages {c c' : AiMDRAMController Cmd} {dev dev' : Dev}
    {events : List (Event Cmd)} (h : c.tick iface params dev = some (c', dev', events)) :
    ∃ c₁ prepared c₂ served, c.prepare iface params = some (c₁, prepared) ∧
      (c₁.scheduleRequest iface params dev).1.serveScheduled iface dev
        (c₁.scheduleRequest iface params dev).2 = some (c₂, dev', served) ∧
      c'.toQueues = c₂.toQueues ∧ events = prepared ++ served := by
  rw [tick] at h
  obtain ⟨⟨c₁, prepared⟩, hprep, h⟩ := Option.bind_eq_some_iff.mp h
  dsimp only at h
  obtain ⟨⟨c₂, dev₂, served⟩, hserved, heq⟩ := Option.map_eq_some_iff.mp h
  simp only [Prod.mk.injEq] at heq
  obtain ⟨rfl, rfl, rfl⟩ := heq
  refine ⟨c₁, prepared, c₂, served, hprep, hserved, ?_, rfl⟩
  unfold countStandby
  split <;> rfl

section Induction

variable {I : Queues Cmd → List (Event Cmd) → Prop}
  (hqueue : ∀ c log events c', QueueStep iface admits c events c' → I c log →
    I c' (log ++ events))

include hqueue

omit [DecidableEq Cmd] in
theorem serveReads_induct {c : AiMDRAMController Cmd} {log : List (Event Cmd)}
    (h : I c.toQueues log) : I c.serveReads.1.toQueues (log ++ c.serveReads.2) := by
  unfold serveReads
  split
  · next q rest hreads =>
      split
      · next hdone =>
          simp only [headDone, Bool.and_eq_true, decide_eq_true_eq, Bool.or_eq_true,
            Bool.not_eq_true', List.isEmpty_iff] at hdone
          refine hqueue _ _ _ _ (.complete hreads hdone.1 fun hbarrier => ?_) h
          exact hdone.2.resolve_left (by simp [hbarrier])
      · simpa using h
  · simpa using h

omit [DecidableEq Cmd] in
theorem serveCompletedReqs_induct {c : AiMDRAMController Cmd} {log : List (Event Cmd)}
    (h : I c.toQueues log) :
    I c.serveCompletedReqs.1.toQueues (log ++ c.serveCompletedReqs.2) := by
  have hreads := serveReads_induct hqueue h
  have hwrites := hqueue _ _ _ _
    (@QueueStep.retire _ _ iface admits _) hreads
  rw [List.append_assoc] at hwrites
  exact hwrites

omit [DecidableEq Cmd] in
theorem sendRefreshes_induct {c c' : AiMDRAMController Cmd} {ranks : List Nat}
    {log events : List (Event Cmd)}
    (hrefresh : ∀ rank ∈ ranks, ∀ c, admits c .priority (refreshRequest iface params rank))
    (hsend : c.sendRefreshes iface params ranks =
      some (c', events)) (h : I c.toQueues log) : I c'.toQueues (log ++ events) := by
  induction ranks generalizing c log events with
  | nil =>
      obtain ⟨rfl, rfl⟩ := Option.some.inj hsend
      simpa using h
  | cons rank ranks ih =>
      obtain ⟨⟨ok, c₁, events₁⟩, hfirst, hsend⟩ := Option.bind_eq_some_iff.mp hsend
      dsimp only at hsend
      split at hsend
      · obtain ⟨⟨c₂, events₂⟩, hrest, heq⟩ := Option.map_eq_some_iff.mp hsend
        obtain ⟨rfl, rfl⟩ := Prod.mk.inj heq
        rw [← List.append_assoc]
        refine ih (fun rank hrank => hrefresh rank (List.mem_cons_of_mem _ hrank)) hrest ?_
        rcases prioritySend_step (hrefresh rank List.mem_cons_self _) hfirst with ⟨rfl, rfl⟩ | hstep
        · simpa using h
        · exact hqueue _ _ _ _ hstep h
      · cases hsend

omit [DecidableEq Cmd] in
theorem refreshTick_induct {c c' : AiMDRAMController Cmd} {log events : List (Event Cmd)}
    (hrefresh : c.RefreshDue → ∀ rank, rank < iface.numRanks.toNat →
      ∀ c, admits c .priority (refreshRequest iface params rank))
    (htick : c.refreshTick iface params = some (c', events)) (h : I c.toQueues log) :
    I c'.toQueues (log ++ events) := by
  unfold refreshTick at htick
  split at htick
  · next hdue =>
      exact sendRefreshes_induct hqueue
        (fun rank hrank => hrefresh hdue rank (List.mem_range.mp hrank)) htick h
  · obtain ⟨rfl, rfl⟩ := Option.some.inj htick
    simpa using h

omit [DecidableEq Cmd] in
/-- The rule for what happens before the scheduler: a refresh is accepted only when it is due. -/
theorem prepare_induct {c c' : AiMDRAMController Cmd} {log events : List (Event Cmd)}
    (hrefresh : c.RefreshDue → ∀ rank, rank < iface.numRanks.toNat →
      ∀ c, admits c .priority (refreshRequest iface params rank))
    (hprep : c.prepare iface params = some (c', events)) (h : I c.toQueues log) :
    I c'.toQueues (log ++ events) := by
  obtain ⟨⟨c₁, refreshed⟩, hrefreshed, heq⟩ := Option.map_eq_some_iff.mp hprep
  obtain ⟨rfl, rfl⟩ := Prod.mk.inj heq
  have hclock := hqueue _ _ _ _
    (@QueueStep.clock _ _ iface admits c.toQueues) h
  rw [List.append_nil] at hclock
  rw [← List.append_assoc]
  have hdue : ({ c with clk := c.clk + 1 }.serveCompletedReqs.1.RefreshDue) → c.RefreshDue := by
    unfold RefreshDue serveCompletedReqs serveWrites serveReads
    dsimp only
    split
    · split <;> exact id
    · exact id
  exact refreshTick_induct hqueue (fun h => hrefresh (hdue h)) hrefreshed
    (serveCompletedReqs_induct (c := { c with clk := c.clk + 1 }) hqueue hclock)

/-- The rule for `tick`: what the small steps preserve, the request that is picked
included, `tick` preserves. -/
theorem tick_induct {c c' : AiMDRAMController Cmd} {dev dev' : Dev}
    {log events : List (Event Cmd)}
    (hrefresh : c.RefreshDue → ∀ rank, rank < iface.numRanks.toNat →
      ∀ c, admits c .priority (refreshRequest iface params rank))
    (hserve : ∀ c₁ s, c.nextScheduled iface params dev = some (c₁, s) →
      ∀ log events q', I c₁.toQueues log → ServeStep iface c₁.toQueues s events q' →
        I q' (log ++ events))
    (htick : c.tick iface params dev = some (c', dev', events)) (h : I c.toQueues log) :
    I c'.toQueues (log ++ events) := by
  obtain ⟨c₁, prepared, c₂, served, hprep, hserved, hc', rfl⟩ := tick_stages htick
  have h₁ := prepare_induct hqueue hrefresh hprep h
  have hqueues := scheduleRequest_toQueues iface params c₁ dev
  rw [hc', ← List.append_assoc]
  cases hsched : (c₁.scheduleRequest iface params dev).2 with
  | none =>
      rw [hsched, serveScheduled] at hserved
      split at hserved
      all_goals
        obtain ⟨rfl, -, rfl⟩ := Option.some.inj hserved
        rw [List.append_nil, hqueues]
        exact h₁
  | some s =>
      have hnext : c.nextScheduled iface params dev = some (c₁, s) := by
        simp [nextScheduled, hprep, hsched]
      rw [hsched, serveScheduled] at hserved
      split at hserved
      · next hbarrier =>
          obtain ⟨rfl, -, rfl⟩ := Option.some.inj hserved
          rw [hqueues]
          exact hserve c₁ s hnext _ _ _ h₁ (.barrier hbarrier)
      · next hbarrier =>
          obtain ⟨requires, -, heq⟩ := Option.map_eq_some_iff.mp hserved
          obtain ⟨rfl, -, rfl⟩ := heq
          dsimp only
          rw [hqueues]
          refine hserve c₁ s hnext _ _ _ h₁ (.issue (Bool.not_eq_true _ ▸ hbarrier) ?_)
          unfold issuedCommand
          split
          · exact .inl rfl
          · exact .inr rfl

end Induction

end AiMDRAMController

/-- The run rule.  An invariant of the queues and the log that the small steps preserve,
under what the guard says of the request each `tick` picks, holds in every run. -/
theorem Chan.invariant {iface : IDRAM Dev Cmd} {params : Params} {dev₀ : Dev}
    {guard : Chan Dev Cmd → Op → Prop} (admits : Queues Cmd → BufferId → Request → Prop)
    {I : Queues Cmd → List (Event Cmd) → Prop}
    (hinit : I {} [])
    (hqueue : ∀ c log events c', QueueStep iface admits c events c' → I c log →
      I c' (log ++ events))
    (hrefresh : ∀ c rank,
      admits c .priority (AiMDRAMController.refreshRequest iface params rank))
    (hsend : ∀ s req, guard s (.send req) → ∀ id, s.ctl.Gate req id → id ≠ .priority →
      admits s.ctl.toQueues id req)
    (hprio : ∀ s req, guard s (.prioritySend req) → admits s.ctl.toQueues .priority req)
    (hserve : ∀ (s : Chan Dev Cmd) c₁ sched, guard s .tick →
      s.ctl.nextScheduled iface params (iface.tick s.dev) = some (c₁, sched) →
        ∀ log events q', I c₁.toQueues log → ServeStep iface c₁.toQueues sched events q' →
          I q' (log ++ events))
    {s : Chan Dev Cmd} (hr : Chan.Run iface params dev₀ guard s) :
    I s.ctl.toQueues s.log := by
  refine hr.invariant (I := fun s => I s.ctl.toQueues s.log) ?_ ?_
  · rintro s rfl
    exact hinit
  · intro s op t hI hg hstep
    cases op with
    | send req =>
        obtain ⟨⟨ok, ctl, events⟩, hsent, rfl⟩ := Option.map_eq_some_iff.mp hstep
        rcases AiMDRAMController.send_step (hsend s req hg) hsent with ⟨rfl, rfl⟩ | h
        · simpa using hI
        · exact hqueue _ _ _ _ h hI
    | prioritySend req =>
        obtain ⟨⟨ok, ctl, events⟩, hsent, rfl⟩ := Option.map_eq_some_iff.mp hstep
        rcases AiMDRAMController.prioritySend_step (hprio s req hg) hsent with ⟨rfl, rfl⟩ | h
        · simpa using hI
        · exact hqueue _ _ _ _ h hI
    | tick =>
        obtain ⟨⟨ctl, dev, events⟩, htick, rfl⟩ := Option.map_eq_some_iff.mp hstep
        exact AiMDRAMController.tick_induct hqueue (fun _ rank _ c => hrefresh c rank)
          (fun c₁ sched => hserve s c₁ sched hg) htick hI

end AimSimulator.Controller
