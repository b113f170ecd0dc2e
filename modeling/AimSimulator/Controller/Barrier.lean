import AimSimulator.Controller.Ordering
/-!
# SYNC and EOC as barriers

A barrier is queued behind the earlier AiM requests, waits for the conventional ones in
the read and the write buffer, and completes from the head of `pending_reads` once
`pending_writes` is empty.  Only the active buffer is missed by all of these tests: in
the runs where no barrier leaves the AiM buffer over it, a barrier completes after every
earlier request.
-/

namespace AimSimulator.Controller

open Dram

variable {Dev Cmd : Type} [DecidableEq Cmd] {iface : IDRAM Dev Cmd} {params : Params}

variable (iface params) in
/-- The condition on each call: no barrier is taken from the AiM buffer over a request in
the active buffer, which has room, and no barrier comes by `priority_send`. -/
def BarrierSafe (s : Chan Dev Cmd) : Op → Prop
  | .send _ => True
  | .prioritySend req => req.opcode.isBarrier = false
  | .tick => s.ctl.activeBuffer.size ≤ s.ctl.activeBuffer.maxSize ∧
      ∀ x ∈ s.ctl.nextScheduled iface params (iface.tick s.dev),
        x.2.buffer = .aim → x.2.req.req.opcode.isBarrier = true → x.1.activeBuffer.buffer = []

instance (s : Chan Dev Cmd) : (op : Op) → Decidable (BarrierSafe iface params s op)
  | .send _ => inferInstanceAs (Decidable True)
  | .prioritySend req => inferInstanceAs (Decidable (req.opcode.isBarrier = false))
  | .tick => inferInstanceAs (Decidable (_ ∧ ∀ x ∈ s.ctl.nextScheduled iface params
      (iface.tick s.dev), _))

/-! ## The order of the requests -/

/-- What a guarded run knows of a request that enters a buffer. -/
def NoPriorityBarrier (_ : Queues Cmd) (id : BufferId) (req : Request) : Prop :=
  id = .priority → req.opcode.isBarrier = false

structure BarrierOrder (c : Queues Cmd) : Prop where
  priority : ∀ q ∈ c.priorityBuffer.buffer, q.req.opcode.isBarrier = false
  fifo : (c.aimBuffer.buffer.map Queued.seq).Pairwise (· < ·)
  pending : c.pendingReads.Pairwise fun q q' => q.req.isAimBarrier = true → q.seq < q'.seq
  queued : ∀ q ∈ c.pendingReads, q.req.isAimBarrier = true →
    ∀ id, ∀ q' ∈ (c.bufferOf id).buffer, q.seq < q'.seq

namespace BarrierOrder

theorem queueStep {c c' : Queues Cmd} {log events : List (Event Cmd)}
    (hstep : QueueStep iface NoPriorityBarrier c events c') (hsound : Sound iface c log)
    (hconserved : Conserved c log) (h : BarrierOrder c) : BarrierOrder c' := by
  have hbelow : ∀ q ∈ c.outstanding, q.seq < c.nextSeq :=
    fun q hq => Conserved.seq_lt hsound hconserved hq
  have hreads : ∀ q ∈ c.pendingReads, q.seq < c.nextSeq :=
    fun q hq => hbelow q (Queues.mem_outstanding.mpr (.inl hq))
  cases hstep with
  | clock => exact ⟨h.priority, h.fifo, h.pending, h.queued⟩
  | @accept id q hseq _ hadmits hgate _ =>
      have hqueued : ∀ p ∈ c.pendingReads, p.req.isAimBarrier = true →
          ∀ id', ∀ q' ∈ (({ c.push id q with nextSeq := c.nextSeq + 1 } :
            Queues Cmd).bufferOf id').buffer, p.seq < q'.seq := by
        intro p hp hbarrier id' q' hq'
        rcases mem_push hq' with hq' | ⟨-, rfl⟩
        · exact h.queued p hp hbarrier id' q' hq'
        · rw [hseq]
          exact hreads p hp
      cases hgate with
      | priority =>
          refine ⟨fun q' hq' => ?_, h.fifo, h.pending, hqueued⟩
          rcases List.mem_append.mp hq' with hq' | hq'
          · exact h.priority q' hq'
          · rw [List.mem_singleton.mp hq']
            exact hadmits rfl
      | aim _ _ _ =>
          refine ⟨h.priority, ?_, h.pending, hqueued⟩
          have hlast : ((c.push .aim q).aimBuffer.buffer.map Queued.seq) =
              c.aimBuffer.buffer.map Queued.seq ++ [q.seq] := List.map_append
          dsimp only
          rw [hlast]
          refine List.pairwise_append.mpr ⟨h.fifo, List.pairwise_singleton .., ?_⟩
          intro n hn m hm
          obtain ⟨x, hx, rfl⟩ := List.mem_map.mp hn
          rw [List.mem_singleton.mp hm, hseq]
          exact hbelow x (Queues.mem_outstanding.mpr (.inr (.inr ⟨.aim, hx⟩)))
      | read _ _ => exact ⟨h.priority, h.fifo, h.pending, hqueued⟩
      | write _ _ => exact ⟨h.priority, h.fifo, h.pending, hqueued⟩
  | @forward q _ hseq _ _ htype _ _ _ _ =>
      refine ⟨h.priority, h.fifo, ?_, ?_⟩
      · refine List.pairwise_append.mpr ⟨h.pending, List.pairwise_singleton .., ?_⟩
        intro p hp q' hq' _
        rw [List.mem_singleton.mp hq', hseq]
        exact hreads p hp
      · intro p hp hbarrier
        rcases List.mem_append.mp hp with hp | hp
        · exact h.queued p hp hbarrier
        · rw [List.mem_singleton.mp hp] at hbarrier
          simp [Request.isAimBarrier, htype] at hbarrier
  | @complete q rest hpending _ _ =>
      have hsub : rest.Sublist c.pendingReads := by
        rw [hpending]
        exact List.sublist_cons_self ..
      exact ⟨h.priority, h.fifo, h.pending.sublist hsub,
        fun p hp => h.queued p (hsub.mem hp)⟩
  | retire => exact ⟨h.priority, h.fifo, h.pending, h.queued⟩

theorem serveBarrier {c : Queues Cmd} {s : Scheduled Cmd} {dev : Dev} {log : List (Event Cmd)}
    (hpicked : Picked iface c dev s) (hbarrier : s.req.req.isAimBarrier = true)
    (hactive : s.buffer = .aim → c.activeBuffer.buffer = [])
    (hsound : Sound iface c log) (h : BarrierOrder c) (id : BufferId) {q : Queued Cmd}
    (hq : q ∈ ((c.removeAt s.buffer s.index).bufferOf id).buffer) : s.req.seq < q.seq := by
  have hmem := List.mem_of_getElem? hpicked.stands
  obtain ⟨htype, hopcode⟩ := Bool.and_eq_true_iff.mp hbarrier
  have htype : s.req.req.type = .AIM := eq_of_beq htype
  have haim : s.buffer = .aim := by
    have hplaced := hsound.placed s.buffer s.req hmem
    cases hid : s.buffer with
    | active =>
        rw [hid] at hplaced
        exact absurd htype hplaced
    | priority =>
        rw [hid] at hmem
        simp [h.priority s.req hmem] at hopcode
    | read =>
        rw [hid, Placed, htype] at hplaced
        cases hplaced
    | write =>
        rw [hid, Placed, htype] at hplaced
        cases hplaced
    | aim => rfl
  have hstands := hpicked.stands
  have hzero := hpicked.aimHead haim
  rw [haim, hzero] at hstands
  obtain ⟨rest, hrest⟩ : ∃ rest, c.aimBuffer.buffer = s.req :: rest := by
    cases hb : c.aimBuffer.buffer with
    | nil => simp [Queues.bufferOf, hb] at hstands
    | cons x rest =>
        simp only [Queues.bufferOf, hb, List.getElem?_cons_zero, Option.some.injEq] at hstands
        exact ⟨rest, by rw [hstands]⟩
  obtain ⟨hread, hwrite⟩ := hsound.exclusive (by simp [hrest])
  rw [haim, hzero] at hq
  cases id with
  | active =>
      have hq : q ∈ c.activeBuffer.buffer := hq
      simp [hactive haim] at hq
  | priority =>
      have hq : q ∈ c.priorityBuffer.buffer := hq
      simp [hpicked.overPriority (by simp [haim]) (by simp [haim])] at hq
  | read =>
      have hq : q ∈ c.readBuffer.buffer := hq
      simp [hread] at hq
  | write =>
      have hq : q ∈ c.writeBuffer.buffer := hq
      simp [hwrite] at hq
  | aim =>
      have hq : q ∈ c.aimBuffer.buffer.eraseIdx 0 := hq
      rw [hrest] at hq
      have hfifo := h.fifo
      rw [hrest, List.map_cons, List.pairwise_cons] at hfifo
      exact hfifo.1 q.seq (List.mem_map_of_mem hq)

theorem serveStep {c c' : Queues Cmd} {s : Scheduled Cmd} {dev : Dev}
    {log events : List (Event Cmd)} (hpicked : Picked iface c dev s)
    (hactive : s.buffer = .aim → s.req.req.opcode.isBarrier = true →
      c.activeBuffer.buffer = [])
    (hstep : ServeStep iface c s events c') (hsound : Sound iface c log)
    (h : BarrierOrder c) : BarrierOrder c' := by
  have hmem := List.mem_of_getElem? hpicked.stands
  have hmoved : ∀ p ∈ c.pendingReads, p.req.isAimBarrier = true →
      ∀ id, ∀ q' ∈ (c'.bufferOf id).buffer, p.seq < q'.seq := by
    intro p hp hbarrier id q' hq'
    rcases serve_mem hstep hpicked.stands id hq' with ⟨q, hq, hsame⟩ | ⟨-, hsame, -⟩
    · rw [hsame.seq]
      exact h.queued p hp hbarrier id q hq
    · rw [hsame.seq]
      exact h.queued p hp hbarrier s.buffer s.req hmem
  refine ⟨?_, h.fifo.sublist (serve_sublist hstep hpicked.stands Queued.seq
    (fun q => (SameRequest.stampIssue _ q).seq) .aim (by simp)), ?_, ?_⟩
  · intro q' hq'
    rcases serve_mem hstep hpicked.stands .priority hq' with ⟨q, hq, hsame⟩ | ⟨hid, -⟩
    · rw [hsame.req]
      exact h.priority q hq
    · cases hid
  · rcases serve_pending hstep with ⟨hreads, -⟩ | ⟨x, hsame, hplace, -⟩
    · rw [hreads]
      exact h.pending
    · rcases hplace with ⟨hreads, -⟩ | ⟨hreads, -⟩
      · rw [hreads]
        refine List.pairwise_append.mpr ⟨h.pending, List.pairwise_singleton .., ?_⟩
        intro p hp q' hq' hbarrier
        rw [List.mem_singleton.mp hq', hsame.seq]
        exact h.queued p hp hbarrier s.buffer s.req hmem
      · rw [hreads]
        exact h.pending
  · intro p hp hbarrier
    cases hstep with
    | barrier hopcode =>
        rcases List.mem_append.mp hp with hp | hp
        · exact hmoved p (by simpa [Queues.removeAt] using hp) hbarrier
        · obtain rfl := List.mem_singleton.mp hp
          intro id q' hq'
          refine h.serveBarrier hpicked hbarrier (fun haim => hactive haim hopcode) hsound id ?_
          cases id <;> exact hq'
    | @issue cmd hopcode hcmd =>
        rcases serve_pending (ServeStep.issue (c := c) hopcode hcmd) with
          ⟨hreads, -⟩ | ⟨x, hsame, hplace, -⟩
        · rw [hreads] at hp
          exact hmoved p hp hbarrier
        · have hcases : p ∈ c.pendingReads ∨ p = x := by
            rcases hplace with ⟨hreads, -⟩ | ⟨hreads, -⟩ <;> rw [hreads] at hp
            · simpa using hp
            · exact .inl hp
          rcases hcases with hp | rfl
          · exact hmoved p hp hbarrier
          · rw [hsame.req, Request.isAimBarrier, hopcode, Bool.and_false] at hbarrier
            cases hbarrier

end BarrierOrder

/-! ## The requests a tick completes -/

namespace AiMDRAMController

omit [DecidableEq Cmd] in
theorem sendRefreshes_complete {c c' : AiMDRAMController Cmd} {ranks : List Nat}
    {events : List (Event Cmd)} {q : Queued Cmd}
    (h : c.sendRefreshes iface params ranks = some (c', events)) : .complete q ∉ events := by
  induction ranks generalizing c events with
  | nil =>
      obtain ⟨-, rfl⟩ := Option.some.inj h
      exact List.not_mem_nil
  | cons rank ranks ih =>
      obtain ⟨⟨ok, c₁, events₁⟩, hfirst, h⟩ := Option.bind_eq_some_iff.mp h
      dsimp only at h
      split at h
      · obtain ⟨⟨c₂, events₂⟩, hrest, heq⟩ := Option.map_eq_some_iff.mp h
        obtain ⟨rfl, rfl⟩ := Prod.mk.inj heq
        obtain ⟨final, -, henqueue⟩ := Option.map_eq_some_iff.mp hfirst
        have hnot : Event.complete q ∉ events₁ := by
          unfold enqueueTo at henqueue
          split at henqueue <;> obtain ⟨-, -, rfl⟩ := henqueue <;> simp
        simp [hnot, ih hrest]
      · cases h

omit [DecidableEq Cmd] in
theorem refreshTick_complete {c c' : AiMDRAMController Cmd} {events : List (Event Cmd)}
    {q : Queued Cmd} (h : c.refreshTick iface params = some (c', events)) :
    .complete q ∉ events := by
  unfold refreshTick at h
  split at h
  · exact sendRefreshes_complete h
  · obtain ⟨-, rfl⟩ := Option.some.inj h
    exact List.not_mem_nil

theorem serveScheduled_complete {c c' : AiMDRAMController Cmd} {dev dev' : Dev}
    {o : Option (Scheduled Cmd)} {events : List (Event Cmd)} {q : Queued Cmd}
    (h : c.serveScheduled iface dev o = some (c', dev', events)) : .complete q ∉ events := by
  cases o with
  | none =>
      rw [serveScheduled] at h
      split at h <;> obtain ⟨-, -, rfl⟩ := Option.some.inj h <;> exact List.not_mem_nil
  | some s =>
      rw [serveScheduled] at h
      split at h
      · obtain ⟨-, -, rfl⟩ := Option.some.inj h
        simp
      · obtain ⟨_, -, heq⟩ := Option.map_eq_some_iff.mp h
        obtain ⟨-, -, rfl⟩ := heq
        simp

omit [DecidableEq Cmd] in
theorem serveCompletedReqs_complete {c : AiMDRAMController Cmd} {q : Queued Cmd}
    (hq : .complete q ∈ c.serveCompletedReqs.2) :
    ∃ rest, c.pendingReads = q :: rest ∧ c.headDone q = true := by
  have hq : Event.complete q ∈ c.serveReads.2 := by
    rcases List.mem_append.mp hq with hq | hq
    · exact hq
    · simp at hq
  unfold serveReads at hq
  split at hq
  · next x rest hreads =>
      split at hq
      · next hdone =>
          obtain rfl : q = x := by simpa using hq
          exact ⟨rest, hreads, hdone⟩
      · simp at hq
  · simp at hq

/-- A tick completes only the head of `pending_reads`, after its departure; a barrier
only once no write is pending. -/
theorem tick_complete {c c' : AiMDRAMController Cmd} {dev dev' : Dev}
    {events : List (Event Cmd)} {q : Queued Cmd}
    (h : c.tick iface params dev = some (c', dev', events)) (hq : .complete q ∈ events) :
    ∃ rest, c.pendingReads = q :: rest ∧ q.depart ≤ c.clk + 1 ∧
      (q.req.opcode.isBarrier = true → c.pendingWrites = []) := by
  obtain ⟨c₁, prepared, c₂, served, hprep, hserved, -, rfl⟩ := tick_stages h
  obtain ⟨⟨c₃, refreshed⟩, hrefreshed, heq⟩ := Option.map_eq_some_iff.mp hprep
  obtain ⟨-, rfl⟩ := Prod.mk.inj heq
  have hq := (List.mem_append.mp hq).resolve_right (serveScheduled_complete hserved)
  have hq := (List.mem_append.mp hq).resolve_right (refreshTick_complete hrefreshed)
  obtain ⟨rest, hreads, hdone⟩ := serveCompletedReqs_complete hq
  simp only [headDone, Bool.and_eq_true, decide_eq_true_eq, Bool.or_eq_true,
    Bool.not_eq_true', List.isEmpty_iff] at hdone
  exact ⟨rest, hreads, hdone.1, fun hbarrier => hdone.2.resolve_left (by simp [hbarrier])⟩

end AiMDRAMController

/-! ## Every guarded run -/

theorem Chan.barrierOrder {dev₀ : Dev} {s : Chan Dev Cmd}
    (hr : Chan.Run iface params dev₀ (BarrierSafe iface params) s) :
    Sound iface s.ctl.toQueues s.log ∧ Conserved s.ctl.toQueues s.log ∧
      BarrierOrder s.ctl.toQueues := by
  refine Chan.invariant NoPriorityBarrier
    (I := fun c log => Sound iface c log ∧ Conserved c log ∧ BarrierOrder c)
    ?_ ?_ ?_ ?_ ?_ ?_ hr
  · exact ⟨.init, .init, fun q hq => (List.not_mem_nil hq).elim, .nil, .nil,
      fun q hq => (List.not_mem_nil hq).elim⟩
  · exact fun c log events c' hstep h => ⟨h.1.queueStep hstep, h.2.1.queueStep hstep,
      h.2.2.queueStep hstep h.1 h.2.1⟩
  · exact fun c rank _ => rfl
  · exact fun s req _ id _ hid h => absurd h hid
  · exact fun s req hg _ => hg
  · intro s c₁ sched hg hnext log events c' h hstep
    have hpicked := AiMDRAMController.nextScheduled_picked iface hnext
    refine ⟨h.1.serveStep hpicked.stands hstep, h.2.1.serveStep hpicked.stands ?_ hstep,
      h.2.2.serveStep hpicked (hg.2 (c₁, sched) hnext) hstep h.1⟩
    rw [AiMDRAMController.nextScheduled_activeBuffer hnext]
    exact hg.1

/-- When a barrier completes, every request accepted before it has been served, has
departed and is finished, and no copy of it is outstanding. -/
theorem barrier_complete {dev₀ : Dev} {s : Chan Dev Cmd}
    (hr : Chan.Run iface params dev₀ (BarrierSafe iface params) s)
    {ctl : AiMDRAMController Cmd} {dev : Dev} {events : List (Event Cmd)} {q : Queued Cmd}
    (htick : s.ctl.tick iface params (iface.tick s.dev) = some (ctl, dev, events))
    (hq : .complete q ∈ events) (hbarrier : q.req.isAimBarrier = true) :
    ∀ x ∈ accepted s.log, x.seq < q.seq →
      Served s.log x ∧
      (∃ x' ∈ finished s.log, x'.key = x.key ∧ x'.depart ≤ s.ctl.clk + 1) ∧
      ∀ x' ∈ s.ctl.outstanding, x'.key ≠ x.key := by
  intro x hx hlt
  obtain ⟨hsound, hconserved, horder⟩ := Chan.barrierOrder hr
  obtain ⟨rest, hreads, -, hwrites⟩ := AiMDRAMController.tick_complete htick hq
  have hopcode : q.req.opcode.isBarrier = true := (Bool.and_eq_true_iff.mp hbarrier).2
  have hgone : ∀ x' ∈ s.ctl.outstanding, x'.key ≠ x.key := by
    intro x' hx' hkey
    have hseq : x'.seq = x.seq := (Prod.mk.inj hkey).1
    have hle : q.seq ≤ x'.seq := by
      rcases Queues.mem_outstanding.mp hx' with hx' | hx' | ⟨id, hx'⟩
      · rw [hreads] at hx'
        rcases List.mem_cons.mp hx' with rfl | hx'
        · exact Nat.le_refl _
        · have hpending := horder.pending
          rw [hreads, List.pairwise_cons] at hpending
          exact Nat.le_of_lt (hpending.1 x' hx' hbarrier)
      · rw [hwrites hopcode] at hx'
        cases hx'
      · exact Nat.le_of_lt (horder.queued q (hreads ▸ List.mem_cons_self ..) hbarrier id x' hx')
    omega
  obtain ⟨x', hkey, hplace⟩ := hconserved.located hx
  have hfinished : x' ∈ finished s.log := hplace.resolve_left fun h => hgone x' h hkey
  have hdepart := hsound.departed x' hfinished
  refine ⟨?_, ⟨x', hfinished, hkey, by omega⟩, hgone⟩
  exact (hsound.served x' (.inr (.inr hfinished))).congr hkey.symm
    (hsound.final_eq hkey (.inr (.inl hfinished)) (.inr (.inr hx))).symm

/-! ## Runs of GDDR6 -/

/-- Whether the next tick completes a barrier with an earlier request that passes a test. -/
def completesAfter (iface : IDRAM Dev Cmd) (params : Params)
    (test : Chan Dev Cmd → Queued Cmd → Bool) (s : Chan Dev Cmd) : Bool :=
  (s.ctl.tick iface params (iface.tick s.dev)).any fun r => r.2.2.any fun
    | .complete q => q.req.isAimBarrier &&
        (accepted s.log).any fun x => decide (x.seq < q.seq) && test s x
    | _ => false

theorem completesAfter_spec {test : Chan Dev Cmd → Queued Cmd → Bool} {s : Chan Dev Cmd}
    (h : completesAfter iface params test s = true) :
    ∃ ctl dev events q x, s.ctl.tick iface params (iface.tick s.dev) = some (ctl, dev, events) ∧
      .complete q ∈ events ∧ q.req.isAimBarrier = true ∧ x ∈ accepted s.log ∧ x.seq < q.seq ∧
        test s x = true := by
  obtain ⟨⟨ctl, dev, events⟩, htick, h⟩ := Option.any_eq_true .. |>.mp h
  obtain ⟨e, he, h⟩ := List.any_eq_true.mp h
  cases e with
  | complete q =>
      obtain ⟨hbarrier, h⟩ := Bool.and_eq_true_iff.mp h
      obtain ⟨x, hx, h⟩ := List.any_eq_true.mp h
      obtain ⟨hlt, htest⟩ := Bool.and_eq_true_iff.mp h
      exact ⟨ctl, dev, events, q, x, htick, he, hbarrier, hx, of_decide_eq_true hlt, htest⟩
  | _ => cases h

def aSync : Request := { type := .AIM, opcode := .ISR_SYNC, callback := .aimReceive }

/-- A SYNC that is sent after the read was served. -/
theorem barrier_complete_read_sync :
    ∃ s : Chan GDDR6.aimModel.Dev GDDR6.Cmd, ∃ q x : Queued GDDR6.Cmd,
      q.req.isAimBarrier = true ∧
      x ∈ accepted s.log ∧ x.seq < q.seq ∧ Served s.log x := by
  have hrun : ((Chan.replay GDDR6.aimModel.idram { channelId := 0 } GDDR6.x16Device
      (fun s op => decide (BarrierSafe GDDR6.aimModel.idram { channelId := 0 } s op))
      (.send aRead :: List.replicate 100 .tick ++ [.send aSync, .tick])).any
        (completesAfter GDDR6.aimModel.idram { channelId := 0 } fun _ _ => true)) = true := by
    decide +kernel
  obtain ⟨s, hs, htest⟩ := Option.any_eq_true .. |>.mp hrun
  obtain ⟨ctl, dev, events, q, x, htick, hq, hbarrier, hx, hlt, -⟩ := completesAfter_spec htest
  exact ⟨s, q, x, hbarrier, hx, hlt, (barrier_complete
    (Chan.replay_run (fun _ _ => of_decide_eq_true) hs) htick hq hbarrier x hx hlt).1⟩

/-- The run in which a barrier overtakes: the bank of the read is being opened, `send`
takes the SYNC, and the SYNC completes while the read stands in the active buffer. -/
theorem barrier_over_active :
    ∃ s, Chan.Run GDDR6.aimModel.idram { channelId := 0 } GDDR6.x16Device
        (fun _ op => op.isPriority = false) s ∧
      ∃ ctl dev events q x,
        s.ctl.tick GDDR6.aimModel.idram { channelId := 0 } (GDDR6.aimModel.idram.tick s.dev) =
          some (ctl, dev, events) ∧
        .complete q ∈ events ∧ q.req.isAimBarrier = true ∧ x ∈ accepted s.log ∧ x.seq < q.seq ∧
        ¬ Served s.log x ∧ ∃ x' ∈ s.ctl.activeBuffer.buffer, x'.key = x.key := by
  have hrun : ((Chan.replay GDDR6.aimModel.idram { channelId := 0 } GDDR6.x16Device
      (fun _ op => !op.isPriority) [.send aRead, .tick, .send aSync, .tick]).any
        (completesAfter GDDR6.aimModel.idram { channelId := 0 } fun s x =>
          !decide (Served s.log x) &&
            s.ctl.activeBuffer.buffer.any fun x' => decide (x'.key = x.key))) = true := by
    decide +kernel
  obtain ⟨s, hs, htest⟩ := Option.any_eq_true .. |>.mp hrun
  obtain ⟨ctl, dev, events, q, x, htick, hq, hbarrier, hx, hlt, h⟩ := completesAfter_spec htest
  obtain ⟨hserved, hactive⟩ := Bool.and_eq_true_iff.mp h
  obtain ⟨x', hx', hkey⟩ := List.any_eq_true.mp hactive
  exact ⟨s, Chan.replay_run (by simp) hs, ctl, dev, events, q, x, htick, hq, hbarrier, hx, hlt,
    by simpa using hserved, x', hx', of_decide_eq_true hkey⟩

end AimSimulator.Controller
