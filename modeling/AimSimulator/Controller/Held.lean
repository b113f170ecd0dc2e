import AimSimulator.Controller.Conservation
/-!
# What a controller holds

A count over the requests that the queues of a controller hold, and what an AiM controller does
to the ones that call the DMA back.  These are AiM reads, so they pass neither through the active
buffer nor through the pending writes, and leave the controller by their callback alone.
-/

namespace AimSimulator.Controller

open Dram

/-! ## Counting the requests that are held -/

section

variable {Cmd : Type}

/-- How many of the requests of a list satisfy `p`. -/
def countReqs (p : Request → Bool) (l : List (Queued Cmd)) : Nat := l.countP fun q => p q.req

def Queues.held (p : Request → Bool) (c : Queues Cmd) : Nat := countReqs p c.outstanding

variable {p : Request → Bool}

@[simp] theorem countReqs_append (l l' : List (Queued Cmd)) :
    countReqs p (l ++ l') = countReqs p l + countReqs p l' := List.countP_append

theorem countReqs_singleton (q : Queued Cmd) : countReqs p [q] = (p q.req).toNat := by
  unfold countReqs
  rw [List.countP_singleton]
  cases p q.req <;> rfl

namespace Queues

theorem held_setBuffer (c : Queues Cmd) (id : BufferId) (b : ReqBuffer Cmd) :
    (c.setBuffer id b).held p + countReqs p (c.bufferOf id).buffer =
      c.held p + countReqs p b.buffer := by
  unfold held
  cases id <;> simp only [outstanding, setBuffer, bufferOf, countReqs_append] <;> omega

theorem held_pending (c : Queues Cmd) (q : Queued Cmd) :
    held p { c with pendingReads := c.pendingReads ++ [q] } = c.held p + (p q.req).toNat := by
  unfold held
  simp only [outstanding, countReqs_append, countReqs_singleton]
  omega

theorem held_removeAt {c : Queues Cmd} {id : BufferId} {i : Nat} {q : Queued Cmd}
    (h : (c.bufferOf id).buffer[i]? = some q) :
    (c.removeAt id i).held p + (p q.req).toNat = c.held p := by
  have hset := c.held_setBuffer (p := p) id ((c.bufferOf id).remove i)
  have herase := Counting.countP_eraseIdx (fun q => p q.req) h
  have hone := countReqs_singleton (p := p) q
  unfold countReqs at hset hone
  unfold removeAt
  have hbuffer : ((c.bufferOf id).remove i).buffer = (c.bufferOf id).buffer.eraseIdx i := rfl
  rw [hbuffer] at hset
  omega

theorem held_activate {c : Queues Cmd} {id : BufferId} {i : Nat} {q : Queued Cmd}
    (h : (c.bufferOf id).buffer[i]? = some q) (q' : Queued Cmd) :
    (removeAt { c with activeBuffer := (c.activeBuffer.enqueue q').getD c.activeBuffer } id i).held p +
        (p q.req).toNat =
      c.held p + if c.activeBuffer.size ≤ c.activeBuffer.maxSize then (p q'.req).toNat else 0 := by
  have hset := c.held_setBuffer (p := p) .active ((c.activeBuffer.enqueue q').getD c.activeBuffer)
  have hbuffer := enqueue_getD_buffer c.activeBuffer q'
  -- it stands at its old place behind the push, which an active request is appended to
  have hstands : (bufferOf { c with
      activeBuffer := (c.activeBuffer.enqueue q').getD c.activeBuffer } id).buffer[i]? = some q := by
    cases id with
    | active =>
        have h : c.activeBuffer.buffer[i]? = some q := h
        show ((c.activeBuffer.enqueue q').getD c.activeBuffer).buffer[i]? = _
        rw [hbuffer]
        split
        · rw [List.getElem?_append_left (List.getElem?_eq_some_iff.mp h).1]
          exact h
        · exact h
    | _ => exact h
  have hpush : held p { c with activeBuffer := (c.activeBuffer.enqueue q').getD c.activeBuffer } =
      c.held p + if c.activeBuffer.size ≤ c.activeBuffer.maxSize then (p q'.req).toNat else 0 := by
    rw [hbuffer] at hset
    have hactive : countReqs p (c.bufferOf .active).buffer = countReqs p c.activeBuffer.buffer := rfl
    have hgoal : held p { c with
        activeBuffer := (c.activeBuffer.enqueue q').getD c.activeBuffer } =
          held p (c.setBuffer .active ((c.activeBuffer.enqueue q').getD c.activeBuffer)) := rfl
    rw [hgoal]
    split at hset
    · next hroom =>
        rw [countReqs_append, countReqs_singleton] at hset
        rw [if_pos hroom]
        omega
    · next hroom =>
        rw [if_neg hroom]
        omega
  rw [← hpush]
  exact held_removeAt hstands

theorem held_set {c : Queues Cmd} {id : BufferId} {i : Nat} {q q' : Queued Cmd}
    (h : (c.bufferOf id).buffer[i]? = some q) (hsame : q'.req = q.req) :
    (c.setBuffer id ((c.bufferOf id).set i q')).held p = c.held p := by
  have hset := c.held_setBuffer (p := p) id ((c.bufferOf id).set i q')
  have hcount : countReqs p ((c.bufferOf id).set i q').buffer = countReqs p (c.bufferOf id).buffer :=
    Counting.countP_set h (by rw [hsame])
  omega

end Queues

end

/-! ## Blocking copies -/

section

variable {Cmd : Type}

def copies (l : List (Queued Cmd)) : List Request :=
  (l.map Queued.req).filter fun req => req.callback = .aimReceive

def completions (log : List (Event Cmd)) : List (Queued Cmd) :=
  log.filterMap fun
    | .complete q => some q
    | _ => none

@[simp] theorem completions_append (log log' : List (Event Cmd)) :
    completions (log ++ log') = completions log ++ completions log' := List.filterMap_append

@[simp] theorem completions_retire (l : List (Queued Cmd)) : completions (l.map .retire) = [] := by
  simp [completions]

theorem copies_append (l l' : List (Queued Cmd)) : copies (l ++ l') = copies l ++ copies l' := by
  unfold copies
  rw [List.map_append, List.filter_append]

theorem countP_copies (l : List (Queued Cmd)) {r : Request} (hr : r.callback = .aimReceive) :
    (copies l).countP (fun req => req = r) = countReqs (fun req => req = r) l := by
  unfold copies
  rw [List.countP_filter, List.countP_map]
  refine List.countP_congr fun q _ => ?_
  simp only [Function.comp_apply, Bool.and_eq_true, decide_eq_true_eq]
  exact ⟨And.left, fun hq => ⟨hq, hq ▸ hr⟩⟩

theorem callback_of_mem_copies {l : List (Queued Cmd)} {req : Request} (h : req ∈ copies l) :
    req.callback = .aimReceive :=
  of_decide_eq_true (List.mem_filter.mp h).2

theorem copies_perm {l : List (Queued Cmd)} {reqs : List Request}
    (hreqs : ∀ req ∈ reqs, req.callback = .aimReceive)
    (h : ∀ r : Request, r.callback = .aimReceive →
      countReqs (fun req => req = r) l = reqs.countP fun req => req = r) :
    (copies l).Perm reqs := by
  rw [List.perm_iff_count]
  intro r
  by_cases hr : r.callback = .aimReceive
  · have hcount := countP_copies l hr
    rw [h r hr] at hcount
    rw [List.count_eq_countP, List.count_eq_countP]
    exact hcount
  · have hnot : r ∉ copies l := by simp [copies, hr]
    rw [List.count_eq_zero_of_not_mem fun hmem => hr (hreqs r hmem),
      List.count_eq_zero_of_not_mem hnot]

theorem copies_add {l l' : List (Queued Cmd)} {req : Request} {ok : Bool}
    (h : ∀ p : Request → Bool, countReqs p l' = countReqs p l + (ok && p req).toNat) :
    (copies l').Perm (copies l ++ if ok && req.callback == .aimReceive then [req] else []) := by
  refine copies_perm (fun r hr => ?_) fun r hr => ?_
  · rcases List.mem_append.mp hr with hr | hr
    · exact callback_of_mem_copies hr
    · split at hr
      · next hback =>
          rw [List.mem_singleton.mp hr]
          exact eq_of_beq (Bool.and_eq_true_iff.mp hback).2
      · cases hr
  · rw [h, List.countP_append, countP_copies l hr]
    by_cases hreq : req = r
    · subst hreq
      cases ok <;> simp [hr]
    · split <;> simp [hreq]

end

def ReadsBack (req : Request) : Prop :=
  req.callback = .aimReceive → req.type = .AIM ∧ req.isReader = true

/-- What calls back among the requests of a controller reads, and is no pending write. -/
structure Returning {Cmd : Type} (c : Queues Cmd) : Prop where
  reads : ∀ q ∈ c.outstanding, ReadsBack q.req
  writes : ∀ q ∈ c.pendingWrites, q.req.callback ≠ .aimReceive

section Steps

variable {Dev Cmd : Type} [DecidableEq Cmd] {iface : IDRAM Dev Cmd} {c c' : Queues Cmd}
  {s : Scheduled Cmd} {events : List (Event Cmd)} {p : Request → Bool}

namespace Returning

omit [DecidableEq Cmd] in
theorem init : Returning ({} : Queues Cmd) := by
  refine ⟨fun q hq => ?_, fun q hq => by cases hq⟩
  rcases Queues.mem_outstanding.mp hq with hq | hq | ⟨id, hq⟩
  · cases hq
  · cases hq
  · cases id <;> cases hq

omit [DecidableEq Cmd] in
theorem queueStep {admits : Request → Prop} (hadmits : ∀ req, admits req → ReadsBack req)
    (hstep : QueueStep iface (fun _ _ => admits) c events c') (h : Returning c) :
    Returning c' := by
  refine ⟨fun q hq => ?_, fun q hq => ?_⟩
  · rcases hstep.outstanding hq with hq | ⟨-, -, hq⟩
    · exact h.reads q hq
    · exact hadmits _ hq
  · refine h.writes q ?_
    cases hstep with
    | @accept id _ _ _ _ hgate _ =>
        have hpush := Queues.setBuffer_pendingWrites c id
        cases hgate <;> exact hq
    | retire => exact (List.mem_filter.mp hq).1
    | _ => exact hq

theorem serveStep (hs : (c.bufferOf s.buffer).buffer[s.index]? = some s.req)
    (hstep : ServeStep iface c s events c') (h : Returning c) : Returning c' := by
  have hstands : s.req ∈ c.outstanding :=
    Queues.mem_outstanding.mpr (.inr (.inr ⟨s.buffer, List.mem_of_getElem? hs⟩))
  refine ⟨fun q hq => ?_, fun q hq => ?_⟩
  · obtain ⟨q₀, hq₀, hsame⟩ := serve_outstanding hstep hs hq
    rw [hsame.req]
    exact h.reads q₀ hq₀
  · cases hstep with
    | barrier _ =>
        refine h.writes q ?_
        simpa [AiMDRAMController.serveBarrier, Queues.removeAt] using hq
    | issue _ _ =>
        have hsame := SameRequest.stampIssue c s.req
        unfold AiMDRAMController.moveIssued at hq
        split at hq
        · dsimp only at hq
          split at hq
          · exact h.writes q (by simpa [Queues.removeAt] using hq)
          · next hreader =>
              -- a request that calls back reads
              have hq : q ∈ c.pendingWrites ∨ q.req = s.req.req := by
                rcases List.mem_append.mp hq with hq | hq
                · exact .inl (by simpa [Queues.removeAt] using hq)
                · rw [List.mem_singleton.mp hq]
                  exact .inr hsame.req
              rcases hq with hq | hq
              · exact h.writes q hq
              · intro hcallback
                rw [hsame.req] at hreader
                exact hreader (h.reads _ hstands (hq ▸ hcallback)).2
        · split at hq
          · exact h.writes q (by simpa [Queues.removeAt] using hq)
          · exact h.writes q (by simpa using hq)

end Returning

omit [DecidableEq Cmd] in
theorem Queues.held_push (c : Queues Cmd) (id : BufferId) (q : Queued Cmd) (n : Nat) :
    held p { c.push id q with nextSeq := n } = c.held p + (p q.req).toNat := by
  have hset := c.held_setBuffer (p := p) id ⟨(c.bufferOf id).buffer ++ [q], (c.bufferOf id).maxSize⟩
  rw [countReqs_append, countReqs_singleton] at hset
  show (c.push id q).held p = _
  unfold push
  omega

omit [DecidableEq Cmd] in
theorem countReqs_eq_zero {l : List (Queued Cmd)} (h : ∀ q ∈ l, p q.req = false) :
    countReqs p l = 0 :=
  List.countP_eq_zero.mpr fun q hq => Bool.eq_false_iff.mp (h q hq)

omit [DecidableEq Cmd] in
theorem queueStep_held {admits : Request → Prop} (hadmits : ∀ req, admits req → p req = false)
    (hcalls : ∀ req, p req = true → req.callback = .aimReceive)
    (hstep : QueueStep iface (fun _ _ => admits) c events c') (h : Returning c) :
    c'.held p + countReqs p (completions events) = c.held p := by
  cases hstep with
  | clock => rfl
  | @accept id q _ _ hreq _ _ =>
      have hpush := c.held_push (p := p) id q (c.nextSeq + 1)
      rw [hadmits _ hreq] at hpush
      exact hpush
  | @forward q _ _ _ hreq _ _ _ _ _ =>
      have hpending := c.held_pending (p := p) q
      rw [hadmits _ hreq] at hpending
      exact hpending
  | @complete q rest hreads _ _ =>
      have hcons : countReqs p (q :: rest) = countReqs p [q] + countReqs p rest :=
        countReqs_append [q] rest
      show Queues.held p { c with pendingReads := rest } + countReqs p [q] = _
      unfold Queues.held
      simp only [Queues.outstanding, hreads, countReqs_append]
      omega
  | retire =>
      have hwrites : ∀ l : List (Queued Cmd), l ⊆ c.pendingWrites → countReqs p l = 0 :=
        fun l hl => countReqs_eq_zero fun q hq =>
          Bool.eq_false_iff.mpr fun hp => h.writes q (hl hq) (hcalls _ hp)
      have hfilter := hwrites (c.pendingWrites.filter fun q => c.clk < q.depart)
        fun q hq => (List.mem_filter.mp hq).1
      rw [completions_retire]
      unfold Queues.held
      simp only [Queues.outstanding, countReqs_append, hfilter, hwrites _ (List.Subset.refl _)]
      rfl

theorem serveStep_held (hcalls : ∀ req, p req = true → req.callback = .aimReceive)
    (hs : (c.bufferOf s.buffer).buffer[s.index]? = some s.req)
    (hstep : ServeStep iface c s events c') (h : Returning c) :
    c'.held p + countReqs p (completions events) = c.held p := by
  have hremove := Queues.held_removeAt (p := p) hs
  have hreads : p s.req.req = true → s.req.req.type = .AIM ∧ s.req.req.isReader = true :=
    fun hp => h.reads _ (Queues.mem_outstanding.mpr
      (.inr (.inr ⟨s.buffer, List.mem_of_getElem? hs⟩))) (hcalls _ hp)
  cases hstep with
  | barrier _ =>
      exact ((c.removeAt s.buffer s.index).held_pending { s.req with depart := c.clk }).trans hremove
  | @issue cmd _ _ =>
      have hsame := (SameRequest.stampIssue c s.req).req
      show Queues.held p (AiMDRAMController.moveIssued iface c s
        (AiMDRAMController.stampIssue c s.req) cmd) = c.held p
      unfold AiMDRAMController.moveIssued
      split
      · dsimp only
        split
        · rw [Queues.held_pending]
          dsimp only
          rw [hsame]
          exact hremove
        · next hreader =>
            rw [hsame] at hreader
            rw [Bool.eq_false_iff.mpr fun hp => hreader (hreads hp).2] at hremove
            refine Eq.trans ?_ hremove
            have hp : p (AiMDRAMController.stampIssue c s.req).req = false := by
              rw [hsame]
              exact Bool.eq_false_iff.mpr fun hp => hreader (hreads hp).2
            unfold Queues.held
            simp only [Queues.outstanding, countReqs_append, countReqs_singleton, hp]
            rfl
      · split
        · next hopen =>
            rw [hsame] at hopen
            have hp : p s.req.req = false :=
              Bool.eq_false_iff.mpr fun hp => hopen.1 (hreads hp).1
            -- what opens a row is no AiM request, so it does not count, kept or dropped
            have hmoved := Queues.held_activate (p := p) hs (AiMDRAMController.stampIssue c s.req)
            rw [hsame, hp] at hmoved
            simpa using hmoved
        · exact Queues.held_set hs hsame

end Steps

/-! ## The calls of an AiM controller -/

namespace AiMDRAMController

variable {Dev Cmd : Type} {iface : IDRAM Dev Cmd} {params : Params} {c c' : AiMDRAMController Cmd}
  {dev dev' : Dev} {events : List (Event Cmd)} {p : Request → Bool} {req : Request} {ok : Bool}

theorem enqueueTo_held {id : BufferId} {q : Queued Cmd} (h : c.enqueueTo id q = (ok, c', events)) :
    c'.held p = c.held p + (ok && p q.req).toNat := by
  unfold enqueueTo at h
  split at h
  · next b hroom =>
      obtain ⟨rfl, rfl, -⟩ := h
      have hbuffer : b = ⟨(c.bufferOf id).buffer ++ [q], (c.bufferOf id).maxSize⟩ := by
        unfold ReqBuffer.enqueue at hroom
        split at hroom
        · exact (Option.some.inj hroom).symm
        · cases hroom
      rw [hbuffer, Bool.true_and]
      exact c.held_push id q (c.nextSeq + 1)
  · obtain ⟨rfl, rfl, -⟩ := h
    rfl

theorem send_held (h : c.send iface req = some (ok, c', events)) :
    c'.held p = c.held p + (ok && p req).toNat := by
  unfold send at h
  split at h
  · split at h
    · obtain ⟨rfl, rfl, -⟩ := Option.some.inj h
      rfl
    · obtain ⟨final, -, h⟩ := Option.map_eq_some_iff.mp h
      exact enqueueTo_held h
  · split at h
    · obtain ⟨rfl, rfl, -⟩ := Option.some.inj h
      rfl
    · obtain ⟨final, -, h⟩ := Option.bind_eq_some_iff.mp h
      split at h
      · split at h
        · obtain ⟨rfl, rfl, -⟩ := Option.some.inj h
          rw [Bool.true_and]
          exact c.held_pending { req, finalCommand := final, depart := c.clk + 1, seq := c.nextSeq }
        · exact enqueueTo_held (Option.some.inj h)
      · exact enqueueTo_held (Option.some.inj h)
      · cases h

theorem prioritySend_held (h : c.prioritySend iface req = some (ok, c', events)) :
    c'.held p = c.held p + (ok && p req).toNat := by
  obtain ⟨final, -, h⟩ := Option.map_eq_some_iff.mp h
  exact enqueueTo_held h

theorem send_returning (hreq : ReadsBack req) (h : c.send iface req = some (ok, c', events))
    (hc : Returning c.toQueues) : Returning c'.toQueues := by
  rcases @send_step _ _ iface (fun _ _ => ReadsBack) _ _ _ _ _ (fun _ _ _ => hreq) h with
    ⟨rfl, -⟩ | hstep
  · exact hc
  · exact hc.queueStep (fun _ => id) hstep

theorem prioritySend_returning (hreq : ReadsBack req)
    (h : c.prioritySend iface req = some (ok, c', events)) (hc : Returning c.toQueues) :
    Returning c'.toQueues := by
  rcases @prioritySend_step _ _ iface (fun _ _ => ReadsBack) _ _ _ _ _ hreq h with
    ⟨rfl, -⟩ | hstep
  · exact hc
  · exact hc.queueStep (fun _ => id) hstep

variable [DecidableEq Cmd]

theorem tick_copies (h : c.tick iface params dev = some (c', dev', events))
    (hc : Returning c.toQueues) :
    Returning c'.toQueues ∧
      (copies (c'.outstanding ++ completions events)).Perm (copies c.outstanding) := by
  suffices hmain : Returning c'.toQueues ∧
      ∀ p : Request → Bool, (∀ req, p req = true → req.callback = .aimReceive) →
        c'.held p + countReqs p (completions ([] ++ events)) = c.held p by
    refine ⟨hmain.1, copies_perm ?_ ?_⟩
    · exact fun req hreq => callback_of_mem_copies hreq
    · intro r hr
      have hheld := hmain.2 (fun req => req = r) fun req hreq => of_decide_eq_true hreq ▸ hr
      rw [countReqs_append]
      exact hheld.trans (countP_copies _ hr).symm
  refine @tick_induct _ _ _ iface params (fun _ _ req => req.callback ≠ .aimReceive)
    (fun q log => Returning q ∧
      ∀ p : Request → Bool, (∀ req, p req = true → req.callback = .aimReceive) →
        q.held p + countReqs p (completions log) = c.held p)
    ?_ c c' dev dev' [] events (fun _ _ _ _ => Callback.noConfusion) ?_ h ⟨hc, fun _ _ => rfl⟩
  · rintro q log events q' hstep ⟨hq, hheld⟩
    refine ⟨hq.queueStep (fun _ hne h => absurd h hne) hstep, fun p hp => ?_⟩
    have hmoved := queueStep_held (fun req hne => Bool.eq_false_iff.mpr fun h => hne (hp req h)) hp
      hstep hq
    rw [completions_append, countReqs_append, Nat.add_comm (countReqs _ _), ← Nat.add_assoc, hmoved]
    exact hheld p hp
  · rintro c₁ s hnext log events q' ⟨hq, hheld⟩ hstep
    have hs := (nextScheduled_picked iface hnext).stands
    refine ⟨hq.serveStep hs hstep, fun p hp => ?_⟩
    have hmoved := serveStep_held hp hs hstep hq
    rw [completions_append, countReqs_append, Nat.add_comm (countReqs _ _), ← Nat.add_assoc, hmoved]
    exact hheld p hp

end AiMDRAMController

end AimSimulator.Controller
