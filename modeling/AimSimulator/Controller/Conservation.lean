import AimSimulator.Lib.Counting
import AimSimulator.Controller.Run
/-!
# What every run keeps

`Sound` collects what holds of the queues and the log in every run: which requests stand
in which buffer, that what is pending or finished has been served, and that the accepted
requests are numbered in order.  `Conserved` counts every accepted request exactly once
among the queues and the finished requests; it needs room in the active buffer, whose
enqueue result the source ignores.
-/

namespace AimSimulator.Controller

open Dram

variable {Dev Cmd : Type} [DecidableEq Cmd] {iface : IDRAM Dev Cmd}
  {admits : Queues Cmd → BufferId → Request → Prop}

/-- What identifies an accepted request through all its copies. -/
def Queued.key (q : Queued Cmd) : Nat × Request := (q.seq, q.req)

def accepted (log : List (Event Cmd)) : List (Queued Cmd) :=
  log.filterMap fun
    | .accept q => some q
    | _ => none

def finished (log : List (Event Cmd)) : List (Queued Cmd) :=
  log.filterMap fun
    | .complete q => some q
    | .retire q => some q
    | _ => none

def Queues.outstanding (c : Queues Cmd) : List (Queued Cmd) :=
  c.pendingReads ++ c.pendingWrites ++ c.activeBuffer.buffer ++ c.priorityBuffer.buffer ++
    c.readBuffer.buffer ++ c.writeBuffer.buffer ++ c.aimBuffer.buffer

def tally (k : Nat × Request) (l : List (Queued Cmd)) : Nat := l.countP fun q => q.key = k

section Log

omit [DecidableEq Cmd]

@[simp] theorem accepted_append (log log' : List (Event Cmd)) :
    accepted (log ++ log') = accepted log ++ accepted log' := List.filterMap_append

theorem mem_accepted {log : List (Event Cmd)} {q : Queued Cmd} :
    q ∈ accepted log ↔ .accept q ∈ log := by
  rw [accepted, List.mem_filterMap]
  constructor
  · rintro ⟨event, hevent, heq⟩
    cases event <;> simp only [reduceCtorEq, Option.some.injEq] at heq
    rw [← heq]
    exact hevent
  · exact fun h => ⟨_, h, rfl⟩

@[simp] theorem finished_append (log log' : List (Event Cmd)) :
    finished (log ++ log') = finished log ++ finished log' := List.filterMap_append

@[simp] theorem accepted_retire (l : List (Queued Cmd)) : accepted (l.map .retire) = [] := by
  simp [accepted]

@[simp] theorem finished_retire (l : List (Queued Cmd)) : finished (l.map .retire) = l := by
  rw [finished, List.filterMap_map]
  exact List.filterMap_some

@[simp] theorem tally_append (k : Nat × Request) (l l' : List (Queued Cmd)) :
    tally k (l ++ l') = tally k l + tally k l' := List.countP_append

@[simp] theorem tally_nil (k : Nat × Request) : tally k ([] : List (Queued Cmd)) = 0 := rfl

theorem tally_singleton_congr {k : Nat × Request} {q q' : Queued Cmd} (h : q.key = q'.key) :
    tally k [q] = tally k [q'] := by
  simp [tally, List.countP_cons, h]

@[simp] theorem tally_depart (k : Nat × Request) (q : Queued Cmd) (depart : Int) :
    tally k [{ q with depart }] = tally k [q] := tally_singleton_congr rfl

theorem tally_removeAt {k : Nat × Request} {l : List (Queued Cmd)} {i : Nat} {q : Queued Cmd}
    (h : l[i]? = some q) : tally k (l.eraseIdx i) + tally k [q] = tally k l :=
  Counting.countP_eraseIdx _ h

end Log

/-! ## The buffers after an edit -/

namespace Queues

omit [DecidableEq Cmd]

@[simp] theorem bufferOf_setBuffer (c : Queues Cmd) (id id' : BufferId) (b : ReqBuffer Cmd) :
    (c.setBuffer id b).bufferOf id' = if id' = id then b else c.bufferOf id' := by
  cases id <;> cases id' <;> rfl

@[simp] theorem setBuffer_clk (c : Queues Cmd) (id : BufferId) (b : ReqBuffer Cmd) :
    (c.setBuffer id b).clk = c.clk := by cases id <;> rfl

@[simp] theorem setBuffer_pendingReads (c : Queues Cmd) (id : BufferId) (b : ReqBuffer Cmd) :
    (c.setBuffer id b).pendingReads = c.pendingReads := by cases id <;> rfl

@[simp] theorem setBuffer_pendingWrites (c : Queues Cmd) (id : BufferId) (b : ReqBuffer Cmd) :
    (c.setBuffer id b).pendingWrites = c.pendingWrites := by cases id <;> rfl

@[simp] theorem setBuffer_nextSeq (c : Queues Cmd) (id : BufferId) (b : ReqBuffer Cmd) :
    (c.setBuffer id b).nextSeq = c.nextSeq := by cases id <;> rfl

theorem tally_setBuffer (k : Nat × Request) (c : Queues Cmd) (id : BufferId)
    (b : ReqBuffer Cmd) :
    tally k (c.setBuffer id b).outstanding + tally k (c.bufferOf id).buffer =
      tally k c.outstanding + tally k b.buffer := by
  cases id <;> simp only [outstanding, setBuffer, bufferOf, tally_append] <;> omega

theorem tally_push (k : Nat × Request) (c : Queues Cmd) (id : BufferId) (q : Queued Cmd) :
    tally k (c.push id q).outstanding = tally k c.outstanding + tally k [q] := by
  have h := c.tally_setBuffer k id ⟨(c.bufferOf id).buffer ++ [q], (c.bufferOf id).maxSize⟩
  rw [tally_append] at h
  rw [push]
  omega

theorem mem_outstanding {c : Queues Cmd} {q : Queued Cmd} :
    q ∈ c.outstanding ↔ q ∈ c.pendingReads ∨ q ∈ c.pendingWrites ∨
      ∃ id, q ∈ (c.bufferOf id).buffer := by
  constructor
  · intro h
    simp only [outstanding, List.mem_append] at h
    rcases h with (((((h | h) | h) | h) | h) | h) | h
    · exact .inl h
    · exact .inr (.inl h)
    · exact .inr (.inr ⟨.active, h⟩)
    · exact .inr (.inr ⟨.priority, h⟩)
    · exact .inr (.inr ⟨.read, h⟩)
    · exact .inr (.inr ⟨.write, h⟩)
    · exact .inr (.inr ⟨.aim, h⟩)
  · rintro (h | h | ⟨id, h⟩)
    · simp [outstanding, h]
    · simp [outstanding, h]
    · cases id <;> simp only [bufferOf] at h <;> simp [outstanding, h]

end Queues

/-- Two copies of one request, up to the clocks of its last issue and departure. -/
structure SameRequest (q q' : Queued Cmd) : Prop where
  req : q'.req = q.req
  finalCommand : q'.finalCommand = q.finalCommand
  seq : q'.seq = q.seq

namespace SameRequest

omit [DecidableEq Cmd]

theorem refl (q : Queued Cmd) : SameRequest q q := ⟨rfl, rfl, rfl⟩

theorem key {q q' : Queued Cmd} (h : SameRequest q q') : q'.key = q.key := by
  rw [Queued.key, Queued.key, h.req, h.seq]

theorem stampIssue (c : Queues Cmd) (q : Queued Cmd) :
    SameRequest q (AiMDRAMController.stampIssue c q) := by
  unfold AiMDRAMController.stampIssue
  split
  · exact ⟨rfl, rfl, rfl⟩
  · exact refl q

end SameRequest

section Serve

variable {c c' : Queues Cmd} {s : Scheduled Cmd} {events : List (Event Cmd)}

omit [DecidableEq Cmd] in
theorem mem_removeAt {id id' : BufferId} {i : Nat} {q : Queued Cmd}
    (h : q ∈ ((c.removeAt id' i).bufferOf id).buffer) : q ∈ (c.bufferOf id).buffer := by
  rw [Queues.removeAt, Queues.bufferOf_setBuffer] at h
  split at h
  · next heq =>
      rw [heq]
      exact Counting.mem_of_mem_eraseIdx h
  · exact h

omit [DecidableEq Cmd] in
theorem tally_removeAt_outstanding {k : Nat × Request}
    (h : (c.bufferOf s.buffer).buffer[s.index]? = some s.req) :
    tally k (c.removeAt s.buffer s.index).outstanding + tally k [s.req] =
      tally k c.outstanding := by
  have h₁ := c.tally_setBuffer k s.buffer ((c.bufferOf s.buffer).remove s.index)
  have h₂ := tally_removeAt (k := k) h
  rw [Queues.removeAt]
  simp only [ReqBuffer.remove] at h₁ h₂ ⊢
  omega

omit [DecidableEq Cmd] in
theorem enqueue_getD_buffer (b : ReqBuffer Cmd) (q : Queued Cmd) :
    ((b.enqueue q).getD b).buffer = if b.size ≤ b.maxSize then b.buffer ++ [q] else b.buffer := by
  unfold ReqBuffer.enqueue
  split <;> rfl

theorem serve_mem (h : ServeStep iface c s events c')
    (hs : (c.bufferOf s.buffer).buffer[s.index]? = some s.req) {q' : Queued Cmd} (id : BufferId)
    (hq' : q' ∈ (c'.bufferOf id).buffer) :
    (∃ q ∈ (c.bufferOf id).buffer, SameRequest q q') ∨
      (id = .active ∧ SameRequest s.req q' ∧ s.req.req.type ≠ .AIM) := by
  have hmem : s.req ∈ (c.bufferOf s.buffer).buffer := List.mem_of_getElem? hs
  cases h with
  | barrier _ =>
      have hq' : q' ∈ ((c.removeAt s.buffer s.index).bufferOf id).buffer := by
        cases id <;> exact hq'
      exact .inl ⟨q', mem_removeAt hq', .refl q'⟩
  | @issue cmd _ _ =>
      have hsame := SameRequest.stampIssue c s.req
      unfold AiMDRAMController.moveIssued at hq'
      split at hq'
      · have hq' : q' ∈ ((c.removeAt s.buffer s.index).bufferOf id).buffer := by
          dsimp only at hq'
          split at hq' <;> cases id <;> exact hq'
        exact .inl ⟨q', mem_removeAt hq', .refl q'⟩
      · split at hq'
        · next hopen =>
            have hq' := mem_removeAt hq'
            by_cases hid : id = .active
            · subst hid
              have hq' : q' ∈ ((c.activeBuffer.enqueue
                  (AiMDRAMController.stampIssue c s.req)).getD c.activeBuffer).buffer := hq'
              rw [enqueue_getD_buffer] at hq'
              split at hq'
              · rcases List.mem_append.mp hq' with hq' | hq'
                · exact .inl ⟨q', hq', .refl q'⟩
                · obtain rfl := List.mem_singleton.mp hq'
                  rw [hsame.req] at hopen
                  exact .inr ⟨rfl, hsame, hopen.1⟩
              · exact .inl ⟨q', hq', .refl q'⟩
            · have hq' : q' ∈ (c.bufferOf id).buffer := by
                cases id <;> first | exact absurd rfl hid | exact hq'
              exact .inl ⟨q', hq', .refl q'⟩
        · rw [Queues.bufferOf_setBuffer] at hq'
          split at hq'
          · next hid =>
              subst hid
              rcases List.mem_or_eq_of_mem_set hq' with hq' | rfl
              · exact .inl ⟨q', hq', .refl q'⟩
              · exact .inl ⟨s.req, hmem, hsame⟩
          · exact .inl ⟨q', hq', .refl q'⟩

theorem serve_sublist {β : Type} (h : ServeStep iface c s events c')
    (hs : (c.bufferOf s.buffer).buffer[s.index]? = some s.req) (f : Queued Cmd → β)
    (hf : ∀ q, f (AiMDRAMController.stampIssue c q) = f q) (id : BufferId)
    (hid : id ≠ .active) :
    ((c'.bufferOf id).buffer.map f).Sublist ((c.bufferOf id).buffer.map f) := by
  have hremove : (((c.removeAt s.buffer s.index).bufferOf id).buffer.map f).Sublist
      ((c.bufferOf id).buffer.map f) := by
    rw [Queues.removeAt, Queues.bufferOf_setBuffer]
    split
    · next heq =>
        rw [heq]
        exact (List.eraseIdx_sublist ..).map _
    · exact List.Sublist.refl _
  cases h with
  | barrier _ =>
      have hbuf : (AiMDRAMController.serveBarrier c s).bufferOf id =
          (c.removeAt s.buffer s.index).bufferOf id := by cases id <;> rfl
      rw [hbuf]
      exact hremove
  | @issue cmd _ _ =>
      unfold AiMDRAMController.moveIssued
      split
      · dsimp only
        have hbuf : ∀ reads writes, ({ c.removeAt s.buffer s.index with
            pendingReads := reads, pendingWrites := writes } : Queues Cmd).bufferOf id =
              (c.removeAt s.buffer s.index).bufferOf id := by cases id <;> exact fun _ _ => rfl
        split
        · exact (hbuf _ (c.removeAt s.buffer s.index).pendingWrites) ▸ hremove
        · exact (hbuf (c.removeAt s.buffer s.index).pendingReads _) ▸ hremove
      · split
        · generalize ((c.activeBuffer.enqueue (AiMDRAMController.stampIssue c s.req)).getD
            c.activeBuffer) = b
          have hbuf : (({ c with activeBuffer := b } : Queues Cmd).removeAt s.buffer
              s.index).bufferOf id = (c.removeAt s.buffer s.index).bufferOf id := by
            cases id with
            | active => exact absurd rfl hid
            | _ => cases hb : s.buffer <;> rfl
          dsimp only
          rw [hbuf]
          exact hremove
        · rw [Queues.bufferOf_setBuffer]
          split
          · next heq =>
              subst heq
              obtain ⟨hi, hget⟩ := List.getElem?_eq_some_iff.mp hs
              have hmap : (((c.bufferOf s.buffer).set s.index
                  (AiMDRAMController.stampIssue c s.req)).buffer.map f) =
                    (c.bufferOf s.buffer).buffer.map f := by
                rw [ReqBuffer.set, List.map_set, hf, ← hget,
                  ← List.getElem_map f (h := by simpa using hi), List.set_getElem_self]
              simp only [hmap, List.Sublist.refl]
          · exact List.Sublist.refl _

/-- A serving step appends at most the served request to the pending requests, after
its barrier or its last command. -/
theorem serve_pending (h : ServeStep iface c s events c') :
    (c'.pendingReads = c.pendingReads ∧ c'.pendingWrites = c.pendingWrites) ∨
      ∃ q', SameRequest s.req q' ∧
        ((c'.pendingReads = c.pendingReads ++ [q'] ∧ c'.pendingWrites = c.pendingWrites) ∨
          (c'.pendingReads = c.pendingReads ∧ c'.pendingWrites = c.pendingWrites ++ [q'])) ∧
        ((s.req.req.opcode.isBarrier = true ∧ .barrier q' ∈ events) ∨
          (.issue (AiMDRAMController.stampIssue c s.req) s.req.finalCommand ∈ events)) := by
  cases h with
  | barrier hbarrier =>
      refine .inr ⟨{ s.req with depart := c.clk }, ⟨rfl, rfl, rfl⟩, .inl ⟨?_, ?_⟩, .inl ?_⟩
      · simp [AiMDRAMController.serveBarrier, Queues.removeAt]
      · simp [AiMDRAMController.serveBarrier, Queues.removeAt]
      · exact ⟨hbarrier, List.mem_singleton.mpr rfl⟩
  | @issue cmd _ _ =>
      have hsame := SameRequest.stampIssue c s.req
      unfold AiMDRAMController.moveIssued
      split
      · next hfinal =>
          refine .inr ⟨{ AiMDRAMController.stampIssue c s.req with
            depart := c.clk + iface.commandLatencies cmd },
            ⟨hsame.req, hsame.finalCommand, hsame.seq⟩, ?_, .inr ?_⟩
          · dsimp only
            split
            · exact .inl ⟨by simp [Queues.removeAt], by simp [Queues.removeAt]⟩
            · exact .inr ⟨by simp [Queues.removeAt], by simp [Queues.removeAt]⟩
          · rw [hfinal, hsame.finalCommand]
            exact List.mem_singleton.mpr rfl
      · split
        · exact .inl ⟨by simp [Queues.removeAt], by simp [Queues.removeAt]⟩
        · exact .inl ⟨by simp, by simp⟩

theorem serve_counters (h : ServeStep iface c s events c') :
    c'.clk = c.clk ∧ c'.nextSeq = c.nextSeq := by
  cases h with
  | barrier _ => simp [AiMDRAMController.serveBarrier, Queues.removeAt]
  | issue _ _ =>
      unfold AiMDRAMController.moveIssued
      dsimp only
      split
      · split <;> simp [Queues.removeAt]
      · split <;> simp [Queues.removeAt]

theorem serve_clk (h : ServeStep iface c s events c') : c'.clk = c.clk := (serve_counters h).1

theorem serve_nextSeq (h : ServeStep iface c s events c') : c'.nextSeq = c.nextSeq :=
  (serve_counters h).2

theorem serve_log (h : ServeStep iface c s events c') :
    accepted events = [] ∧ finished events = [] := by
  cases h <;> exact ⟨rfl, rfl⟩

theorem serve_tally (h : ServeStep iface c s events c')
    (hs : (c.bufferOf s.buffer).buffer[s.index]? = some s.req)
    (hroom : c.activeBuffer.size ≤ c.activeBuffer.maxSize) (k : Nat × Request) :
    tally k c'.outstanding = tally k c.outstanding := by
  have hsame := SameRequest.stampIssue c s.req
  have hremove := tally_removeAt_outstanding (k := k) hs
  have hone : tally k [AiMDRAMController.stampIssue c s.req] = tally k [s.req] :=
    tally_singleton_congr hsame.key
  cases h with
  | barrier _ =>
      have hb := tally_depart k s.req c.clk
      simp only [Queues.outstanding, AiMDRAMController.serveBarrier, tally_append] at hremove ⊢
      omega
  | @issue cmd _ _ =>
      unfold AiMDRAMController.moveIssued
      split
      · have hd := tally_depart k (AiMDRAMController.stampIssue c s.req)
          (c.clk + iface.commandLatencies cmd)
        dsimp only
        split <;> simp only [Queues.outstanding, tally_append] at hremove ⊢ <;> omega
      · split
        · -- the request is appended to the active buffer before it is removed
          have hactive : (((c.activeBuffer.enqueue (AiMDRAMController.stampIssue c s.req)).getD
              c.activeBuffer)).buffer =
                c.activeBuffer.buffer ++ [AiMDRAMController.stampIssue c s.req] := by
            rw [enqueue_getD_buffer, if_pos hroom]
          generalize hc₁ : ({ c with activeBuffer := (c.activeBuffer.enqueue
            (AiMDRAMController.stampIssue c s.req)).getD c.activeBuffer } : Queues Cmd) = c₁
          have hs₁ : (c₁.bufferOf s.buffer).buffer[s.index]? = some s.req := by
            rw [← hc₁]
            cases hid : s.buffer <;> rw [hid] at hs
            case active =>
              simp only [Queues.bufferOf, hactive] at hs ⊢
              rw [List.getElem?_append_left (List.getElem?_eq_some_iff.mp hs).1]
              exact hs
            all_goals exact hs
          have hremove₁ := tally_removeAt_outstanding (k := k) hs₁
          have hgrow : tally k c₁.outstanding =
              tally k c.outstanding + tally k [AiMDRAMController.stampIssue c s.req] := by
            rw [← hc₁]
            simp only [Queues.outstanding, hactive, tally_append]
            omega
          dsimp only
          omega
        · have h₁ := c.tally_setBuffer k s.buffer
            ((c.bufferOf s.buffer).set s.index (AiMDRAMController.stampIssue c s.req))
          have h₂ : tally k ((c.bufferOf s.buffer).set s.index
              (AiMDRAMController.stampIssue c s.req)).buffer =
                tally k (c.bufferOf s.buffer).buffer :=
            Counting.countP_set hs (by rw [hsame.key])
          omega

end Serve

/-! ## The invariant of the queues -/

def Placed (req : Request) : BufferId → Prop
  | .active => req.type ≠ .AIM
  | .priority => True
  | .read => req.type = .Read
  | .write => req.type = .Write
  | .aim => req.type = .AIM

/-- Whether an event lets a request leave the buffers: its final command is issued, it is
forwarded, or, for a barrier, it is done without a command. -/
def Event.serves (q : Queued Cmd) : Event Cmd → Bool
  | .issue q' cmd => q'.key = q.key && cmd = q.finalCommand
  | .forward q' => q'.key = q.key
  | .barrier q' => q'.key = q.key && q.req.opcode.isBarrier
  | _ => false

def Served (log : List (Event Cmd)) (q : Queued Cmd) : Prop := ∃ e ∈ log, e.serves q = true

instance (log : List (Event Cmd)) (q : Queued Cmd) : Decidable (Served log q) :=
  inferInstanceAs (Decidable (∃ e ∈ log, e.serves q = true))

theorem Served.mono {log log' : List (Event Cmd)} {q : Queued Cmd} (hsub : log ⊆ log')
    (h : Served log q) : Served log' q := by
  obtain ⟨e, he, hq⟩ := h
  exact ⟨e, hsub he, hq⟩

theorem Served.congr {log : List (Event Cmd)} {q q' : Queued Cmd} (hkey : q'.key = q.key)
    (hfinal : q'.finalCommand = q.finalCommand) (h : Served log q) : Served log q' := by
  obtain ⟨e, he, hq⟩ := h
  have hreq : q'.req = q.req := (Prod.mk.inj hkey).2
  refine ⟨e, he, ?_⟩
  cases e <;> simp only [Event.serves, hkey, hfinal, hreq] at hq ⊢ <;> exact hq

variable (iface) in
structure Sound (c : Queues Cmd) (log : List (Event Cmd)) : Prop where
  placed : ∀ id, ∀ q ∈ (c.bufferOf id).buffer, Placed q.req id
  final : ∀ q, q ∈ c.outstanding ∨ q ∈ finished log ∨ q ∈ accepted log →
    finalOf iface q.req = some q.finalCommand
  exclusive : c.aimBuffer.buffer ≠ [] → c.readBuffer.buffer = [] ∧ c.writeBuffer.buffer = []
  served : ∀ q, q ∈ c.pendingReads ∨ q ∈ c.pendingWrites ∨ q ∈ finished log → Served log q
  departed : ∀ q ∈ finished log, q.depart ≤ c.clk
  numbered : (accepted log).map Queued.seq = List.range c.nextSeq

omit [DecidableEq Cmd] in
theorem mem_push {c : Queues Cmd} {id id' : BufferId} {q q' : Queued Cmd} {n : Nat}
    (h : q' ∈ (({ c.push id q with nextSeq := n } : Queues Cmd).bufferOf id').buffer) :
    q' ∈ (c.bufferOf id').buffer ∨ (id' = id ∧ q' = q) := by
  have h : q' ∈ ((c.push id q).bufferOf id').buffer := by cases id' <;> exact h
  rw [Queues.push, Queues.bufferOf_setBuffer] at h
  split at h
  · next hid =>
      rcases List.mem_append.mp h with h | h
      · exact .inl (hid ▸ h)
      · exact .inr ⟨hid, List.mem_singleton.mp h⟩
  · exact .inl h

omit [DecidableEq Cmd] in
theorem mem_outstanding_push {c : Queues Cmd} {id : BufferId} {q q' : Queued Cmd} {n : Nat}
    (h : q' ∈ ({ c.push id q with nextSeq := n } : Queues Cmd).outstanding) :
    q' ∈ c.outstanding ∨ q' = q := by
  rcases Queues.mem_outstanding.mp h with h | h | ⟨id', h⟩
  · exact .inl (Queues.mem_outstanding.mpr (.inl (by simpa [Queues.push] using h)))
  · exact .inl (Queues.mem_outstanding.mpr (.inr (.inl (by simpa [Queues.push] using h))))
  · rcases mem_push h with h | ⟨-, rfl⟩
    · exact .inl (Queues.mem_outstanding.mpr (.inr (.inr ⟨id', h⟩)))
    · exact .inr rfl

theorem serve_outstanding {c c' : Queues Cmd} {s : Scheduled Cmd} {events : List (Event Cmd)}
    (h : ServeStep iface c s events c')
    (hs : (c.bufferOf s.buffer).buffer[s.index]? = some s.req) {q' : Queued Cmd}
    (hq' : q' ∈ c'.outstanding) : ∃ q ∈ c.outstanding, SameRequest q q' := by
  have hstands : s.req ∈ c.outstanding :=
    Queues.mem_outstanding.mpr (.inr (.inr ⟨s.buffer, List.mem_of_getElem? hs⟩))
  have hpending : ∀ q', q' ∈ c'.pendingReads ∨ q' ∈ c'.pendingWrites →
      ∃ q ∈ c.outstanding, SameRequest q q' := by
    intro q' hq'
    have hold : q' ∈ c.pendingReads ∨ q' ∈ c.pendingWrites →
        ∃ q ∈ c.outstanding, SameRequest q q' := by
      intro hold
      refine ⟨q', Queues.mem_outstanding.mpr ?_, .refl q'⟩
      rcases hold with hold | hold
      · exact .inl hold
      · exact .inr (.inl hold)
    rcases serve_pending h with ⟨hreads, hwrites⟩ | ⟨x, hsame, hplace, -⟩
    · rw [hreads, hwrites] at hq'
      exact hold hq'
    · have hcases : (q' ∈ c.pendingReads ∨ q' ∈ c.pendingWrites) ∨ q' = x := by
        rcases hplace with ⟨hreads, hwrites⟩ | ⟨hreads, hwrites⟩ <;>
          rw [hreads, hwrites] at hq' <;>
          simp only [List.mem_append, List.mem_singleton] at hq' <;> grind
      rcases hcases with hq' | rfl
      · exact hold hq'
      · exact ⟨s.req, hstands, hsame⟩
  rcases Queues.mem_outstanding.mp hq' with hq' | hq' | ⟨id, hq'⟩
  · exact hpending q' (.inl hq')
  · exact hpending q' (.inr hq')
  · rcases serve_mem h hs _ hq' with ⟨q, hq, hsame⟩ | ⟨-, hsame, -⟩
    · exact ⟨q, Queues.mem_outstanding.mpr (.inr (.inr ⟨id, hq⟩)), hsame⟩
    · exact ⟨s.req, hstands, hsame⟩

namespace Sound

theorem init : Sound iface ({} : Queues Cmd) [] := by
  refine ⟨?_, ?_, fun h => absurd rfl h, ?_, ?_, rfl⟩
  · intro id q hq
    cases id <;> cases hq
  · rintro q (hq | hq | hq)
    · rcases Queues.mem_outstanding.mp hq with hq | hq | ⟨id, hq⟩
      · cases hq
      · cases hq
      · cases id <;> cases hq
    · cases hq
    · cases hq
  · rintro q (h | h | h) <;> cases h
  · intro q h
    cases h

theorem served_append {c : Queues Cmd} {log events : List (Event Cmd)}
    (h : Sound iface c log) {q : Queued Cmd}
    (hq : q ∈ c.pendingReads ∨ q ∈ c.pendingWrites ∨ q ∈ finished log) :
    Served (log ++ events) q :=
  (h.served q hq).mono (List.subset_append_left _ _)

theorem accept {c : Queues Cmd} {id : BufferId} {q : Queued Cmd} {log : List (Event Cmd)}
    (hseq : q.seq = c.nextSeq) (hfinal : finalOf iface q.req = some q.finalCommand)
    (hgate : c.Gate q.req id) (h : Sound iface c log) :
    Sound iface { c.push id q with nextSeq := c.nextSeq + 1 } (log ++ [.accept q]) := by
  have hplaced : Placed q.req id := by
    cases hgate <;> first | assumption | trivial
  refine ⟨?_, ?_, ?_, ?_, ?_, ?_⟩
  · intro id' q' hq'
    rcases mem_push hq' with hq' | ⟨rfl, rfl⟩
    · exact h.placed id' q' hq'
    · exact hplaced
  · intro q' hq'
    have hcases : (q' ∈ c.outstanding ∨ q' ∈ finished log ∨ q' ∈ accepted log) ∨ q' = q := by
      rcases hq' with hq' | hq' | hq'
      · rcases mem_outstanding_push hq' with hq' | rfl
        · exact .inl (.inl hq')
        · exact .inr rfl
      · exact .inl (.inr (.inl (by simpa [finished] using hq')))
      · rw [accepted_append, List.mem_append] at hq'
        rcases hq' with hq' | hq'
        · exact .inl (.inr (.inr hq'))
        · exact .inr (by simpa [accepted] using hq')
    rcases hcases with hq' | rfl
    · exact h.final q' hq'
    · exact hfinal
  · intro haim
    cases hgate with
    | priority => exact h.exclusive haim
    | aim _ hread hwrite => exact ⟨hread, hwrite⟩
    | read _ hempty => exact absurd hempty haim
    | write _ hempty => exact absurd hempty haim
  · intro q' hq'
    refine h.served_append ?_
    simpa [Queues.push, finished] using hq'
  · intro q' hq'
    have := h.departed q' (by simpa [finished] using hq')
    simpa [Queues.push] using this
  · rw [accepted_append, List.map_append, h.numbered, List.range_succ]
    simp [accepted, hseq]

theorem frame {c c' : Queues Cmd} {log log' : List (Event Cmd)} (h : Sound iface c log)
    (hbuffers : ∀ id, c'.bufferOf id = c.bufferOf id)
    (hfinal : ∀ q, q ∈ c'.pendingReads ∨ q ∈ c'.pendingWrites ∨ q ∈ finished log' ∨
      q ∈ accepted log' → finalOf iface q.req = some q.finalCommand)
    (hserved : ∀ q, q ∈ c'.pendingReads ∨ q ∈ c'.pendingWrites ∨ q ∈ finished log' →
      Served log' q)
    (hdeparted : ∀ q ∈ finished log', q.depart ≤ c'.clk)
    (hnumbered : (accepted log').map Queued.seq = List.range c'.nextSeq) :
    Sound iface c' log' := by
  refine ⟨?_, ?_, ?_, hserved, hdeparted, hnumbered⟩
  · intro id
    rw [hbuffers]
    exact h.placed id
  · rintro q (hq | hq | hq)
    · rcases Queues.mem_outstanding.mp hq with hq | hq | ⟨id, hq⟩
      · exact hfinal q (.inl hq)
      · exact hfinal q (.inr (.inl hq))
      · rw [hbuffers] at hq
        exact h.final q (.inl (Queues.mem_outstanding.mpr (.inr (.inr ⟨id, hq⟩))))
    · exact hfinal q (.inr (.inr (.inl hq)))
    · exact hfinal q (.inr (.inr (.inr hq)))
  · have haim : c'.aimBuffer = c.aimBuffer := hbuffers .aim
    have hread : c'.readBuffer = c.readBuffer := hbuffers .read
    have hwrite : c'.writeBuffer = c.writeBuffer := hbuffers .write
    rw [haim, hread, hwrite]
    exact h.exclusive

theorem final_pending {c : Queues Cmd} {log : List (Event Cmd)} (h : Sound iface c log)
    {q : Queued Cmd} (hq : q ∈ c.pendingReads ∨ q ∈ c.pendingWrites ∨ q ∈ finished log ∨
      q ∈ accepted log) : finalOf iface q.req = some q.finalCommand := by
  refine h.final q ?_
  rcases hq with hq | hq | hq
  · exact .inl (Queues.mem_outstanding.mpr (.inl hq))
  · exact .inl (Queues.mem_outstanding.mpr (.inr (.inl hq)))
  · exact .inr hq

theorem final_eq {c : Queues Cmd} {log : List (Event Cmd)} (h : Sound iface c log)
    {q q' : Queued Cmd} (hkey : q'.key = q.key)
    (hq' : q' ∈ c.outstanding ∨ q' ∈ finished log ∨ q' ∈ accepted log)
    (hq : q ∈ c.outstanding ∨ q ∈ finished log ∨ q ∈ accepted log) :
    q'.finalCommand = q.finalCommand := by
  have hfinal := h.final q' hq'
  rw [(Prod.mk.inj hkey).2, h.final q hq] at hfinal
  exact (Option.some.inj hfinal).symm

/-- The steps that do not depend on the scheduler keep the invariant. -/
theorem queueStep {c c' : Queues Cmd} {log events : List (Event Cmd)}
    (hstep : QueueStep iface admits c events c') (h : Sound iface c log) :
    Sound iface c' (log ++ events) := by
  cases hstep with
  | clock =>
      rw [List.append_nil]
      refine h.frame (fun id => by cases id <;> rfl) (fun q => h.final_pending) h.served
        (fun q hq => ?_) h.numbered
      have := h.departed q hq
      dsimp only
      omega
  | accept hseq hfinal _ hgate _ => exact h.accept hseq hfinal hgate
  | @forward q wreq hseq hfinal _ hread haim hmem haddr hdepart =>
      have hlog : finished (log ++ [Event.accept q, Event.forward q]) = finished log := by
        simp [finished]
      have hacc : accepted (log ++ [Event.accept q, Event.forward q]) = accepted log ++ [q] := by
        simp [accepted]
      refine h.frame (fun id => by cases id <;> rfl) (fun q' hq' => ?_) (fun q' hq' => ?_)
        (fun q' hq' => ?_) ?_
      · rw [hlog, hacc] at hq'
        simp only [List.mem_append, List.mem_singleton] at hq'
        have hcases : (q' ∈ c.pendingReads ∨ q' ∈ c.pendingWrites ∨ q' ∈ finished log ∨
            q' ∈ accepted log) ∨ q' = q := by grind
        rcases hcases with hq' | rfl
        · exact h.final_pending hq'
        · exact hfinal
      · rw [hlog] at hq'
        simp only [List.mem_append, List.mem_singleton] at hq'
        have hcases : (q' ∈ c.pendingReads ∨ q' ∈ c.pendingWrites ∨ q' ∈ finished log) ∨
            q' = q := by grind
        rcases hcases with hq | rfl
        · exact h.served_append hq
        · exact ⟨.forward q', by simp, by simp [Event.serves]⟩
      · rw [hlog] at hq'
        exact h.departed q' hq'
      · rw [hacc, List.map_append, h.numbered, List.range_succ, List.map_singleton, hseq]
  | @complete q rest hreads hdepart _ =>
      have hfinished : ∀ q', q' ∈ finished (log ++ [Event.complete q]) →
          q' ∈ finished log ∨ q' = q := by
        intro q' hq'
        simpa [finished] using hq'
      have hback : ∀ q', q' ∈ rest ∨ q' ∈ c.pendingWrites ∨
          q' ∈ finished (log ++ [Event.complete q]) →
            q' ∈ c.pendingReads ∨ q' ∈ c.pendingWrites ∨ q' ∈ finished log := by
        rw [hreads]
        rintro q' (hq' | hq' | hq')
        · exact .inl (List.mem_cons_of_mem _ hq')
        · exact .inr (.inl hq')
        · rcases hfinished q' hq' with hq' | rfl
          · exact .inr (.inr hq')
          · exact .inl (List.mem_cons_self ..)
      have hacc : accepted (log ++ [Event.complete q]) = accepted log := by simp [accepted]
      refine h.frame (fun id => by cases id <;> rfl) (fun q' hq' => ?_)
        (fun q' hq' => h.served_append (hback q' hq')) (fun q' hq' => ?_) ?_
      · refine h.final_pending ?_
        rw [hacc] at hq'
        have := hback q'
        grind
      · rcases hfinished q' hq' with hq' | rfl
        · exact h.departed q' hq'
        · exact hdepart
      · rw [hacc]
        exact h.numbered
  | retire =>
      have hfinished : ∀ q', q' ∈ finished (log ++ (c.pendingWrites.filter fun q =>
          q.depart ≤ c.clk).map Event.retire) →
            q' ∈ finished log ∨ (q' ∈ c.pendingWrites ∧ q'.depart ≤ c.clk) := by
        intro q' hq'
        rw [finished_append, finished_retire, List.mem_append, List.mem_filter,
          decide_eq_true_eq] at hq'
        exact hq'
      have hback : ∀ q', q' ∈ c.pendingReads ∨
          q' ∈ (c.pendingWrites.filter fun q => c.clk < q.depart) ∨
          q' ∈ finished (log ++ (c.pendingWrites.filter fun q =>
            q.depart ≤ c.clk).map Event.retire) →
            q' ∈ c.pendingReads ∨ q' ∈ c.pendingWrites ∨ q' ∈ finished log := by
        rintro q' (hq' | hq' | hq')
        · exact .inl hq'
        · exact .inr (.inl (List.mem_filter.mp hq').1)
        · rcases hfinished q' hq' with hq' | ⟨hq', -⟩
          · exact .inr (.inr hq')
          · exact .inr (.inl hq')
      refine h.frame (fun id => by cases id <;> rfl) (fun q' hq' => ?_)
        (fun q' hq' => h.served_append (hback q' hq')) (fun q' hq' => ?_) ?_
      · refine h.final_pending ?_
        rw [accepted_append, accepted_retire, List.append_nil] at hq'
        have := hback q'
        grind
      · rcases hfinished q' hq' with hq' | ⟨-, hq'⟩
        · exact h.departed q' hq'
        · exact hq'
      · rw [accepted_append, accepted_retire, List.append_nil]
        exact h.numbered

theorem serveStep {c c' : Queues Cmd} {s : Scheduled Cmd} {log events : List (Event Cmd)}
    (hs : (c.bufferOf s.buffer).buffer[s.index]? = some s.req)
    (hstep : ServeStep iface c s events c') (h : Sound iface c log) :
    Sound iface c' (log ++ events) := by
  obtain ⟨haccepted, hfinished⟩ := serve_log hstep
  -- a request in a buffer other than the active one stood there before
  have hback : ∀ id q', id ≠ .active → q' ∈ (c'.bufferOf id).buffer →
      ∃ q, q ∈ (c.bufferOf id).buffer := by
    intro id q' hid hq'
    rcases serve_mem hstep hs _ hq' with ⟨q, hq, -⟩ | ⟨hactive, -⟩
    · exact ⟨q, hq⟩
    · exact absurd hactive hid
  refine ⟨?_, ?_, ?_, ?_, ?_, ?_⟩
  · intro id q' hq'
    rcases serve_mem hstep hs _ hq' with ⟨q, hq, hsame⟩ | ⟨rfl, hsame, htype⟩
    · rw [hsame.req]
      exact h.placed id q hq
    · rw [hsame.req]
      exact htype
  · intro q' hq'
    rw [finished_append, accepted_append, haccepted, hfinished, List.append_nil,
      List.append_nil] at hq'
    rcases hq' with hq' | hq'
    · obtain ⟨q, hq, hsame⟩ := serve_outstanding hstep hs hq'
      rw [hsame.req, hsame.finalCommand]
      exact h.final q (.inl hq)
    · exact h.final q' (.inr hq')
  · intro haim
    obtain ⟨q', hq'⟩ := List.exists_mem_of_ne_nil _ haim
    obtain ⟨q, hq⟩ := hback .aim q' (by simp) hq'
    obtain ⟨hread, hwrite⟩ := h.exclusive (List.ne_nil_of_mem hq)
    constructor
    · rw [List.eq_nil_iff_forall_not_mem]
      intro x hx
      obtain ⟨y, hy⟩ := hback .read x (by simp) hx
      exact absurd hy (by simp [Queues.bufferOf, hread])
    · rw [List.eq_nil_iff_forall_not_mem]
      intro x hx
      obtain ⟨y, hy⟩ := hback .write x (by simp) hx
      exact absurd hy (by simp [Queues.bufferOf, hwrite])
  · intro q' hq'
    rw [finished_append, hfinished, List.append_nil] at hq'
    rcases serve_pending hstep with ⟨hreads, hwrites⟩ | ⟨x, hsame, hplace, hevent⟩
    · rw [hreads, hwrites] at hq'
      exact h.served_append hq'
    · have hx : Served (log ++ events) x := by
        rcases hevent with ⟨hbarrier, hevent⟩ | hevent
        · refine ⟨_, List.mem_append_right _ hevent, ?_⟩
          simp [Event.serves, hsame.req, hbarrier]
        · refine ⟨_, List.mem_append_right _ hevent, ?_⟩
          simp [Event.serves, (SameRequest.stampIssue c s.req).key, hsame.key,
            hsame.finalCommand]
      have hcases : (q' ∈ c.pendingReads ∨ q' ∈ c.pendingWrites ∨ q' ∈ finished log) ∨ q' = x := by
        rcases hplace with ⟨hreads, hwrites⟩ | ⟨hreads, hwrites⟩ <;>
          rw [hreads, hwrites] at hq' <;>
          simp only [List.mem_append, List.mem_singleton] at hq' <;> grind
      rcases hcases with hq | rfl
      · exact h.served_append hq
      · exact hx
  · intro q' hq'
    rw [finished_append, hfinished, List.append_nil] at hq'
    rw [serve_clk hstep]
    exact h.departed q' hq'
  · rw [accepted_append, haccepted, List.append_nil, serve_nextSeq hstep]
    exact h.numbered

end Sound

/-! ## Conservation -/

/-- Every accepted request occurs exactly once among the outstanding and the finished
requests. -/
def Conserved (c : Queues Cmd) (log : List (Event Cmd)) : Prop :=
  ∀ k, tally k c.outstanding + tally k (finished log) = tally k (accepted log)

namespace Conserved

omit [DecidableEq Cmd] in
theorem init : Conserved ({} : Queues Cmd) [] := fun _ => rfl

omit [DecidableEq Cmd] in
theorem queueStep {c c' : Queues Cmd} {log events : List (Event Cmd)}
    (hstep : QueueStep iface admits c events c') (h : Conserved c log) :
    Conserved c' (log ++ events) := by
  intro k
  have hk := h k
  rw [accepted_append, finished_append, tally_append, tally_append]
  cases hstep with
  | clock => exact hk
  | @accept id q _ _ _ _ _ =>
      have hpush : tally k ({ c.push id q with nextSeq := c.nextSeq + 1 } : Queues Cmd).outstanding =
          tally k c.outstanding + tally k [q] := c.tally_push k id q
      have haccepted : accepted [Event.accept q] = [q] := rfl
      have hfinished : finished [Event.accept q] = [] := rfl
      rw [hpush, haccepted, hfinished, tally_nil]
      omega
  | @forward q _ _ _ _ _ _ _ _ _ =>
      have haccepted : accepted [Event.accept q, .forward q] = [q] := rfl
      have hfinished : finished [Event.accept q, .forward q] = [] := rfl
      rw [haccepted, hfinished, tally_nil]
      simp only [Queues.outstanding, tally_append] at hk ⊢
      omega
  | @complete q rest hreads _ _ =>
      have hhead : tally k c.pendingReads = tally k [q] + tally k rest := by
        rw [hreads, ← tally_append]
        rfl
      have haccepted : accepted [Event.complete q] = [] := rfl
      have hfinished : finished [Event.complete q] = [q] := rfl
      rw [haccepted, hfinished, tally_nil]
      simp only [Queues.outstanding, tally_append] at hk ⊢
      omega
  | retire =>
      have hsplit : tally k (c.pendingWrites.filter fun q => q.depart ≤ c.clk) +
          tally k (c.pendingWrites.filter fun q => c.clk < q.depart) =
            tally k c.pendingWrites := by
        refine Counting.countP_filter_split _ _ _ _ fun q _ => ?_
        rw [← decide_not]
        exact decide_eq_decide.mpr Int.not_le.symm
      rw [accepted_retire, finished_retire]
      simp only [Queues.outstanding, tally_append, tally_nil] at hk ⊢
      omega

theorem serveStep {c c' : Queues Cmd} {s : Scheduled Cmd} {log events : List (Event Cmd)}
    (hs : (c.bufferOf s.buffer).buffer[s.index]? = some s.req)
    (hroom : c.activeBuffer.size ≤ c.activeBuffer.maxSize)
    (hstep : ServeStep iface c s events c') (h : Conserved c log) :
    Conserved c' (log ++ events) := by
  intro k
  obtain ⟨haccepted, hfinished⟩ := serve_log hstep
  rw [accepted_append, finished_append, haccepted, hfinished, List.append_nil, List.append_nil,
    serve_tally hstep hs hroom]
  exact h k

omit [DecidableEq Cmd] in
theorem located {c : Queues Cmd} {log : List (Event Cmd)} (h : Conserved c log)
    {q : Queued Cmd} (hq : q ∈ accepted log) :
    ∃ q', q'.key = q.key ∧ (q' ∈ c.outstanding ∨ q' ∈ finished log) := by
  have hpos : 0 < tally q.key (accepted log) :=
    List.countP_pos_iff.mpr ⟨q, hq, decide_eq_true rfl⟩
  have hk := h q.key
  have hcases : 0 < tally q.key c.outstanding ∨ 0 < tally q.key (finished log) := by omega
  rcases hcases with hpos | hpos
  · obtain ⟨q', hq', hkey⟩ := List.countP_pos_iff.mp hpos
    exact ⟨q', of_decide_eq_true hkey, .inl hq'⟩
  · obtain ⟨q', hq', hkey⟩ := List.countP_pos_iff.mp hpos
    exact ⟨q', of_decide_eq_true hkey, .inr hq'⟩

theorem seq_lt {c : Queues Cmd} {log : List (Event Cmd)} (hsound : Sound iface c log)
    (h : Conserved c log) {q : Queued Cmd} (hq : q ∈ c.outstanding) : q.seq < c.nextSeq := by
  have hpos : 0 < tally q.key c.outstanding :=
    List.countP_pos_iff.mpr ⟨q, hq, decide_eq_true rfl⟩
  have hk := h q.key
  obtain ⟨x, hx, hkey⟩ := List.countP_pos_iff.mp (show 0 < tally q.key (accepted log) by omega)
  have hseq : x.seq = q.seq := (Prod.mk.inj (of_decide_eq_true hkey)).1
  have hmem : x.seq ∈ (accepted log).map Queued.seq := List.mem_map_of_mem hx
  rw [hsound.numbered, List.mem_range, hseq] at hmem
  exact hmem

end Conserved

/-! ## Every run -/

omit [DecidableEq Cmd] in
theorem QueueStep.activeBuffer {c c' : Queues Cmd} {events : List (Event Cmd)}
    (h : QueueStep iface admits c events c') : c'.activeBuffer = c.activeBuffer := by
  cases h with
  | accept _ _ _ hgate _ => cases hgate <;> rfl
  | _ => rfl

omit [DecidableEq Cmd] in
theorem QueueStep.outstanding {c c' : Queues Cmd} {events : List (Event Cmd)}
    (h : QueueStep iface admits c events c') {q' : Queued Cmd} (hq' : q' ∈ c'.outstanding) :
    q' ∈ c.outstanding ∨ ∃ c id, admits c id q'.req := by
  cases h with
  | clock => exact .inl hq'
  | @accept id q _ _ hadmits _ _ =>
      rcases mem_outstanding_push hq' with hq' | rfl
      · exact .inl hq'
      · exact .inr ⟨c, id, hadmits⟩
  | @forward q _ _ _ hadmits _ _ _ _ _ =>
      simp only [Queues.outstanding, List.mem_append, List.mem_singleton] at hq' ⊢
      rcases hq' with (((((( hq' | rfl) | hq') | hq') | hq') | hq') | hq') | hq'
      case inl.inl.inl.inl.inl.inl.inr => exact .inr ⟨c, .read, hadmits⟩
      all_goals exact .inl (by simp [hq'])
  | @complete q rest hreads _ _ =>
      simp only [Queues.outstanding, hreads, List.mem_append, List.mem_cons] at hq' ⊢
      rcases hq' with (((((hq' | hq') | hq') | hq') | hq') | hq') | hq' <;>
        exact .inl (by simp [hq'])
  | retire =>
      simp only [Queues.outstanding, List.mem_append, List.mem_filter] at hq' ⊢
      rcases hq' with (((((hq' | hq') | hq') | hq') | hq') | hq') | hq' <;>
        exact .inl (by simp [hq'])

omit [DecidableEq Cmd] in
theorem AiMDRAMController.prepare_outstanding {params : Params} {c c' : AiMDRAMController Cmd}
    {events : List (Event Cmd)} (h : c.prepare iface params = some (c', events)) {q' : Queued Cmd}
    (hq' : q' ∈ c'.outstanding) : q' ∈ c.outstanding ∨ (c.RefreshDue ∧
      ∃ rank, rank < iface.numRanks.toNat ∧ q'.req = refreshRequest iface params rank) := by
  refine @prepare_induct _ _ iface params
    (fun _ _ req => c.RefreshDue ∧
      ∃ rank, rank < iface.numRanks.toNat ∧ req = refreshRequest iface params rank)
    (fun c' _ => ∀ q' ∈ c'.outstanding, q' ∈ c.outstanding ∨ (c.RefreshDue ∧
      ∃ rank, rank < iface.numRanks.toNat ∧ q'.req = refreshRequest iface params rank))
    ?_ c c' [] events (fun hdue rank hrank _ => ⟨hdue, rank, hrank, rfl⟩) h (fun _ => .inl) q' hq'
  intro c₁ log events c₂ hstep hold q' hq'
  rcases hstep.outstanding hq' with hq' | ⟨_, _, hadmits⟩
  · exact hold q' hq'
  · exact .inr hadmits

omit [DecidableEq Cmd] in
theorem AiMDRAMController.prepare_activeBuffer {params : Params} {c c' : AiMDRAMController Cmd}
    {events : List (Event Cmd)} (h : c.prepare iface params = some (c', events)) :
    c'.activeBuffer = c.activeBuffer :=
  @prepare_induct _ _ iface params (fun _ _ _ => True)
    (fun c' _ => c'.activeBuffer = c.activeBuffer)
    (fun _ _ _ _ hstep h => hstep.activeBuffer.trans h) c c' [] events
    (fun _ _ _ _ => trivial) h rfl

omit [DecidableEq Cmd] in
theorem AiMDRAMController.nextScheduled_activeBuffer {params : Params}
    {c c₁ : AiMDRAMController Cmd} {dev : Dev} {s : Scheduled Cmd}
    (h : c.nextScheduled iface params dev = some (c₁, s)) : c₁.activeBuffer = c.activeBuffer := by
  obtain ⟨events, hprep, -⟩ := nextScheduled_cases iface h
  exact prepare_activeBuffer hprep

namespace Chan

variable {params : Params} {dev₀ : Dev} {guard : Chan Dev Cmd → Op → Prop}
  {s : Chan Dev Cmd}

theorem sound (hr : Chan.Run iface params dev₀ guard s) : Sound iface s.ctl.toQueues s.log :=
  Chan.invariant (fun _ _ _ => True) .init (fun _ _ _ _ hstep h => h.queueStep hstep)
    (fun _ _ => trivial) (fun _ _ _ _ _ _ => trivial) (fun _ _ _ => trivial)
    (fun _ _ _ _ hnext _ _ _ h hstep =>
      h.serveStep (AiMDRAMController.nextScheduled_picked iface hnext).stands hstep) hr

theorem conserved (hroom : ∀ s, guard s .tick →
      s.ctl.activeBuffer.size ≤ s.ctl.activeBuffer.maxSize)
    (hr : Chan.Run iface params dev₀ guard s) : Conserved s.ctl.toQueues s.log := by
  refine Chan.invariant (fun _ _ _ => True) .init
    (fun _ _ _ _ hstep h => h.queueStep hstep) (fun _ _ => trivial)
    (fun _ _ _ _ _ _ => trivial) (fun _ _ _ => trivial) ?_ hr
  intro s c₁ sched hg hnext log events q' h hstep
  refine h.serveStep (AiMDRAMController.nextScheduled_picked iface hnext).stands ?_ hstep
  rw [AiMDRAMController.nextScheduled_activeBuffer hnext]
  exact hroom s hg

end Chan

end AimSimulator.Controller
