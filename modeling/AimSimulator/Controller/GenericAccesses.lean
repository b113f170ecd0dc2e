import AimSimulator.Controller.Accesses
/-!
# Accesses of the generic controller
-/

namespace AimSimulator.Controller

open Dram Occupancy

variable {Dev Cmd : Type} [DecidableEq Cmd] (iface : IDRAM Dev Cmd)

namespace GenericDRAMController

/-- The calls of `enqueue` and `remove` in a call, in their order. -/
def accesses (params : GenericParams) (c : GenericDRAMController Cmd) (dev : Dev) :
    Call Cmd → List (Access BufferId)
  | .send req => c.toQueues.sendAccesses req
  | .prioritySend _ => [.offer .priority]
  | .tick plugins =>
      c.refresh.accesses iface ++ (pluginAccesses plugins ++
        ((c.nextScheduled iface params (iface.tick dev)).elim [] fun s =>
          s.accesses s.command (iface.commandMeta s.command).isOpening))
  | .issueElsewhere _ _ => []

variable {iface} {params : GenericParams} {c c' : GenericDRAMController Cmd} {dev dev' : Dev}

omit [DecidableEq Cmd] in
theorem enqueueTo_accessed {id : BufferId} {q : Queued Cmd} {ok : Bool}
    (h : c.enqueueTo id q = (ok, c')) : c.toQueues.Accessed [.offer id] c'.toQueues := by
  unfold enqueueTo at h
  split at h
  · next b heq =>
      obtain ⟨-, rfl⟩ := h
      exact .admitted heq
  · next heq =>
      obtain ⟨-, rfl⟩ := h
      exact .refused heq

omit [DecidableEq Cmd] in
theorem send_accessed {req : Request} {ok : Bool} (h : c.send iface req = some (ok, c')) :
    c.toQueues.Accessed (c.toQueues.sendAccesses req) c'.toQueues := by
  obtain ⟨final, -, h⟩ := Option.bind_eq_some_iff.mp h
  split at h
  · next hread =>
      rw [Queues.sendAccesses_read _ hread]
      split at h
      · next hforward =>
          obtain ⟨-, rfl⟩ := Option.some.inj h
          rw [if_pos hforward]
          exact .of_bufferOf fun id => by cases id <;> exact ⟨rfl, rfl⟩
      · next hmiss =>
          rw [if_neg hmiss]
          exact enqueueTo_accessed (Option.some.inj h)
  · next hwrite =>
      rw [Queues.sendAccesses_write _ hwrite]
      exact enqueueTo_accessed (Option.some.inj h)
  · cases h

omit [DecidableEq Cmd] in
theorem prioritySend_accessed {req : Request} {ok : Bool}
    (h : c.prioritySend iface req = some (ok, c')) :
    c.toQueues.Accessed [.offer .priority] c'.toQueues := by
  obtain ⟨final, -, h⟩ := Option.map_eq_some_iff.mp h
  exact enqueueTo_accessed h

omit [DecidableEq Cmd] in
theorem pluginSends_accessed {plugins : List Request}
    (h : c.pluginSends iface plugins = some c') :
    c.toQueues.Accessed (pluginAccesses plugins) c'.toQueues := by
  induction plugins generalizing c with
  | nil =>
      obtain rfl := Option.some.inj h
      exact .of_bufferOf fun _ => ⟨rfl, rfl⟩
  | cons req reqs ih =>
      obtain ⟨⟨ok, c₁⟩, hfirst, h⟩ := Option.bind_eq_some_iff.mp h
      exact (prioritySend_accessed hfirst).trans (ih h)

omit [DecidableEq Cmd] in
theorem refreshTick_accessed (h : c.refreshTick iface params = some c') :
    c.toQueues.Accessed (c.refresh.accesses iface) c'.toQueues := by
  unfold AllBankRefresh.accesses
  rcases refreshTick_cases h with ⟨hdue, c₁, sent, hsent, hsame⟩ | ⟨hdue, hsame⟩
  · have haccessed := RefreshSetup.sendAll_induct
      (R := fun n (c c' : GenericDRAMController Cmd) =>
        c.toQueues.Accessed (List.replicate n (.offer .priority)) c'.toQueues)
      (fun _ => .of_bufferOf fun _ => ⟨rfl, rfl⟩)
      (fun hfirst hrest => (prioritySend_accessed hfirst).trans hrest) hsent
    rw [List.length_range] at haccessed
    rw [if_pos hdue, hsame]
    exact haccessed
  · rw [if_neg hdue, hsame]
    exact .of_bufferOf fun _ => ⟨rfl, rfl⟩

omit [DecidableEq Cmd] in
theorem serveCompletedReads_accessed (c : GenericDRAMController Cmd) :
    c.toQueues.Accessed [] c.serveCompletedReads.1.toQueues ∧
      c.serveCompletedReads.1.refresh = c.refresh := by
  unfold serveCompletedReads
  split
  · split
    · exact ⟨.of_bufferOf fun id => by cases id <;> exact ⟨rfl, rfl⟩, rfl⟩
    · exact ⟨.of_bufferOf fun _ => ⟨rfl, rfl⟩, rfl⟩
  · exact ⟨.of_bufferOf fun _ => ⟨rfl, rfl⟩, rfl⟩

omit [DecidableEq Cmd] in
theorem prepare_accessed {called : List (Queued Cmd)}
    (h : c.prepare iface params = some (c', called)) :
    c.toQueues.Accessed (c.refresh.accesses iface) c'.toQueues := by
  obtain ⟨c₂, hrefreshed, heq⟩ := Option.map_eq_some_iff.mp h
  obtain ⟨rfl, -⟩ := Prod.mk.inj heq
  have hclock : c.toQueues.Accessed [] { c.toQueues with clk := c.clk + 1 } :=
    .of_bufferOf fun id => by cases id <;> exact ⟨rfl, rfl⟩
  let c₁ : GenericDRAMController Cmd := { c with clk := c.clk + 1 }
  obtain ⟨hserved, hrefresh⟩ := serveCompletedReads_accessed c₁
  have hsent : c₁.serveCompletedReads.1.toQueues.Accessed
      (c₁.serveCompletedReads.1.refresh.accesses iface) c₂.toQueues :=
    refreshTick_accessed hrefreshed
  rw [hrefresh] at hsent
  exact (hclock.trans hserved).trans hsent

theorem moveIssued_accessed {c : Queues Cmd} {s : Scheduled Cmd}
    (hs : s.index < c.sizes s.buffer) :
    c.Accessed (s.accesses s.command (iface.commandMeta s.command).isOpening)
      (moveIssued iface params c s) := by
  unfold moveIssued Scheduled.accesses
  split
  · refine (Queues.Accessed.remove hs).trans (.of_bufferOf fun id => ?_)
    dsimp only
    split
    · cases id <;> exact ⟨rfl, rfl⟩
    · exact ⟨rfl, rfl⟩
  · split
    · exact .move _ hs
    · exact .of_bufferOf fun _ => ⟨rfl, rfl⟩

theorem tick_accessed {plugins : List Request} {called : List (Queued Cmd)}
    (h : c.tick iface params (iface.tick dev) plugins = some (c', dev', called)) :
    c.toQueues.Accessed (c.accesses iface params dev (.tick plugins)) c'.toQueues := by
  obtain ⟨⟨c₁, called₁⟩, hprep, h⟩ := Option.bind_eq_some_iff.mp h
  obtain ⟨c₂, hsent, heq⟩ := Option.map_eq_some_iff.mp h
  obtain ⟨rfl, -⟩ := Prod.mk.inj heq
  have hplugins := pluginSends_accessed hsent
  rw [scheduleRequest_toQueues] at hplugins
  refine (prepare_accessed hprep).trans (hplugins.trans ?_)
  rw [nextScheduled, hprep, Option.bind_some]
  dsimp only
  cases hsched : (c₁.scheduleRequest iface params (iface.tick dev)).2 with
  | none => exact .of_bufferOf fun _ => ⟨rfl, rfl⟩
  | some s =>
      have hgrown : c₁.toQueues.sizes s.buffer ≤ c₂.toQueues.sizes s.buffer := by
        rw [hplugins.sizes]
        exact le_run_of_offers (pluginAccesses_offers plugins) s.buffer
      have hstands := List.getElem?_eq_some_iff.mp (scheduleRequest_stands hsched).2
      exact moveIssued_accessed (Nat.lt_of_lt_of_le hstands.1 hgrown)

end GenericDRAMController

theorem GenericChan.call_accessed {iface : IDRAM Dev Cmd} {params : GenericParams}
    {s t : GenericChan Dev Cmd} {call : Call Cmd} (h : s.call iface params call = some t) :
    s.ctl.toQueues.Accessed (s.ctl.accesses iface params s.dev call) t.ctl.toQueues := by
  cases call with
  | send req =>
      obtain ⟨⟨ok, ctl⟩, hsent, rfl⟩ := Option.map_eq_some_iff.mp h
      exact GenericDRAMController.send_accessed hsent
  | prioritySend req =>
      obtain ⟨⟨ok, ctl⟩, hsent, rfl⟩ := Option.map_eq_some_iff.mp h
      exact GenericDRAMController.prioritySend_accessed hsent
  | tick plugins =>
      obtain ⟨⟨ctl, dev, called⟩, hticked, rfl⟩ := Option.map_eq_some_iff.mp h
      exact GenericDRAMController.tick_accessed hticked
  | issueElsewhere cmd addrVec =>
      obtain rfl := Option.some.inj h
      exact .of_bufferOf fun _ => ⟨rfl, rfl⟩

end AimSimulator.Controller
