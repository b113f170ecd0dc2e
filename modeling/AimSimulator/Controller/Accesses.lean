import AimSimulator.Lib.Occupancy
import AimSimulator.Controller.GenericController
/-!
# Accesses to the request buffers

A call of a controller changes its buffers by calls of `enqueue` and `remove`.  `accesses` lists
them in their order, and `Accessed` says that the sizes of the buffers change as by that list.  Here
are the queues and the AiM controller.
-/

namespace AimSimulator.Controller

open Dram Occupancy

variable {Dev Cmd : Type}

def ReqBuffer.admits (size maxSize : Nat) : Bool := decide (size ≤ maxSize)

theorem ReqBuffer.enqueue_eq_none_iff (b : ReqBuffer Cmd) (q : Queued Cmd) :
    b.enqueue q = none ↔ ReqBuffer.admits b.size b.maxSize = false := by
  unfold ReqBuffer.enqueue ReqBuffer.admits
  split <;> simp_all

theorem enqueue_getD_size (b : ReqBuffer Cmd) (q : Queued Cmd) :
    ((b.enqueue q).getD b).size =
      if ReqBuffer.admits b.size b.maxSize then b.size + 1 else b.size := by
  unfold ReqBuffer.enqueue ReqBuffer.admits
  by_cases hroom : b.size ≤ b.maxSize
  · rw [if_pos hroom, if_pos (decide_eq_true hroom)]
    exact List.length_append
  · rw [if_neg hroom, if_neg (by simpa using hroom)]
    rfl

theorem enqueue_getD_maxSize (b : ReqBuffer Cmd) (q : Queued Cmd) :
    ((b.enqueue q).getD b).maxSize = b.maxSize := by
  unfold ReqBuffer.enqueue
  split <;> rfl

/-! ## Accesses to the queues -/

namespace Queues

def sizes (c : Queues Cmd) (id : BufferId) : Nat := (c.bufferOf id).size

def capacities (c : Queues Cmd) (id : BufferId) : Nat := (c.bufferOf id).maxSize

structure Accessed (c : Queues Cmd) (accesses : List (Access BufferId)) (c' : Queues Cmd) :
    Prop where
  sizes : c'.sizes = Occupancy.run ReqBuffer.admits c.capacities c.sizes accesses
  capacities : c'.capacities = c.capacities

namespace Accessed

variable {c c₁ c₂ : Queues Cmd} {accesses accesses' : List (Access BufferId)}

theorem of_bufferOf (h : ∀ id, (c₁.bufferOf id).size = (c.bufferOf id).size ∧
    (c₁.bufferOf id).maxSize = (c.bufferOf id).maxSize) : Accessed c [] c₁ :=
  ⟨funext fun id => (h id).1, funext fun id => (h id).2⟩

theorem trans (h : Accessed c accesses c₁) (h' : Accessed c₁ accesses' c₂) :
    Accessed c (accesses ++ accesses') c₂ := by
  refine ⟨?_, h'.capacities.trans h.capacities⟩
  rw [h'.sizes, h.sizes, h.capacities, run_append]

theorem enqueue (c : Queues Cmd) (id : BufferId) (q : Queued Cmd) :
    Accessed c [.offer id]
      (c.setBuffer id (((c.bufferOf id).enqueue q).getD (c.bufferOf id))) := by
  constructor
  · funext id'
    rw [Queues.sizes, Queues.bufferOf_setBuffer]
    show _ = access ReqBuffer.admits c.capacities c.sizes (.offer id) id'
    split
    · next hid =>
        rw [hid, access_offer_self, enqueue_getD_size]
        rfl
    · next hid =>
        rw [access_offer_ne hid]
        rfl
  · funext id'
    rw [Queues.capacities, Queues.bufferOf_setBuffer]
    split
    · next hid =>
        rw [hid, enqueue_getD_maxSize]
        rfl
    · rfl

theorem admitted {id : BufferId} {q : Queued Cmd} {b : ReqBuffer Cmd}
    (h : (c.bufferOf id).enqueue q = some b) :
    Accessed c [.offer id] { c.setBuffer id b with nextSeq := c.nextSeq + 1 } := by
  have haccessed := enqueue c id q
  rw [h] at haccessed
  refine haccessed.trans (of_bufferOf fun id' => ?_)
  cases id' <;> exact ⟨rfl, rfl⟩

theorem refused {id : BufferId} {q : Queued Cmd} (h : (c.bufferOf id).enqueue q = none) :
    Accessed c [.offer id] c := by
  have haccessed := enqueue c id q
  rw [h] at haccessed
  refine haccessed.trans (of_bufferOf fun id' => ?_)
  rw [Option.getD_none, Queues.bufferOf_setBuffer]
  split
  · next hid =>
      rw [hid]
      exact ⟨rfl, rfl⟩
  · exact ⟨rfl, rfl⟩

theorem remove {id : BufferId} {index : Nat} (h : index < c.sizes id) :
    Accessed c [.take id] (c.removeAt id index) := by
  constructor
  · funext id'
    rw [Queues.sizes, Queues.removeAt, Queues.bufferOf_setBuffer]
    show _ = access ReqBuffer.admits c.capacities c.sizes (.take id) id'
    split
    · next hid =>
        rw [hid, access_take_self]
        exact List.length_eraseIdx_of_lt h
    · next hid =>
        rw [access_take_ne hid]
        rfl
  · funext id'
    rw [Queues.capacities, Queues.removeAt, Queues.bufferOf_setBuffer]
    split
    · next hid =>
        rw [hid]
        rfl
    · rfl

theorem write (c : Queues Cmd) (id : BufferId) (index : Nat) (q : Queued Cmd) :
    Accessed c [] (c.setBuffer id ((c.bufferOf id).set index q)) := by
  refine of_bufferOf fun id' => ?_
  rw [Queues.bufferOf_setBuffer]
  split
  · next hid =>
      subst hid
      exact ⟨List.length_set .., rfl⟩
  · exact ⟨rfl, rfl⟩

theorem move {id : BufferId} {index : Nat} (q : Queued Cmd) (h : index < c.sizes id) :
    Accessed c [.offer .active, .take id]
      (Queues.removeAt
        { c with activeBuffer := (c.activeBuffer.enqueue q).getD c.activeBuffer } id index) := by
  have hoffered := Accessed.enqueue c .active q
  refine hoffered.trans (Accessed.remove (Nat.lt_of_lt_of_le h ?_))
  show c.sizes id ≤ (c.setBuffer .active (((c.bufferOf .active).enqueue q).getD
    (c.bufferOf .active))).sizes id
  rw [hoffered.sizes]
  exact le_run_of_offers (by simp) id

end Accessed

def sendAccesses (c : Queues Cmd) (req : Request) : List (Access BufferId) :=
  match req.type with
  | .Read =>
      if c.writeBuffer.buffer.any fun wreq => wreq.req.addr = req.addr then []
      else [.offer .read]
  | .Write => [.offer .write]
  | _ => []

theorem sendAccesses_read (c : Queues Cmd) {req : Request} (h : req.type = .Read) :
    c.sendAccesses req =
      if c.writeBuffer.buffer.any fun wreq => wreq.req.addr = req.addr then []
      else [.offer .read] := by
  rw [sendAccesses, h]

theorem sendAccesses_write (c : Queues Cmd) {req : Request} (h : req.type = .Write) :
    c.sendAccesses req = [.offer .write] := by
  rw [sendAccesses, h]

end Queues

def AllBankRefresh.accesses (iface : IDRAM Dev Cmd) (m : AllBankRefresh) :
    List (Access BufferId) :=
  if m.clk + 1 = m.nextRefreshCycle then List.replicate iface.numRanks.toNat (.offer .priority)
  else []

def pluginAccesses (plugins : List Request) : List (Access BufferId) :=
  plugins.map fun _ => .offer .priority

theorem pluginAccesses_offers (plugins : List Request) :
    ∀ a ∈ pluginAccesses plugins, ∃ id, a = .offer id := by
  intro a ha
  obtain ⟨req, -, rfl⟩ := List.mem_map.mp ha
  exact ⟨.priority, rfl⟩

def Scheduled.accesses [DecidableEq Cmd] (s : Scheduled Cmd) (cmd : Cmd) (moves : Bool) :
    List (Access BufferId) :=
  if cmd = s.req.finalCommand then [.take s.buffer]
  else if moves then [.offer .active, .take s.buffer]
  else []

/-! ## The AiM controller -/

variable [DecidableEq Cmd] (iface : IDRAM Dev Cmd)

namespace AiMDRAMController

def sendAccesses (c : AiMDRAMController Cmd) (req : Request) : List (Access BufferId) :=
  if req.type = .AIM then
    if c.writeBuffer.size ≠ 0 ∨ c.readBuffer.size ≠ 0 then [] else [.offer .aim]
  else if c.aimBuffer.size ≠ 0 then []
  else c.toQueues.sendAccesses req

def serveAccesses (c : AiMDRAMController Cmd) (s : Scheduled Cmd) : List (Access BufferId) :=
  if s.req.req.opcode.isBarrier then [.take s.buffer]
  else
    match requiresRegRWMode s.req.req with
    | some requires =>
        let cmd := c.issuedCommand iface s requires
        s.accesses cmd (s.req.req.type ≠ .AIM && (iface.commandMeta cmd).isOpening)
    | none => []

/-- The calls of `enqueue` and `remove` in a call, in their order. -/
def accesses (params : Params) (c : AiMDRAMController Cmd) (dev : Dev) :
    Call Cmd → List (Access BufferId)
  | .send req => c.sendAccesses req
  | .prioritySend _ => [.offer .priority]
  | .tick plugins =>
      c.refresh.accesses iface ++ (pluginAccesses plugins ++
        ((c.nextScheduled iface params (iface.tick dev)).elim [] fun (c₁, s) =>
          c₁.serveAccesses iface s))
  | .issueElsewhere _ _ => []

variable {iface} {params : Params} {c c' : AiMDRAMController Cmd} {dev dev' : Dev}
  {events : List (Event Cmd)}

omit [DecidableEq Cmd] in
theorem enqueueTo_accessed {id : BufferId} {q : Queued Cmd} {ok : Bool}
    (h : c.enqueueTo id q = (ok, c', events)) :
    c.toQueues.Accessed [.offer id] c'.toQueues := by
  unfold enqueueTo at h
  split at h
  · next b heq =>
      obtain ⟨-, rfl, -⟩ := h
      exact .admitted heq
  · next heq =>
      obtain ⟨-, rfl, -⟩ := h
      exact .refused heq

omit [DecidableEq Cmd] in
theorem send_accessed {req : Request} {ok : Bool} (h : c.send iface req = some (ok, c', events)) :
    c.toQueues.Accessed (c.sendAccesses req) c'.toQueues := by
  have hrefl : c.toQueues.Accessed [] c.toQueues := .of_bufferOf fun _ => ⟨rfl, rfl⟩
  unfold send at h
  unfold sendAccesses
  split at h
  · next htype =>
      rw [if_pos htype]
      split at h
      · next hbusy =>
          obtain ⟨-, rfl, -⟩ := Option.some.inj h
          rw [if_pos hbusy]
          exact hrefl
      · next hfree =>
          obtain ⟨final, -, h⟩ := Option.map_eq_some_iff.mp h
          rw [if_neg hfree]
          exact enqueueTo_accessed h
  · next htype =>
      rw [if_neg htype]
      split at h
      · next hbusy =>
          obtain ⟨-, rfl, -⟩ := Option.some.inj h
          rw [if_pos hbusy]
          exact hrefl
      · next hfree =>
          obtain ⟨final, -, h⟩ := Option.bind_eq_some_iff.mp h
          rw [if_neg hfree]
          split at h
          · next hread =>
              rw [Queues.sendAccesses_read _ hread]
              split at h
              · next hforward =>
                  obtain ⟨-, rfl, -⟩ := Option.some.inj h
                  rw [if_pos hforward]
                  exact .of_bufferOf fun id => by cases id <;> exact ⟨rfl, rfl⟩
              · next hmiss =>
                  rw [if_neg hmiss]
                  exact enqueueTo_accessed (Option.some.inj h)
          · next hwrite =>
              rw [Queues.sendAccesses_write _ hwrite]
              exact enqueueTo_accessed (Option.some.inj h)
          · cases h

omit [DecidableEq Cmd] in
theorem prioritySend_accessed {req : Request} {ok : Bool}
    (h : c.prioritySend iface req = some (ok, c', events)) :
    c.toQueues.Accessed [.offer .priority] c'.toQueues := by
  obtain ⟨final, -, h⟩ := Option.map_eq_some_iff.mp h
  exact enqueueTo_accessed h

omit [DecidableEq Cmd] in
theorem sendRefreshes_accessed {ranks : List Nat}
    (h : c.sendRefreshes iface params ranks = some (c', events)) :
    c.toQueues.Accessed (List.replicate ranks.length (.offer .priority)) c'.toQueues := by
  induction ranks generalizing c events with
  | nil =>
      obtain ⟨rfl, -⟩ := Option.some.inj h
      exact .of_bufferOf fun _ => ⟨rfl, rfl⟩
  | cons rank ranks ih =>
      obtain ⟨⟨ok, c₁, events₁⟩, hfirst, h⟩ := Option.bind_eq_some_iff.mp h
      dsimp only at h
      split at h
      · obtain ⟨⟨c₂, events₂⟩, hrest, heq⟩ := Option.map_eq_some_iff.mp h
        obtain ⟨rfl, -⟩ := Prod.mk.inj heq
        exact (prioritySend_accessed hfirst).trans (ih hrest)
      · cases h

omit [DecidableEq Cmd] in
theorem refreshTick_accessed (h : c.refreshTick iface params = some (c', events)) :
    c.toQueues.Accessed (c.refresh.accesses iface) c'.toQueues := by
  unfold refreshTick at h
  unfold AllBankRefresh.accesses
  split at h
  · next hdue =>
      have hsent := sendRefreshes_accessed h
      rw [List.length_range] at hsent
      rw [if_pos hdue]
      exact hsent
  · next hdue =>
      obtain ⟨rfl, -⟩ := Option.some.inj h
      rw [if_neg hdue]
      exact .of_bufferOf fun _ => ⟨rfl, rfl⟩

omit [DecidableEq Cmd] in
theorem serveCompletedReqs_accessed (c : AiMDRAMController Cmd) :
    c.toQueues.Accessed [] c.serveCompletedReqs.1.toQueues := by
  have hreads : c.toQueues.Accessed [] c.serveReads.1.toQueues := by
    refine .of_bufferOf fun id => ?_
    unfold serveReads
    split
    · split <;> cases id <;> exact ⟨rfl, rfl⟩
    · exact ⟨rfl, rfl⟩
  exact hreads.trans (.of_bufferOf fun id => by cases id <;> exact ⟨rfl, rfl⟩)

omit [DecidableEq Cmd] in
theorem prepare_accessed (h : c.prepare iface params = some (c', events)) :
    c.toQueues.Accessed (c.refresh.accesses iface) c'.toQueues := by
  obtain ⟨⟨c₂, refreshed⟩, hrefreshed, heq⟩ := Option.map_eq_some_iff.mp h
  obtain ⟨rfl, -⟩ := Prod.mk.inj heq
  have hclock : c.toQueues.Accessed [] { c.toQueues with clk := c.clk + 1 } :=
    .of_bufferOf fun id => by cases id <;> exact ⟨rfl, rfl⟩
  let c₁ : AiMDRAMController Cmd := { c with clk := c.clk + 1 }
  have hserved := hclock.trans (serveCompletedReqs_accessed c₁)
  have hsent : c₁.serveCompletedReqs.1.toQueues.Accessed
      (c₁.serveCompletedReqs.1.refresh.accesses iface) c₂.toQueues :=
    refreshTick_accessed hrefreshed
  rw [(SameRest.serveCompletedReqs c₁).refresh] at hsent
  exact hserved.trans hsent

omit [DecidableEq Cmd] in
theorem pluginSends_accessed {plugins : List Request}
    (h : c.pluginSends iface plugins = some (c', events)) :
    c.toQueues.Accessed (pluginAccesses plugins) c'.toQueues ∧ SameRest c c' := by
  induction plugins generalizing c events with
  | nil =>
      obtain ⟨rfl, -⟩ := Option.some.inj h
      exact ⟨.of_bufferOf fun _ => ⟨rfl, rfl⟩, .refl _⟩
  | cons req reqs ih =>
      obtain ⟨⟨ok, c₁, events₁⟩, hfirst, h⟩ := Option.bind_eq_some_iff.mp h
      obtain ⟨⟨c₂, events₂⟩, hrest, heq⟩ := Option.map_eq_some_iff.mp h
      obtain ⟨rfl, -⟩ := Prod.mk.inj heq
      obtain ⟨haccessed, hsame⟩ := ih hrest
      exact ⟨(prioritySend_accessed hfirst).trans haccessed,
        (SameRest.prioritySend hfirst).trans hsame⟩

theorem moveIssued_accessed {c : Queues Cmd} {s : Scheduled Cmd} {cmd : Cmd}
    (hs : s.index < c.sizes s.buffer) :
    c.Accessed (s.accesses cmd (s.req.req.type ≠ .AIM && (iface.commandMeta cmd).isOpening))
      (moveIssued iface c s (stampIssue c s.req) cmd) := by
  have hsame := SameRequest.stampIssue c s.req
  unfold moveIssued Scheduled.accesses
  rw [hsame.finalCommand, hsame.req]
  split
  · -- pending requests are not in a buffer
    have hremoved := Queues.Accessed.remove hs
    refine hremoved.trans (.of_bufferOf fun id => ?_)
    dsimp only
    split <;> cases id <;> exact ⟨rfl, rfl⟩
  · split
    · next hopens =>
        rw [if_pos (by simpa using hopens)]
        exact .move _ hs
    · next hopens =>
        rw [if_neg (by simpa using hopens)]
        exact .write c _ _ _

theorem serveScheduled_accessed {s : Scheduled Cmd} (hs : s.index < c.toQueues.sizes s.buffer)
    (h : c.serveScheduled iface dev (some s) = some (c', dev', events)) :
    c.toQueues.Accessed (c.serveAccesses iface s) c'.toQueues := by
  rw [serveScheduled] at h
  unfold serveAccesses
  split at h
  · next hbarrier =>
      obtain ⟨rfl, -⟩ := Prod.mk.inj (Option.some.inj h)
      rw [if_pos hbarrier]
      refine (Queues.Accessed.remove hs).trans (.of_bufferOf fun id => ?_)
      cases id <;> exact ⟨rfl, rfl⟩
  · next hbarrier =>
      obtain ⟨requires, hrequires, heq⟩ := Option.map_eq_some_iff.mp h
      obtain ⟨rfl, -⟩ := Prod.mk.inj heq
      rw [if_neg hbarrier, hrequires]
      exact moveIssued_accessed hs

theorem tickWith_accessed {plugins : List Request}
    (h : c.tickWith iface params (iface.tick dev) plugins = some (c', dev', events)) :
    c.toQueues.Accessed (c.accesses iface params dev (.tick plugins)) c'.toQueues := by
  obtain ⟨⟨c₁, prepared⟩, hprep, h⟩ := Option.bind_eq_some_iff.mp h
  obtain ⟨⟨c₂, sent⟩, hsent, h⟩ := Option.bind_eq_some_iff.mp h
  obtain ⟨⟨c₃, dev₃, served⟩, hserved, heq⟩ := Option.map_eq_some_iff.mp h
  obtain ⟨rfl, -⟩ := Prod.mk.inj heq
  obtain ⟨hplugins, hmode⟩ := pluginSends_accessed hsent
  rw [scheduleRequest_toQueues] at hplugins
  have hstandby : (c₃.countStandby iface params dev₃).toQueues = c₃.toQueues := by
    unfold countStandby
    split <;> rfl
  refine (prepare_accessed hprep).trans (hplugins.trans ?_)
  rw [hstandby, nextScheduled, hprep, Option.bind_some]
  dsimp only at hserved ⊢
  cases hsched : (c₁.scheduleRequest iface params (iface.tick dev)).2 with
  | none =>
      rw [hsched, serveScheduled] at hserved
      have hsame : c₃.toQueues = c₂.toQueues := by
        split at hserved <;> obtain ⟨rfl, -⟩ := Prod.mk.inj (Option.some.inj hserved) <;> rfl
      rw [hsame]
      exact .of_bufferOf fun _ => ⟨rfl, rfl⟩
  | some s =>
      rw [hsched] at hserved
      have hstands := (scheduleRequest_picked iface hsched).stands
      have hgrown : c₁.toQueues.sizes s.buffer ≤ c₂.toQueues.sizes s.buffer := by
        rw [hplugins.sizes]
        exact le_run_of_offers (pluginAccesses_offers plugins) s.buffer
      have hindex := Nat.lt_of_lt_of_le (List.getElem?_eq_some_iff.mp hstands).1 hgrown
      have hserve := serveScheduled_accessed hindex hserved
      -- neither the scheduler nor a plugin changes the register mode
      have hregRW : c₂.isRegRWMode = c₁.isRegRWMode :=
        hmode.isRegRWMode.trans (SameRest.scheduleRequest c₁ _).isRegRWMode
      unfold serveAccesses issuedCommand at hserve ⊢
      rw [hregRW] at hserve
      exact hserve

end AiMDRAMController

theorem Chan.call_accessed {iface : IDRAM Dev Cmd} {params : Params} {s t : Chan Dev Cmd}
    {call : Call Cmd} (h : s.call iface params call = some t) :
    s.ctl.toQueues.Accessed (s.ctl.accesses iface params s.dev call) t.ctl.toQueues := by
  cases call with
  | send req =>
      obtain ⟨⟨ok, ctl, events⟩, hsent, rfl⟩ := Option.map_eq_some_iff.mp h
      exact AiMDRAMController.send_accessed hsent
  | prioritySend req =>
      obtain ⟨⟨ok, ctl, events⟩, hsent, rfl⟩ := Option.map_eq_some_iff.mp h
      exact AiMDRAMController.prioritySend_accessed hsent
  | tick plugins =>
      obtain ⟨⟨ctl, dev, events⟩, hticked, rfl⟩ := Option.map_eq_some_iff.mp h
      exact AiMDRAMController.tickWith_accessed hticked
  | issueElsewhere cmd addrVec =>
      obtain rfl := Option.some.inj h
      exact .of_bufferOf fun _ => ⟨rfl, rfl⟩

end AimSimulator.Controller
