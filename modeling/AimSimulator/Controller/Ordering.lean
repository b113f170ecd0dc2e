import AimSimulator.Controller.Conservation
import AimSimulator.Dram.GDDR6
/-!
# AiM and conventional requests on one channel

`send` refuses an AiM request while the read or the write buffer holds one, and a
conventional request while the AiM buffer holds one.  A conventional request whose row
is being opened stands in the active buffer, where `send` does not look.  In the runs
where no AiM request is accepted over such a request, the two kinds are never
outstanding together and every earlier request of the other kind has been served.
-/

namespace AimSimulator.Controller

open Dram

variable {Dev Cmd : Type} [DecidableEq Cmd] {iface : IDRAM Dev Cmd}

/-- No AiM request stands in a buffer while a conventional one does. -/
def Queues.Separate (c : Queues Cmd) : Prop :=
  ∀ id id', ∀ q ∈ (c.bufferOf id).buffer, ∀ q' ∈ (c.bufferOf id').buffer,
    q.req.type = .AIM → q'.req.isConventional = false

def Queues.NoneActive (c : Queues Cmd) : Prop :=
  ∀ q ∈ c.activeBuffer.buffer, q.req.isConventional = false

/-- The condition on each call: no AiM request is accepted over a conventional request in
the active buffer, no request comes by `priority_send` but the refreshes of the
controller, and the active buffer has room. -/
def Ordered (s : Chan Dev Cmd) : Op → Prop
  | .send req => req.type = .AIM → s.ctl.readBuffer.buffer = [] →
      s.ctl.writeBuffer.buffer = [] → s.ctl.NoneActive
  | .prioritySend _ => False
  | .tick => s.ctl.activeBuffer.size ≤ s.ctl.activeBuffer.maxSize

instance (s : Chan Dev Cmd) : (op : Op) → Decidable (Ordered s op)
  | .send req => inferInstanceAs (Decidable (req.type = .AIM → s.ctl.readBuffer.buffer = [] →
      s.ctl.writeBuffer.buffer = [] → ∀ q ∈ s.ctl.activeBuffer.buffer,
        q.req.isConventional = false))
  | .prioritySend _ => inferInstanceAs (Decidable False)
  | .tick => inferInstanceAs (Decidable (s.ctl.activeBuffer.size ≤ s.ctl.activeBuffer.maxSize))

/-- What an ordered run knows of a request that enters a buffer. -/
def Unmixed (c : Queues Cmd) (id : BufferId) (req : Request) : Prop :=
  match id with
  | .priority => req.type ≠ .AIM ∧ req.isConventional = false
  | .aim => c.NoneActive
  | _ => True

/-- The part of separation that `Sound` does not give. -/
structure Unmixing (c : Queues Cmd) : Prop where
  priority : ∀ q ∈ c.priorityBuffer.buffer, q.req.type ≠ .AIM ∧ q.req.isConventional = false
  active : c.aimBuffer.buffer ≠ [] → c.NoneActive

omit [DecidableEq Cmd] in
theorem isConventional_of_type {req : Request} (h : req.type = .Read ∨ req.type = .Write) :
    req.isConventional = true := by
  rcases h with h | h <;> simp [Request.isConventional, h]

namespace Unmixing

omit [DecidableEq Cmd] in
theorem queueStep {c c' : Queues Cmd} {events : List (Event Cmd)}
    (hstep : QueueStep iface Unmixed c events c') (h : Unmixing c) : Unmixing c' := by
  cases hstep with
  | @accept id q _ _ hadmits hgate _ =>
      cases hgate with
      | priority =>
          refine ⟨fun x hx => ?_, h.active⟩
          rcases List.mem_append.mp hx with hx | hx
          · exact h.priority x hx
          · rw [List.mem_singleton.mp hx]
            exact hadmits
      | aim _ _ _ => exact ⟨h.priority, fun _ => hadmits⟩
      | read _ _ => exact ⟨h.priority, h.active⟩
      | write _ _ => exact ⟨h.priority, h.active⟩
  | _ => exact ⟨h.priority, h.active⟩

/-- A request moves to the active buffer only from the buffers of conventional requests,
which are empty while an AiM request is queued. -/
theorem serveStep {c c' : Queues Cmd} {s : Scheduled Cmd} {log events : List (Event Cmd)}
    (hs : (c.bufferOf s.buffer).buffer[s.index]? = some s.req)
    (hstep : ServeStep iface c s events c') (hsound : Sound iface c log) (h : Unmixing c) :
    Unmixing c' := by
  refine ⟨fun q' hq' => ?_, fun haim q' hq' => ?_⟩
  · rcases serve_mem hstep hs .priority hq' with ⟨q, hq, hsame⟩ | ⟨hid, -⟩
    · rw [hsame.req]
      exact h.priority q hq
    · cases hid
  · obtain ⟨x', hx'⟩ := List.exists_mem_of_ne_nil _ haim
    have haim : c.aimBuffer.buffer ≠ [] := by
      rcases serve_mem hstep hs .aim hx' with ⟨x, hx, -⟩ | ⟨hid, -⟩
      · exact List.ne_nil_of_mem hx
      · cases hid
    rcases serve_mem hstep hs .active hq' with ⟨q, hq, hsame⟩ | ⟨-, hsame, htype⟩
    · rw [hsame.req]
      exact h.active haim q hq
    · rw [hsame.req]
      have hmem := List.mem_of_getElem? hs
      obtain ⟨hread, hwrite⟩ := hsound.exclusive haim
      have hplaced := hsound.placed s.buffer s.req hmem
      cases hid : s.buffer with
      | active => exact h.active haim s.req (by rw [hid] at hmem; exact hmem)
      | priority => exact (h.priority s.req (by rw [hid] at hmem; exact hmem)).2
      | read => simp [hid, Queues.bufferOf, hread] at hmem
      | write => simp [hid, Queues.bufferOf, hwrite] at hmem
      | aim =>
          rw [hid] at hplaced
          exact absurd hplaced htype

theorem separate {c : Queues Cmd} {log : List (Event Cmd)} (hsound : Sound iface c log)
    (h : Unmixing c) : c.Separate := by
  intro id id' q hq q' hq' htype
  have haim : c.aimBuffer.buffer ≠ [] := by
    have hplaced := hsound.placed id q hq
    cases id with
    | active => exact absurd htype hplaced
    | priority => exact absurd htype (h.priority q hq).1
    | read => rw [Placed, htype] at hplaced; cases hplaced
    | write => rw [Placed, htype] at hplaced; cases hplaced
    | aim => exact List.ne_nil_of_mem hq
  obtain ⟨hread, hwrite⟩ := hsound.exclusive haim
  cases id' with
  | active => exact h.active haim q' hq'
  | priority => exact (h.priority q' hq').2
  | read => simp [Queues.bufferOf, hread] at hq'
  | write => simp [Queues.bufferOf, hwrite] at hq'
  | aim =>
      have hplaced : q'.req.type = .AIM := hsound.placed .aim q' hq'
      simp [Request.isConventional, hplaced]

end Unmixing

namespace Chan

variable {params : Params} {dev₀ : Dev} {s : Chan Dev Cmd}

theorem unmixing (hr : Chan.Run iface params dev₀ Ordered s) :
    Sound iface s.ctl.toQueues s.log ∧ Unmixing s.ctl.toQueues := by
  refine Chan.invariant Unmixed
    (I := fun c log => Sound iface c log ∧ Unmixing c) ?_ ?_ ?_ ?_ ?_ ?_ hr
  · exact ⟨.init, fun q hq => (List.not_mem_nil hq).elim, fun h => absurd rfl h⟩
  · exact fun c log events c' hstep h => ⟨h.1.queueStep hstep, h.2.queueStep hstep⟩
  · exact fun c rank => ⟨(nomatch ·), rfl⟩
  · intro s req hg id hgate hid
    cases hgate with
    | priority => exact absurd rfl hid
    | aim htype hread hwrite => exact hg htype hread hwrite
    | read _ _ => trivial
    | write _ _ => trivial
  · exact fun s req hg => hg.elim
  · intro s c₁ sched _ hnext log events q' h hstep
    have hs := (AiMDRAMController.nextScheduled_picked iface hnext).stands
    exact ⟨h.1.serveStep hs hstep, h.2.serveStep hs hstep h.1⟩

theorem served_of_not_buffered {guard : Chan Dev Cmd → Op → Prop}
    (hroom : ∀ s, guard s .tick → s.ctl.activeBuffer.size ≤ s.ctl.activeBuffer.maxSize)
    (hr : Chan.Run iface params dev₀ guard s) {q : Queued Cmd} (hq : q ∈ accepted s.log)
    (hnot : ∀ id, ∀ q' ∈ (s.ctl.bufferOf id).buffer, q'.key ≠ q.key) : Served s.log q := by
  have hsound := Chan.sound hr
  obtain ⟨q', hkey, hplace⟩ := (Chan.conserved hroom hr).located hq
  have hfinal := hsound.final_eq hkey (hplace.imp_right .inl) (.inr (.inr hq))
  refine Served.congr hkey.symm hfinal.symm (hsound.served q' ?_)
  rcases hplace with hplace | hplace
  · rcases Queues.mem_outstanding.mp hplace with h | h | ⟨id, h⟩
    · exact .inl h
    · exact .inr (.inl h)
    · exact absurd hkey (hnot id q' h)
  · exact .inr (.inr hplace)

end Chan

omit [DecidableEq Cmd] in
theorem AiMDRAMController.send_gate {c c' : AiMDRAMController Cmd} {req : Request}
    {events : List (Event Cmd)} (h : c.send iface req = some (true, c', events)) :
    ∃ id, id ≠ .priority ∧ c.Gate req id := by
  unfold send at h
  split at h
  · next htype =>
      split at h
      · simp at h
      · next hempty =>
          rw [not_or] at hempty
          exact ⟨.aim, by simp, .aim htype (size_eq_zero hempty.2) (size_eq_zero hempty.1)⟩
  · split at h
    · simp at h
    · next haim =>
        obtain ⟨final, -, h⟩ := Option.bind_eq_some_iff.mp h
        split at h
        · next hread => exact ⟨.read, by simp, .read hread (size_eq_zero haim)⟩
        · next hwrite => exact ⟨.write, by simp, .write hwrite (size_eq_zero haim)⟩
        · cases h

/-- In every ordered run the two kinds of requests are separate, and a request is taken
only after all earlier requests of the other kind have been served. -/
theorem send_ordered {params : Params} {dev₀ : Dev} {s : Chan Dev Cmd}
    (hr : Chan.Run iface params dev₀ Ordered s) :
    s.ctl.Separate ∧
      ∀ req ctl events, Ordered s (.send req) →
        s.ctl.send iface req = some (true, ctl, events) →
          (req.type = .AIM →
            ∀ q ∈ accepted s.log, q.req.isConventional = true → Served s.log q) ∧
          (req.isConventional = true →
            ∀ q ∈ accepted s.log, q.req.type = .AIM → Served s.log q) := by
  obtain ⟨hsound, hunmixing⟩ := Chan.unmixing hr
  refine ⟨hunmixing.separate hsound, fun req ctl events hg hsend => ?_⟩
  obtain ⟨id, hid, hgate⟩ := AiMDRAMController.send_gate hsend
  have hserved := fun q hq hnot => Chan.served_of_not_buffered (q := q)
    (fun _ h => h) hr hq hnot
  -- a copy that stands in a buffer has the type of the accepted request
  constructor
  · intro htype q hq hconv
    refine hserved q hq fun id' q' hq' hkey => ?_
    have hreq : q'.req = q.req := (Prod.mk.inj hkey).2
    rw [← hreq] at hconv
    have hplaced := hsound.placed id' q' hq'
    cases hgate with
    | priority => exact hid rfl
    | read h _ => rw [htype] at h; cases h
    | write h _ => rw [htype] at h; cases h
    | aim _ hread hwrite =>
        cases id' with
        | active => simp [hg htype hread hwrite q' hq'] at hconv
        | priority => simp [(hunmixing.priority q' hq').2] at hconv
        | read => simp [Queues.bufferOf, hread] at hq'
        | write => simp [Queues.bufferOf, hwrite] at hq'
        | aim =>
            have hplaced : q'.req.type = .AIM := hplaced
            simp [Request.isConventional, hplaced] at hconv
  · intro hconv q hq htype
    refine hserved q hq fun id' q' hq' hkey => ?_
    have hreq : q'.req = q.req := (Prod.mk.inj hkey).2
    rw [← hreq] at htype
    have hplaced := hsound.placed id' q' hq'
    have haim : s.ctl.aimBuffer.buffer = [] := by
      cases hgate with
      | priority => exact absurd rfl hid
      | aim h _ _ => simp [Request.isConventional, h] at hconv
      | read _ h => exact h
      | write _ h => exact h
    cases id' with
    | active => exact hplaced htype
    | priority => exact (hunmixing.priority q' hq').1 htype
    | read => rw [Placed, htype] at hplaced; cases hplaced
    | write => rw [Placed, htype] at hplaced; cases hplaced
    | aim => simp [Queues.bufferOf, haim] at hq'

/-! ## Runs of GDDR6 -/

/-- A read, and a `MAC_SBK` of another bank. -/
def aRead : Request := { type := .Read, addrVec := [0, 1, 1, 5, 0] }

def otherMac : Request := { type := .AIM, opcode := .ISR_MAC_SBK, addrVec := [0, 0, 0, 7, 0] }

/-- An ordered run: the `MAC_SBK` is sent after the read was served. -/
theorem send_ordered_read_mac :
    ((Chan.replay GDDR6.aimModel.idram { channelId := 0 } GDDR6.x16Device
      (fun s op => decide (Ordered s op))
      (.send aRead :: List.replicate 40 .tick ++ [.send otherMac])).get
        (by decide +kernel)).ctl.Separate :=
  (send_ordered (Chan.replay_run (fun _ _ => of_decide_eq_true)
    (Option.some_get _).symm)).1

/-- The run that is not ordered: after one `tick` the bank of the read is being opened, the
read stands in the active buffer, and `send` takes the `MAC_SBK` before the read has been
served. -/
theorem send_over_active :
    ∃ s, Chan.Run GDDR6.aimModel.idram { channelId := 0 } GDDR6.x16Device
        (fun _ op => op.isPriority = false) s ∧
      ∃ ctl events, s.ctl.send GDDR6.aimModel.idram otherMac = some (true, ctl, events) ∧
        ∃ q ∈ accepted s.log, q.req.isConventional = true ∧ ¬ Served s.log q := by
  have hrun : ((Chan.replay GDDR6.aimModel.idram { channelId := 0 } GDDR6.x16Device
      (fun _ op => !op.isPriority) [.send aRead, .tick]).any fun s =>
      ((s.ctl.send GDDR6.aimModel.idram otherMac).any fun r => r.1) &&
        (accepted s.log).any fun q => q.req.isConventional && !decide (Served s.log q)) =
      true := by
    decide +kernel
  obtain ⟨s, hs, htest⟩ := Option.any_eq_true .. |>.mp hrun
  obtain ⟨hsend, hlog⟩ := Bool.and_eq_true_iff.mp htest
  obtain ⟨⟨ok, ctl, events⟩, hsend, rfl⟩ := Option.any_eq_true .. |>.mp hsend
  obtain ⟨q, hq, hunserved⟩ := List.any_eq_true.mp hlog
  obtain ⟨hconv, hserved⟩ := Bool.and_eq_true_iff.mp hunserved
  exact ⟨s, Chan.replay_run (by simp) hs, ctl, events, hsend, q, hq, hconv,
    by simpa using hserved⟩

end AimSimulator.Controller
