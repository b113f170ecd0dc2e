import AimSimulator.Controller.ActiveBuffer
import AimSimulator.Controller.Held
import AimSimulator.Controller.Locality
/-!
# A generic controller loses no read

A read leaves a generic controller by its callback alone, as long as the active buffer has
room for the requests whose bank was opened.  It has, where a channel has at most 32 banks:
no two active requests are for one bank.
-/

namespace AimSimulator.Controller

open Dram

/-! ## What a call does to them -/

namespace GenericDRAMController

variable {Dev Cmd : Type} {iface : IDRAM Dev Cmd} {params : GenericParams}
  {p : Request → Bool} {c c' : GenericDRAMController Cmd} {dev dev' : Dev}

theorem enqueueTo_held {id : BufferId} {q : Queued Cmd} {ok : Bool}
    (h : c.enqueueTo id q = (ok, c')) : c'.held p = c.held p + (ok && p q.req).toNat := by
  unfold enqueueTo at h
  split at h
  · next b hroom =>
      obtain ⟨rfl, rfl⟩ := Prod.mk.inj h
      have hbuffer : b.buffer = (c.bufferOf id).buffer ++ [q] := by
        unfold ReqBuffer.enqueue at hroom
        split at hroom
        · obtain rfl := Option.some.inj hroom
          rfl
        · cases hroom
      have hset := c.held_setBuffer (p := p) id b
      rw [hbuffer, countReqs_append, countReqs_singleton] at hset
      have hseq : Queues.held p { c.setBuffer id b with nextSeq := c.nextSeq + 1 } =
        (c.setBuffer id b).held p := rfl
      rw [Bool.true_and, hseq]
      omega
  · obtain ⟨rfl, rfl⟩ := Prod.mk.inj h
    rfl

theorem send_held {req : Request} {ok : Bool} (h : c.send iface req = some (ok, c')) :
    c'.held p = c.held p + (ok && p req).toNat := by
  obtain ⟨final, -, h⟩ := Option.bind_eq_some_iff.mp h
  split at h
  · split at h
    · obtain ⟨rfl, rfl⟩ := Prod.mk.inj (Option.some.inj h)
      rw [Bool.true_and]
      exact c.held_pending { req, finalCommand := final, depart := c.clk + 1, seq := c.nextSeq }
    · exact enqueueTo_held (Option.some.inj h)
  · exact enqueueTo_held (Option.some.inj h)
  · cases h

theorem prioritySend_held {req : Request} {ok : Bool}
    (h : c.prioritySend iface req = some (ok, c')) (hreq : p req = false) :
    c'.held p = c.held p := by
  obtain ⟨final, -, henqueue⟩ := Option.map_eq_some_iff.mp h
  have hheld := enqueueTo_held (p := p) henqueue
  dsimp only at hheld
  rw [hheld, hreq, Bool.and_false]
  rfl

theorem pluginSends_held {plugins : List Request} (h : c.pluginSends iface plugins = some c')
    (hplugins : ∀ req ∈ plugins, p req = false) : c'.held p = c.held p :=
  pluginSends_induct (I := fun c' => c'.held p = c.held p) h
    (fun req hreq _ _ _ hsent hc => (prioritySend_held hsent (hplugins req hreq)).trans hc) rfl

theorem serveCompletedReads_held (c : GenericDRAMController Cmd) :
    c.serveCompletedReads.1.held p + countReqs p c.serveCompletedReads.2 = c.held p := by
  rcases c.serveCompletedReads_cases with ⟨q, rest, heq, -, hserved⟩ | hserved <;> rw [hserved]
  · have hcons : countReqs p (q :: rest) = countReqs p [q] + countReqs p rest :=
      countReqs_append [q] rest
    unfold Queues.held
    simp only [Queues.outstanding, heq, countReqs_append]
    omega
  · rfl

theorem prepare_held {called : List (Queued Cmd)} (h : c.prepare iface params = some (c', called))
    (hrefresh : ∀ rank, p (refreshOf iface params rank) = false) :
    c'.held p + countReqs p called = c.held p := by
  have hserved := serveCompletedReads_held (p := p) { c with clk := c.clk + 1 }
  rw [prepare_called h] at hserved
  rw [← show _ = c.held p from hserved]
  refine prepare_induct (I := fun q => q.held p + countReqs p called = _) h ?_ rfl
  intro rank c c' ok hsent hc
  rw [prioritySend_held hsent (hrefresh rank)]
  exact hc

/-! ## The active buffer before a command is issued -/

/-- Requests are put behind those that stand in the buffers, and none is made active. -/
structure Grows (c c' : Queues Cmd) : Prop where
  active : c'.activeBuffer = c.activeBuffer
  stands : ∀ {id} {i : Nat} {q}, (c.bufferOf id).buffer[i]? = some q →
    (c'.bufferOf id).buffer[i]? = some q

theorem prioritySend_grows {req : Request} {ok : Bool}
    (h : c.prioritySend iface req = some (ok, c')) : Grows c.toQueues c'.toQueues := by
  obtain ⟨final, -, henqueue⟩ := Option.map_eq_some_iff.mp h
  unfold enqueueTo at henqueue
  split at henqueue
  · next b hroom =>
      obtain ⟨-, rfl⟩ := henqueue
      refine ⟨rfl, fun {id i q} hq => ?_⟩
      cases id with
      | priority =>
          unfold ReqBuffer.enqueue at hroom
          split at hroom
          · obtain rfl := Option.some.inj hroom
            exact (List.getElem?_append_left (List.getElem?_eq_some_iff.mp hq).1).trans hq
          · cases hroom
      | _ => exact hq
  · obtain ⟨-, rfl⟩ := henqueue
    exact ⟨rfl, id⟩

theorem send_active {req : Request} {ok : Bool} (h : c.send iface req = some (ok, c')) :
    c'.activeBuffer = c.activeBuffer := by
  have hqueue : ∀ {id q}, id ≠ .active → c.enqueueTo id q = (ok, c') →
      c'.activeBuffer = c.activeBuffer := by
    intro id q hid henqueue
    unfold enqueueTo at henqueue
    split at henqueue
    · obtain ⟨-, rfl⟩ := henqueue
      cases id <;> first | rfl | exact absurd rfl hid
    · obtain ⟨-, rfl⟩ := henqueue
      rfl
  obtain ⟨final, -, h⟩ := Option.bind_eq_some_iff.mp h
  split at h
  · split at h
    · obtain ⟨-, rfl⟩ := Option.some.inj h
      rfl
    · exact hqueue (by decide) (Option.some.inj h)
  · exact hqueue (by decide) (Option.some.inj h)
  · cases h

theorem pluginSends_grows {plugins : List Request} (h : c.pluginSends iface plugins = some c') :
    Grows c.toQueues c'.toQueues := by
  refine pluginSends_induct (I := Grows c.toQueues) h ?_ ⟨rfl, id⟩
  intro req _ c₁ c₂ ok hsent hc
  have hgrows := prioritySend_grows hsent
  exact ⟨hgrows.active.trans hc.active, fun hq => hgrows.stands (hc.stands hq)⟩

theorem prepare_activeBuffer {called : List (Queued Cmd)}
    (h : c.prepare iface params = some (c', called)) : c'.activeBuffer = c.activeBuffer := by
  refine prepare_induct (I := fun q => q.activeBuffer = c.activeBuffer) h ?_ ?_
  · intro rank c₁ c₂ ok hsent hc
    exact (prioritySend_grows hsent).active.trans hc
  · rcases { c with clk := c.clk + 1 }.serveCompletedReads_cases with
      ⟨head, rest, -, -, hserved⟩ | hserved <;> rw [hserved]

variable [DecidableEq Cmd]

variable (iface params) in
/-- A request whose command was issued is still held, but for a write after its last one. -/
theorem moveIssued_held (hreads : ∀ req, p req = true → req.type = .Read) {c : Queues Cmd}
    {s : Scheduled Cmd} (hstands : (c.bufferOf s.buffer).buffer[s.index]? = some s.req)
    (hroom : c.activeBuffer.size ≤ c.activeBuffer.maxSize) :
    (moveIssued iface params c s).held p = c.held p := by
  have hremove := Queues.held_removeAt (p := p) hstands
  unfold moveIssued
  split
  · dsimp only
    split
    · rw [Queues.held_pending]
      exact hremove
    · next hread =>
        have hp : p s.req.req = false := Bool.eq_false_iff.mpr fun h => hread (hreads _ h)
        rw [hp] at hremove
        exact hremove
  · split
    · have hmoved := Queues.held_activate (p := p) hstands s.req
      rw [if_pos hroom] at hmoved
      exact Nat.add_right_cancel hmoved
    · rfl

variable (iface params) in
theorem moveIssued_active {c : Queues Cmd} {s : Scheduled Cmd}
    (hstands : (c.bufferOf s.buffer).buffer[s.index]? = some s.req) :
    (moveIssued iface params c s).activeBuffer.maxSize = c.activeBuffer.maxSize ∧
    ((moveIssued iface params c s).activeBuffer.buffer.Subperm c.activeBuffer.buffer ∨
      (s.buffer ≠ .active ∧ (iface.commandMeta s.command).isOpening = true ∧
        (moveIssued iface params c s).activeBuffer.buffer = c.activeBuffer.buffer ++ [s.req])) := by
  have hremove : ∀ c : Queues Cmd,
      (c.removeAt s.buffer s.index).activeBuffer.maxSize = c.activeBuffer.maxSize ∧
        (c.removeAt s.buffer s.index).activeBuffer.buffer.Subperm c.activeBuffer.buffer := by
    intro c
    cases s.buffer with
    | active => exact ⟨rfl, (List.eraseIdx_sublist ..).subperm⟩
    | _ => exact ⟨rfl, .refl _⟩
  unfold moveIssued
  split
  · dsimp only
    split <;> exact ⟨(hremove c).1, .inl (hremove c).2⟩
  · split
    · next hopen =>
        dsimp only
        generalize hb : (c.activeBuffer.enqueue s.req).getD c.activeBuffer = b
        have hmax : b.maxSize = c.activeBuffer.maxSize := by
          rw [← hb]
          unfold ReqBuffer.enqueue
          split <;> rfl
        have hbuffer := enqueue_getD_buffer c.activeBuffer s.req
        rw [hb] at hbuffer
        refine ⟨(hremove { c with activeBuffer := b }).1.trans hmax, ?_⟩
        split at hbuffer
        · cases hid : s.buffer with
          | active =>
              -- the request leaves its old place and stands at the end again
              rw [hid] at hstands
              have hstands : c.activeBuffer.buffer[s.index]? = some s.req := hstands
              obtain ⟨hi, hget⟩ := List.getElem?_eq_some_iff.mp hstands
              refine .inl ?_
              show (b.buffer.eraseIdx s.index).Subperm _
              rw [hbuffer, List.eraseIdx_append_of_lt_length hi]
              refine ((List.perm_append_singleton _ _).trans ?_).subperm
              rw [← hget]
              exact List.getElem_cons_eraseIdx_perm hi
          | _ => exact .inr ⟨nofun, hopen, hbuffer⟩
        · have hsub := (hremove { c with activeBuffer := b }).2
          exact .inl (hbuffer ▸ hsub)
    · exact ⟨rfl, .inl (.refl _)⟩

theorem tick_held (hreads : ∀ req, p req = true → req.type = .Read) {plugins : List Request}
    {called : List (Queued Cmd)} (h : c.tick iface params dev plugins = some (c', dev', called))
    (hplugins : ∀ req ∈ plugins, p req = false)
    (hroom : c.activeBuffer.size ≤ c.activeBuffer.maxSize) :
    c'.held p + countReqs p called = c.held p := by
  obtain ⟨⟨c₁, called₁⟩, hprep, h⟩ := Option.bind_eq_some_iff.mp h
  obtain ⟨c₂, hsent, heq⟩ := Option.map_eq_some_iff.mp h
  simp only [Prod.mk.injEq] at heq
  obtain ⟨rfl, rfl, rfl⟩ := heq
  have hrefresh : ∀ rank, p (refreshOf iface params rank) = false :=
    fun rank => Bool.eq_false_iff.mpr fun h => ReqType.noConfusion (hreads _ h)
  have hprepared := prepare_held hprep hrefresh
  have hplugged := pluginSends_held hsent hplugins
  rw [scheduleRequest_toQueues] at hplugged
  cases hfound : (c₁.scheduleRequest iface params dev).2 with
  | none => exact (congrArg (· + _) hplugged).trans hprepared
  | some s =>
      have hgrows := pluginSends_grows hsent
      rw [scheduleRequest_toQueues] at hgrows
      have hmoved := moveIssued_held iface params hreads
        (hgrows.stands (scheduleRequest_stands hfound).2)
        (by rw [hgrows.active, prepare_activeBuffer hprep]; exact hroom)
      exact (congrArg (· + _) (hmoved.trans hplugged)).trans hprepared

end GenericDRAMController

/-! ## Runs of one controller -/

section

variable {Cmd St Ext : Type} [DecidableEq Cmd] {model : DRAMModel Cmd St Ext}
  {count : Nat → Int} {params : GenericParams} {s t : GenericChan model.Dev Cmd}

abbrev OwnRequest (model : DRAMModel Cmd St Ext) (params : GenericParams) (req : Request)
    (final : Cmd) : Prop :=
  model.requestTranslations req.type = some final ∧ req.addrVec.at 0 = params.channelId

/-- What keeps room in the active buffer: the device agrees with some history, and no two active
requests are for one bank. -/
structure HasRoom (model : DRAMModel Cmd St Ext) (count : Nat → Int) (params : GenericParams)
    (s : GenericChan model.Dev Cmd) : Prop where
  device : ∃ history, model.DeviceTiming count ⟨s.dev, history⟩
  hold : s.ctl.toQueues.Hold (OwnRequest model params)
  maxSize : s.ctl.activeBuffer.maxSize = 32
  active : ActiveBanks model count (s.ctl.activeBuffer.buffer.map activeEntry)

omit [DecidableEq Cmd] in
theorem HasRoom.room [DecidableEq Cmd] (h : HasRoom model count params s)
    (hbanks : (model.paths count model.bankLevel).length ≤ 32) :
    s.ctl.activeBuffer.size ≤ s.ctl.activeBuffer.maxSize := by
  have hlength := h.active.length_le fun e he => by
    obtain ⟨q, hq, rfl⟩ := List.mem_map.mp he
    exact (h.hold.buffered .active hq).2
  rw [List.length_map] at hlength
  rw [h.maxSize]
  exact Nat.le_trans hlength hbanks

theorem given_own {req : Request} (hreq : req.addrVec.at 0 = params.channelId) :
    GenericDRAMController.Given model.idram (OwnRequest model params) req :=
  fun _ hfinal => ⟨hfinal, hreq⟩

theorem given_own_refresh (rank : Nat) : GenericDRAMController.Given model.idram
    (OwnRequest model params) (GenericDRAMController.refreshOf model.idram params rank) :=
  given_own rfl

/-- A serving step keeps one active request for each bank: one for a bank that has another would
share its opening command with it, and the scheduler prefers the active one. -/
theorem ActiveBanks.moveIssued (hopens : model.OpensBank count) {dev : model.Dev}
    {history : List (Issue Cmd)} (hdev : model.DeviceTiming count ⟨dev, history⟩)
    {c c' : Queues Cmd} {sched : Scheduled Cmd}
    (hpreq : sched.command =
      model.getPreqCommand dev sched.req.finalCommand sched.req.req.addrVec)
    (hready : model.checkReady dev sched.command sched.req.req.addrVec = true)
    (hactive : sched.buffer ≠ .active → ∀ q ∈ c.activeBuffer.buffer,
      model.checkReady dev (model.getPreqCommand dev q.finalCommand q.req.addrVec)
        q.req.addrVec = false)
    (hown : OwnRequest model params sched.req.req sched.req.finalCommand)
    (hstands : (c'.bufferOf sched.buffer).buffer[sched.index]? = some sched.req)
    (hsame : c'.activeBuffer = c.activeBuffer)
    (h : ActiveBanks model count (c.activeBuffer.buffer.map activeEntry)) :
    ActiveBanks model count
      ((GenericDRAMController.moveIssued model.idram params c' sched).activeBuffer.buffer.map
        activeEntry) := by
  rcases (GenericDRAMController.moveIssued_active model.idram params
    hstands).2 with hsub | ⟨hbuffer, hopen, happend⟩
  · obtain ⟨l, hperm, hsublist⟩ := hsame ▸ hsub
    exact h.subperm ⟨l.map activeEntry, hperm.map _, hsublist.map _⟩
  · have hopen : (model.commandMeta sched.command).isOpening = true := hopen
    rw [hpreq] at hopen
    obtain ⟨haccess, b, hb⟩ := hopens.access hdev hown.1 hopen
    obtain ⟨path, hpath, hmem⟩ := hdev.named hb
    rw [happend, hsame, List.map_append, List.map_singleton]
    refine h.append haccess hmem hpath fun e he hbank => ?_
    obtain ⟨q, hq, rfl⟩ := List.mem_map.mp he
    have hsame : model.SameBankAddr sched.req.req.addrVec q.req.addrVec :=
      .of_pathOf (Prod.mk.inj hbank).1.symm hpath ((Prod.mk.inj hbank).2.trans hpath)
    have hshared := hopens.shared hdev haccess (h.access _ he) hsame hopen
    have hover := hactive hbuffer q hq
    rw [hsame.checkReady, hpreq] at hready
    rw [show model.getPreqCommand dev q.finalCommand q.req.addrVec = _ from hshared] at hover
    exact absurd (hready.symm.trans hover) Bool.noConfusion

variable (hopens : model.OpensBank count) (hact : model.ActionsKeepTiming count)
  (hwin : model.WindowsPositive)

include hopens hact hwin

theorem HasRoom.tick {plugins : List Request} {c' : GenericDRAMController Cmd} {dev' : model.Dev}
    {called called' : List (Queued Cmd)} (h : HasRoom model count params s)
    (hplugins : ∀ req ∈ plugins, req.addrVec.at 0 = params.channelId)
    (htick : s.ctl.tick model.idram params (model.tick s.dev) plugins =
      some (c', dev', called)) :
    HasRoom model count params ⟨c', dev', called'⟩ := by
  have hold := GenericDRAMController.tick_hold htick (fun req hreq => given_own (hplugins req hreq))
    given_own_refresh h.hold
  obtain ⟨history, hdev⟩ := h.device
  have hticked := hdev.tick
  have hdevice := GenericDRAMController.tick_device htick
  obtain ⟨⟨c₁, called₁⟩, hprep, htick⟩ := Option.bind_eq_some_iff.mp htick
  obtain ⟨c₂, hsent, heq⟩ := Option.map_eq_some_iff.mp htick
  simp only [Prod.mk.injEq] at heq
  obtain ⟨rfl, rfl, -⟩ := heq
  have hactive₁ := GenericDRAMController.prepare_activeBuffer hprep
  have hgrows := GenericDRAMController.pluginSends_grows hsent
  rw [GenericDRAMController.scheduleRequest_toQueues] at hgrows
  cases hfound : (c₁.scheduleRequest model.idram params (model.tick s.dev)).2 with
  | none =>
      have hactive : c₂.activeBuffer = s.ctl.activeBuffer := hgrows.active.trans hactive₁
      refine ⟨⟨history, hticked⟩, ?_, ?_, ?_⟩
      · rw [hfound] at hold
        exact hold
      · exact (congrArg ReqBuffer.maxSize hactive).trans h.maxSize
      · show ActiveBanks model count (c₂.activeBuffer.buffer.map activeEntry)
        rw [hactive]
        exact h.active
  | some sched =>
      rw [hfound] at hold
      obtain ⟨hcommand, hready⟩ := GenericDRAMController.scheduleRequest_command hfound
      have hstands := (GenericDRAMController.scheduleRequest_stands hfound).2
      have hover := (AiMDRAMController.scheduleRequest_picked model.idram
        ((GenericDRAMController.scheduleRequest_eq c₁ (model.tick s.dev)).symm.trans
          hfound)).overActive
      have hown := (GenericDRAMController.prepare_hold hprep given_own_refresh h.hold).buffered _
        (List.mem_of_getElem? hstands)
      have hmoved := ActiveBanks.moveIssued hopens hticked hcommand hready hover hown
        (hgrows.stands hstands) hgrows.active (by
          show ActiveBanks model count (c₁.activeBuffer.buffer.map activeEntry)
          rw [hactive₁]
          exact h.active)
      refine ⟨⟨_, DRAMModel.issueCommand_deviceTiming hact hwin hticked _ _⟩, hold, ?_, hmoved⟩
      refine (GenericDRAMController.moveIssued_active _ _ (hgrows.stands hstands)).1.trans ?_
      rw [hgrows.active, hactive₁]
      exact h.maxSize

/-- In every run of a controller that is given the requests of its channel, the active buffer has
room. -/
theorem run_hasRoom {guard : GenericChan model.Dev Cmd → Call Cmd → Prop}
    (hguard : ∀ s call, guard s call → Own params.channelId call)
    (hr : GenericChan.Run model.idram params (model.createNodes count) guard s) :
    HasRoom model count params s := by
  refine hr.invariant (I := HasRoom model count params) ?_ ?_
  · rintro s rfl
    refine ⟨⟨[], DRAMModel.createNodes_deviceTiming⟩, fun q hq => ?_, rfl, .nil⟩
    rcases Queues.mem_outstanding.mp hq with hq | hq | ⟨id, hq⟩
    · cases hq
    · cases hq
    · cases id <;> cases hq
  · intro s call t h hg hstep
    have hown := hguard s call hg
    cases call with
    | send req =>
        obtain ⟨⟨ok, ctl⟩, hsent, rfl⟩ := Option.map_eq_some_iff.mp hstep
        have hactive := GenericDRAMController.send_active hsent
        exact ⟨h.device, GenericDRAMController.send_hold hsent (given_own hown) h.hold,
          by rw [hactive]; exact h.maxSize, by rw [hactive]; exact h.active⟩
    | prioritySend req =>
        obtain ⟨⟨ok, ctl⟩, hsent, rfl⟩ := Option.map_eq_some_iff.mp hstep
        have hactive := (GenericDRAMController.prioritySend_grows hsent).active
        exact ⟨h.device, GenericDRAMController.prioritySend_hold hsent (given_own hown) h.hold,
          by rw [hactive]; exact h.maxSize, by rw [hactive]; exact h.active⟩
    | tick plugins =>
        obtain ⟨⟨ctl, dev, called⟩, hticked, rfl⟩ := Option.map_eq_some_iff.mp hstep
        exact h.tick hopens hact hwin hown hticked
    | issueElsewhere cmd addrVec => exact hown.elim

end

end AimSimulator.Controller
