import AimSimulator.Controller.Device
import AimSimulator.Controller.GenericDevice
/-!
# What a controller sees of a shared device

A memory system gives all its controllers one device.  A command reaches only the channel that
its address names, so a controller whose requests name one channel sees that channel and the
clock, and leaves the other channels alone.
-/

namespace AimSimulator.Dram

/-- The parts of a device: `agree i` holds of devices with the same part `i`, and a command
depends on the part that its address names and changes no other. -/
structure IDRAM.Parts {Dev Cmd : Type} (iface : IDRAM Dev Cmd) (agree : Int → Dev → Dev → Prop) :
    Prop where
  tick : ∀ {i dev dev'}, agree i dev dev' → agree i (iface.tick dev) (iface.tick dev')
  getPreqCommand : ∀ {i dev dev'}, agree i dev dev' → ∀ cmd (addrVec : AddrVec),
    addrVec.at 0 = i → iface.getPreqCommand dev cmd addrVec = iface.getPreqCommand dev' cmd addrVec
  checkReady : ∀ {i dev dev'}, agree i dev dev' → ∀ cmd (addrVec : AddrVec),
    addrVec.at 0 = i → iface.checkReady dev cmd addrVec = iface.checkReady dev' cmd addrVec
  issueCommand : ∀ {i dev dev'}, agree i dev dev' → ∀ cmd (addrVec : AddrVec),
    addrVec.at 0 = i → agree i (iface.issueCommand dev cmd addrVec)
      (iface.issueCommand dev' cmd addrVec)
  elsewhere : ∀ {i dev dev'}, agree i dev dev' → ∀ cmd (addrVec : AddrVec),
    addrVec.at 0 ≠ i → agree i (iface.issueCommand dev cmd addrVec) dev'
  openRows : ∀ {i dev dev'}, agree i dev dev' → 0 ≤ i → iface.openRows dev i = iface.openRows dev' i

namespace DRAMModel

variable {Cmd St Ext : Type} [DecidableEq Cmd] {model : DRAMModel Cmd St Ext}

omit [DecidableEq Cmd] in
structure SameChannel (i : Int) (dev dev' : model.Dev) : Prop where
  clk : dev.clk = dev'.clk
  channel : 0 ≤ i → dev.channels[i.toNat]? = dev'.channels[i.toNat]?
  openRows : 0 ≤ i → dev.openRows[i.toNat]? = dev'.openRows[i.toNat]?

omit [DecidableEq Cmd] in
theorem SameChannel.refl (i : Int) (dev : model.Dev) : SameChannel i dev dev :=
  ⟨rfl, fun _ => rfl, fun _ => rfl⟩

omit [DecidableEq Cmd] in
theorem SameChannel.channelOf {i : Int} {dev dev' : model.Dev} (h : SameChannel i dev dev')
    {addrVec : AddrVec} (haddr : addrVec.at 0 = i) :
    model.channelOf dev addrVec = model.channelOf dev' addrVec := by
  unfold DRAMModel.channelOf
  split
  · rfl
  · rw [haddr]
    exact h.channel (by omega)

theorem idram_parts : model.idram.Parts SameChannel where
  tick h := ⟨congrArg (· + 1) h.clk, h.channel, h.openRows⟩
  getPreqCommand h cmd addrVec haddr := by
    show model.getPreqCommand _ cmd addrVec = model.getPreqCommand _ cmd addrVec
    unfold DRAMModel.getPreqCommand
    rw [h.channelOf haddr, h.clk]
  checkReady h cmd addrVec haddr := by
    show model.checkReady _ cmd addrVec = model.checkReady _ cmd addrVec
    unfold DRAMModel.checkReady
    rw [h.channelOf haddr, h.clk]
  issueCommand {i dev dev'} h cmd addrVec haddr := by
    show SameChannel i (model.issueCommand _ cmd addrVec) (model.issueCommand _ cmd addrVec)
    unfold DRAMModel.issueCommand
    split
    · exact h
    · refine ⟨h.clk, fun hi => ?_, fun hi => ?_⟩
      · simp only [List.getElem?_modify, h.channel hi, h.clk]
      · simp only [List.getElem?_modify, h.openRows hi]
  elsewhere {i dev dev'} h cmd addrVec haddr := by
    show SameChannel i (model.issueCommand _ cmd addrVec) dev'
    unfold DRAMModel.issueCommand
    split
    · exact h
    · have hne : 0 ≤ i → (addrVec.at 0).toNat ≠ i.toNat := by omega
      exact ⟨h.clk,
        fun hi => (List.getElem?_modify_ne _ _ (hne hi)).trans (h.channel hi),
        fun hi => (List.getElem?_modify_ne _ _ (hne hi)).trans (h.openRows hi)⟩
  openRows {i dev dev'} h hi := by
    show dev.openRows.getD i.toNat 0 = dev'.openRows.getD i.toNat 0
    rw [List.getD_eq_getElem?_getD, List.getD_eq_getElem?_getD, h.openRows hi]

end DRAMModel

end AimSimulator.Dram

namespace AimSimulator.Controller

open Dram

variable {Dev Cmd : Type} {iface : IDRAM Dev Cmd} {agree : Int → Dev → Dev → Prop}

/-! ## Scheduling -/

theorem FRFCFS.getBestRequest_congr {dev dev' : Dev} {b : ReqBuffer Cmd} (id : BufferId)
    (hpreq : ∀ q ∈ b.buffer, iface.getPreqCommand dev q.finalCommand q.req.addrVec =
      iface.getPreqCommand dev' q.finalCommand q.req.addrVec)
    (hready : ∀ q ∈ b.buffer, ∀ cmd, iface.checkReady dev cmd q.req.addrVec =
      iface.checkReady dev' cmd q.req.addrVec) :
    (FRFCFS.getBestRequest iface dev id b).filter (Scheduled.ready iface dev) =
      (FRFCFS.getBestRequest iface dev' id b).filter (Scheduled.ready iface dev') := by
  have hcandidates : b.buffer.mapIdx (candidate iface dev id) =
      b.buffer.mapIdx (candidate iface dev' id) := by
    rw [List.mapIdx_eq_mapIdx_iff]
    intro i hi
    unfold candidate
    rw [hpreq _ (List.getElem_mem hi)]
  have hstands : ∀ s ∈ b.buffer.mapIdx (candidate iface dev' id), s.req ∈ b.buffer := by
    intro s hs
    obtain ⟨i, hi, rfl⟩ := List.mem_mapIdx.mp hs
    exact List.getElem_mem hi
  have hsame : ∀ s ∈ b.buffer.mapIdx (candidate iface dev' id),
      s.ready iface dev = s.ready iface dev' := fun s hs => hready _ (hstands s hs) _
  unfold FRFCFS.getBestRequest
  rw [hcandidates]
  generalize b.buffer.mapIdx (candidate iface dev' id) = candidates at hsame
  cases candidates with
  | nil => rfl
  | cons c cs =>
      have hbest : Best.best (FRFCFS.prefers iface dev) c cs =
          Best.best (FRFCFS.prefers iface dev') c cs := by
        refine Best.best_congr fun s hs s' hs' => ?_
        unfold FRFCFS.prefers
        rw [hsame s hs, hsame s' hs']
      dsimp only
      rw [hbest, Option.filter_some, Option.filter_some, hsame _ (Best.best_mem c cs)]

namespace GenericDRAMController

variable [DecidableEq Cmd] {params : GenericParams} {c c' : GenericDRAMController Cmd} {i : Int}
  {dev dev' e : Dev}

abbrev OfChannel (i : Int) (req : Request) (_ : Cmd) : Prop := req.addrVec.at 0 = i

omit [DecidableEq Cmd] in
theorem refreshOf_channel (hlevels : 0 < iface.numLevels) (params : GenericParams) (rank : Nat) :
    Given iface (OfChannel params.channelId) (refreshOf iface params rank) := by
  intro final _
  show AddrVec.at (((List.replicate iface.numLevels (-1)).set 0 params.channelId).set 1 rank) 0 = _
  unfold AddrVec.at
  rw [List.getD_eq_getElem?_getD, List.getElem?_set_ne (by decide), List.getElem?_set_self]
  · rfl
  · rw [List.length_replicate]
    exact hlevels

omit [DecidableEq Cmd] in
theorem scheduleRequest_congr (hparts : iface.Parts agree) (hagree : agree i dev dev')
    (hold : c.toQueues.Hold (OfChannel i)) :
    c.scheduleRequest iface params dev = c.scheduleRequest iface params dev' := by
  have hbest : ∀ id, (FRFCFS.getBestRequest iface dev id (c.bufferOf id)).filter
        (Scheduled.ready iface dev) =
      (FRFCFS.getBestRequest iface dev' id (c.bufferOf id)).filter (Scheduled.ready iface dev') :=
    fun id => FRFCFS.getBestRequest_congr id
      (fun q hq => hparts.getPreqCommand hagree _ _ (hold.buffered id hq))
      (fun q hq cmd => hparts.checkReady hagree _ _ (hold.buffered id hq))
  have hhead : ∀ q qs, c.priorityBuffer.buffer = q :: qs →
      (some (candidate iface dev .priority 0 q)).filter (Scheduled.ready iface dev) =
        (some (candidate iface dev' .priority 0 q)).filter (Scheduled.ready iface dev') := by
    intro q qs heq
    have haddr : q.req.addrVec.at 0 = i :=
      hold.buffered .priority (show q ∈ c.priorityBuffer.buffer from heq ▸ List.mem_cons_self)
    unfold candidate
    rw [Option.filter_some, Option.filter_some, hparts.getPreqCommand hagree _ _ haddr]
    unfold Scheduled.ready
    rw [hparts.checkReady hagree _ _ haddr]
  unfold scheduleRequest
  have hactive := hbest .active
  unfold Queues.bufferOf at hactive
  dsimp only at hactive
  rw [hactive]
  split
  · rfl
  · split
    · next q qs heq => rw [hhead q qs heq]
    · dsimp only
      have hmode : (c.setWriteMode params).toQueues = c.toQueues := rfl
      rw [hmode, hbest]

/-! ## A tick -/

omit [DecidableEq Cmd] in
theorem issued_congr (hparts : iface.Parts agree) (hagree : agree i dev dev')
    (hrefresh : ∀ rank, Given iface (OfChannel i) (refreshOf iface params rank))
    (hold : c.toQueues.Hold (OfChannel i)) :
    c.issued iface params dev = c.issued iface params dev' := by
  unfold issued nextScheduled
  cases hprep : c.prepare iface params with
  | none => rfl
  | some prepared =>
      obtain ⟨c₁, called⟩ := prepared
      dsimp only [Option.bind_some]
      rw [scheduleRequest_congr hparts hagree (prepare_hold hprep hrefresh hold)]

theorem tick_own (hparts : iface.Parts agree) (hagree : agree i dev e)
    (hrefresh : ∀ rank, Given iface (OfChannel i) (refreshOf iface params rank))
    (hold : c.toQueues.Hold (OfChannel i)) {plugins : List Request} {called : List (Queued Cmd)}
    (h : c.tick iface params dev plugins = some (c', dev', called)) :
    ∃ e', c.tick iface params e plugins = some (c', e', called) ∧ agree i dev' e' := by
  obtain ⟨⟨c₁, called₁⟩, hprep, h⟩ := Option.bind_eq_some_iff.mp h
  obtain ⟨c₂, hsent, heq⟩ := Option.map_eq_some_iff.mp h
  simp only [Prod.mk.injEq] at heq
  obtain ⟨rfl, rfl, rfl⟩ := heq
  have hold₁ := prepare_hold hprep hrefresh hold
  unfold tick
  rw [hprep, Option.bind_some]
  dsimp only
  rw [← scheduleRequest_congr hparts hagree hold₁, hsent]
  cases hfound : (c₁.scheduleRequest iface params dev).2 with
  | none => exact ⟨e, rfl, hagree⟩
  | some s =>
      have hstands := List.mem_of_getElem? (scheduleRequest_stands hfound).2
      exact ⟨_, rfl, hparts.issueCommand hagree _ _ (hold₁.buffered _ hstands)⟩

theorem tick_other (hparts : iface.Parts agree) {j : Int} (hne : j ≠ i) (hagree : agree i dev e)
    (hrefresh : ∀ rank, Given iface (OfChannel j) (refreshOf iface params rank))
    (hold : c.toQueues.Hold (OfChannel j)) {plugins : List Request} {called : List (Queued Cmd)}
    (h : c.tick iface params dev plugins = some (c', dev', called)) : agree i dev' e := by
  rw [tick_device h]
  cases hissued : c.issued iface params dev with
  | none => exact hagree
  | some issue =>
      obtain ⟨cmd, addrVec⟩ := issue
      obtain ⟨req, final, hchannel, rfl, -, -⟩ := issued_cases hissued hrefresh hold
      exact hparts.elsewhere hagree cmd _ (by rw [hchannel]; exact hne)

end GenericDRAMController

/-! ## The AiM controller -/

namespace AiMDRAMController

variable [DecidableEq Cmd] {params : Params} {c c' : AiMDRAMController Cmd} {i : Int}
  {dev dev' e : Dev} {events : List (Event Cmd)}

/-- A request for channel `i`; the barriers of the AiM buffer have no address. -/
def OfChannel (i : Int) (id : BufferId) (req : Request) : Prop :=
  req.addrVec.at 0 = i ∨ id = .aim ∧ req.opcode.isBarrier = true

/-- The buffers hold requests for channel `i`. -/
def Local (i : Int) (c : Queues Cmd) : Prop :=
  ∀ id, ∀ q ∈ (c.bufferOf id).buffer, OfChannel i id q.req

omit [DecidableEq Cmd] in
theorem Local.at_zero {c : Queues Cmd} (hlocal : Local i c) {id : BufferId} (hid : id ≠ .aim)
    {q : Queued Cmd} (hq : q ∈ (c.bufferOf id).buffer) : q.req.addrVec.at 0 = i :=
  (hlocal id q hq).resolve_right fun h => hid h.1

omit [DecidableEq Cmd] in
theorem Local.queueStep {c c' : Queues Cmd}
    (hstep : QueueStep iface (fun _ => OfChannel i) c events c') (hlocal : Local i c) :
    Local i c' := by
  intro id q hq
  cases hstep with
  | accept _ _ hadmits _ _ =>
      rcases mem_push hq with hq | ⟨rfl, rfl⟩
      · exact hlocal id q hq
      · exact hadmits
  | _ => cases id <;> exact hlocal _ q hq

theorem Local.serveStep {c c' : Queues Cmd} {s : Scheduled Cmd}
    (hs : (c.bufferOf s.buffer).buffer[s.index]? = some s.req)
    (hstep : ServeStep iface c s events c') (hlocal : Local i c) : Local i c' := by
  intro id q' hq'
  have hmoved := serve_mem hstep hs id hq'
  cases hstep with
  | barrier _ =>
      have hq' : q' ∈ ((c.removeAt s.buffer s.index).bufferOf id).buffer := by
        cases id <;> exact hq'
      exact hlocal id q' (mem_removeAt hq')
  | issue hbarrier _ =>
      rcases hmoved with ⟨q, hq, hsame⟩ | ⟨rfl, hsame, -⟩
      · rw [OfChannel, hsame.req]
        exact hlocal id q hq
      · rw [OfChannel, hsame.req]
        refine .inl ((hlocal _ _ (List.mem_of_getElem? hs)).resolve_right fun h => ?_)
        rw [hbarrier] at h
        cases h.2

omit [DecidableEq Cmd] in
theorem Local.prepare (hchannel : ∀ rank, OfChannel i .priority (refreshRequest iface params rank))
    (hprep : c.prepare iface params = some (c', events)) (hlocal : Local i c.toQueues) :
    Local i c'.toQueues :=
  @prepare_induct _ _ iface params (fun _ => OfChannel i) (fun c _ => Local i c)
    (fun _ _ _ _ hstep h => h.queueStep hstep) c c' [] events (fun _ rank _ _ => hchannel rank)
    hprep hlocal

omit [DecidableEq Cmd] in
theorem refreshRequest_ofChannel (hlevels : 0 < iface.numLevels) (params : Params) (rank : Nat) :
    OfChannel params.channelId .priority (refreshRequest iface params rank) := by
  refine .inl ?_
  show AddrVec.at (((List.replicate iface.numLevels (-1)).set 0 params.channelId).set 1 rank) 0 = _
  unfold AddrVec.at
  rw [List.getD_eq_getElem?_getD, List.getElem?_set_ne (by decide), List.getElem?_set_self]
  · rfl
  · rw [List.length_replicate]
    exact hlevels

omit [DecidableEq Cmd] in
theorem scheduleRequest_congr (hparts : iface.Parts agree) (hagree : agree i dev dev')
    (hlocal : Local i c.toQueues) :
    c.scheduleRequest iface params dev = c.scheduleRequest iface params dev' := by
  have hbest : ∀ id, id ≠ .aim →
      (FRFCFS.getBestRequest iface dev id (c.bufferOf id)).filter (Scheduled.ready iface dev) =
        (FRFCFS.getBestRequest iface dev' id (c.bufferOf id)).filter (Scheduled.ready iface dev') :=
    fun id hid => FRFCFS.getBestRequest_congr id
      (fun q hq => hparts.getPreqCommand hagree _ _ (hlocal.at_zero hid hq))
      (fun q hq cmd => hparts.checkReady hagree _ _ (hlocal.at_zero hid hq))
  have hhead : ∀ id (q : Queued Cmd), q.req.addrVec.at 0 = i →
      (some (candidate iface dev id 0 q)).filter (Scheduled.ready iface dev) =
        (some (candidate iface dev' id 0 q)).filter (Scheduled.ready iface dev') := by
    intro id q haddr
    unfold candidate
    rw [Option.filter_some, Option.filter_some, hparts.getPreqCommand hagree _ _ haddr]
    unfold Scheduled.ready
    rw [hparts.checkReady hagree _ _ haddr]
  unfold scheduleRequest
  have hactive := hbest .active (by decide)
  unfold Queues.bufferOf at hactive
  dsimp only at hactive
  rw [hactive]
  split
  · rfl
  · split
    · next q qs heq =>
        have hmem : q ∈ (c.bufferOf .priority).buffer :=
          show q ∈ c.priorityBuffer.buffer from heq ▸ List.mem_cons_self
        rw [hhead .priority q (hlocal.at_zero (by decide) hmem)]
    · split
      · next q qs heq =>
          split
          · rfl
          · next hbarrier =>
              have hmem : q ∈ (c.bufferOf .aim).buffer :=
                show q ∈ c.aimBuffer.buffer from heq ▸ List.mem_cons_self
              rw [hhead .aim q ((hlocal .aim q hmem).resolve_right fun h => hbarrier h.2)]
      · dsimp only
        rw [setWriteMode_toQueues, hbest _ (by split <;> decide)]

/-! ### A tick -/

theorem tick_local (hchannel : ∀ rank, OfChannel i .priority (refreshRequest iface params rank))
    (hlocal : Local i c.toQueues) (h : c.tick iface params dev = some (c', dev', events)) :
    Local i c'.toQueues :=
  @tick_induct _ _ _ iface params (fun _ => OfChannel i) (fun c _ => Local i c)
    (fun _ _ _ _ hstep h => h.queueStep hstep) c c' dev dev' [] events
    (fun _ rank _ _ => hchannel rank)
    (fun _ _ hnext _ _ _ h hstep => h.serveStep (nextScheduled_picked iface hnext).stands hstep)
    h hlocal

theorem serveScheduled_own (hparts : iface.Parts agree) (hagree : agree i dev e)
    {found : Option (Scheduled Cmd)}
    (haddr : ∀ s, found = some s → s.req.req.opcode.isBarrier = false → s.req.req.addrVec.at 0 = i)
    (h : c.serveScheduled iface dev found = some (c', dev', events)) :
    ∃ e', c.serveScheduled iface e found = some (c', e', events) ∧ agree i dev' e' := by
  cases found with
  | none =>
      unfold serveScheduled at h ⊢
      dsimp only at h ⊢
      split at h
      · next hidle =>
          rw [if_pos hidle]
          obtain ⟨rfl, rfl, rfl⟩ := Option.some.inj h
          exact ⟨e, rfl, hagree⟩
      · next hidle =>
          rw [if_neg hidle]
          obtain ⟨rfl, rfl, rfl⟩ := Option.some.inj h
          exact ⟨e, rfl, hagree⟩
  | some s =>
      unfold serveScheduled at h ⊢
      dsimp only at h ⊢
      split at h
      · next hbarrier =>
          rw [if_pos hbarrier]
          obtain ⟨rfl, rfl, rfl⟩ := Option.some.inj h
          exact ⟨e, rfl, hagree⟩
      · next hbarrier =>
          rw [if_neg hbarrier]
          obtain ⟨requires, hrequires, heq⟩ := Option.map_eq_some_iff.mp h
          obtain ⟨rfl, rfl, rfl⟩ := heq
          unfold serveRequest
          rw [hrequires]
          refine ⟨_, rfl, hparts.issueCommand hagree _ _ ?_⟩
          rw [(SameRequest.stampIssue _ s.req).req]
          exact haddr s rfl (Bool.not_eq_true _ ▸ hbarrier)

omit [DecidableEq Cmd] in
theorem countStandby_congr (hparts : iface.Parts agree) (hagree : agree params.channelId dev dev')
    (hnonneg : 0 ≤ params.channelId) :
    c.countStandby iface params dev = c.countStandby iface params dev' := by
  unfold countStandby
  rw [hparts.openRows hagree hnonneg]

omit [DecidableEq Cmd] in
theorem scheduled_channel {s : Scheduled Cmd} (hlocal : Local i c.toQueues)
    (hfound : (c.scheduleRequest iface params dev).2 = some s)
    (hbarrier : s.req.req.opcode.isBarrier = false) : s.req.req.addrVec.at 0 = i := by
  have hstands := (scheduleRequest_picked iface hfound).stands
  refine (hlocal _ _ (List.mem_of_getElem? hstands)).resolve_right fun h => ?_
  rw [hbarrier] at h
  cases h.2

theorem tick_own (hparts : iface.Parts agree) (hagree : agree params.channelId dev e)
    (hnonneg : 0 ≤ params.channelId)
    (hchannel : ∀ rank, OfChannel params.channelId .priority (refreshRequest iface params rank))
    (hlocal : Local params.channelId c.toQueues)
    (h : c.tick iface params dev = some (c', dev', events)) :
    ∃ e', c.tick iface params e = some (c', e', events) ∧ agree params.channelId dev' e' := by
  obtain ⟨⟨c₁, prepared⟩, hprep, h⟩ := Option.bind_eq_some_iff.mp h
  obtain ⟨⟨c₂, dev₂, served⟩, hserved, heq⟩ := Option.map_eq_some_iff.mp h
  simp only [Prod.mk.injEq] at heq
  obtain ⟨rfl, rfl, rfl⟩ := heq
  have hlocal₁ := hlocal.prepare hchannel hprep
  obtain ⟨e', hserved', hagree'⟩ := serveScheduled_own hparts hagree
    (fun s hs hbarrier => scheduled_channel hlocal₁ hs hbarrier) hserved
  refine ⟨e', ?_, hagree'⟩
  unfold tick
  rw [hprep, Option.bind_some]
  dsimp only
  rw [← scheduleRequest_congr hparts hagree hlocal₁, hserved',
    countStandby_congr hparts hagree' hnonneg]
  rfl

theorem tick_other (hparts : iface.Parts agree) {j : Int} (hne : j ≠ i) (hagree : agree i dev e)
    (hchannel : ∀ rank, OfChannel j .priority (refreshRequest iface params rank))
    (hlocal : Local j c.toQueues) (h : c.tick iface params dev = some (c', dev', events)) :
    agree i dev' e := by
  rcases tick_device h with ⟨rfl, -⟩ | ⟨c₁, s, cmd, hissues, rfl, -⟩
  · exact hagree
  · obtain ⟨prepared, hprep, hfound⟩ := nextScheduled_cases iface hissues.next
    have haddr := scheduled_channel (hlocal.prepare hchannel hprep) hfound hissues.notBarrier
    exact hparts.elsewhere hagree cmd _ (by rw [haddr]; exact hne)

end AiMDRAMController

/-- A call that concerns channel `i` alone, and no other controller's command. -/
def Own (i : Int) : Call Cmd → Prop
  | .send req | .prioritySend req => req.addrVec.at 0 = i
  | .tick plugins => ∀ req ∈ plugins, req.addrVec.at 0 = i
  | .issueElsewhere _ _ => False

end AimSimulator.Controller
